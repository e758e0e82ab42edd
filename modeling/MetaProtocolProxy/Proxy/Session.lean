import MetaProtocolProxy.Lib.Simulation
import MetaProtocolProxy.Proxy.Ownership
import MetaProtocolProxy.Receive
/-
# A downstream connection from its bytes on (conn_manager.cc, decoder.cc, heartbeat_response.cc)

`ConnectionManager` as the network calls it: `onNewConnection`, `onData` with the bytes of a read,
close events and the idle timer, together with the events of `step` that come from the other side.
The decoder runs on the real callbacks: a heartbeat is answered, a message goes through
`onMessageDecoded`, and what either throws ends in the `catch` of `dispatch`.

* `session_refines` — whatever the codec, the bytes, the chunks and the order of the events, a
  session is a run of the event level, so that what holds of every such run holds of every
  connection.
* `idle_timer_exact` — the idle timer fires when nothing has been dispatched for the timeout, and at
  most once.

| here | there |
| --- | --- |
| `Answer` | what the filters, the route table, the cluster manager and the pool say to one message |
| `heartbeats` | what `onHeartbeat` has written |
| `timer` | `idle_timer_` and the time it is enabled for; `none` is the null pointer |
| `hung` | `dispatch` has not returned after one iteration per byte; the state is the one before the call |
| `SessionEvent.elapse` | the clock, which does not pass a timer that is due |

Of the counters those are modelled that only conn_manager.cc increments. As in `step`, there is no
event for the bytes of a stream's upstream connection; `Stream` decodes them with the codec of this
connection (`Trpc.SharedCodec`).
-/
namespace MetaProtocolProxy

open Framing (drain Step)

variable {σ α : Type}

structure Answer where
  encoders : List EncoderVerdict := []
  filters : List DecoderVerdict := []
  env : RouterEnv := {}
  deriving DecidableEq, Repr

/-- `MetaProtocolProxyStats`. -/
structure Stats where
  requestDecodingError : Nat := 0
  idleTimeout : Nat := 0
  cxDestroyLocalWithActiveRq : Nat := 0
  cxDestroyRemoteWithActiveRq : Nat := 0
  deriving DecidableEq, Repr

structure Front (σ α : Type) where
  manager : ConnectionManager σ α := {}
  heartbeats : List Bytes := []

structure Session (σ α : Type) where
  front : Front σ α := {}
  decoder : DecoderBase := {}
  codec : σ
  requestBuffer : Bytes := []
  timer : Option Nat := none
  now : Nat := 0
  stats : Stats := {}
  hung : Bool := false

/-- A connection's configuration: the proxy's, the answers to its messages by their number, and
`idle_timeout`. -/
structure Setup (σ α : Type) where
  cfg : Config σ α
  answers : MsgId → Answer
  idleTimeout : Option Nat := none

inductive SessionEvent (α : Type)
  /-- Bytes of the client, and whether they are the last ones. -/
  | data (bytes : Bytes) (endStream : Bool)
  | elapse (d : Nat)
  | idleTimeout
  /-- An event from the other side, a close event or the dispatcher's turn. -/
  | manager (e : Event α)

section Model

variable (su : Setup σ α)

/-- `ConnectionManager::onHeartbeat` (conn_manager.cc:94-107). -/
def onHeartbeat (md : Metadata α) (w : Front σ α) : Except Failure Bool × Front σ α :=
  if w.manager.connectionOpen then
    match HeartbeatResponse.encode su.cfg.codec md [] with
    | .error e => (.error e, w)
    | .ok bytes => (.ok false, { w with heartbeats := w.heartbeats ++ [bytes] })
  else (.ok false, w)

/-- `newMessageHandler` and `onMessageDecoded` on it; nothing returns from a process that is
gone. -/
def messageDecoded (md : Metadata α) (w : Front σ α) : Except Failure Unit × Front σ α :=
  let a := su.answers w.manager.nextMessage
  match onMessageDecoded su.cfg w.manager md a.encoders a.filters a.env with
  | (.error e, cm) => (.error e, { w with manager := cm })
  | (.ok _, cm) => (if cm.crashed then .error (.panicked "") else .ok (), { w with manager := cm })

/-- The connection manager as the decoder's `DecoderCallbacks`. -/
def requestDelegate : Delegate (Front σ α) α where
  onHeartbeat := onHeartbeat su
  newStream md _ := messageDecoded su md

variable (s : Session σ α)

/-- `resetIdleTimer` (conn_manager.cc:226-231). -/
def resetIdleTimer : Session σ α :=
  match s.timer, su.idleTimeout with
  | some _, some t => { s with timer := some (s.now + t) }
  | _, _ => s

/-- `resetAllMessages` counts the messages it finds. -/
def countReset (local_reset : Bool) : Stats :=
  let n := s.front.manager.activeMessageList.length
  if local_reset then { s.stats with cxDestroyLocalWithActiveRq := s.stats.cxDestroyLocalWithActiveRq + n }
  else { s.stats with cxDestroyRemoteWithActiveRq := s.stats.cxDestroyRemoteWithActiveRq + n }

def setManager (cm : ConnectionManager σ α) : Session σ α :=
  { s with front := { s.front with manager := cm } }

/-- `ConnectionManager::onEvent` for a close event (conn_manager.cc:62-73). -/
def Session.onEvent (event : ConnectionEvent) : Session σ α :=
  { setManager s (onDownstreamClose s.front.manager) with
    timer := none, stats := countReset s (event = .localClose) }

/-- `dispatch`'s `catch` clause: `close` raises the close event before it returns. -/
def onDispatchError (e : Failure) : Session σ α :=
  if e.isEnvoyException then
    let s := Session.onEvent s .localClose
    { s with stats := { s.stats with requestDecodingError := s.stats.requestDecodingError + 1 } }
  else setManager s s.front.manager.crash

/-- `ConnectionManager::dispatch` (conn_manager.cc:109-133). -/
def dispatchRequests : Session σ α :=
  if s.requestBuffer.isEmpty then s
  else
    let s := resetIdleTimer su s
    match dispatchLoop su.cfg.codec .request (requestDelegate su) (s.requestBuffer.length + 1)
        s.decoder s.codec s.front s.requestBuffer with
    | none => { s with hung := true }
    | some r =>
      let s := { s with front := r.world, decoder := r.decoder, codec := r.codec, requestBuffer := r.buffer }
      match r.result with
      | .ok _ => s
      | .error e => onDispatchError s e

/-- The client has sent its last bytes (conn_manager.cc:33-41); the close event comes when the
writes are flushed. -/
def onEndStream : Session σ α :=
  { setManager s (step su.cfg s.front.manager .downstreamEnd) with stats := countReset s false }

def Session.alive : Bool := !s.hung && !s.front.manager.crashed

/-- `ConnectionManager::onData` (conn_manager.cc:28-43). -/
def Session.onData (data : Bytes) (endStream : Bool) : Session σ α :=
  let s := dispatchRequests su { s with requestBuffer := s.requestBuffer ++ data }
  if endStream && s.alive then onEndStream su s else s

/-- `onIdleTimeout` (conn_manager.cc:218-224); `close` disables the timer. -/
def onIdleTimeout : Session σ α :=
  let stats := countReset s true
  { setManager s (step su.cfg s.front.manager .idleTimeout) with
    timer := none, stats := { stats with idleTimeout := stats.idleTimeout + 1 } }

/-- `onNewConnection` (conn_manager.cc:45-53). -/
def Session.start : Session σ α := { codec := su.cfg.codec.init, timer := su.idleTimeout }

def sessionStep : SessionEvent α → Session σ α
  | .data bytes endStream => Session.onData su s bytes endStream
  | .elapse d => { s with now := s.now + d }
  | .idleTimeout => onIdleTimeout su s
  | .manager (.downstreamEvent event) => Session.onEvent s event
  | .manager e => setManager s (step su.cfg s.front.manager e)

def Event.FromOutside : Event α → Prop
  | .decoded .. | .downstreamEnd | .idleTimeout => False
  | _ => True

/-- What can happen: bytes arrive on an open connection, the clock stops at a timer until it has
fired, and the rest as the event level has it. -/
def SessionEnabled (e : SessionEvent α) : Prop :=
  s.alive = true ∧
    match e with
    | .data _ _ => s.front.manager.connectionOpen = true
    | .elapse d => ∀ t, s.timer = some t → s.now + d ≤ t
    | .idleTimeout => s.timer = some s.now
    | .manager e => e.FromOutside ∧ Enabled s.front.manager e

/-- The events of the event level. -/
def ManagerEnabled (cm : ConnectionManager σ α) : ManagerEvent α → Prop
  | .event e => Enabled cm e
  | .decodeError _ => cm.crashed = false

end Model

/-! ## What the decoder's calls do -/

section Calls

variable (su : Setup σ α)

/-- The call for one decoded message. -/
def handle (md : Metadata α) (w : Front σ α) : Except Failure Unit × Front σ α :=
  if md.messageType = .heartbeat then ((onHeartbeat su md w).1.map fun _ => (), (onHeartbeat su md w).2)
  else messageDecoded su md w

def handleAll : List (Metadata α) → Front σ α → Except Failure Unit × Front σ α
  | [], w => (.ok (), w)
  | md :: mds, w =>
    match handle su md w with
    | (.error e, w) => (.error e, w)
    | (.ok _, w) => handleAll mds w

variable {su} {w w' : Front σ α} {md : Metadata α} {mds : List (Metadata α)} {e : Failure}
  {d : DecoderBase} {s s' : σ} {data rest : Bytes} (fuel : Nat)

theorem handleAll_error (h : handle su md w = (.error e, w')) :
    handleAll su (md :: mds) w = (.error e, w') := by
  rw [handleAll, h]

theorem handleAll_ok {u : Unit} (h : handle su md w = (.ok u, w')) :
    handleAll su (md :: mds) w = handleAll su mds w' := by
  rw [handleAll, h]

/-- The heartbeats of a client are answered or ignored: the loop never waits behind one. -/
theorem onHeartbeat_ne_true (md : Metadata α) (w : Front σ α) : (onHeartbeat su md w).1 ≠ .ok true := by
  unfold onHeartbeat
  split
  · split <;> simp
  · simp

/-- One decoded message: its call, and the loop goes on if that returns and anything is left. -/
theorem dispatchLoop_handle (h : su.cfg.codec.decodeAs .request s data = .done s' md rest) :
    dispatchLoop su.cfg.codec .request (requestDelegate su) (fuel + 1) d s w data =
      match handle su md w with
      | (.error e, w') => some ⟨.error e, d.started, s', w', rest⟩
      | (.ok _, w') =>
        if rest.isEmpty then some ⟨.ok (), {}, s', w', rest⟩
        else dispatchLoop su.cfg.codec .request (requestDelegate su) fuel {} s' w' rest := by
  by_cases hb : md.messageType = .heartbeat
  · rcases hcall : onHeartbeat su md w with ⟨e | b, w'⟩
    · simp [dispatchLoop, DecoderBase.onData, onDecodeStream, h, hb, handle, requestDelegate, hcall,
        DecoderBase.started, Except.map]
    · cases b with
      | true => exact absurd (by rw [hcall]) (onHeartbeat_ne_true md w)
      | false =>
        have hanswer : (requestDelegate su).onHeartbeat md w = (.ok false, w') := hcall
        rw [dispatchLoop_heartbeat fuel h hb hanswer]
        simp [handle, hb, hcall, Except.map]
  · rw [dispatchLoop_done fuel h hb]
    simp only [handle, if_neg hb, requestDelegate]
    rcases messageDecoded su md w with ⟨e | u, w'⟩ <;> rfl

/-- The loop makes the calls of some messages; it ends with them, or the codec throws behind
them. -/
theorem dispatchLoop_handled {r : Ran Unit σ (Front σ α)}
    (h : dispatchLoop su.cfg.codec .request (requestDelegate su) fuel d s w data = some r) :
    ∃ mds, handleAll su mds w = (r.result, r.world) ∨ ∃ e, r.result = .error e ∧
      handleAll su mds w = (.ok (), r.world) := by
  induction fuel generalizing d s w data with
  | zero => cases h
  | succ fuel ih =>
    cases hdec : su.cfg.codec.decodeAs .request s data with
    | wait s₁ rest₁ =>
      rw [dispatchLoop_wait fuel hdec] at h
      cases h
      exact ⟨[], .inl rfl⟩
    | fail s₁ rest₁ e =>
      rw [dispatchLoop_fail fuel hdec] at h
      cases h
      exact ⟨[], .inr ⟨e, rfl, rfl⟩⟩
    | done s₁ md rest₁ =>
      rw [dispatchLoop_handle fuel hdec] at h
      rcases hcall : handle su md w with ⟨e | u, w₁⟩ <;> rw [hcall] at h
      · cases h
        exact ⟨[md], .inl (handleAll_error hcall)⟩
      · dsimp only at h
        split at h
        · cases h
          exact ⟨[md], .inl (handleAll_ok hcall)⟩
        · obtain ⟨mds, hmds⟩ := ih h
          exact ⟨md :: mds, by rwa [handleAll_ok hcall]⟩

/-- Where the codec finds the messages `mds` in the buffer, the loop makes their calls. -/
theorem dispatchLoop_drained (hne : data ≠ [])
    (h : drain (su.cfg.codec.decodeAs .request) fuel s data = ⟨s', rest, mds, .underflow⟩) :
    ∃ r, dispatchLoop su.cfg.codec .request (requestDelegate su) fuel d s w data = some r ∧
      handleAll su mds w = (r.result, r.world) ∧ (r.result = .ok () → r.codec = s' ∧ r.buffer = rest) := by
  induction fuel generalizing d s w data mds with
  | zero => simp [drain] at h
  | succ fuel ih =>
    cases hdec : su.cfg.codec.decodeAs .request s data with
    | wait s₁ rest₁ =>
      rw [Framing.drain_wait hne hdec] at h
      obtain ⟨rfl, rfl, rfl, -⟩ := Framing.Drained.mk.inj h
      exact ⟨_, dispatchLoop_wait fuel hdec, rfl, fun _ => ⟨rfl, rfl⟩⟩
    | fail s₁ rest₁ e => simp [drain, hne, hdec] at h
    | done s₁ md rest₁ =>
      obtain ⟨mds, rfl, hrec⟩ := Framing.drain_done_inv hne hdec h
      rw [dispatchLoop_handle fuel hdec]
      rcases hcall : handle su md w with ⟨e | u, w₁⟩
      · exact ⟨_, rfl, handleAll_error hcall, fun hok => by cases hok⟩
      · rw [handleAll_ok hcall]
        dsimp only
        split
        next hempty =>
          -- the last message took all the data: the loop ends at once, `drain` one call later
          rw [List.isEmpty_iff] at hempty
          subst hempty
          cases fuel with
          | zero => simp [drain] at hrec
          | succ fuel =>
            rw [Framing.drain_nil] at hrec
            obtain ⟨rfl, rfl, rfl, -⟩ := Framing.Drained.mk.inj hrec
            exact ⟨_, rfl, rfl, fun _ => ⟨rfl, rfl⟩⟩
        next hrest => exact ih (by simpa using hrest) hrec

end Calls

/-! ## A session as a run of the event level -/

section Refinement

variable {su : Setup σ α} {w w' : Front σ α} {md : Metadata α} {mds : List (Metadata α)} {e : Failure}

def ManagerEvent.decoded? : ManagerEvent α → Option (Metadata α)
  | .event (.decoded md _ _ _) => some md
  | _ => none

def decodedIn (fs : List (ManagerEvent α)) : List (Metadata α) := fs.filterMap ManagerEvent.decoded?

def messagesOf (mds : List (Metadata α)) : List (Metadata α) :=
  mds.filter fun md => md.messageType ≠ .heartbeat

theorem crash_of_crashed {cm : ConnectionManager σ α} (h : cm.crashed = true) : cm.crash = cm := by
  rw [ConnectionManager.crash, ← h]

/-- The manager after the `catch` clause. -/
def settled : Except Failure Unit × Front σ α → ConnectionManager σ α
  | (.ok _, w) => w.manager
  | (.error e, w) => dispatchFailed w.manager e

def decodedEvent (su : Setup σ α) (md : Metadata α) (cm : ConnectionManager σ α) : ManagerEvent α :=
  let a := su.answers cm.nextMessage
  .event (.decoded md a.encoders a.filters a.env)

inductive FromClient (su : Setup σ α) : ManagerEvent α → Prop
  | decoded (md : Metadata α) (cm : ConnectionManager σ α) : FromClient su (decodedEvent su md cm)
  | decodeError (e : Failure) : FromClient su (.decodeError e)

theorem onHeartbeat_manager (su : Setup σ α) (md : Metadata α) (w : Front σ α) :
    (onHeartbeat su md w).2.manager = w.manager := by
  unfold onHeartbeat
  split
  · split <;> rfl
  · rfl

theorem messageDecoded_settled (su : Setup σ α) (md : Metadata α) (w : Front σ α) :
    settled (messageDecoded su md w) = managerStep su.cfg w.manager (decodedEvent su md w.manager) := by
  simp only [messageDecoded, decodedEvent, managerStep, step]
  rcases onMessageDecoded su.cfg w.manager md (su.answers w.manager.nextMessage).encoders
    (su.answers w.manager.nextMessage).filters (su.answers w.manager.nextMessage).env with ⟨e | u, cm⟩
  · rfl
  · by_cases hc : cm.crashed = true
    · simp only [hc, if_true, settled]
      exact crash_of_crashed hc
    · simp only [hc, settled]
      rfl

theorem messageDecoded_alive {u : Unit} (h : messageDecoded su md w = (.ok u, w')) :
    w'.manager.crashed = false := by
  simp only [messageDecoded] at h
  split at h
  · cases h
  · split at h
    · cases h
    next hc =>
      cases h
      simpa using hc

theorem handle_matched (halive : w.manager.crashed = false) (md : Metadata α) :
    ∃ fs, Runs.Guarded (managerStep su.cfg) ManagerEnabled w.manager fs ∧ (∀ f ∈ fs, FromClient su f) ∧
      settled (handle su md w) = Runs.run (managerStep su.cfg) w.manager fs ∧
        decodedIn fs = messagesOf [md] := by
  by_cases hb : md.messageType = .heartbeat
  · have hnone : messagesOf [md] = [] := by simp [messagesOf, hb]
    have hmanager := onHeartbeat_manager su md w
    rw [handle, if_pos hb, hnone]
    rcases hcall : onHeartbeat su md w with ⟨e | b, w'⟩ <;> rw [hcall] at hmanager
    · exact ⟨[.decodeError e], ⟨halive, trivial⟩, by simpa using .decodeError e, by rw [← hmanager]; rfl, rfl⟩
    · exact ⟨[], trivial, by simp, hmanager, rfl⟩
  · have hone : messagesOf [md] = [md] := by simp [messagesOf, hb]
    rw [handle, if_neg hb, hone]
    exact ⟨[decodedEvent su md w.manager], ⟨⟨halive, trivial⟩, trivial⟩, by simpa using .decoded md w.manager,
      messageDecoded_settled su md w, rfl⟩

theorem handle_alive {u : Unit} (halive : w.manager.crashed = false) (h : handle su md w = (.ok u, w')) :
    w'.manager.crashed = false := by
  unfold handle at h
  split at h
  · rw [← (Prod.mk.inj h).2, onHeartbeat_manager]
    exact halive
  · exact messageDecoded_alive h

/-- The calls for a list of messages are events: all of them if none throws, else up to that one. -/
theorem handleAll_matched (su : Setup σ α) (halive : w.manager.crashed = false) (mds : List (Metadata α)) :
    ∃ fs, Runs.Guarded (managerStep su.cfg) ManagerEnabled w.manager fs ∧ (∀ f ∈ fs, FromClient su f) ∧
      settled (handleAll su mds w) = Runs.run (managerStep su.cfg) w.manager fs ∧
        decodedIn fs <+: messagesOf mds ∧
      ((handleAll su mds w).1 = .ok () → decodedIn fs = messagesOf mds ∧
        (handleAll su mds w).2.manager.crashed = false) := by
  induction mds generalizing w with
  | nil => exact ⟨[], trivial, by simp, rfl, List.prefix_refl _, fun _ => ⟨rfl, halive⟩⟩
  | cons md mds ih =>
    have hsplit : messagesOf (md :: mds) = messagesOf [md] ++ messagesOf mds := List.filter_append [md] mds
    obtain ⟨fs, hfs, hfrom, hrun, hdecoded⟩ := handle_matched halive md
    rcases hcall : handle su md w with ⟨e | u, w₁⟩
    · rw [hcall] at hrun
      rw [handleAll_error hcall]
      exact ⟨fs, hfs, hfrom, hrun, by rw [hdecoded, hsplit]; exact List.prefix_append _ _, nofun⟩
    · rw [hcall] at hrun
      rw [handleAll_ok hcall]
      obtain ⟨gs, hgs, hfrom', hrun', hpre, hall⟩ := ih (handle_alive halive hcall)
      have happend : decodedIn (fs ++ gs) = decodedIn fs ++ decodedIn gs := List.filterMap_append
      have hw : w₁.manager = Runs.run (managerStep su.cfg) w.manager fs := hrun
      rw [hw] at hgs hrun'
      refine ⟨fs ++ gs, Runs.guarded_append.2 ⟨hfs, hgs⟩, fun f hf =>
        ?_, by rw [hrun', Runs.run_append], ?_, fun hok => ?_⟩
      · exact (List.mem_append.1 hf).elim (hfrom f) (hfrom' f)
      · rw [happend, hdecoded, hsplit]
        exact (List.prefix_append_right_inj _).2 hpre
      · obtain ⟨heq, hlast⟩ := hall hok
        exact ⟨by rw [happend, hdecoded, hsplit, heq], hlast⟩

theorem Session.crashed_of_alive {s : Session σ α} (h : s.alive = true) :
    s.front.manager.crashed = false := by
  simp only [Session.alive, Bool.and_eq_true, Bool.not_eq_true'] at h
  exact h.2

theorem onDispatchError_manager (s : Session σ α) (e : Failure) :
    (onDispatchError s e).front.manager = dispatchFailed s.front.manager e := by
  unfold onDispatchError dispatchFailed
  split <;> rfl

@[simp] theorem resetIdleTimer_front (su : Setup σ α) (s : Session σ α) :
    (resetIdleTimer su s).front = s.front := by
  unfold resetIdleTimer
  split <;> rfl

/-- `dispatch` is matched by the messages it decodes, and by the exception that ends it. -/
theorem dispatchRequests_matched (su : Setup σ α) {s : Session σ α} (halive : s.alive = true) :
    ∃ fs, Runs.Guarded (managerStep su.cfg) ManagerEnabled s.front.manager fs ∧
      (dispatchRequests su s).front.manager = Runs.run (managerStep su.cfg) s.front.manager fs := by
  have hcrashed := s.crashed_of_alive halive
  unfold dispatchRequests
  split
  · exact ⟨[], trivial, rfl⟩
  · have hfront := resetIdleTimer_front su s
    generalize resetIdleTimer su s = s₁ at hfront ⊢
    dsimp only
    split
    · exact ⟨[], trivial, by rw [hfront]; rfl⟩
    next r hloop =>
      rw [hfront] at hloop
      obtain ⟨mds, hmds⟩ := dispatchLoop_handled _ hloop
      obtain ⟨fs, hfs, -, hrun, -, hall⟩ := handleAll_matched su hcrashed mds
      rcases hmds with hmds | ⟨e, hresult, hmds⟩
      · rw [hmds] at hrun
        refine ⟨fs, hfs, ?_⟩
        rw [← hrun]
        cases r.result with
        | ok u => rfl
        | error e => exact onDispatchError_manager _ e
      · -- the codec itself has thrown, behind the messages of the buffer
        rw [hmds] at hrun hall
        have hlast : r.world.manager = Runs.run (managerStep su.cfg) s.front.manager fs := hrun
        have hstill : r.world.manager.crashed = false := (hall rfl).2
        refine ⟨fs ++ [.decodeError e], Runs.guarded_append.2 ⟨hfs, ?_⟩, ?_⟩
        · rw [← hlast]
          exact ⟨hstill, trivial⟩
        · rw [hresult, Runs.run_append, ← hlast]
          exact onDispatchError_manager _ e

theorem sessionStep_matched {s : Session σ α} {e : SessionEvent α} (hen : SessionEnabled s e) :
    ∃ fs, Runs.Matched (sessionStep su) (managerStep su.cfg) ManagerEnabled
      (fun s => s.front.manager) s e fs := by
  obtain ⟨halive, hen⟩ := hen
  have hcrashed := s.crashed_of_alive halive
  cases e with
  | data bytes endStream =>
    obtain ⟨fs, hfs, hrun⟩ :=
      dispatchRequests_matched su (s := { s with requestBuffer := s.requestBuffer ++ bytes }) halive
    by_cases hend :
      (endStream && (dispatchRequests su { s with requestBuffer := s.requestBuffer ++ bytes }).alive) = true
    · have hlast := Session.crashed_of_alive (Bool.and_eq_true_iff.1 hend).2
      refine ⟨fs ++ [.event .downstreamEnd], Runs.guarded_append.2 ⟨hfs, ?_⟩, ?_⟩
      · rw [← hrun]
        exact ⟨⟨hlast, trivial⟩, trivial⟩
      · rw [Runs.run_append, ← hrun]
        simp only [sessionStep, Session.onData, hend, if_true]
        rfl
    · refine ⟨fs, hfs, ?_⟩
      simp only [sessionStep, Session.onData, hend]
      exact hrun
  | elapse d => exact ⟨[], trivial, rfl⟩
  | idleTimeout => exact ⟨[.event .idleTimeout], ⟨⟨hcrashed, trivial⟩, trivial⟩, rfl⟩
  | manager e =>
    refine ⟨[.event e], ⟨hen.2, trivial⟩, ?_⟩
    cases e <;> rfl

/-- For every codec, whatever bytes arrive in whatever chunks and whichever events come between
them, the connection manager is in a state of the event level, reached by events that the event
level allows there. -/
theorem session_refines (su : Setup σ α) (es : List (SessionEvent α))
    (hrun : Runs.Guarded (sessionStep su) SessionEnabled (Session.start su) es) :
    ∃ fs, Runs.Guarded (managerStep su.cfg) ManagerEnabled {} fs ∧
      (Runs.run (sessionStep su) (Session.start su) es).front.manager =
        Runs.run (managerStep su.cfg) {} fs := by
  obtain ⟨fs, hfs, hview, -⟩ :=
    Runs.Guarded.simulated (fun s : Session σ α => s.front.manager) (I := fun _ _ _ => True)
      (fun _ _ s e _ _ hen => (sessionStep_matched hen).imp fun _ h => ⟨h, trivial⟩) trivial hrun
  exact ⟨fs, hfs, hview⟩

/-- A connection of the tRPC proxy whose requests wait for the pool, with an idle timeout of ten. -/
def idleSetup : Setup Trpc.TrpcCodec Unit where
  cfg := trpcConfig
  answers _ :=
    { env := { route := some { clusterName := "c" }, cluster := some { host := some "h" }
               pool := .pending } }
  idleTimeout := some 10

/-- A request in two pieces, five apart, and nothing more; the message is deleted in the end. -/
def idleRun : List (SessionEvent Unit) :=
  [.data ((responseFrame 5).take 10) false, .elapse 5, .data ((responseFrame 5).drop 10) false,
    .elapse 10, .idleTimeout, .manager (.destroy 0)]

theorem idleRun_enabled :
    Runs.Guarded (sessionStep idleSetup) SessionEnabled (Session.start idleSetup) idleRun := by
  refine ⟨⟨rfl, rfl⟩, ⟨rfl, fun t ht => ?_⟩, ⟨rfl, rfl⟩, ⟨rfl, fun t ht => ?_⟩, ⟨rfl, rfl⟩,
    ⟨rfl, trivial, rfl, ?_⟩, trivial⟩
  · cases ht
    decide
  · cases ht
    decide
  · exact List.mem_cons_self

/-- One request has been decoded, from bytes that came in two reads. -/
theorem session_refines_idle :
    (Runs.run (sessionStep idleSetup) (Session.start idleSetup) idleRun).front.manager.nextMessage = 1 ∧
      ∃ fs, Runs.Guarded (managerStep trpcConfig) ManagerEnabled {} fs ∧
        (Runs.run (sessionStep idleSetup) (Session.start idleSetup) idleRun).front.manager =
          Runs.run (managerStep trpcConfig) {} fs :=
  ⟨rfl, session_refines idleSetup idleRun idleRun_enabled⟩

end Refinement

/-! ## The idle timer -/

section Timer

variable (su : Setup σ α)

/-- `dispatch` finds something to do, which enables the timer again. -/
def SessionEvent.dispatches (s : Session σ α) : SessionEvent α → Bool
  | .data bytes _ => !(s.requestBuffer ++ bytes).isEmpty
  | _ => false

/-- A session, and the time of its last dispatch. -/
def timedStep (st : Session σ α × Nat) (e : SessionEvent α) : Session σ α × Nat :=
  (sessionStep su st.1 e, if e.dispatches st.1 then st.1.now else st.2)

/-- The time `dispatch` last found something to do, or the connection was made. -/
def lastDispatch (es : List (SessionEvent α)) : Nat := (Runs.run (timedStep su) (Session.start su, 0) es).2

theorem run_timedStep (st : Session σ α × Nat) (es : List (SessionEvent α)) :
    (Runs.run (timedStep su) st es).1 = Runs.run (sessionStep su) st.1 es := by
  induction es generalizing st with
  | nil => rfl
  | cons e es ih => exact ih (timedStep su st e)

variable {su}

theorem step_connectionOpen (cfg : Config σ α) {cm : ConnectionManager σ α} {e : Event α}
    (h : (step cfg cm e).connectionOpen = true) : cm.connectionOpen = true := by
  obtain ⟨md, encoders, filters, env, rfl⟩ | ⟨m, rfl⟩ | hs := e.new_or_destroy_or_service
  · obtain ⟨S, ht, -⟩ := decoded_touches cfg cm md encoders filters env
    exact ht.connectionOpen h
  · exact (onDestroy_touches (B := False) cfg cm m).connectionOpen h
  · exact (step_touches cfg cm hs).connectionOpen h

/-- The connection has been given up by the proxy: once, by the timer or by an exception. -/
def Stats.gaveUp (stats : Stats) : Nat := stats.idleTimeout + stats.requestDecodingError

/-- The timer after a dispatch at `t`. -/
structure Timed (T : Nat) (s : Session σ α) (t : Nat) : Prop where
  armed : ∀ d, s.timer = some d → d = t + T ∧ s.now ≤ d
  running : s.front.manager.connectionOpen = true → s.timer.isSome = true
  once : s.stats.gaveUp = 0 ∨ s.stats.gaveUp = 1 ∧ s.timer = none ∧ s.front.manager.connectionOpen = false

theorem Timed.of_same {T t : Nat} {s s' : Session σ α} (h : Timed T s t)
    (htimer : s'.timer = s.timer) (hnow : s'.now = s.now)
    (hstats : s'.stats.gaveUp = s.stats.gaveUp)
    (hopen : s'.front.manager.connectionOpen = true → s.front.manager.connectionOpen = true) :
    Timed T s' t := by
  refine ⟨by rw [htimer, hnow]; exact h.armed, fun ho => by rw [htimer]; exact h.running (hopen ho), ?_⟩
  rw [hstats, htimer]
  refine h.once.imp_right fun ⟨hone, hnone, hclosed⟩ => ⟨hone, hnone, ?_⟩
  exact Bool.eq_false_iff.2 fun ho => by rw [hopen ho] at hclosed; cases hclosed

theorem Timed.of_closed {T t : Nat} {s : Session σ α} (htimer : s.timer = none)
    (hclosed : s.front.manager.connectionOpen = false) (hstats : s.stats.gaveUp ≤ 1) : Timed T s t := by
  refine ⟨by simp [htimer], by simp [hclosed], ?_⟩
  rcases Nat.le_one_iff_eq_zero_or_eq_one.1 hstats with hzero | hone
  · exact .inl hzero
  · exact .inr ⟨hone, htimer, hclosed⟩

@[simp] theorem countReset_gaveUp (s : Session σ α) (local_reset : Bool) :
    (countReset s local_reset).gaveUp = s.stats.gaveUp := by
  unfold countReset
  split <;> rfl

theorem Timed.gaveUp_eq_zero {T t : Nat} {s : Session σ α} (h : Timed T s t)
    (hopen : s.front.manager.connectionOpen = true) : s.stats.gaveUp = 0 := by
  rcases h.once with hzero | ⟨-, -, hclosed⟩
  · exact hzero
  · rw [hopen] at hclosed
    cases hclosed

theorem onDispatchError_timed {T t : Nat} {s : Session σ α} (h : Timed T s t)
    (hzero : s.stats.gaveUp = 0) (e : Failure) : Timed T (onDispatchError s e) t := by
  unfold onDispatchError
  split
  · refine Timed.of_closed rfl rfl ?_
    have hreset := countReset_gaveUp s true
    simp only [Stats.gaveUp, Session.onEvent, setManager] at hzero hreset ⊢
    simp only [decide_true]
    omega
  · exact h.of_same rfl rfl rfl id

theorem Timed.of_armed {T : Nat} {s : Session σ α} (htimer : s.timer = some (s.now + T))
    (hzero : s.stats.gaveUp = 0) : Timed T s s.now := by
  refine ⟨fun d hd => ?_, fun _ => by rw [htimer]; rfl, .inl hzero⟩
  rw [htimer] at hd
  cases hd
  exact ⟨rfl, Nat.le_add_right _ _⟩

/-- `dispatch` on an open connection with something to do. -/
theorem dispatchRequests_timed {T t : Nat} {s : Session σ α} (hT : su.idleTimeout = some T) (h : Timed T s t)
    (hopen : s.front.manager.connectionOpen = true) (hne : s.requestBuffer ≠ []) :
    Timed T (dispatchRequests su s) s.now := by
  have hzero := h.gaveUp_eq_zero hopen
  obtain ⟨d, hd⟩ := Option.isSome_iff_exists.1 (h.running hopen)
  have hreset : resetIdleTimer su s = { s with timer := some (s.now + T) } := by
    simp only [resetIdleTimer, hd, hT]
  rw [dispatchRequests, if_neg (by simpa using hne), hreset]
  dsimp only
  split
  · exact Timed.of_armed (s := { s with timer := some (s.now + T), hung := true }) rfl hzero
  next r _ =>
    have hran : ∀ s₁ : Session σ α, s₁.timer = some (s.now + T) → s₁.now = s.now →
        s₁.stats = s.stats → Timed T s₁ s.now := by
      intro s₁ htimer hnow hstats
      rw [← hnow] at htimer ⊢
      exact Timed.of_armed htimer (by rw [hstats, hzero])
    split
    · exact hran _ rfl rfl rfl
    · apply onDispatchError_timed
      · exact hran _ rfl rfl rfl
      · exact hzero

theorem onEndStream_timed {T t : Nat} {s : Session σ α} (h : Timed T s t) : Timed T (onEndStream su s) t := by
  refine h.of_same rfl rfl (countReset_gaveUp s false) fun hopen => ?_
  cases hopen

theorem timedStep_timed {T : Nat} (hT : su.idleTimeout = some T) {st : Session σ α × Nat}
    {e : SessionEvent α} (h : Timed T st.1 st.2)
    (hen : SessionEnabled st.1 e) : Timed T (timedStep su st e).1 (timedStep su st e).2 := by
  obtain ⟨s, t⟩ := st
  obtain ⟨-, hen⟩ := hen
  dsimp only at h hen
  cases e with
  | data bytes endStream =>
    have hdispatch : Timed T (dispatchRequests su { s with requestBuffer := s.requestBuffer ++ bytes })
        (if !(s.requestBuffer ++ bytes).isEmpty then s.now else t) := by
      have hmoved : Timed T { s with requestBuffer := s.requestBuffer ++ bytes } t := h.of_same rfl rfl rfl id
      by_cases hne : s.requestBuffer ++ bytes = []
      · simp only [hne, List.isEmpty_nil, Bool.not_true, Bool.false_eq_true, if_false]
        rw [hne] at hmoved
        exact hmoved
      · rw [if_pos (by simpa using hne)]
        exact dispatchRequests_timed hT hmoved hen hne
    simp only [timedStep, sessionStep, Session.onData, SessionEvent.dispatches]
    split
    · exact onEndStream_timed hdispatch
    · exact hdispatch
  | elapse d =>
    refine ⟨fun d' hd' => ?_, h.running, h.once⟩
    exact ⟨(h.armed d' hd').1, hen d' hd'⟩
  | idleTimeout =>
    have hzero : s.stats.gaveUp = 0 := by
      rcases h.once with hzero | ⟨-, hnone, -⟩
      · exact hzero
      · rw [hen] at hnone
        cases hnone
    refine Timed.of_closed rfl rfl ?_
    have hreset := countReset_gaveUp s true
    simp only [Stats.gaveUp] at hzero hreset
    simp only [Stats.gaveUp, sessionStep, timedStep, onIdleTimeout]
    omega
  | manager e =>
    have hother : Timed T (setManager s (step su.cfg s.front.manager e)) t :=
      h.of_same rfl rfl rfl (step_connectionOpen su.cfg)
    cases e with
    | downstreamEvent event =>
      refine Timed.of_closed rfl rfl ?_
      have hreset : (Session.onEvent s event).stats.gaveUp = s.stats.gaveUp := countReset_gaveUp s _
      have hle : s.stats.gaveUp ≤ 1 := by rcases h.once with hzero | ⟨hone, -⟩ <;> omega
      exact hreset.le.trans hle
    | _ => exact hother

theorem run_timed {T : Nat} (hT : su.idleTimeout = some T) {st : Session σ α × Nat}
    {es : List (SessionEvent α)} (h : Timed T st.1 st.2)
    (hrun : Runs.Guarded (sessionStep su) SessionEnabled st.1 es) :
    Timed T (Runs.run (timedStep su) st es).1 (Runs.run (timedStep su) st es).2 := by
  induction es generalizing st with
  | nil => exact h
  | cons e es ih => exact ih (timedStep_timed hT h hrun.1) hrun.2

/-- In every run of a connection with an idle timeout: the timer is there as long as the connection
is open; it fires at no other time than the timeout after the last dispatch, and the clock does not
pass that time before; what it or an exception in `dispatch` ends is ended once and for all. -/
theorem idle_timer_exact (su : Setup σ α) {T : Nat} (hT : su.idleTimeout = some T)
    (es : List (SessionEvent α))
    (hrun : Runs.Guarded (sessionStep su) SessionEnabled (Session.start su) es) :
    let s := Runs.run (sessionStep su) (Session.start su) es
    (s.front.manager.connectionOpen = true → s.timer = some (lastDispatch su es + T)) ∧
      (s.timer ≠ none → s.now ≤ lastDispatch su es + T) ∧
      (SessionEnabled s .idleTimeout ↔ s.alive = true ∧ s.timer ≠ none ∧ s.now = lastDispatch su es + T) ∧
      (s.stats.idleTimeout + s.stats.requestDecodingError ≤ 1) ∧
      (0 < s.stats.idleTimeout + s.stats.requestDecodingError → s.timer = none ∧
          s.front.manager.connectionOpen = false) := by
  have htimed : Timed T (Runs.run (sessionStep su) (Session.start su) es) (lastDispatch su es) := by
    have hstart : Timed T (Session.start su) 0 := by
      refine ⟨fun d hd => ?_, fun _ => by rw [Session.start, hT]; rfl, .inl rfl⟩
      rw [Session.start, hT] at hd
      cases hd
      exact ⟨(Nat.zero_add T).symm, Nat.zero_le T⟩
    rw [← run_timedStep su (Session.start su, 0) es]
    exact run_timed hT hstart hrun
  generalize Runs.run (sessionStep su) (Session.start su) es = s at htimed ⊢
  dsimp only
  refine ⟨fun hopen => ?_, fun hne => ?_, ?_, ?_, fun hpos => ?_⟩
  · obtain ⟨d, hd⟩ := Option.isSome_iff_exists.1 (htimed.running hopen)
    rw [hd, (htimed.armed d hd).1]
  · obtain ⟨d, hd⟩ := Option.ne_none_iff_exists'.1 hne
    have harmed := htimed.armed d hd
    omega
  · constructor
    · rintro ⟨halive, htimer⟩
      exact ⟨halive, by rw [htimer]; exact nofun, (htimed.armed _ htimer).1⟩
    · rintro ⟨halive, hne, hnow⟩
      obtain ⟨d, hd⟩ := Option.ne_none_iff_exists'.1 hne
      exact ⟨halive, by rw [hd, (htimed.armed d hd).1, hnow]⟩
  · rcases htimed.once with hzero | ⟨hone, -⟩
    · exact hzero.le.trans (by decide)
    · exact hone.le
  · rcases htimed.once with hzero | ⟨-, hclosed⟩
    · exact absurd hzero hpos.ne'
    · exact hclosed

/-- The timer fires ten after the second read, fifteen after the first. -/
theorem idle_timer_exact_fires :
    lastDispatch idleSetup (idleRun.take 4) = 5 ∧
      (Runs.run (sessionStep idleSetup) (Session.start idleSetup) (idleRun.take 4)).now = 15 ∧
      SessionEnabled (Runs.run (sessionStep idleSetup) (Session.start idleSetup) (idleRun.take 4))
        .idleTimeout ∧
      (Runs.run (sessionStep idleSetup) (Session.start idleSetup) idleRun).stats.idleTimeout = 1 := by
  have h := idle_timer_exact idleSetup rfl (idleRun.take 4) (idleRun_enabled.take 4)
  exact ⟨rfl, rfl, h.2.2.1.2 ⟨rfl, nofun, rfl⟩, rfl⟩

end Timer

end MetaProtocolProxy
