import MetaProtocolProxy.Codec
/-
# The decoder driving a codec (decoder.h, decoder.cc; ConnectionManager::dispatch)

`DecoderBase::onData` makes one attempt to decode one message and reports in
`buffer_underflow` whether the caller should stop; `ConnectionManager::dispatch` repeats it
while there is no underflow. What a decoded message sets off (a heartbeat, or a new message
handler) is the delegate's business: `Delegate` gives it as functions on the delegate's own
state `δ`, so that the connection manager and the response decoders use the same loop.

`dispatch` is the C++ loop with a bound on the iterations; `none` means that the bound was
reached. With handlers that return it is `Framing.drain` (`dispatchLoop_of_drain`).
-/
namespace MetaProtocolProxy

open Framing (Step drain Drained drain_wait drain_done_inv drain_nil)

variable {σ α δ : Type}

/-- `ProtocolState` (decoder.h). -/
inductive ProtocolState
  | onDecodeStreamData
  | waitForData
  | done
  deriving DecidableEq, Repr

/-- `DecoderCallbacks` and the handler it returns: `newStream` stands for
`newMessageHandler()` followed by `onMessageDecoded` on the handler. -/
structure Delegate (δ α : Type) where
  onHeartbeat : Metadata α → δ → Except Failure Bool × δ
  newStream : Metadata α → Mutation → δ → Except Failure Unit × δ

/-- `DecoderBase` with its `DecoderStateMachine`; the machine exists from `start` to
`complete`. -/
structure DecoderBase where
  decodeStarted : Bool := false
  state : ProtocolState := .onDecodeStreamData
  deriving DecidableEq, Repr

structure Ran (ρ σ δ : Type) where
  result : Except Failure ρ
  decoder : DecoderBase
  codec : σ
  world : δ
  buffer : Bytes

/-- `DecoderStateMachine::onDecodeStream` (decoder.cc:9-34). -/
def onDecodeStream (cd : Codec σ α) (t : MessageType) (dg : Delegate δ α) (s : σ) (w : δ) (buffer : Bytes) :
    Except Failure ProtocolState × σ × δ × Bytes :=
  match cd.decodeAs t s buffer with
  | .wait s' rest => (.ok .waitForData, s', w, rest)
  | .fail s' rest e => (.error e, s', w, rest)
  | .done s' md rest =>
    if md.messageType = .heartbeat then
      match dg.onHeartbeat md w with
      | (.error e, w') => (.error e, s', w', rest)
      -- a heartbeat from the upstream: keep waiting for the response
      | (.ok true, w') => (.ok .waitForData, s', w', rest)
      | (.ok false, w') => (.ok .done, s', w', rest)
    else
      match dg.newStream md [] w with
      | (.error e, w') => (.error e, s', w', rest)
      | (.ok _, w') => (.ok .done, s', w', rest)

namespace DecoderBase

/-- `DecoderBase::onData` (decoder.cc:49-82); the result is `buffer_underflow`. -/
def onData (cd : Codec σ α) (t : MessageType) (dg : Delegate δ α) (d : DecoderBase) (s : σ) (w : δ)
    (data : Bytes) : Ran Bool σ δ :=
  -- `start` makes a fresh state machine
  let d := if d.decodeStarted then d else { decodeStarted := true, state := .onDecodeStreamData }
  match onDecodeStream cd t dg s w data with
  | (.error e, s', w', rest) => ⟨.error e, d, s', w', rest⟩
  | (.ok .waitForData, s', w', rest) => ⟨.ok true, { d with state := .waitForData }, s', w', rest⟩
  -- `complete` drops the state machine
  | (.ok _, s', w', rest) => ⟨.ok rest.isEmpty, {}, s', w', rest⟩

end DecoderBase

/-- The loop of `ConnectionManager::dispatch` (conn_manager.cc:109-133) up to its `catch`;
`none` when `fuel` iterations did not suffice. -/
def dispatchLoop (cd : Codec σ α) (t : MessageType) (dg : Delegate δ α) :
    Nat → DecoderBase → σ → δ → Bytes → Option (Ran Unit σ δ)
  | 0, _, _, _, _ => none
  | fuel + 1, d, s, w, data =>
    let r := d.onData cd t dg s w data
    match r.result with
    | .error e => some ⟨.error e, r.decoder, r.codec, r.world, r.buffer⟩
    | .ok true => some ⟨.ok (), r.decoder, r.codec, r.world, r.buffer⟩
    | .ok false => dispatchLoop cd t dg fuel r.decoder r.codec r.world r.buffer

/-- `ConnectionManager::dispatch`: nothing to do on an empty buffer. -/
def dispatch (cd : Codec σ α) (t : MessageType) (dg : Delegate δ α) (fuel : Nat) (d : DecoderBase) (s : σ)
    (w : δ) (data : Bytes) : Option (Ran Unit σ δ) :=
  if data.isEmpty then some ⟨.ok (), d, s, w, data⟩ else dispatchLoop cd t dg fuel d s w data

section Loop

variable {cd : Codec σ α} {t : MessageType} {dg : Delegate δ α} {d : DecoderBase} {s s' : σ} {w : δ}
  {data rest : Bytes} (fuel : Nat)

/-- `decoder` after `start`. -/
def DecoderBase.started (d : DecoderBase) : DecoderBase :=
  if d.decodeStarted then d else { decodeStarted := true, state := .onDecodeStreamData }

theorem DecoderBase.onData_wait (h : cd.decodeAs t s data = .wait s' rest) :
    d.onData cd t dg s w data = ⟨.ok true, { d.started with state := .waitForData }, s', w, rest⟩ := by
  simp [DecoderBase.onData, onDecodeStream, h, DecoderBase.started]

theorem DecoderBase.onData_fail {e : Failure} (h : cd.decodeAs t s data = .fail s' rest e) :
    d.onData cd t dg s w data = ⟨.error e, d.started, s', w, rest⟩ := by
  simp [DecoderBase.onData, onDecodeStream, h, DecoderBase.started]

theorem DecoderBase.onData_heartbeat {md : Metadata α} {w' : δ} (h : cd.decodeAs t s data = .done s' md rest)
    (hb : md.messageType = .heartbeat) (hw : dg.onHeartbeat md w = (.ok true, w')) :
    d.onData cd t dg s w data = ⟨.ok true, { d.started with state := .waitForData }, s', w', rest⟩ := by
  simp [DecoderBase.onData, onDecodeStream, h, hb, hw, DecoderBase.started]

theorem DecoderBase.onData_message {md : Metadata α} (h : cd.decodeAs t s data = .done s' md rest)
    (hb : md.messageType ≠ .heartbeat) :
    d.onData cd t dg s w data =
      match dg.newStream md [] w with
      | (.error e, w') => ⟨.error e, d.started, s', w', rest⟩
      | (.ok _, w') => ⟨.ok rest.isEmpty, {}, s', w', rest⟩ := by
  simp only [DecoderBase.onData, onDecodeStream, h, hb, if_false, DecoderBase.started]
  rcases dg.newStream md [] w with ⟨e | u, w'⟩ <;> rfl

theorem DecoderBase.onData_world {P : δ → Prop} (hw : P w) (hheart : ∀ md, P (dg.onHeartbeat md w).2)
    (hnew : ∀ md, P (dg.newStream md [] w).2) : P (d.onData cd t dg s w data).world := by
  cases hdec : cd.decodeAs t s data with
  | wait s' rest => rwa [DecoderBase.onData_wait hdec]
  | fail s' rest e => rwa [DecoderBase.onData_fail hdec]
  | done s' md rest =>
    by_cases hb : md.messageType = .heartbeat
    · have h := hheart md
      simp only [DecoderBase.onData, onDecodeStream, hdec, hb, if_true]
      generalize dg.onHeartbeat md w = r at h ⊢
      rcases r with ⟨e | (_ | _), w'⟩ <;> exact h
    · have h := hnew md
      rw [DecoderBase.onData_message hdec hb]
      generalize dg.newStream md [] w = r at h ⊢
      rcases r with ⟨e | u, w'⟩ <;> exact h

theorem dispatchLoop_wait (h : cd.decodeAs t s data = .wait s' rest) :
    dispatchLoop cd t dg (fuel + 1) d s w data =
      some ⟨.ok (), { d.started with state := .waitForData }, s', w, rest⟩ := by
  rw [dispatchLoop, DecoderBase.onData_wait h]

theorem dispatchLoop_fail {e : Failure} (h : cd.decodeAs t s data = .fail s' rest e) :
    dispatchLoop cd t dg (fuel + 1) d s w data = some ⟨.error e, d.started, s', w, rest⟩ := by
  rw [dispatchLoop, DecoderBase.onData_fail h]

/-- After a message other than a heartbeat the loop goes on with what is left, if the handler
returned and anything is left. -/
theorem dispatchLoop_done {md : Metadata α} (h : cd.decodeAs t s data = .done s' md rest)
    (hb : md.messageType ≠ .heartbeat) :
    dispatchLoop cd t dg (fuel + 1) d s w data =
      match dg.newStream md [] w with
      | (.error e, w') => some ⟨.error e, d.started, s', w', rest⟩
      | (.ok _, w') =>
        if rest.isEmpty then some ⟨.ok (), {}, s', w', rest⟩ else dispatchLoop cd t dg fuel {} s' w'
            rest := by
  rw [dispatchLoop, DecoderBase.onData_message h hb]
  rcases dg.newStream md [] w with ⟨e | u, w'⟩
  · rfl
  · cases rest <;> simp

theorem dispatchLoop_heartbeat {md : Metadata α} {w' : δ} (h : cd.decodeAs t s data = .done s' md rest)
    (hb : md.messageType = .heartbeat) (hw : dg.onHeartbeat md w = (.ok false, w')) :
    dispatchLoop cd t dg (fuel + 1) d s w data =
      if rest.isEmpty then some ⟨.ok (), {}, s', w', rest⟩ else dispatchLoop cd t dg fuel {} s' w' rest := by
  simp only [dispatchLoop, DecoderBase.onData, onDecodeStream, h, hb, if_true, hw]
  cases rest <;> simp

/-- The delegate handles the message `md` by `handle` and returns, whatever its state. -/
def Delegate.Returns (dg : Delegate δ α) (handle : Metadata α → δ → δ) (md : Metadata α) : Prop :=
  if md.messageType = .heartbeat then ∀ w, dg.onHeartbeat md w = (.ok false, handle md w)
  else ∀ w, dg.newStream md [] w = (.ok (), handle md w)

theorem dispatchLoop_returns {handle : Metadata α → δ → δ} {md : Metadata α}
    (h : cd.decodeAs t s data = .done s' md rest) (hret : dg.Returns handle md) :
    dispatchLoop cd t dg (fuel + 1) d s w data =
      if rest.isEmpty then some ⟨.ok (), {}, s', handle md w, rest⟩
      else dispatchLoop cd t dg fuel {} s' (handle md w) rest := by
  unfold Delegate.Returns at hret
  by_cases hb : md.messageType = .heartbeat
  · rw [if_pos hb] at hret
    exact dispatchLoop_heartbeat fuel h hb (hret w)
  · rw [if_neg hb] at hret
    rw [dispatchLoop_done fuel h hb, hret]

theorem dispatchLoop_invariant {handle : Metadata α → δ → δ} {J : σ → Bytes → Prop} {r : Ran Unit σ δ}
    (hwait : ∀ {s s' : σ} {data rest}, data ≠ [] → cd.decodeAs t s data = .wait s' rest → J s' rest)
    (hdone : ∀ {s s' : σ} {md data rest}, cd.decodeAs t s data = .done s' md rest → J s' rest)
    (hret : ∀ md, dg.Returns handle md) (hne : data ≠ []) (h : dispatchLoop cd t dg fuel d s w data = some r)
    (hok : r.result = .ok ()) : J r.codec r.buffer := by
  induction fuel generalizing d s w data with
  | zero => cases h
  | succ fuel ih =>
    cases hd : cd.decodeAs t s data with
    | wait s₁ rest₁ =>
      rw [dispatchLoop_wait fuel hd] at h
      cases h
      exact hwait hne hd
    | fail s₁ rest₁ e =>
      rw [dispatchLoop_fail fuel hd] at h
      cases h
      cases hok
    | done s₁ md rest₁ =>
      rw [dispatchLoop_returns fuel hd (hret md)] at h
      split at h
      · cases h
        exact hdone hd
      · rename_i hr
        exact ih (by simpa using hr) h

/-- With handlers that return, the dispatch loop is `Framing.drain`, and the handlers see its
messages in order. -/
theorem dispatchLoop_of_drain {handle : Metadata α → δ → δ} {ms : List (Metadata α)}
    (hret : ∀ m ∈ ms, dg.Returns handle m) (hne : data ≠ [])
    (h : drain (cd.decodeAs t) fuel s data = ⟨s', rest, ms, .underflow⟩) :
    ∃ d', dispatchLoop cd t dg fuel d s w data =
      some ⟨.ok (), d', s', ms.foldl (fun w md => handle md w) w, rest⟩ := by
  induction fuel generalizing d s w data ms with
  | zero => simp [drain] at h
  | succ fuel ih =>
    cases hd : cd.decodeAs t s data with
    | wait s₁ rest₁ =>
      rw [drain_wait hne hd] at h
      simp only [Drained.mk.injEq, and_true] at h
      obtain ⟨rfl, rfl, rfl⟩ := h
      exact ⟨_, dispatchLoop_wait fuel hd⟩
    | fail s₁ rest₁ e => simp [drain, hne, hd] at h
    | done s₁ m rest₁ =>
      obtain ⟨ms, rfl, hrec⟩ := drain_done_inv hne hd h
      rw [dispatchLoop_returns fuel hd (hret m (by simp))]
      by_cases hr₁ : rest₁ = []
      · -- the last message took all the data: the loop ends at once, `drain` one call later
        subst hr₁
        cases fuel with
        | zero => simp [drain] at hrec
        | succ fuel =>
          rw [drain_nil] at hrec
          simp only [Drained.mk.injEq, and_true] at hrec
          obtain ⟨rfl, rfl, rfl⟩ := hrec
          exact ⟨_, rfl⟩
      · simp only [List.isEmpty_iff, hr₁, if_false, List.foldl_cons]
        exact ih (fun m' hm' => hret m' (by simp [hm'])) hr₁ hrec

end Loop

end MetaProtocolProxy
