import MetaProtocolProxy.Proxy.ConnectionManager
import Mathlib.Tactic.Simps.Basic
/-
# What each function does to a message (active_message.cc, router_impl.cc, upstream_request.cc)

One specification per function of the non-multiplexing path, all of the same form: the record of
the message it is called for, the outputs it adds, and nothing else (`Effect`). The results about
whole runs use these and never unfold the functions.
-/
namespace MetaProtocolProxy

variable {σ α : Type}

namespace ActiveMessage

variable (a : ActiveMessage σ α)

@[simps] def replied : ActiveMessage σ α := { a with localResponseSent := true }

@[simps] def resumed : ActiveMessage σ α := { a with pendingStreamDecoded := false }

@[simps] def withPending (pending : Bool) : ActiveMessage σ α := { a with pendingStreamDecoded := pending }

@[simps] def withRequest (ur : Option UpstreamRequest) : ActiveMessage σ α := { a with upstreamRequest := ur }

@[simps] def withDecoder (d : Option (ActiveResponseDecoder σ α)) : ActiveMessage σ α :=
  { a with responseDecoder := d }

theorem resumed_of_not_pending (h : a.pendingStreamDecoded = false) : a.resumed = a := by
  simp only [resumed, ← h]

@[simp] theorem withRequest_withRequest (ur ur' : Option UpstreamRequest) :
    (a.withRequest ur).withRequest ur' = a.withRequest ur' := rfl

end ActiveMessage

/-- From `cm` to `cm'` only the record of message `m` has changed, to `a`, and `os` has been added
to the outputs; messages may have been moved from the active list to the deferred one. Only
messages of streams change the streams. -/
structure Effect (cm : ConnectionManager σ α) (m : MsgId) (a : ActiveMessage σ α) (os : List (Out α))
    (cm' : ConnectionManager σ α) : Prop where
  messages : cm'.messages = Function.update cm.messages m a
  messageType : a.metadata.messageType = (cm.messages m).metadata.messageType
  out : cm'.out = cm.out ++ os
  nextMessage : cm'.nextMessage = cm.nextMessage
  connectionOpen : cm'.connectionOpen = cm.connectionOpen
  handlers : cm'.handlers = cm.handlers
  streams : a.metadata.messageType = .request → cm'.activeStreamMap = cm.activeStreamMap

namespace Effect

variable {cm cm₁ cm₂ : ConnectionManager σ α} {m : MsgId} {a a₁ a₂ : ActiveMessage σ α}
    {os os₁ os₂ : List (Out α)}

theorem self (h : Effect cm m a os cm₁) : cm₁.messages m = a := by
  rw [h.messages, Function.update_self]

theorem other (h : Effect cm m a os cm₁) {i : MsgId} (hi : i ≠ m) : cm₁.messages i = cm.messages i := by
  rw [h.messages, Function.update_of_ne hi]

theorem trans (h₁ : Effect cm m a₁ os₁ cm₁) (h₂ : Effect cm₁ m a₂ os₂ cm₂) :
    Effect cm m a₂ (os₁ ++ os₂) cm₂ := by
  have ht : a₂.metadata.messageType = a₁.metadata.messageType := by rw [h₂.messageType, h₁.self]
  refine ⟨?_, ht.trans h₁.messageType, ?_, h₂.nextMessage.trans h₁.nextMessage,
    h₂.connectionOpen.trans h₁.connectionOpen, h₂.handlers.trans h₁.handlers, fun h => ?_⟩
  · rw [h₂.messages, h₁.messages, Function.update_idem]
  · rw [h₂.out, h₁.out, List.append_assoc]
  · exact (h₂.streams h).trans (h₁.streams (ht ▸ h))

theorem trans_nil (h₁ : Effect cm m a₁ os cm₁) (h₂ : Effect cm₁ m a₂ [] cm₂) : Effect cm m a₂ os cm₂ := by
  simpa using h₁.trans h₂

theorem of_frame (h : cm.messages m = a) (hm : cm₁.messages = cm.messages) (hout : cm₁.out = cm.out ++ os)
    (hnext : cm₁.nextMessage = cm.nextMessage) (hopen : cm₁.connectionOpen = cm.connectionOpen)
    (hh : cm₁.handlers = cm.handlers)
    (hs : a.metadata.messageType = .request → cm₁.activeStreamMap = cm.activeStreamMap) :
    Effect cm m a os cm₁ :=
  ⟨by rw [hm, ← h, Function.update_eq_self], by rw [h], hout, hnext, hopen, hh, hs⟩

theorem refl (h : cm.messages m = a) : Effect cm m a [] cm :=
  of_frame h rfl (by simp) rfl rfl rfl fun _ => rfl

theorem modify {f : ActiveMessage σ α → ActiveMessage σ α} (h : f (cm.messages m) = a)
    (ht : a.metadata.messageType = (cm.messages m).metadata.messageType) : Effect cm m a [] (cm.modify m f) :=
  ⟨by rw [← h]; rfl, ht, by simp [ConnectionManager.modify], rfl, rfl, rfl, fun _ => rfl⟩

theorem modifyRequest {f : UpstreamRequest → UpstreamRequest} {ur : UpstreamRequest} (h : cm.messages m = a)
    (hur : a.upstreamRequest = some ur) (hf : a.withRequest (some (f ur)) = a₁) :
    Effect cm m a₁ [] (cm.modifyRequest m f) :=
  modify (by rw [h, hur, ← hf]; rfl) (by rw [h, ← hf]; rfl)

theorem modifyDecoder {f : ActiveResponseDecoder σ α → ActiveResponseDecoder σ α}
    {d : ActiveResponseDecoder σ α}
    (h : cm.messages m = a) (hd : a.responseDecoder = some d) (hf : a.withDecoder (some (f d)) = a₁) :
    Effect cm m a₁ [] (cm.modifyDecoder m f) :=
  modify (by rw [h, hd, ← hf]; rfl) (by rw [h, ← hf]; rfl)

theorem emit (h : cm.messages m = a) (o : Out α) : Effect cm m a [o] (cm.emit o) :=
  of_frame h rfl rfl rfl rfl rfl fun _ => rfl

theorem crash (h : cm.messages m = a) : Effect cm m a [] cm.crash :=
  of_frame h rfl (by simp [ConnectionManager.crash]) rfl rfl rfl fun _ => rfl

theorem resumed (h : Effect cm m a os cm₁) (hp : a.pendingStreamDecoded = false) :
    Effect cm m a.resumed os cm₁ := by
  rw [a.resumed_of_not_pending hp]
  exact h

theorem withPending {pending : Bool} (h : Effect cm m a os cm₁) (hp : a.pendingStreamDecoded = pending) :
    Effect cm m (a.withPending pending) os cm₁ := by
  subst hp
  exact h

theorem deferredDeleteMessage (h : cm.messages m = a) (i : MsgId) :
    Effect cm m a [] (cm.deferredDeleteMessage i) := by
  unfold ConnectionManager.deferredDeleteMessage
  split
  · exact of_frame h rfl (by simp) rfl rfl rfl fun _ => rfl
  · exact refl h

end Effect

/-- At most one local reply for `m`, and none on a closed connection. -/
def LocalReply (connectionOpen : Bool) (m : MsgId) (os : List (Out α)) : Prop :=
  os = [] ∨ connectionOpen = true ∧ ∃ e b, os = [.localReply m e b]

section Replies

variable (cfg : Config σ α) {cm : ConnectionManager σ α} {m : MsgId} {a : ActiveMessage σ α}
    {ur : UpstreamRequest}

theorem sendLocalReply_effect (ha : cm.messages m = a) (error : Error) :
    ∃ os, LocalReply cm.connectionOpen m os ∧
      Effect cm m a.replied os (sendLocalReply cfg cm m error) := by
  unfold sendLocalReply
  have hlast : ∀ {cm₁ : ConnectionManager σ α} {os : List (Out α)}, Effect cm m a os cm₁ →
      Effect cm m a.replied os (cm₁.modify m fun a => { a with localResponseSent := true }) :=
    fun he => he.trans_nil (Effect.modify (by rw [he.self]; rfl) (by rw [he.self]; rfl))
  by_cases hopen : cm.connectionOpen = true
  · rw [if_pos hopen]
    cases cfg.codec.onError (cm.messages m).metadata error with
    | ok bytes =>
      exact ⟨[.localReply m error bytes], .inr ⟨hopen, error, bytes, rfl⟩, hlast (Effect.emit ha _)⟩
    | error e =>
      refine ⟨[], .inl rfl, ?_⟩
      by_cases he : e.isEnvoyException = true
      · simp only [he, if_true]
        exact hlast (Effect.refl ha)
      · simp only [he]
        exact hlast (Effect.crash ha)
  · simp only [hopen]
    exact ⟨[], .inl rfl, hlast (Effect.refl ha)⟩

theorem maybeDeferredDeleteMessage_effect (ha : cm.messages m = a) :
    Effect cm m a.resumed [] (maybeDeferredDeleteMessage cm m) := by
  have h : Effect cm m a.resumed [] (cm.modify m fun a => { a with pendingStreamDecoded := false }) :=
    Effect.modify (by rw [ha]; rfl) (by rw [ha]; rfl)
  simp only [maybeDeferredDeleteMessage]
  split
  · exact h.trans_nil (Effect.deferredDeleteMessage h.self m)
  · exact h

theorem onError_effect (ha : cm.messages m = a) (what : String) :
    ∃ os, LocalReply cm.connectionOpen m os ∧
      Effect cm m a.replied os (onError cfg cm m what) := by
  obtain ⟨os, hos, he⟩ := sendLocalReply_effect cfg ha ⟨.badResponse, what⟩
  exact ⟨os, hos, he.trans_nil (Effect.deferredDeleteMessage he.self m)⟩

theorem onUpstreamConnectionReset_effect (ha : cm.messages m = a) (hur : a.upstreamRequest = some ur)
    (ht : a.metadata.messageType ≠ .oneway) (reason : PoolFailureReason) :
    ∃ os, LocalReply cm.connectionOpen m os ∧
      Effect cm m a.replied os (onUpstreamConnectionReset cfg cm m reason) := by
  obtain ⟨os, hos, he⟩ := sendLocalReply_effect cfg ha (resetError reason ur.host)
  refine ⟨os, hos, ?_⟩
  simp only [onUpstreamConnectionReset, ha, hur, ht, if_false]
  split
  · exact he
  · exact he.trans_nil (Effect.deferredDeleteMessage he.self m)

theorem onConnectionEvent_effect (ha : cm.messages m = a) (hur : a.upstreamRequest = some ur)
    (ht : a.metadata.messageType ≠ .oneway) (event : ConnectionEvent) :
    ∃ os, LocalReply cm.connectionOpen m os ∧
      Effect cm m a.replied os (onConnectionEvent cfg cm m event) := by
  cases event <;> exact onUpstreamConnectionReset_effect cfg ha hur ht _

end Replies

/-! ## Connections -/

def releasedOf : Option ConnId → List (Out α)
  | none => []
  | some c => [.released c]

@[simps] def UpstreamRequest.dropped (ur : UpstreamRequest) : UpstreamRequest :=
  { ur with streamReset := true, handle := false, conn := none }

section Connections

variable (cfg : Config σ α) {cm : ConnectionManager σ α} {m : MsgId} {a : ActiveMessage σ α}
    {ur : UpstreamRequest}

theorem emit_released {os : List (Out α)} {cm₁ : ConnectionManager σ α} (h : Effect cm m a os cm₁)
    (conn : Option ConnId) :
    Effect cm m a (os ++ releasedOf conn)
      (match conn with | none => cm₁ | some c => cm₁.emit (.released c)) := by
  cases conn with
  | none => simpa [releasedOf] using h
  | some c => exact h.trans (Effect.emit h.self _)

/-- Without `close` the connection goes back to the pool, whatever is still expected on it. -/
theorem release_effect (ha : cm.messages m = a) (hur : a.upstreamRequest = some ur) (hh : ur.handler = none) :
    Effect cm m (a.withRequest (some ur.dropped)) (releasedOf ur.conn)
      (releaseUpStreamConnection cfg cm m false) := by
  have h : Effect cm m (a.withRequest (some ur.dropped)) []
      (cm.modifyRequest m fun ur => { ur with streamReset := true, handle := false, conn := none }) :=
    Effect.modifyRequest ha hur rfl
  simp only [releaseUpStreamConnection, ha, hur, hh]
  exact emit_released h ur.conn

/-- With `close` the connection is closed, and its close event makes a local reply. -/
theorem release_close_effect (ha : cm.messages m = a) (hur : a.upstreamRequest = some ur)
    (hh : ur.handler = none)
    (ht : a.metadata.messageType ≠ .oneway) {c : ConnId} (hc : ur.conn = some c) :
    ∃ os, LocalReply cm.connectionOpen m os ∧
      Effect cm m (a.withRequest (some ur.dropped)).replied (.upstreamClosed c :: os)
        (releaseUpStreamConnection cfg cm m true) := by
  have h : Effect cm m (a.withRequest (some ur.dropped)) []
      (cm.modifyRequest m fun ur => { ur with streamReset := true, handle := false, conn := none }) :=
    Effect.modifyRequest ha hur rfl
  have h₁ := h.trans (Effect.emit h.self (.upstreamClosed c))
  obtain ⟨os, hos, he⟩ := onConnectionEvent_effect cfg h₁.self rfl (by simpa using ht) .localClose
  refine ⟨os, h₁.connectionOpen ▸ hos, ?_⟩
  simp only [releaseUpStreamConnection, ha, hur, hh, hc, if_true]
  exact h₁.trans he

theorem clean_effect (ha : cm.messages m = a) (hur : a.upstreamRequest = some ur) :
    Effect cm m (a.withRequest none) (releasedOf ur.conn) (cleanUpstreamRequest cm m) := by
  have h : Effect cm m (a.withRequest none) [] (cm.modify m fun a => { a with upstreamRequest := none }) :=
    Effect.modify (by rw [ha]; rfl) (by rw [ha]; rfl)
  simp only [cleanUpstreamRequest, ha, hur]
  exact emit_released h ur.conn

theorem onDestroy_effect (ha : cm.messages m = a) (hur : a.upstreamRequest = some ur)
    (hh : ur.handler = none) :
    Effect cm m (a.withRequest none) (releasedOf ur.conn) (onDestroy cfg cm m) := by
  have h := release_effect cfg ha hur hh
  have h₁ := h.trans (clean_effect h.self rfl)
  simp only [onDestroy, ha, hur]
  simpa [releasedOf] using h₁

/-- The end of a response: the connection goes back to the pool and the request is gone. -/
theorem complete_effect (ha : cm.messages m = a) (hur : a.upstreamRequest = some ur) :
    Effect cm m (a.withRequest none) (releasedOf ur.conn)
      (cleanUpstreamRequest (onResponseComplete cm m) m) := by
  have h : Effect cm m (a.withRequest (some { ur with responseComplete := true, conn := none })) []
      (cm.modifyRequest m fun ur => { ur with responseComplete := true, conn := none }) :=
    Effect.modifyRequest ha hur rfl
  have h₁ : Effect cm m (a.withRequest (some { ur with responseComplete := true, conn := none }))
      (releasedOf ur.conn) (onResponseComplete cm m) := by
    simp only [onResponseComplete, ha, hur]
    exact emit_released h ur.conn
  simpa [releasedOf] using h₁.trans (clean_effect h₁.self rfl)

end Connections

end MetaProtocolProxy
