import MetaProtocolProxy.Proxy.Effects
/-
# The way of a request to its connection (upstream_request.cc, router_impl.cc, active_message.cc)

The pool's answers, the router and the filter chain, without multiplexing. `ReadyOutcome` lists the
ways `UpstreamRequest::onPoolReady` can go, `FilterOutcome` those of the decoder filters, the router
included.
-/
namespace MetaProtocolProxy

variable {σ α : Type} {cfg : Config σ α} {cm : ConnectionManager σ α} {m : MsgId} {a : ActiveMessage σ α}
  {ur : UpstreamRequest}

/-! ## The pool -/

theorem continueDecoding_effect (ha : cm.messages m = a) :
    Effect cm m a.resumed [] (continueDecoding cm m) := by
  unfold continueDecoding
  by_cases hp : (cm.messages m).pendingStreamDecoded = true
  · rw [if_pos hp]
    exact maybeDeferredDeleteMessage_effect ha
  · rw [if_neg hp]
    rw [a.resumed_of_not_pending (by simpa [ha] using hp)]
    exact Effect.refl ha

@[simps] def UpstreamRequest.refused (ur : UpstreamRequest) (host : String) : UpstreamRequest :=
  { ur with handle := false, host := host, buffer := [] }

theorem onPoolFailure_effect (cfg : Config σ α) (ha : cm.messages m = a) (hur : a.upstreamRequest = some ur)
    (ht : a.metadata.messageType ≠ .oneway) (reason : PoolFailureReason) (host : String) :
    ∃ a' os, (a' = (a.withRequest (some (ur.refused host))).replied ∨
        a' = (a.withRequest (some (ur.refused host))).replied.resumed) ∧
      LocalReply cm.connectionOpen m os ∧ Effect cm m a' os (onPoolFailure cfg cm m reason host) := by
  have h₁ : Effect cm m (a.withRequest (some { ur with handle := false, host := host })) []
      (cm.modifyRequest m fun ur => { ur with handle := false, host := host }) :=
    Effect.modifyRequest ha hur rfl
  obtain ⟨os, hos, h₂⟩ := onUpstreamConnectionReset_effect cfg h₁.self rfl (by simpa using ht) reason
  have h₃ : Effect cm m (a.withRequest (some (ur.refused host))).replied os
      ((onUpstreamConnectionReset cfg
        (cm.modifyRequest m fun ur => { ur with handle := false, host := host }) m
        reason).modifyRequest m fun ur => { ur with buffer := [] }) := by
    have h := (h₁.trans h₂).trans_nil (Effect.modifyRequest
      (f := fun ur => { ur with buffer := [] }) h₂.self rfl rfl)
    rwa [List.nil_append] at h
  rw [h₁.connectionOpen] at hos
  simp only [onPoolFailure]
  split
  · exact ⟨_, os, .inr rfl, hos, h₃.trans_nil (continueDecoding_effect h₃.self)⟩
  · exact ⟨_, os, .inl rfl, hos, h₃⟩

/-- The request with the connection `c`, as `onPoolReady` leaves it before the write. -/
@[simps] def ActiveMessage.attached (a : ActiveMessage σ α) (ur : UpstreamRequest) (c : ConnId)
    (host : String) : ActiveMessage σ α :=
  { a with
    metadata := a.metadata.putString realServerAddress host
    upstreamRequest := some { ur with host := host, conn := some c, handle := false }
    pendingStreamDecoded := a.pendingStreamDecoded && !ur.handle }

/-- The ways `UpstreamRequest::onPoolReady` can go. -/
inductive ReadyOutcome (cfg : Config σ α) (cm : ConnectionManager σ α) (m : MsgId) (a : ActiveMessage σ α)
    (ur : UpstreamRequest) (c : ConnId) (host : String) : Except Failure Unit × ConnectionManager σ α → Prop
  /-- The message cannot be encoded. -/
  | failed {e cm'} (he : Effect cm m (a.attached ur c host) [.assigned m c] cm') :
      ReadyOutcome cfg cm m a ur c host (.error e, cm')
  /-- The message has been written; a stream has taken the connection of its init message. -/
  | written {bytes conn cm'} (hconn : conn = some c ∨ a.metadata.messageType = .streamInit ∧ conn = none)
      (hbytes : cfg.codec.encode (a.attached ur c host).metadata a.mutation ur.buffer = .ok bytes)
      (he : Effect cm m ((a.attached ur c host).withRequest (some { ur with
          host := host, handle := false, conn := conn, buffer := [], requestComplete := true }))
        [.assigned m c, .upstreamWrite c m bytes] cm') :
      ReadyOutcome cfg cm m a ur c host (.ok (), cm')

/-- The state in which `onPoolReady` encodes the message. -/
def attach (cm : ConnectionManager σ α) (m : MsgId) (ur : UpstreamRequest) (c : ConnId) (host : String) :
    ConnectionManager σ α :=
  let cm := cm.modifyRequest m fun ur => { ur with host := host, conn := some c, handle := false }
  let cm := cm.emit (.assigned m c)
  let cm := cm.modify m fun a => { a with metadata := a.metadata.putString realServerAddress host }
  if ur.handle then continueDecoding cm m else cm

theorem attach_effect (ha : cm.messages m = a) (hur : a.upstreamRequest = some ur) (c : ConnId)
    (host : String) :
    Effect cm m (a.attached ur c host) [.assigned m c] (attach cm m ur c host) := by
  have h₁ : Effect cm m (a.withRequest (some { ur with host := host, conn := some c, handle := false })) []
      (cm.modifyRequest m fun ur => { ur with host := host, conn := some c, handle := false }) :=
    Effect.modifyRequest ha hur rfl
  have h₂ := h₁.trans (Effect.emit h₁.self (.assigned m c))
  have h₃ : Effect cm m { a with
        metadata := a.metadata.putString realServerAddress host
        upstreamRequest := some { ur with host := host, conn := some c, handle := false } } [.assigned m c]
      (((cm.modifyRequest m fun ur => { ur with host := host, conn := some c, handle := false }).emit
        (.assigned m c)).modify m fun a =>
          { a with metadata := a.metadata.putString realServerAddress host }) :=
    h₂.trans_nil (Effect.modify (by rw [h₂.self]; rfl) (by rw [h₂.self]; rfl))
  unfold attach
  cases hh : ur.handle with
  | true =>
    have h₄ := h₃.trans_nil (continueDecoding_effect h₃.self)
    simpa [ActiveMessage.attached, ActiveMessage.resumed, hh] using h₄
  | false => simpa [ActiveMessage.attached, hh] using h₃

theorem setUpstreamConnection_effect {c : ConnId} (ha : cm.messages m = a) (hur : a.upstreamRequest = some ur)
    (ht : a.metadata.messageType = .streamInit) :
    Effect cm m a [] (setUpstreamConnection cm m c) ∨
      Effect cm m (a.withRequest (some { ur with conn := none })) [] (setUpstreamConnection cm m c) := by
  simp only [setUpstreamConnection]
  split
  · exact .inl (Effect.crash ha)
  · have h : Effect cm m (a.withRequest (some { ur with conn := none })) []
        (cm.modifyRequest m fun ur => { ur with conn := none }) :=
      Effect.modifyRequest ha hur rfl
    exact .inr (h.trans_nil (Effect.of_frame h.self rfl (by simp [ConnectionManager.setStream]) rfl
      rfl rfl (by simp [ht])))

theorem onPoolReady_eq (cfg : Config σ α) (ha : cm.messages m = a)
    (hur : a.upstreamRequest = some ur) (c : ConnId) (host : String) :
    onPoolReady cfg cm m c host = match encodeData cfg (attach cm m ur c host) m c with
      | (.error e, cm) => (.error e, cm)
      | (.ok _, cm) =>
        let cm := if (cm.messages m).metadata.messageType = .streamInit then
            setUpstreamConnection (cm.deferredDeleteMessage m) m c
          else cm
        (.ok (), cm.modifyRequest m fun ur => { ur with requestComplete := true }) := by
  subst ha
  unfold onPoolReady
  generalize (cm.messages m).upstreamRequest = r at hur ⊢
  subst hur
  rfl

theorem onPoolReady_outcome (cfg : Config σ α) (ha : cm.messages m = a)
    (hur : a.upstreamRequest = some ur) (c : ConnId)
    (host : String) : ReadyOutcome cfg cm m a ur c host (onPoolReady cfg cm m c host) := by
  have h := attach_effect ha hur c host
  rw [onPoolReady_eq cfg ha hur]
  simp only [encodeData, h.self, ActiveMessage.attached_upstreamRequest, ActiveMessage.attached_mutation]
  cases hb : cfg.codec.encode (a.attached ur c host).metadata a.mutation ur.buffer with
  | error e => exact .failed h
  | ok bytes =>
    have h₁ : Effect cm m ((a.attached ur c host).withRequest
          (some { ur with host := host, conn := some c, handle := false, buffer := [] }))
        [.assigned m c, .upstreamWrite c m bytes]
        (((attach cm m ur c host).modifyRequest m fun ur => { ur with buffer := [] }).emit
            (.upstreamWrite c m bytes)) := by
      have h' := h.trans_nil (Effect.modifyRequest (f := fun ur => { ur with buffer := [] }) h.self rfl rfl)
      exact h'.trans (Effect.emit h'.self _)
    simp only [h₁.self]
    split
    next ht =>
      have h₂ := h₁.trans_nil (Effect.deferredDeleteMessage h₁.self m)
      rcases setUpstreamConnection_effect (c := c) h₂.self rfl ht with h₃ | h₃
      · have h₄ := h₂.trans_nil h₃
        exact .written (.inl rfl) hb (h₄.trans_nil (Effect.modifyRequest h₄.self rfl rfl))
      · have h₄ := h₂.trans_nil h₃
        exact .written (.inr ⟨ht, rfl⟩) hb (h₄.trans_nil (Effect.modifyRequest h₄.self rfl rfl))
    next ht => exact .written (.inl rfl) hb (h₁.trans_nil (Effect.modifyRequest h₁.self rfl rfl))

/-! ## The router and the filters before it -/

@[simps] def ActiveMessage.withMutation (a : ActiveMessage σ α) (mutation : Mutation) : ActiveMessage σ α :=
  { a with mutation := mutation }

@[simp] theorem ActiveMessage.withMutation_withMutation (mutation mutation' : Mutation) :
    (a.withMutation mutation).withMutation mutation' = a.withMutation mutation' := rfl

@[simps] def ActiveMessage.asked (a : ActiveMessage σ α) : ActiveMessage σ α :=
  { a with
    upstreamRequest := some { buffer := a.metadata.originMessage }
    metadata := { a.metadata with originMessage := [] } }

inductive FilterOutcome (cfg : Config σ α) (cm : ConnectionManager σ α) (m : MsgId) (a : ActiveMessage σ α)
    (pool : PoolAnswer) : Except Failure FilterStatus × ConnectionManager σ α → Prop
  /-- A filter or the router has made a local reply. -/
  | replied (mutation : Mutation) {os cm'} (hos : LocalReply cm.connectionOpen m os)
      (he : Effect cm m (a.withMutation mutation).replied os cm') :
        FilterOutcome cfg cm m a pool (.ok .continueIteration, cm')
  /-- A filter has stopped the iteration. -/
  | stopped (mutation : Mutation) {status cm'} (hst : status ≠ .continueIteration) (he :
      Effect cm m (a.withMutation mutation) [] cm') :
      FilterOutcome cfg cm m a pool (.ok status, cm')
  /-- The router waits for the pool. -/
  | pending (mutation : Mutation) {cm'}
      (he : Effect cm m ((a.withMutation mutation).asked.withRequest
        (some { buffer := a.metadata.originMessage, handle := true })) [] cm') :
      FilterOutcome cfg cm m a pool (.ok .pauseIteration, cm')
  /-- The pool has refused a connection. -/
  | refused (mutation : Mutation) {host a' os cm'} (hos : LocalReply cm.connectionOpen m os)
      (ha' : a' = ((a.withMutation mutation).asked.withRequest (some { host := host })).replied ∨
        a' = ((a.withMutation mutation).asked.withRequest (some { host := host })).replied.resumed)
      (he : Effect cm m a' os cm') :
      FilterOutcome cfg cm m a pool (.ok .continueIteration, cm')
  /-- The pool had a connection. -/
  | ready (mutation : Mutation) {c host cm'} (hpool : pool = .ready c)
      (hr : ReadyOutcome cfg cm m (a.withMutation mutation).asked
        { buffer := a.metadata.originMessage } c host (.ok (), cm')) :
      FilterOutcome cfg cm m a pool (.ok .continueIteration, cm')
  | failed (mutation : Mutation) {c host e cm'} (hpool : pool = .ready c)
      (hr : ReadyOutcome cfg cm m (a.withMutation mutation).asked
        { buffer := a.metadata.originMessage } c host (.error e, cm')) :
      FilterOutcome cfg cm m a pool (.error e, cm')

theorem ReadyOutcome.of_effect {cm₁ : ConnectionManager σ α} {b : ActiveMessage σ α} {c : ConnId}
    {host : String}
    {r : Except Failure Unit × ConnectionManager σ α} (h : Effect cm m b [] cm₁)
    (hr : ReadyOutcome cfg cm₁ m a ur c host r) : ReadyOutcome cfg cm m a ur c host r := by
  cases hr with
  | failed he => exact .failed (by simpa using h.trans he)
  | written hconn hb he => exact .written hconn hb (by simpa using h.trans he)

theorem FilterOutcome.of_effect {cm₁ : ConnectionManager σ α} {mutation : Mutation}
    {r : Except Failure FilterStatus × ConnectionManager σ α}
    (h : Effect cm m (a.withMutation mutation) [] cm₁)
    {pool : PoolAnswer} (hr : FilterOutcome cfg cm₁ m (a.withMutation mutation) pool r) :
    FilterOutcome cfg cm m a pool r := by
  have hopen := h.connectionOpen
  cases hr with
  | replied mu hos he => exact .replied mu (hopen ▸ hos) (by simpa using h.trans he)
  | stopped mu hst he => exact .stopped mu hst (by simpa using h.trans he)
  | pending mu he => exact .pending mu (by simpa using h.trans he)
  | refused mu hos ha' he => exact .refused mu (hopen ▸ hos) ha' (by simpa using h.trans he)
  | ready mu hpool hr => exact .ready mu hpool (hr.of_effect h)
  | failed mu hpool hr => exact .failed mu hpool (hr.of_effect h)

theorem newUpstreamRequest_effect (ha : cm.messages m = a) :
    Effect cm m a.asked [] (newUpstreamRequest cm m none) :=
  Effect.modify (by rw [ha]; rfl) (by rw [ha]; rfl)

/-- `UpstreamRequest::start` on a new request. -/
theorem startRequest_outcome (cfg : Config σ α) (ha : cm.messages m = a)
    (ht : a.metadata.messageType ≠ .oneway) (host : String) (pool : PoolAnswer) :
    FilterOutcome cfg cm m a pool (startRequest cfg (newUpstreamRequest cm m none) m host pool) := by
  have h := newUpstreamRequest_effect ha
  cases pool with
  | pending => exact .pending a.mutation (h.trans_nil (Effect.modifyRequest h.self rfl rfl))
  | failure reason =>
    obtain ⟨a', os, ha', hos, he⟩ := onPoolFailure_effect cfg h.self rfl (by simpa using ht) reason host
    exact .refused a.mutation (h.connectionOpen ▸ hos) ha' (by simpa using h.trans he)
  | ready c =>
    have hr := (onPoolReady_outcome cfg h.self rfl c host).of_effect h
    simp only [startRequest]
    rcases hon : onPoolReady cfg (newUpstreamRequest cm m none) m c host with ⟨e | u, cm'⟩
    · rw [hon] at hr
      exact .failed a.mutation rfl hr
    · rw [hon] at hr
      exact .ready a.mutation rfl hr

/-- The router; a reply of its own stops the iteration, which the filter loop overrides. -/
theorem routerDecoded_outcome (hmux : cfg.multiplexing = false) (ha : cm.messages m = a)
    (ht : a.metadata.messageType ≠ .oneway) (env : RouterEnv) :
    FilterOutcome cfg cm m a env.pool (routerDecoded cfg cm m env) ∨
      ∃ mutation os, (routerDecoded cfg cm m env).1 = .ok .abortIteration ∧
        LocalReply cm.connectionOpen m os ∧
        Effect cm m (a.withMutation mutation).replied os (routerDecoded cfg cm m env).2 := by
  unfold routerDecoded
  cases env.route with
  | none =>
    obtain ⟨os, hos, he⟩ := sendLocalReply_effect cfg ha (noMatchedRoute (cm.messages m).metadata.requestId)
    exact .inr ⟨a.mutation, os, rfl, hos, he⟩
  | some entry =>
    have h : Effect cm m (a.withMutation (a.mutation.set entry.requestMutation)) []
        (cm.modify m fun a => { a with mutation := a.mutation.set entry.requestMutation }) :=
      Effect.modify (by rw [ha]; rfl) (by rw [ha]; rfl)
    simp only [hmux, Bool.false_eq_true, if_false]
    cases prepareUpstreamRequest entry.clusterName env.cluster with
    | error e =>
      obtain ⟨os, hos, he⟩ := sendLocalReply_effect cfg h.self e
      exact .inr ⟨_, os, rfl, h.connectionOpen ▸ hos, by simpa using h.trans he⟩
    | ok host => exact .inl ((startRequest_outcome cfg h.self (by simpa using ht) host env.pool).of_effect h)

/-- The loop's treatment of the router's answer: it stands unless a local reply has been made, and
then the answer is to continue. -/
theorem FilterOutcome.after_router (hsent : a.localResponseSent = false)
    (pool : PoolAnswer) (r : Except Failure FilterStatus × ConnectionManager σ α) :
    FilterOutcome cfg cm m a pool r → FilterOutcome cfg cm m a pool (match r with
      | (.error e, cm) => (.error e, cm)
      | (.ok status, cm) =>
        if (cm.messages m).localResponseSent then (.ok .continueIteration, cm) else (.ok status, cm)) := by
  intro h
  cases h with
  | replied mu hos he =>
    simp only [ite_self]
    exact .replied mu hos he
  | stopped mu hst he =>
    simp only [he.self, ActiveMessage.withMutation_localResponseSent, hsent, Bool.false_eq_true, if_false]
    exact .stopped mu hst he
  | pending mu he =>
    simp only [he.self, ActiveMessage.withRequest_localResponseSent, ActiveMessage.asked_localResponseSent,
      ActiveMessage.withMutation_localResponseSent, hsent, Bool.false_eq_true, if_false]
    exact .pending mu he
  | refused mu hos ha' he =>
    simp only [ite_self]
    exact .refused mu hos ha' he
  | ready mu hpool hr =>
    simp only [ite_self]
    exact .ready mu hpool hr
  | failed mu hpool hr => exact .failed mu hpool hr

/-- The loop stops at the first filter that replies or does not continue; the last one is the
router. -/
theorem decoderFilterLoop_outcome (hmux : cfg.multiplexing = false) (ha : cm.messages m = a)
    (ht : a.metadata.messageType ≠ .oneway) (hsent : a.localResponseSent = false) (env : RouterEnv)
    (filters : List DecoderVerdict) :
    FilterOutcome cfg cm m a env.pool (decoderFilterLoop cfg cm m env filters) := by
  induction filters generalizing cm a with
  | nil =>
    rw [decoderFilterLoop]
    rcases routerDecoded_outcome hmux ha ht env with h | ⟨mu, os, hr, hos, he⟩
    · exact FilterOutcome.after_router hsent _ _ h
    · rw [show routerDecoded cfg cm m env = (.ok .abortIteration, (routerDecoded cfg cm m env).2)
        from Prod.ext hr rfl]
      simp only [he.self, ActiveMessage.replied_localResponseSent, if_true]
      exact .replied mu hos he
  | cons v vs ih =>
    have h : Effect cm m (a.withMutation (a.mutation.set v.mutation)) []
        (cm.modify m fun a => { a with mutation := a.mutation.set v.mutation }) :=
      Effect.modify (by rw [ha]; rfl) (by rw [ha]; rfl)
    simp only [decoderFilterLoop]
    cases v.localReply with
    | some e =>
      obtain ⟨os, hos, he⟩ := sendLocalReply_effect cfg h.self e
      simp only [he.self, ActiveMessage.replied_localResponseSent, if_true]
      exact .replied _ (h.connectionOpen ▸ hos) (by simpa using h.trans he)
    | none =>
      simp only [h.self, ActiveMessage.withMutation_localResponseSent, hsent, Bool.false_eq_true, if_false]
      split
      · exact (ih h.self (by simpa using ht) (by simpa using hsent)).of_effect h
      · exact .stopped _ ‹_› h

end MetaProtocolProxy
