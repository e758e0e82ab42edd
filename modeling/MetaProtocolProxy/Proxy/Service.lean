import MetaProtocolProxy.Proxy.Touches
/-
# The messages an event serves (upstream_handler_impl.cc, router_impl.cc, conn_manager.cc)

`Touches` for the upstream handlers, the filters and the events. `step_touches` is about the events
that neither bring nor delete a message; the messages of such an event are `Event.served`. A new
message goes through the filters (`step_decoded_filtered`) or past them (`step_decoded_passed`), by
its type.
-/
namespace MetaProtocolProxy

variable {σ α : Type} {S : Set MsgId} {B : Prop} {cm cm₁ : ConnectionManager σ α} {m : MsgId}

/-! ## Upstream handlers -/

section Handlers

variable (cfg : Config σ α) (cm : ConnectionManager σ α) (h : HandlerId)

theorem encodeDataByHandler_touches (m : MsgId) : Touches {m} B cm (encodeDataByHandler cfg cm h m).2 := by
  unfold encodeDataByHandler
  split
  · exact .refl ..
  · split
    · exact .refl ..
    · split
      · exact .refl ..
      · exact (Touches.modifyRequest ..).trans (.emit ..)

theorem encodeDataByHandler_sent {u : Unit} (hok : encodeDataByHandler cfg cm h m = (.ok u, cm₁)) :
    (cm.messages m).upstreamRequest.isSome = true ∧ ∃ c bytes,
      cm₁ = (cm.modifyRequest m fun ur => { ur with buffer := [] }).emit (.upstreamWrite c m bytes) := by
  unfold encodeDataByHandler at hok
  split at hok
  · cases hok
  next hur =>
    split at hok
    · cases hok
    next bytes _ =>
      split at hok
      · cases hok
      next c _ => exact ⟨by rw [hur]; rfl, c, bytes, (Prod.mk.inj hok).2.symm⟩

theorem encodeDataByHandler_written {u : Unit}
    (hok : encodeDataByHandler cfg cm h m = (.ok u, cm₁)) : Written cm₁ m := by
  obtain ⟨-, c, bytes, rfl⟩ := encodeDataByHandler_sent cfg cm h hok
  exact ⟨c, bytes, List.mem_append_right _ List.mem_cons_self⟩

theorem onPoolReadyByHandler_touches (host : String) (m : MsgId) :
    Touches {m} B cm (onPoolReadyByHandler cfg cm h host m) ∧
      ((onPoolReadyByHandler cfg cm h host m).crashed = false →
        Written (onPoolReadyByHandler cfg cm h host m) m) := by
  have h₁ := (Touches.modifyRequest (B := B) cm m fun ur => { ur with host := host }).trans
    (continueDecoding_settles _ m).touches
  have h₂ := h₁.trans (encodeDataByHandler_touches cfg _ h m)
  simp only [onPoolReadyByHandler]
  rcases hr : encodeDataByHandler cfg
    (continueDecoding (cm.modifyRequest m fun ur => { ur with host := host }) m) h m with
    ⟨e | u, cm₂⟩
  · rw [hr] at h₂
    exact ⟨h₂.trans (.crash ..), fun hc => by cases hc⟩
  · rw [hr] at h₂
    have h₃ := Touches.modifyRequest (B := B) cm₂ m fun ur => { ur with requestComplete := true }
    exact ⟨h₂.trans h₃, fun _ => (encodeDataByHandler_written cfg _ h hr).mono h₃.out⟩

theorem delHandler_touches (S : Set MsgId) (key : String) : Touches S B cm (cm.delHandler key) :=
  .of_frame rfl rfl rfl rfl (List.Subset.refl _) id id (.inr (List.Subset.refl _)) rfl rfl

theorem clearQueue_touches {cm₁ : ConnectionManager σ α}
    (ht : Touches { i | i ∈ (cm.handlers h).upstreamRequestCallbacks } B cm cm₁) :
    Touches { i | i ∈ (cm.handlers h).upstreamRequestCallbacks } B cm
      (cm₁.modifyHandler h fun hd => { hd with upstreamRequestCallbacks := [] }) := by
  refine ht.trans
    (.modifyHandler _ cm₁ h (fun i hi hq => ?_) (fun i hq => absurd hq List.not_mem_nil)
      fun _ _ he => .inr he)
  exact absurd ((ht.queued h i hq).elim id id) hi

theorem handlerPoolFailure_touches (reason : PoolFailureReason) (host : String) :
    Touches { i | i ∈ (cm.handlers h).upstreamRequestCallbacks } B cm
      (handlerPoolFailure cfg cm h reason host) := by
  refine clearQueue_touches cm h ?_
  have h₁ : Touches { i | i ∈ (cm.handlers h).upstreamRequestCallbacks } B cm
      (cm.modifyHandler h fun hd => { hd with upstreamHandle := false }) :=
    .modifyHandler_still _ cm h (fun _ => rfl) fun _ => rfl
  refine (h₁.trans (delHandler_touches ..)).trans (.foldl (fun cm i _ => ?_) _)
  exact (onPoolFailure_settles cfg cm i id reason host).touches

theorem handlerPoolReady_touches (c : ConnId) (host : String) :
    Touches { i | i ∈ (cm.handlers h).upstreamRequestCallbacks } B cm (handlerPoolReady cfg cm h c host) := by
  refine clearQueue_touches cm h ?_
  have h₁ : Touches { i | i ∈ (cm.handlers h).upstreamRequestCallbacks } B cm
      (cm.modifyHandler h fun hd => { hd with conn := some c, upstreamHandle := false, poolReady := true }) :=
    .modifyHandler_still _ cm h (fun _ => rfl) fun _ => rfl
  refine h₁.trans (.foldl (fun cm i _ => ?_) _)
  split
  · exact .refl ..
  · exact (onPoolReadyByHandler_touches cfg cm h host i).1

theorem handlerStart_touches (hnone : (cm.handlers h).upstreamRequestCallbacks = []) (host : String)
    (pool : PoolAnswer) : Touches ∅ B cm (handlerStart cfg cm h host pool) := by
  have h₁ : Touches ∅ B cm (cm.modifyHandler h fun hd => { hd with poolReady := false }) :=
    .modifyHandler_still _ cm h (fun _ => rfl) fun _ => rfl
  have hempty :
      { i | i ∈ ((cm.modifyHandler h fun hd => { hd with poolReady := false }).handlers
        h).upstreamRequestCallbacks } ⊆ (∅ : Set MsgId) := by
    intro i hi
    simp [ConnectionManager.modifyHandler, hnone] at hi
  unfold handlerStart
  cases pool with
  | pending => exact h₁.trans (.modifyHandler_still _ _ h (fun _ => rfl) fun _ => rfl)
  | ready c => exact h₁.trans ((handlerPoolReady_touches cfg _ h c host).mono hempty)
  | failure reason => exact h₁.trans ((handlerPoolFailure_touches cfg _ h reason host).mono hempty)

theorem handlerClose_touches : Touches ∅ B cm (handlerClose cm h) := by
  simp only [handlerClose]
  refine (delHandler_touches cm ∅ (cm.handlers h).key).trans ?_
  exact .modifyHandler_still _ _ h (fun _ => rfl) fun _ => rfl

def expecting : Set MsgId := { i | ∃ id, (id, i) ∈ (cm.handlers h).responseCallbacks }

theorem handlerMessageDecoded_touches (md : Metadata α) :
    Touches (expecting cm h) B cm (handlerMessageDecoded cm h md) := by
  simp only [handlerMessageDecoded]
  split
  · exact .emit ..
  next m hl =>
    have hm : {m} ⊆ expecting cm h := by
      rintro i rfl
      exact ⟨md.requestId, mem_of_lookup hl⟩
    have h₁ := ((Touches.emit (B := B) (expecting cm h) cm (.handlerResponse h md)).trans
      (.emit _ _ (.callback h md.requestId m))).trans
      ((onUpstreamResponseCallback_settles _ m id).touches.mono hm)
    refine h₁.trans (.modifyHandler _ _ h (fun _ _ hq => hq) (fun _ hq => .inr hq) fun _ _ he => ?_)
    exact .inr (List.mem_of_mem_filter he)

theorem handlerUpstreamData_touches (data : Bytes) (garbage : Bool) :
    Touches (expecting cm h) B cm (handlerUpstreamData cfg cm h data garbage).1 := by
  refine handlerUpstreamData_preserves cfg h ?_ ?_ ?_ (.refl ..) data garbage
  · intro cm₁ f h₁
    exact h₁.trans (.modifyHandler_still _ cm₁ h (fun _ => rfl) fun _ => rfl)
  · intro cm₁ md h₁
    refine h₁.trans ((handlerMessageDecoded_touches cm₁ h md).mono fun i hi => ?_)
    obtain ⟨id, he⟩ := hi
    exact (h₁.entries h id i he).elim (fun hi => hi) fun he => ⟨id, he⟩
  · intro cm₁ h₁
    exact h₁.trans (.crash ..)

end Handlers

/-! ## The filters and the router -/

section Router

variable (cfg : Config σ α) (cm : ConnectionManager σ α)

theorem newUpstreamRequest_touches (m : MsgId) (handler : Option HandlerId) :
    Touches {m} B cm (newUpstreamRequest cm m handler) :=
  .modify cm m (fun _ => rfl) (fun _ => rfl) fun _ h => h

theorem startRequest_touches (m : MsgId) (host : String) (pool : PoolAnswer)
    (hB : (cm.messages m).metadata.messageType = .streamInit → B) :
    Touches {m} B cm (startRequest cfg cm m host pool).2 := by
  unfold startRequest
  cases pool with
  | pending => exact .modifyRequest ..
  | failure reason => exact (onPoolFailure_settles cfg cm m id reason host).touches
  | ready c =>
    have h := (onPoolReady_touches cfg cm m c host hB).1
    dsimp only
    generalize onPoolReady cfg cm m c host = r at h ⊢
    obtain ⟨e | u, cm'⟩ := r <;> exact h

theorem startRequestByHandler_touches (m : MsgId) (h : HandlerId) :
    Touches {m} B cm (startRequestByHandler cfg cm m h).2 := by
  unfold startRequestByHandler
  split
  · have ht := encodeDataByHandler_touches (B := B) cfg cm h m
    generalize encodeDataByHandler cfg cm h m = r at ht ⊢
    obtain ⟨e | u, cm'⟩ := r <;> exact ht
  · dsimp only
    refine .modifyHandler _ cm h (fun i _ hi => List.mem_append_left _ hi) (fun i hi => ?_)
      fun _ _ he => .inr he
    exact (List.mem_append.1 hi).symm.imp_left List.mem_singleton.1

theorem addResponseCallback_touches (h : HandlerId) (id : Nat) (m : MsgId) :
    Touches {m} B cm (addResponseCallback cm h id m) := by
  unfold addResponseCallback
  refine .modifyHandler _ cm h (fun i _ hi => ?_) (fun i hi => .inr ?_) fun k i he => ?_
  · split <;> exact hi
  · split at hi <;> exact hi
  · split at he
    · exact .inr he
    · exact (List.mem_cons.1 he).imp_left fun heq => (Prod.mk.inj heq).2

/-- `cm` with a new handler. -/
def withHandler (hd : UpstreamHandler σ) : ConnectionManager σ α :=
  { cm with
    nextHandler := cm.nextHandler + 1
    handlers := Function.update cm.handlers cm.nextHandler hd
    handlerManager := (hd.key, cm.nextHandler) :: cm.handlerManager }

theorem withHandler_touches {hd : UpstreamHandler σ} (hqueue : hd.upstreamRequestCallbacks = [])
    (hentries : hd.responseCallbacks = []) : Touches ∅ B cm (withHandler cm hd) := by
  have hself : (withHandler cm hd).handlers cm.nextHandler = hd := Function.update_self ..
  have hother : ∀ k, k ≠ cm.nextHandler → (withHandler cm hd).handlers k = cm.handlers k :=
    fun k hk => Function.update_of_ne hk ..
  refine { @Touches.refl _ _ B ∅ cm with
    nextHandler := Nat.le_succ _, queue := fun k i hk _ hq => ?_, queued := fun k i hq => .inr ?_,
    entries := fun k id i he => .inr ?_ }
  · rwa [hother k (Nat.ne_of_lt hk)]
  · by_cases hk : k = cm.nextHandler
    · rw [hk, hself, hqueue] at hq
      exact absurd hq List.not_mem_nil
    · rwa [hother k hk] at hq
  · by_cases hk : k = cm.nextHandler
    · rw [hk, hself, hentries] at he
      exact absurd he List.not_mem_nil
    · rwa [hother k hk] at he

variable {cm} in
theorem getUpstreamHandler_cases {clusterName : String} {env : RouterEnv} {h : HandlerId}
    (hok : getUpstreamHandler cfg cm clusterName env = .ok (h, cm₁)) :
    ∃ cluster host, env.cluster = some cluster ∧ cluster.host = some host ∧
      ((cm.handlerManager.lookup (clusterName ++ "_" ++ host) = some h ∧ cm₁ = cm) ∨
        (cm.handlerManager.lookup (clusterName ++ "_" ++ host) = none ∧ h = cm.nextHandler ∧
          cm₁ = handlerStart cfg (withHandler cm { key := clusterName ++ "_" ++ host })
            cm.nextHandler host env.pool)) := by
  unfold getUpstreamHandler at hok
  split at hok
  · cases hok
  next cluster hcluster =>
    split at hok
    · cases hok
    next host hhost =>
      refine ⟨cluster, host, hcluster, hhost, ?_⟩
      simp only at hok
      split at hok
      next hl =>
        obtain ⟨rfl, rfl⟩ := Prod.mk.inj (Except.ok.inj hok)
        exact .inl ⟨hl, rfl⟩
      next hl =>
        obtain ⟨rfl, rfl⟩ := Prod.mk.inj (Except.ok.inj hok)
        exact .inr ⟨hl, rfl, rfl⟩

variable {cm} in
theorem getUpstreamHandler_touches {clusterName : String} {env : RouterEnv} {h : HandlerId}
    (hok : getUpstreamHandler cfg cm clusterName env = .ok (h, cm₁)) : Touches ∅ B cm cm₁ := by
  obtain ⟨cluster, host, -, -, ⟨-, rfl⟩ | ⟨-, -, rfl⟩⟩ := getUpstreamHandler_cases cfg hok
  · exact .refl ..
  · have hnew : Touches ∅ B cm (withHandler cm { key := clusterName ++ "_" ++ host }) :=
      withHandler_touches cm rfl rfl
    refine hnew.trans (handlerStart_touches cfg _ _ ?_ host env.pool)
    simp [withHandler]

theorem routerDecoded_touches (m : MsgId) (env : RouterEnv)
    (hB : (cm.messages m).metadata.messageType = .streamInit → B) :
    Touches {m} B cm (routerDecoded cfg cm m env).2 := by
  unfold routerDecoded
  split
  · exact (sendLocalReply_settles ..).touches
  next entry _ =>
    have h₁ : Touches {m} B cm (cm.modify m fun a =>
      { a with mutation := a.mutation.set entry.requestMutation }) :=
      .modify cm m (fun _ => rfl) (fun _ => rfl) fun _ h => h
    dsimp only
    split
    · split
      · exact h₁.trans (sendLocalReply_settles ..).touches
      next h cm₂ hget =>
        have h₂ := h₁.trans ((getUpstreamHandler_touches cfg hget).mono (Set.empty_subset _))
        have h₃ := h₂.trans (addResponseCallback_touches cm₂ h (cm₂.messages m).metadata.requestId m)
        exact (h₃.trans (newUpstreamRequest_touches _ m (some h))).trans (startRequestByHandler_touches ..)
    · split
      · exact h₁.trans (sendLocalReply_settles ..).touches
      · have h₂ := h₁.trans (newUpstreamRequest_touches _ m none)
        exact h₂.trans (startRequest_touches cfg _ m _ _ fun ht => hB ((h₂.messageType m).symm.trans ht))

theorem applyDecoderFilters_touches (m : MsgId) (filters : List DecoderVerdict)
    (env : RouterEnv) (hB : (cm.messages m).metadata.messageType = .streamInit → B) :
    Touches {m} B cm (applyDecoderFilters cfg cm m filters env).2 := by
  refine applyDecoderFilters_preserves cfg (P := Touches {m} B cm)
    (Q := fun r => Touches {m} B cm r.2) (fun v _ cm₁ h₁ => ?_)
    (fun error cm₁ h₁ => ?_) (fun _ _ h₁ => h₁) (fun cm₁ h₁ => ?_) (fun _ _ h₁ => h₁) (.refl ..)
  · exact h₁.trans (.modify cm₁ m (fun _ => rfl) (fun _ => rfl) fun _ h => h)
  · exact h₁.trans (sendLocalReply_settles ..).touches
  · exact h₁.trans (routerDecoded_touches cfg cm₁ m env fun ht => hB ((h₁.messageType m).symm.trans ht))

end Router

/-! ## The events -/

section Events

variable (cfg : Config σ α) (cm : ConnectionManager σ α)

theorem resumeFilters_touches (m : MsgId) (filters : List DecoderVerdict)
    (env : RouterEnv) (hB : (cm.messages m).metadata.messageType = .streamInit → B) :
    Touches {m} B cm (resumeFilters cfg cm m filters env) := by
  have h := applyDecoderFilters_touches cfg cm m filters env hB
  unfold resumeFilters
  generalize applyDecoderFilters cfg cm m filters env = r at h ⊢
  obtain ⟨e | status, cm₁⟩ := r
  · exact h.trans (.crash ..)
  · dsimp only
    split
    · exact h.trans (continueDecoding_settles ..).touches
    · exact h

theorem resetAllMessages_touches :
    Touches { i | i ∈ cm.activeMessageList } B cm cm.resetAllMessages :=
  { @Touches.refl _ _ B { i | i ∈ cm.activeMessageList } cm with
    active := List.nil_subset _
    stays := fun i hi hmem => absurd hmem hi
    perm := by simpa [ConnectionManager.resetAllMessages] using List.perm_append_comm }

theorem onDownstreamClose_touches :
    Touches { i | i ∈ cm.activeMessageList } B cm (onDownstreamClose cm) :=
  (resetAllMessages_touches cm).trans
    (.of_frame rfl rfl rfl rfl (List.Subset.refl _) nofun id (.inr (List.Subset.refl _)) rfl rfl)

theorem releaseStream_eq (st : Stream) :
    ∃ os, (∀ o ∈ os, ∃ c, o = .released c) ∧ releaseStream cm st = { cm with out := cm.out ++ os } := by
  unfold releaseStream
  cases st.upstreamConn with
  | none => exact ⟨[], by simp, by simp⟩
  | some c => exact ⟨[.released c], by simp, rfl⟩

theorem foldl_releaseStream (streams : List (Nat × Stream)) (cm : ConnectionManager σ α) :
    ∃ os, (∀ o ∈ os, ∃ c, o = .released c) ∧ (streams = [] → os = []) ∧
      streams.foldl (fun cm e => releaseStream cm e.2) cm = { cm with out := cm.out ++ os } := by
  induction streams generalizing cm with
  | nil => exact ⟨[], by simp, fun _ => rfl, by simp⟩
  | cons e streams ih =>
    obtain ⟨os₁, hos₁, heq₁⟩ := releaseStream_eq cm e.2
    obtain ⟨os₂, hos₂, -, heq₂⟩ := ih { cm with out := cm.out ++ os₁ }
    refine ⟨os₁ ++ os₂, fun o ho => (List.mem_append.1 ho).elim (hos₁ o) (hos₂ o), by simp, ?_⟩
    rw [List.foldl_cons, heq₁, heq₂, List.append_assoc]

/-- `clearStream` gives the streams' connections back and changes nothing else. -/
theorem clearStream_eq :
    ∃ os, (∀ o ∈ os, ∃ c, o = .released c) ∧ (cm.activeStreamMap = [] → os = []) ∧
      clearStream cm = { cm with out := cm.out ++ os, activeStreamMap := [] } := by
  obtain ⟨os, hos, hnil, h⟩ := foldl_releaseStream cm.activeStreamMap cm
  exact ⟨os, hos, hnil, by rw [clearStream, h]⟩

theorem newActiveStream_eq (k : Nat) :
    ∃ os, (∀ o ∈ os, ∃ c, o = .released c) ∧
      newActiveStream cm k = { cm with out := cm.out ++ os }.setStream k {} := by
  unfold newActiveStream
  cases cm.getActiveStream k with
  | none => exact ⟨[], by simp, by simp⟩
  | some st =>
    obtain ⟨os, hos, heq⟩ := releaseStream_eq cm st
    exact ⟨os, hos, by dsimp only; rw [heq]⟩

theorem clearStream_touches : Touches S B cm (clearStream cm) := by
  obtain ⟨os, -, -, heq⟩ := clearStream_eq cm
  rw [heq]
  exact .of_frame rfl rfl rfl rfl (List.subset_append_left ..) id id (.inr (List.nil_subset _)) rfl rfl

def Event.served : Event α → Set MsgId
  | .decoded _ _ _ _ => {cm.nextMessage}
  | .continueDecoding m _ _ | .poolReady m _ _ | .poolFailure m _ _ | .upstreamData m _
      _ | .upstreamEvent m _ | .destroy m => {m}
  | .handlerPoolReady h _ _ | .handlerPoolFailure h _ _ =>
      { i | i ∈ (cm.handlers h).upstreamRequestCallbacks }
  | .handlerData h _ _ => expecting cm h
  | .handlerEvent _ _ => ∅
  | .downstreamEvent _ | .downstreamEnd | .idleTimeout => { i | i ∈ cm.activeMessageList }

def Event.IsService : Event α → Prop
  | .decoded _ _ _ _ | .destroy _ => False
  | _ => True

theorem Event.new_or_destroy_or_service (e : Event α) :
    (∃ md encoders filters env, e = .decoded md encoders filters env) ∨ (∃ m, e = .destroy m) ∨
      e.IsService := by
  cases e with
  | decoded md encoders filters env => exact .inl ⟨md, encoders, filters, env, rfl⟩
  | destroy m => exact .inr (.inl ⟨m, rfl⟩)
  | _ => exact .inr (.inr trivial)

/-- The event may connect a stream: it brings an answer of the pool to an init message. -/
def Event.Connects : Event α → Prop
  | .continueDecoding m _ _ | .poolReady m _ _ => (cm.messages m).metadata.messageType = .streamInit
  | _ => False

/-- An event that neither brings nor deletes a message touches the messages it is about. -/
theorem step_touches {e : Event α} (he : e.IsService) :
    Touches (e.served cm) (e.Connects cm) cm (step cfg cm e) := by
  cases e with
  | decoded md encoders filters env => exact he.elim
  | continueDecoding m filters env => exact resumeFilters_touches cfg cm m filters env id
  | poolReady m c host =>
    have h := (onPoolReady_touches cfg cm m c host (B := Event.Connects cm (.poolReady m c host)) id).1
    simp only [step]
    generalize onPoolReady cfg cm m c host = r at h ⊢
    obtain ⟨e | u, cm'⟩ := r
    · exact h.trans (.crash ..)
    · exact h
  | poolFailure m reason host => exact (onPoolFailure_settles cfg cm m id reason host).touches
  | upstreamData m data endStream => exact (onUpstreamData_settles cfg cm m id trivial data endStream).touches
  | upstreamEvent m event => exact (upstreamClosed_settles cfg cm m event).touches
  | handlerPoolReady h c host => exact handlerPoolReady_touches cfg cm h c host
  | handlerPoolFailure h reason host => exact handlerPoolFailure_touches cfg cm h reason host
  | handlerData h data garbage => exact handlerUpstreamData_touches cfg cm h data garbage
  | handlerEvent h event => exact handlerClose_touches cm h
  | downstreamEvent event => exact onDownstreamClose_touches cm
  | downstreamEnd =>
    refine ((resetAllMessages_touches cm).trans (clearStream_touches _)).trans ?_
    exact .of_frame rfl rfl rfl rfl (List.Subset.refl _) nofun id (.inr (List.Subset.refl _)) rfl rfl
  | idleTimeout =>
    have h := (resetAllMessages_touches (B := False) cm).trans (clearStream_touches _)
    exact h.trans ((onDownstreamClose_touches _).mono h.active)
  | destroy m => exact he.elim

theorem onDestroy_touches (m : MsgId) : Touches {m} B cm (onDestroy cfg cm m) :=
  (onDestroy_settles cfg cm m id trivial).touches

/-! ## New messages -/

theorem newActiveStream_touches (streamId : Nat) (hB : B) :
    Touches S B cm (newActiveStream cm streamId) := by
  obtain ⟨os, -, heq⟩ := newActiveStream_eq cm streamId
  rw [heq]
  exact .of_frame rfl rfl rfl rfl (List.subset_append_left ..) id id (.inl hB) rfl rfl

theorem forwardToStream_touches (m : MsgId) (closesClient closesServer : Bool) (hB : B) :
    Touches {m} B cm (forwardToStream cm m closesClient closesServer) := by
  simp only [forwardToStream]
  split
  · exact .refl ..
  next st _ =>
    have hset : ∀ st, Touches {m} B cm (cm.setStream (cm.messages m).metadata.streamId st) :=
      fun st => .of_frame rfl rfl rfl rfl (List.Subset.refl _) id id (.inl hB) rfl rfl
    split
    · exact hset _
    · exact ((hset _).trans (.emit ..)).trans (.modify _ m (fun _ => rfl) (fun _ => rfl) fun _ h => h)

def afterNew (m : MsgId) : Except Failure FilterStatus × ConnectionManager σ α → ConnectionManager σ α
  | (.error e, cm) => dispatchFailed cm e
  | (.ok status, cm) => afterDecoderFilters cm m status

theorem afterDecoderFilters_touches (m : MsgId) (status : FilterStatus) :
    Touches {m} B cm (afterDecoderFilters cm m status) := by
  unfold afterDecoderFilters
  cases status with
  | pauseIteration => exact .modify cm m (fun _ => rfl) (fun _ => rfl) fun _ h => h
  | abortIteration => exact (Settles.deferredDeleteMessage cm m).touches
  | continueIteration => exact (maybeDeferredDeleteMessage_settles cm m).touches
  | retry => exact .crash ..

/-- The types of the messages `onMessageDecoded` runs the decoder filters on. -/
def MessageType.isFiltered : MessageType → Bool
  | .request | .streamInit => true
  | _ => false

def MessageType.isStream : MessageType → Bool
  | .streamInit | .streamData | .streamCloseOneWay | .streamCloseTwoWay => true
  | _ => false

def enlisted (md : Metadata α) (encoders : List EncoderVerdict) : ConnectionManager σ α :=
  newMessage cm (md.putString applicationProtocol cfg.applicationProtocol) encoders

def admitted (md : Metadata α) (encoders : List EncoderVerdict) : ConnectionManager σ α :=
  if md.messageType = .streamInit then newActiveStream (enlisted cfg cm md encoders) md.streamId
    else enlisted cfg cm md encoders

def passed (md : Metadata α) (encoders : List EncoderVerdict) : ConnectionManager σ α :=
  match md.messageType with
  | .streamData => forwardToStream (enlisted cfg cm md encoders) cm.nextMessage false false
  | .streamCloseOneWay => forwardToStream (enlisted cfg cm md encoders) cm.nextMessage true false
  | .streamCloseTwoWay => forwardToStream (enlisted cfg cm md encoders) cm.nextMessage true true
  | _ => enlisted cfg cm md encoders

variable (md : Metadata α) (encoders : List EncoderVerdict) (filters : List DecoderVerdict)
  (env : RouterEnv)

theorem step_decoded_filtered (ht : md.messageType.isFiltered = true) :
    step cfg cm (.decoded md encoders filters env) =
      afterNew cm.nextMessage (applyDecoderFilters cfg (admitted cfg cm md encoders) cm.nextMessage
        filters env) := by
  simp only [step, onMessageDecoded, admitted, enlisted]
  cases hmt : md.messageType with
  | request =>
    simp only [reduceCtorEq, if_false]
    rcases applyDecoderFilters cfg _ cm.nextMessage filters env with ⟨e | status, cm₂⟩ <;> rfl
  | streamInit =>
    simp only [if_true]
    rcases applyDecoderFilters cfg _ cm.nextMessage filters env with ⟨e | status, cm₂⟩ <;> rfl
  | _ => simp [hmt, MessageType.isFiltered] at ht

theorem step_decoded_passed (ht : md.messageType.isFiltered = false) :
    step cfg cm (.decoded md encoders filters env) =
      maybeDeferredDeleteMessage (passed cfg cm md encoders) cm.nextMessage := by
  simp only [step, onMessageDecoded, passed, enlisted]
  cases hmt : md.messageType with
  | request | streamInit => simp [hmt, MessageType.isFiltered] at ht
  | _ => rfl

theorem enlisted_self : (enlisted cfg cm md encoders).messages cm.nextMessage =
    { metadata := md.putString applicationProtocol cfg.applicationProtocol, encoderFilters := encoders } :=
  Function.update_self ..

theorem enlisted_other {i : MsgId} (hi : i ≠ cm.nextMessage) :
    (enlisted cfg cm md encoders).messages i = cm.messages i :=
  Function.update_of_ne hi ..

theorem admitted_touches :
    Touches {cm.nextMessage} (md.messageType.isStream = true) (enlisted cfg cm md encoders)
    (admitted cfg cm md encoders) := by
  unfold admitted
  split
  next ht => exact newActiveStream_touches _ _ (by rw [ht]; rfl)
  · exact .refl ..

theorem passed_touches :
    Touches {cm.nextMessage} (md.messageType.isStream = true) (enlisted cfg cm md encoders)
    (passed cfg cm md encoders) := by
  unfold passed
  split
  next ht => exact forwardToStream_touches _ _ false false (by rw [ht]; rfl)
  next ht => exact forwardToStream_touches _ _ true false (by rw [ht]; rfl)
  next ht => exact forwardToStream_touches _ _ true true (by rw [ht]; rfl)
  · exact .refl ..

theorem filtered_touches :
    Touches {cm.nextMessage} (md.messageType.isStream = true) (enlisted cfg cm md encoders)
    (applyDecoderFilters cfg (admitted cfg cm md encoders) cm.nextMessage filters env).2 := by
  have h := admitted_touches cfg cm md encoders
  refine h.trans (applyDecoderFilters_touches cfg _ cm.nextMessage filters env fun ht => ?_)
  rw [h.messageType, enlisted_self] at ht
  rw [show md.messageType = .streamInit from ht]
  rfl

/-- A new message changes itself only, unless its dispatch fails and the connection is closed. -/
theorem decoded_touches :
    ∃ S, Touches S (md.messageType.isStream = true) (enlisted cfg cm md encoders)
      (step cfg cm (.decoded md encoders filters env)) ∧
    (S = {cm.nextMessage} ∨ S = { i | i ∈ (enlisted cfg cm md encoders).activeMessageList } ∧
      (step cfg cm (.decoded md encoders filters env)).connectionOpen = false ∧
      (step cfg cm (.decoded md encoders filters env)).activeMessageList = []) := by
  cases ht : md.messageType.isFiltered with
  | false =>
    rw [step_decoded_passed cfg cm md encoders filters env ht]
    exact ⟨_, (passed_touches ..).trans (maybeDeferredDeleteMessage_settles ..).touches, .inl rfl⟩
  | true =>
    have h := filtered_touches cfg cm md encoders filters env
    rw [step_decoded_filtered cfg cm md encoders filters env ht]
    generalize applyDecoderFilters cfg _ cm.nextMessage filters env = r at h ⊢
    obtain ⟨e | status, cm₂⟩ := r
    · simp only [afterNew, dispatchFailed]
      split
      · have hself : {cm.nextMessage} ⊆ { i | i ∈ (enlisted cfg cm md encoders).activeMessageList } := by
          rintro i rfl
          exact List.mem_cons_self
        exact ⟨_, (h.mono hself).trans ((onDownstreamClose_touches cm₂).mono h.active), .inr ⟨rfl, rfl, rfl⟩⟩
      · exact ⟨_, h.trans (.crash ..), .inl rfl⟩
    · exact ⟨_, h.trans (afterDecoderFilters_touches cm₂ _ status), .inl rfl⟩

/-! ## The lists of messages -/

structure Listed (cm : ConnectionManager σ α) : Prop where
  nodup : (cm.activeMessageList ++ cm.deferred).Nodup
  known : ∀ {i}, i ∈ cm.activeMessageList ++ cm.deferred → i < cm.nextMessage

variable {cm}

theorem listed_init : Listed ({} : ConnectionManager σ α) :=
  ⟨List.nodup_nil, fun h => absurd h List.not_mem_nil⟩

theorem Listed.of_touches (hl : Listed cm) (h : Touches S B cm cm₁) : Listed cm₁ :=
  ⟨h.perm.nodup_iff.2 hl.nodup, fun hi => h.nextMessage ▸ hl.known (h.perm.mem_iff.1 hi)⟩

theorem Listed.newMessage (hl : Listed cm) (md : Metadata α) (encoders : List EncoderVerdict) :
    Listed (newMessage cm md encoders) := by
  refine ⟨List.nodup_cons.2 ⟨fun hmem => Nat.lt_irrefl _ (hl.known hmem), hl.nodup⟩, fun hi => ?_⟩
  rcases List.mem_cons.1 hi with rfl | hi
  · exact Nat.lt_succ_self _
  · exact Nat.lt_succ_of_lt (hl.known hi)

theorem Listed.enlisted (hl : Listed cm) (cfg : Config σ α) (md : Metadata α)
    (encoders : List EncoderVerdict) : Listed (enlisted cfg cm md encoders) := hl.newMessage ..

theorem Listed.erase (hl : Listed cm) (m : MsgId) : Listed { cm with deferred := cm.deferred.erase m } := by
  have hsub : (cm.activeMessageList ++ cm.deferred.erase m).Sublist (cm.activeMessageList ++ cm.deferred) :=
    List.erase_sublist.append_left _
  exact ⟨hl.nodup.sublist hsub, fun hi => hl.known (hsub.subset hi)⟩

theorem Listed.destroy (hl : Listed cm) (m : MsgId) : Listed (step cfg cm (.destroy m)) :=
  (hl.of_touches (onDestroy_touches (B := False) cfg cm m)).erase m

theorem step_listed (hl : Listed cm) (e : Event α) : Listed (step cfg cm e) := by
  obtain ⟨md, encoders, filters, env, rfl⟩ | ⟨m, rfl⟩ | he := e.new_or_destroy_or_service
  · obtain ⟨S, h, -⟩ := decoded_touches cfg cm md encoders filters env
    exact (hl.enlisted cfg md encoders).of_touches h
  · exact hl.destroy cfg m
  · exact hl.of_touches (step_touches cfg cm he)

end Events

end MetaProtocolProxy
