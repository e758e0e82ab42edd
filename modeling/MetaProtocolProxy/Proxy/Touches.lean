import MetaProtocolProxy.Proxy.Requests
import MetaProtocolProxy.Proxy.Settles
import Mathlib.Data.Set.Insert
/-
# The messages a function touches (active_message.cc, router_impl.cc, upstream_request.cc)

`Touches S` is for all functions, those that write upstream included, and for both kinds of upstream
request: the function changes the records of the messages in `S` only, takes only those off
`active_message_list_`, and hands what it takes off to the dispatcher. For the functions that write
nothing it follows from `Settles` (`Settles.touches`).
-/
namespace MetaProtocolProxy

variable {σ α : Type}

/-- The message has been written to an upstream connection. -/
def Written (cm : ConnectionManager σ α) (m : MsgId) : Prop := ∃ c bytes, Out.upstreamWrite c m bytes ∈ cm.out

/-- From `cm` to `cm'` only messages in `S` have changed, and streams only if `B` says so. -/
structure Touches (S : Set MsgId) (B : Prop) (cm cm' : ConnectionManager σ α) : Prop where
  nextMessage : cm'.nextMessage = cm.nextMessage
  messageType : ∀ i, (cm'.messages i).metadata.messageType = (cm.messages i).metadata.messageType
  streamId : ∀ i, (cm'.messages i).metadata.streamId = (cm.messages i).metadata.streamId
  replied : ∀ i, (cm.messages i).localResponseSent = true → (cm'.messages i).localResponseSent = true
  others : ∀ i ∉ S, cm'.messages i = cm.messages i
  active : cm'.activeMessageList ⊆ cm.activeMessageList
  stays : ∀ i ∉ S, i ∈ cm.activeMessageList → i ∈ cm'.activeMessageList
  /-- What is taken off the list is handed to the dispatcher. -/
  perm : (cm'.activeMessageList ++ cm'.deferred).Perm (cm.activeMessageList ++ cm.deferred)
  out : cm.out ⊆ cm'.out
  connectionOpen : cm'.connectionOpen = true → cm.connectionOpen = true
  crashed : cm.crashed = true → cm'.crashed = true
  streams : B ∨ cm'.activeStreamMap ⊆ cm.activeStreamMap
  nextHandler : cm.nextHandler ≤ cm'.nextHandler
  queue : ∀ h i, h < cm.nextHandler → i ∉ S → i ∈ (cm.handlers h).upstreamRequestCallbacks →
    i ∈ (cm'.handlers h).upstreamRequestCallbacks
  queued : ∀ h i, i ∈ (cm'.handlers h).upstreamRequestCallbacks → i ∈ S ∨
    i ∈ (cm.handlers h).upstreamRequestCallbacks
  entries : ∀ h id i, (id, i) ∈ (cm'.handlers h).responseCallbacks → i ∈ S ∨
    (id, i) ∈ (cm.handlers h).responseCallbacks

variable {S T : Set MsgId} {B : Prop} {cm cm₁ cm₂ : ConnectionManager σ α} {m : MsgId}

theorem Written.mono (hout : cm.out ⊆ cm₁.out) (h : Written cm m) : Written cm₁ m := by
  obtain ⟨c, bytes, hmem⟩ := h
  exact ⟨c, bytes, hout hmem⟩

namespace Touches

theorem of_frame (hmsg : cm₁.messages = cm.messages) (hactive : cm₁.activeMessageList = cm.activeMessageList)
    (hdeferred : cm₁.deferred = cm.deferred) (hnext : cm₁.nextMessage = cm.nextMessage)
    (hout : cm.out ⊆ cm₁.out)
    (hopen : cm₁.connectionOpen = true → cm.connectionOpen = true)
    (hcrashed : cm.crashed = true → cm₁.crashed = true)
    (hstreams : B ∨ cm₁.activeStreamMap ⊆ cm.activeStreamMap)
    (hhandlers : cm₁.handlers = cm.handlers) (hnh : cm₁.nextHandler = cm.nextHandler) :
    Touches S B cm cm₁ where
  nextMessage := hnext
  messageType i := by rw [hmsg]
  streamId i := by rw [hmsg]
  replied i hi := by rwa [hmsg]
  others i _ := by rw [hmsg]
  active := by rw [hactive]; exact List.Subset.refl _
  stays i _ hi := by rwa [hactive]
  perm := by rw [hactive, hdeferred]
  out := hout
  connectionOpen := hopen
  crashed := hcrashed
  streams := hstreams
  nextHandler := Nat.le_of_eq hnh.symm
  queue h i _ _ hi := by rwa [hhandlers]
  queued h i hi := .inr (by rwa [hhandlers] at hi)
  entries h id i hi := .inr (by rwa [hhandlers] at hi)

theorem refl (S : Set MsgId) (cm : ConnectionManager σ α) : Touches S B cm cm :=
  of_frame rfl rfl rfl rfl (List.Subset.refl _) id id (.inr (List.Subset.refl _)) rfl rfl

theorem trans (h₁ : Touches S B cm cm₁) (h₂ : Touches S B cm₁ cm₂) : Touches S B cm cm₂ where
  nextMessage := h₂.nextMessage.trans h₁.nextMessage
  messageType i := (h₂.messageType i).trans (h₁.messageType i)
  streamId i := (h₂.streamId i).trans (h₁.streamId i)
  replied i hi := h₂.replied i (h₁.replied i hi)
  others i hi := (h₂.others i hi).trans (h₁.others i hi)
  active := List.Subset.trans h₂.active h₁.active
  stays i hi hmem := h₂.stays i hi (h₁.stays i hi hmem)
  perm := h₂.perm.trans h₁.perm
  out := List.Subset.trans h₁.out h₂.out
  connectionOpen := h₁.connectionOpen ∘ h₂.connectionOpen
  crashed := h₂.crashed ∘ h₁.crashed
  streams := h₁.streams.elim .inl fun hs₁ => h₂.streams.imp_right fun hs₂ => List.Subset.trans hs₂ hs₁
  nextHandler := Nat.le_trans h₁.nextHandler h₂.nextHandler
  queue h i hlt hi hq := h₂.queue h i (Nat.lt_of_lt_of_le hlt h₁.nextHandler) hi (h₁.queue h i hlt hi hq)
  queued h i hi := (h₂.queued h i hi).elim .inl (h₁.queued h i)
  entries h id i hi := (h₂.entries h id i hi).elim .inl (h₁.entries h id i)

theorem mono (h : Touches S B cm cm₁) (hST : S ⊆ T) : Touches T B cm cm₁ where
  nextMessage := h.nextMessage
  messageType := h.messageType
  streamId := h.streamId
  replied := h.replied
  others i hi := h.others i fun hS => hi (hST hS)
  active := h.active
  stays i hi := h.stays i fun hS => hi (hST hS)
  perm := h.perm
  out := h.out
  connectionOpen := h.connectionOpen
  crashed := h.crashed
  streams := h.streams
  nextHandler := h.nextHandler
  queue i j hlt hj := h.queue i j hlt fun hS => hj (hST hS)
  queued i j hj := (h.queued i j hj).imp_left fun hS => hST hS
  entries i id j hj := (h.entries i id j hj).imp_left fun hS => hST hS

theorem alive (h : Touches S B cm cm₁) (hc : cm₁.crashed = false) : cm.crashed = false :=
  Bool.eq_false_iff.2 fun hcr => by simp [h.crashed hcr] at hc

theorem modify (cm : ConnectionManager σ α) (m : MsgId) {f : ActiveMessage σ α → ActiveMessage σ α}
    (htype : ∀ a, (f a).metadata.messageType = a.metadata.messageType)
    (hid : ∀ a, (f a).metadata.streamId = a.metadata.streamId)
    (hsent : ∀ a, a.localResponseSent = true → (f a).localResponseSent = true) :
    Touches {m} B cm (cm.modify m f) := by
  have hother : ∀ i ∉ ({m} : Set MsgId), (cm.modify m f).messages i = cm.messages i :=
    fun i hi => Function.update_of_ne hi ..
  refine { @refl _ _ B {m} cm with
    messageType := fun i => ?_, streamId := fun i => ?_, replied := fun i hi => ?_, others := hother }
  · by_cases hi : i = m
    · rw [hi, cm.messages_modify_self, htype]
    · rw [hother i hi]
  · by_cases hi : i = m
    · rw [hi, cm.messages_modify_self, hid]
    · rw [hother i hi]
  · by_cases him : i = m
    · rw [him, cm.messages_modify_self]
      exact hsent _ (him ▸ hi)
    · rwa [hother i him]

theorem modifyRequest (cm : ConnectionManager σ α) (m : MsgId) (f : UpstreamRequest → UpstreamRequest) :
    Touches {m} B cm (cm.modifyRequest m f) :=
  modify cm m (fun _ => rfl) (fun _ => rfl) fun _ h => h

theorem emit (S : Set MsgId) (cm : ConnectionManager σ α) (o : Out α) : Touches S B cm (cm.emit o) :=
  { @refl _ _ B S cm with out := List.subset_append_left .. }

theorem crash (S : Set MsgId) (cm : ConnectionManager σ α) : Touches S B cm cm.crash :=
  { @refl _ _ B S cm with crashed := fun _ => rfl }

theorem modifyHandler (S : Set MsgId) (cm : ConnectionManager σ α) (h : HandlerId)
    {f : UpstreamHandler σ → UpstreamHandler σ}
    (hqueue : ∀ i ∉ S, i ∈ (cm.handlers h).upstreamRequestCallbacks →
      i ∈ (f (cm.handlers h)).upstreamRequestCallbacks)
    (hqueued : ∀ i, i ∈ (f (cm.handlers h)).upstreamRequestCallbacks →
      i ∈ S ∨ i ∈ (cm.handlers h).upstreamRequestCallbacks)
    (hentries : ∀ id i, (id, i) ∈ (f (cm.handlers h)).responseCallbacks →
      i ∈ S ∨ (id, i) ∈ (cm.handlers h).responseCallbacks) :
    Touches S B cm (cm.modifyHandler h f) := by
  refine { @refl _ _ B S cm with
    queue := fun k i _ hi hq => ?_, queued := fun k i hq => ?_, entries := fun k id i he => ?_ }
  · by_cases hk : k = h
    · subst hk
      rw [cm.handlers_modifyHandler_self]
      exact hqueue i hi hq
    · rwa [cm.handlers_modifyHandler_of_ne f hk]
  · by_cases hk : k = h
    · subst hk
      rw [cm.handlers_modifyHandler_self] at hq
      exact hqueued i hq
    · rw [cm.handlers_modifyHandler_of_ne f hk] at hq
      exact .inr hq
  · by_cases hk : k = h
    · subst hk
      rw [cm.handlers_modifyHandler_self] at he
      exact hentries id i he
    · rw [cm.handlers_modifyHandler_of_ne f hk] at he
      exact .inr he

theorem modifyHandler_still (S : Set MsgId) (cm : ConnectionManager σ α) (h : HandlerId)
    {f : UpstreamHandler σ → UpstreamHandler σ}
    (hqueue : ∀ hd, (f hd).upstreamRequestCallbacks = hd.upstreamRequestCallbacks)
    (hentries : ∀ hd, (f hd).responseCallbacks = hd.responseCallbacks) :
    Touches S B cm (cm.modifyHandler h f) :=
  modifyHandler S cm h (fun i _ hi => by rwa [hqueue]) (fun i hi => .inr (by rwa [hqueue] at hi))
    fun id i hi => .inr (by rwa [hentries] at hi)

theorem foldl {f : ConnectionManager σ α → MsgId → ConnectionManager σ α} {ms : List MsgId}
    (hf : ∀ cm, ∀ i ∈ ms, Touches {i} B cm (f cm i)) (cm : ConnectionManager σ α) :
    Touches { i | i ∈ ms } B cm (ms.foldl f cm) := by
  induction ms generalizing cm with
  | nil => exact .refl ..
  | cons i ms ih =>
    have h₁ : Touches { j | j ∈ i :: ms } B cm (f cm i) :=
      (hf cm i List.mem_cons_self).mono fun j hj => by simp [show j = i from hj]
    have h₂ := ih (fun cm j hj => hf cm j (List.mem_cons_of_mem i hj)) (f cm i)
    exact h₁.trans (h₂.mono fun j hj => List.mem_cons_of_mem i hj)

end Touches

theorem Settles.touches (h : Settles False True m cm cm₁) : Touches {m} B cm cm₁ where
  nextMessage := h.nextMessage
  messageType i := by
    by_cases hi : i = m
    · exact hi ▸ congrArg Metadata.messageType h.record.metadata
    · rw [h.others i hi]
  streamId i := by
    by_cases hi : i = m
    · exact hi ▸ congrArg Metadata.streamId h.record.metadata
    · rw [h.others i hi]
  replied i := by
    by_cases hi : i = m
    · exact hi ▸ h.record.replied
    · rw [h.others i hi]
      exact id
  others := h.others
  active := h.active
  stays := h.stays
  perm := h.perm
  out := by
    obtain ⟨os, hout, -⟩ := h.out
    exact hout ▸ List.subset_append_left ..
  connectionOpen := h.connectionOpen.symm.trans
  crashed := h.crashed
  streams := .inr (h.streams ▸ List.Subset.refl _)
  nextHandler := Nat.le_of_eq h.nextHandler.symm
  queue k i _ hi hq := by
    rcases h.handlers k with hsame | ⟨-, hleft⟩
    · rwa [hsame]
    · rw [hleft]
      exact List.mem_filter.2 ⟨hq, by simpa using hi⟩
  queued k i hq := by
    rcases h.handlers k with hsame | ⟨-, hleft⟩
    · exact .inr (hsame ▸ hq)
    · rw [hleft] at hq
      exact .inr (List.mem_of_mem_filter hq)
  entries k id i he := by
    rcases h.handlers k with hsame | ⟨-, hleft⟩
    · exact .inr (hsame ▸ he)
    · rw [hleft] at he
      exact .inr he

/-! ## The end of a message -/

/-- `maybeDeferredDeleteMessage` deletes the message. -/
def Ended (cm : ConnectionManager σ α) (m : MsgId) : Prop :=
  (cm.messages m).localResponseSent = true ∨ (cm.messages m).metadata.messageType.isOneWay = true

theorem sendLocalReply_sent (cfg : Config σ α) (cm : ConnectionManager σ α) (m : MsgId) (error : Error) :
    ((sendLocalReply cfg cm m error).messages m).localResponseSent = true := by
  rw [sendLocalReply, ConnectionManager.messages_modify_self]

theorem deferredDeleteMessage_gone (hnd : (cm.activeMessageList ++ cm.deferred).Nodup) (m : MsgId) :
    m ∉ (cm.deferredDeleteMessage m).activeMessageList := by
  unfold ConnectionManager.deferredDeleteMessage
  split
  · exact List.Nodup.not_mem_erase (List.nodup_append.1 hnd).1
  next hm => exact hm

section Pool

variable (cfg : Config σ α)

/-- Unless its response is complete, a message whose connection is reset is taken off the list. -/
theorem onUpstreamConnectionReset_gone (hnd : (cm.activeMessageList ++ cm.deferred).Nodup)
    (hopen : ∀ ur, (cm.messages m).upstreamRequest = some ur → ur.responseComplete = false)
    (reason : PoolFailureReason)
    (hc : (onUpstreamConnectionReset cfg cm m reason).crashed = false) :
    m ∉ (onUpstreamConnectionReset cfg cm m reason).activeMessageList := by
  simp only [onUpstreamConnectionReset] at hc ⊢
  cases hur : (cm.messages m).upstreamRequest with
  | none =>
    rw [hur] at hc
    cases hc
  | some ur =>
    simp only [hopen ur hur, Bool.false_eq_true, if_false]
    split
    · exact deferredDeleteMessage_gone hnd m
    · have h : Settles False True m cm (sendLocalReply cfg cm m (resetError reason ur.host)) :=
        sendLocalReply_settles ..
      exact deferredDeleteMessage_gone (h.perm.nodup_iff.2 hnd) m

theorem onPoolFailure_gone (hnd : (cm.activeMessageList ++ cm.deferred).Nodup)
    (hopen : ∀ ur, (cm.messages m).upstreamRequest = some ur → ur.responseComplete = false)
    (reason : PoolFailureReason)
    (host : String) (hc : (onPoolFailure cfg cm m reason host).crashed = false) :
    m ∉ (onPoolFailure cfg cm m reason host).activeMessageList := by
  have hopen₁ :
      ∀ ur, ((cm.modifyRequest m fun ur => { ur with handle := false, host := host }).messages
        m).upstreamRequest =
      some ur → ur.responseComplete = false := by
    intro ur hur
    rw [ConnectionManager.modifyRequest, cm.messages_modify_self] at hur
    obtain ⟨ur₀, hur₀, rfl⟩ := Option.map_eq_some_iff.1 hur
    exact hopen ur₀ hur₀
  have hgone :=
    @onUpstreamConnectionReset_gone _ _ (cm.modifyRequest m fun ur =>
      { ur with handle := false, host := host })
    m cfg hnd hopen₁ reason
  -- what follows the reset only takes more messages off
  have h : Touches {m} False (onUpstreamConnectionReset cfg
      (cm.modifyRequest m fun ur => { ur with handle := false, host := host }) m reason)
          (onPoolFailure cfg cm m reason host) := by
    simp only [onPoolFailure]
    split
    · exact (Touches.modifyRequest ..).trans (continueDecoding_settles ..).touches
    · exact .modifyRequest ..
  exact fun hmem => hgone (h.alive hc) (h.active hmem)

theorem encodeData_touches (cm : ConnectionManager σ α) (m : MsgId) (c : ConnId) :
    Touches {m} B cm (encodeData cfg cm m c).2 := by
  unfold encodeData
  split
  · exact .refl ..
  · split
    · exact .refl ..
    · exact (Touches.modifyRequest ..).trans (.emit ..)

theorem encodeData_written {u : Unit} {c : ConnId} (h : encodeData cfg cm m c = (.ok u, cm₁)) :
    Written cm₁ m := by
  unfold encodeData at h
  split at h
  · cases h
  · split at h
    · cases h
    next bytes _ =>
      obtain rfl := (Prod.mk.inj h).2
      exact ⟨c, bytes, List.mem_append_right _ List.mem_cons_self⟩

theorem setUpstreamConnection_touches (cm : ConnectionManager σ α) (m : MsgId) (c : ConnId) (hB : B) :
    Touches {m} B cm (setUpstreamConnection cm m c) := by
  simp only [setUpstreamConnection]
  split
  · exact .crash ..
  · refine (Touches.modifyRequest cm m fun ur => { ur with conn := none }).trans ?_
    exact .of_frame rfl rfl rfl rfl (List.Subset.refl _) id id (.inl hB) rfl rfl

theorem attach_touches (cm : ConnectionManager σ α) (m : MsgId) (ur : UpstreamRequest) (c : ConnId)
    (host : String) : Touches {m} B cm (attach cm m ur c host) := by
  have h₁ := (Touches.modifyRequest (B := B) cm m fun ur =>
    { ur with host := host, conn := some c, handle := false }).trans
    (Touches.emit _ _ (.assigned m c))
  have h₂ := h₁.trans
    (.modify _ m (f := fun a => { a with metadata := a.metadata.putString realServerAddress host })
    (fun _ => rfl) (fun _ => rfl) fun _ h => h)
  simp only [attach]
  split
  · exact h₂.trans (continueDecoding_settles ..).touches
  · exact h₂

/-- The pool has a connection: the message is written, or an exception is thrown. Only the stream of
an init message takes the connection. -/
theorem onPoolReady_touches (cm : ConnectionManager σ α) (m : MsgId) (c : ConnId) (host : String)
    (hB : (cm.messages m).metadata.messageType = .streamInit → B) :
    Touches {m} B cm (onPoolReady cfg cm m c host).2 ∧
      ∀ {u cm'}, onPoolReady cfg cm m c host = (.ok u, cm') → Written cm' m := by
  cases hur : (cm.messages m).upstreamRequest with
  | none =>
    simp only [onPoolReady, hur]
    exact ⟨.refl .., fun h => by cases h⟩
  | some ur =>
    have h₁ := attach_touches (B := B) cm m ur c host
    have h₂ := h₁.trans (encodeData_touches cfg _ m c)
    rw [onPoolReady_eq cfg rfl hur]
    rcases hr : encodeData cfg (attach cm m ur c host) m c with ⟨e | u, cm₂⟩
    · rw [hr] at h₂
      exact ⟨h₂, fun h => by cases h⟩
    · rw [hr] at h₂
      have h₃ : Touches {m} B cm₂ (if (cm₂.messages m).metadata.messageType = .streamInit then
          setUpstreamConnection (cm₂.deferredDeleteMessage m) m c else cm₂) := by
        split
        next ht =>
          have hdel : Touches {m} B cm₂ (cm₂.deferredDeleteMessage m) :=
            (Settles.deferredDeleteMessage cm₂ m).touches
          exact hdel.trans (setUpstreamConnection_touches _ m c (hB ((h₂.messageType m).symm.trans ht)))
        · exact .refl ..
      have h₄ := h₃.trans (Touches.modifyRequest _ m fun ur => { ur with requestComplete := true })
      refine ⟨h₂.trans h₄, fun h => ?_⟩
      obtain rfl := (Prod.mk.inj h).2
      exact (encodeData_written cfg hr).mono h₄.out

end Pool

end MetaProtocolProxy
