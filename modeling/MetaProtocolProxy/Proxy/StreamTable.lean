import MetaProtocolProxy.Proxy.Replies
import MetaProtocolProxy.Proxy.StreamOrder
/-
# The table of streams (conn_manager.cc, active_message.cc, stream.cc)

`active_stream_map_` over whole runs: the entry of a stream is made when its init message arrives,
before the filters have seen the message, and erased by `Stream::clear` only, when the server has
closed the stream. So an entry may outlive its init message without ever getting a connection
(`rejected_stream_stays`).

`Tidy` is the invariant of the runs without such an end: the filters, the router and the pool accept
every init message, there is no multiplexing for streams, and a client closes a stream on its own
side only. In these every entry waits for the connection of an init message or has one
(`stream_table_kept`).
-/
namespace MetaProtocolProxy

variable {σ α : Type}

/-! ## The streams' own events -/

inductive StreamEvent (σ α : Type)
  | manager (e : Event α)
  /-- Bytes for the stream, the state of the connection manager's codec, and a bound for the loop. -/
  | upstreamData (streamId fuel : Nat) (codec : σ) (data : Bytes) (endStream : Bool)
  | upstreamEvent (streamId : Nat) (event : ConnectionEvent)

section Definitions

variable (cfg : Config σ α) (cm : ConnectionManager σ α)

/-- `ConnectionManager::closeStream` (conn_manager.cc:189-192). -/
def ConnectionManager.closeStream (streamId : Nat) : ConnectionManager σ α :=
  { cm with activeStreamMap := cm.activeStreamMap.filter fun e => e.1 != streamId }

/-- `Stream::onUpstreamData` (stream.h:25-27) in its connection manager, and what `send2downstream`
has done. Nobody catches an exception of the codec. -/
def streamUpstreamData (streamId fuel : Nat) (codec : σ) (data : Bytes) (endStream : Bool) :
    ConnectionManager σ α × Option (Stream.Sent σ α) :=
  match cm.getActiveStream streamId with
  | none => (cm, none)
  | some st =>
    match Stream.send2downstream cfg.codec endStream fuel codec st data with
    | none => (cm, none)
    | some r =>
      match r.how with
      | .returned => (cm.setStream streamId r.stream, some r)
      | .cleared => ((releaseStream cm st).closeStream streamId, some r)
      | .usedAfterClear => (cm.crash, some r)
      | .threw _ => (cm.crash, some r)

/-- One step of the connection manager and its streams; `Stream::onEvent` does nothing. -/
def streamStep : StreamEvent σ α → ConnectionManager σ α
  | .manager e => step cfg cm e
  | .upstreamData streamId fuel codec data endStream =>
    (streamUpstreamData cfg cm streamId fuel codec data endStream).1
  | .upstreamEvent _ _ => cm

/-- A stream hears from its upstream connection once it has one, and the loop ends. -/
def StreamEnabled : StreamEvent σ α → Prop
  | .manager e => Enabled cm e
  | .upstreamData streamId fuel codec data endStream =>
    cm.crashed = false ∧ ∃ st, cm.getActiveStream streamId = some st ∧
      st.upstreamConn.isSome = true ∧
        (Stream.send2downstream cfg.codec endStream fuel codec st data).isSome = true
  | .upstreamEvent streamId _ =>
    cm.crashed = false ∧ ∃ st, cm.getActiveStream streamId = some st ∧ st.upstreamConn.isSome = true

def Waits (streamId : Nat) : Prop :=
  ∃ m ∈ cm.activeMessageList, (cm.messages m).metadata.messageType = .streamInit ∧
    (cm.messages m).metadata.streamId = streamId

/-- Every entry waits for its connection, or has it and is not closed on both sides. -/
def StreamTable : Prop :=
  ∀ e ∈ cm.activeStreamMap, Waits cm e.1 ∨
    e.2.upstreamConn.isSome = true ∧ ¬ (e.2.clientClosed = true ∧ e.2.serverClosed = true)

def AllAttached : Prop := ∀ e ∈ cm.activeStreamMap, e.2.upstreamConn.isSome = true

/-- No filter turns the message away, nor does the router or the pool if it gets there. -/
def Accepted (env : RouterEnv) : List DecoderVerdict → Prop
  | [] =>
    (∃ entry host, env.route = some entry ∧ prepareUpstreamRequest entry.clusterName env.cluster = .ok host) ∧
      ∀ reason, env.pool ≠ .failure reason
  | v :: vs =>
    v.localReply = none ∧ (v.status = .pauseIteration ∨ v.status = .continueIteration ∧ Accepted env vs)

/-- The codec throws no exception `dispatch` would catch for the message, whatever the mutation. -/
def Config.CanEncode (md : Metadata α) : Prop :=
  ∀ md' mutation e, md'.messageType = md.messageType →
    cfg.codec.encode md' mutation md.originMessage = .error e → e.isEnvoyException = false

/-- The condition on the events: init messages are accepted, without multiplexing; the client does
not close a stream on both sides; and a connection is not closed while a stream waits. -/
def Orderly : StreamEvent σ α → Prop
  | .manager (.decoded md _ filters env) =>
    match md.messageType with
    | .streamInit => cfg.multiplexing = false ∧ Accepted env filters ∧ cfg.CanEncode md
    | .streamCloseTwoWay => cm.getActiveStream md.streamId = none
    | .request => AllAttached cm ∨ cfg.CanEncode md
    | _ => True
  | .manager (.continueDecoding m filters env) => (cm.messages m).metadata.messageType = .streamInit →
      cfg.multiplexing = false ∧ Accepted env filters
  | .manager (.poolFailure m _ _) => (cm.messages m).metadata.messageType ≠ .streamInit
  | .manager (.downstreamEvent _) => AllAttached cm
  | _ => True

end Definitions

variable {cfg : Config σ α} {cm cm' : ConnectionManager σ α} {m : MsgId} {S : Set MsgId} {B : Prop}
    {k : Nat} {st : Stream}

/-! ## The invariant -/

structure Tidy (cfg : Config σ α) (cm : ConnectionManager σ α) : Prop where
  entries : ∀ e ∈ cm.activeStreamMap, (e.2.upstreamConn = none → Waits cm e.1) ∧ e.2.serverClosed = false
  inits : ∀ m ∈ cm.activeMessageList, (cm.messages m).metadata.messageType = .streamInit →
    cfg.multiplexing = false ∧ (cm.messages m).localResponseSent = false

theorem tidy_init : Tidy cfg ({} : ConnectionManager σ α) :=
  ⟨fun _ he => absurd he List.not_mem_nil, fun _ hm => absurd hm List.not_mem_nil⟩

theorem Tidy.table (hT : Tidy cfg cm) : StreamTable cm := by
  intro e he
  obtain ⟨hwaits, hopen⟩ := hT.entries e he
  cases hc : e.2.upstreamConn with
  | none => exact .inl (hwaits hc)
  | some c => exact .inr ⟨rfl, fun h => by simp [hopen] at h⟩

theorem mem_setStream {e : Nat × Stream} (he : e ∈ (cm.setStream k st).activeStreamMap) :
    e = (k, st) ∨ e ∈ cm.activeStreamMap ∧ e.1 ≠ k := by
  rcases List.mem_cons.1 he with rfl | he
  · exact .inl rfl
  · obtain ⟨hmem, hne⟩ := List.mem_filter.1 he
    exact .inr ⟨hmem, by simpa using hne⟩

/-- A message other than those in `S` still waits. -/
theorem Waits.of_touches (hw : Waits cm k) (h : Touches S B cm cm')
    (hS : ∀ i ∈ S, i ∈ cm.activeMessageList → (cm.messages i).metadata.messageType = .streamInit →
      (cm.messages i).metadata.streamId = k → i ∈ cm'.activeMessageList) : Waits cm' k := by
  obtain ⟨m, hm, ht, hid⟩ := hw
  refine ⟨m, ?_, (h.messageType m).trans ht, (h.streamId m).trans hid⟩
  by_cases hmS : m ∈ S
  · exact hS m hmS hm ht hid
  · exact h.stays m hmS hm

namespace Tidy

theorem of_touches (hT : Tidy cfg cm) (h : Touches S B cm cm')
    (hstreams : cm'.activeStreamMap ⊆ cm.activeStreamMap)
    (hS : ∀ i ∈ S, i ∈ cm.activeMessageList → (cm.messages i).metadata.messageType = .streamInit →
      i ∈ cm'.activeMessageList ∧ (cm'.messages i).localResponseSent = false) : Tidy cfg cm' where
  entries e he := by
    obtain ⟨hwaits, hopen⟩ := hT.entries e (hstreams he)
    exact ⟨fun hc => (hwaits hc).of_touches h fun i hi hm ht _ => (hS i hi hm ht).1, hopen⟩
  inits m hm ht := by
    rw [h.messageType] at ht
    obtain ⟨hmux, hsent⟩ := hT.inits m (h.active hm) ht
    refine ⟨hmux, ?_⟩
    by_cases hmS : m ∈ S
    · exact (hS m hmS (h.active hm) ht).2
    · rwa [h.others m hmS]

theorem of_others (hT : Tidy cfg cm) (h : Touches S B cm cm')
    (hstreams : cm'.activeStreamMap ⊆ cm.activeStreamMap)
    (hS : ∀ i ∈ S, i ∈ cm.activeMessageList → (cm.messages i).metadata.messageType ≠ .streamInit) :
    Tidy cfg cm' :=
  hT.of_touches h hstreams fun i hi hm ht => absurd ht (hS i hi hm)

theorem of_reset (hT : Tidy cfg cm) (hall : AllAttached cm) (hlist : cm'.activeMessageList = [])
    (hstreams : cm'.activeStreamMap ⊆ cm.activeStreamMap) : Tidy cfg cm' where
  entries e he := by
    refine ⟨fun hc => ?_, (hT.entries e (hstreams he)).2⟩
    have hsome := hall e (hstreams he)
    simp [hc] at hsome
  inits m hm := absurd hm (by simp [hlist])

theorem allAttached (hT : Tidy cfg cm) (hmux : cfg.multiplexing = true) : AllAttached cm := by
  intro e he
  cases hc : e.2.upstreamConn with
  | some c => rfl
  | none =>
    obtain ⟨m, hm, ht, -⟩ := (hT.entries e he).1 hc
    have hdirect := (hT.inits m hm ht).1
    simp [hmux] at hdirect

/-- The stream of an init message gets a connection, and the message leaves the list. -/
theorem connect (hT : Tidy cfg cm) (h : Touches {m} B cm cm') (hgone : m ∉ cm'.activeMessageList)
    (hst : cm.getActiveStream (cm.messages m).metadata.streamId = some st) {c : ConnId}
    (hstreams : cm'.activeStreamMap =
      (cm.setStream (cm.messages m).metadata.streamId
        { st with upstreamConn := some c }).activeStreamMap) : Tidy cfg cm' where
  entries e he := by
    rw [hstreams] at he
    rcases mem_setStream he with rfl | ⟨he, hne⟩
    · exact ⟨fun hc => (by cases hc), (hT.entries _ (mem_of_lookup hst)).2⟩
    · obtain ⟨hwaits, hopen⟩ := hT.entries e he
      refine ⟨fun hc => (hwaits hc).of_touches h fun i hi _ _ hid => ?_, hopen⟩
      -- the message is not of this stream
      obtain rfl : i = m := hi
      exact absurd hid.symm hne
  inits i hi ht := by
    have him : i ≠ m := fun heq => hgone (heq ▸ hi)
    rw [h.messageType] at ht
    rw [h.others i him]
    exact hT.inits i (h.active hi) ht

end Tidy

/-! ## The connection of a stream -/

theorem encodeData_streams (cfg : Config σ α) (cm : ConnectionManager σ α) (m : MsgId) (c : ConnId) :
    (encodeData cfg cm m c).2.activeStreamMap = cm.activeStreamMap := by
  unfold encodeData
  split
  · rfl
  · split <;> rfl

/-- The stream of message `m` has got a connection. -/
structure Connected (cm : ConnectionManager σ α) (m : MsgId) (cm' : ConnectionManager σ α) : Prop where
  gone : m ∉ cm'.activeMessageList
  stream : ∃ st c, cm.getActiveStream (cm.messages m).metadata.streamId = some st ∧ cm'.activeStreamMap =
    (cm.setStream (cm.messages m).metadata.streamId { st with upstreamConn := some c }).activeStreamMap

theorem onPoolReady_connected {u : Unit} {c : ConnId} {host : String}
    (hnd : (cm.activeMessageList ++ cm.deferred).Nodup)
    (ht : (cm.messages m).metadata.messageType = .streamInit) (h : onPoolReady cfg cm m c host = (.ok u, cm'))
    (hc : cm'.crashed = false) : Connected cm m cm' := by
  cases hur : (cm.messages m).upstreamRequest with
  | none => simp [onPoolReady, hur] at h
  | some ur =>
    have htouch := (attach_touches (B := False) cm m ur c host).trans (encodeData_touches cfg _ m c)
    have hmap := (encodeData_streams cfg (attach cm m ur c host) m c).trans (attach_streams cm m ur c host)
    rw [onPoolReady_eq cfg rfl hur] at h
    rcases hr : encodeData cfg (attach cm m ur c host) m c with ⟨e | v, cm₂⟩
    · rw [hr] at h
      cases h
    · rw [hr] at h htouch hmap
      have ht₂ : (cm₂.messages m).metadata.messageType = .streamInit := (htouch.messageType m).trans ht
      have hdel : Touches {m} False cm (cm₂.deferredDeleteMessage m) :=
        htouch.trans (Settles.deferredDeleteMessage cm₂ m).touches
      have hgone := deferredDeleteMessage_gone (htouch.perm.nodup_iff.2 hnd) m
      have hmap₂ := (deferredDeleteMessage_streams cm₂ m).trans hmap
      simp only [ht₂, if_true, setUpstreamConnection, hdel.streamId m] at h
      generalize cm₂.deferredDeleteMessage m = cm₃ at h hgone hmap₂
      have hlookup : cm₃.getActiveStream (cm.messages m).metadata.streamId =
        cm.getActiveStream (cm.messages m).metadata.streamId :=
        congrArg _ hmap₂
      rw [hlookup] at h
      cases hst : cm.getActiveStream (cm.messages m).metadata.streamId with
      | none =>
        rw [hst] at h
        obtain rfl := (Prod.mk.inj h).2
        cases hc
      | some st =>
        rw [hst] at h
        obtain rfl := (Prod.mk.inj h).2
        refine ⟨hgone, st, c, hst, ?_⟩
        show (_, _) :: cm₃.activeStreamMap.filter _ = _
        rw [hmap₂]
        rfl

inductive Admission (cm : ConnectionManager σ α) (m : MsgId) :
    Except Failure FilterStatus × ConnectionManager σ α → Prop
  | paused {cm₁} (hlist : cm₁.activeMessageList = cm.activeMessageList) (hstreams :
      cm₁.activeStreamMap = cm.activeStreamMap)
      (hsent : (cm₁.messages m).localResponseSent = false) : Admission cm m (.ok .pauseIteration, cm₁)
  | connected {cm₁} (h : cm₁.crashed = false → Connected cm m cm₁) :
      Admission cm m (.ok .continueIteration, cm₁)
  | threw {e cm₁} : Admission cm m (.error e, cm₁)

theorem Admission.of_modify {f : ActiveMessage σ α → ActiveMessage σ α}
    {r : Except Failure FilterStatus × ConnectionManager σ α}
    (h : Admission (cm.modify m f) m r) (hid : ∀ a, (f a).metadata.streamId = a.metadata.streamId) :
    Admission cm m r := by
  cases h with
  | paused hlist hstreams hsent => exact .paused hlist hstreams hsent
  | connected h =>
    refine .connected fun hc => ?_
    obtain ⟨hgone, st, c, hst, hmap⟩ := h hc
    rw [cm.messages_modify_self, hid] at hst hmap
    exact ⟨hgone, st, c, hst, hmap⟩
  | threw => exact .threw

theorem startRequest_admission (hnd : (cm.activeMessageList ++ cm.deferred).Nodup)
    (ht : (cm.messages m).metadata.messageType = .streamInit)
    (hsent : (cm.messages m).localResponseSent = false) (host : String)
    {pool : PoolAnswer} (hpool : ∀ reason, pool ≠ .failure reason) :
    Admission cm m (startRequest cfg cm m host pool) := by
  unfold startRequest
  cases pool with
  | pending =>
    refine .paused rfl rfl ?_
    simp only [ConnectionManager.modifyRequest, cm.messages_modify_self, hsent]
  | failure reason => exact absurd rfl (hpool reason)
  | ready c =>
    dsimp only
    rcases hr : onPoolReady cfg cm m c host with ⟨e | u, cm'⟩
    · exact .threw
    · exact .connected (onPoolReady_connected hnd ht hr)

theorem decoderFilterLoop_admission (hmux : cfg.multiplexing = false)
    (hnd : (cm.activeMessageList ++ cm.deferred).Nodup)
    (ht : (cm.messages m).metadata.messageType = .streamInit)
    (hsent : (cm.messages m).localResponseSent = false) {env : RouterEnv}
    {filters : List DecoderVerdict} (hacc : Accepted env filters) :
    Admission cm m (decoderFilterLoop cfg cm m env filters) := by
  induction filters generalizing cm with
  | nil =>
    obtain ⟨⟨entry, host, hroute, hhost⟩, hpool⟩ := hacc
    have h : Admission cm m (routerDecoded cfg cm m env) := by
      simp only [routerDecoded, hroute, hmux, hhost, Bool.false_eq_true, if_false]
      refine .of_modify
        (f := fun a => { a with mutation := a.mutation.set entry.requestMutation }) ?_ fun _ => rfl
      have hstart := @startRequest_admission _ _ cfg (newUpstreamRequest
        (cm.modify m fun a => { a with mutation := a.mutation.set entry.requestMutation }) m none) m hnd
      simp only [newUpstreamRequest, ConnectionManager.messages_modify_self] at hstart
      exact .of_modify (hstart ht hsent host hpool) fun _ => rfl
    rw [decoderFilterLoop]
    generalize routerDecoded cfg cm m env = r at h ⊢
    cases h with
    | paused hlist hstreams hsent' =>
      simp only [hsent', Bool.false_eq_true, if_false]
      exact .paused hlist hstreams hsent'
    | connected h =>
      simp only [ite_self]
      exact .connected h
    | threw => exact .threw
  | cons v vs ih =>
    obtain ⟨hreply, hstatus⟩ := hacc
    have hsent₁ :
        ((cm.modify m fun a => { a with mutation := a.mutation.set v.mutation }).messages
            m).localResponseSent = false := by
      rwa [cm.messages_modify_self]
    refine .of_modify (f := fun a => { a with mutation := a.mutation.set v.mutation }) ?_ fun _ => rfl
    simp only [decoderFilterLoop, hreply, hsent₁, Bool.false_eq_true, if_false]
    rcases hstatus with hp | ⟨hcont, hacc⟩
    · simp only [hp, reduceCtorEq, if_false]
      exact .paused rfl rfl hsent₁
    · simp only [hcont, if_true]
      exact ih hnd (by rwa [cm.messages_modify_self]) hsent₁ hacc

/-! ## Exceptions -/

theorem onPoolReady_threw {a : ActiveMessage σ α} {ur : UpstreamRequest} {c : ConnId}
    {host : String} {e : Failure}
    (ha : cm.messages m = a) (hur : a.upstreamRequest = some ur)
    (h : onPoolReady cfg cm m c host = (.error e, cm')) :
    cfg.codec.encode (a.attached ur c host).metadata a.mutation ur.buffer = .error e := by
  have hatt := attach_effect ha hur c host
  rw [onPoolReady_eq cfg ha hur] at h
  simp only [encodeData, hatt.self, ActiveMessage.attached_upstreamRequest,
    ActiveMessage.attached_mutation] at h
  cases hb : cfg.codec.encode (a.attached ur c host).metadata a.mutation ur.buffer with
  | error e' =>
    rw [hb] at h
    rw [Except.error.inj (Prod.mk.inj h).1]
  | ok bytes =>
    rw [hb] at h
    cases h

/-- An exception of the router is one of the codec, when it encodes the original message. -/
theorem routerDecoded_threw (hmux : cfg.multiplexing = false) {env : RouterEnv} {e : Failure}
    (h : routerDecoded cfg cm m env = (.error e, cm')) :
    ∃ md mutation, md.messageType = (cm.messages m).metadata.messageType ∧
      cfg.codec.encode md mutation (cm.messages m).metadata.originMessage = .error e := by
  unfold routerDecoded at h
  split at h
  · cases h
  next entry _ =>
    simp only [hmux, Bool.false_eq_true, if_false] at h
    split at h
    · cases h
    next host _ =>
      have he : Effect cm m _ [] (cm.modify m fun a =>
        { a with mutation := a.mutation.set entry.requestMutation }) :=
        Effect.modify rfl rfl
      have he₁ := he.trans_nil (newUpstreamRequest_effect he.self)
      unfold startRequest at h
      split at h
      · cases h
      · cases h
      · split at h
        next hready =>
          obtain rfl := Except.error.inj (Prod.mk.inj h).1
          refine ⟨_, _, ?_, onPoolReady_threw he₁.self rfl hready⟩
          rfl
        · cases h

theorem applyDecoderFilters_threw (hmux : cfg.multiplexing = false) {env : RouterEnv}
    {filters : List DecoderVerdict} {e : Failure}
    (h : (applyDecoderFilters cfg cm m filters env).1 = .error e) :
    ∃ md mutation, md.messageType = (cm.messages m).metadata.messageType ∧
      cfg.codec.encode md mutation (cm.messages m).metadata.originMessage = .error e := by
  -- a filter leaves the metadata as they are, with a local reply or without
  refine applyDecoderFilters_preserves cfg
    (P := fun cm₁ => (cm₁.messages m).metadata = (cm.messages m).metadata)
    (Q := fun r => r.1 = .error e → ∃ md mutation, md.messageType = (cm.messages m).metadata.messageType ∧
      cfg.codec.encode md mutation (cm.messages m).metadata.originMessage = .error e)
    (fun v _ cm₁ h₁ => ?_) (fun error cm₁ h₁ => ?_) nofun (fun cm₁ h₁ hthrew => ?_) nofun rfl h
  · rwa [cm₁.messages_modify_self]
  · have hreply : Settles False True m cm₁ (sendLocalReply cfg cm₁ m error) := sendLocalReply_settles ..
    exact hreply.record.metadata.trans h₁
  · rw [← h₁]
    exact routerDecoded_threw hmux (Prod.ext hthrew rfl)

/-! ## New messages -/

namespace Tidy

theorem enlist (hT : Tidy cfg cm) (hl : Listed cm) {md : Metadata α} (encoders : List EncoderVerdict)
    (hmd : md.messageType = .streamInit → cfg.multiplexing = false) :
    Tidy cfg (enlisted cfg cm md encoders) where
  entries e he := by
    obtain ⟨hwaits, hopen⟩ := hT.entries e he
    refine ⟨fun hc => ?_, hopen⟩
    obtain ⟨m, hm, hinit⟩ := hwaits hc
    have hne : m ≠ cm.nextMessage := Nat.ne_of_lt (hl.known (List.mem_append_left _ hm))
    refine ⟨m, List.mem_cons_of_mem _ hm, ?_⟩
    rwa [enlisted_other cfg cm md encoders hne]
  inits m hm ht := by
    rcases List.mem_cons.1 hm with rfl | hm
    · rw [enlisted_self] at ht ⊢
      exact ⟨hmd ht, rfl⟩
    · have hne : m ≠ cm.nextMessage := Nat.ne_of_lt (hl.known (List.mem_append_left _ hm))
      rw [enlisted_other cfg cm md encoders hne] at ht ⊢
      exact hT.inits m hm ht

theorem setStream (hT : Tidy cfg cm) (hst : st.upstreamConn = none → Waits cm k)
    (hopen : st.serverClosed = false) : Tidy cfg (cm.setStream k st) where
  entries e he := by
    rcases mem_setStream he with rfl | ⟨he, -⟩
    · exact ⟨hst, hopen⟩
    · exact hT.entries e he
  inits := hT.inits

theorem emit (hT : Tidy cfg cm) (o : Out α) : Tidy cfg (cm.emit o) := ⟨hT.entries, hT.inits⟩

theorem modify (hT : Tidy cfg cm) (m : MsgId) {f : ActiveMessage σ α → ActiveMessage σ α}
    (htype : ∀ a, (f a).metadata.messageType = a.metadata.messageType)
    (hid : ∀ a, (f a).metadata.streamId = a.metadata.streamId)
    (hsent : ∀ a, (f a).localResponseSent = a.localResponseSent) : Tidy cfg (cm.modify m f) := by
  have h : Touches {m} False cm (cm.modify m f) := .modify cm m htype hid fun a ha => (hsent a).trans ha
  refine hT.of_touches h (List.Subset.refl _) fun i hi hm ht => ⟨hm, ?_⟩
  obtain rfl : i = m := hi
  rw [cm.messages_modify_self, hsent]
  exact (hT.inits i hm ht).2

theorem admitting (hT : Tidy cfg cm) (hl : Listed cm) {md : Metadata α} (encoders : List EncoderVerdict)
    (hmd : md.messageType = .streamInit → cfg.multiplexing = false) :
    Tidy cfg (admitted cfg cm md encoders) := by
  have h := hT.enlist hl encoders hmd
  unfold admitted
  split
  next ht =>
    have hw : Waits (enlisted cfg cm md encoders) md.streamId := by
      refine ⟨cm.nextMessage, List.mem_cons_self, ?_⟩
      rw [enlisted_self]
      exact ⟨ht, rfl⟩
    simp only [newActiveStream, releaseStream]
    split
    · exact h.setStream (fun _ => hw) rfl
    · split
      · exact h.setStream (fun _ => hw) rfl
      · exact (h.emit _).setStream (fun _ => hw) rfl
  · exact h

theorem forward (hT : Tidy cfg cm) (m : MsgId) (closesClient : Bool) {closesServer : Bool}
    (hclose : closesServer = true → cm.getActiveStream (cm.messages m).metadata.streamId = none) :
    Tidy cfg (forwardToStream cm m closesClient closesServer) := by
  simp only [forwardToStream]
  split
  · exact hT
  next st hst =>
    obtain ⟨hwaits, hopen⟩ := hT.entries _ (mem_of_lookup hst)
    have hserver : closesServer = false := Bool.eq_false_iff.2 fun h => by simp [hclose h] at hst
    have h : Tidy cfg (cm.setStream (cm.messages m).metadata.streamId { st with
        clientClosed := st.clientClosed || closesClient
        serverClosed := st.serverClosed || closesServer }) :=
          hT.setStream hwaits (by simpa [hserver] using hopen)
    split
    · exact h
    · exact (h.emit _).modify m (fun _ => rfl) (fun _ => rfl) fun _ => rfl

/-- The filters have run on an accepted init message, which is deleted now if it does not wait. -/
theorem of_admission (hT : Tidy cfg cm) {status : FilterStatus} (h : Touches {m} B cm cm')
    (hadm : Admission cm m (.ok status, cm')) (hc : cm'.crashed = false) :
    Tidy cfg cm' ∧ (status = .pauseIteration ∨ status = .continueIteration ∧ m ∉ cm'.activeMessageList) := by
  cases hadm with
  | paused hlist hstreams hsent =>
    refine ⟨hT.of_touches h (by rw [hstreams]; exact List.Subset.refl _) fun i hi hm _ => ?_, .inl rfl⟩
    obtain rfl : i = m := hi
    exact ⟨hlist ▸ hm, hsent⟩
  | connected hcon =>
    obtain ⟨hgone, st, c, hst, hstreams⟩ := hcon hc
    exact ⟨hT.connect h hgone hst hstreams, .inr ⟨rfl, hgone⟩⟩

theorem of_gone (hT : Tidy cfg cm) (h : Touches {m} B cm cm')
    (hstreams : cm'.activeStreamMap = cm.activeStreamMap)
    (hgone : m ∉ cm.activeMessageList) : Tidy cfg cm' := by
  refine hT.of_others h (by rw [hstreams]; exact List.Subset.refl _) fun i hi hm => ?_
  obtain rfl : i = m := hi
  exact absurd hm hgone

/-- The connection is closed after an exception; `dispatch` catches none if a stream waits. -/
theorem dispatchFail (hT : Tidy cfg cm) {e : Failure} (hall : e.isEnvoyException = true → AllAttached cm)
    (hc : (dispatchFailed cm e).crashed = false) : Tidy cfg (dispatchFailed cm e) := by
  unfold dispatchFailed at hc ⊢
  split at hc
  next he =>
    rw [if_pos he]
    exact hT.of_reset (hall he) rfl (List.Subset.refl _)
  · cases hc

end Tidy

section Decoded

variable {md : Metadata α} {encoders : List EncoderVerdict} {filters : List DecoderVerdict} {env : RouterEnv}

theorem admitted_self : (admitted cfg cm md encoders).messages cm.nextMessage =
    { metadata := md.putString applicationProtocol cfg.applicationProtocol, encoderFilters := encoders } := by
  rw [← enlisted_self]
  unfold admitted newActiveStream releaseStream
  split
  · split
    · rfl
    · split <;> rfl
  · rfl

theorem applyDecoderFilters_admitted :
    applyDecoderFilters cfg (admitted cfg cm md encoders) cm.nextMessage filters env =
    decoderFilterLoop cfg (admitted cfg cm md encoders) cm.nextMessage env filters := by
  rw [applyDecoderFilters, if_neg (by simp [admitted_self])]

theorem Config.CanEncode.not_caught (henc : cfg.CanEncode md) (hmux : cfg.multiplexing = false) {e : Failure}
    (h : applyDecoderFilters cfg (admitted cfg cm md encoders) cm.nextMessage filters env = (.error e, cm')) :
    e.isEnvoyException = false := by
  obtain ⟨md', mutation, ht, hthrew⟩ := applyDecoderFilters_threw hmux (congrArg Prod.fst h)
  rw [admitted_self] at ht hthrew
  exact henc md' mutation e ht hthrew

theorem Tidy.newRequest (hT : Tidy cfg cm) (hl : Listed cm) (ht : md.messageType = .request)
    (hall : AllAttached cm ∨ cfg.CanEncode md)
    (hc : (step cfg cm (.decoded md encoders filters env)).crashed = false) :
    Tidy cfg (step cfg cm (.decoded md encoders filters env)) := by
  have htouch := filtered_touches cfg cm md encoders filters env
  have hstreams := htouch.streams.resolve_left (by simp [ht, MessageType.isStream])
  have hself : ((enlisted cfg cm md encoders).messages cm.nextMessage).metadata.messageType ≠
      .streamInit := by
    rw [enlisted_self]
    show md.messageType ≠ _
    simp [ht]
  have hT₁ := (hT.enlist hl encoders (by simp [ht])).of_others htouch hstreams fun i hi _ => by
    rwa [show i = cm.nextMessage from hi]
  rw [step_decoded_filtered cfg cm md encoders filters env (by rw [ht]; rfl)] at hc ⊢
  rcases hr : applyDecoderFilters cfg (admitted cfg cm md encoders) cm.nextMessage filters
    env with ⟨e | status, cm₂⟩
  · rw [hr] at hT₁ hstreams hc
    refine hT₁.dispatchFail (fun he => ?_) hc
    -- a stream that waits excludes multiplexing, and then the exception is the codec's
    cases hmux : cfg.multiplexing with
    | true => exact fun s hs => hT.allAttached hmux s (hstreams hs)
    | false =>
      rcases hall with hall | henc
      · exact fun s hs => hall s (hstreams hs)
      · simp [henc.not_caught hmux hr] at he
  · rw [hr] at hT₁ htouch
    have hafter := afterDecoderFilters_touches (B := False) cm₂ cm.nextMessage status
    refine hT₁.of_others hafter (hafter.streams.resolve_left id) fun i hi _ => ?_
    rwa [show i = cm.nextMessage from hi, htouch.messageType]

theorem Tidy.newInit (hT : Tidy cfg cm) (hl : Listed cm) (ht : md.messageType = .streamInit)
    (hmux : cfg.multiplexing = false) (hacc : Accepted env filters) (henc : cfg.CanEncode md)
    (hc : (step cfg cm (.decoded md encoders filters env)).crashed = false) :
    Tidy cfg (step cfg cm (.decoded md encoders filters env)) := by
  have hT₁ : Tidy cfg (admitted cfg cm md encoders) := hT.admitting hl encoders fun _ => hmux
  have hnd := ((hl.enlisted cfg md encoders).of_touches (admitted_touches cfg cm md encoders)).nodup
  have hadm : Admission _ _ (decoderFilterLoop cfg _ _ env filters) :=
    decoderFilterLoop_admission hmux hnd (by rw [admitted_self]; exact ht) (by rw [admitted_self]) hacc
  have htouch :=
    applyDecoderFilters_touches cfg (admitted cfg cm md encoders) cm.nextMessage filters env fun _ => trivial
  rw [← applyDecoderFilters_admitted] at hadm
  rw [step_decoded_filtered cfg cm md encoders filters env (by rw [ht]; rfl)] at hc ⊢
  rcases hr : applyDecoderFilters cfg (admitted cfg cm md encoders) cm.nextMessage filters
    env with ⟨e | status, cm₂⟩
  · rw [hr] at hc
    simp [afterNew, dispatchFailed, henc.not_caught hmux hr, ConnectionManager.crash] at hc
  · rw [hr] at hc hadm htouch
    have hafter := afterDecoderFilters_touches (B := False) cm₂ cm.nextMessage status
    obtain ⟨hT₂, hstatus⟩ := hT₁.of_admission htouch hadm (hafter.alive hc)
    rcases hstatus with rfl | ⟨rfl, hgone⟩
    · simp only [afterNew, afterDecoderFilters]
      exact hT₂.modify _ (fun _ => rfl) (fun _ => rfl) fun _ => rfl
    · exact hT₂.of_gone hafter (maybeDeferredDeleteMessage_streams ..) hgone

theorem Tidy.newPassed (hT : Tidy cfg cm) (hl : Listed cm) (ht : md.messageType.isFiltered = false)
    (hclose : md.messageType = .streamCloseTwoWay → cm.getActiveStream md.streamId = none) :
    Tidy cfg (step cfg cm (.decoded md encoders filters env)) := by
  have hne : md.messageType ≠ .streamInit := fun h => by simp [h, MessageType.isFiltered] at ht
  have hT₁ := hT.enlist hl encoders fun h => absurd h hne
  have hid : ((enlisted cfg cm md encoders).messages cm.nextMessage).metadata.streamId = md.streamId := by
    rw [enlisted_self]
    rfl
  have hT₂ : Tidy cfg (passed cfg cm md encoders) := by
    unfold passed
    split
    · exact hT₁.forward _ false (by simp)
    · exact hT₁.forward _ true (by simp)
    next h => exact hT₁.forward _ true fun _ => by rw [hid]; exact hclose h
    · exact hT₁
  have htouch := passed_touches cfg cm md encoders
  have hdel := (maybeDeferredDeleteMessage_settles (passed cfg cm md encoders)
    cm.nextMessage).touches (B := False)
  rw [step_decoded_passed cfg cm md encoders filters env ht]
  refine hT₂.of_others hdel (hdel.streams.resolve_left id) fun i hi _ => ?_
  rw [show i = cm.nextMessage from hi, htouch.messageType, enlisted_self]
  exact hne

theorem Tidy.newMessage (hT : Tidy cfg cm) (hl : Listed cm)
    (hord : Orderly cfg cm (.manager (.decoded md encoders filters env)))
    (hc : (step cfg cm (.decoded md encoders filters env)).crashed = false) :
    Tidy cfg (step cfg cm (.decoded md encoders filters env)) := by
  simp only [Orderly] at hord
  cases ht : md.messageType with
  | request =>
    rw [ht] at hord
    exact hT.newRequest hl ht hord hc
  | streamInit =>
    rw [ht] at hord
    exact hT.newInit hl ht hord.1 hord.2.1 hord.2.2 hc
  | streamCloseTwoWay =>
    rw [ht] at hord
    exact hT.newPassed hl (by rw [ht]; rfl) fun _ => hord
  | _ => exact hT.newPassed hl (by rw [ht]; rfl) (by simp [ht])

end Decoded

/-! ## The other events -/

theorem Tidy.poolReady (hT : Tidy cfg cm) (hl : Listed cm)
    (ht : (cm.messages m).metadata.messageType = .streamInit) {c : ConnId}
    {host : String} (hc : (step cfg cm (.poolReady m c host)).crashed = false) :
    Tidy cfg (step cfg cm (.poolReady m c host)) := by
  have htouch := (onPoolReady_touches cfg cm m c host fun _ => trivial).1
  simp only [step] at hc ⊢
  rcases hr : onPoolReady cfg cm m c host with ⟨e | u, cm₁⟩
  · rw [hr] at hc
    cases hc
  · rw [hr] at hc htouch
    obtain ⟨hgone, st, c', hst, hstreams⟩ := onPoolReady_connected hl.nodup ht hr hc
    exact hT.connect htouch hgone hst hstreams

theorem Tidy.resumed (hT : Tidy cfg cm) (hl : Listed cm)
    (ht : (cm.messages m).metadata.messageType = .streamInit)
    {filters : List DecoderVerdict} {env : RouterEnv} (hmux : cfg.multiplexing = false)
    (hacc : Accepted env filters)
    (hc : (step cfg cm (.continueDecoding m filters env)).crashed = false) :
    Tidy cfg (step cfg cm (.continueDecoding m filters env)) := by
  have htouch := applyDecoderFilters_touches cfg cm m filters env fun _ => trivial
  simp only [step, resumeFilters] at hc ⊢
  cases hsent : (cm.messages m).localResponseSent with
  | true =>
    -- such a message is not on the list any more
    have hgone : m ∉ cm.activeMessageList := fun hm => by simp [(hT.inits m hm ht).2] at hsent
    rw [applyDecoderFilters, if_pos hsent]
    exact hT.of_gone ((continueDecoding_settles cm m).touches (B := False))
      (continueDecoding_streams cm m) hgone
  | false =>
    have hadm : Admission cm m (decoderFilterLoop cfg cm m env filters) :=
      decoderFilterLoop_admission hmux hl.nodup ht hsent hacc
    rw [applyDecoderFilters, if_neg (by simp [hsent])] at hc htouch ⊢
    rcases hr : decoderFilterLoop cfg cm m env filters with ⟨e | status, cm₁⟩
    · rw [hr] at hc
      cases hc
    · rw [hr] at hc hadm htouch
      have hcont := (continueDecoding_settles cm₁ m).touches (B := False)
      have hc₁ : cm₁.crashed = false := by
        dsimp only at hc
        split at hc
        · exact hcont.alive hc
        · exact hc
      obtain ⟨hT₁, rfl | ⟨rfl, hgone⟩⟩ := hT.of_admission htouch hadm hc₁
      · exact hT₁
      · exact hT₁.of_gone hcont (continueDecoding_streams cm₁ m) hgone

theorem Tidy.service (hT : Tidy cfg cm) {e : Event α} (he : e.IsService) (hconn : ¬ e.Connects cm)
    (hS : ∀ i ∈ e.served cm, i ∈ cm.activeMessageList → (cm.messages i).metadata.messageType ≠ .streamInit) :
    Tidy cfg (step cfg cm e) := by
  have h := step_touches cfg cm he
  exact hT.of_others h (h.streams.resolve_left hconn) hS

/-- A handler's event with init messages on the list: they have nothing to do with handlers. -/
theorem Tidy.handler (hT : Tidy cfg cm) (hwf : cfg.multiplexing = false → Wf cm) {e : Event α}
    (he : e.IsService)
    (hconn : ¬ e.Connects cm) {h : HandlerId} (hen : cm.handlers h ≠ {}) : Tidy cfg (step cfg cm e) := by
  refine hT.service he hconn fun i _ hm ht => ?_
  exact hen ((hwf (hT.inits i hm ht).1).handlers h)

theorem step_tidy (hT : Tidy cfg cm) (hl : Listed cm) (hwf : cfg.multiplexing = false → Wf cm)
    {e : Event α} (hen : Enabled cm e)
    (hord : Orderly cfg cm (.manager e)) (hc : (step cfg cm e).crashed = false) :
    Tidy cfg (step cfg cm e) := by
  obtain ⟨-, hen⟩ := hen
  cases e with
  | decoded md encoders filters env => exact hT.newMessage hl hord hc
  | continueDecoding m filters env =>
    by_cases ht : (cm.messages m).metadata.messageType = .streamInit
    · exact hT.resumed hl ht (hord ht).1 (hord ht).2 hc
    · exact hT.service trivial ht fun i hi _ => (show i = m from hi) ▸ ht
  | poolReady m c host =>
    by_cases ht : (cm.messages m).metadata.messageType = .streamInit
    · exact hT.poolReady hl ht hc
    · exact hT.service trivial ht fun i hi _ => (show i = m from hi) ▸ ht
  | poolFailure m reason host => exact hT.service trivial id fun i hi _ => (show i = m from hi) ▸ hord
  | upstreamData m data endStream =>
    exact hT.service trivial id fun i hi _ => by simp [show i = m from hi, hen.1]
  | upstreamEvent m event => exact hT.service trivial id fun i hi _ => by simp [show i = m from hi, hen.1]
  | handlerPoolReady h c host => exact hT.handler hwf trivial id (h := h) fun heq => by simp [heq] at hen
  | handlerPoolFailure h reason host =>
    exact hT.handler hwf trivial id (h := h) fun heq => by simp [heq] at hen
  | handlerData h data garbage => exact hT.handler hwf trivial id (h := h) fun heq => by simp [heq] at hen
  | handlerEvent h event => exact hT.handler hwf trivial id (h := h) fun heq => by simp [heq] at hen
  | downstreamEvent event => exact hT.of_reset hord rfl (List.Subset.refl _)
  | downstreamEnd =>
    have hlist := (clearStream_touches (S := ∅) (B := False) cm.resetAllMessages).active
    exact ⟨fun e he => absurd he List.not_mem_nil, fun i hi => absurd (hlist hi) List.not_mem_nil⟩
  | idleTimeout => exact ⟨fun e he => absurd he List.not_mem_nil, fun i hi => absurd hi List.not_mem_nil⟩
  | destroy m =>
    have h := onDestroy_touches (B := False) cfg cm m
    have hT₁ := hT.of_others h (h.streams.resolve_left id) fun i hi hm => by
      obtain rfl : i = m := hi
      exact absurd rfl ((List.nodup_append.1 hl.nodup).2.2 i hm i hen)
    exact ⟨hT₁.entries, hT₁.inits⟩

/-! ## The events of the streams, and runs -/

theorem streamUpstreamData_frame (cfg : Config σ α) (cm : ConnectionManager σ α)
    (streamId fuel : Nat) (codec : σ) (data : Bytes)
    (endStream : Bool) :
      ∃ streams out crashed, (streamUpstreamData cfg cm streamId fuel codec data endStream).1 =
      { cm with activeStreamMap := streams, out := out, crashed := crashed } := by
  unfold streamUpstreamData
  split
  · exact ⟨_, _, _, rfl⟩
  · split
    · exact ⟨_, _, _, rfl⟩
    · split
      · exact ⟨_, _, _, rfl⟩
      · unfold releaseStream
        split <;> exact ⟨_, _, _, rfl⟩
      · exact ⟨_, _, _, rfl⟩
      · exact ⟨_, _, _, rfl⟩

theorem Tidy.upstreamData (hT : Tidy cfg cm) {streamId fuel : Nat} {codec : σ} {data : Bytes}
    {endStream : Bool}
    (hc : (streamUpstreamData cfg cm streamId fuel codec data endStream).1.crashed = false) :
    Tidy cfg (streamUpstreamData cfg cm streamId fuel codec data endStream).1 := by
  unfold streamUpstreamData at hc ⊢
  split
  · exact hT
  next st hst =>
    obtain ⟨hwaits, hopen⟩ := hT.entries _ (mem_of_lookup hst)
    split
    · exact hT
    next r hsent =>
      have hclose : ∀ cm₁, Tidy cfg cm₁ → Tidy cfg (cm₁.closeStream streamId) :=
        fun cm₁ h₁ => ⟨fun e he => h₁.entries e (List.mem_of_mem_filter he), h₁.inits⟩
      split
      next hhow =>
        rw [Stream.send2downstream_returned hsent hhow]
        exact hT.setStream hwaits hopen
      · unfold releaseStream
        split
        · exact hclose _ hT
        · exact hclose _ (hT.emit _)
      next hhow => simp [hst, hsent, hhow, ConnectionManager.crash] at hc
      next hhow => simp [hst, hsent, hhow, ConnectionManager.crash] at hc

structure StreamsSound (cfg : Config σ α) (cm : ConnectionManager σ α) : Prop where
  tidy : Tidy cfg cm
  listed : Listed cm
  direct : cfg.multiplexing = false → Wf cm

theorem streamStep_sound (hs : cm.crashed = false → StreamsSound cfg cm) {e : StreamEvent σ α}
    (hen : StreamEnabled cfg cm e)
    (hord : Orderly cfg cm e) : (streamStep cfg cm e).crashed = false →
      StreamsSound cfg (streamStep cfg cm e) := by
  intro hc
  cases e with
  | manager e =>
    obtain ⟨hT, hl, hwf⟩ := hs hen.1
    refine ⟨step_tidy hT hl hwf hen hord hc, step_listed cfg hl e, fun hmux => ?_⟩
    exact ((step_stepped hmux (hwf hmux) hen).wf (hwf hmux)).resolve_left (by simpa [streamStep] using hc)
  | upstreamData streamId fuel codec data endStream =>
    obtain ⟨hT, hl, hwf⟩ := hs hen.1
    refine ⟨hT.upstreamData hc, ?_, fun hmux => ?_⟩
    · obtain ⟨streams, out, crashed, heq⟩ :=
        streamUpstreamData_frame cfg cm streamId fuel codec data endStream
      rw [streamStep, heq]
      exact ⟨hl.nodup, hl.known⟩
    · obtain ⟨streams, out, crashed, heq⟩ :=
        streamUpstreamData_frame cfg cm streamId fuel codec data endStream
      rw [streamStep, heq]
      exact ⟨(hwf hmux).msg, (hwf hmux).fresh, (hwf hmux).handlers⟩
  | upstreamEvent streamId event => exact hs hen.1

theorem streamsSound_init : StreamsSound cfg ({} : ConnectionManager σ α) :=
  ⟨tidy_init, listed_init, fun _ => ⟨fun _ => .of_request_none (fun h => by cases h) rfl,
    fun _ _ => rfl, fun _ => rfl⟩⟩

/-- In every state of an orderly run, every entry of `active_stream_map_` waits for the connection
of an init message that is on the list, or has a connection and is not closed on both sides. -/
theorem stream_table_kept (cfg : Config σ α) (es : List (StreamEvent σ α))
    (hrun : Runs.Guarded (streamStep cfg) (fun cm e => StreamEnabled cfg cm e ∧ Orderly cfg cm e) {}
      es) (n : Nat)
    (hc : (Runs.run (streamStep cfg) {} (es.take n)).crashed = false) :
    StreamTable (Runs.run (streamStep cfg) {} (es.take n)) := by
  have hsound := hrun.invariant_take (I := fun cm => cm.crashed = false → StreamsSound cfg cm)
    (fun cm e hs hg => streamStep_sound hs hg.1 hg.2) (fun _ => streamsSound_init) n
  exact (hsound hc).tidy.table

section Concrete

open Trpc

/-- A frame by which the server closes stream 1. -/
def serverClose : Bytes := [0x09, 0x30, 1, 4, 0, 0, 0, 16, 0, 0, 0, 0, 0, 1, 0, 0]

/-- A stream from its init message to the server's close. -/
def streamExchange : List (StreamEvent TrpcCodec Unit) :=
  [.manager (streamInit .pending).event, .manager (.poolReady 0 3 "h"), .manager streamData.event,
    .upstreamData 1 2 trpcConfig.codec.init serverClose false]

theorem trpcConfig_canEncode {md : Metadata Unit} (ht : md.messageType = .streamInit) :
    trpcConfig.CanEncode md := by
  intro md' mutation e ht' hthrew
  have hkeep : trpcConfig.codec.encode md' mutation md.originMessage = .ok md.originMessage :=
    trpcCodec_keepsInit Unit wireProtobuf md' mutation md.originMessage (ht'.trans ht)
  rw [hkeep] at hthrew
  cases hthrew

/-- The table holds while the stream has its connection, and is empty after the server's close. -/
theorem stream_table_kept_exchange :
    (Runs.run (streamStep trpcConfig) {} (streamExchange.take 3)).activeStreamMap =
      [(1, { upstreamConn := some 3 })] ∧
      StreamTable (Runs.run (streamStep trpcConfig) {} (streamExchange.take 3)) ∧
      (Runs.run (streamStep trpcConfig) {} streamExchange).activeStreamMap = [] := by
  have hmap : (Runs.run (streamStep trpcConfig) {} (streamExchange.take 3)).activeStreamMap =
    [(1, { upstreamConn := some 3 })] := rfl
  refine ⟨hmap, stream_table_kept trpcConfig streamExchange ?_ 3 rfl, by decide⟩
  refine ⟨⟨⟨rfl, trivial⟩, rfl, ⟨⟨{ clusterName := "c" }, "h", rfl, rfl⟩, by simp [streamInit]⟩,
    trpcConfig_canEncode rfl⟩,
    ⟨⟨rfl, _, rfl, rfl⟩, trivial⟩, ⟨⟨rfl, trivial⟩, trivial⟩,
      ⟨⟨rfl, { upstreamConn := some 3 }, rfl, rfl, by decide⟩, trivial⟩, trivial⟩

/-- An init message without a route. -/
def unroutedInit : StreamEvent TrpcCodec Unit :=
  .manager (.decoded { messageType := .streamInit, streamId := 1 } [] [] {})

/-- The router turns the init message away. The message is deleted, and the entry of its stream
stays, without a connection. -/
theorem rejected_stream_stays :
    Runs.Guarded (streamStep trpcConfig) (StreamEnabled trpcConfig) {} [unroutedInit] ∧
      (Runs.run (streamStep trpcConfig) {} [unroutedInit]).crashed = false ∧
      (Runs.run (streamStep trpcConfig) {} [unroutedInit]).activeStreamMap = [(1, {})] ∧
      (Runs.run (streamStep trpcConfig) {} [unroutedInit]).activeMessageList = [] ∧
      ¬ StreamTable (Runs.run (streamStep trpcConfig) {} [unroutedInit]) := by
  have hmap : (Runs.run (streamStep trpcConfig) {} [unroutedInit]).activeStreamMap = [(1, {})] := rfl
  have hlist : (Runs.run (streamStep trpcConfig) {} [unroutedInit]).activeMessageList = [] := rfl
  refine ⟨⟨⟨rfl, trivial⟩, trivial⟩, rfl, hmap, hlist, fun h => ?_⟩
  rcases h (1, {}) (by rw [hmap]; exact List.mem_cons_self) with ⟨m, hm, -⟩ | ⟨hconn, -⟩
  · rw [hlist] at hm
    exact absurd hm List.not_mem_nil
  · cases hconn

end Concrete

end MetaProtocolProxy
