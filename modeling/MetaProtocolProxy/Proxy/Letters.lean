import MetaProtocolProxy.Proxy.Provenance
import MetaProtocolProxy.Tracing
/-
# Where the bytes of a message are
(active_message.cc, upstream_request.cc, upstream_handler_impl.cc)

The bytes of a message are held by the message until the router takes them, then by its upstream
request until they are written, and after that by nobody (`Phase`). A request that shares a
connection waits in the queue of its handler meanwhile, and in no other.

* `Letters` — what holds of all messages received so far, and of those not received yet.
* `Letters.recede` — functions that write nothing keep it.
* `Letters.concern`, `Letters.hold`, `Letters.write` — one message changes, and its bytes stay or
  are written.

`Mutations` says what the filters and the router can make of the mutation of a message. The router
gives an id to every request that has none (router_impl.cc:59-60, 303-314): `Mutations.identified`.
-/
namespace MetaProtocolProxy

variable {σ α : Type}

/-- The mutations of a message: those the filters and the router may make, and those the router
leaves to the request of a message whose metadata are `md`. -/
structure Mutations (α : Type) where
  allowed : Mutation → Prop
  routed (md : Metadata α) : Mutation → Prop

/-- The mutations with an id for every request that came without one. -/
def Mutations.identified (M : Mutation → Prop) : Mutations α where
  allowed := M
  routed md mutation := md.getString requestUUID = .ok "" → ∃ id, mutation.lookup requestUUID = some id

/-- The metadata of a message received as `md`: the message knows the protocol
(active_message.cc:310). -/
def Config.labelled (cfg : Config σ α) (md : Metadata α) : Metadata α :=
  md.putString MetaProtocolProxy.applicationProtocol cfg.applicationProtocol

/-- What the proxy writes into the metadata of a message on its way: the protocol, the server's
address (upstream_request.cc:142), and the id with the other tracing headers. -/
def proxyHeaders : List String := applicationProtocol :: realServerAddress :: Tracing.tracingHeaders

/-- The metadata are those of the message received as `md`, but for the proxy's headers and for the
bytes, which are taken out of them. -/
structure Metadata.OfMessage (md md' : Metadata α) : Prop where
  fields : ∃ properties bytes, md' = { md with properties := properties, originMessage := bytes }
  properties : ∀ key ∉ proxyHeaders, md'.getByKey key = md.getByKey key

/-- What may be written for a message received as `md`: its bytes, if it is one of a stream that
goes past the filters, or what the codec makes of them with the metadata of the message. -/
def Conveys (cfg : Config σ α) (M : Mutations α) (md : Metadata α) (bytes : Bytes) : Prop :=
  md.messageType.isFiltered = false ∧ bytes = md.originMessage ∨
    ∃ (md' : Metadata α) (mutation : Mutation), md.OfMessage md' ∧ M.allowed mutation ∧
      M.routed (cfg.labelled md) mutation ∧ cfg.codec.encode md' mutation md.originMessage = .ok bytes

theorem Metadata.OfMessage.messageType {md md' : Metadata α} (h : md.OfMessage md') :
    md'.messageType = md.messageType := by
  obtain ⟨properties, bytes, rfl⟩ := h.fields
  rfl

theorem Metadata.OfMessage.refl (md : Metadata α) : md.OfMessage md := ⟨⟨_, _, rfl⟩, fun _ _ => rfl⟩

theorem Metadata.OfMessage.putString {md md' : Metadata α} (h : md.OfMessage md') {k : String}
    (hk : k ∈ proxyHeaders) (v : String) : md.OfMessage (md'.putString k v) where
  fields := by
    obtain ⟨properties, bytes, rfl⟩ := h.fields
    exact ⟨_, _, rfl⟩
  properties key hkey := by
    have hne : key ≠ k := fun heq => hkey (heq ▸ hk)
    rw [Metadata.putString, getByKey_put, if_neg hne]
    exact h.properties key hkey

theorem Metadata.OfMessage.taken {md md' : Metadata α} (h : md.OfMessage md') :
    md.OfMessage { md' with originMessage := [] } where
  fields := by
    obtain ⟨properties, bytes, rfl⟩ := h.fields
    exact ⟨_, _, rfl⟩
  properties := h.properties

section Phases

variable (cfg : Config σ α) (M : Mutations α) (md : Metadata α) (q : Queues)
    (cm : ConnectionManager σ α) (m : MsgId)

structure AtMessage : Prop where
  request : (cm.messages m).upstreamRequest = none
  metadata : (cm.messages m).metadata = cfg.labelled md
  writes : writesOf cm.out m = []
  queued : ∀ h, m ∉ q h
  registered : ∀ h id, (id, m) ∉ (cm.handlers h).responseCallbacks

/-- The request `ur` has the bytes of the message. -/
structure AtRequest (ur : UpstreamRequest) : Prop where
  request : (cm.messages m).upstreamRequest = some ur
  buffer : ur.buffer = md.originMessage
  routed : M.routed (cfg.labelled md) (cm.messages m).mutation
  origin : (cm.messages m).metadata.originMessage = []
  writes : writesOf cm.out m = []
  queued : ∀ h, m ∈ q h → ur.handler = some h
  registered : ∀ h id, (id, m) ∈ (cm.handlers h).responseCallbacks → ur.handler = some h
  shared : ur.handler ≠ none → ur.conn = none ∧ ur.handle = false

structure Spent : Prop where
  request : ∀ ur, (cm.messages m).upstreamRequest = some ur → ur.handle = false
  origin : (cm.messages m).metadata.originMessage = []
  writes : (writesOf cm.out m).length ≤ 1
  queued : ∀ h, m ∉ q h

/-- Where the bytes of a message are. -/
inductive Phase : Prop
  | message (h : AtMessage cfg md q cm m)
  | request (ur : UpstreamRequest) (h : AtRequest cfg M md q cm m ur)
  | spent (h : Spent q cm m)

/-- What holds of the message `m`, received as `md`. -/
structure Letter : Prop where
  metadata : md.OfMessage (cm.messages m).metadata
  mutation : M.allowed (cm.messages m).mutation
  conveyed : ∀ bytes ∈ writesOf cm.out m, Conveys cfg M md bytes
  phase : Phase cfg M md q cm m

structure Unborn : Prop where
  request : (cm.messages m).upstreamRequest = none
  origin : (cm.messages m).metadata.originMessage = []
  writes : writesOf cm.out m = []

/-- What holds of the messages received as `ms`. -/
structure Letters (ms : List (Metadata α)) : Prop where
  count : cm.nextMessage = ms.length
  queued : ∀ h, ∀ i ∈ q h, i < ms.length
  registered : ∀ h id i, (id, i) ∈ (cm.handlers h).responseCallbacks → i < ms.length
  unborn : ∀ i, ms.length ≤ i → Unborn cm i
  letter : ∀ i md, ms[i]? = some md → Letter cfg M md q cm i

end Phases

section Letters

variable {cfg : Config σ α} {M : Mutations α} {ms : List (Metadata α)} {md : Metadata α} {q q' : Queues}
  {cm cm' : ConnectionManager σ α} {m : MsgId} {ur : UpstreamRequest}

theorem Recedes.request_eq_none (hr : Recedes q q' cm cm') (h : (cm.messages m).upstreamRequest = none) :
    (cm'.messages m).upstreamRequest = none := by
  have hfade := (hr.messages m).request
  rw [h] at hfade
  generalize (cm'.messages m).upstreamRequest = r at hfade
  cases hfade
  rfl

theorem AtMessage.recede (h : AtMessage cfg md q cm m) (hr : Recedes q q' cm cm') :
    AtMessage cfg md q' cm' m where
  request := hr.request_eq_none h.request
  metadata := (hr.messages m).metadata.trans h.metadata
  writes := (hr.writes m).trans h.writes
  queued k hk := h.queued k (hr.queue k hk)
  registered k id hid := h.registered k id ((hr.handlers k).entries hid)

theorem Unborn.recede (h : Unborn cm m) (hr : Recedes q q' cm cm') : Unborn cm' m :=
  ⟨hr.request_eq_none h.request, by rw [(hr.messages m).metadata, h.origin], (hr.writes m).trans h.writes⟩

/-- A request that has neither a connection nor waits for the pool does not get so far. -/
theorem UpstreamRequest.Fades.apart {ur ur' : UpstreamRequest} (h : ur.Fades ur')
    (ha : ur.conn = none ∧ ur.handle = false) : ur'.conn = none ∧ ur'.handle = false := by
  constructor
  · refine Option.not_isSome_iff_eq_none.1 fun hc => ?_
    have hold := h.conn hc
    rw [ha.1] at hold
    cases hold
  · refine Bool.eq_false_iff.2 fun hh => ?_
    have hold := h.handle hh
    rw [ha.2] at hold
    cases hold

theorem AtRequest.recede (h : AtRequest cfg M md q cm m ur) (hr : Recedes q q' cm cm') :
    Phase cfg M md q' cm' m := by
  have hfade := (hr.messages m).request
  rw [h.request] at hfade
  have horigin : (cm'.messages m).metadata.originMessage = [] := by rw [(hr.messages m).metadata, h.origin]
  have hwrites : writesOf cm'.out m = [] := (hr.writes m).trans h.writes
  have hspent : (¬∃ k, m ∈ q' k) → (∀ ur, (cm'.messages m).upstreamRequest = some ur → ur.handle = false) →
      Phase cfg M md q' cm' m := fun hq hh => .spent ⟨hh, horigin, by simp [hwrites], fun k hk => hq ⟨k, hk⟩⟩
  cases hur : (cm'.messages m).upstreamRequest with
  | none =>
    rw [hur] at hfade
    cases hfade with
    | gone hq => exact hspent hq (by simp [hur])
  | some ur' =>
    rw [hur] at hfade
    cases hfade with
    | same hsame hbuffer =>
      have hrouted : M.routed (cfg.labelled md) (cm'.messages m).mutation :=
        (hr.messages m).mutation ▸ h.routed
      refine .request ur' ⟨hur, hbuffer.trans h.buffer, hrouted, horigin, hwrites, fun k hk => ?_,
        fun k id hid => ?_, fun hne => ?_⟩
      · rw [hsame.handler]
        exact h.queued k (hr.queue k hk)
      · rw [hsame.handler]
        exact h.registered k id ((hr.handlers k).entries hid)
      · rw [hsame.handler] at hne
        exact hsame.apart (h.shared hne)
    | dropped hq _ hhandle =>
      refine hspent hq fun ur'' hur'' => ?_
      rw [hur] at hur''
      cases hur''
      exact hhandle

theorem Spent.recede (h : Spent q cm m) (hr : Recedes q q' cm cm') : Spent q' cm' m where
  request := hr.handle_eq_false h.request
  origin := by rw [(hr.messages m).metadata, h.origin]
  writes := by rw [hr.writes]; exact h.writes
  queued k hk := h.queued k (hr.queue k hk)

theorem Letter.recede (h : Letter cfg M md q cm m) (hr : Recedes q q' cm cm') : Letter cfg M md q' cm' m where
  metadata := by rw [(hr.messages m).metadata]; exact h.metadata
  mutation := by rw [(hr.messages m).mutation]; exact h.mutation
  conveyed := by rw [hr.writes]; exact h.conveyed
  phase := by
    cases h.phase with
    | message hp => exact .message (hp.recede hr)
    | request ur hp => exact hp.recede hr
    | spent hp => exact .spent (hp.recede hr)

theorem Letters.recede (h : Letters cfg M q cm ms) (hr : Recedes q q' cm cm') : Letters cfg M q' cm' ms where
  count := hr.nextMessage.trans h.count
  queued k i hi := h.queued k i (hr.queue k hi)
  registered k id i hi := h.registered k id i ((hr.handlers k).entries hi)
  unborn i hi := (h.unborn i hi).recede hr
  letter i md hmd := (h.letter i md hmd).recede hr

theorem Letter.of_same (h : Letter cfg M md q cm m) (hmsg : cm'.messages m = cm.messages m)
    (hw : writesOf cm'.out m = writesOf cm.out m) (hq : ∀ k, m ∈ q' k → m ∈ q k)
    (he : ∀ k id, (id, m) ∈ (cm'.handlers k).responseCallbacks →
      (id, m) ∈ (cm.handlers k).responseCallbacks) :
    Letter cfg M md q' cm' m where
  metadata := by rw [hmsg]; exact h.metadata
  mutation := by rw [hmsg]; exact h.mutation
  conveyed := by rw [hw]; exact h.conveyed
  phase := by
    cases h.phase with
    | message hp =>
      exact .message ⟨by rw [hmsg, hp.request], by rw [hmsg, hp.metadata], by rw [hw, hp.writes],
        fun k hk => hp.queued k (hq k hk), fun k id hid => hp.registered k id (he k id hid)⟩
    | request ur hp =>
      exact .request ur
        ⟨by rw [hmsg, hp.request], hp.buffer, by rw [hmsg]; exact hp.routed, by rw [hmsg, hp.origin],
        by rw [hw, hp.writes], fun k hk => hp.queued k (hq k hk),
          fun k id hid => hp.registered k id (he k id hid), hp.shared⟩
    | spent hp =>
      exact .spent ⟨by rw [hmsg]; exact hp.request, by rw [hmsg, hp.origin], by rw [hw]; exact hp.writes,
        fun k hk => hp.queued k (hq k hk)⟩

theorem Letters.frame (h : Letters cfg M q cm ms) (hmsg : cm'.messages = cm.messages)
    (hnext : cm'.nextMessage = cm.nextMessage) (hout : cm'.out = cm.out)
    (he : ∀ k, (cm'.handlers k).responseCallbacks = (cm.handlers k).responseCallbacks) :
    Letters cfg M q cm' ms where
  count := hnext.trans h.count
  queued := h.queued
  registered k id i hi := h.registered k id i (by rwa [he] at hi)
  unborn i hi := by
    obtain ⟨hreq, horigin, hwrites⟩ := h.unborn i hi
    exact ⟨by rw [hmsg, hreq], by rw [hmsg, horigin], by rw [hout, hwrites]⟩
  letter i md hmd :=
    (h.letter i md hmd).of_same (by rw [hmsg]) (by rw [hout]) (fun _ hk => hk) fun k id hid => by
      rwa [he] at hid

/-- From `cm` to `cm'` something has happened to the message `m`, and to no other. -/
structure Concerns (m : MsgId) (q q' : Queues) (cm cm' : ConnectionManager σ α) : Prop where
  nextMessage : cm'.nextMessage = cm.nextMessage
  messages : ∀ i, i ≠ m → cm'.messages i = cm.messages i
  writes : ∀ i, i ≠ m → writesOf cm'.out i = writesOf cm.out i
  queue : ∀ k i, i ≠ m → i ∈ q' k → i ∈ q k
  entries : ∀ k id i, i ≠ m → (id, i) ∈ (cm'.handlers k).responseCallbacks →
    (id, i) ∈ (cm.handlers k).responseCallbacks

theorem Letters.concern (h : Letters cfg M q cm ms) (hm : m < ms.length) (hc : Concerns m q q' cm cm')
    (hnew : ∀ md, ms[m]? = some md → Letter cfg M md q' cm' m) : Letters cfg M q' cm' ms where
  count := hc.nextMessage.trans h.count
  queued k i hi := by
    by_cases him : i = m
    · exact him ▸ hm
    · exact h.queued k i (hc.queue k i him hi)
  registered k id i hi := by
    by_cases him : i = m
    · exact him ▸ hm
    · exact h.registered k id i (hc.entries k id i him hi)
  unborn i hi := by
    have him : i ≠ m := fun him => absurd (him ▸ hi) (Nat.not_le.2 hm)
    obtain ⟨hreq, horigin, hwrites⟩ := h.unborn i hi
    exact ⟨by rw [hc.messages i him, hreq], by rw [hc.messages i him, horigin],
      by rw [hc.writes i him, hwrites]⟩
  letter i md hmd := by
    by_cases him : i = m
    · subst him
      exact hnew md hmd
    · exact (h.letter i md hmd).of_same (hc.messages i him) (hc.writes i him) (fun k => hc.queue k i him)
        fun k id => hc.entries k id i him

theorem Effect.concerns {a : ActiveMessage σ α} {os : List (Out α)} (h : Effect cm m a os cm')
    (hos : ∀ i, i ≠ m → writesOf os i = []) (hq : ∀ k, q' k ⊆ q k) : Concerns m q q' cm cm' where
  nextMessage := h.nextMessage
  messages _ hi := h.other hi
  writes i hi := by rw [h.out, writesOf_append, hos i hi, List.append_nil]
  queue k _ _ hi := hq k hi
  entries k id i _ hi := by rwa [h.handlers] at hi

/-! ## One message changes -/

theorem Letters.hold {a : ActiveMessage σ α} {os : List (Out α)} {ur' : UpstreamRequest}
    (h : Letters cfg M q cm ms)
    (hmd : ms[m]? = some md) (hp : AtRequest cfg M md q cm m ur) (he : Effect cm m a os cm')
    (hos : ∀ o ∈ os, o.isSilent = true) (hreq : a.upstreamRequest = some ur')
    (hbuffer : ur'.buffer = ur.buffer)
    (hhandler : ur'.handler = ur.handler)
    (hshared : ur'.handler ≠ none → ur'.conn = none ∧ ur'.handle = false)
    (hmeta : md.OfMessage a.metadata) (horigin : a.metadata.originMessage = [])
    (hmut : a.mutation = (cm.messages m).mutation) : Letters cfg M q cm' ms := by
  have hwrites : ∀ i, writesOf cm'.out i = writesOf cm.out i := by
    intro i
    rw [he.out, writesOf_append, writesOf_silent hos, List.append_nil]
  refine h.concern (List.getElem?_eq_some_iff.1 hmd).1
    (he.concerns (fun i _ => writesOf_silent hos i) fun _ => List.Subset.refl _) fun md' hmd' => ?_
  obtain rfl : md = md' := Option.some.inj (hmd.symm.trans hmd')
  have hl := h.letter m md hmd
  refine ⟨?_, ?_, ?_, .request ur' ⟨?_, hbuffer.trans hp.buffer, ?_, ?_, ?_, fun k hk => ?_,
    fun k id hid => ?_, hshared⟩⟩
  · rwa [he.self]
  · rw [he.self, hmut]
    exact hl.mutation
  · rw [hwrites]
    exact hl.conveyed
  · rw [he.self, hreq]
  · rw [he.self, hmut]
    exact hp.routed
  · rw [he.self, horigin]
  · rw [hwrites, hp.writes]
  · exact hhandler.trans (hp.queued k hk)
  · rw [he.handlers] at hid
    exact hhandler.trans (hp.registered k id hid)

theorem Letters.write {a : ActiveMessage σ α} {os : List (Out α)} {bytes : Bytes} (h : Letters cfg M q cm ms)
    (hmd : ms[m]? = some md) (hunwritten : writesOf cm.out m = []) (he : Effect cm m a os cm')
    (hos : ∀ i, writesOf os i = if i = m then [bytes] else []) (hconveys : Conveys cfg M md bytes)
    (hreq : ∀ ur, a.upstreamRequest = some ur → ur.handle = false) (hmeta : md.OfMessage a.metadata)
    (horigin : a.metadata.originMessage = []) (hmut : a.mutation = (cm.messages m).mutation)
    (hq : ∀ k, q' k ⊆ q k) (hout : ∀ k, m ∉ q' k) : Letters cfg M q' cm' ms := by
  have hwritten : writesOf cm'.out m = [bytes] := by
    rw [he.out, writesOf_append, hos, if_pos rfl, hunwritten, List.nil_append]
  refine h.concern (List.getElem?_eq_some_iff.1 hmd).1
    (he.concerns (fun i hi => by rw [hos, if_neg hi]) hq) fun md' hmd' => ?_
  obtain rfl : md = md' := Option.some.inj (hmd.symm.trans hmd')
  have hl := h.letter m md hmd
  refine ⟨?_, ?_, ?_, .spent ⟨?_, ?_, ?_, hout⟩⟩
  · rwa [he.self]
  · rw [he.self, hmut]
    exact hl.mutation
  · rw [hwritten]
    exact fun b hb => List.mem_singleton.1 hb ▸ hconveys
  · rwa [he.self]
  · rw [he.self, horigin]
  · rw [hwritten]
    exact Nat.le_refl 1

end Letters

end MetaProtocolProxy
