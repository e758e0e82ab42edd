import MetaProtocolProxy.Proxy.SharedConnections
import Mathlib.Data.List.Nodup
/-
# The callbacks of a multiplexed connection (upstream_handler_impl.cc, router_impl.cc)

`response_callbacks_` has one callback per request id, and `addResponseCallback` ignores an id that
is already there. The request that brought it is sent all the same, and nobody will complete it.

The handler is looked at with the list of the requests it has accepted and not completed. That list
and `response_callbacks_` have the same length, and each response completes exactly one of the
requests with its id, in every state exactly if no request comes with the id of one that is
outstanding (`completions_balance_iff`).
-/
namespace MetaProtocolProxy

variable {σ α : Type}

/-- The request a callback of handler `h` has completed. -/
def Out.completedBy (h : HandlerId) : Out α → Option (Nat × MsgId)
  | .callback i id m => if i = h then some (id, m) else none
  | _ => none

/-- The requests handler `h` has completed by their callbacks, in order. -/
def completions (h : HandlerId) (cm : ConnectionManager σ α) : List (Nat × MsgId) :=
  cm.out.filterMap (Out.completedBy h)

theorem completions_eq (h : HandlerId) (cm : ConnectionManager σ α) :
    completions h cm = (deliveries cm).filterMap (Out.completedBy h) := by
  rw [completions, deliveries, List.filterMap_filter]
  congr 1
  funext o
  cases o <;> rfl

structure Exchange (σ α : Type) where
  cm : ConnectionManager σ α
  outstanding : List (Nat × MsgId) := []

inductive Exchange.Event (α : Type)
  /-- The router gives the request of a message to the handler. -/
  | accept (m : MsgId)
  | response (md : Metadata α)

namespace Exchange

/-- The callbacks that `md` has run. -/
def completed (h : HandlerId) (cm : ConnectionManager σ α) (md : Metadata α) : List (Nat × MsgId) :=
  (completions h (handlerMessageDecoded cm h md)).drop (completions h cm).length

def step (cfg : Config σ α) (h : HandlerId) (s : Exchange σ α) : Event α → Exchange σ α
  | .accept m =>
    match startOnHandler cfg h s.cm m with
    | (.error _, cm) => { cm := cm, outstanding := s.outstanding }
    | (.ok _, cm) => { cm := cm, outstanding := ((s.cm.messages m).metadata.requestId, m) :: s.outstanding }
  | .response md =>
    { cm := handlerMessageDecoded s.cm h md
      outstanding := s.outstanding.filter fun r => !(completed h s.cm md).contains r }

/-- The request is sent, or it waits for the connection. -/
def Accepted (cfg : Config σ α) (h : HandlerId) (s : Exchange σ α) : Event α → Prop
  | .accept m => ∃ status, (startOnHandler cfg h s.cm m).1 = .ok status
  | .response _ => True

/-- A request comes with an id no outstanding request has. -/
def Fresh (s : Exchange σ α) : Event α → Prop
  | .accept m => ∀ r ∈ s.outstanding, r.1 ≠ (s.cm.messages m).metadata.requestId
  | .response _ => True

def withId (id : Nat) (rs : List (Nat × MsgId)) : Nat := rs.countP fun r => r.1 == id

/-- Every outstanding request has its entry, and a response completes exactly one of the outstanding
requests with its id, if there is any, and leaves the entries of the others. -/
structure Balanced (h : HandlerId) (s : Exchange σ α) : Prop where
  entries : s.outstanding.length = (s.cm.handlers h).responseCallbacks.length
  completes : ∀ md : Metadata α, 0 < withId md.requestId s.outstanding →
    (∃ m, (md.requestId, m) ∈ s.outstanding ∧ completed h s.cm md = [(md.requestId, m)]) ∧
      withId md.requestId ((handlerMessageDecoded s.cm h md).handlers h).responseCallbacks =
        withId md.requestId s.outstanding - 1

/-! ## What the events do to the entries -/

section Steps

variable {cfg : Config σ α} {h : HandlerId} {cm : ConnectionManager σ α}

theorem completed_eq (h : HandlerId) (cm : ConnectionManager σ α) (md : Metadata α) :
    completed h cm md = match (cm.handlers h).responseCallbacks.lookup md.requestId with
      | none => []
      | some m => [(md.requestId, m)] := by
  rw [completed, completions_eq, completions_eq, (handlerMessageDecoded_spec cm h md).2,
    List.filterMap_append, List.drop_left, delivered]
  cases (cm.handlers h).responseCallbacks.lookup md.requestId with
  | none => rfl
  | some m => simp [List.filterMap_cons, Out.completedBy]

theorem startOnHandler_entries (cfg : Config σ α) (h : HandlerId) (cm : ConnectionManager σ α) (m : MsgId) :
    ((startOnHandler cfg h cm m).2.handlers h).responseCallbacks =
      if ((cm.handlers h).responseCallbacks.lookup (cm.messages m).metadata.requestId).isSome then
        (cm.handlers h).responseCallbacks
      else ((cm.messages m).metadata.requestId, m) :: (cm.handlers h).responseCallbacks := by
  have hadd : ((addResponseCallback cm h (cm.messages m).metadata.requestId m).handlers h).responseCallbacks =
      if ((cm.handlers h).responseCallbacks.lookup (cm.messages m).metadata.requestId).isSome then
        (cm.handlers h).responseCallbacks
      else ((cm.messages m).metadata.requestId, m) :: (cm.handlers h).responseCallbacks := by
    simp only [addResponseCallback, ConnectionManager.modifyHandler, Function.update_self]
    split <;> rfl
  rw [← hadd, startOnHandler, startRequestByHandler]
  generalize addResponseCallback cm h (cm.messages m).metadata.requestId m = cm₁
  have hsame : (newUpstreamRequest cm₁ m (some h)).handlers = cm₁.handlers := rfl
  split
  · have ht := encodeDataByHandler_trimmed cfg (newUpstreamRequest cm₁ m (some h)) m h
    generalize encodeDataByHandler cfg (newUpstreamRequest cm₁ m (some h)) h m = r at ht ⊢
    rcases r with ⟨e | u, cm₂⟩
    · exact congrArg (fun hs => (hs h).responseCallbacks) (ht.handlers.trans hsame)
    · exact congrArg (fun hs => (hs h).responseCallbacks) (ht.handlers.trans hsame)
  · simp only [ConnectionManager.modifyHandler, Function.update_self, hsame]

structure Owned (h : HandlerId) (s : Exchange σ α) : Prop where
  entries : s.outstanding = (s.cm.handlers h).responseCallbacks
  nodup : (s.outstanding.map Prod.fst).Nodup

theorem lookup_of_mem {rs : List (Nat × MsgId)} (hn : (rs.map Prod.fst).Nodup) {id : Nat}
    {m : MsgId} (hm : (id, m) ∈ rs) : rs.lookup id = some m := by
  induction rs with
  | nil => exact absurd hm List.not_mem_nil
  | cons r rs ih =>
    obtain ⟨i, k⟩ := r
    obtain ⟨hi, hn⟩ := List.nodup_cons.1 hn
    rcases List.mem_cons.1 hm with heq | hmem
    · obtain ⟨rfl, rfl⟩ := Prod.mk.inj heq
      exact List.lookup_cons_self
    · have hne : id ≠ i := by
        rintro rfl
        exact hi (List.mem_map.2 ⟨(id, m), hmem, rfl⟩)
      rw [List.lookup_cons, beq_eq_false_iff_ne.2 hne]
      exact ih hn hmem

theorem withId_eq_count (id : Nat) (rs : List (Nat × MsgId)) : withId id rs = (rs.map Prod.fst).count id := by
  rw [withId, List.count, List.countP_map]
  rfl

theorem withId_of_lookup {rs : List (Nat × MsgId)} (hn : (rs.map Prod.fst).Nodup) {id : Nat} {m : MsgId}
    (hl : rs.lookup id = some m) : withId id rs = 1 := by
  rw [withId_eq_count]
  exact List.count_eq_one_of_mem hn (List.mem_map_of_mem (mem_of_lookup hl))

theorem withId_of_lookup_none {rs : List (Nat × MsgId)} {id : Nat} (hl : rs.lookup id = none) :
    withId id rs = 0 := by
  refine List.countP_eq_zero.2 fun r hr => ?_
  have hne := List.lookup_eq_none_iff.1 hl r hr
  simpa [ne_comm] using hne

theorem filter_completed {rs : List (Nat × MsgId)} (hn : (rs.map Prod.fst).Nodup) {id : Nat} {m : MsgId}
    (hl : rs.lookup id = some m) :
    rs.filter (fun r => !([(id, m)].contains r)) = rs.filter fun r => r.1 != id := by
  refine List.filter_congr fun r hr => ?_
  by_cases hid : r.1 = id
  · have hr2 : r = (id, m) := by
      have hlr : rs.lookup r.1 = some r.2 := lookup_of_mem hn hr
      rw [hid, hl] at hlr
      exact Prod.ext hid (Option.some.inj hlr).symm
    simp [hr2]
  · have hne : r ≠ (id, m) := fun heq => hid (congrArg Prod.fst heq)
    simp [hid, hne]

variable {s : Exchange σ α}

theorem step_accepted {m : MsgId} (hacc : Accepted cfg h s (.accept m)) :
    step cfg h s (.accept m) =
      { cm := (startOnHandler cfg h s.cm m).2,
        outstanding := ((s.cm.messages m).metadata.requestId, m) :: s.outstanding } := by
  obtain ⟨status, hok⟩ := hacc
  simp only [step]
  generalize startOnHandler cfg h s.cm m = r at hok ⊢
  obtain ⟨res, cm⟩ := r
  subst hok
  rfl

theorem owned_accept (hs : Owned h s) {m : MsgId} (hacc : Accepted cfg h s (.accept m))
    (hfresh : Fresh s (.accept m : Event α)) : Owned h (step cfg h s (.accept m)) := by
  rw [step_accepted hacc]
  have hl : (s.cm.handlers h).responseCallbacks.lookup (s.cm.messages m).metadata.requestId = none := by
    rw [← hs.entries, List.lookup_eq_none_iff]
    intro r hr
    simpa [ne_comm] using hfresh r hr
  refine ⟨?_, List.nodup_cons.2 ⟨fun hmem => ?_, hs.nodup⟩⟩
  · simp only [startOnHandler_entries, hl, Option.isSome_none, Bool.false_eq_true, if_false, hs.entries]
  · obtain ⟨r, hr, hid⟩ := List.mem_map.1 hmem
    exact hfresh r hr hid

theorem owned_response (hs : Owned h s) (md : Metadata α) : Owned h (step cfg h s (.response md)) := by
  have hentries : ((handlerMessageDecoded s.cm h md).handlers h).responseCallbacks =
      unanswered (s.cm.handlers h).responseCallbacks md := by
    rw [(handlerMessageDecoded_spec s.cm h md).1]
  refine ⟨?_, (hs.nodup.sublist (List.filter_sublist.map _))⟩
  simp only [step, completed_eq, hentries]
  rw [← hs.entries]
  cases hl : s.outstanding.lookup md.requestId with
  | none => simp [unanswered_of_lookup_none hl]
  | some m => exact filter_completed hs.nodup hl

theorem balanced_of_owned (hs : Owned h s) : Balanced h s := by
  refine ⟨congrArg List.length hs.entries, fun md hk => ?_⟩
  have hentries : ((handlerMessageDecoded s.cm h md).handlers h).responseCallbacks =
      unanswered s.outstanding md := by
    rw [(handlerMessageDecoded_spec s.cm h md).1, hs.entries]
  rw [completed_eq, hentries, ← hs.entries]
  cases hl : s.outstanding.lookup md.requestId with
  | none =>
    rw [withId_of_lookup_none hl] at hk
    exact absurd hk (Nat.lt_irrefl 0)
  | some m =>
    refine ⟨⟨m, mem_of_lookup hl, rfl⟩, ?_⟩
    rw [withId_of_lookup hs.nodup hl]
    simp [withId, unanswered]

theorem not_balanced_of_collision (hs : Owned h s) {m : MsgId} (hacc : Accepted cfg h s (.accept m))
    (hcoll : ¬ Fresh s (.accept m : Event α)) : ¬ Balanced h (step cfg h s (.accept m)) := by
  rw [step_accepted hacc]
  intro hb
  simp only [Fresh, ne_eq, not_forall, not_not] at hcoll
  obtain ⟨r, hr, hid⟩ := hcoll
  have hl : (s.cm.handlers h).responseCallbacks.lookup (s.cm.messages m).metadata.requestId = some r.2 := by
    rw [← hs.entries, ← hid]
    exact lookup_of_mem hs.nodup hr
  have hlen := hb.entries
  simp only [startOnHandler_entries, hl, Option.isSome_some, if_true, List.length_cons, hs.entries] at hlen
  omega

theorem balanced_iff (hs : Owned h s) (es : List (Event α))
    (hacc : Runs.Guarded (step cfg h) (Accepted cfg h) s es) :
    (∀ n, Balanced h (Runs.run (step cfg h) s (es.take n))) ↔ Runs.Guarded (step cfg h) Fresh s es := by
  induction es generalizing s with
  | nil => simpa [Runs.Guarded] using balanced_of_owned hs
  | cons e es ih =>
    have hcons : (∀ n, Balanced h (Runs.run (step cfg h) s ((e :: es).take n))) ↔
        Balanced h s ∧ ∀ n, Balanced h (Runs.run (step cfg h) (step cfg h s e) (es.take n)) :=
      Nat.and_forall_add_one.symm
    rw [hcons]
    cases e with
    | response md =>
      rw [ih (owned_response hs md) hacc.2]
      exact ⟨fun hall => ⟨trivial, hall.2⟩, fun hall => ⟨balanced_of_owned hs, hall.2⟩⟩
    | accept m =>
      by_cases hf : Fresh s (.accept m : Event α)
      · rw [ih (owned_accept hs hacc.1 hf) hacc.2]
        exact ⟨fun hall => ⟨hf, hall.2⟩, fun hall => ⟨balanced_of_owned hs, hall.2⟩⟩
      · exact ⟨fun hall => absurd (hall.2 0) (not_balanced_of_collision hs hacc.1 hf), fun hall =>
          absurd hall.1 hf⟩

end Steps

/-- On a handler without entries, for every sequence of accepted requests and responses: in every
state each outstanding request has an entry of its own and is completed by one response, exactly if
no request comes with the id of one that is outstanding. -/
theorem completions_balance_iff (cfg : Config σ α) (h : HandlerId) (cm : ConnectionManager σ α)
    (hnew : (cm.handlers h).responseCallbacks = []) (es : List (Event α))
    (hacc : Runs.Guarded (step cfg h) (Accepted cfg h) { cm := cm } es) :
    (∀ n, Balanced h (Runs.run (step cfg h) { cm := cm } (es.take n))) ↔
      Runs.Guarded (step cfg h) Fresh { cm := cm } es :=
  balanced_iff (s := { cm := cm }) ⟨hnew.symm, List.nodup_nil⟩ es hacc

section Concrete

def connected (ids : MsgId → Nat) : ConnectionManager Trpc.TrpcCodec Unit where
  handlers := fun _ => { poolReady := true, conn := some 3 }
  messages := fun m => { metadata := { messageType := .request, requestId := ids m } }

/-- Two requests with ids of their own. -/
theorem completions_balance_distinct :
    Balanced 0 (Runs.run (step multiplexed 0) { cm := connected id } [.accept 0, .accept 1]) := by
  refine (completions_balance_iff multiplexed 0 (connected id) rfl [.accept 0, .accept 1] ?_).2 ?_ 2
  · exact ⟨⟨_, rfl⟩, ⟨_, rfl⟩, trivial⟩
  · refine ⟨fun r hr => absurd hr List.not_mem_nil, fun r hr => ?_, trivial⟩
    obtain rfl : r = (0, 0) := List.mem_singleton.1 hr
    show (0 : Nat) ≠ 1
    decide

/-- Two requests with id 5, of a connection manager and of its handler: one entry for the two, and
none is left when the response to the first has come. -/
theorem second_request_never_completed :
    Runs.Guarded (MetaProtocolProxy.step multiplexed) Enabled {} [requestTo 5 (.ready 3),
      requestTo 5 (.ready 3)] ∧
      (Runs.run (MetaProtocolProxy.step multiplexed) {} [requestTo 5 (.ready 3),
        requestTo 5 (.ready 3)]).activeMessageList = [1, 0] ∧
      ((Runs.run (MetaProtocolProxy.step multiplexed) {} [requestTo 5 (.ready 3),
        requestTo 5 (.ready 3)]).handlers 0).responseCallbacks =
        [(5, 0)] ∧
      Runs.Guarded (step multiplexed 0) (Accepted multiplexed 0) { cm := connected fun _ => 5 }
        [.accept 0, .accept 1] ∧
      ¬ Balanced 0 (Runs.run (step multiplexed 0) { cm := connected fun _ => 5 } [.accept 0, .accept 1]) ∧
      (Runs.run (step multiplexed 0) { cm := connected fun _ => 5 }
        [.accept 0, .accept 1, .response { requestId := 5 }]).outstanding = [(5, 1)] ∧
      ((Runs.run (step multiplexed 0) { cm := connected fun _ => 5 }
        [.accept 0, .accept 1, .response { requestId := 5 }]).cm.handlers 0).responseCallbacks = [] := by
  refine ⟨⟨⟨rfl, trivial⟩, ⟨rfl, trivial⟩, trivial⟩, rfl, rfl, ⟨⟨_, rfl⟩, ⟨_, rfl⟩, trivial⟩,
    fun hb => ?_, rfl, rfl⟩
  have hlen : (2 : Nat) = 1 := hb.entries
  cases hlen

end Concrete

end Exchange

end MetaProtocolProxy
