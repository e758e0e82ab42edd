import MetaProtocolProxy.Lib.Runs
import MetaProtocolProxy.Proxy.Touches
/-
# The iteration over the decoder filters (active_message.cc:146-165, 289-301, 489-511)

A message goes through the decoder filters in the order of their registration. A filter may pause
the iteration and continue it later; where it goes on is decided by what is left of the original
message at that time. `FilterChain.Behaviour` says what each filter does, given all calls so far, so
that a filter may behave differently when it is called again. `filters_in_order_iff`: the calls are
a prefix of the chain in every state of an iteration just when the original message is empty at
every `continueDecoding`, unless a local reply has been made.

| here | there |
| --- | --- |
| a filter | its position in `decoder_filters_` |
| `FilterCall.left`, `Resume.originMessage` | the content of `originMessage()` after a call, and when the filter continues |
| `localReply` | the `end_stream` of a call of `sendLocalReply`, if there is one |
| `Progress.status` | what the last `applyDecoderFilters` returned |
-/
namespace MetaProtocolProxy

variable {σ α : Type}

namespace FilterChain

inductive FilterIterationStartState
  | alwaysStartFromNext
  | canStartFromCurrent
  deriving DecidableEq

/-- What a call of `onMessageDecoded` does. -/
structure FilterCall where
  status : FilterStatus := .continueIteration
  localReply : Option Bool := none
  left : Bytes := []
  deriving DecidableEq

/-- What the filter called last does, given all calls so far. -/
abbrev Behaviour := List Nat → FilterCall

/-- What the iteration reads and changes of an `ActiveMessage`, and the filters called so far. -/
structure Iteration where
  originMessage : Bytes
  localResponseSent : Bool := false
  filterAction : Bool := true
  calls : List Nat := []
  deriving DecidableEq

/-- `sendLocalReply` marks the message unless it ends the stream (active_message.cc:535-545). -/
def Iteration.sendLocalReply (it : Iteration) (localReply : Option Bool) : Iteration :=
  { it with localResponseSent := it.localResponseSent || localReply == some false }

/-- The message after a call of the filter at position `i`. -/
def Iteration.called (it : Iteration) (i : Nat) (call : FilterCall) : Iteration :=
  { it with calls := it.calls ++ [i], originMessage := call.left }.sendLocalReply call.localReply

@[simp] theorem Iteration.called_calls (it : Iteration) (i : Nat) (call : FilterCall) :
    (it.called i call).calls = it.calls ++ [i] := rfl

/-- `commonDecodePrefix` (active_message.cc:289-301). -/
def commonDecodePrefix (filter : Option Nat) (state : FilterIterationStartState) : Nat :=
  match filter, state with
  | none, _ => 0
  | some i, .canStartFromCurrent => i
  | some i, .alwaysStartFromNext => i + 1

/-- The loop of `applyDecoderFilters` over the filters from `entry` on. -/
def filterLoop (behave : Behaviour) : List Nat → Iteration → FilterStatus × Iteration
  | [], it => (.continueIteration, { it with filterAction := false })
  | i :: is, it =>
    let call := behave (it.calls ++ [i])
    let it := it.called i call
    if it.localResponseSent then (.continueIteration, { it with filterAction := false })
    else if call.status ≠ .continueIteration then (call.status, it)
    else filterLoop behave is it

/-- `applyDecoderFilters` on a chain of `n` filters (active_message.cc:489-511). -/
def applyDecoderFilters (n : Nat) (behave : Behaviour) (it : Iteration) (filter : Option Nat)
    (state : FilterIterationStartState) : FilterStatus × Iteration :=
  if it.localResponseSent then (.continueIteration, { it with filterAction := false })
  else filterLoop behave
    (List.range' (commonDecodePrefix filter state) (n - commonDecodePrefix filter state)) it

/-- `continueDecoding` of the filter at position `i` (active_message.cc:146-165). -/
def continueDecoding (n : Nat) (behave : Behaviour) (it : Iteration) (i : Nat) : FilterStatus × Iteration :=
  let state := if it.originMessage.length ≠ 0 then .canStartFromCurrent else .alwaysStartFromNext
  applyDecoderFilters n behave it (some i) state

structure Progress where
  status : FilterStatus
  iteration : Iteration
  deriving DecidableEq

/-- The iteration as `onMessageDecoded` starts it (active_message.cc:382). -/
def start (n : Nat) (behave : Behaviour) (originMessage : Bytes) : Progress :=
  let (status, it) :=
    applyDecoderFilters n behave { originMessage := originMessage } none .canStartFromCurrent
  ⟨status, it⟩

/-- What has happened by the time the filter that paused continues. -/
structure Resume where
  originMessage : Bytes
  localReply : Option Bool := none
  deriving DecidableEq

def Iteration.resumed (it : Iteration) (r : Resume) : Iteration :=
  { it with originMessage := r.originMessage }.sendLocalReply r.localReply

/-- The filter that paused the iteration continues it; otherwise nobody may. -/
def resume (n : Nat) (behave : Behaviour) (p : Progress) (r : Resume) : Progress :=
  if p.status = .pauseIteration then
    match p.iteration.calls.getLast? with
    | none => p
    | some i =>
      let (status, it) := continueDecoding n behave (p.iteration.resumed r) i
      ⟨status, it⟩
  else p

/-- The calls so far are a prefix of the chain, and all of it once the iteration is through without
a local reply. A filter that aborts or pauses leaves another status. -/
def InOrder (n : Nat) (p : Progress) : Prop :=
  ∃ k ≤ n, p.iteration.calls = List.range k ∧
    (p.status = .continueIteration → p.iteration.localResponseSent = false → k = n)

/-- A filter that continues the iteration has left nothing of the original message, unless there is
a local reply. -/
def Consumed (p : Progress) (r : Resume) : Prop :=
  p.status = .pauseIteration → r.localReply ≠ some false → r.originMessage = []

def Paused (p : Progress) : Prop :=
  p.status = .pauseIteration → p.iteration.calls ≠ [] ∧ p.iteration.localResponseSent = false

variable {n : Nat} {behave : Behaviour}

theorem filterLoop_calls (behave : Behaviour) (is : List Nat) (it : Iteration) :
    ∃ called, called <+: is ∧ (is ≠ [] → called ≠ []) ∧ (filterLoop behave is it).2.calls =
      it.calls ++ called ∧
      ((filterLoop behave is it).1 = .continueIteration →
        (filterLoop behave is it).2.localResponseSent = false → called = is) ∧
      ((filterLoop behave is it).1 = .pauseIteration →
        called ≠ [] ∧ (filterLoop behave is it).2.localResponseSent = false) := by
  induction is generalizing it with
  | nil => exact ⟨[], by simp [filterLoop]⟩
  | cons i is ih =>
    have hone : [i] <+: i :: is := ⟨is, rfl⟩
    simp only [filterLoop]
    split
    · next hsent =>
      refine ⟨[i], hone, by simp, rfl, fun _ hno => ?_, fun h => by cases h⟩
      exact absurd (hsent.symm.trans hno) (by decide)
    · next hsent =>
      split
      · next hstatus =>
        refine ⟨[i], hone, by simp, rfl, fun h => absurd h hstatus, fun _ => ⟨by simp, ?_⟩⟩
        exact Bool.eq_false_iff.2 hsent
      · obtain ⟨called, hpre, -, hcalls, hall, hpaused⟩ := ih (it.called i (behave (it.calls ++ [i])))
        refine ⟨i :: called,
          (List.prefix_cons_inj i).2 hpre, by simp, ?_, fun hc hno => ?_, fun hp => ⟨by simp, (hpaused hp).2⟩⟩
        · rw [hcalls]
          simp
        · rw [hall hc hno]

theorem filterLoop_inOrder {k : Nat} (hk : k ≤ n) {it : Iteration} (hcalls : it.calls = List.range k) :
    InOrder n ⟨(filterLoop behave (List.range' k (n - k)) it).1,
      (filterLoop behave (List.range' k (n - k)) it).2⟩ := by
  obtain ⟨called, hpre, -, hres, hall, -⟩ := filterLoop_calls behave (List.range' k (n - k)) it
  obtain ⟨rest, hrest⟩ := hpre
  obtain ⟨j, hj, rfl, -⟩ := List.range'_eq_append_iff.1 hrest.symm
  refine ⟨k + j, by omega, ?_, fun hc hno => ?_⟩
  · have happend := List.range'_append_1 (s := 0) (m := k) (n := j)
    rw [Nat.zero_add] at happend
    rw [hres, hcalls, List.range_eq_range', happend, List.range_eq_range']
  · have hlength := congrArg List.length (hall hc hno)
    simp only [List.length_range'] at hlength
    omega

theorem not_inOrder_repeated {k : Nat} {p : Progress} {rest : List Nat}
    (hcalls : p.iteration.calls = List.range (k + 1) ++ k :: rest) : ¬ InOrder n p := by
  rintro ⟨k', -, hrange, -⟩
  have hnodup : (List.range (k + 1) ++ k :: rest).Nodup := hcalls ▸ hrange ▸ List.nodup_range
  exact (List.nodup_append.1 hnodup).2.2 k (by simp) k (by simp) rfl

theorem start_inOrder (n : Nat) (behave : Behaviour) (originMessage : Bytes) :
    InOrder n (start n behave originMessage) :=
  filterLoop_inOrder (Nat.zero_le n) rfl

theorem applyDecoderFilters_paused (n : Nat) (behave : Behaviour) (it : Iteration) (filter : Option Nat)
    (state : FilterIterationStartState) :
    Paused ⟨(applyDecoderFilters n behave it filter state).1,
      (applyDecoderFilters n behave it filter state).2⟩ := by
  rw [applyDecoderFilters]
  split
  · exact fun h => by cases h
  · intro hp
    obtain ⟨called, -, -, hcalls, -, hpaused⟩ := filterLoop_calls behave
      (List.range' (commonDecodePrefix filter state) (n - commonDecodePrefix filter state)) it
    obtain ⟨hne, hno⟩ := hpaused hp
    refine ⟨fun h => hne ?_, hno⟩
    exact (List.append_eq_nil_iff.1 (hcalls.symm.trans h)).2

theorem start_paused (n : Nat) (behave : Behaviour) (originMessage : Bytes) :
    Paused (start n behave originMessage) :=
  applyDecoderFilters_paused n behave { originMessage := originMessage } none .canStartFromCurrent

/-- One `continueDecoding` keeps the order just when the message is consumed. -/
theorem resume_inOrder_iff {p : Progress} (hpaused : Paused p) (hin : InOrder n p) (r : Resume) :
    InOrder n (resume n behave p r) ↔ Consumed p r := by
  by_cases hp : p.status = .pauseIteration
  · obtain ⟨hne, hno⟩ := hpaused hp
    obtain ⟨k, hk, hcalls, -⟩ := hin
    obtain ⟨j, rfl⟩ : ∃ j, k = j + 1 := ⟨k - 1, by cases k <;> simp_all⟩
    have hlast : p.iteration.calls.getLast? = some j := by simp [hcalls, List.range_succ]
    simp only [resume, hp, if_true, hlast, Consumed, true_implies]
    by_cases hreply : r.localReply = some false
    · -- no filter is called any more
      have hsent : (p.iteration.resumed r).localResponseSent = true := by
        simp [Iteration.resumed, Iteration.sendLocalReply, hreply]
      simp only [continueDecoding, applyDecoderFilters, hsent, if_true, hreply, ne_eq,
        not_true_eq_false, false_implies, iff_true]
      exact ⟨j + 1, hk, hcalls, fun _ hno => by cases hno⟩
    · have hsent : (p.iteration.resumed r).localResponseSent = false := by
        simp [Iteration.resumed, Iteration.sendLocalReply, hno, hreply]
      have hmessage : (p.iteration.resumed r).originMessage = r.originMessage := rfl
      simp only [continueDecoding, applyDecoderFilters, hsent, Bool.false_eq_true, if_false,
        hmessage, ne_eq, hreply, not_false_eq_true, true_implies]
      by_cases hempty : r.originMessage = []
      · simp only [hempty, List.length_nil, not_true_eq_false, if_false, commonDecodePrefix, iff_true]
        exact filterLoop_inOrder hk hcalls
      · simp only [List.length_eq_zero_iff, hempty, not_false_eq_true, if_true, commonDecodePrefix, iff_false]
        obtain ⟨called, hpre, hfirst, hres, -⟩ :=
          filterLoop_calls behave (List.range' j (n - j)) (p.iteration.resumed r)
        have hcons : List.range' j (n - j) = j :: List.range' (j + 1) (n - (j + 1)) := by
          rw [show n - j = n - (j + 1) + 1 by omega, List.range'_succ]
        rw [hcons] at hpre hfirst
        -- the filter that paused is called again
        obtain ⟨rest, rfl⟩ : ∃ rest, called = j :: rest := by
          cases called with
          | nil => exact absurd rfl (hfirst (by simp))
          | cons i rest => exact ⟨rest, by rw [((List.cons_prefix_cons).1 hpre).1]⟩
        exact not_inOrder_repeated (hres.trans (congrArg (· ++ j :: rest) hcalls))
  · simp only [resume, hp, if_false, Consumed, false_implies, iff_true]
    exact hin

theorem resume_paused {p : Progress} (hpaused : Paused p) (r : Resume) : Paused (resume n behave p r) := by
  unfold resume
  split
  · split
    · exact hpaused
    · exact applyDecoderFilters_paused n behave _ _ _
  · exact hpaused

/-- For every chain, every behaviour of its filters and every sequence of continued pauses, the
calls are a prefix of the chain in all states just when every filter that continues has consumed the
original message, or a local reply has been made. -/
theorem filters_in_order_iff (n : Nat) (behave : Behaviour) (originMessage : Bytes) (resumes : List Resume) :
    (∀ m, InOrder n (Runs.run (resume n behave) (start n behave originMessage) (resumes.take m))) ↔
      Runs.Guarded (resume n behave) Consumed (start n behave originMessage) resumes := by
  have hfree : Runs.Guarded (resume n behave) (fun _ _ => True) (start n behave originMessage) resumes :=
    Runs.guarded_of_forall (fun _ _ => trivial) _ _
  exact hfree.always_iff (J := Paused) (fun p r hpaused hin _ => resume_inOrder_iff hpaused hin r)
    (fun p r hpaused _ _ _ => resume_paused hpaused r) (start_paused n behave originMessage)
      (start_inOrder n behave originMessage)

/-- Every filter pauses once and goes on when it is called again. -/
def pausing : Behaviour := fun calls =>
  if calls.count (calls.getLastD 0) = 1 then { status := .pauseIteration } else {}

/-- The first of two filters pauses and continues with a byte of the message left: it is called
again. -/
theorem paused_filter_called_twice :
    (Runs.run (resume 2 pausing) (start 2 pausing [1]) [{ originMessage := [1] }]).iteration.calls =
      [0, 0, 1] ∧
    ¬ InOrder 2 (Runs.run (resume 2 pausing) (start 2 pausing [1]) [{ originMessage := [1] }]) := by
  have hcalls :
      (Runs.run (resume 2 pausing) (start 2 pausing [1])
          [{ originMessage := [1] }]).iteration.calls = [0, 0, 1] := by
    decide
  refine ⟨hcalls, ?_⟩
  rintro ⟨k, hk, hrange, -⟩
  rw [hcalls] at hrange
  have hlength := congrArg List.length hrange
  simp only [List.length_cons, List.length_nil, List.length_range] at hlength
  omega

/-! ## The connection manager's loop -/

/-- The filters behave as these verdicts say, from the filter at position `i` on. -/
def Answers (behave : Behaviour) (calls : List Nat) (i : Nat) (vs : List DecoderVerdict) : Prop :=
  ∀ j v, vs[j]? = some v → (behave (calls ++ List.range' i (j + 1))).status = v.status ∧
    (behave (calls ++ List.range' i (j + 1))).localReply = v.localReply.map fun _ => false

theorem Answers.tail {calls : List Nat} {i : Nat} {v : DecoderVerdict} {vs : List DecoderVerdict}
    (h : Answers behave calls i (v :: vs)) : Answers behave (calls ++ [i]) (i + 1) vs := by
  intro j w hw
  have hnext := h (j + 1) w (by simpa using hw)
  rwa [List.range'_succ, ← List.singleton_append, ← List.append_assoc] at hnext

/-- `decoderFilterLoop` is this loop on the filters before the router: they stop it with the same
status, or both come to the router. -/
theorem decoderFilterLoop_agrees (cfg : Config σ α) {cm : ConnectionManager σ α} {m : MsgId} (env : RouterEnv)
    {vs : List DecoderVerdict} {it : Iteration} {i : Nat} (hbehave : Answers behave it.calls i vs)
    (hcm : (cm.messages m).localResponseSent = false) (hit : it.localResponseSent = false) :
    (∃ status cm' it', decoderFilterLoop cfg cm m env vs = (.ok status, cm') ∧
        filterLoop behave (List.range' i (vs.length + 1)) it = (status, it') ∧
        (cm'.messages m).localResponseSent = it'.localResponseSent) ∨
      ∃ cm' it', decoderFilterLoop cfg cm m env vs = decoderFilterLoop cfg cm' m env [] ∧
        filterLoop behave (List.range' i (vs.length + 1)) it = filterLoop behave [i + vs.length] it' ∧
        (cm'.messages m).localResponseSent = false ∧ it'.localResponseSent = false := by
  induction vs generalizing cm it i with
  | nil => exact .inr ⟨cm, it, rfl, rfl, hcm, hit⟩
  | cons v vs ih =>
    obtain ⟨hstatus, hreply⟩ := hbehave 0 v rfl
    simp only [Nat.zero_add, List.range'_one] at hstatus hreply
    rw [List.length_cons, List.range'_succ]
    have hsent : (it.called i (behave (it.calls ++ [i]))).localResponseSent = v.localReply.isSome := by
      simp only [Iteration.called, Iteration.sendLocalReply, hit, hreply, Bool.false_or]
      cases v.localReply <;> rfl
    cases hv : v.localReply with
    | some e =>
      rw [hv] at hsent
      refine .inl ⟨.continueIteration,
        sendLocalReply cfg (cm.modify m fun a => { a with mutation := a.mutation.set v.mutation }) m e,
        { it.called i (behave (it.calls ++ [i])) with filterAction := false }, ?_, ?_, ?_⟩
      · simp [decoderFilterLoop, hv, sendLocalReply_sent]
      · simp [filterLoop, hsent]
      · simp [hsent, sendLocalReply_sent]
    | none =>
      rw [hv] at hsent
      have hmarked :
          ((cm.modify m fun a => { a with mutation := a.mutation.set v.mutation }).messages
            m).localResponseSent =
          false := by
        rw [ConnectionManager.messages_modify_self]
        exact hcm
      by_cases hgo : v.status = .continueIteration
      · have hloop : decoderFilterLoop cfg cm m env (v :: vs) =
            decoderFilterLoop cfg (cm.modify m fun a =>
                { a with mutation := a.mutation.set v.mutation }) m env vs := by
          simp [decoderFilterLoop, hv, hgo, hmarked]
        have hnext : filterLoop behave (i :: List.range' (i + 1) (vs.length + 1)) it =
            filterLoop behave (List.range' (i + 1) (vs.length + 1))
                (it.called i (behave (it.calls ++ [i]))) := by
          simp [filterLoop, hsent, hstatus, hgo]
        rw [hloop, hnext, show i + (vs.length + 1) = i + 1 + vs.length by omega]
        exact ih hbehave.tail hmarked hsent
      · refine .inl ⟨v.status, cm.modify m fun a => { a with mutation := a.mutation.set v.mutation },
          it.called i (behave (it.calls ++ [i])), ?_, ?_, hmarked.trans hsent.symm⟩
        · simp [decoderFilterLoop, hv, hgo, hmarked]
        · simp [filterLoop, hsent, hstatus, hgo]

end FilterChain

end MetaProtocolProxy
