import MetaProtocolProxy.LocalRateLimit.Limiter
/-
# The token counters under any interleaving (local_ratelimit_impl.cc:76-92, 116-155)

Any number of threads are in `requestAllowed` and any number in `onFillTimerHelper`; each goes on by
one atomic load or one weak compare-exchange at a time. `tokens_accounted`: whatever the order, no
token is lost or given out twice. A counter stays within its bucket, it is the tokens it started
with and what the fills have changed less one for each request allowed, and a request takes its only
token from the bucket of the first condition that matches, or from the global one if none does.

The loops are instances of Lib.Atomic, so the argument is made on calls one after the other
(`Atomic.run_sequential`).
-/
namespace MetaProtocolProxy.LocalRateLimit

open Atomic (Loops Return State Sequential Numbered)

variable {H θ : Type}

inductive Helper (H : Type)
  | requestAllowedHelper (headers : H) (b : Bucket)
  | onFillTimerHelper (b : Bucket)

/-- The bucket whose counter a call is about. -/
def Helper.bucket : Helper H → Bucket
  | .requestAllowedHelper _ b => b
  | .onFillTimerHelper b => b

def LocalRateLimiterImpl.loops (l : LocalRateLimiterImpl H) : Loops (Helper H) Bucket UInt32 where
  cell := Helper.bucket
  update
    | .requestAllowedHelper _ _ => takeToken
    | .onFillTimerHelper b => fun expected => (l.tokenBucket b).bind (addTokens · expected)

inductive ThreadEvent (θ H : Type)
  | requestAllowed (t : θ) (headers : H)
  | onFillTimerHelper (t : θ) (b : Bucket)
  | load (t : θ)
  | compareExchangeWeak (t : θ) (spurious : Bool)

/-- What an event is for the counters. A request that no bucket is for is allowed without one. -/
def LocalRateLimiterImpl.accesses (l : LocalRateLimiterImpl H) :
    ThreadEvent θ H → List (Atomic.Event θ (Helper H))
  | .requestAllowed t headers =>
    match l.target headers with
    | some b => [.call t (.requestAllowedHelper headers b)]
    | none => []
  | .onFillTimerHelper t b => if (l.tokenBucket b).isSome then [.call t (.onFillTimerHelper b)] else []
  | .load t => [.load t]
  | .compareExchangeWeak t spurious => [.exchange t spurious]

/-- The counters and the threads after some events. -/
def LocalRateLimiterImpl.interleave [DecidableEq θ] (l : LocalRateLimiterImpl H)
    (es : List (ThreadEvent θ H)) : State θ (Helper H) Bucket UInt32 :=
  Runs.run (Atomic.step l.loops) { cells := fun b => (l.tokenState b).tokens } (es.flatMap l.accesses)

/-- A call that returned `true` for a request at the bucket `b`. -/
def allowedOn (b : Bucket) (r : Return (Helper H) UInt32) : Bool :=
  match r.call.op with
  | .requestAllowedHelper _ b' => b' = b && r.exchanged.isSome
  | .onFillTimerHelper _ => false

/-- By how much a fill of the bucket `b` has changed its counter. -/
def filled (b : Bucket) (r : Return (Helper H) UInt32) : Int :=
  match r.call.op, r.exchanged with
  | .onFillTimerHelper b', some (old, new) => if b' = b then new.toNat - old.toNat else 0
  | _, _ => 0

/-- How many tokens the call number `n` has taken. -/
def tokensTaken (s : State θ (Helper H) Bucket UInt32) (n : Nat) : Nat :=
  s.returns.countP fun r => r.call.number = n && r.exchanged.isSome

/-- The books of a limiter. -/
structure Accounted (l : LocalRateLimiterImpl H) (s : State θ (Helper H) Bucket UInt32) : Prop where
  within : ∀ b bucket, l.tokenBucket b = some bucket → (s.cells b).toNat ≤ bucket.maxTokens.toNat
  /-- The subtraction of a request never wraps. -/
  taken : ∀ r ∈ s.returns, ∀ headers b old new, r.call.op = .requestAllowedHelper headers b →
    r.exchanged = some (old, new) → old.toNat = new.toNat + 1
  balance : ∀ b bucket, l.tokenBucket b = some bucket →
    ((s.cells b).toNat : Int) =
      bucket.maxTokens.toNat + (s.returns.map (filled b)).sum - s.returns.countP (allowedOn b)
  /-- A call takes at most one token, and what returns is what was called. -/
  once : ∀ n, tokensTaken s n ≤ 1
  returned : ∀ r ∈ s.returns, s.calls[r.call.number]? = some r.call.op
  target : ∀ headers b, .requestAllowedHelper headers b ∈ s.calls → l.FirstMatch headers b

section Sequential

variable {l : LocalRateLimiterImpl H} {rs : List (Return (Helper H) UInt32)} {cells₀ cells : Bucket → UInt32}

theorem update_within {op : Helper H} {v new : UInt32} (hnew : l.loops.update op v = some new)
    (hv : ∀ bucket, l.tokenBucket (l.loops.cell op) = some bucket → v.toNat ≤ bucket.maxTokens.toNat) :
    ∀ bucket, l.tokenBucket (l.loops.cell op) = some bucket → new.toNat ≤ bucket.maxTokens.toNat := by
  intro bucket hb
  cases op with
  | requestAllowedHelper headers b =>
    have htake := takeToken_toNat hnew
    have := hv bucket hb
    omega
  | onFillTimerHelper b =>
    have hb' : l.tokenBucket b = some bucket := hb
    simp only [LocalRateLimiterImpl.loops, hb', Option.bind_some] at hnew
    exact (addTokens_toNat hnew).1

theorem change_eq (h : Sequential l.loops cells₀ rs cells) (b : Bucket)
    {r : Return (Helper H) UInt32} (hr : r ∈ rs) :
    Atomic.change l.loops (fun v => (v.toNat : Int)) b r = filled b r - if allowedOn b r then 1 else 0 := by
  obtain ⟨⟨number, op⟩, exchanged⟩ := r
  cases exchanged with
  | none => cases op <;> simp [Atomic.change, filled, allowedOn]
  | some p =>
    obtain ⟨old, new⟩ := p
    have hnew := (h.exchanged_of_mem (P := fun _ _ => True) (fun _ => trivial)
      (fun _ _ _ _ _ => trivial) hr rfl).2
    cases op with
    | requestAllowedHelper headers b' =>
      have htake := takeToken_toNat hnew
      by_cases hb : b' = b
      · simp only [Atomic.change, filled, allowedOn, LocalRateLimiterImpl.loops, Helper.bucket, hb]
        simp only [if_true, decide_true, Option.isSome_some, Bool.and_true]
        omega
      · simp [Atomic.change, filled, allowedOn, LocalRateLimiterImpl.loops, Helper.bucket, hb]
    | onFillTimerHelper b' =>
      by_cases hb : b' = b
      · simp [Atomic.change, filled, allowedOn, LocalRateLimiterImpl.loops, Helper.bucket, hb]
      · simp [Atomic.change, filled, allowedOn, LocalRateLimiterImpl.loops, Helper.bucket, hb]

theorem sum_change (h : Sequential l.loops cells₀ rs cells) (b : Bucket) :
    (rs.map (Atomic.change l.loops (fun v => (v.toNat : Int)) b)).sum =
      (rs.map (filled b)).sum - rs.countP (allowedOn b) := by
  have hall : ∀ qs : List (Return (Helper H) UInt32), (∀ r ∈ qs, r ∈ rs) →
      (qs.map (Atomic.change l.loops (fun v => (v.toNat : Int)) b)).sum =
        (qs.map (filled b)).sum - qs.countP (allowedOn b) := by
    intro qs
    induction qs with
    | nil => intro _; rfl
    | cons r qs ih =>
      intro hmem
      have hrest := ih fun q hq => hmem q (List.mem_cons_of_mem r hq)
      have hr := change_eq h b (hmem r List.mem_cons_self)
      simp only [List.map_cons, List.sum_cons, List.countP_cons, hrest, hr]
      split <;> push_cast <;> omega
  exact hall rs fun r hr => hr

end Sequential

theorem tokensTaken_le [DecidableEq θ] {s : State θ (Helper H) Bucket UInt32} (hs : Numbered s) (n : Nat) :
    tokensTaken s n ≤ 1 := by
  calc tokensTaken s n
      ≤ s.returns.countP (fun r => r.call.number = n) := by
        apply List.countP_mono_left
        intro r _ hr
        simp only [Bool.and_eq_true] at hr
        exact hr.1
    _ = (s.returns.map fun r => r.call.number).count n := by
        rw [List.count_eq_countP, List.countP_map]
        rfl
    _ ≤ 1 := List.nodup_iff_count.1 hs.once n

/-- **For every interleaving** of requests and fills the tokens of a limiter add up. -/
theorem tokens_accounted [DecidableEq θ] {fillInterval now : Nat} {maxTokens tokensPerFill : UInt32}
    {conditions : List (ConditionConfig H)} {cfg : LocalRateLimitConfig H} {l : LocalRateLimiterImpl H}
    (hnew : LocalRateLimiterImpl.new fillInterval maxTokens tokensPerFill now conditions cfg = .ok l)
    (es : List (ThreadEvent θ H)) : Accounted l (l.interleave es) := by
  have hseq : Sequential l.loops _ (l.interleave es).returns (l.interleave es).cells :=
    Atomic.run_sequential l.loops _ (es.flatMap l.accesses)
  have hnum : Numbered (l.interleave es) := Atomic.run_numbered l.loops _ (es.flatMap l.accesses)
  refine ⟨?_, ?_, ?_, tokensTaken_le hnum, hnum.returned, ?_⟩
  · -- a full bucket, and no loop leads out of it
    refine hseq.invariant (P := fun b v => ∀ bucket, l.tokenBucket b = some bucket →
      v.toNat ≤ bucket.maxTokens.toNat)
      (fun b bucket hb => ?_) fun op v new hv hupdate => update_within hupdate hv
    rw [LocalRateLimiterImpl.tokenState_of_new hnew hb]
  · intro r hr headers b old new hop hx
    have hupdate :=
      (hseq.exchanged_of_mem (P := fun _ _ => True) (fun _ => trivial) (fun _ _ _ _ _ => trivial) hr hx).2
    rw [hop] at hupdate
    exact (takeToken_toNat hupdate).symm
  · intro b bucket hb
    have hcell := hseq.measure_eq (fun v => (v.toNat : Int)) b
    rw [sum_change hseq b] at hcell
    simp only [LocalRateLimiterImpl.tokenState_of_new hnew hb] at hcell
    omega
  · intro headers b hmem
    rcases Atomic.mem_calls_run l.loops _ _ hmem with hmem | ⟨t, ht⟩
    · cases hmem
    · -- the call was made by a request that found this bucket
      obtain ⟨e, -, he⟩ := List.mem_flatMap.1 ht
      cases e with
      | requestAllowed t' headers' =>
        simp only [LocalRateLimiterImpl.accesses] at he
        split at he
        · next b' hb' =>
          cases List.mem_singleton.1 he
          exact LocalRateLimiterImpl.firstMatch_of_target hb'
        · cases he
      | onFillTimerHelper t' b' =>
        simp only [LocalRateLimiterImpl.accesses] at he
        split at he
        · cases List.mem_singleton.1 he
        · cases he
      | load t' => cases List.mem_singleton.1 he
      | compareExchangeWeak t' spurious => cases List.mem_singleton.1 he

/-- Both conditions match the header 1, the second one 2 as well. -/
def twoConditions : List (ConditionConfig Nat) :=
  [⟨[(· == 1)], { maxTokens := 1, fillInterval := some 100 }⟩,
    ⟨[(· ≤ 2)], { maxTokens := 5, fillInterval := some 100 }⟩]

def threeBuckets : LocalRateLimiterImpl Nat :=
  { hasTokenBucket := true, globalTokenBucket := { maxTokens := 2, tokensPerFill := 1, fillInterval := 100 }
    globalTokenState := { tokens := 2 }, conditions :=
      twoConditions.map (·.toCondition 0), timerDuration := 100 }

/-- Two requests load the one token of the first condition. One exchange fails for no reason, then
one of them takes the token; a fill adds another, which the other request takes. A request with 2
goes to the second condition, one with 3 to the global bucket. -/
def fourRequests : List (ThreadEvent Nat Nat) :=
  [.requestAllowed 0 1, .requestAllowed 1 1, .load 0, .load 1, .compareExchangeWeak 0 true,
    .compareExchangeWeak 0 false,
    .onFillTimerHelper 2 (.condition 0), .load 2, .compareExchangeWeak 2 false, .compareExchangeWeak 1 false,
    .requestAllowed 3 2, .load 3, .compareExchangeWeak 3 false, .requestAllowed 3 3, .load 3,
      .compareExchangeWeak 3 false]

/-- The requests take what there is, each from its own bucket. -/
theorem tokens_accounted_conditions :
    LocalRateLimiterImpl.new 100 2 1 0 twoConditions { tokenBucket := some {} } = .ok threeBuckets ∧
      [.condition 0, .condition 1, .global].map (threeBuckets.interleave fourRequests).cells = [0, 4, 1] ∧
      (threeBuckets.interleave fourRequests).returns.countP (allowedOn (.condition 0)) = 2 ∧
      ((threeBuckets.interleave fourRequests).returns.map (filled (.condition 0))).sum = 1 ∧
      Accounted threeBuckets (threeBuckets.interleave fourRequests) :=
  ⟨rfl, by decide, by decide, by decide,
    tokens_accounted (rfl :
      LocalRateLimiterImpl.new 100 2 1 0 twoConditions { tokenBucket := some {} } = _) _⟩

end MetaProtocolProxy.LocalRateLimit
