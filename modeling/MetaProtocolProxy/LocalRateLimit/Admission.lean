import MetaProtocolProxy.LocalRateLimit.Limiter
/-
# How many requests a bucket admits (local_ratelimit_impl.cc:12-155)

A bucket should admit at most `max_tokens` requests, and `tokens_per_fill` more for each
`fill_interval` since the limiter was made. A condition's bucket does: its fills are an interval
apart, the first an interval after its construction. The global bucket's `fill_time_` is the clock's
epoch until the first fill, so its first fill is at the first tick, and a condition with a shorter
interval makes the timer tick early.

* `admitted_within_iff` — the bound holds of a bucket in every run exactly if it is `Paced`.
* `early_fill_admits` — one condition of 50 ms, and the global bucket is filled at 50 ms, not at 1
  s.
-/
namespace MetaProtocolProxy.LocalRateLimit

variable {H : Type}

/-- A limiter in time: when its timer was enabled, the time, and the requests admitted so far, with
the bucket that admitted them and when. -/
structure Clocked (H : Type) where
  limiter : LocalRateLimiterImpl H
  enabled : Nat
  now : Nat
  admitted : List (Bucket × Nat) := []

inductive TimedEvent (H : Type)
  | tick (time : Nat)
  | request (time : Nat) (headers : H)

/-- `onFillTimer` (local_ratelimit_impl.cc:71-74) and `requestAllowed`. -/
def Clocked.step (s : Clocked H) : TimedEvent H → Clocked H
  | .tick time =>
    { s with limiter := s.limiter.onFillTimerConditionHelper time, enabled := time, now := time }
  | .request time headers =>
    let (allowed, limiter) := s.limiter.requestAllowed headers
    let admitted := match s.limiter.target headers with
      | some b => if allowed then s.admitted ++ [(b, time)] else s.admitted
      | none => s.admitted
    { s with limiter, now := time, admitted }

/-- Time does not go back, and the timer does not fire early. -/
def Timely (s : Clocked H) : TimedEvent H → Prop
  | .tick time => s.now ≤ time ∧ s.enabled + s.limiter.timerDuration * millisecond ≤ time
  | .request time _ => s.now ≤ time

instance (s : Clocked H) : (e : TimedEvent H) → Decidable (Timely s e)
  | .tick time =>
    inferInstanceAs (Decidable (s.now ≤ time ∧ s.enabled + s.limiter.timerDuration * millisecond ≤ time))
  | .request time _ => inferInstanceAs (Decidable (s.now ≤ time))

/-- A limiter that has just been made. -/
def Clocked.start (l : LocalRateLimiterImpl H) (now : Nat) : Clocked H :=
  { limiter := l, enabled := now, now := now }

/-- The requests the bucket `b` has admitted until a time. -/
def Clocked.admittedBy (s : Clocked H) (b : Bucket) (time : Nat) : Nat :=
  s.admitted.countP fun a => a.1 = b && a.2 ≤ time

/-- All requests the bucket `b` has admitted. -/
def Clocked.total (s : Clocked H) (b : Bucket) : Nat := s.admitted.countP fun a => a.1 = b

/-- The length of a fill interval on the clock. -/
def TokenBucket.interval (bucket : TokenBucket) : Nat := bucket.fillInterval * millisecond

/-- When a bucket admits no more than it should: it is a condition's, or the clock started with the
limiter, or the timer does not tick within the bucket's interval, or the first fill adds nothing, or
no request is for it. -/
def Paced (l : LocalRateLimiterImpl H) (now : Nat) (bucket : TokenBucket) : Bucket → Prop
  | .condition _ => True
  | .global =>
    now = 0 ∨ bucket.fillInterval ≤ l.timerDuration ∨ bucket.maxTokens = 0 ∨ bucket.tokensPerFill = 0 ∨
    ∀ headers, l.target headers ≠ some .global

section Refill

variable {time start fills total : Nat} {s : TokenState} {bucket : TokenBucket}

theorem refill_cases (time : Nat) (s : TokenState) (bucket : TokenBucket) :
    refill time s bucket = s ∨ (bucket.interval ≤ time - s.fillTime ∧ (refill time s bucket).fillTime = time ∧
      (refill time s bucket).tokens.toNat ≤ bucket.maxTokens.toNat ∧
      (refill time s bucket).tokens.toNat ≤ s.tokens.toNat + bucket.tokensPerFill.toNat) := by
  by_cases hdue : (time - s.fillTime) / millisecond ≥ bucket.fillInterval
  · right
    rw [refill, if_pos hdue]
    refine ⟨(Nat.le_div_iff_mul_le (by decide)).1 hdue, rfl, ?_⟩
    exact addTokens_toNat (v := s.tokens) rfl
  · left
    rw [refill, if_neg hdue]

/-- The tokens given out and left are covered by the fills so far, which are an interval apart. -/
def Budget (start : Nat) (bucket : TokenBucket) (s : TokenState) (total : Nat) : Prop :=
  ∃ fills, total + s.tokens.toNat ≤ bucket.maxTokens.toNat + bucket.tokensPerFill.toNat * fills ∧
    fills * bucket.interval ≤ s.fillTime - start

theorem Budget.refill (h : Budget start bucket s total) (htime : s.fillTime ≤ time)
    (hpaced : start ≤ s.fillTime ∨ start + bucket.interval ≤ time ∨ bucket.maxTokens = 0 ∨
      bucket.tokensPerFill = 0) :
    Budget start bucket (refill time s bucket) total := by
  obtain ⟨fills, hcovered, hapart⟩ := h
  rcases refill_cases time s bucket with hsame | ⟨hdue, hfill, hmax, hsum⟩
  · rw [hsame]
    exact ⟨fills, hcovered, hapart⟩
  · have hmul : (fills + 1) * bucket.interval = fills * bucket.interval + bucket.interval := Nat.succ_mul _ _
    have hmore : bucket.tokensPerFill.toNat * (fills + 1) =
        bucket.tokensPerFill.toNat * fills + bucket.tokensPerFill.toNat := Nat.mul_succ _ _
    rcases hpaced with hset | hfirst | hzero | hzero
    · refine ⟨fills + 1, by omega, ?_⟩
      rw [hfill]
      omega
    · refine ⟨fills + 1, by omega, ?_⟩
      rw [hfill]
      omega
    · rw [hzero] at hmax
      have h0 : (0 : UInt32).toNat = 0 := rfl
      exact ⟨fills, by omega, by rw [hfill]; omega⟩
    · rw [hzero] at hsum
      have h0 : (0 : UInt32).toNat = 0 := rfl
      exact ⟨fills, by omega, by rw [hfill]; omega⟩

theorem Budget.le (h : Budget start bucket s total) (hpos : 0 < bucket.interval) {T : Nat}
    (hT : s.fillTime ≤ start + T) :
    total ≤ bucket.maxTokens.toNat + bucket.tokensPerFill.toNat * (T / bucket.interval) := by
  obtain ⟨fills, hcovered, hapart⟩ := h
  have hfills : fills ≤ T / bucket.interval := by
    rw [Nat.le_div_iff_mul_le hpos]
    omega
  have := Nat.mul_le_mul_left bucket.tokensPerFill.toNat hfills
  omega

end Refill

section Steps

variable {s : Clocked H} {b : Bucket} {time : Nat} {headers : H}

theorem Clocked.admittedBy_le_total (s : Clocked H) (b : Bucket) (time : Nat) :
    s.admittedBy b time ≤ s.total b := by
  apply List.countP_mono_left
  intro a _ ha
  simp only [Bool.and_eq_true] at ha
  exact ha.1

inductive Requested (s : Clocked H) (time : Nat) (headers : H) (s' : Clocked H) : Prop
  | unchecked (ht : s.limiter.target headers = none) (hs : s' = { s with now := time })
  | refused {b : Bucket} (ht : s.limiter.target headers = some b) (htokens :
      (s.limiter.tokenState b).tokens = 0)
    (hadmitted : s'.admitted = s.admitted) (hstates : s'.limiter.tokenState = s.limiter.tokenState)
  | granted {b : Bucket} (ht : s.limiter.target headers = some b) (htokens :
      (s.limiter.tokenState b).tokens ≠ 0)
    (hadmitted : s'.admitted = s.admitted ++ [(b, time)])
    (hstates : ∀ b', s'.limiter.tokenState b' = if b' = b then
      { s.limiter.tokenState b with tokens := (s.limiter.tokenState b).tokens - 1 }
        else s.limiter.tokenState b')

theorem step_request (s : Clocked H) (time : Nat) (headers : H) :
    Requested s time headers (s.step (.request time headers)) := by
  cases ht : s.limiter.target headers with
  | none =>
    refine .unchecked ht ?_
    simp [Clocked.step, ht, LocalRateLimiterImpl.requestAllowed]
  | some b =>
    by_cases htokens : (s.limiter.tokenState b).tokens = 0
    · obtain ⟨hallowed, hstates⟩ := LocalRateLimiterImpl.requestAllowed_refused ht htokens
      exact .refused ht htokens (by simp [Clocked.step, ht, hallowed]) hstates
    · obtain ⟨hallowed, hstates⟩ := LocalRateLimiterImpl.requestAllowed_granted ht htokens
      exact .granted ht htokens (by simp [Clocked.step, ht, hallowed]) hstates

theorem step_sameConfig (s : Clocked H) (e : TimedEvent H) : s.limiter.SameConfig (s.step e).limiter := by
  cases e with
  | tick time => exact LocalRateLimiterImpl.onFillTimerConditionHelper_sameConfig time
  | request time headers => exact LocalRateLimiterImpl.requestAllowed_sameConfig headers

/-- One more request admitted by `b`. -/
theorem admitted_append {s' : Clocked H} (h : s'.admitted = s.admitted ++ [(b, time)]) (b' : Bucket) :
    s'.total b' = s.total b' + (if b = b' then 1 else 0) ∧
      ∀ until_, s'.admittedBy b' until_ = s.admittedBy b' until_ + if b = b' ∧
        time ≤ until_ then 1 else 0 := by
  simp [Clocked.total, Clocked.admittedBy, h, List.countP_append, List.countP_cons]

end Steps

/-! ## A paced bucket -/

/-- What holds of the bucket `b` in every run of a limiter made at `start`, if it is paced. -/
structure Within (l : LocalRateLimiterImpl H) (start : Nat) (b : Bucket) (bucket : TokenBucket)
    (s : Clocked H) : Prop where
  config : l.SameConfig s.limiter
  enabled : start ≤ s.enabled
  recent : (s.limiter.tokenState b).fillTime ≤ s.now
  paced : start ≤ (s.limiter.tokenState b).fillTime ∨ bucket.fillInterval ≤ l.timerDuration ∨
    bucket.maxTokens = 0 ∨ bucket.tokensPerFill = 0
  budget : Budget start bucket (s.limiter.tokenState b) (s.total b)
  bound : ∀ T, s.admittedBy b (start + T) ≤
    bucket.maxTokens.toNat + bucket.tokensPerFill.toNat * (T / bucket.interval)

namespace Within

variable {l : LocalRateLimiterImpl H} {start time : Nat} {b : Bucket} {bucket : TokenBucket}
    {s : Clocked H} {headers : H}

theorem tick (h : Within l start b bucket s) (hb : l.tokenBucket b = some bucket)
    (htimely : Timely s (.tick time)) : Within l start b bucket (s.step (.tick time)) := by
  obtain ⟨hnow, henabled⟩ := htimely
  rw [h.config.timerDuration] at henabled
  have hstate : (s.step (.tick time)).limiter.tokenState b = refill time (s.limiter.tokenState b) bucket :=
    LocalRateLimiterImpl.tokenState_onFillTimerConditionHelper (h.config.tokenBucket ▸ hb) time
  have hstart := h.enabled
  have hrecent := h.recent
  have hbudget : Budget start bucket (refill time (s.limiter.tokenState b) bucket) (s.total b) := by
    refine h.budget.refill (hrecent.trans hnow) ?_
    rcases h.paced with hset | hslow | hzero
    · exact .inl hset
    · -- the timer was enabled at the start or later
      have := Nat.mul_le_mul_right millisecond hslow
      exact .inr (.inl (by unfold TokenBucket.interval; omega))
    · exact .inr (.inr hzero)
  have hfill : (refill time (s.limiter.tokenState b) bucket).fillTime ≤ time ∧
      (start ≤ (s.limiter.tokenState b).fillTime →
          start ≤ (refill time (s.limiter.tokenState b) bucket).fillTime) := by
    rcases refill_cases time (s.limiter.tokenState b) bucket with hsame | ⟨-, hfill, -, -⟩
    · rw [hsame]
      exact ⟨hrecent.trans hnow, id⟩
    · rw [hfill]
      exact ⟨le_rfl, fun hset => by omega⟩
  refine ⟨h.config.trans (step_sameConfig s _), ?_, ?_, ?_, ?_, h.bound⟩
  · exact hstart.trans ((Nat.le_add_right _ _).trans henabled)
  · rw [hstate]
    exact hfill.1
  · rw [hstate]
    exact h.paced.imp_left hfill.2
  · rw [hstate]
    exact hbudget

/-- A request that `b` does not admit. -/
theorem of_same (h : Within l start b bucket s) {s' : Clocked H} (hconfig : l.SameConfig s'.limiter)
    (henabled : s'.enabled = s.enabled) (hnow : s.now ≤ s'.now) (htotal : s'.total b = s.total b)
    (hby : ∀ until_, s'.admittedBy b until_ = s.admittedBy b until_)
    (hstate : s'.limiter.tokenState b = s.limiter.tokenState b) : Within l start b bucket s' := by
  refine ⟨hconfig, henabled ▸ h.enabled, ?_, ?_, ?_, fun T => ?_⟩
  · rw [hstate]
    exact h.recent.trans hnow
  · rw [hstate]
    exact h.paced
  · rw [hstate, htotal]
    exact h.budget
  · rw [hby]
    exact h.bound T

theorem granted (h : Within l start b bucket s) (hpos : 0 < bucket.interval) (htimely : s.now ≤ time)
    (htokens : (s.limiter.tokenState b).tokens ≠ 0) {s' : Clocked H} (hconfig : l.SameConfig s'.limiter)
    (henabled : s'.enabled = s.enabled) (hnow : s'.now = time)
    (hadmitted : s'.admitted = s.admitted ++ [(b, time)]) (hstate : s'.limiter.tokenState b =
      { s.limiter.tokenState b with tokens := (s.limiter.tokenState b).tokens - 1 }) :
        Within l start b bucket s' := by
  have hless : ((s.limiter.tokenState b).tokens - 1).toNat + 1 = (s.limiter.tokenState b).tokens.toNat :=
    takeToken_toNat (by rw [takeToken, if_neg htokens])
  have hcount := admitted_append hadmitted b
  simp only [if_true, true_and] at hcount
  have hrecent : (s'.limiter.tokenState b).fillTime ≤ time := by
    rw [hstate]
    exact h.recent.trans htimely
  have hbudget : Budget start bucket (s'.limiter.tokenState b) (s'.total b) := by
    obtain ⟨fills, hcovered, hapart⟩ := h.budget
    rw [hstate, hcount.1]
    exact ⟨fills, by simp only; omega, hapart⟩
  refine ⟨hconfig, henabled ▸ h.enabled, hnow ▸ hrecent, ?_, hbudget, fun T => ?_⟩
  · rw [hstate]
    exact h.paced
  · by_cases hT : time ≤ start + T
    · exact (s'.admittedBy_le_total b _).trans (hbudget.le hpos (hrecent.trans hT))
    · rw [hcount.2, if_neg hT]
      exact h.bound T

theorem request (h : Within l start b bucket s) (hpos : 0 < bucket.interval)
    (htimely : Timely s (.request time headers)) :
    Within l start b bucket (s.step (.request time headers)) := by
  have hconfig := h.config.trans (step_sameConfig s (.request time headers))
  cases step_request s time headers with
  | unchecked ht hs =>
    rw [hs] at hconfig ⊢
    exact h.of_same hconfig rfl htimely rfl (fun _ => rfl) rfl
  | refused ht htokens hadmitted hstates =>
    refine h.of_same hconfig rfl htimely ?_ (fun until_ => ?_) (congrFun hstates b)
    · rw [Clocked.total, hadmitted, Clocked.total]
    · rw [Clocked.admittedBy, hadmitted, Clocked.admittedBy]
  | @granted b' ht htokens hadmitted hstates =>
    by_cases hb : b' = b
    · subst hb
      exact h.granted hpos htimely htokens hconfig rfl rfl hadmitted (by rw [hstates, if_pos rfl])
    · -- another bucket's token
      have hcount := admitted_append hadmitted b
      simp only [hb, if_false, false_and, Nat.add_zero] at hcount
      refine h.of_same hconfig rfl htimely hcount.1 hcount.2 ?_
      rw [hstates, if_neg fun h => hb h.symm]

theorem step (h : Within l start b bucket s) (hb : l.tokenBucket b = some bucket) (hpos : 0 < bucket.interval)
    {e : TimedEvent H} (htimely : Timely s e) : Within l start b bucket (s.step e) := by
  cases e with
  | tick time => exact h.tick hb htimely
  | request time headers => exact h.request hpos htimely

end Within

section New

variable {fillInterval start : Nat} {maxTokens tokensPerFill : UInt32} {conditions : List (ConditionConfig H)}
  {cfg : LocalRateLimitConfig H} {l : LocalRateLimiterImpl H} {b : Bucket} {bucket : TokenBucket}

theorem total_of_unreached (start : Nat) (hnone : ∀ headers, l.target headers ≠ some b)
    (es : List (TimedEvent H)) :
    (Runs.run Clocked.step (Clocked.start l start) es).total b = 0 := by
  have hinv := @Runs.run_invariant _ _ Clocked.step (fun s => l.SameConfig s.limiter ∧
    s.total b = 0) (fun s e h => ?_) (Clocked.start l start) ⟨⟨rfl, rfl, rfl⟩, rfl⟩ es
  · exact hinv.2
  · refine ⟨h.1.trans (step_sameConfig s e), ?_⟩
    cases e with
    | tick time => exact h.2
    | request time headers =>
      cases step_request s time headers with
      | unchecked _ hs => rw [hs]; exact h.2
      | refused _ _ hadmitted _ => rw [Clocked.total, hadmitted]; exact h.2
      | @granted b' ht _ hadmitted _ =>
        rw [(admitted_append hadmitted b).1, h.2, if_neg]
        rintro rfl
        exact hnone headers (h.1.target ▸ ht)

theorem within_of_paced
    (hnew : LocalRateLimiterImpl.new fillInterval maxTokens tokensPerFill start conditions cfg = .ok l)
    (hb : l.tokenBucket b = some bucket) (hpos : 0 < bucket.fillInterval) (hpaced : Paced l start bucket b)
    {es : List (TimedEvent H)} (hes : Runs.Guarded Clocked.step Timely (Clocked.start l start) es) (T : Nat) :
    (Runs.run Clocked.step (Clocked.start l start) es).admittedBy b (start + T) ≤
      bucket.maxTokens.toNat + bucket.tokensPerFill.toNat * (T / bucket.interval) := by
  have hinterval : 0 < bucket.interval := Nat.mul_pos hpos (by decide)
  have hstate := LocalRateLimiterImpl.tokenState_of_new hnew hb
  have hrun : (start ≤ (l.tokenState b).fillTime ∨ bucket.fillInterval ≤ l.timerDuration ∨
      bucket.maxTokens = 0 ∨
      bucket.tokensPerFill = 0) →
        (Runs.run Clocked.step (Clocked.start l start) es).admittedBy b (start + T) ≤
        bucket.maxTokens.toNat + bucket.tokensPerFill.toNat * (T / bucket.interval) := by
    intro hp
    have hwithin : Within l start b bucket (Clocked.start l start) := by
      refine ⟨⟨rfl, rfl, rfl⟩, le_rfl, ?_, hp, ⟨0, ?_, ?_⟩, fun T => ?_⟩
      · rw [Clocked.start, hstate]
        simp only
        split <;> omega
      · simp [Clocked.start, hstate, Clocked.total]
      · simp
      · simp [Clocked.start, Clocked.admittedBy]
    exact (Runs.Guarded.invariant (fun s e h htimely => h.step hb hinterval htimely) hwithin hes).bound T
  cases b with
  | condition i => exact hrun (.inl (by simp [hstate]))
  | global =>
    rcases hpaced with hzero | hslow | hmax | hfill | hnone
    · exact hrun (.inl (by omega))
    · exact hrun (.inr (.inl hslow))
    · exact hrun (.inr (.inr (.inl hmax)))
    · exact hrun (.inr (.inr (.inr hfill)))
    · have htotal := total_of_unreached start hnone es
      have := Clocked.admittedBy_le_total (Runs.run Clocked.step (Clocked.start l start) es) .global
        (start + T)
      omega

end New

/-! ## An early fill -/

section Early

variable {s : Clocked H} {headers : H} {b : Bucket}

structure Spent (s : Clocked H) (b : Bucket) (k : Nat) (s' : Clocked H) : Prop where
  config : s.limiter.SameConfig s'.limiter
  enabled : s'.enabled = s.enabled
  now : s'.now = s.now
  admitted : s'.admitted = s.admitted ++ List.replicate k (b, s.now)
  tokens : (s'.limiter.tokenState b).tokens.toNat + k = (s.limiter.tokenState b).tokens.toNat
  fillTime : (s'.limiter.tokenState b).fillTime = (s.limiter.tokenState b).fillTime

theorem step_spent (ht : s.limiter.target headers = some b) (htokens : (s.limiter.tokenState b).tokens ≠ 0) :
    Spent s b 1 (s.step (.request s.now headers)) := by
  cases step_request s s.now headers with
  | unchecked ht' _ => rw [ht] at ht'; cases ht'
  | refused ht' h0 _ _ =>
    rw [ht] at ht'
    cases ht'
    exact absurd h0 htokens
  | granted ht' _ hadmitted hstates =>
    rw [ht] at ht'
    cases ht'
    have hstate := hstates b
    rw [if_pos rfl] at hstate
    refine ⟨step_sameConfig s _, rfl, rfl, hadmitted, ?_, ?_⟩
    · rw [hstate]
      exact takeToken_toNat (by rw [takeToken, if_neg htokens])
    · rw [hstate]

theorem run_spent (ht : s.limiter.target headers = some b) (k : Nat)
    (hk : k ≤ (s.limiter.tokenState b).tokens.toNat) :
    Runs.Guarded Clocked.step Timely s (List.replicate k (.request s.now headers)) ∧
      Spent s b k (Runs.run Clocked.step s (List.replicate k (.request s.now headers))) := by
  induction k generalizing s with
  | zero => exact ⟨trivial, ⟨rfl, rfl, rfl⟩, rfl, rfl, by simp, by simp, rfl⟩
  | succ k ih =>
    have htokens : (s.limiter.tokenState b).tokens ≠ 0 := by
      intro h0
      rw [h0] at hk
      exact Nat.not_succ_le_zero k hk
    have hone := step_spent ht htokens
    have hless := hone.tokens
    obtain ⟨hguarded, hrest⟩ := ih (hone.config.target ▸ ht) (by omega)
    rw [hone.now] at hguarded hrest
    refine ⟨⟨le_rfl, hguarded⟩, ?_⟩
    refine ⟨hone.config.trans hrest.config, hrest.enabled.trans hone.enabled,
      hrest.now.trans hone.now, ?_, ?_, ?_⟩
    · rw [List.replicate_succ, Runs.run_cons, hrest.admitted, hone.admitted, hone.now, List.append_assoc]
      rfl
    · have := hrest.tokens
      rw [List.replicate_succ, Runs.run_cons]
      omega
    · exact hrest.fillTime.trans hone.fillTime

theorem refill_ne_zero {time : Nat} {s : TokenState} {bucket : TokenBucket}
    (hdue : bucket.interval ≤ time - s.fillTime)
    (hempty : s.tokens = 0) (hmax : bucket.maxTokens ≠ 0) (hfill : bucket.tokensPerFill ≠ 0) :
    (refill time s bucket).tokens ≠ 0 := by
  have hdue' : (time - s.fillTime) / millisecond ≥ bucket.fillInterval :=
    (Nat.le_div_iff_mul_le (by decide)).2 hdue
  rw [refill, if_pos hdue']
  simp only [onFillTimerHelper, Atomic.modify, addTokens, hempty, UInt32.zero_add]
  split
  · exact hfill
  · exact hmax

/-- **The first fill of the global bucket comes at the first tick.** If that is within the interval,
the bucket can admit more than its tokens. -/
theorem early_fill {l : LocalRateLimiterImpl H} {start : Nat} {bucket : TokenBucket}
    (hb : l.tokenBucket .global = some bucket)
    (hstate : l.tokenState .global = { tokens := bucket.maxTokens })
    (hstart : 0 < start) (hshort : l.timerDuration < bucket.fillInterval) (hmax : bucket.maxTokens ≠ 0)
    (hfill : bucket.tokensPerFill ≠ 0) (ht : l.target headers = some .global) :
    ∃ es, Runs.Guarded Clocked.step Timely (Clocked.start l start) es ∧ bucket.maxTokens.toNat <
      (Runs.run Clocked.step (Clocked.start l start) es).admittedBy .global
          (start + (bucket.interval - 1)) := by
  have hinterval : (l.timerDuration + 1) * millisecond ≤ bucket.interval := Nat.mul_le_mul_right _ hshort
  have hms : 0 < millisecond := by decide
  rw [Nat.add_mul, Nat.one_mul] at hinterval
  obtain ⟨time, htime⟩ : ∃ time, time = start + (bucket.interval - 1) := ⟨_, rfl⟩
  -- all tokens, just before the interval is over the tick, and one request more
  obtain ⟨hguarded, hspent⟩ :=
    run_spent (s := Clocked.start l start) ht bucket.maxTokens.toNat (by simp [Clocked.start, hstate])
  obtain ⟨s₁, hs₁⟩ : ∃ s₁, s₁ = Runs.run Clocked.step (Clocked.start l start)
    (List.replicate bucket.maxTokens.toNat (.request start headers)) := ⟨_, rfl⟩
  have hspent₁ : Spent (Clocked.start l start) .global bucket.maxTokens.toNat s₁ := hs₁ ▸ hspent
  have htick : Timely s₁ (.tick time) := by
    refine ⟨?_, ?_⟩
    · rw [hspent₁.now, htime]
      exact Nat.le_add_right _ _
    · rw [hspent₁.enabled, hspent₁.config.timerDuration, htime]
      simp only [Clocked.start]
      omega
  have hempty : (s₁.limiter.tokenState .global).tokens = 0 := by
    have htokens := hspent₁.tokens
    simp only [Clocked.start, hstate] at htokens
    exact UInt32.toNat_inj.1 (by simp; omega)
  have hstate₂ : (s₁.step (.tick time)).limiter.tokenState .global =
    refill time (s₁.limiter.tokenState .global) bucket :=
    LocalRateLimiterImpl.tokenState_onFillTimerConditionHelper (hspent₁.config.tokenBucket ▸ hb) time
  have htokens₂ : ((s₁.step (.tick time)).limiter.tokenState .global).tokens ≠ 0 := by
    rw [hstate₂]
    refine refill_ne_zero ?_ hempty hmax hfill
    rw [hspent₁.fillTime]
    simp only [Clocked.start, hstate]
    omega
  have ht₂ : (s₁.step (.tick time)).limiter.target headers = some .global :=
    (hspent₁.config.trans (step_sameConfig s₁ (.tick time))).target ▸ ht
  have hspent₃ := step_spent ht₂ htokens₂
  refine ⟨List.replicate bucket.maxTokens.toNat (.request start headers) ++ [.tick time,
    .request time headers], ?_, ?_⟩
  · rw [Runs.guarded_append, ← hs₁]
    exact ⟨hguarded, htick, le_rfl, trivial⟩
  · have hadmitted : (Runs.run Clocked.step (Clocked.start l start) (List.replicate bucket.maxTokens.toNat
        (.request start headers) ++ [.tick time, .request time headers])).admitted =
        List.replicate bucket.maxTokens.toNat (.global, start) ++ [(.global, time)] := by
      rw [Runs.run_append, ← hs₁]
      exact hspent₃.admitted.trans
        (by rw [show (s₁.step (.tick time)).admitted = s₁.admitted from rfl, hspent₁.admitted]; rfl)
    rw [Clocked.admittedBy, hadmitted, ← htime]
    simp [List.countP_append, List.countP_replicate, htime]

end Early

/-- **At most `max_tokens`, and `tokens_per_fill` more for each interval**: for every limiter the
constructor makes, a bucket keeps to this in every run exactly if it is paced. `T` is any time since
the construction. -/
theorem admitted_within_iff {fillInterval start : Nat} {maxTokens tokensPerFill : UInt32}
    {conditions : List (ConditionConfig H)} {cfg : LocalRateLimitConfig H} {l : LocalRateLimiterImpl H}
    (hnew : LocalRateLimiterImpl.new fillInterval maxTokens tokensPerFill start conditions cfg = .ok l)
    {b : Bucket} {bucket : TokenBucket} (hb : l.tokenBucket b = some bucket)
    (hpos : 0 < bucket.fillInterval) :
    (∀ es, Runs.Guarded Clocked.step Timely (Clocked.start l start) es → ∀ T,
      (Runs.run Clocked.step (Clocked.start l start) es).admittedBy b (start + T) ≤
        bucket.maxTokens.toNat + bucket.tokensPerFill.toNat * (T / bucket.interval)) ↔
          Paced l start bucket b := by
  constructor
  · intro hall
    cases b with
    | condition i => trivial
    | global =>
      by_contra hnot
      simp only [Paced, not_or, not_forall, not_not] at hnot
      obtain ⟨hstart, hshort, hmax, hfill, headers, ht⟩ := hnot
      obtain ⟨es, hes, hmore⟩ := early_fill hb (LocalRateLimiterImpl.tokenState_of_new hnew hb)
        (Nat.pos_of_ne_zero hstart) (Nat.lt_of_not_le hshort) hmax hfill ht
      have hle := hall es hes (bucket.interval - 1)
      have hinterval : 0 < bucket.interval := Nat.mul_pos hpos (by decide)
      rw [Nat.div_eq_of_lt (by omega), Nat.mul_zero] at hle
      omega
  · intro hpaced es hes T
    exact within_of_paced hnew hb hpos hpaced hes T

/-- A global bucket of one token a second beside a condition that is filled every 50 ms. -/
def twoIntervals : LocalRateLimiterImpl Bool :=
  { hasTokenBucket := true, globalTokenBucket := { maxTokens := 1, tokensPerFill := 1, fillInterval := 1000 }
    globalTokenState := { tokens := 1 }
    conditions :=
      [{ match_ := [id], tokenBucket := { maxTokens := 1, tokensPerFill := 1, fillInterval := 50 },
         tokenState := { tokens := 1, fillTime := 5000000000 } }]
    timerDuration := 50 }

def twoAdmissions : List (TimedEvent Bool) :=
  [.request 5000000000 false, .tick 5050000000, .request 5050000000 false]

/-- Both are admitted within 50 ms, where one token a second allows one. -/
theorem early_fill_admits :
    LocalRateLimiterImpl.new 1000 1 1 5000000000
        [{ metadata := [id], tokenBucket := { maxTokens := 1, fillInterval := some 50 } }]
      { tokenBucket := some {} } = .ok twoIntervals ∧
    Runs.Guarded Clocked.step Timely (Clocked.start twoIntervals 5000000000) twoAdmissions ∧
    ¬ (Runs.run Clocked.step (Clocked.start twoIntervals 5000000000) twoAdmissions).admittedBy .global
        (5000000000 + 50 * millisecond) ≤ 1 + 1 * (50 * millisecond / (1000 * millisecond)) := by
  refine ⟨rfl, ⟨?_, ⟨?_, ?_⟩, ?_, trivial⟩, ?_⟩
  all_goals decide

/-- The condition's own bucket keeps to its bound in every run. -/
theorem condition_within :
    LocalRateLimiterImpl.new 1000 1 1 5000000000
        [{ metadata := [id], tokenBucket := { maxTokens := 1, fillInterval := some 50 } }]
      { tokenBucket := some {} } = .ok twoIntervals ∧
    ∀ es, Runs.Guarded Clocked.step Timely (Clocked.start twoIntervals 5000000000) es → ∀ T,
      (Runs.run Clocked.step (Clocked.start twoIntervals 5000000000) es).admittedBy (.condition 0)
        (5000000000 + T) ≤ 1 + 1 * (T / (50 * millisecond)) := by
  have hnew : LocalRateLimiterImpl.new 1000 1 1 5000000000
      [{ metadata := [id], tokenBucket := { maxTokens := 1, fillInterval := some 50 } }]
        { tokenBucket := some {} } =
    .ok twoIntervals := rfl
  have hb : twoIntervals.tokenBucket (.condition 0) =
    some { maxTokens := 1, tokensPerFill := 1, fillInterval := 50 } := rfl
  exact ⟨hnew, (admitted_within_iff hnew hb (by decide)).2 trivial⟩

end MetaProtocolProxy.LocalRateLimit
