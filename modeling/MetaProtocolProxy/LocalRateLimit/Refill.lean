import Mathlib.Order.Bounds.Basic
import MetaProtocolProxy.LocalRateLimit.Limiter
/-
# What one fill adds, and how often the timer fires (local_ratelimit_impl.cc:12-65, 76-92)

A fill adds `tokens_per_fill_` to the counter, up to `max_tokens_`. The sum is a `uint32_t` and is
formed before the minimum is taken: if it wraps, it is smaller than what the bucket held, and the
fill takes tokens away (`fill_exact_iff`).

The timer fires at the smallest of the fill intervals. The loop that looks for it starts from 0 for
"none so far", but an interval of less than a millisecond reads as 0 too, and is then forgotten as
soon as another one follows (`timer_selected_iff`).
-/
namespace MetaProtocolProxy.LocalRateLimit

variable {H : Type}

/-! ## One fill -/

/-- The fill gives the minimum of the unbounded sum and the size of the bucket, and takes nothing
away. -/
structure FillsUp (s : TokenState) (bucket : TokenBucket) : Prop where
  tokens : (onFillTimerHelper s bucket).tokens.toNat =
    min bucket.maxTokens.toNat (s.tokens.toNat + bucket.tokensPerFill.toNat)
  grows : s.tokens.toNat ≤ (onFillTimerHelper s bucket).tokens.toNat

theorem tokens_onFillTimerHelper (s : TokenState) (bucket : TokenBucket) :
    (onFillTimerHelper s bucket).tokens.toNat =
      min bucket.maxTokens.toNat ((s.tokens.toNat + bucket.tokensPerFill.toNat) % 2 ^ 32) := by
  simp only [onFillTimerHelper, Atomic.modify, addTokens]
  have hsum : (s.tokens + bucket.tokensPerFill).toNat =
    (s.tokens.toNat + bucket.tokensPerFill.toNat) % 2 ^ 32 :=
    UInt32.toNat_add ..
  split
  · next hlt =>
    rw [UInt32.lt_iff_toNat_lt] at hlt
    omega
  · next hge =>
    rw [UInt32.lt_iff_toNat_lt] at hge
    omega

/-- A fill is exact as long as the sum fits 32 bits. -/
theorem fill_exact_iff (s : TokenState) (bucket : TokenBucket) (hfull : s.tokens ≤ bucket.maxTokens) :
    FillsUp s bucket ↔ s.tokens.toNat + bucket.tokensPerFill.toNat < 2 ^ 32 := by
  have htokens := tokens_onFillTimerHelper s bucket
  rw [UInt32.le_iff_toNat_le] at hfull
  have hfill := bucket.tokensPerFill.toNat_lt
  constructor
  · intro h
    by_contra hwraps
    -- the sum has lost 2 ^ 32, which is more than the fill has added
    have hgrows := h.grows
    omega
  · intro hfits
    rw [Nat.mod_eq_of_lt hfits] at htokens
    exact ⟨htokens, by omega⟩

/-- A bucket of ten with nine tokens, and three more. -/
theorem fill_exact_ten : FillsUp { tokens := 9 } { maxTokens := 10, tokensPerFill := 3 } :=
  (fill_exact_iff _ _ (by decide)).2 (by decide)

/-- A full bucket of the largest size: two tokens more leave one. -/
theorem full_bucket_emptied :
    (onFillTimerHelper { tokens := 4294967295 } { maxTokens := 4294967295, tokensPerFill := 2 }).tokens = 1 ∧
      ¬ FillsUp { tokens := 4294967295 } { maxTokens := 4294967295, tokensPerFill := 2 } := by
  have htokens :
      (onFillTimerHelper { tokens := 4294967295 }
          { maxTokens := 4294967295, tokensPerFill := 2 }).tokens = 1 := by
    decide
  refine ⟨htokens, fun h => ?_⟩
  have hgrows := h.grows
  rw [htokens] at hgrows
  exact absurd hgrows (by decide)

/-! ## The timer -/

/-- The fill intervals of a configuration as the code reads them; one of less than a millisecond is
0. -/
def LocalRateLimitConfig.intervals (cfg : LocalRateLimitConfig H) : List Nat :=
  (cfg.tokenBucket.bind (·.fillInterval)).toList ++ cfg.conditions.map (·.tokenBucket.fillInterval.getD 0)

def shorter (duration interval : Nat) : Nat :=
  if duration = 0 ∨ interval < duration then interval else duration

theorem timerDurationOf_intervals (cfg : LocalRateLimitConfig H) :
    timerDurationOf ((cfg.tokenBucket.getD {}).fillInterval.getD 0) cfg.conditions =
      cfg.intervals.foldl shorter 0 := by
  have hloop : ∀ duration, timerDurationOf duration cfg.conditions =
      (cfg.conditions.map (·.tokenBucket.fillInterval.getD 0)).foldl shorter duration := by
    intro duration
    rw [List.foldl_map]
    rfl
  rw [hloop, LocalRateLimitConfig.intervals, List.foldl_append]
  cases hbucket : cfg.tokenBucket with
  | none => rfl
  | some bucket =>
    cases hinterval : bucket.fillInterval with
    | none => simp [hinterval]
    | some interval => simp [hinterval, shorter]

theorem foldl_shorter_zero (before after : List Nat) (duration : Nat) :
    (before ++ 0 :: after).foldl shorter duration = after.foldl shorter 0 := by
  rw [List.foldl_append, List.foldl_cons]
  congr 1
  unfold shorter
  split
  · rfl
  · omega

theorem shorter_eq {duration interval : Nat} (hd : duration ≠ 0) :
    shorter duration interval = min duration interval := by
  unfold shorter
  split <;> omega

theorem foldl_shorter_isLeast_cons {xs : List Nat} {duration : Nat} (hd : duration ≠ 0)
    (hpos : ∀ x ∈ xs, x ≠ 0) : IsLeast {x | x ∈ duration :: xs} (xs.foldl shorter duration) := by
  induction xs generalizing duration with
  | nil => simp
  | cons x xs ih =>
    have hx : x ≠ 0 := hpos x List.mem_cons_self
    obtain ⟨hmem, hleast⟩ :=
      ih (show min duration x ≠ 0 by omega) fun y hy => hpos y (List.mem_cons_of_mem x hy)
    have hstart := hleast (show min duration x ∈ _ from List.mem_cons_self)
    rw [List.foldl_cons, shorter_eq hd]
    constructor
    · rcases List.mem_cons.1 hmem with hmem | hmem
      · rw [Set.mem_ofPred_eq, hmem]
        rcases Nat.le_total duration x with h | h <;> simp [h]
      · exact List.mem_cons_of_mem _ (List.mem_cons_of_mem _ hmem)
    · intro y hy
      rcases List.mem_cons.1 hy with rfl | hy
      · exact hstart.trans (Nat.min_le_left _ _)
      · rcases List.mem_cons.1 hy with rfl | hy
        · exact hstart.trans (Nat.min_le_right _ _)
        · exact hleast (List.mem_cons_of_mem _ hy)

theorem foldl_shorter_isLeast {xs : List Nat} (hpos : ∀ x ∈ xs, x ≠ 0) (hne : xs ≠ []) :
    IsLeast {x | x ∈ xs} (xs.foldl shorter 0) := by
  cases xs with
  | nil => exact absurd rfl hne
  | cons x xs =>
    rw [List.foldl_cons, show shorter 0 x = x from if_pos (.inl rfl)]
    exact foldl_shorter_isLeast_cons (hpos x List.mem_cons_self) fun y hy =>
      hpos y (List.mem_cons_of_mem x hy)

/-- The limiter is refused just when an interval is below 50 ms or there is none, and its timer has
the smallest. -/
structure TimerSelected (cfg : LocalRateLimitConfig H) (now : Nat) : Prop where
  throws : (∃ e, cfg.rateLimiter now = .error e) ↔ cfg.intervals = [] ∨ ∃ x ∈ cfg.intervals, x < 50
  least : ∀ l, cfg.rateLimiter now = .ok l → IsLeast {x | x ∈ cfg.intervals} l.timerDuration

theorem rateLimiter_throws_iff (cfg : LocalRateLimitConfig H) (now : Nat) :
    (∃ e, cfg.rateLimiter now = .error e) ↔ cfg.intervals.foldl shorter 0 < 50 := by
  rw [← timerDurationOf_intervals]
  simp only [LocalRateLimitConfig.rateLimiter, LocalRateLimiterImpl.new]
  split
  · next hlt => simp [hlt]
  · next hge => simp [hge]

theorem timerDuration_rateLimiter {cfg : LocalRateLimitConfig H} {now : Nat} {l : LocalRateLimiterImpl H}
    (h : cfg.rateLimiter now = .ok l) : l.timerDuration = cfg.intervals.foldl shorter 0 := by
  rw [← timerDurationOf_intervals]
  simp only [LocalRateLimitConfig.rateLimiter, LocalRateLimiterImpl.new] at h
  split at h
  · cases h
  · cases h
    rfl

theorem last_zero (xs : List Nat) : (∀ x ∈ xs, x ≠ 0) ∨ ∃ before after, xs = before ++ 0 :: after ∧
    ∀ x ∈ after, x ≠ 0 := by
  by_cases hzero : 0 ∈ xs
  · right
    obtain ⟨after, before, hsplit, hnot⟩ := List.eq_append_cons_of_mem (List.mem_reverse.2 hzero)
    refine ⟨before.reverse, after.reverse, ?_, ?_⟩
    · rw [← List.reverse_reverse xs, hsplit]
      simp
    · intro x hx hx0
      exact hnot (hx0 ▸ List.mem_reverse.1 hx)
  · left
    intro x hx hx0
    exact hzero (hx0 ▸ hx)

/-- The timer is the right one as long as no interval of 0 is followed by intervals that are all
long enough. -/
theorem timer_selected_iff (cfg : LocalRateLimitConfig H) (now : Nat) :
    TimerSelected cfg now ↔
      ∀ before after, cfg.intervals = before ++ 0 :: after → after = [] ∨ ∃ x ∈ after, x < 50 := by
  constructor
  · intro h before after hsplit
    by_contra! hlong
    obtain ⟨hne, hlong⟩ := hlong
    -- the 0 asks for an exception, and the loop has forgotten it
    obtain ⟨hmem, -⟩ := foldl_shorter_isLeast (fun x hx => by have := hlong x hx; omega) hne
    have hthrows := h.throws.2 (.inr ⟨0, by simp [hsplit], by decide⟩)
    rw [rateLimiter_throws_iff, hsplit, foldl_shorter_zero] at hthrows
    have hge := hlong _ hmem
    omega
  · intro h
    rcases last_zero cfg.intervals with hpos | ⟨before, after, hsplit, hpos⟩
    · by_cases hne : cfg.intervals = []
      · have hthrows : ∃ e, cfg.rateLimiter now = .error e := by
          rw [rateLimiter_throws_iff, hne]
          decide
        obtain ⟨e, he⟩ := hthrows
        refine ⟨⟨fun _ => .inl hne, fun _ => ⟨e, he⟩⟩, fun l hl => ?_⟩
        rw [he] at hl
        cases hl
      · have hleast := foldl_shorter_isLeast hpos hne
        refine ⟨?_, fun l hl => timerDuration_rateLimiter hl ▸ hleast⟩
        rw [rateLimiter_throws_iff]
        constructor
        · intro hlt
          exact .inr ⟨_, hleast.1, hlt⟩
        · rintro (hnil | ⟨x, hx, hlt⟩)
          · exact absurd hnil hne
          · exact (hleast.2 hx).trans_lt hlt
    · have hlt : cfg.intervals.foldl shorter 0 < 50 := by
        rw [hsplit, foldl_shorter_zero]
        rcases h before after hsplit with rfl | ⟨x, hx, hlt⟩
        · decide
        · have hleast := foldl_shorter_isLeast hpos (List.ne_nil_of_mem hx)
          exact (hleast.2 hx).trans_lt hlt
      obtain ⟨e, he⟩ := (rateLimiter_throws_iff cfg now).2 hlt
      refine ⟨⟨fun _ => .inr ⟨0, by simp [hsplit], by decide⟩, fun _ => ⟨e, he⟩⟩, fun l hl => ?_⟩
      rw [he] at hl
      cases hl

/-- Two conditions, the first with an interval of less than a millisecond. -/
def impatient : LocalRateLimitConfig Unit where
  conditions :=
    [⟨[], { maxTokens := 1, fillInterval := some 0 }⟩, ⟨[], { maxTokens := 1, fillInterval := some 100 }⟩]

/-- The limiter is made although an interval is below 50 ms, and its timer is not the smallest. -/
theorem impatient_accepted :
    impatient.intervals = [0, 100] ∧ (∃ l, impatient.rateLimiter 0 = .ok l ∧ l.timerDuration = 100) ∧
      ¬ TimerSelected impatient 0 := by
  refine ⟨rfl, ⟨_, rfl, rfl⟩, fun h => ?_⟩
  obtain ⟨e, he⟩ := h.throws.2 (.inr ⟨0, by decide, by decide⟩)
  cases he

end MetaProtocolProxy.LocalRateLimit
