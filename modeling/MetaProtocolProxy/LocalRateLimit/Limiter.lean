import MetaProtocolProxy.Codec
import MetaProtocolProxy.Lib.Atomic
/-
# The local rate limiter (filters/local_ratelimit: local_ratelimit_impl.h, local_ratelimit_impl.cc)

`LocalRateLimiterImpl` keeps a token bucket for the whole service, if one is configured, and one for
each condition. A request takes a token of the first condition it matches, else of the global
bucket. One timer, at the smallest of the fill intervals, adds tokens to each bucket whose last fill
is its interval ago.

The counters are atomics that the worker threads and the timer share. What their loops of load and
weak compare-exchange do to a counter is `takeToken` and `addTokens`; here a call runs undisturbed
(`Atomic.modify`), and the interleavings are in LocalRateLimit.Interleaving.

| here | there |
| --- | --- |
| `H → Bool` in `match_` | `Http::HeaderUtility::HeaderData`, as the predicate it is on a header map |
| `Bucket` | which of the `TokenState`s and `TokenBucket`s of the limiter is meant |
| `now` | what `time_source_.monotonicTime()` returns, in nanoseconds |
| `fillInterval`, `timerDuration` | in milliseconds |
| `fillTime := 0` | a `MonotonicTime` that was never set |

`config_` is only asked whether it has a token bucket.
-/
namespace MetaProtocolProxy.LocalRateLimit

variable {H : Type}

def millisecond : Nat := 1000000

/-- `envoy.type.v3.TokenBucket`. -/
structure TokenBucketConfig where
  maxTokens : UInt32 := 0
  tokensPerFill : Option UInt32 := none
  fillInterval : Option Nat := none

/-- A condition of the configuration, with the matchers `buildHeaderDataVector` makes of it. -/
structure ConditionConfig (H : Type) where
  metadata : List (H → Bool)
  tokenBucket : TokenBucketConfig

structure LocalRateLimitConfig (H : Type) where
  tokenBucket : Option TokenBucketConfig := none
  conditions : List (ConditionConfig H) := []

/-- `RateLimit::TokenBucket`. -/
structure TokenBucket where
  maxTokens : UInt32 := 0
  tokensPerFill : UInt32 := 0
  fillInterval : Nat := 0
  deriving DecidableEq, Repr

structure TokenState where
  tokens : UInt32 := 0
  fillTime : Nat := 0
  deriving DecidableEq, Repr

structure LocalRateLimitCondition (H : Type) where
  tokenState : TokenState
  match_ : List (H → Bool)
  tokenBucket : TokenBucket

structure LocalRateLimiterImpl (H : Type) where
  hasTokenBucket : Bool
  globalTokenBucket : TokenBucket := {}
  globalTokenState : TokenState := {}
  conditions : List (LocalRateLimitCondition H)
  timerDuration : Nat

/-- The first loop of the constructor: the minimum of the fill intervals. -/
def timerDurationOf (fillInterval : Nat) (conditions : List (ConditionConfig H)) : Nat :=
  conditions.foldl (fun duration condition =>
    let conditionFillInterval := condition.tokenBucket.fillInterval.getD 0
    if duration = 0 ∨ conditionFillInterval < duration then conditionFillInterval else duration) fillInterval

/-- The second loop of the constructor. -/
def ConditionConfig.toCondition (now : Nat) (condition : ConditionConfig H) : LocalRateLimitCondition H :=
  { match_ := condition.metadata
    tokenBucket :=
      { fillInterval := condition.tokenBucket.fillInterval.getD 0,
        maxTokens := condition.tokenBucket.maxTokens,
        tokensPerFill := condition.tokenBucket.tokensPerFill.getD 1 }
    tokenState := { tokens := condition.tokenBucket.maxTokens, fillTime := now } }

/-- `LocalRateLimiterImpl::LocalRateLimiterImpl` (local_ratelimit_impl.cc:12-65). The global
bucket's `fill_time_` is not set. -/
def LocalRateLimiterImpl.new (fillInterval : Nat) (maxTokens tokensPerFill : UInt32) (now : Nat)
    (conditions : List (ConditionConfig H)) (cfg : LocalRateLimitConfig H) :
    Except Failure (LocalRateLimiterImpl H) :=
  if timerDurationOf fillInterval conditions < 50 then
    .error (.envoyException "local rate limit token bucket fill timer must be >= 50ms")
  else .ok
    { hasTokenBucket := cfg.tokenBucket.isSome
      globalTokenBucket := if cfg.tokenBucket.isSome then { maxTokens, tokensPerFill, fillInterval } else {}
      globalTokenState := if cfg.tokenBucket.isSome then { tokens := maxTokens } else {}
      conditions := conditions.map (ConditionConfig.toCondition now)
      timerDuration := timerDurationOf fillInterval conditions }

/-- `FilterConfig::FilterConfig` (local_ratelimit.cc:13-22). -/
def LocalRateLimitConfig.rateLimiter (cfg : LocalRateLimitConfig H) (now : Nat) :
    Except Failure (LocalRateLimiterImpl H) :=
  let tokenBucket := cfg.tokenBucket.getD {}
  LocalRateLimiterImpl.new (tokenBucket.fillInterval.getD 0) tokenBucket.maxTokens
    (tokenBucket.tokensPerFill.getD 1) now cfg.conditions cfg

/-! ## The counters -/

/-- The loop of `requestAllowedHelper` (local_ratelimit_impl.cc:116-135). -/
def takeToken (expected : UInt32) : Option UInt32 := if expected = 0 then none else some (expected - 1)

/-- The loop of `onFillTimerHelper` (local_ratelimit_impl.cc:76-92); the sum is a `uint32_t`. -/
def addTokens (bucket : TokenBucket) (expected : UInt32) : Option UInt32 :=
  let sum := expected + bucket.tokensPerFill
  -- `std::min`
  some (if sum < bucket.maxTokens then sum else bucket.maxTokens)

def requestAllowedHelper (s : TokenState) : Bool × TokenState :=
  let r := Atomic.modify takeToken s.tokens
  (r.1, { s with tokens := r.2 })

def onFillTimerHelper (s : TokenState) (bucket : TokenBucket) : TokenState :=
  { s with tokens := (Atomic.modify (addTokens bucket) s.tokens).2 }

/-- The test of `onFillTimerConditionHelper`, and the fill. -/
def refill (currentTime : Nat) (s : TokenState) (bucket : TokenBucket) : TokenState :=
  if (currentTime - s.fillTime) / millisecond ≥ bucket.fillInterval then
    { onFillTimerHelper s bucket with fillTime := currentTime }
  else s

theorem takeToken_toNat {v new : UInt32} (h : takeToken v = some new) : new.toNat + 1 = v.toNat := by
  unfold takeToken at h
  split at h
  · cases h
  · next hv =>
    cases h
    have hle : (1 : UInt32) ≤ v := by
      rw [UInt32.le_iff_toNat_le]
      have hne : v.toNat ≠ 0 := fun h0 => hv (UInt32.toNat_inj.1 h0)
      have h1 : (1 : UInt32).toNat = 1 := rfl
      omega
    rw [UInt32.toNat_sub_of_le _ _ hle]
    have := UInt32.le_iff_toNat_le.1 hle
    have h1 : (1 : UInt32).toNat = 1 := rfl
    omega

theorem addTokens_toNat {bucket : TokenBucket} {v new : UInt32} (h : addTokens bucket v = some new) :
    new.toNat ≤ bucket.maxTokens.toNat ∧ new.toNat ≤ v.toNat + bucket.tokensPerFill.toNat := by
  have hsum : (v + bucket.tokensPerFill).toNat ≤ v.toNat + bucket.tokensPerFill.toNat := by
    rw [UInt32.toNat_add]
    exact Nat.mod_le _ _
  simp only [addTokens, Option.some.injEq] at h
  split at h
  · next hlt =>
    rw [UInt32.lt_iff_toNat_lt] at hlt
    subst h
    exact ⟨hlt.le, hsum⟩
  · next hlt =>
    rw [UInt32.lt_iff_toNat_lt] at hlt
    subst h
    omega

/-! ## Requests and the timer -/

/-- A bucket of a limiter. -/
inductive Bucket
  | global
  | condition (i : Nat)
  deriving DecidableEq, Repr

/-- `Http::HeaderUtility::matchHeaders`. -/
def matchHeaders (headers : H) (match_ : List (H → Bool)) : Bool := match_.all fun data => data headers

namespace LocalRateLimiterImpl

variable (l : LocalRateLimiterImpl H)

/-- The bucket that `requestAllowed` asks: that of the first condition that matches, else the global
one if there is one. -/
def target (headers : H) : Option Bucket :=
  match (l.conditions.map fun c => c.match_).findIdx? (matchHeaders headers) with
  | some i => some (.condition i)
  | none => if l.hasTokenBucket then some .global else none

/-- The bucket is that of a condition that matches, with none before it that does, or the global
one, with a bucket configured and no condition that matches. -/
def FirstMatch (headers : H) : Bucket → Prop
  | .condition i =>
    (∃ c, l.conditions[i]? = some c ∧ matchHeaders headers c.match_ = true) ∧
      ∀ j < i, ∀ c, l.conditions[j]? = some c → matchHeaders headers c.match_ = false
  | .global => l.hasTokenBucket = true ∧ ∀ c ∈ l.conditions, matchHeaders headers c.match_ = false

def tokenBucket : Bucket → Option TokenBucket
  | .global => if l.hasTokenBucket then some l.globalTokenBucket else none
  | .condition i => (l.conditions.map fun c => c.tokenBucket)[i]?

def tokenState : Bucket → TokenState
  | .global => l.globalTokenState
  | .condition i => ((l.conditions.map fun c => c.tokenState)[i]?).getD {}

def setTokenState (b : Bucket) (s : TokenState) : LocalRateLimiterImpl H :=
  match b with
  | .global => { l with globalTokenState := s }
  | .condition i => { l with conditions := l.conditions.modify i fun c => { c with tokenState := s } }

/-- `LocalRateLimiterImpl::requestAllowed` (local_ratelimit_impl.cc:137-155). -/
def requestAllowed (headers : H) : Bool × LocalRateLimiterImpl H :=
  match l.target headers with
  | none => (true, l)
  | some b =>
    let (allowed, s) := requestAllowedHelper (l.tokenState b)
    (allowed, l.setTokenState b s)

/-- `onFillTimerConditionHelper` (local_ratelimit_impl.cc:94-114). -/
def onFillTimerConditionHelper (currentTime : Nat) : LocalRateLimiterImpl H :=
  let l :=
    if l.hasTokenBucket then
      { l with globalTokenState := refill currentTime l.globalTokenState l.globalTokenBucket }
    else l
  { l with
    conditions := l.conditions.map fun c =>
      { c with tokenState := refill currentTime c.tokenState c.tokenBucket } }

structure SameConfig (l l' : LocalRateLimiterImpl H) : Prop where
  target : l'.target = l.target
  tokenBucket : l'.tokenBucket = l.tokenBucket
  timerDuration : l'.timerDuration = l.timerDuration

variable {l}

theorem SameConfig.trans {l₁ l₂ l₃ : LocalRateLimiterImpl H} (h : SameConfig l₁ l₂)
    (h' : SameConfig l₂ l₃) : SameConfig l₁ l₃ :=
  ⟨h'.target.trans h.target, h'.tokenBucket.trans h.tokenBucket, h'.timerDuration.trans h.timerDuration⟩

theorem SameConfig.of_eq {l' : LocalRateLimiterImpl H} (hhas : l'.hasTokenBucket = l.hasTokenBucket)
    (hglobal : l'.globalTokenBucket = l.globalTokenBucket) (hduration : l'.timerDuration = l.timerDuration)
    (hmatch : l'.conditions.map (fun c => c.match_) = l.conditions.map fun c => c.match_)
    (hbucket : l'.conditions.map (fun c => c.tokenBucket) = l.conditions.map fun c =>
      c.tokenBucket) : SameConfig l l' := by
  refine ⟨?_, ?_, hduration⟩
  · funext headers
    simp only [LocalRateLimiterImpl.target, hmatch, hhas]
  · funext b
    cases b with
    | global => simp only [LocalRateLimiterImpl.tokenBucket, hhas, hglobal]
    | condition i => simp only [LocalRateLimiterImpl.tokenBucket, hbucket]

theorem setTokenState_sameConfig (b : Bucket) (s : TokenState) : SameConfig l (l.setTokenState b s) := by
  cases b with
  | global => exact .of_eq rfl rfl rfl rfl rfl
  | condition i =>
    refine .of_eq rfl rfl rfl ?_ ?_
    all_goals
      apply List.ext_getElem?
      intro j
      simp only [setTokenState, List.getElem?_map, List.getElem?_modify]
      by_cases hij : i = j
      · cases l.conditions[j]? <;> simp [hij]
      · simp [hij]

theorem requestAllowed_sameConfig (headers : H) : SameConfig l (l.requestAllowed headers).2 := by
  unfold requestAllowed
  split
  · exact ⟨rfl, rfl, rfl⟩
  · exact setTokenState_sameConfig _ _

theorem onFillTimerConditionHelper_sameConfig (currentTime : Nat) :
    SameConfig l (l.onFillTimerConditionHelper currentTime) := by
  by_cases h : l.hasTokenBucket = true
  all_goals
    refine .of_eq ?_ ?_ ?_ ?_ ?_ <;> simp [onFillTimerConditionHelper, h]

theorem tokenState_setTokenState {b : Bucket} (hb : (l.tokenBucket b).isSome) (s : TokenState) (b' : Bucket) :
    (l.setTokenState b s).tokenState b' = if b' = b then s else l.tokenState b' := by
  cases b with
  | global => cases b' <;> simp [setTokenState, tokenState]
  | condition i =>
    cases b' with
    | global => simp [setTokenState, tokenState]
    | condition j =>
      simp only [setTokenState, tokenState, List.getElem?_map, List.getElem?_modify, Bucket.condition.injEq]
      by_cases hij : i = j
      · subst hij
        -- the condition is there
        obtain ⟨tb, htb⟩ := Option.isSome_iff_exists.1 hb
        simp only [tokenBucket, List.getElem?_map, Option.map_eq_some_iff] at htb
        obtain ⟨c, hc, -⟩ := htb
        simp [hc]
      · simp only [if_neg hij, if_neg fun h : j = i => hij h.symm]
        cases l.conditions[j]? <;> rfl

theorem firstMatch_of_target {headers : H} {b : Bucket} (h : l.target headers = some b) :
    l.FirstMatch headers b := by
  unfold target at h
  split at h
  · next i hi =>
    cases h
    rw [List.findIdx?_map] at hi
    obtain ⟨hlt, hmatch, hbefore⟩ := List.findIdx?_eq_some_iff_getElem.1 hi
    refine ⟨⟨l.conditions[i], List.getElem?_eq_getElem hlt, hmatch⟩, fun j hj c hc => ?_⟩
    obtain ⟨hjlt, rfl⟩ := List.getElem?_eq_some_iff.1 hc
    exact Bool.eq_false_iff.2 (hbefore j hj)
  · next hnone =>
    split at h
    · next hglobal =>
      cases h
      refine ⟨hglobal, fun c hc => ?_⟩
      exact List.findIdx?_eq_none_iff.1 hnone c.match_ (List.mem_map_of_mem hc)
    · cases h

theorem tokenBucket_of_target {headers : H} {b : Bucket} (h : l.target headers = some b) :
    (l.tokenBucket b).isSome := by
  unfold target at h
  split at h
  · next i hi =>
    cases h
    have hlt := List.of_findIdx?_eq_some hi
    simp only [tokenBucket, List.getElem?_map]
    cases hc : l.conditions[i]? with
    | none => simp [hc] at hlt
    | some c => rfl
  · split at h
    · next hhas =>
      cases h
      simp [tokenBucket, hhas]
    · cases h

theorem requestAllowed_refused {headers : H} {b : Bucket} (ht : l.target headers = some b)
    (htokens : (l.tokenState b).tokens = 0) :
    (l.requestAllowed headers).1 = false ∧ (l.requestAllowed headers).2.tokenState = l.tokenState := by
  simp only [requestAllowed, ht, requestAllowedHelper, Atomic.modify, takeToken, htokens, if_true]
  refine ⟨trivial, ?_⟩
  funext b'
  rw [tokenState_setTokenState (tokenBucket_of_target ht)]
  split
  · next h => rw [h, ← htokens]
  · rfl

theorem requestAllowed_granted {headers : H} {b : Bucket} (ht : l.target headers = some b)
    (htokens : (l.tokenState b).tokens ≠ 0) :
    (l.requestAllowed headers).1 = true ∧ ∀ b', (l.requestAllowed headers).2.tokenState b' =
      if b' = b then { l.tokenState b with tokens := (l.tokenState b).tokens - 1 } else l.tokenState b' := by
  simp only [requestAllowed, ht, requestAllowedHelper, Atomic.modify, takeToken, if_neg htokens]
  exact ⟨trivial, fun b' => tokenState_setTokenState (tokenBucket_of_target ht) _ b'⟩

/-- A tick is a `refill` of every bucket. -/
theorem tokenState_onFillTimerConditionHelper {b : Bucket} {bucket : TokenBucket}
    (hb : l.tokenBucket b = some bucket) (currentTime : Nat) :
    (l.onFillTimerConditionHelper currentTime).tokenState b = refill currentTime (l.tokenState b) bucket := by
  cases b with
  | global =>
    simp only [tokenBucket] at hb
    split at hb
    · next hhas =>
      cases hb
      simp [onFillTimerConditionHelper, tokenState, hhas]
    · cases hb
  | condition i =>
    simp only [tokenBucket, List.getElem?_map, Option.map_eq_some_iff] at hb
    obtain ⟨c, hc, rfl⟩ := hb
    by_cases hhas : l.hasTokenBucket = true
    · simp [onFillTimerConditionHelper, tokenState, hhas, hc]
    · simp [onFillTimerConditionHelper, tokenState, hhas, hc]

theorem tokenState_of_new {fillInterval now : Nat} {maxTokens tokensPerFill : UInt32}
    {conditions : List (ConditionConfig H)}
    {cfg : LocalRateLimitConfig H}
    (hnew : new fillInterval maxTokens tokensPerFill now conditions cfg = .ok l)
    {b : Bucket} {bucket : TokenBucket} (hb : l.tokenBucket b = some bucket) :
    l.tokenState b = { tokens := bucket.maxTokens, fillTime := if b = .global then 0 else now } := by
  unfold new at hnew
  split at hnew
  · cases hnew
  · cases hnew
    cases b with
    | global =>
      simp only [tokenBucket] at hb
      split at hb
      · next hhas =>
        cases hb
        simp [tokenState, hhas]
      · cases hb
    | condition i =>
      simp only [tokenBucket, List.getElem?_map, Option.map_map, Option.map_eq_some_iff] at hb
      obtain ⟨c, hc, rfl⟩ := hb
      simp [tokenState, hc, ConditionConfig.toCondition]

end LocalRateLimiterImpl

end MetaProtocolProxy.LocalRateLimit
