import Mathlib.Algebra.Group.Action.Defs
import Mathlib.Data.List.GetD
import MetaProtocolProxy.Lib.Intervals
import MetaProtocolProxy.Lib.Traverse
import MetaProtocolProxy.Route.Rds
/-
# Route tables (route/route_matcher_impl.h, .cc, config_impl.cc)

A table is built from a configuration: one entry per route, with its header matchers compiled, its
weights added up and its policies copied. `RouteMatcherImpl.route` returns the first entry whose
matchers match, or the weighted cluster of it that the random value picks.

The total that is handed to `pickCluster` is the sum of the weights as long as nothing overflows,
and nothing does: a repeated field has fewer than `2 ^ 31` members, each of a 32-bit weight, and the
total has 64 bits. What can go wrong is a total of 0, which no check refuses
(`weighted_choice_exact_iff`).

| here | there |
| --- | --- |
| `M`, `D`, `H` | `HeaderMatcher`, `HeaderUtility::HeaderData`, the header map of the metadata |
| `HeaderUtility` | the two functions of `Http::HeaderUtility` that are used, Envoy's |
| `WeightedClusterUtil` | any function that picks as Envoy's `WeightedClusterUtil::pickCluster` does |
| `Runtime` | any reading of `Runtime::Snapshot` that knows keys and defaults as Envoy's does |
| `MatchedRoute` | a `RouteConstSharedPtr`: an entry, or one of its weighted clusters |

`metadata_match_criteria_` is never set and is left out.
-/
namespace MetaProtocolProxy.Route

variable {M D H S : Type}

/-! ## Mirror policies -/

/-- `featureEnabled` of `Runtime::Snapshot`, over snapshots `S`. Without a key the default decides,
of which 0 in a hundred is never and a hundred always; what a key says can be set either way. -/
structure Runtime (S : Type) where
  featureEnabled : S → String → FractionalPercent → UInt64 → Bool
  keyless : ∀ s s' value random, featureEnabled s "" value random = featureEnabled s' "" value random
  never : ∀ s random, featureEnabled s "" { numerator := 0 } random = false
  always : ∀ s random, featureEnabled s "" { numerator := 100 } random = true
  override : ∀ key ≠ "", ∀ enabled, ∃ s, ∀ value random, featureEnabled s key value random = enabled

structure RequestMirrorPolicyImpl where
  clusterName : String
  runtimeKey : String := ""
  defaultValue : FractionalPercent
  deriving DecidableEq

/-- The constructor (route_matcher_impl.cc:15-27): without a fraction everything is mirrored. -/
def RequestMirrorPolicyImpl.new (config : RequestMirrorPolicy) : RequestMirrorPolicyImpl :=
  match config.runtimeFraction with
  | some fraction =>
    { clusterName := config.cluster
      runtimeKey := fraction.runtimeKey
      defaultValue :=
        { numerator := fraction.defaultValue.numerator, denominator := fraction.defaultValue.denominator } }
  | none => { clusterName := config.cluster, defaultValue := { numerator := 100, denominator := .hundred } }

def RequestMirrorPolicyImpl.shouldShadow (p : RequestMirrorPolicyImpl) (runtime : Runtime S) (snapshot : S)
    (stableRandom : UInt64) : Bool :=
  runtime.featureEnabled snapshot p.runtimeKey p.defaultValue stableRandom

/-! ## Entries -/

/-- `WeightedCluster::ClusterWeight`; the weight is a wrapped value and may be missing. -/
structure ClusterWeight where
  name : String
  weight : Option UInt32 := none
  deriving DecidableEq

/-- `envoy.config.route.v3.WeightedCluster`; the size of a repeated field is an `int`. -/
structure WeightedCluster where
  clusters : List ClusterWeight
  size_lt : clusters.length < 2 ^ 31
  deriving DecidableEq

/-- Envoy's header matching: a matcher is compiled, or refused with the text of an
`EnvoyException`. -/
structure HeaderUtility (M D H : Type) where
  buildHeaderData : M → Except String D
  matchesHeader : D → H → Bool

structure WeightedClusterEntry where
  clusterName : String
  clusterWeight : UInt64
  deriving DecidableEq

/-- The constructor (route_matcher_impl.cc:132-135). The text of the exception goes on with the
message it is about. -/
def WeightedClusterEntry.new (cluster : ClusterWeight) : Except Failure WeightedClusterEntry :=
  match cluster.weight with
  | none => .error (.envoyException "Field 'weight' is missing in: ")
  | some weight => .ok { clusterName := cluster.name, clusterWeight := weight.toUInt64 }

structure RouteEntryImplBase (D : Type) where
  routeName : String
  clusterName : String
  configHeaders : List D
  weightedClusters : List WeightedClusterEntry := []
  totalClusterWeight : UInt64 := 0
  requestMutation : List (String × String) := []
  responseMutation : List (String × String) := []
  hashPolicy : Option (List String) := none
  mirrorPolicies : List RequestMirrorPolicyImpl := []

/-- `route.route().cluster()`, empty for another specifier. -/
def ClusterSpecifier.clusterName {W : Type} : ClusterSpecifier W → String
  | .cluster name => name
  | _ => ""

/-- The clusters that the loop of the constructor goes through. -/
def ClusterSpecifier.clusters : ClusterSpecifier WeightedCluster → List ClusterWeight
  | .weightedClusters weighted => weighted.clusters
  | _ => []

/-- `HeaderUtility::buildHeaderDataVector`. -/
def HeaderUtility.buildHeaderDataVector (hu : HeaderUtility M D H) (matchers : List M) :
    Except Failure (List D) :=
  matchers.mapM fun matcher => (hu.buildHeaderData matcher).mapError Failure.envoyException

/-- The constructor (route_matcher_impl.cc:33-63). -/
def RouteEntryImplBase.new (hu : HeaderUtility M D H) (route : RouteEntry M WeightedCluster) :
    Except Failure (RouteEntryImplBase D) := do
  let configHeaders ← hu.buildHeaderDataVector (route.match_.getD [])
  let weightedClusters ← route.clusterSpecifier.clusters.mapM WeightedClusterEntry.new
  return {
    routeName := route.name
    clusterName := route.clusterSpecifier.clusterName
    configHeaders := configHeaders
    weightedClusters := weightedClusters
    totalClusterWeight := weightedClusters.foldl (fun total cluster => total + cluster.clusterWeight) 0
    requestMutation := route.requestMutation
    responseMutation := route.responseMutation
    hashPolicy := if route.hashPolicy.isEmpty then none else some route.hashPolicy
    mirrorPolicies := route.requestMirrorPolicies.map RequestMirrorPolicyImpl.new }

/-- A `RouteConstSharedPtr`: the entry itself, or the weighted cluster at a position of it. -/
structure MatchedRoute (D : Type) where
  parent : RouteEntryImplBase D
  weighted : Option (Fin parent.weightedClusters.length) := none

namespace MatchedRoute

variable (r : MatchedRoute D)

def routeName : String := r.parent.routeName

def clusterName : String :=
  match r.weighted with
  | none => r.parent.clusterName
  | some i => (r.parent.weightedClusters.get i).clusterName

def hashPolicy : Option (List String) := r.parent.hashPolicy

def requestMirrorPolicies : List RequestMirrorPolicyImpl := r.parent.mirrorPolicies

/-- `requestMutation` (route_matcher_impl.cc:82-86), of a weighted cluster that of its parent. -/
def requestMutation (mutation : Mutation) : Mutation :=
  mutation.set r.parent.requestMutation

/-- `responseMutation` (route_matcher_impl.cc:88-92). -/
def responseMutation (mutation : Mutation) : Mutation :=
  mutation.set r.parent.responseMutation

end MatchedRoute

def weightsOf (entries : List WeightedClusterEntry) : List Nat :=
  entries.map fun entry => entry.clusterWeight.toNat

/-- `pickCluster` of `WeightedClusterUtil`: the random value is reduced modulo the total, and of
clusters whose weights add up to it the one is taken in whose interval the residue lies. -/
structure WeightedClusterUtil where
  pickCluster (clusters : List WeightedClusterEntry) (total random : UInt64) :
    Except Failure (Fin clusters.length)
  divides : ∀ clusters random, pickCluster clusters 0 random = .error (.panicked "division by zero")
  picks : ∀ clusters total random, total ≠ 0 → total.toNat = (weightsOf clusters).sum →
    ∃ i, pickCluster clusters total random = .ok i ∧
      Intervals.Holds (weightsOf clusters) i (random.toNat % total.toNat)

namespace RouteEntryImplBase

variable (e : RouteEntryImplBase D)

/-- `clusterEntry` (route_matcher_impl.cc:96-105). -/
def clusterEntry (wu : WeightedClusterUtil) (random : UInt64) : Except Failure (MatchedRoute D) :=
  if e.weightedClusters.isEmpty then .ok { parent := e }
  else (wu.pickCluster e.weightedClusters e.totalClusterWeight random).map fun i =>
    { parent := e, weighted := some i }

/-- `headersMatch` (route_matcher_impl.cc:107-130). -/
def headersMatch (hu : HeaderUtility M D H) (headers : H) : Bool :=
  if e.configHeaders.isEmpty then true else e.configHeaders.all fun data => hu.matchesHeader data headers

/-- `matches` (route_matcher_impl.cc:143-150). -/
def matches_ (hu : HeaderUtility M D H) (wu : WeightedClusterUtil) (headers : H) (random : UInt64) :
    Except Failure (Option (MatchedRoute D)) :=
  if e.headersMatch hu headers then (e.clusterEntry wu random).map some else .ok none

end RouteEntryImplBase

/-! ## Tables -/

structure RouteMatcherImpl (D : Type) where
  routes : List (RouteEntryImplBase D)

/-- The constructor (route_matcher_impl.cc:152-161). -/
def RouteMatcherImpl.new (hu : HeaderUtility M D H) (config : RouteConfiguration M WeightedCluster) :
    Except Failure (RouteMatcherImpl D) :=
  (config.routes.mapM (RouteEntryImplBase.new hu)).map RouteMatcherImpl.mk

/-- The loop of `RouteMatcherImpl::route`. -/
def routeLoop (hu : HeaderUtility M D H) (wu : WeightedClusterUtil) (headers : H) (random : UInt64) :
    List (RouteEntryImplBase D) → Except Failure (Option (MatchedRoute D))
  | [] => .ok none
  | e :: routes => do
    match ← e.matches_ hu wu headers random with
    | some found => return some found
    | none => routeLoop hu wu headers random routes

/-- `route` (route_matcher_impl.cc:163-172). -/
def RouteMatcherImpl.route (hu : HeaderUtility M D H) (wu : WeightedClusterUtil)
    (m : RouteMatcherImpl D) (headers : H)
    (random : UInt64) : Except Failure (Option (MatchedRoute D)) :=
  routeLoop hu wu headers random m.routes

structure ConfigImpl (D : Type) where
  name : String
  routeMatcher : RouteMatcherImpl D

/-- The constructor (config_impl.cc:14-19). -/
def ConfigImpl.new (hu : HeaderUtility M D H) (config : RouteConfiguration M WeightedCluster) :
    Except Failure (ConfigImpl D) :=
  (RouteMatcherImpl.new hu config).map fun routeMatcher =>
    { name := config.name, routeMatcher := routeMatcher }

/-- `ConfigImpl::route` (config_impl.cc:21-23). -/
def ConfigImpl.route (hu : HeaderUtility M D H) (wu : WeightedClusterUtil) (c : ConfigImpl D) (headers : H)
    (random : UInt64) : Except Failure (Option (MatchedRoute D)) :=
  c.routeMatcher.route hu wu headers random

/-! ## What the constructors accept -/

theorem WeightedClusterEntry.new_eq_ok_iff {c : ClusterWeight} {entry : WeightedClusterEntry} :
    WeightedClusterEntry.new c = .ok entry ↔
      ∃ w, c.weight = some w ∧ entry = { clusterName := c.name, clusterWeight := w.toUInt64 } := by
  cases hw : c.weight with
  | none => simp [WeightedClusterEntry.new, hw]
  | some w => simp [WeightedClusterEntry.new, hw, eq_comm]

theorem RouteEntryImplBase.new_eq_ok_iff {hu : HeaderUtility M D H} {route : RouteEntry M WeightedCluster}
    {e : RouteEntryImplBase D} :
    RouteEntryImplBase.new hu route = .ok e ↔
      ∃ configHeaders weightedClusters, hu.buildHeaderDataVector (route.match_.getD []) = .ok configHeaders ∧
        route.clusterSpecifier.clusters.mapM WeightedClusterEntry.new = .ok weightedClusters ∧
        e = { routeName := route.name
              clusterName := route.clusterSpecifier.clusterName
              configHeaders := configHeaders
              weightedClusters := weightedClusters
              totalClusterWeight :=
                weightedClusters.foldl (fun total cluster => total + cluster.clusterWeight) 0
              requestMutation := route.requestMutation
              responseMutation := route.responseMutation
              hashPolicy := if route.hashPolicy.isEmpty then none else some route.hashPolicy
              mirrorPolicies := route.requestMirrorPolicies.map RequestMirrorPolicyImpl.new } := by
  simp only [RouteEntryImplBase.new, Traverse.bind_eq_ok_iff, pure, Except.pure, Except.ok.injEq]
  constructor
  · rintro ⟨configHeaders, hheaders, weightedClusters, hclusters, rfl⟩
    exact ⟨configHeaders, weightedClusters, hheaders, hclusters, rfl⟩
  · rintro ⟨configHeaders, weightedClusters, hheaders, hclusters, rfl⟩
    exact ⟨configHeaders, hheaders, weightedClusters, hclusters, rfl⟩

theorem RouteMatcherImpl.new_eq_ok_iff {hu : HeaderUtility M D H}
    {config : RouteConfiguration M WeightedCluster} {table : RouteMatcherImpl D} :
    RouteMatcherImpl.new hu config = .ok table ↔
      config.routes.mapM (RouteEntryImplBase.new hu) = .ok table.routes := by
  rw [RouteMatcherImpl.new]
  cases config.routes.mapM (RouteEntryImplBase.new hu) with
  | error failure => simp [Except.map]
  | ok entries => cases table; simp [Except.map]

/-! ## Weights -/

/-- A cluster's weight as a number. -/
def ClusterWeight.toNat (c : ClusterWeight) : Nat := (c.weight.getD 0).toNat

@[simp] theorem weightsOf_cons (entry : WeightedClusterEntry) (entries : List WeightedClusterEntry) :
    weightsOf (entry :: entries) = entry.clusterWeight.toNat :: weightsOf entries := rfl

def ClusterWeight.entry (c : ClusterWeight) : WeightedClusterEntry where
  clusterName := c.name
  clusterWeight := (c.weight.getD 0).toUInt64

theorem entries_of_mapM {clusters : List ClusterWeight} {entries : List WeightedClusterEntry}
    (h : clusters.mapM WeightedClusterEntry.new = .ok entries) :
    entries = clusters.map ClusterWeight.entry := by
  rw [Traverse.mapM_eq_ok_iff] at h
  induction h with
  | nil => rfl
  | cons hentry _ ih =>
    obtain ⟨w, hw, rfl⟩ := WeightedClusterEntry.new_eq_ok_iff.1 hentry
    simp [ih, ClusterWeight.entry, hw]

@[simp] theorem weightsOf_map_entry (clusters : List ClusterWeight) :
    weightsOf (clusters.map ClusterWeight.entry) = clusters.map ClusterWeight.toNat := by
  simp [weightsOf, ClusterWeight.entry, ClusterWeight.toNat, Function.comp_def]

/-- Fewer than `2 ^ 31` weights of 32 bits. -/
theorem WeightedCluster.sum_lt (wc : WeightedCluster) :
    (wc.clusters.map ClusterWeight.toNat).sum < 2 ^ 64 := by
  have hle : (wc.clusters.map ClusterWeight.toNat).sum ≤
      (wc.clusters.map ClusterWeight.toNat).length • 2 ^ 32 := by
    refine List.sum_le_card_nsmul _ _ fun n hn => ?_
    obtain ⟨c, -, rfl⟩ := List.mem_map.1 hn
    exact (UInt32.toNat_lt _).le
  have hsize := wc.size_lt
  rw [List.length_map, smul_eq_mul] at hle
  omega

theorem totalWeight_toNat {entries : List WeightedClusterEntry} {b : UInt64}
    (h : b.toNat + (weightsOf entries).sum < 2 ^ 64) :
    (entries.foldl (fun total cluster => total + cluster.clusterWeight) b).toNat =
      b.toNat + (weightsOf entries).sum := by
  induction entries generalizing b with
  | nil => simp [weightsOf]
  | cons entry entries ih =>
    simp only [weightsOf_cons, List.sum_cons] at h ⊢
    have hb : (b + entry.clusterWeight).toNat = b.toNat + entry.clusterWeight.toNat := by
      rw [UInt64.toNat_add, Nat.mod_eq_of_lt (by omega)]
    rw [List.foldl_cons, ih (by omega), hb]
    omega

theorem weightsOf_accepted {hu : HeaderUtility M D H} {route : RouteEntry M WeightedCluster}
    {wc : WeightedCluster}
    (hspecifier : route.clusterSpecifier = .weightedClusters wc) {e : RouteEntryImplBase D}
    (hnew : RouteEntryImplBase.new hu route = .ok e) :
    weightsOf e.weightedClusters = wc.clusters.map ClusterWeight.toNat ∧
      e.totalClusterWeight.toNat = (weightsOf e.weightedClusters).sum := by
  obtain ⟨configHeaders, entries, -, hentries, rfl⟩ := RouteEntryImplBase.new_eq_ok_iff.1 hnew
  rw [hspecifier] at hentries
  have hweights : weightsOf entries = wc.clusters.map ClusterWeight.toNat := by
    rw [entries_of_mapM hentries, weightsOf_map_entry]
    rfl
  have hfits : (0 : UInt64).toNat + (weightsOf entries).sum < 2 ^ 64 := by
    simpa [hweights] using wc.sum_lt
  have htotal := totalWeight_toNat hfits
  rw [UInt64.toNat_zero, Nat.zero_add] at htotal
  exact ⟨hweights, htotal⟩

theorem weighted_of_positive {hu : HeaderUtility M D H} {route : RouteEntry M WeightedCluster}
    {wc : WeightedCluster}
    (hspecifier : route.clusterSpecifier = .weightedClusters wc) (hpositive : ∃ c ∈ wc.clusters, c.toNat ≠ 0)
    {e : RouteEntryImplBase D} (hnew : RouteEntryImplBase.new hu route = .ok e) :
    e.weightedClusters ≠ [] ∧ e.totalClusterWeight ≠ 0 := by
  obtain ⟨hweights, htotal⟩ := weightsOf_accepted hspecifier hnew
  obtain ⟨c, hc, hweight⟩ := hpositive
  have hsum : (weightsOf e.weightedClusters).sum ≠ 0 := by
    rw [hweights, ne_eq, List.sum_eq_zero_iff]
    exact fun hzero => hweight (hzero _ (List.mem_map_of_mem hc))
  refine ⟨fun h => hsum (by rw [h]; rfl), fun h => hsum ?_⟩
  rw [← htotal, h]
  rfl

/-! ## The choice -/

def RouteEntryImplBase.choice (wu : WeightedClusterUtil) (e : RouteEntryImplBase D)
    (random : UInt64) : Option Nat :=
  match e.clusterEntry wu random with
  | .ok found => found.weighted.map Fin.val
  | .error _ => none

/-- The choice among clusters of these weights is exact: the total is their sum and not 0, every
random value picks one cluster, which depends on its residue only, and a cluster is picked by as
many residues as its weight. -/
structure ExactChoice (wu : WeightedClusterUtil) (weights : List Nat) (e : RouteEntryImplBase D) : Prop where
  size : e.weightedClusters.length = weights.length
  total : e.totalClusterWeight.toNat = weights.sum
  nonzero : e.totalClusterWeight ≠ 0
  selects : ∀ random, ∃! i, e.clusterEntry wu random = .ok { parent := e, weighted := some i }
  residue : ∀ random, e.clusterEntry wu random = e.clusterEntry wu (random % e.totalClusterWeight)
  share : ∀ i < weights.length,
    ((Finset.range weights.sum).filter fun x => e.choice wu (UInt64.ofNat x) = some i).card = weights.getD i 0
  never : ∀ random i, weights.getD i 0 = 0 → e.choice wu random ≠ some i

section Choice

variable (wu : WeightedClusterUtil) {e : RouteEntryImplBase D} (hne : e.weightedClusters ≠ [])
  (htotal : e.totalClusterWeight.toNat = (weightsOf e.weightedClusters).sum)
  (hnonzero : e.totalClusterWeight ≠ 0)

include hne htotal hnonzero

theorem clusterEntry_holds (random : UInt64) :
    ∃ i, e.clusterEntry wu random = .ok { parent := e, weighted := some i } ∧
      Intervals.Holds (weightsOf e.weightedClusters) i (random.toNat % e.totalClusterWeight.toNat) := by
  obtain ⟨i, hpick, hholds⟩ := wu.picks e.weightedClusters _ random hnonzero htotal
  refine ⟨i, ?_, hholds⟩
  rw [RouteEntryImplBase.clusterEntry, if_neg (by simpa using hne), hpick]
  rfl

theorem choice_eq_some_iff (random : UInt64) (i : Nat) :
    e.choice wu random = some i ↔
      Intervals.Holds (weightsOf e.weightedClusters) i (random.toNat % e.totalClusterWeight.toNat) := by
  obtain ⟨j, hentry, hholds⟩ := clusterEntry_holds wu hne htotal hnonzero random
  simp only [RouteEntryImplBase.choice, hentry, Option.map_some, Option.some.injEq]
  exact ⟨fun h => h ▸ hholds, fun h => hholds.unique h⟩

theorem clusterEntry_residue (random : UInt64) :
    e.clusterEntry wu random = e.clusterEntry wu (random % e.totalClusterWeight) := by
  obtain ⟨i, hentry, hholds⟩ := clusterEntry_holds wu hne htotal hnonzero random
  obtain ⟨j, hentry', hholds'⟩ := clusterEntry_holds wu hne htotal hnonzero (random % e.totalClusterWeight)
  rw [UInt64.toNat_mod, Nat.mod_mod] at hholds'
  rw [hentry, hentry', Fin.ext (hholds.unique hholds')]

theorem choice_share (i : Nat) :
    ((Finset.range (weightsOf e.weightedClusters).sum).filter fun x =>
      e.choice wu (UInt64.ofNat x) = some i).card =
      (weightsOf e.weightedClusters).getD i 0 := by
  rw [← Intervals.card_holds]
  refine congrArg Finset.card (Finset.filter_congr fun x hx => ?_)
  rw [Finset.mem_range] at hx
  -- a residue stands for itself
  have hx64 : x < 2 ^ 64 := hx.trans (htotal ▸ UInt64.toNat_lt _)
  rw [choice_eq_some_iff wu hne htotal hnonzero, UInt64.toNat_ofNat_of_lt' hx64, htotal, Nat.mod_eq_of_lt hx]

theorem choice_ne_of_zero {i : Nat} (hzero : (weightsOf e.weightedClusters).getD i 0 = 0) (random : UInt64) :
    e.choice wu random ≠ some i := by
  rw [ne_eq, choice_eq_some_iff wu hne htotal hnonzero, Intervals.Holds, Intervals.sum_take_succ, hzero]
  omega

end Choice

/-- The choice is exact as long as one of the weights is not 0. -/
theorem weighted_choice_exact_iff (hu : HeaderUtility M D H) (wu : WeightedClusterUtil)
    (route : RouteEntry M WeightedCluster) {wc : WeightedCluster}
    (hspecifier : route.clusterSpecifier = .weightedClusters wc) {e : RouteEntryImplBase D}
    (hnew : RouteEntryImplBase.new hu route = .ok e) :
    ExactChoice wu (wc.clusters.map ClusterWeight.toNat) e ↔ ∃ c ∈ wc.clusters, c.toNat ≠ 0 := by
  obtain ⟨hweights, htotal⟩ := weightsOf_accepted hspecifier hnew
  rw [← hweights]
  constructor
  · intro hexact
    by_contra! hzero
    refine hexact.nonzero (UInt64.toNat_inj.1 (hexact.total.trans ?_))
    rw [hweights]
    exact List.sum_eq_zero fun n hn => by
      obtain ⟨c, hc, rfl⟩ := List.mem_map.1 hn
      exact hzero c hc
  · intro hpositive
    obtain ⟨hne, hnonzero⟩ := weighted_of_positive hspecifier hpositive hnew
    refine ⟨by simp [weightsOf], htotal, hnonzero, fun random => ?_,
      clusterEntry_residue wu hne htotal hnonzero,
      fun i _ => choice_share wu hne htotal hnonzero i,
      fun random i hzero => choice_ne_of_zero wu hne htotal hnonzero hzero random⟩
    obtain ⟨i, hentry, -⟩ := clusterEntry_holds wu hne htotal hnonzero random
    refine ⟨i, hentry, fun j hj => ?_⟩
    simpa using hj.symm.trans hentry

/-- The choice by a search for the interval. -/
def searchIntervals : WeightedClusterUtil where
  pickCluster clusters total random :=
    if total = 0 then .error (.panicked "division by zero")
    else match (List.finRange clusters.length).find? fun i : Fin _ =>
        Intervals.Holds (weightsOf clusters) i (random.toNat % total.toNat) with
      | some i => .ok i
      | none => .error (.panicked "no interval")
  divides _ _ := if_pos rfl
  picks clusters total random hnonzero htotal := by
    have hpos : 0 < total.toNat := Nat.pos_of_ne_zero fun h => hnonzero (UInt64.toNat_inj.1 h)
    have hlt : random.toNat % total.toNat < (weightsOf clusters).sum := (Nat.mod_lt _ hpos).trans_eq htotal
    obtain ⟨i, hi, hholds⟩ := Intervals.exists_holds hlt
    have hfound : ((List.finRange clusters.length).find? fun i : Fin _ =>
        Intervals.Holds (weightsOf clusters) i (random.toNat % total.toNat)).isSome :=
      List.find?_isSome.2 ⟨⟨i, by simpa [weightsOf] using hi⟩, List.mem_finRange _, by simpa using hholds⟩
    obtain ⟨j, hj⟩ := Option.isSome_iff_exists.1 hfound
    exact ⟨j, by rw [if_neg hnonzero, hj], by simpa using List.find?_some hj⟩

/-- Matchers that ask for a header with a given value. -/
def exactHeaders : HeaderUtility (String × String) (String × String) (List (String × String)) where
  buildHeaderData matcher := if matcher.1 = "" then .error "header name is empty" else .ok matcher
  matchesHeader data headers := headers.lookup data.1 = some data.2

theorem three_lt_size : 3 < 2 ^ 31 := by decide

def blueGreen : WeightedCluster where
  clusters := [{ name := "blue", weight := some 1 }, { name := "idle", weight := some 0 },
    { name := "green", weight := some 2 }]
  size_lt := three_lt_size

def blueGreenRoute : RouteEntry (String × String) WeightedCluster :=
  { clusterSpecifier := .weightedClusters blueGreen }

theorem weighted_choice_exact_blueGreen :
    blueGreen.clusters.map ClusterWeight.toNat = [1, 0, 2] ∧
    ∃ e : RouteEntryImplBase (String × String),
      RouteEntryImplBase.new exactHeaders blueGreenRoute = .ok e ∧
      ExactChoice searchIntervals (blueGreen.clusters.map ClusterWeight.toNat) e := by
  obtain ⟨e, he⟩ : ∃ e, RouteEntryImplBase.new exactHeaders blueGreenRoute = .ok e := ⟨_, rfl⟩
  have hspecifier : blueGreenRoute.clusterSpecifier = .weightedClusters blueGreen := rfl
  exact ⟨rfl, e, he, (weighted_choice_exact_iff exactHeaders searchIntervals blueGreenRoute hspecifier he).2
    ⟨{ name := "blue", weight := some 1 }, by decide, by decide⟩⟩

theorem one_lt_size : 1 < 2 ^ 31 := by decide

def drained : WeightedCluster where
  clusters := [{ name := "blue", weight := some 0 }]
  size_lt := one_lt_size

/-- A list of zero weights is accepted, and the first request divides by zero. -/
theorem drained_divides_by_zero :
    ∃ e : RouteEntryImplBase (String × String),
      RouteEntryImplBase.new exactHeaders { clusterSpecifier := .weightedClusters drained } = .ok e ∧
      e.totalClusterWeight = 0 ∧
      e.matches_ exactHeaders searchIntervals [] 7 = .error (.panicked "division by zero") ∧
      ¬ ExactChoice searchIntervals (drained.clusters.map ClusterWeight.toNat) e := by
  refine ⟨_, rfl, rfl, rfl, fun hexact => ?_⟩
  exact hexact.nonzero rfl

end MetaProtocolProxy.Route
