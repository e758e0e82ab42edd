import MetaProtocolProxy.Route.Matcher
/-
# What the translation of HTTP route configurations keeps (route/rds_impl.cc:133-206)

The routes of the one virtual host are copied field by field into a configuration of another shape,
from which a table is built. `HttpRoute.view` says, over the HTTP route alone, what a request that
matches it should see; `translation_preserves_routing` says that the table finds the first route
that matches, and that it shows just that.

Mirror policies do not survive as well: the fraction of the new policy is always set, and its key
never (`mirror_decisions_survive_iff`).
-/
namespace MetaProtocolProxy.Route

variable {M W D H S : Type} (wu : WeightedClusterUtil)

/-! ## Routing over the HTTP configuration -/

/-- What a matched route shows: its name, the cluster, the headers to hash, and the mutations. -/
structure RouteView where
  routeName : String
  clusterName : String
  hashPolicy : List String
  requestMutation : List (String × String)
  responseMutation : List (String × String)
  deriving DecidableEq

def MatchedRoute.view (r : MatchedRoute D) : RouteView where
  routeName := r.routeName
  clusterName := r.clusterName
  hashPolicy := r.hashPolicy.getD []
  requestMutation := r.parent.requestMutation
  responseMutation := r.parent.responseMutation

/-- A header matcher that compiles and matches. -/
def HeaderUtility.accepts (hu : HeaderUtility M D H) (headers : H) (matcher : M) : Bool :=
  match hu.buildHeaderData matcher with
  | .ok data => hu.matchesHeader data headers
  | .error _ => false

/-- All header matchers of the route match. -/
def HttpRoute.accepts (hu : HeaderUtility M D H) (headers : H) (r : HttpRoute M W) : Bool :=
  (r.match_.getD []).all (hu.accepts headers)

/-- The name of the cluster that `pickCluster` returns. -/
def pickName (entries : List WeightedClusterEntry) (total random : UInt64) : String :=
  match wu.pickCluster entries total random with
  | .ok i => (entries.get i).clusterName
  | .error _ => ""

def WeightedCluster.pick (wc : WeightedCluster) (random : UInt64) : String :=
  pickName wu (wc.clusters.map ClusterWeight.entry)
    (UInt64.ofNat (wc.clusters.map ClusterWeight.toNat).sum) random

def HttpRouteAction.pick (action : HttpRouteAction WeightedCluster) (random : UInt64) : String :=
  match action.clusterSpecifier with
  | .cluster name => name
  | .weightedClusters wc => wc.pick wu random
  | .other => ""

def HttpRoute.view (random : UInt64) (r : HttpRoute M WeightedCluster) : RouteView :=
  let action := r.route.getD {}
  { routeName := r.name
    clusterName := action.pick wu random
    hashPolicy := action.hashPolicy.map HttpHashPolicy.headerName
    requestMutation := r.requestHeadersToAdd
    responseMutation := r.responseHeadersToAdd }

/-- A cluster, or weighted clusters of which one has a weight. -/
def ClusterSpecifier.Routable : ClusterSpecifier WeightedCluster → Prop
  | .cluster _ => True
  | .weightedClusters wc => ∃ c ∈ wc.clusters, c.toNat ≠ 0
  | .other => False

/-- A route action with a cluster to route to and only header hash policies. -/
def HttpRoute.Routable (r : HttpRoute M WeightedCluster) : Prop :=
  ∃ action, r.route = some action ∧ action.clusterSpecifier.Routable ∧
    ∀ policy ∈ action.hashPolicy, ∃ headerName, policy = .header headerName

/-- What the constructors ask for: every matcher compiles, every weight is there. -/
structure HttpRoute.Compiles (hu : HeaderUtility M D H) (r : HttpRoute M WeightedCluster) : Prop where
  matchers : ∀ matcher ∈ r.match_.getD [], ∃ data, hu.buildHeaderData matcher = .ok data
  weights : ∀ c ∈ (r.route.getD {}).clusterSpecifier.clusters, c.weight.isSome

/-! ## The table of the translated configuration -/

variable {hu : HeaderUtility M D H}

theorem HeaderUtility.buildHeaderDataVector_eq_ok_iff {matchers : List M} {datas : List D} :
    hu.buildHeaderDataVector matchers = .ok datas ↔
      List.Forall₂ (fun matcher data => hu.buildHeaderData matcher = .ok data) matchers datas := by
  rw [HeaderUtility.buildHeaderDataVector, Traverse.mapM_eq_ok_iff]
  have hone : ∀ matcher data, (hu.buildHeaderData matcher).mapError Failure.envoyException = .ok data ↔
      hu.buildHeaderData matcher = .ok data := by
    intro matcher data
    cases hu.buildHeaderData matcher <;> simp [Except.mapError]
  simp only [hone]

@[simp] theorem HttpRoute.toRoute_matchers (r : HttpRoute M W) :
    r.toRoute.match_.getD [] = r.match_.getD [] := by
  cases hmatch : r.match_ with
  | none => simp [HttpRoute.toRoute, hmatch]
  | some headers => cases headers <;> simp [HttpRoute.toRoute, hmatch, Option.filter]

/-- A translated route is accepted when its matchers compile and its weights are there. -/
theorem toRoute_new_succeeds_iff (hu : HeaderUtility M D H) (r : HttpRoute M WeightedCluster) :
    (∃ e, RouteEntryImplBase.new hu r.toRoute = .ok e) ↔ r.Compiles hu := by
  have hmatchers : (∃ datas, hu.buildHeaderDataVector (r.match_.getD []) = .ok datas) ↔
      ∀ matcher ∈ r.match_.getD [], ∃ data, hu.buildHeaderData matcher = .ok data := by
    rw [HeaderUtility.buildHeaderDataVector, Traverse.mapM_succeeds_iff]
    refine forall₂_congr fun matcher _ => exists_congr fun data => ?_
    cases hu.buildHeaderData matcher <;> simp [Except.mapError]
  have hweights :
      (∃ entries, (r.route.getD {}).clusterSpecifier.clusters.mapM WeightedClusterEntry.new = .ok entries) ↔
        ∀ c ∈ (r.route.getD {}).clusterSpecifier.clusters, c.weight.isSome := by
    rw [Traverse.mapM_succeeds_iff]
    refine forall₂_congr fun c _ => ?_
    simp only [WeightedClusterEntry.new_eq_ok_iff, Option.isSome_iff_exists]
    exact ⟨fun ⟨_, w, hw, _⟩ => ⟨w, hw⟩, fun ⟨w, hw⟩ => ⟨_, w, hw, rfl⟩⟩
  simp only [RouteEntryImplBase.new_eq_ok_iff, HttpRoute.toRoute_matchers]
  constructor
  · rintro ⟨e, datas, entries, hdatas, hentries, -⟩
    exact ⟨hmatchers.1 ⟨datas, hdatas⟩, hweights.1 ⟨entries, hentries⟩⟩
  · intro h
    obtain ⟨datas, hdatas⟩ := hmatchers.2 h.matchers
    obtain ⟨entries, hentries⟩ := hweights.2 h.weights
    exact ⟨_, datas, entries, hdatas, hentries, rfl⟩

theorem matchesHeader_all {matchers : List M} {datas : List D}
    (h : List.Forall₂ (fun matcher data => hu.buildHeaderData matcher = .ok data) matchers datas)
    (headers : H) :
    datas.all (fun data => hu.matchesHeader data headers) = matchers.all (hu.accepts headers) := by
  induction h with
  | nil => rfl
  | cons hdata _ ih => simp [HeaderUtility.accepts, hdata, ih]

theorem headersMatch_toRoute {r : HttpRoute M WeightedCluster} {e : RouteEntryImplBase D}
    (hnew : RouteEntryImplBase.new hu r.toRoute = .ok e) (headers : H) :
    e.headersMatch hu headers = r.accepts hu headers := by
  obtain ⟨datas, entries, hdatas, -, rfl⟩ := RouteEntryImplBase.new_eq_ok_iff.1 hnew
  rw [HttpRoute.toRoute_matchers, HeaderUtility.buildHeaderDataVector_eq_ok_iff] at hdatas
  simp only [RouteEntryImplBase.headersMatch, HttpRoute.accepts, ← matchesHeader_all hdatas headers]
  cases datas <;> simp

/-- With a weight that is not 0 the cluster of an accepted weighted list is the one picked for its
weights. -/
theorem clusterEntry_weighted {route : RouteEntry M WeightedCluster} {wc : WeightedCluster}
    (hspecifier : route.clusterSpecifier = .weightedClusters wc) (hpositive : ∃ c ∈ wc.clusters, c.toNat ≠ 0)
    {e : RouteEntryImplBase D} (hnew : RouteEntryImplBase.new hu route = .ok e) (random : UInt64) :
    ∃ found, e.clusterEntry wu random = .ok found ∧ found.parent = e ∧
      found.clusterName = wc.pick wu random := by
  obtain ⟨hweights, htotal⟩ := weightsOf_accepted hspecifier hnew
  obtain ⟨hne, hnonzero⟩ := weighted_of_positive hspecifier hpositive hnew
  obtain ⟨i, hentry, -⟩ := clusterEntry_holds wu hne htotal hnonzero random
  have hclusters : e.weightedClusters = wc.clusters.map ClusterWeight.entry := by
    obtain ⟨datas, entries, -, hentries, rfl⟩ := RouteEntryImplBase.new_eq_ok_iff.1 hnew
    rw [hspecifier] at hentries
    exact entries_of_mapM hentries
  have hsum : e.totalClusterWeight = UInt64.ofNat (wc.clusters.map ClusterWeight.toNat).sum := by
    rw [← hweights, ← htotal, UInt64.ofNat_toNat]
  refine ⟨_, hentry, rfl, ?_⟩
  rw [RouteEntryImplBase.clusterEntry, if_neg (by simpa using hne)] at hentry
  cases hpick : wu.pickCluster e.weightedClusters e.totalClusterWeight random with
  | error failure => simp [hpick, Except.map] at hentry
  | ok j =>
    simp only [hpick, Except.map, Except.ok.injEq, MatchedRoute.mk.injEq, heq_eq_eq, true_and,
      Option.some.injEq] at hentry
    subst hentry
    rw [WeightedCluster.pick, ← hsum, ← hclusters, pickName, hpick]
    rfl

theorem clusterEntry_toRoute {r : HttpRoute M WeightedCluster} {e : RouteEntryImplBase D}
    (hr : r.Routable) (hnew : RouteEntryImplBase.new hu r.toRoute = .ok e) (random : UInt64) :
    ∃ found, e.clusterEntry wu random = .ok found ∧ found.parent = e ∧
      found.clusterName = (r.route.getD {}).pick wu random := by
  obtain ⟨action, haction, hspecifier, -⟩ := hr
  have htoRoute : r.toRoute.clusterSpecifier = action.clusterSpecifier := by simp [HttpRoute.toRoute, haction]
  cases hcase : action.clusterSpecifier with
  | other => simp [ClusterSpecifier.Routable, hcase] at hspecifier
  | cluster name =>
    obtain ⟨datas, entries, -, hentries, rfl⟩ := RouteEntryImplBase.new_eq_ok_iff.1 hnew
    have hempty : entries = [] := by
      simpa [htoRoute, hcase, ClusterSpecifier.clusters] using entries_of_mapM hentries
    subst hempty
    refine ⟨_, rfl, rfl, ?_⟩
    simp [MatchedRoute.clusterName, haction, HttpRouteAction.pick, htoRoute, hcase,
      ClusterSpecifier.clusterName]
  | weightedClusters wc =>
    rw [hcase] at hspecifier
    obtain ⟨found, hfound, hparent, hname⟩ :=
      clusterEntry_weighted wu (htoRoute.trans hcase) hspecifier hnew random
    refine ⟨found, hfound, hparent, hname.trans ?_⟩
    simp [haction, HttpRouteAction.pick, hcase]

theorem view_toRoute {r : HttpRoute M WeightedCluster} {e : RouteEntryImplBase D}
    (hr : r.Routable) (hnew : RouteEntryImplBase.new hu r.toRoute = .ok e) (random : UInt64) :
    ∃ found, e.clusterEntry wu random = .ok found ∧ found.view = r.view wu random := by
  obtain ⟨found, hfound, hparent, hname⟩ := clusterEntry_toRoute wu hr hnew random
  refine ⟨found, hfound, ?_⟩
  obtain ⟨datas, entries, -, -, he⟩ := RouteEntryImplBase.new_eq_ok_iff.1 hnew
  have hhash : found.hashPolicy.getD [] = r.toRoute.hashPolicy := by
    rw [MatchedRoute.hashPolicy, hparent, he]
    by_cases hempty : r.toRoute.hashPolicy = []
    · simp [hempty]
    · simp [hempty]
  simp only [MatchedRoute.view, HttpRoute.view, MatchedRoute.routeName, hname, hhash, hparent]
  rw [he]
  rfl

/-- The walk through the table of translated routes finds the first HTTP route that matches. -/
theorem routeLoop_toRoute {routes : List (HttpRoute M WeightedCluster)}
    {entries : List (RouteEntryImplBase D)} (hroutes : ∀ r ∈ routes, r.Routable)
    (hnew : List.Forall₂ (fun r e => RouteEntryImplBase.new hu r.toRoute = .ok e) routes entries)
    (headers : H) (random : UInt64) : ∃ found, routeLoop hu wu headers random entries = .ok found ∧
      found.map MatchedRoute.view =
        (routes.find? (HttpRoute.accepts hu headers)).map (HttpRoute.view wu random) := by
  induction hnew with
  | nil => exact ⟨none, rfl, rfl⟩
  | @cons r e routes entries hentry hrest ih =>
    rw [List.forall_mem_cons] at hroutes
    have hmatch := headersMatch_toRoute hentry headers
    cases haccepts : r.accepts hu headers with
    | true =>
      obtain ⟨found, hfound, hview⟩ := view_toRoute wu hroutes.1 hentry random
      refine ⟨some found, ?_, ?_⟩
      · simp [routeLoop, RouteEntryImplBase.matches_, hmatch, haccepts, hfound, Except.map, bind,
          Except.bind, pure, Except.pure]
      · simp [haccepts, hview]
    | false =>
      obtain ⟨found, hfound, hview⟩ := ih hroutes.2
      refine ⟨found, ?_, ?_⟩
      · simp [routeLoop, RouteEntryImplBase.matches_, hmatch, haccepts, hfound, bind, Except.bind]
      · rw [hview, List.find?_cons_of_neg (by simp [haccepts])]

theorem translation_preserves_routing (hu : HeaderUtility M D H)
    (http : HttpRouteConfiguration M WeightedCluster)
    {routes : List (HttpRoute M WeightedCluster)} (hhosts : http.virtualHosts = [routes])
    (hroutes : ∀ r ∈ routes, r.Routable) :
    ∃ rc, httpRouteConfig2MetaProtocolRouteConfig http = .ok rc ∧
      ((∃ table, RouteMatcherImpl.new hu rc = .ok table) ↔ ∀ r ∈ routes, r.Compiles hu) ∧
      ∀ table, RouteMatcherImpl.new hu rc = .ok table → ∀ headers random,
        ∃ found, table.route hu wu headers random = .ok found ∧
          found.map MatchedRoute.view =
            (routes.find? (HttpRoute.accepts hu headers)).map (HttpRoute.view wu random) := by
  refine ⟨{ name := http.name, routes := routes.map HttpRoute.toRoute }, ?_, ?_, ?_⟩
  · simp [httpRouteConfig2MetaProtocolRouteConfig, hhosts]
  · simp only [RouteMatcherImpl.new_eq_ok_iff, ← toRoute_new_succeeds_iff]
    rw [← List.forall_mem_map
      (P := fun route => ∃ e, RouteEntryImplBase.new hu route = .ok e), ← Traverse.mapM_succeeds_iff]
    exact ⟨fun ⟨table, h⟩ => ⟨table.routes, h⟩, fun ⟨entries, h⟩ => ⟨⟨entries⟩, h⟩⟩
  · intro table htable headers random
    rw [RouteMatcherImpl.new_eq_ok_iff, Traverse.mapM_eq_ok_iff, List.forall₂_map_left_iff] at htable
    exact routeLoop_toRoute wu hroutes htable headers random

def demoRoutes : List (HttpRoute (String × String) WeightedCluster) :=
  [{ name := "versions"
     match_ := some [("interface", "demo"), ("method", "hello")]
     route := some
       { clusterSpecifier := .weightedClusters blueGreen
         hashPolicy := [.header "user", .header "tenant"] }
     requestHeadersToAdd := [("stage", "test"), ("stage", "prod")] },
   { name := "default"
     match_ := some []
     route := some { clusterSpecifier := .cluster "outbound" }
     responseHeadersToAdd := [("served-by", "mesh")] }]

def demoConfig : HttpRouteConfiguration (String × String) WeightedCluster :=
  { name := "demo", virtualHosts := [demoRoutes] }

theorem demoRoutes_routable : ∀ r ∈ demoRoutes, r.Routable := by
  have hweight : ∃ c ∈ blueGreen.clusters, c.toNat ≠ 0 :=
    ⟨{ name := "blue", weight := some 1 }, by decide, by decide⟩
  simp [demoRoutes, HttpRoute.Routable, ClusterSpecifier.Routable, hweight]

/-- A request for `hello` goes to the weighted route, any other to the default. -/
theorem translation_preserves_demo :
    (∃ rc, httpRouteConfig2MetaProtocolRouteConfig demoConfig = .ok rc ∧
      ((∃ table, RouteMatcherImpl.new exactHeaders rc = .ok table) ↔
        ∀ r ∈ demoRoutes, r.Compiles exactHeaders) ∧
      ∀ table, RouteMatcherImpl.new exactHeaders rc = .ok table → ∀ headers random,
        ∃ found, table.route exactHeaders searchIntervals headers random = .ok found ∧
          found.map MatchedRoute.view =
            (demoRoutes.find? (HttpRoute.accepts exactHeaders headers)).map
              (HttpRoute.view searchIntervals random)) ∧
    ((demoRoutes.find?
      (HttpRoute.accepts exactHeaders [("interface", "demo"), ("method", "hello")])).map
      (HttpRoute.view searchIntervals 2)).map RouteView.clusterName = some "green" ∧
    ((demoRoutes.find? (HttpRoute.accepts exactHeaders [("interface", "demo")])).map
      (HttpRoute.view searchIntervals 2)).map
      RouteView.clusterName = some "outbound" :=
  ⟨translation_preserves_routing searchIntervals exactHeaders demoConfig rfl
    demoRoutes_routable, by decide, by decide⟩

/-! ## Mirror policies -/

/-- Two policies mirror the same requests to the same cluster. -/
def SameMirroring (runtime : Runtime S) (p q : RequestMirrorPolicyImpl) : Prop :=
  p.clusterName = q.clusterName ∧
    ∀ snapshot random, p.shouldShadow runtime snapshot random = q.shouldShadow runtime snapshot random

/-- A translated policy decides as the original just when the original has a fraction without a
key. -/
theorem sameMirroring_converted_iff (runtime : Runtime S) (p : RequestMirrorPolicy) :
    SameMirroring runtime (.new p.converted) (.new p) ↔
      ∃ fraction, p.runtimeFraction = some fraction ∧ fraction.runtimeKey = "" := by
  constructor
  · rintro ⟨-, hdecides⟩
    cases hfraction : p.runtimeFraction with
    | none =>
      -- nothing is mirrored where everything should be
      obtain ⟨s, -⟩ := runtime.override "key" (by decide) true
      have h := hdecides s 0
      simp [RequestMirrorPolicyImpl.new, RequestMirrorPolicy.converted,
        RequestMirrorPolicyImpl.shouldShadow, hfraction, runtime.never, runtime.always] at h
    | some fraction =>
      refine ⟨fraction, rfl, ?_⟩
      by_contra hkey
      -- the key turns the feature off, or on, and the translated policy does not know it
      obtain ⟨off, hoff⟩ := runtime.override _ hkey false
      obtain ⟨on, hon⟩ := runtime.override _ hkey true
      have hdiffer := (hdecides off 0).symm.trans ((runtime.keyless off on _ 0).trans (hdecides on 0))
      simp [RequestMirrorPolicyImpl.new, RequestMirrorPolicyImpl.shouldShadow, hfraction, hoff,
        hon] at hdiffer
  · rintro ⟨fraction, hfraction, hkey⟩
    simp [SameMirroring, RequestMirrorPolicyImpl.new, RequestMirrorPolicy.converted,
      RequestMirrorPolicyImpl.shouldShadow, hfraction, hkey]

/-- The policies of a translated route mirror as those of the HTTP route, each in its place, just
when every one of these has a fraction without a key. -/
theorem mirror_decisions_survive_iff (runtime : Runtime S) (r : HttpRoute M W) :
    List.Forall₂ (SameMirroring runtime) (r.toRoute.requestMirrorPolicies.map RequestMirrorPolicyImpl.new)
        ((r.route.getD {}).requestMirrorPolicies.map RequestMirrorPolicyImpl.new) ↔
      ∀ p ∈ (r.route.getD {}).requestMirrorPolicies,
        ∃ fraction, p.runtimeFraction = some fraction ∧ fraction.runtimeKey = "" := by
  simp only [HttpRoute.toRoute, List.map_map, List.forall₂_map_left_iff, List.forall₂_map_right_iff,
    List.forall₂_same, Function.comp_apply, sameMirroring_converted_iff]

def mirrorAll : HttpRoute Unit Unit where
  name := "mirror"
  route := some { clusterSpecifier := .cluster "live", requestMirrorPolicies := [{ cluster := "shadow" }] }

def DenominatorType.toNat : DenominatorType → Nat
  | .hundred => 100
  | .tenThousand => 10000
  | .million => 1000000

/-- Snapshots that turn keys on and off. -/
def switches : Runtime (String → Option Bool) where
  featureEnabled s key value random :=
    (if key = "" then none else s key).getD (random.toNat % value.denominator.toNat < value.numerator)
  keyless _ _ _ _ := rfl
  never _ _ := by simp
  always _ random := decide_eq_true (Nat.mod_lt random.toNat (by decide : 0 < 100))
  override key hkey enabled := ⟨fun _ => some enabled, by simp [hkey]⟩

/-- A policy without a fraction mirrors everything, and nothing once it has been translated. -/
theorem mirrorAll_translated :
    ((mirrorAll.route.getD {}).requestMirrorPolicies.map fun p =>
      (RequestMirrorPolicyImpl.new p).shouldShadow switches (fun _ => none) 0) = [true] ∧
    (mirrorAll.toRoute.requestMirrorPolicies.map fun p =>
      (RequestMirrorPolicyImpl.new p).shouldShadow switches (fun _ => none) 0) = [false] ∧
    ¬ List.Forall₂ (SameMirroring switches)
      (mirrorAll.toRoute.requestMirrorPolicies.map RequestMirrorPolicyImpl.new)
      ((mirrorAll.route.getD {}).requestMirrorPolicies.map RequestMirrorPolicyImpl.new) := by
  refine ⟨by decide, by decide, fun h => ?_⟩
  cases h with
  | cons hsame _ => exact absurd (hsame.2 (fun _ => none) 0) (by decide)

end MetaProtocolProxy.Route
