import MetaProtocolProxy.Route.Matcher
/-
# Failing updates (route_config_update_receiver_impl.cc:22-42, rds_impl.cc:83-206)

`onRdsUpdate` replaces the message and its hash before it makes the configuration. When that throws,
the two stay replaced, and the same configuration offered again is taken for the one in use: the
receiver is atomic just for the updates that do not throw (`rds_update_atomic_iff`).

`onConfigUpdate` turns what is thrown inside its `try` block into a status. The number of resources
is checked outside of it, and the shape of the configuration by `ASSERT`s that a release build does
not have (`config_update_handled_iff`).
-/
namespace MetaProtocolProxy.Route

variable {M W C D H η : Type}

/-! ## The receiver -/

/-- The stored message, hash, version, `configInfo` and configuration are the same. -/
structure RouteConfigUpdateReceiverImpl.SameAs (r r' : RouteConfigUpdateReceiverImpl M W C η) : Prop where
  routeConfigProto : r'.routeConfigProto = r.routeConfigProto
  lastConfigHash : r'.lastConfigHash = r.lastConfigHash
  lastConfigVersion : r'.lastConfigVersion = r.lastConfigVersion
  configInfo : r'.configInfo = r.configInfo
  config : r'.config = r.config

/-- If the update throws because the configuration cannot be made, nothing has changed, and the same
configuration is not taken for the one in use afterwards. -/
def RouteConfigUpdateReceiverImpl.AtomicOn [DecidableEq η] (env : RdsEnv M W C η)
    (r : RouteConfigUpdateReceiverImpl M W C η)
    (rc : RouteConfiguration M W) (versionInfo : String) : Prop :=
  ∀ failure, env.configImpl rc = .error failure → (r.onRdsUpdate env rc versionInfo).2 = .error failure →
    r.SameAs (r.onRdsUpdate env rc versionInfo).1 ∧
      ∀ later, ((r.onRdsUpdate env rc versionInfo).1.onRdsUpdate env rc later).2 ≠ .ok false

/-- The receiver is atomic on an update just when it does not come to throw. -/
theorem rds_update_atomic_iff [DecidableEq η] (env : RdsEnv M W C η)
    (r : RouteConfigUpdateReceiverImpl M W C η)
    (rc : RouteConfiguration M W) (versionInfo : String) :
    r.AtomicOn env rc versionInfo ↔
      env.hash rc = r.lastConfigHash ∨ ∃ config, env.configImpl rc = .ok config := by
  constructor
  · intro hatomic
    by_contra! hfails
    obtain ⟨hhash, hconfig⟩ := hfails
    cases hthrows : env.configImpl rc with
    | ok config => exact hconfig config hthrows
    | error failure =>
      have hresult : (r.onRdsUpdate env rc versionInfo).2 = .error failure := by
        simp [RouteConfigUpdateReceiverImpl.onRdsUpdate, hhash, hthrows]
      -- the hash is that of the refused configuration
      have hkept := (hatomic failure hthrows hresult).1.lastConfigHash
      simp only [RouteConfigUpdateReceiverImpl.onRdsUpdate, if_neg hhash, hthrows] at hkept
      exact hhash hkept
  · rintro (hhash | ⟨config, hconfig⟩) failure hthrows hresult
    · simp [RouteConfigUpdateReceiverImpl.onRdsUpdate, hhash] at hresult
    · rw [hconfig] at hthrows
      cases hthrows

/-- The server's context: the constructor of `ConfigImpl`, and a hash. -/
def serverEnv (hu : HeaderUtility M D H) (routeConfigName : String)
    (hash : RouteConfiguration M WeightedCluster → η) :
    RdsEnv M WeightedCluster (ConfigImpl D) η where
  routeConfigName := routeConfigName
  hash := hash
  configImpl := ConfigImpl.new hu

/-- A route to a weighted cluster whose weight is missing. -/
def unweighted : RouteConfiguration (String × String) WeightedCluster where
  name := "demo"
  routes := [{
    clusterSpecifier := .weightedClusters { clusters := [{ name := "blue" }], size_lt := one_lt_size } }]

/-- A context in which the hash of a configuration is the number of its routes. -/
def demoEnv : RdsEnv (String × String) WeightedCluster (ConfigImpl (String × String)) Nat :=
  serverEnv exactHeaders "demo" fun rc => rc.routes.length

def freshReceiver :
    RouteConfigUpdateReceiverImpl (String × String) WeightedCluster (ConfigImpl (String × String)) Nat where
  lastConfigHash := 0

/-- The update throws, the message and the hash are those of the refused configuration, and the same
configuration is then reported as unchanged. -/
theorem unweighted_half_stored :
    (freshReceiver.onRdsUpdate demoEnv unweighted "v1").2 =
      .error (.envoyException "Field 'weight' is missing in: ") ∧
    (freshReceiver.onRdsUpdate demoEnv unweighted "v1").1.routeConfigProto = unweighted ∧
    (freshReceiver.onRdsUpdate demoEnv unweighted "v1").1.lastConfigHash = 1 ∧
    ((freshReceiver.onRdsUpdate demoEnv unweighted "v1").1.onRdsUpdate demoEnv unweighted "v2").2 =
    .ok false ∧ ¬ freshReceiver.AtomicOn demoEnv unweighted "v1" := by
  refine ⟨rfl, rfl, rfl, rfl, fun hatomic => ?_⟩
  exact (hatomic _ rfl rfl).2 "v2" rfl

/-! ## The subscription -/

/-- The `ASSERT`s of `httpRouteConfig2MetaProtocolRouteConfig`. -/
structure HttpRouteConfiguration.AssertsHold (http : HttpRouteConfiguration M W) : Prop where
  virtualHosts_size : http.virtualHosts.length = 1
  routeSize : 0 < (http.virtualHosts.headD []).length
  has_route : ∀ r ∈ http.virtualHosts.headD [], r.route.isSome

/-- The update ends with a status, and no `ASSERT` is violated on the way. -/
structure Handled [DecidableEq η] (env : RdsEnv M W C η) (s : RdsRouteConfigSubscription M W C η)
    (resources : List (HttpRouteConfiguration M W)) (versionInfo : String) : Prop where
  returns : ∃ status, (s.onConfigUpdate env resources versionInfo).2 = .ok status
  asserts : ∀ http, soleResource resources = some http → http.AssertsHold

theorem soleResource_eq_some_iff {resources : List (HttpRouteConfiguration M W)}
    {http : HttpRouteConfiguration M W} :
    soleResource resources = some http ↔ resources.length.toInt32 = 1 ∧ ∃ rest, resources = http :: rest := by
  cases resources with
  | nil => simp [soleResource]
  | cons head rest => simp [soleResource]

/-- What the constructors throw is an `EnvoyException`. -/
theorem RouteEntryImplBase.new_throws {hu : HeaderUtility M D H}
    {route : RouteEntry M WeightedCluster} {failure : Failure}
    (h : RouteEntryImplBase.new hu route = .error failure) : ∃ what, failure = .envoyException what := by
  simp only [RouteEntryImplBase.new] at h
  cases hheaders : hu.buildHeaderDataVector (route.match_.getD []) with
  | error e =>
    rw [hheaders] at h
    obtain ⟨matcher, -, hmatcher⟩ := Traverse.mem_of_mapM_eq_error hheaders
    cases hdata : hu.buildHeaderData matcher with
    | ok data => simp [hdata, Except.mapError] at hmatcher
    | error what =>
      simp only [hdata, Except.mapError, Except.error.injEq] at hmatcher
      exact ⟨what, (Except.error.inj h).symm.trans hmatcher.symm⟩
  | ok datas =>
    rw [hheaders] at h
    cases hclusters : route.clusterSpecifier.clusters.mapM WeightedClusterEntry.new with
    | ok entries =>
      rw [hclusters] at h
      cases h
    | error e =>
      rw [hclusters] at h
      obtain ⟨c, -, hc⟩ := Traverse.mem_of_mapM_eq_error hclusters
      cases hw : c.weight with
      | some w => simp [WeightedClusterEntry.new, hw] at hc
      | none =>
        simp only [WeightedClusterEntry.new, hw, Except.error.injEq] at hc
        exact ⟨_, (Except.error.inj h).symm.trans hc.symm⟩

theorem ConfigImpl.new_throws {hu : HeaderUtility M D H} {rc : RouteConfiguration M WeightedCluster}
    {failure : Failure}
    (h : ConfigImpl.new hu rc = .error failure) : ∃ what, failure = .envoyException what := by
  simp only [ConfigImpl.new, RouteMatcherImpl.new] at h
  cases hroutes : rc.routes.mapM (RouteEntryImplBase.new hu) with
  | ok entries => simp [hroutes, Except.map] at h
  | error e =>
    simp only [hroutes, Except.map, Except.error.injEq] at h
    obtain ⟨route, -, hroute⟩ := Traverse.mem_of_mapM_eq_error hroutes
    exact h ▸ RouteEntryImplBase.new_throws hroute

section Subscription

variable [DecidableEq η] (hu : HeaderUtility M D H) (routeConfigName : String)
  (hash : RouteConfiguration M WeightedCluster → η)
  (s : RdsRouteConfigSubscription M WeightedCluster (ConfigImpl D) η)

/-- With a virtual host, the `try` block ends with a status or an `EnvoyException`. -/
theorem tryUpdate_outcome {http : HttpRouteConfiguration M WeightedCluster}
    (hhosts : http.virtualHosts ≠ []) (versionInfo : String) :
    (∃ status, (s.tryUpdate (serverEnv hu routeConfigName hash) http versionInfo).2 = .ok status) ∨
      ∃ what, (s.tryUpdate (serverEnv hu routeConfigName hash) http versionInfo).2 =
        .error (.envoyException what) := by
  obtain ⟨rc, hrc⟩ : ∃ rc, httpRouteConfig2MetaProtocolRouteConfig http = .ok rc := by
    cases hcase : http.virtualHosts with
    | nil => exact absurd hcase hhosts
    | cons routes rest => exact ⟨_, by rw [httpRouteConfig2MetaProtocolRouteConfig, hcase]⟩
  simp only [RdsRouteConfigSubscription.tryUpdate, hrc]
  split
  · exact .inl ⟨_, rfl⟩
  cases hvalid : s.validateConfig (serverEnv hu routeConfigName hash) rc with
  | error failure =>
    refine .inr ?_
    cases hprovider : s.provider with
    | none => simp [RdsRouteConfigSubscription.validateConfig, hprovider] at hvalid
    | some published =>
      cases hconfig : ConfigImpl.new hu rc with
      | ok config =>
        simp [RdsRouteConfigSubscription.validateConfig, hprovider, serverEnv, hconfig, Except.map] at hvalid
      | error e =>
        obtain ⟨what, rfl⟩ := ConfigImpl.new_throws hconfig
        simp only [RdsRouteConfigSubscription.validateConfig, hprovider, serverEnv, hconfig,
          Except.map, Except.error.injEq] at hvalid
        exact ⟨what, by rw [hvalid]⟩
  | ok _ =>
    by_cases hhash : hash rc = s.configUpdateInfo.lastConfigHash
    · exact .inl ⟨.ok, by simp [RouteConfigUpdateReceiverImpl.onRdsUpdate, serverEnv, hhash]⟩
    cases hconfig : ConfigImpl.new hu rc with
    | ok config =>
      exact .inl ⟨.ok, by simp [RouteConfigUpdateReceiverImpl.onRdsUpdate, serverEnv, hhash, hconfig]⟩
    | error e =>
      obtain ⟨what, rfl⟩ := ConfigImpl.new_throws hconfig
      exact .inr ⟨what, by simp [RouteConfigUpdateReceiverImpl.onRdsUpdate, serverEnv, hhash, hconfig]⟩

/-- What the `try` block throws becomes a status. -/
theorem onConfigUpdate_returns {resources : List (HttpRouteConfiguration M WeightedCluster)}
    {http : HttpRouteConfiguration M WeightedCluster}
    (hsole : soleResource resources = some http) (hhosts : http.virtualHosts ≠ []) (versionInfo : String) :
    ∃ status, (s.onConfigUpdate (serverEnv hu routeConfigName hash) resources versionInfo).2 =
      .ok status := by
  obtain ⟨hone, rest, rfl⟩ := soleResource_eq_some_iff.1 hsole
  simp only [RdsRouteConfigSubscription.onConfigUpdate, validateUpdateSize, hone,
    show ¬ (1 : Int32) = 0 by decide, if_false, ne_eq, not_true_eq_false]
  obtain ⟨status, htry⟩ | ⟨what, htry⟩ := tryUpdate_outcome hu routeConfigName hash s hhosts versionInfo
  · refine ⟨status, ?_⟩
    split
    · next heq => simp [heq] at htry
    · exact htry
  · refine ⟨.internal what, ?_⟩
    split
    · next heq =>
      rw [heq] at htry
      cases htry
      rfl
    · next hother => exact (hother _ what (Prod.ext rfl htry)).elim

/-- An update is handled just when it has no resource, or a resource of the asserted shape; sizes
count as `int`s. -/
theorem config_update_handled_iff (resources : List (HttpRouteConfiguration M WeightedCluster))
    (versionInfo : String) : Handled (serverEnv hu routeConfigName hash) s resources versionInfo ↔
      resources.length.toInt32 = 0 ∨ ∃ http, soleResource resources = some http ∧ http.AssertsHold := by
  constructor
  · rintro ⟨⟨status, hstatus⟩, hasserts⟩
    by_contra! hbad
    obtain ⟨hzero, hshape⟩ := hbad
    have hone : resources.length.toInt32 ≠ 1 := by
      intro hone
      cases resources with
      | nil => exact hzero rfl
      | cons http rest =>
        have hsole : soleResource (http :: rest) = some http := soleResource_eq_some_iff.2 ⟨hone, rest, rfl⟩
        exact hshape http hsole (hasserts http hsole)
    -- the size check throws outside of the try block
    simp [RdsRouteConfigSubscription.onConfigUpdate, validateUpdateSize, hzero, hone] at hstatus
  · rintro (hzero | ⟨http, hsole, hasserts⟩)
    · refine ⟨⟨.invalidArgument "Invalid update size", ?_⟩, fun http hsole => ?_⟩
      · simp [RdsRouteConfigSubscription.onConfigUpdate, validateUpdateSize, hzero]
      · have hone := (soleResource_eq_some_iff.1 hsole).1
        rw [hzero] at hone
        exact absurd hone (by decide)
    · have hhosts : http.virtualHosts ≠ [] := by
        intro h
        simpa [h] using hasserts.virtualHosts_size
      exact ⟨onConfigUpdate_returns hu routeConfigName hash s hsole hhosts versionInfo,
        fun http' hsole' => Option.some.inj (hsole.symm.trans hsole') ▸ hasserts⟩

end Subscription

def demoSubscription :
    RdsRouteConfigSubscription (String × String) WeightedCluster (ConfigImpl (String × String)) Nat where
  configUpdateInfo := freshReceiver

/-- Two resources: the exception of the size check reaches the caller. A resource without virtual
hosts: there is no first one. -/
theorem two_resources_escape :
    (demoSubscription.onConfigUpdate demoEnv [⟨"demo", [[]]⟩, ⟨"demo", [[]]⟩] "v1").2 =
      .error (.envoyException "Unexpected RDS resource length: 2") ∧
    (demoSubscription.onConfigUpdate demoEnv [⟨"demo", []⟩] "v1").2 =
      .error (.nullDereference "virtual_hosts(0)") ∧
    ¬ Handled demoEnv demoSubscription [⟨"demo", [[]]⟩, ⟨"demo", [[]]⟩] "v1" := by
  refine ⟨by decide, rfl, fun hhandled => ?_⟩
  obtain ⟨status, hstatus⟩ := hhandled.returns
  cases hstatus

end MetaProtocolProxy.Route
