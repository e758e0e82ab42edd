import Mathlib.Algebra.Notation.Defs
import MetaProtocolProxy.Codec
import MetaProtocolProxy.Lib.Runs
/-
# Route discovery (route/rds_impl.cc, route_config_update_receiver_impl.h, .cc)

A subscription receives route configurations as HTTP ones, converts them, and keeps the last one
accepted in five places: the protobuf message, its hash, the parsed configuration, `configInfo`, and
what the provider has handed to the threads. The parsed configuration is made by a constructor that
may throw, after the message and the hash have been replaced; that the state still agrees is due to
`validateConfig`, which makes the same configuration before anything is touched (`rds_agreement`).

| here | there |
| --- | --- |
| `M`, `W`, `C`, `η` | `HeaderMatcher`, `WeightedCluster`, `ConfigImpl`, and the hashes, with their 0 |
| `RdsEnv.hash`, `RdsEnv.configImpl` | `MessageUtil::hash`; the constructor of `ConfigImpl` with the server's context |
| `object` | which `RouteConfiguration` `route_config_proto_` points to |
| `ConfigInfo.config` | the reference `config_`, by the object it refers to |
| `published` | what the last `runOnAllThreads` handed over; `none` is `NullConfigImpl` |

The statistics, the time of the last update and the init targets are not modelled. `ASSERT`s are not
compiled into a release build: the first virtual host of a message without one does not exist.
-/
namespace MetaProtocolProxy.Route

variable {M W C η : Type}

/-- `cluster_specifier` of a route action; the two the conversion knows. -/
inductive ClusterSpecifier (W : Type)
  | cluster (name : String)
  | weightedClusters (clusters : W)
  | other
  deriving DecidableEq

/-- `FractionalPercent::DenominatorType`. -/
inductive DenominatorType
  | hundred
  | tenThousand
  | million
  deriving DecidableEq

/-- `envoy.type.v3.FractionalPercent`; one that is not set reads as the default. -/
structure FractionalPercent where
  numerator : Nat := 0
  denominator : DenominatorType := .hundred
  deriving DecidableEq

/-- `envoy.config.core.v3.RuntimeFractionalPercent`. -/
structure RuntimeFractionalPercent where
  defaultValue : FractionalPercent := {}
  runtimeKey : String := ""
  deriving DecidableEq

/-- `RequestMirrorPolicy` of both APIs. -/
structure RequestMirrorPolicy where
  cluster : String
  runtimeFraction : Option RuntimeFractionalPercent := none
  deriving DecidableEq

inductive HttpHashPolicy
  | header (headerName : String)
  | other
  deriving DecidableEq

/-- `envoy.config.route.v3.RouteAction`, what the conversion reads of it. -/
structure HttpRouteAction (W : Type) where
  clusterSpecifier : ClusterSpecifier W := .other
  hashPolicy : List HttpHashPolicy := []
  requestMirrorPolicies : List RequestMirrorPolicy := []

/-- `envoy.config.route.v3.Route`, what the conversion reads of it. -/
structure HttpRoute (M W : Type) where
  name : String := ""
  match_ : Option (List M) := none
  /-- `none` for a redirect, a direct response or any other action. -/
  route : Option (HttpRouteAction W) := none
  requestHeadersToAdd : List (String × String) := []
  responseHeadersToAdd : List (String × String) := []

/-- `envoy.config.route.v3.RouteConfiguration`. -/
structure HttpRouteConfiguration (M W : Type) where
  name : String
  virtualHosts : List (List (HttpRoute M W))

/-- `aeraki...route.v1alpha.Route`. -/
structure RouteEntry (M W : Type) where
  name : String := ""
  match_ : Option (List M) := none
  clusterSpecifier : ClusterSpecifier W := .other
  hashPolicy : List String := []
  requestMirrorPolicies : List RequestMirrorPolicy := []
  requestMutation : List (String × String) := []
  responseMutation : List (String × String) := []
  deriving DecidableEq

/-- `aeraki...route.v1alpha.RouteConfiguration`. -/
structure RouteConfiguration (M W : Type) where
  name : String := ""
  routes : List (RouteEntry M W) := []
  deriving DecidableEq

/-- `header().header_name()`, empty for a policy of another kind. -/
def HttpHashPolicy.headerName : HttpHashPolicy → String
  | .header headerName => headerName
  | .other => ""

/-- A mirror policy of the new route (rds_impl.cc:180-187): the fraction is always set, and without
its key. -/
def RequestMirrorPolicy.converted (p : RequestMirrorPolicy) : RequestMirrorPolicy :=
  let value := (p.runtimeFraction.getD {}).defaultValue
  { cluster := p.cluster
    runtimeFraction :=
      some { defaultValue := { numerator := value.numerator, denominator := value.denominator } } }

/-- The loop of the conversion: a match without headers is left out, and a route without an action
reads as one with the default action. -/
def HttpRoute.toRoute (r : HttpRoute M W) : RouteEntry M W :=
  let action := r.route.getD {}
  { name := r.name
    match_ := r.match_.filter fun headers => !headers.isEmpty
    clusterSpecifier := action.clusterSpecifier
    hashPolicy := action.hashPolicy.map HttpHashPolicy.headerName
    requestMirrorPolicies := action.requestMirrorPolicies.map RequestMirrorPolicy.converted
    requestMutation := r.requestHeadersToAdd
    responseMutation := r.responseHeadersToAdd }

/-- `httpRouteConfig2MetaProtocolRouteConfig` (rds_impl.cc:133-206). -/
def httpRouteConfig2MetaProtocolRouteConfig (http : HttpRouteConfiguration M W) :
    Except Failure (RouteConfiguration M W) :=
  match http.virtualHosts with
  | [] => .error (.nullDereference "virtual_hosts(0)")
  | routes :: _ => .ok { name := http.name, routes := routes.map HttpRoute.toRoute }

/-- What a subscription is made with. -/
structure RdsEnv (M W C η : Type) where
  routeConfigName : String
  hash : RouteConfiguration M W → η
  configImpl : RouteConfiguration M W → Except Failure C

structure ConfigInfo where
  config : Nat
  version : String
  deriving DecidableEq

structure RouteConfigUpdateReceiverImpl (M W C η : Type) where
  routeConfigProto : RouteConfiguration M W := {}
  object : Nat := 0
  lastConfigHash : η
  lastConfigVersion : String := ""
  configInfo : Option ConfigInfo := none
  config : Option C := none

structure RdsRouteConfigSubscription (M W C η : Type) where
  configUpdateInfo : RouteConfigUpdateReceiverImpl M W C η
  /-- What the provider has published, if one is attached. -/
  provider : Option (Option C) := none

inductive Status
  | ok
  | invalidArgument (message : String)
  | internal (message : String)
  deriving DecidableEq

/-- `onUpdateCommon`. -/
def RouteConfigUpdateReceiverImpl.onUpdateCommon (r : RouteConfigUpdateReceiverImpl M W C η)
    (versionInfo : String) : RouteConfigUpdateReceiverImpl M W C η :=
  { r with lastConfigVersion := versionInfo, configInfo := some ⟨r.object, versionInfo⟩ }

/-- `onRdsUpdate` (route_config_update_receiver_impl.cc:22-36); what was assigned before the
constructor throws stays. -/
def RouteConfigUpdateReceiverImpl.onRdsUpdate [DecidableEq η] (env : RdsEnv M W C η)
    (r : RouteConfigUpdateReceiverImpl M W C η)
    (rc : RouteConfiguration M W) (versionInfo : String) :
    RouteConfigUpdateReceiverImpl M W C η × Except Failure Bool :=
  let newHash := env.hash rc
  if newHash = r.lastConfigHash then (r, .ok false)
  else
    let r := { r with routeConfigProto := rc, object := r.object + 1, lastConfigHash := newHash }
    match env.configImpl rc with
    | .error e => (r, .error e)
    | .ok config => ({ r with config := some config }.onUpdateCommon versionInfo, .ok true)

/-- The configuration `configInfo` refers to; `none` if that has been destroyed. -/
def RouteConfigUpdateReceiverImpl.configOf (r : RouteConfigUpdateReceiverImpl M W C η) (info : ConfigInfo) :
    Option (RouteConfiguration M W) :=
  if info.config = r.object then some r.routeConfigProto else none

/-- `validateUpdateSize` (rds_impl.cc:234-246). -/
def validateUpdateSize (numResources : Int32) : Except Failure Bool :=
  if numResources = 0 then .ok false
  else if numResources ≠ 1 then .error (.envoyException s!"Unexpected RDS resource length: {numResources}")
  else .ok true

namespace RdsRouteConfigSubscription

variable [DecidableEq η] (env : RdsEnv M W C η) (s : RdsRouteConfigSubscription M W C η)

/-- `RdsRouteConfigProviderImpl::validateConfig`, if there is a provider. -/
def validateConfig (rc : RouteConfiguration M W) : Except Failure Unit :=
  match s.provider with
  | none => .ok ()
  | some _ => (env.configImpl rc).map fun _ => ()

/-- `RdsRouteConfigProviderImpl::onConfigUpdate`, if there is a provider. -/
def publish : RdsRouteConfigSubscription M W C η :=
  { s with provider := s.provider.map fun _ => s.configUpdateInfo.config }

/-- The `try` block of `onConfigUpdate` (rds_impl.cc:90-124). -/
def tryUpdate (resource : HttpRouteConfiguration M W) (versionInfo : String) :
    RdsRouteConfigSubscription M W C η × Except Failure Status :=
  match httpRouteConfig2MetaProtocolRouteConfig resource with
  | .error e => (s, .error e)
  | .ok rc =>
    if rc.name ≠ env.routeConfigName then
      (s, .ok (.internal s!"Unexpected RDS configuration (expecting {env.routeConfigName}): {rc.name}"))
    else match s.validateConfig env rc with
      | .error e => (s, .error e)
      | .ok () =>
        match s.configUpdateInfo.onRdsUpdate env rc versionInfo with
        | (r, .error e) => ({ s with configUpdateInfo := r }, .error e)
        | (r, .ok updated) =>
          let s := { s with configUpdateInfo := r }
          (if updated then s.publish else s, .ok .ok)

/-- `onConfigUpdate` (rds_impl.cc:83-128); nobody here catches what `validateUpdateSize` throws. -/
def onConfigUpdate (resources : List (HttpRouteConfiguration M W)) (versionInfo : String) :
    RdsRouteConfigSubscription M W C η × Except Failure Status :=
  match validateUpdateSize resources.length.toInt32, resources with
  | .error e, _ => (s, .error e)
  | .ok false, _ => (s, .ok (.invalidArgument "Invalid update size"))
  | .ok true, [] => (s, .error (.nullDereference "resources[0]"))
  | .ok true, resource :: _ =>
    match s.tryUpdate env resource versionInfo with
    | (s, .error (.envoyException what)) => (s, .ok (.internal what))
    | result => result

/-- `onConfigUpdate` of a delta (rds_impl.cc:208-224); a resource comes with its version. -/
def onDeltaUpdate (added : List (HttpRouteConfiguration M W × String)) (removed : List String) :
    RdsRouteConfigSubscription M W C η × Except Failure Status :=
  if !removed.isEmpty then (s, .ok .ok)
  else match added with
    | [] => (s, .ok .ok)
    | (_, version) :: _ => s.onConfigUpdate env (added.map Prod.fst) version

end RdsRouteConfigSubscription

/-- A call of either `onConfigUpdate`. -/
inductive ConfigUpdate (M W : Type)
  | full (resources : List (HttpRouteConfiguration M W)) (versionInfo : String)
  | delta (added : List (HttpRouteConfiguration M W × String)) (removed : List String)

def RdsRouteConfigSubscription.update [DecidableEq η] (env : RdsEnv M W C η)
    (s : RdsRouteConfigSubscription M W C η) :
    ConfigUpdate M W → RdsRouteConfigSubscription M W C η × Except Failure Status
  | .full resources versionInfo => s.onConfigUpdate env resources versionInfo
  | .delta added removed => s.onDeltaUpdate env added removed

/-! ## One update -/

/-- The resource that `onConfigUpdate` looks at. -/
def soleResource (resources : List (HttpRouteConfiguration M W)) : Option (HttpRouteConfiguration M W) :=
  if resources.length.toInt32 = 1 then resources.head? else none

/-- The configuration an update offers: that of its resource, unless the update removes
resources. -/
def ConfigUpdate.offered : ConfigUpdate M W → Option (RouteConfiguration M W)
  | .full resources _ =>
    (soleResource resources).bind fun resource => (httpRouteConfig2MetaProtocolRouteConfig resource).toOption
  | .delta added [] =>
    (soleResource (added.map Prod.fst)).bind fun resource =>
      (httpRouteConfig2MetaProtocolRouteConfig resource).toOption
  | .delta _ _ => none

def RdsRouteConfigSubscription.accept (env : RdsEnv M W C η) (s : RdsRouteConfigSubscription M W C η)
    (rc : RouteConfiguration M W) (versionInfo : String) (config : C) : RdsRouteConfigSubscription M W C η :=
  { configUpdateInfo :=
      { routeConfigProto := rc, object := s.configUpdateInfo.object + 1, lastConfigHash := env.hash rc
        lastConfigVersion := versionInfo, configInfo := some ⟨s.configUpdateInfo.object + 1, versionInfo⟩
        config := some config }
    provider := some (some config) }

inductive Updated (env : RdsEnv M W C η) (s : RdsRouteConfigSubscription M W C η)
    (offered : Option (RouteConfiguration M W)) :
    RdsRouteConfigSubscription M W C η × Except Failure Status → Prop
  | refused {result} (hresult : result ≠ .ok .ok) : Updated env s offered (s, result)
  | ignored (hnone : offered = none) : Updated env s offered (s, .ok .ok)
  | repeated {rc} (hrc : offered = some rc) (hhash : env.hash rc = s.configUpdateInfo.lastConfigHash) :
    Updated env s offered (s, .ok .ok)
  | accepted {rc versionInfo config} (hrc : offered = some rc) (hconfig : env.configImpl rc = .ok config) :
    Updated env s offered (s.accept env rc versionInfo config, .ok .ok)

section Update

variable [DecidableEq η] (env : RdsEnv M W C η) {s : RdsRouteConfigSubscription M W C η}

theorem tryUpdate_updated (hs : s.provider.isSome) (resource : HttpRouteConfiguration M W)
    (versionInfo : String) :
    Updated env s (httpRouteConfig2MetaProtocolRouteConfig resource).toOption
      (s.tryUpdate env resource versionInfo) := by
  obtain ⟨published, hpublished⟩ := Option.isSome_iff_exists.1 hs
  unfold RdsRouteConfigSubscription.tryUpdate
  cases hrc : httpRouteConfig2MetaProtocolRouteConfig resource with
  | error e => exact .refused (by simp)
  | ok rc =>
    simp only
    split
    · exact .refused (by simp)
    · cases hconfig : env.configImpl rc with
      | error e =>
        -- the exception comes before anything is assigned
        have hvalid : s.validateConfig env rc = .error e := by
          simp only [RdsRouteConfigSubscription.validateConfig, hpublished, hconfig, Except.map]
        simp only [hvalid]
        exact .refused (by simp)
      | ok config =>
        have hvalid : s.validateConfig env rc = .ok () := by
          simp only [RdsRouteConfigSubscription.validateConfig, hpublished, hconfig, Except.map]
        simp only [hvalid, RouteConfigUpdateReceiverImpl.onRdsUpdate, hconfig]
        by_cases hhash : env.hash rc = s.configUpdateInfo.lastConfigHash
        · simp only [if_pos hhash]
          exact .repeated rfl hhash
        · simp only [if_neg hhash, RdsRouteConfigSubscription.publish, hpublished, if_true,
            RouteConfigUpdateReceiverImpl.onUpdateCommon, Option.map_some]
          exact .accepted rfl hconfig

theorem onConfigUpdate_updated (hs : s.provider.isSome)
    (resources : List (HttpRouteConfiguration M W)) (versionInfo : String) :
    Updated env s ((soleResource resources).bind fun resource =>
      (httpRouteConfig2MetaProtocolRouteConfig resource).toOption)
      (s.onConfigUpdate env resources versionInfo) := by
  simp only [RdsRouteConfigSubscription.onConfigUpdate, validateUpdateSize, soleResource]
  by_cases hzero : resources.length.toInt32 = 0
  · simp only [hzero, if_true]
    exact .refused (by simp)
  by_cases hone : resources.length.toInt32 = 1
  · simp only [hone, show ¬ (1 : Int32) = 0 by decide, ne_eq, not_true_eq_false, if_true, if_false]
    cases resources with
    | nil => exact .refused (by simp)
    | cons resource rest =>
      have htry := tryUpdate_updated env hs resource versionInfo
      simp only [List.head?_cons, Option.bind_some]
      split
      · next s' what heq =>
        rw [heq] at htry
        cases htry
        exact .refused (by simp)
      · exact htry
  · simp only [hzero, hone, ne_eq, not_false_eq_true, if_true, if_false]
    exact .refused (by simp)

theorem update_updated (hs : s.provider.isSome) (u : ConfigUpdate M W) :
    Updated env s u.offered (s.update env u) := by
  cases u with
  | full resources versionInfo => exact onConfigUpdate_updated env hs resources versionInfo
  | delta added removed =>
    match added, removed with
    | _, _ :: _ => exact .ignored rfl
    | [], [] => exact .ignored rfl
    | (resource, version) :: rest, [] =>
      exact onConfigUpdate_updated env hs (((resource, version) :: rest).map Prod.fst) version

end Update

/-! ## Every sequence of updates -/

/-- A subscription and the configuration it accepted last. -/
structure Tracked (M W C η : Type) where
  subscription : RdsRouteConfigSubscription M W C η
  accepted : Option (RouteConfiguration M W) := none

/-- A configuration is accepted when the call that offers it returns `Ok`. -/
def acceptedAfter (result : Except Failure Status) (offered accepted : Option (RouteConfiguration M W)) :
    Option (RouteConfiguration M W) :=
  match result with
  | .ok .ok => offered.or accepted
  | _ => accepted

def Tracked.step [DecidableEq η] (env : RdsEnv M W C η) (t : Tracked M W C η)
    (u : ConfigUpdate M W) : Tracked M W C η :=
  { subscription := (t.subscription.update env u).1
    accepted := acceptedAfter (t.subscription.update env u).2 u.offered t.accepted }

theorem acceptedAfter_refused {result : Except Failure Status} (h : result ≠ .ok .ok)
    (offered accepted : Option (RouteConfiguration M W)) :
    acceptedAfter result offered accepted = accepted := by
  unfold acceptedAfter
  split
  · exact absurd rfl h
  · rfl

/-- A new subscription with its provider (rds_impl.cc:248-267). -/
def Tracked.start [Zero η] : Tracked M W C η :=
  { subscription := { configUpdateInfo := { lastConfigHash := 0 }, provider := some none } }

/-- All five places describe the configuration `rc`. -/
structure Agrees (env : RdsEnv M W C η) (s : RdsRouteConfigSubscription M W C η)
    (rc : RouteConfiguration M W) : Prop where
  proto : s.configUpdateInfo.routeConfigProto = rc
  hash : s.configUpdateInfo.lastConfigHash = env.hash rc
  parsed : ∃ config, env.configImpl rc = .ok config ∧ s.configUpdateInfo.config = some config ∧
    s.provider = some (some config)
  info : ∃ info, s.configUpdateInfo.configInfo = some info ∧ s.configUpdateInfo.configOf info = some rc

theorem accept_agrees {env : RdsEnv M W C η} (s : RdsRouteConfigSubscription M W C η)
    {rc : RouteConfiguration M W}
    {config : C} (hconfig : env.configImpl rc = .ok config) (versionInfo : String) :
    Agrees env (s.accept env rc versionInfo config) rc :=
  ⟨rfl, rfl, ⟨config, hconfig, rfl, rfl⟩, ⟨_, rfl, if_pos rfl⟩⟩

structure Coherent [Zero η] (env : RdsEnv M W C η) (t : Tracked M W C η) : Prop where
  attached : t.subscription.provider.isSome
  fresh : t.accepted = none → t.subscription.configUpdateInfo.lastConfigHash = 0
  agrees : ∀ rc, t.accepted = some rc → Agrees env t.subscription rc

theorem Coherent.step [DecidableEq η] [Zero η] {env : RdsEnv M W C η}
    (hinj : Function.Injective env.hash) (hne : ∀ rc, env.hash rc ≠ 0)
    {t : Tracked M W C η} (h : Coherent env t) (u : ConfigUpdate M W) : Coherent env (t.step env u) := by
  have hupdate := update_updated env h.attached u
  unfold Tracked.step
  generalize t.subscription.update env u = r at hupdate ⊢
  cases hupdate with
  | refused hresult =>
    rw [acceptedAfter_refused hresult]
    exact h
  | ignored hnone =>
    simp only [acceptedAfter, hnone, Option.none_or]
    exact h
  | @repeated rc hrc hhash =>
    simp only [acceptedAfter, hrc, Option.some_or]
    refine ⟨h.attached, by simp, fun rc' hrc' => ?_⟩
    cases hrc'
    -- the hash is that of a configuration accepted before, and then of this one
    cases haccepted : t.accepted with
    | none =>
      rw [h.fresh haccepted] at hhash
      exact absurd hhash (hne rc)
    | some rc₀ =>
      have hagrees := h.agrees rc₀ haccepted
      rw [hagrees.hash] at hhash
      rw [hinj hhash]
      exact hagrees
  | @accepted rc versionInfo config hrc hconfig =>
    simp only [acceptedAfter, hrc, Option.some_or]
    refine ⟨rfl, by simp, fun rc' hrc' => ?_⟩
    cases hrc'
    exact accept_agrees _ hconfig versionInfo

/-- **After every sequence of updates** the state agrees on the configuration accepted last, and an
update that is not answered with `Ok` changes nothing. -/
theorem rds_agreement [DecidableEq η] [Zero η] (env : RdsEnv M W C η)
    (hinj : Function.Injective env.hash) (hne : ∀ rc, env.hash rc ≠ 0)
    (us : List (ConfigUpdate M W)) :
    (∀ rc, (Runs.run (Tracked.step env) Tracked.start us).accepted = some rc →
      Agrees env (Runs.run (Tracked.step env) Tracked.start us).subscription rc) ∧
    ∀ u, ((Runs.run (Tracked.step env) Tracked.start us).subscription.update env u).2 ≠ .ok .ok →
      ((Runs.run (Tracked.step env) Tracked.start us).subscription.update env u).1 =
        (Runs.run (Tracked.step env) Tracked.start us).subscription := by
  have hstart : Coherent env Tracked.start := ⟨rfl, fun _ => rfl, fun rc h => nomatch h⟩
  have hrun := Runs.run_invariant (fun t u h => h.step hinj hne u) hstart us
  refine ⟨hrun.agrees, fun u hu => ?_⟩
  have hupdate := update_updated env hrun.attached u
  generalize RdsRouteConfigSubscription.update env _ u = r at hupdate hu ⊢
  cases hupdate with
  | refused _ => rfl
  | ignored _ => exact absurd rfl hu
  | repeated _ _ => exact absurd rfl hu
  | accepted _ _ => exact absurd rfl hu

/-- A subscription to `r` whose configurations are counts of routes, at most two. -/
def countingEnv : RdsEnv Unit Unit Nat (Option (RouteConfiguration Unit Unit)) where
  routeConfigName := "r"
  hash := some
  configImpl rc :=
    if rc.routes.length ≤ 2 then .ok rc.routes.length else .error (.envoyException "too many routes")

instance : Zero (Option (RouteConfiguration Unit Unit)) := ⟨none⟩

/-- An update without resources, one route, three routes, another configuration's name, one route
again. -/
def mixedUpdates : List (ConfigUpdate Unit Unit) :=
  [.full [] "1", .full [⟨"r", [[{}]]⟩] "2", .full [⟨"r", [[{}, {}, {}]]⟩] "3", .full [⟨"q", [[{}]]⟩] "4",
    .full [⟨"r", [[{}]]⟩] "5"]

/-- Only the one route has been accepted. -/
theorem rds_agreement_mixed :
    (Runs.run (Tracked.step countingEnv) Tracked.start mixedUpdates).accepted =
      some { name := "r", routes := [{}] } ∧
      Agrees countingEnv (Runs.run (Tracked.step countingEnv) Tracked.start mixedUpdates).subscription
        { name := "r", routes := [{}] } := by
  have haccepted : (Runs.run (Tracked.step countingEnv) Tracked.start mixedUpdates).accepted =
    some { name := "r", routes := [{}] } := by decide
  exact ⟨haccepted,
    (rds_agreement countingEnv (fun _ _ h => Option.some.inj h) (fun rc => Option.some_ne_none rc)
      mixedUpdates).1 _ haccepted⟩

end MetaProtocolProxy.Route
