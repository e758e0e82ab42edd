import MetaProtocolProxy.MetadataImpl
/-
# Trace decisions (request_id/config.cc, router_impl.cc:303-385, tracer_impl.cc:172-197)

The first proxy on a path makes a request id, a UUID, and decides whether the request is traced. The
decision is a character of the id: position 14 of a UUID is `4`, and `9`, `a` or `b` there say that
the request is sampled, forced by the service, or forced by the client. The id goes upstream with
the mutation, and a proxy that finds an id in a request follows it.

There are two copies of the id. `setXRequestID` puts the new id into the metadata and into the
mutation; the decision is packed into the metadata's; and `startSpan`, which is called for traced
requests only, copies the metadata's id over the mutation's. The mutation of a request that is not
traced keeps the id as it was made, with its `4`, and that is what packing the decision gives too
(`pack_notTraceable`).

| here | there |
| --- | --- |
| `Proxy.uuid` | what `random_.uuid()` returns |
| `Proxy.clientEnabled`, `randomSampling`, `globalEnabled` | `featureEnabled` of the runtime, the last two of `result` |
| `Proxy.driver` | what `driver_->startSpan` and `injectContext` do to the `TraceContext` |
| `atoull` | `StringUtil::atoull` to the base 16 |

`pack_trace_reason_` and `use_request_id_for_trace_sampling_` are constants, true. The tags of a
span are not modelled.
-/
namespace MetaProtocolProxy.Tracing

variable {α : Type}

/-- `Tracing::Reason`. -/
inductive Reason
  | notTraceable
  | healthCheck
  | sampling
  | serviceForced
  | clientForced
  deriving DecidableEq, Repr

/-- `ReservedHeaders::ClientTraceId`, `EnvoyForceTrace`. -/
def clientTraceId : String := "x-client-trace-id"
def envoyForceTrace : String := "x-envoy-force-trace"

def tracingHeaders : List String :=
  ["x-request-id", "x-b3-traceid", "x-b3-spanid", "x-b3-parentspanid", "x-b3-sampled", "x-b3-flags",
    "x-ot-span-context", "x-cloud-trace-context", "traceparent", "grpc-trace-bin"]

/-- `RandomGeneratorImpl::UUID_LENGTH`. -/
def uuidLength : Nat := 36

def traceBytePosition : Nat := 14

/-- What `setTraceReason` writes at the position; nothing for a reason it has no case for. -/
def traceByte : Reason → Option Char
  | .serviceForced => some 'a'
  | .clientForced => some 'b'
  | .sampling => some '9'
  | .notTraceable => some '4'
  | .healthCheck => none

/-- `uuid[TRACE_BYTE_POSITION] = …`. -/
def pack (reason : Reason) (uuid : String) : String :=
  match traceByte reason with
  | some byte => String.ofList (uuid.toList.set traceBytePosition byte)
  | none => uuid

/-- `getTraceReason` of an id. -/
def traceReason (uuid : String) : Reason :=
  if uuid = "" then .notTraceable
  else if uuid.toList.length ≠ uuidLength then .notTraceable
  else match uuid.toList[traceBytePosition]? with
    | some 'a' => .serviceForced
    | some '9' => .sampling
    | some 'b' => .clientForced
    | _ => .notTraceable

/-- `toInteger` of an id. -/
def integerOf (atoull : List Char → Option UInt64) (uuid : String) : Option UInt64 :=
  if uuid = "" then none
  else if uuid.toList.length < 8 then none
  else atoull (uuid.toList.take 8)

/-! ### `UUIDRequestIDExtension` -/

def getTraceReason (md : MetadataImpl α) : Except Failure Reason := do
  let uuid ← md.getString requestUUID
  return traceReason uuid

def toInteger (atoull : List Char → Option UInt64) (md : MetadataImpl α) :
    Except Failure (Option UInt64) := do
  let uuid ← md.getString requestUUID
  return integerOf atoull uuid

def setTraceReason (md : MetadataImpl α) (reason : Reason) : Except Failure (MetadataImpl α) := do
  let uuid ← md.getString requestUUID
  if uuid = "" then return md
  else if uuid.toList.length ≠ uuidLength then return md
  else return md.putString requestUUID (pack reason uuid)

/-! ### A proxy -/

/-- What a proxy finds at run time. -/
structure Proxy (α : Type) where
  uuid : String
  clientEnabled : Bool
  randomSampling : UInt64 → Bool
  globalEnabled : UInt64 → Bool
  driver : MetadataImpl α → Reason → List TextOp

variable (atoull : List Char → Option UInt64) (proxy : Proxy α)

/-- `UUIDRequestIDExtension::set`, not forced. -/
def setRequestId (md : MetadataImpl α) : Except Failure (Bool × MetadataImpl α) := do
  let id ← md.getString requestUUID
  if id ≠ "" then return (false, md)
  else return (true, md.putString requestUUID proxy.uuid)

/-- `Router::setXRequestID` (router_impl.cc:303-315). -/
def setXRequestID (md : MetadataImpl α) (mutation : Mutation) :
    Except Failure (Bool × MetadataImpl α × Mutation) := do
  let (modified, md) ← setRequestId proxy md
  if modified then
    let id ← md.getString requestUUID
    return (modified, md, mutation.set [(requestUUID, id)])
  else return (modified, md, mutation)

/-- The first span's reason to trace: the client's, the service's or the sampler's, else the one of
the id. -/
def chooseReason (result : UInt64) (finalReason : Reason) (md : MetadataImpl α) :
    Except Failure (Reason × MetadataImpl α) := do
  let clientTrace ← md.getString clientTraceId
  let forceTrace ← md.getString envoyForceTrace
  if clientTrace ≠ "" ∧ proxy.clientEnabled then return (.clientForced, ← setTraceReason md .clientForced)
  else if forceTrace ≠ "" then return (.serviceForced, ← setTraceReason md .serviceForced)
  else if proxy.randomSampling result then return (.sampling, ← setTraceReason md .sampling)
  else return (finalReason, md)

def decideReason (result : UInt64) (finalReason : Reason) (md : MetadataImpl α) :
    Except Failure (Reason × MetadataImpl α) := do
  let (finalReason, md) ← chooseReason proxy result finalReason md
  if finalReason ≠ .notTraceable ∧ !proxy.globalEnabled result then
    return (.notTraceable, ← setTraceReason md .notTraceable)
  else return (finalReason, md)

/-- `Router::mutateTracingRequestMetadata` (router_impl.cc:317-368). -/
def mutateTracingRequestMetadata (isFirstSpan : Bool) (md : MetadataImpl α) :
    Except Failure (Reason × MetadataImpl α) := do
  match ← toInteger atoull md with
  | none => return (.notTraceable, md)
  | some n =>
    let finalReason ← getTraceReason md
    if isFirstSpan then decideReason proxy (n % 10000) finalReason md
    else return (finalReason, md)

/-- The loop over `tracing_headers`. -/
def copyHeaders (md : MetadataImpl α) : List String → Mutation → Except Failure Mutation
  | [], mutation => .ok mutation
  | key :: keys, mutation => do
    let val ← md.getString key
    copyHeaders md keys (if val ≠ "" then mutation.set [(key, val)] else mutation)

/-- `MetaProtocolTracerImpl::startSpan` (tracer_impl.cc:172-197). -/
def startSpan (md : MetadataImpl α) (mutation : Mutation) (reason : Reason) :
    Except Failure (MetadataImpl α × Mutation) := do
  let md := (proxy.driver md reason).foldl TextOp.apply md
  return (md, ← copyHeaders md tracingHeaders mutation)

structure Traced (α : Type) where
  isFirstSpan : Bool
  reason : Reason
  metadata : MetadataImpl α
  mutation : Mutation

/-- `setXRequestID`, then `Router::traceRequest` (router_impl.cc:60-64, 370-385). -/
def trace (md : MetadataImpl α) (mutation : Mutation) : Except Failure (Traced α) := do
  let (isFirstSpan, md, mutation) ← setXRequestID proxy md mutation
  let (reason, md) ← mutateTracingRequestMetadata atoull proxy isFirstSpan md
  if reason = .notTraceable ∨ reason = .healthCheck then return ⟨isFirstSpan, reason, md, mutation⟩
  else
    let (md, mutation) ← startSpan proxy md mutation reason
    return ⟨isFirstSpan, reason, md, mutation⟩

/-! ### Ids -/

/-- An id as it is made. -/
structure Fresh (uuid : String) : Prop where
  length : uuid.toList.length = uuidLength
  version : uuid.toList[traceBytePosition]? = some '4'

theorem Fresh.ne_empty {uuid : String} (h : uuid.toList.length = uuidLength) : uuid ≠ "" := by
  rintro rfl
  exact absurd h (by decide)

theorem length_pack (reason : Reason) (uuid : String) :
    (pack reason uuid).toList.length = uuid.toList.length := by
  unfold pack
  cases traceByte reason with
  | none => rfl
  | some byte => rw [String.toList_ofList, List.length_set]

theorem take_pack (reason : Reason) (uuid : String) :
    (pack reason uuid).toList.take 8 = uuid.toList.take 8 := by
  unfold pack
  cases traceByte reason with
  | none => rfl
  | some byte => rw [String.toList_ofList, List.take_set_of_le (by decide)]

theorem pack_pack {reason : Reason} (hreason : reason ≠ .healthCheck) (before : Reason) (uuid : String) :
    pack reason (pack before uuid) = pack reason uuid := by
  unfold pack
  cases traceByte before with
  | none => rfl
  | some byte => cases reason <;> simp [traceByte, String.toList_ofList, List.set_set] at hreason ⊢

theorem pack_notTraceable {uuid : String} (h : Fresh uuid) : pack .notTraceable uuid = uuid := by
  obtain ⟨hlt, hbyte⟩ := List.getElem?_eq_some_iff.1 h.version
  have hset : uuid.toList.set traceBytePosition '4' = uuid.toList := by
    rw [← hbyte]
    exact List.set_getElem_self hlt
  have hpack : pack .notTraceable uuid = String.ofList (uuid.toList.set traceBytePosition '4') := rfl
  rw [hpack, hset, String.ofList_toList]

theorem traceReason_pack {reason : Reason} (hreason : reason ≠ .healthCheck) {uuid : String}
    (hlength : uuid.toList.length = uuidLength) : traceReason (pack reason uuid) = reason := by
  have hlen := (length_pack reason uuid).trans hlength
  have hlt : traceBytePosition < uuid.toList.length := by rw [hlength]; decide
  have hbyte : (pack reason uuid).toList[traceBytePosition]? = traceByte reason := by
    unfold pack
    cases reason <;> simp [traceByte, String.toList_ofList, hlt] at hreason ⊢
  rw [traceReason, if_neg (Fresh.ne_empty hlen), if_neg (not_not.2 hlen), hbyte]
  cases reason <;> simp [traceByte] at hreason ⊢

theorem integerOf_pack (reason : Reason) {uuid : String} (hlength : uuid.toList.length = uuidLength) :
    integerOf atoull (pack reason uuid) = integerOf atoull uuid := by
  have hlen := (length_pack reason uuid).trans hlength
  rw [integerOf, integerOf, if_neg (Fresh.ne_empty hlen), if_neg (Fresh.ne_empty hlength),
    take_pack, length_pack]

/-! ### Metadata with an id -/

/-- The request id of a metadata. -/
def HasId (md : MetadataImpl α) (id : String) : Prop := md.getByKey requestUUID = some (.string id)

variable {md : MetadataImpl α}

theorem HasId.getString {id : String} (h : HasId md id) : md.getString requestUUID = .ok id := by
  rw [Metadata.getString, h]

theorem hasId_putString (md : MetadataImpl α) (id : String) : HasId (md.putString requestUUID id) id := by
  rw [HasId, TextOp.getByKey_putString, if_pos rfl]

theorem holdsText_apply {key : String} (h : md.HoldsText key) (op : TextOp) :
    (op.apply md).HoldsText key := by
  intro v hv
  rw [TextOp.getByKey_apply] at hv
  split at hv
  · obtain ⟨s, -, hs⟩ := Option.map_eq_some_iff.1 hv
    exact ⟨s, hs.symm⟩
  · exact h v hv

theorem holdsText_foldl {key : String} (h : md.HoldsText key) (ops : List TextOp) :
    (ops.foldl TextOp.apply md).HoldsText key := by
  induction ops generalizing md with
  | nil => exact h
  | cons op ops ih => exact ih (holdsText_apply h op)

theorem HasId.foldl {id : String} (h : HasId md id) {ops : List TextOp}
    (hops : ∀ op ∈ ops, op.key ≠ requestUUID) : HasId (ops.foldl TextOp.apply md) id := by
  induction ops generalizing md with
  | nil => exact h
  | cons op ops ih =>
    refine ih ?_ fun op' hop' => hops op' (List.mem_cons_of_mem op hop')
    rw [HasId, TextOp.getByKey_apply, if_neg (hops op List.mem_cons_self)]
    exact h

theorem copyHeaders_ok {keys : List String} (hkeys : ∀ key ∈ keys, md.HoldsText key) (mutation : Mutation) :
    ∃ mutation', copyHeaders md keys mutation = .ok mutation' ∧ ∀ key, mutation'.lookup key =
      if key ∈ keys ∧ md.lookedUp key ≠ "" then some (md.lookedUp key) else mutation.lookup key := by
  induction keys generalizing mutation with
  | nil => exact ⟨mutation, rfl, by simp⟩
  | cons k keys ih =>
    obtain ⟨mutation', hok, hlookup⟩ := ih (fun key hkey => hkeys key (List.mem_cons_of_mem k hkey))
      (if md.lookedUp k ≠ "" then mutation.set [(k, md.lookedUp k)] else mutation)
    refine ⟨mutation', ?_, ?_⟩
    · rw [copyHeaders, Metadata.getString_lookedUp (hkeys k List.mem_cons_self)]
      exact hok
    · intro key
      rw [hlookup key]
      by_cases hval : md.lookedUp k = ""
      · by_cases hk : key = k
        · simp [hk, hval]
        · simp [hk, hval]
      · by_cases hk : key = k
        · simp [hk, hval, Mutation.set]
        · simp [hk, hval, Mutation.set, List.lookup_cons, lookup_filter_ne, beq_eq_false_iff_ne.2 hk]

/-! ### The decision -/

theorem setTraceReason_eq {id : String} (h : HasId md id) (hlength : id.toList.length = uuidLength)
    (reason : Reason) : setTraceReason md reason = .ok (md.putString requestUUID (pack reason id)) := by
  rw [setTraceReason, h.getString]
  simp only [bind, Except.bind, Fresh.ne_empty hlength, hlength, if_false, ne_eq, not_true_eq_false]
  rfl

/-- A metadata made from another by deciding on its id: the decision is in the id, and texts stay
texts. -/
structure Decided (uuid : String) (reason : Reason) (md md' : MetadataImpl α) : Prop where
  hasId : HasId md' (pack reason uuid)
  holdsText : ∀ key, md.HoldsText key → md'.HoldsText key
  known : reason ≠ .healthCheck

theorem decided_setTraceReason {md md₁ : MetadataImpl α} {uuid : String} {before reason : Reason}
    (hlength : uuid.toList.length = uuidLength) (h : Decided uuid before md md₁)
    (hreason : reason ≠ .healthCheck) :
    ∃ md', setTraceReason md₁ reason = .ok md' ∧ Decided uuid reason md md' := by
  refine ⟨_, setTraceReason_eq h.hasId ((length_pack before uuid).trans hlength) reason, ?_, ?_, hreason⟩
  · rw [pack_pack hreason]
    exact hasId_putString _ _
  · intro key hkey
    exact holdsText_apply (h.holdsText key hkey) (.putString requestUUID _)

theorem chooseReason_decided {uuid : String} (hfresh : Fresh uuid) (hid : HasId md uuid)
    (hclient : md.HoldsText clientTraceId) (hforce : md.HoldsText envoyForceTrace) (result : UInt64) :
    ∃ reason md', chooseReason proxy result .notTraceable md = .ok (reason, md') ∧
      Decided uuid reason md md' := by
  have hstart : Decided uuid .notTraceable md md :=
    ⟨by rwa [pack_notTraceable hfresh], fun _ h => h, by decide⟩
  have hset := fun reason hreason =>
    @decided_setTraceReason α md md uuid .notTraceable reason hfresh.length hstart hreason
  rw [chooseReason, Metadata.getString_lookedUp hclient, Metadata.getString_lookedUp hforce]
  simp only [bind, Except.bind]
  split
  · obtain ⟨md', hok, hdecided⟩ := hset .clientForced (by decide)
    exact ⟨_, md', by rw [hok]; rfl, hdecided⟩
  · split
    · obtain ⟨md', hok, hdecided⟩ := hset .serviceForced (by decide)
      exact ⟨_, md', by rw [hok]; rfl, hdecided⟩
    · split
      · obtain ⟨md', hok, hdecided⟩ := hset .sampling (by decide)
        exact ⟨_, md', by rw [hok]; rfl, hdecided⟩
      · exact ⟨_, md, rfl, hstart⟩

theorem decideReason_decided {uuid : String} (hfresh : Fresh uuid) (hid : HasId md uuid)
    (hclient : md.HoldsText clientTraceId) (hforce : md.HoldsText envoyForceTrace) (result : UInt64) :
    ∃ reason md', decideReason proxy result .notTraceable md = .ok (reason, md') ∧
      Decided uuid reason md md' := by
  obtain ⟨reason, md₁, hchoose, hdecided⟩ := chooseReason_decided proxy hfresh hid hclient hforce result
  rw [decideReason, hchoose]
  simp only [bind, Except.bind]
  split
  · obtain ⟨md', hok, hoverruled⟩ :=
      @decided_setTraceReason α md md₁ uuid reason .notTraceable hfresh.length hdecided (by decide)
    exact ⟨_, md', by rw [hok]; rfl, hoverruled⟩
  · exact ⟨reason, md₁, rfl, hdecided⟩

theorem toInteger_eq {id : String} (h : HasId md id) : toInteger atoull md = .ok (integerOf atoull id) := by
  rw [toInteger, h.getString]
  rfl

theorem getTraceReason_eq {id : String} (h : HasId md id) : getTraceReason md = .ok (traceReason id) := by
  rw [getTraceReason, h.getString]
  rfl

/-- The first span decides; an id that is no number is left as it was made, and not traced. -/
theorem mutateTracing_first {uuid : String} (hfresh : Fresh uuid) (hid : HasId md uuid)
    (hclient : md.HoldsText clientTraceId) (hforce : md.HoldsText envoyForceTrace) :
    ∃ reason md', mutateTracingRequestMetadata atoull proxy true md = .ok (reason, md') ∧
      Decided uuid reason md md' ∧ (integerOf atoull uuid = none → reason = .notTraceable) := by
  have hreason : traceReason uuid = .notTraceable := by
    have hpacked := @traceReason_pack .notTraceable (by decide) uuid hfresh.length
    rwa [pack_notTraceable hfresh] at hpacked
  rw [mutateTracingRequestMetadata, toInteger_eq atoull hid]
  cases hn : integerOf atoull uuid with
  | none =>
    exact ⟨.notTraceable, md, rfl, ⟨by rwa [pack_notTraceable hfresh], fun _ h => h, by decide⟩, fun _ => rfl⟩
  | some n =>
    obtain ⟨reason, md', hok, hdecided⟩ := decideReason_decided proxy hfresh hid hclient hforce (n % 10000)
    refine ⟨reason, md', ?_, hdecided, fun hnone => nomatch hnone⟩
    simp only [bind, Except.bind, getTraceReason_eq hid, hreason, if_true]
    exact hok

theorem mutateTracing_later {id : String} (hid : HasId md id) :
    mutateTracingRequestMetadata atoull proxy false md =
      .ok (if integerOf atoull id = none then .notTraceable else traceReason id, md) := by
  rw [mutateTracingRequestMetadata, toInteger_eq atoull hid]
  cases integerOf atoull id with
  | none => rfl
  | some n => simp only [bind, Except.bind, getTraceReason_eq hid]; rfl

/-! ### A request's way -/

/-- The driver sets and removes other keys only. -/
def Proxy.KeepsOff : Prop := ∀ md reason, ∀ op ∈ proxy.driver md reason, op.key ≠ requestUUID

/-- What is read of a metadata holds texts. -/
def Readable (md : MetadataImpl α) : Prop :=
  ∀ key ∈ clientTraceId :: envoyForceTrace :: tracingHeaders, md.HoldsText key

theorem startSpan_ok {id : String} (hdriver : proxy.KeepsOff) (hid : HasId md id) (hne : id ≠ "")
    (htext : ∀ key ∈ tracingHeaders, md.HoldsText key) (mutation : Mutation) (reason : Reason) :
    ∃ md' mutation', startSpan proxy md mutation reason = .ok (md', mutation') ∧ HasId md' id ∧
      mutation'.lookup requestUUID = some id := by
  have hid' : HasId ((proxy.driver md reason).foldl TextOp.apply md) id := hid.foldl (hdriver md reason)
  obtain ⟨mutation', hok, hlookup⟩ :=
    @copyHeaders_ok α ((proxy.driver md reason).foldl TextOp.apply md) tracingHeaders
      (fun key hkey => holdsText_foldl (htext key hkey) _) mutation
  refine ⟨_, mutation', ?_, hid', ?_⟩
  · rw [startSpan, hok]
    rfl
  · have hlooked : ((proxy.driver md reason).foldl TextOp.apply md).lookedUp requestUUID = id := by
      rw [Metadata.lookedUp, hid']
    rw [hlookup, hlooked, if_pos ⟨by decide, hne⟩]

/-- The first proxy: whatever it decides, its metadata and its mutation have one id, with the
decision in it. -/
theorem trace_first (hfresh : Fresh proxy.uuid) (hnone : md.getString requestUUID = .ok "")
    (htext : Readable md) (hdriver : proxy.KeepsOff) (mutation : Mutation) :
    ∃ t, trace atoull proxy md mutation = .ok t ∧ t.isFirstSpan = true ∧
      HasId t.metadata (pack t.reason proxy.uuid) ∧
      t.mutation.lookup requestUUID = some (pack t.reason proxy.uuid) ∧ t.reason ≠ .healthCheck ∧
      (integerOf atoull proxy.uuid = none → t.reason = .notTraceable) := by
  have hid := hasId_putString md proxy.uuid
  have htext' : Readable (md.putString requestUUID proxy.uuid) := fun key hkey =>
    holdsText_apply (htext key hkey) (.putString requestUUID proxy.uuid)
  obtain ⟨reason, md', hmutate, hdecided, hnumber⟩ :=
    mutateTracing_first atoull proxy hfresh hid (htext' _ (by simp)) (htext' _ (by simp))
  have hset : setXRequestID proxy md mutation =
      .ok (true, md.putString requestUUID proxy.uuid, mutation.set [(requestUUID, proxy.uuid)]) := by
    simp only [setXRequestID, setRequestId, hnone, bind, Except.bind, ne_eq, not_true_eq_false,
      if_false, pure, Except.pure, if_true, hid.getString]
  have hne : pack reason proxy.uuid ≠ "" :=
    Fresh.ne_empty ((length_pack reason proxy.uuid).trans hfresh.length)
  rw [trace, hset]
  simp only [bind, Except.bind, hmutate]
  split
  case isTrue hreason =>
    -- not traced: the mutation has the id as it was made
    obtain rfl : reason = .notTraceable := hreason.resolve_right hdecided.known
    refine ⟨_, rfl, rfl, hdecided.hasId, ?_, hdecided.known, hnumber⟩
    rw [pack_notTraceable hfresh]
    simp [Mutation.set]
  case isFalse hreason =>
    obtain ⟨md₂, mutation₂, hspan, hid₂, hlookup⟩ := startSpan_ok proxy hdriver hdecided.hasId hne
      (fun key hkey => hdecided.holdsText key (htext' key (by simp [hkey])))
        (mutation.set [(requestUUID, proxy.uuid)]) reason
    rw [hspan]
    exact ⟨_, rfl, rfl, hid₂, hlookup, hdecided.known, hnumber⟩

/-- A later proxy: the id stays, in the metadata and in the mutation if it gets there. -/
theorem trace_later {id : String} (hid : HasId md id) (hne : id ≠ "") (htext : Readable md)
    (hdriver : proxy.KeepsOff) (mutation : Mutation) :
    ∃ t, trace atoull proxy md mutation = .ok t ∧ t.isFirstSpan = false ∧
      t.reason = (if integerOf atoull id = none then .notTraceable else traceReason id) ∧
        HasId t.metadata id ∧
      (t.mutation.lookup requestUUID = mutation.lookup requestUUID ∨ t.mutation.lookup requestUUID =
        some id) := by
  have hset : setXRequestID proxy md mutation = .ok (false, md, mutation) := by
    simp only [setXRequestID, setRequestId, hid.getString, bind, Except.bind, ne_eq, hne,
      not_false_eq_true, if_true, pure, Except.pure, Bool.false_eq_true, if_false]
  rw [trace, hset]
  simp only [bind, Except.bind, mutateTracing_later atoull proxy hid]
  generalize (if integerOf atoull id = none then Reason.notTraceable else traceReason id) = reason
  split
  case isTrue => exact ⟨_, rfl, rfl, rfl, hid, .inl rfl⟩
  case isFalse =>
    obtain ⟨md₂, mutation₂, hspan, hid₂, hlookup⟩ := startSpan_ok proxy hdriver hid hne
      (fun key hkey => htext key (by simp [hkey])) mutation reason
    rw [hspan]
    exact ⟨_, rfl, rfl, rfl, hid₂, .inr hlookup⟩

/-- What the next proxy makes of a request that comes with the id. -/
structure Follows (next : Proxy α) (t : Traced α) (id : String) (md : MetadataImpl α)
    (mutation : Mutation) : Prop where
  reason : getTraceReason md = .ok t.reason
  integer : toInteger atoull md = toInteger atoull t.metadata
  unchanged : ∃ t', trace atoull next md mutation = .ok t' ∧ t'.isFirstSpan = false ∧ t'.reason = t.reason ∧
    HasId t'.metadata id ∧
    (t'.mutation.lookup requestUUID = mutation.lookup requestUUID ∨ t'.mutation.lookup requestUUID = some id)

theorem lookup_routeMutation (mutation : Mutation) {routeMutation : Mutation}
    (h : ∀ kv ∈ routeMutation, kv.1 ≠ requestUUID) :
    (mutation.set routeMutation).lookup requestUUID = mutation.lookup requestUUID := by
  have hnone : routeMutation.reverse.lookup requestUUID = none := by
    refine lookup_eq_none_of_keys fun hmem => ?_
    obtain ⟨kv, hkv, heq⟩ := List.mem_map.1 hmem
    exact h kv (List.mem_reverse.1 hkv) heq
  rw [Mutation.lookup_set_reverse, hnone, Option.none_or]

/-- **The decision of the first proxy is the decision of the next one.** -/
theorem trace_decisions_agree (first next : Proxy α) (md : MetadataImpl α) (mutation routeMutation : Mutation)
    (hfresh : Fresh first.uuid) (hnone : md.getString requestUUID = .ok "") (htext : Readable md)
    (hfirst : first.KeepsOff) (hnext : next.KeepsOff) (hroute : ∀ kv ∈ routeMutation, kv.1 ≠ requestUUID) :
    ∃ t id, trace atoull first md mutation = .ok t ∧ t.isFirstSpan = true ∧
      (t.mutation.set routeMutation).lookup requestUUID = some id ∧
      ∀ (mdNext : MetadataImpl α) (mutationNext : Mutation), HasId mdNext id → Readable mdNext →
        Follows atoull next t id mdNext mutationNext := by
  obtain ⟨t, htrace, hspan, hid, hlookup, hknown, hnumber⟩ :=
    trace_first atoull first hfresh hnone htext hfirst mutation
  refine ⟨t, pack t.reason first.uuid, htrace, hspan, ?_, ?_⟩
  · rw [lookup_routeMutation t.mutation hroute, hlookup]
  · intro mdNext mutationNext hidNext htextNext
    have hreason : traceReason (pack t.reason first.uuid) = t.reason := traceReason_pack hknown hfresh.length
    have hne : pack t.reason first.uuid ≠ "" :=
      Fresh.ne_empty ((length_pack t.reason first.uuid).trans hfresh.length)
    obtain ⟨t', htrace', hlater, hreason', hid', hlookup'⟩ :=
      trace_later atoull next hidNext hne htextNext hnext mutationNext
    refine ⟨?_, ?_, t', htrace', hlater, ?_, hid', hlookup'⟩
    · rw [getTraceReason_eq hidNext, hreason]
    · rw [toInteger_eq atoull hidNext, toInteger_eq atoull hid]
    · rw [hreason', hreason, integerOf_pack atoull t.reason hfresh.length]
      split
      case isTrue hn => exact (hnumber hn).symm
      case isFalse => rfl

def samplingProxy : Proxy Empty where
  uuid := "12345678-abcd-4abc-8abc-123456789abc"
  clientEnabled := false
  randomSampling := fun _ => true
  globalEnabled := fun _ => true
  driver := fun _ _ => [.set "x-b3-traceid" "1"]

theorem samplingProxy_keepsOff : samplingProxy.KeepsOff := by
  intro md reason op hop
  obtain rfl := List.mem_singleton.1 hop
  decide

theorem trace_decisions_agree_sampled :
    ∃ t id, trace (fun _ => some 305419896) samplingProxy {} [] = .ok t ∧ t.isFirstSpan = true ∧
      (t.mutation.set [("user", "a")]).lookup requestUUID = some id ∧
      ∀ (mdNext : MetadataImpl Empty) (mutationNext : Mutation), HasId mdNext id → Readable mdNext →
        Follows (fun _ => some 305419896) samplingProxy t id mdNext mutationNext :=
  trace_decisions_agree (fun _ => some 305419896) samplingProxy samplingProxy {} [] [("user", "a")]
    ⟨by decide, by decide⟩ rfl (fun _ _ _ hv => nomatch hv) samplingProxy_keepsOff
      samplingProxy_keepsOff (by decide)

end MetaProtocolProxy.Tracing
