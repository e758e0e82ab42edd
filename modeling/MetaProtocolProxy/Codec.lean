import MetaProtocolProxy.Lib.Framing
/-
# Codec interface and message metadata (codec/codec.h, codec_impl.h, codec_impl.cc)

Every protocol plugs into the proxy through `Codec`: `decode` consumes bytes of a buffer
and fills a `Metadata`, `encode` applies a mutation to a message, `onError` builds the
reply the proxy sends on its own. The codec object keeps state between two calls of
`decode`; here that state is the type `σ`, passed explicitly.

| here | there |
| --- | --- |
| `Bytes` | a `Buffer::Instance`, front first |
| `String` | a `std::string`, one character (below 256) per byte |
| `Any α` | a `std::any` held by `properties_`; `α` is whatever else a codec stores there |
| `Failure` | a C++ exception, or what ends the process (`PANIC`, a null dereference) |
| `Step` (`Framing`) | `DecodeStatus` together with the codec and buffer left behind |

`headers_`, `response_headers_`, `stream_info_` and the tracing accessors of
`MetadataImpl` are not modelled: no function below reads them.
-/
namespace MetaProtocolProxy

abbrev Bytes := List UInt8

/-- `MessageType` (codec.h). -/
inductive MessageType
  | request
  | response
  | oneway
  | streamInit
  | streamData
  | streamCloseOneWay
  | streamCloseTwoWay
  | heartbeat
  | error
  deriving DecidableEq, Repr

/-- `ResponseStatus` (codec.h). -/
inductive ResponseStatus
  | ok
  | error
  deriving DecidableEq, Repr

/-- `ErrorType` (codec.h). -/
inductive ErrorType
  | routeNotFound
  | clusterNotFound
  | noHealthyUpstream
  | badResponse
  | unspecified
  | overLimit
  deriving DecidableEq, Repr

/-- `Error` (codec.h): what `Codec::onError` turns into a reply. -/
structure Error where
  type : ErrorType
  message : String
  deriving DecidableEq, Repr

/-- `Mutation`: a `std::map<std::string, std::string>`. -/
abbrev Mutation := List (String × String)

/-- `map[key] = value` for every entry. -/
def Mutation.set (mutation entries : Mutation) : Mutation :=
  entries.foldl (fun m kv => kv :: m.filter fun e => e.1 != kv.1) mutation

theorem lookup_filter_ne {β : Type} (kvs : List (String × β)) (k k' : String) :
    (kvs.filter fun kv => kv.1 != k).lookup k' = if k' = k then none else kvs.lookup k' := by
  induction kvs with
  | nil => simp
  | cons kv kvs ih =>
    obtain ⟨a, v⟩ := kv
    by_cases ha : a = k
    · subst ha
      simp only [List.filter_cons, bne_self_eq_false, Bool.false_eq_true, if_false, ih, List.lookup_cons]
      by_cases hk : k' = a
      · simp [hk]
      · simp [hk, beq_eq_false_iff_ne.2 hk]
    · simp only [List.filter_cons, bne_iff_ne, ne_eq, ha, not_false_eq_true, if_true, List.lookup_cons, ih]
      by_cases hk : k' = a
      · simp [hk, ha]
      · simp [beq_eq_false_iff_ne.2 hk]

theorem lookup_eq_none_of_keys {β : Type} {kvs : List (String × β)} {k : String} (h : k ∉ kvs.map Prod.fst) :
    kvs.lookup k = none := by
  refine List.lookup_eq_none_iff.2 fun e he => ?_
  have hne : k ≠ e.1 := fun heq => h (List.mem_map.2 ⟨e, he, heq.symm⟩)
  simpa using hne

theorem Mutation.lookup_set (mutation : Mutation) {entries : Mutation}
    (hkeys : (entries.map Prod.fst).Nodup) (k : String) :
    (mutation.set entries).lookup k = (entries.lookup k).or (mutation.lookup k) := by
  induction entries generalizing mutation with
  | nil => rfl
  | cons kv entries ih =>
    obtain ⟨a, v⟩ := kv
    rw [List.map_cons, List.nodup_cons] at hkeys
    have hset : Mutation.set mutation ((a, v) :: entries) =
      Mutation.set ((a, v) :: mutation.filter fun e => e.1 != a) entries := rfl
    rw [hset, ih _ hkeys.2, List.lookup_cons, List.lookup_cons, lookup_filter_ne]
    by_cases hk : k = a
    · subst hk
      simp [lookup_eq_none_of_keys hkeys.1]
    · simp [hk, beq_eq_false_iff_ne.2 hk]

theorem Mutation.lookup_set_reverse (mutation entries : Mutation) (k : String) :
    (mutation.set entries).lookup k = (entries.reverse.lookup k).or (mutation.lookup k) := by
  induction entries generalizing mutation with
  | nil => rfl
  | cons kv entries ih =>
    obtain ⟨a, v⟩ := kv
    have hset : Mutation.set mutation ((a, v) :: entries) =
      Mutation.set ((a, v) :: mutation.filter fun e => e.1 != a) entries := rfl
    rw [hset, ih, List.reverse_cons, List.lookup_append, List.lookup_cons, List.lookup_cons,
      lookup_filter_ne, Option.or_assoc]
    by_cases hk : k = a
    · simp [hk]
    · simp [hk, beq_eq_false_iff_ne.2 hk]

/-- How a call can end other than by returning. -/
inductive Failure
  | envoyException (what : String)
  | downstreamConnectionClose (what : String)
  | badAnyCast
  | nullDereference (what : String)
  | panicked (what : String)
  deriving DecidableEq, Repr

inductive Any (α : Type)
  | string (s : String)
  | bool (b : Bool)
  | uint32 (n : Nat)
  | other (a : α)
  deriving DecidableEq, Repr

/-- `MetadataImpl`. -/
structure Metadata (α : Type) where
  properties : List (String × Any α) := []
  originMessage : Bytes := []
  messageType : MessageType := .request
  responseStatus : ResponseStatus := .ok
  requestId : Nat := 0
  streamId : Nat := 0
  headerSize : Nat := 0
  bodySize : Nat := 0
  operationName : String := ""
  deriving DecidableEq, Repr

/-- `ReservedHeaders::RealServerAddress`. -/
def realServerAddress : String := "x-meta-protocol-real-server-address"

/-- `ReservedHeaders::ApplicationProtocol`. -/
def applicationProtocol : String := "x-meta-protocol-application-protocol"

/-- `ReservedHeaders::RequestUUID`. -/
def requestUUID : String := "x-request-id"

namespace Metadata

variable {α : Type}

/-- A fresh `MetadataImpl` with its message type set, as the decoder makes one per call. -/
def ofType (t : MessageType) : Metadata α := { messageType := t }

variable (md : Metadata α)

/-- `MetadataImpl::put`: `properties_[key] = value`. -/
def put (key : String) (value : Any α) : Metadata α :=
  { md with properties := (key, value) :: md.properties.filter fun kv => kv.1 != key }

/-- `MetadataImpl::getByKey`. -/
def getByKey (key : String) : Option (Any α) := md.properties.lookup key

def putString (key value : String) : Metadata α := md.put key (.string value)

/-- `MetadataImpl::getString`: empty when absent; `any_cast` throws on another type. -/
def getString (key : String) : Except Failure String :=
  match md.getByKey key with
  | none => .ok ""
  | some (.string s) => .ok s
  | some _ => .error .badAnyCast

/-- `MetadataImpl::getBool`: false when absent; `any_cast` throws on another type. -/
def getBool (key : String) : Except Failure Bool :=
  match md.getByKey key with
  | none => .ok false
  | some (.bool b) => .ok b
  | some _ => .error .badAnyCast

/-- The loop `for (kv : map) metadata.putString(kv.first, kv.second)`. -/
def putStrings (kvs : List (String × String)) : Metadata α :=
  kvs.foldl (fun md kv => md.putString kv.1 kv.2) md

/-- `MetadataImpl::clone` (codec_impl.cc:68-82): everything but the operation name. -/
def clone : Metadata α := { md with operationName := "" }

@[simp] theorem put_messageType (k : String) (v : Any α) :
    (md.put k v).messageType = md.messageType := rfl

@[simp] theorem putString_messageType (k v : String) :
    (md.putString k v).messageType = md.messageType := rfl

@[simp] theorem put_requestId (k : String) (v : Any α) :
    (md.put k v).requestId = md.requestId := rfl

@[simp] theorem put_originMessage (k : String) (v : Any α) :
    (md.put k v).originMessage = md.originMessage := rfl

theorem getByKey_mk (key : String) (origin : Bytes) (t : MessageType) (status : ResponseStatus)
    (id stream header body : Nat) (name : String) :
    Metadata.getByKey ⟨md.properties, origin, t, status, id, stream, header, body, name⟩ key =
      md.getByKey key := rfl

@[simp] theorem getByKey_ofType (t : MessageType) (key : String) :
    (ofType t : Metadata α).getByKey key = none := rfl

/-- `put` is seen under its own key and no other. -/
theorem getByKey_put (k k' : String) (v : Any α) :
    (md.put k v).getByKey k' = if k' = k then some v else md.getByKey k' := by
  simp only [getByKey, put, List.lookup_cons, lookup_filter_ne]
  by_cases hk : k' = k
  · simp [hk]
  · simp [hk, beq_eq_false_iff_ne.2 hk]

theorem getString_putString (k s : String) : (md.putString k s).getString k = .ok s := by
  rw [getString, putString, getByKey_put, if_pos rfl]

variable (kvs : List (String × String))

/-- What a loop of `putString` leaves under a key: a string, or what was there before. -/
theorem getByKey_putStrings (k : String) :
    (k ∈ kvs.map Prod.fst → ∃ s, (md.putStrings kvs).getByKey k = some (.string s)) ∧
    (k ∉ kvs.map Prod.fst → (md.putStrings kvs).getByKey k = md.getByKey k) := by
  induction kvs generalizing md with
  | nil => simp [putStrings]
  | cons kv kvs ih =>
    obtain ⟨hin, hout⟩ := ih (md.putString kv.1 kv.2)
    have hcons : md.putStrings (kv :: kvs) = (md.putString kv.1 kv.2).putStrings kvs := rfl
    rw [hcons]
    by_cases hk : k ∈ kvs.map Prod.fst
    · exact ⟨fun _ => hin hk, fun hnot => absurd (by simp [hk]) hnot⟩
    · rw [hout hk, putString, getByKey_put]
      constructor
      · intro hmem
        have : k = kv.1 := by simpa [hk] using hmem
        exact ⟨kv.2, by simp [this]⟩
      · intro hnot
        have : k ≠ kv.1 := fun h => hnot (by simp [h])
        simp [this]

theorem putStrings_eq : md.putStrings kvs = { md with properties := (md.putStrings kvs).properties } := by
  induction kvs generalizing md with
  | nil => rfl
  | cons kv kvs ih => exact ih (md.putString kv.1 kv.2)

theorem putStrings_messageType : (md.putStrings kvs).messageType = md.messageType := by
  rw [putStrings_eq]

theorem putStrings_originMessage : (md.putStrings kvs).originMessage = md.originMessage := by
  rw [putStrings_eq]

theorem putStrings_requestId : (md.putStrings kvs).requestId = md.requestId := by
  rw [putStrings_eq]

theorem putStrings_streamId : (md.putStrings kvs).streamId = md.streamId := by
  rw [putStrings_eq]

theorem putStrings_operationName : (md.putStrings kvs).operationName = md.operationName := by
  rw [putStrings_eq]

end Metadata

/-- `Codec` (codec.h): `σ` is the codec object's own state, `init` a fresh object. -/
structure Codec (σ α : Type) where
  init : σ
  decode : σ → Bytes → Metadata α → Framing.Step σ UInt8 (Metadata α) Failure
  encode : Metadata α → Mutation → Bytes → Except Failure Bytes
  onError : Metadata α → Error → Except Failure Bytes

/-- `decode` as the decoders call it: with a fresh metadata of the decoder's type. -/
def Codec.decodeAs {σ α : Type} (cd : Codec σ α) (t : MessageType) (s : σ) (buf : Bytes) :
    Framing.Step σ UInt8 (Metadata α) Failure :=
  cd.decode s buf (Metadata.ofType t)

end MetaProtocolProxy
