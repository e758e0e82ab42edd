import Mathlib.Algebra.Order.Ring.Nat
import Mathlib.Data.List.Induction
import MetaProtocolProxy.Codec
/-
# `MetadataImpl` with its header maps (codec_impl.h, codec_impl.cc)

`Metadata` is what the codecs use of a `MetadataImpl`. The route matcher, the two rate limiters and
the access log look at its header maps instead, which `putString` and `removeString` keep beside the
properties: the properties by the key as it is spelt, the headers by the key in lower case.

The two views agree until a spelling is removed that is not the only one: the headers lose the
entry, and the properties keep the other spelling (`header_view_iff`). And a clone has the
properties, but neither the headers nor the operation name (`clone_faithful_iff`).

| here | there |
| --- | --- |
| `HeaderMap` | `Http::HeaderMap`, a multimap by lower-cased names |
| `TextOp` | `putString`, `removeString`, `set`, `remove` |
| `MetadataOp` | any public operation; what is done through a returned reference is a function |
| `written` | what the last operation on a key put there, if it did |

`stream_info_` is not modelled.
-/
namespace MetaProtocolProxy

/-- `Http::LowerCaseString`. -/
def lowerCase (key : String) : String := String.ofList (key.toList.map Char.toLower)

abbrev HeaderMap := List (String × String)

namespace HeaderMap

def remove (m : HeaderMap) (key : String) : HeaderMap := m.filter fun e => e.1 != key

def addCopy (m : HeaderMap) (key value : String) : HeaderMap := m ++ [(key, value)]

def get (m : HeaderMap) (key : String) : List String := (m.filter fun e => e.1 == key).map Prod.snd

theorem get_remove (m : HeaderMap) (key k : String) :
    (m.remove key).get k = if key = k then [] else m.get k := by
  unfold remove get
  rw [List.filter_filter]
  by_cases hk : key = k
  · subst hk
    rw [if_pos rfl, List.map_eq_nil_iff, List.filter_eq_nil_iff]
    intro e _
    simp
  · rw [if_neg hk]
    congr 1
    apply List.filter_congr
    intro e _
    by_cases he : e.1 = k
    · simp [he, Ne.symm hk]
    · simp [he]

theorem get_addCopy (m : HeaderMap) (key value k : String) :
    (m.addCopy key value).get k = m.get k ++ if key = k then [value] else [] := by
  unfold addCopy get
  by_cases hk : key = k
  · simp [hk]
  · simp [hk]

/-- What `putString` does to a header map. -/
theorem get_replace (m : HeaderMap) (key value k : String) :
    ((m.remove key).addCopy key value).get k = if key = k then [value] else m.get k := by
  rw [get_addCopy, get_remove]
  by_cases hk : key = k
  · simp [hk]
  · simp [hk]

end HeaderMap

structure MetadataImpl (α : Type) extends Metadata α where
  headers : HeaderMap := []
  responseHeaders : HeaderMap := []

variable {α : Type}

/-- A key that holds a string, or nothing. -/
def Metadata.HoldsText (md : Metadata α) (key : String) : Prop :=
  ∀ v, md.getByKey key = some v → ∃ s, v = .string s

/-- The value looked up: empty when absent. -/
def Metadata.lookedUp (md : Metadata α) (key : String) : String :=
  match md.getByKey key with
  | some (.string s) => s
  | _ => ""

theorem Metadata.getString_lookedUp {md : Metadata α} {key : String} (h : md.HoldsText key) :
    md.getString key = .ok (md.lookedUp key) := by
  unfold Metadata.getString Metadata.lookedUp
  cases hv : md.getByKey key with
  | none => rfl
  | some v =>
    obtain ⟨s, rfl⟩ := h v hv
    rfl

namespace MetadataImpl

variable (md : MetadataImpl α)

/-- `put` does not touch the headers. -/
def put (key : String) (value : Any α) : MetadataImpl α :=
  { md with toMetadata := md.toMetadata.put key value }

def putString (key value : String) : MetadataImpl α :=
  let lowcaseKey := lowerCase key
  { md.put key (.string value) with
    headers := (md.headers.remove lowcaseKey).addCopy lowcaseKey value
    responseHeaders := (md.responseHeaders.remove lowcaseKey).addCopy lowcaseKey value }

def removeString (key : String) : MetadataImpl α :=
  let lowcaseKey := lowerCase key
  { md with
    properties := md.properties.filter fun kv => kv.1 != key
    headers := md.headers.remove lowcaseKey
    responseHeaders := md.responseHeaders.remove lowcaseKey }

/-- `set` and `remove` of `Tracing::TraceContext` (codec_impl.cc:112-118). -/
def set (key value : String) : MetadataImpl α := md.putString key value
def remove (key : String) : MetadataImpl α := md.removeString key

/-- A `size_t`. -/
def getMessageSize : Nat := (md.headerSize + md.bodySize) % 2 ^ 64

/-- `clone` (codec_impl.cc:68-82), setter by setter. -/
def clone : MetadataImpl α :=
  let copy : MetadataImpl α := {}
  let copy := { copy with originMessage := copy.originMessage ++ md.originMessage }
  let copy := { copy with messageType := md.messageType }
  let copy := { copy with responseStatus := md.responseStatus }
  let copy := { copy with bodySize := md.bodySize }
  let copy := { copy with headerSize := md.headerSize }
  let copy := { copy with requestId := md.requestId }
  let copy := { copy with streamId := md.streamId }
  md.properties.foldl (fun copy kv => copy.put kv.1 kv.2) copy

end MetadataImpl

/-! ### The two views of a text -/

inductive TextOp
  | putString (key value : String)
  | removeString (key : String)
  | set (key value : String)
  | remove (key : String)
  deriving DecidableEq, Repr

namespace TextOp

def key : TextOp → String
  | putString key _ | removeString key | set key _ | remove key => key

def value : TextOp → Option String
  | putString _ value | set _ value => some value
  | removeString _ | remove _ => none

def apply (md : MetadataImpl α) : TextOp → MetadataImpl α
  | putString key value => md.putString key value
  | removeString key => md.removeString key
  | set key value => md.set key value
  | remove key => md.remove key

variable (ops : List TextOp)

/-- A sequence of calls on a fresh object. -/
def applyAll : MetadataImpl α := ops.foldl apply {}

theorem getByKey_putString (md : MetadataImpl α) (key value k : String) :
    (md.putString key value).getByKey k = if key = k then some (.string value) else md.getByKey k := by
  have hput : (md.putString key value).getByKey k = (md.toMetadata.put key (.string value)).getByKey k := rfl
  rw [hput, Metadata.getByKey_put]
  simp only [eq_comm]

theorem getByKey_removeString (md : MetadataImpl α) (key k : String) :
    (md.removeString key).getByKey k = if key = k then none else md.getByKey k := by
  have herase :
    (md.removeString key).getByKey k = (md.properties.filter fun kv => kv.1 != key).lookup k := rfl
  rw [herase, lookup_filter_ne]
  simp only [eq_comm, Metadata.getByKey]

theorem getByKey_apply (op : TextOp) (md : MetadataImpl α) (k : String) :
    (op.apply md).getByKey k = if op.key = k then op.value.map .string else md.getByKey k := by
  cases op with
  | putString key value => exact getByKey_putString md key value k
  | removeString key => exact getByKey_removeString md key k
  | set key value => exact getByKey_putString md key value k
  | remove key => exact getByKey_removeString md key k

theorem get_headers_apply (op : TextOp) (md : MetadataImpl α) (l : String) :
    (op.apply md).headers.get l = if lowerCase op.key = l then op.value.toList else md.headers.get l := by
  cases op with
  | putString key value => exact HeaderMap.get_replace _ _ value l
  | removeString key => exact HeaderMap.get_remove _ _ l
  | set key value => exact HeaderMap.get_replace _ _ value l
  | remove key => exact HeaderMap.get_remove _ _ l

theorem responseHeaders_apply (op : TextOp) (md : MetadataImpl α) (h : md.responseHeaders = md.headers) :
    (op.apply md).responseHeaders = (op.apply md).headers := by
  cases op <;> simp [apply, MetadataImpl.putString, MetadataImpl.removeString, MetadataImpl.set,
    MetadataImpl.remove, h]

variable {κ : Type} [DecidableEq κ]

/-- What the last operation on a key with image `k` under `f` left there. -/
def written (f : String → κ) (k : κ) (ops : List TextOp) : Option String :=
  (ops.reverse.find? fun op => f op.key = k).bind value

/-- The value of the latest `putString` among the keys with lower-casing `l`, removals aside. -/
def latestPut (l : String) (ops : List TextOp) : Option String :=
  ops.reverse.findSome? fun op => if lowerCase op.key = l then op.value else none

theorem written_concat (f : String → κ) (k : κ) (ops : List TextOp) (op : TextOp) :
    written f k (ops ++ [op]) = if f op.key = k then op.value else written f k ops := by
  unfold written
  rw [List.reverse_concat, List.find?_cons]
  by_cases hk : f op.key = k
  · simp [hk]
  · simp [hk]

theorem latestPut_concat (l : String) (ops : List TextOp) (op : TextOp) :
    latestPut l (ops ++ [op]) = ((if lowerCase op.key = l then op.value else none).or (latestPut l ops)) := by
  unfold latestPut
  rw [List.reverse_concat, List.findSome?_cons]
  cases (if lowerCase op.key = l then op.value else none) <;> rfl

theorem applyAll_concat (op : TextOp) :
    (applyAll (ops ++ [op]) : MetadataImpl α) = op.apply (applyAll ops) := by
  rw [applyAll, List.foldl_concat, applyAll]

/-- Whatever each operation sets under the keys of one image, a sequence leaves as its last one
did. -/
theorem read_applyAll {β : Type} (read : MetadataImpl α → β) (out : Option String → β)
    (f : String → κ) (k : κ) (hfresh : read {} = out none)
    (hstep : ∀ (op : TextOp) (md : MetadataImpl α), read (op.apply md) = if f op.key =
      k then out op.value else read md)
    (ops : List TextOp) : read (applyAll ops) = out (written f k ops) := by
  induction ops using List.reverseRecOn with
  | nil => exact hfresh
  | append_singleton ops op ih =>
    rw [applyAll_concat, hstep, written_concat, ih, apply_ite out]

theorem getByKey_applyAll (k : String) :
    (applyAll ops : MetadataImpl α).getByKey k = (written id k ops).map .string :=
  read_applyAll (fun md => md.getByKey k) (Option.map .string) id k rfl (fun op md =>
    getByKey_apply op md k) ops

theorem get_headers_applyAll (l : String) :
    (applyAll ops : MetadataImpl α).headers.get l = (written lowerCase l ops).toList :=
  read_applyAll (fun md => md.headers.get l) Option.toList lowerCase l rfl (fun op md =>
    get_headers_apply op md l) ops

theorem responseHeaders_applyAll :
    (applyAll ops : MetadataImpl α).responseHeaders = (applyAll ops : MetadataImpl α).headers := by
  induction ops using List.reverseRecOn with
  | nil => rfl
  | append_singleton ops op ih =>
    rw [applyAll_concat]
    exact responseHeaders_apply op _ ih

theorem written_spelling {f : String → κ} {k : κ} {ops : List TextOp} {v : String}
    (h : written f k ops = some v) : ∃ key, f key = k ∧ written id key ops = some v := by
  induction ops using List.reverseRecOn with
  | nil => simp [written] at h
  | append_singleton ops op ih =>
    rw [written_concat] at h
    by_cases hk : f op.key = k
    · rw [if_pos hk] at h
      exact ⟨op.key, hk, by rw [written_concat, id, if_pos rfl, h]⟩
    · rw [if_neg hk] at h
      obtain ⟨key, hkey, hw⟩ := ih h
      have hne : id op.key ≠ key := fun heq => hk (by rw [← hkey, ← heq, id])
      exact ⟨key, hkey, by rw [written_concat, if_neg hne, hw]⟩

theorem latestPut_of_written {l v : String} {ops : List TextOp} (h : written lowerCase l ops = some v) :
    latestPut l ops = some v := by
  induction ops using List.reverseRecOn with
  | nil => simp [written] at h
  | append_singleton ops op ih =>
    rw [written_concat] at h
    rw [latestPut_concat]
    by_cases hk : lowerCase op.key = l
    · rw [if_pos hk] at h ⊢
      rw [h, Option.some_or]
    · rw [if_neg hk] at h ⊢
      rw [ih h, Option.none_or]

theorem getString_applyAll (k : String) :
    (applyAll ops : MetadataImpl α).getString k = .ok ((written id k ops).getD "") := by
  rw [Metadata.getString, getByKey_applyAll]
  cases written id k ops with
  | none => rfl
  | some v => rfl

/-- What routing sees is what `getString` sees. -/
structure HeaderView (ops : List TextOp) (md : MetadataImpl α) : Prop where
  held : ∀ k v, md.getString k = .ok v → v ≠ "" → ∃ u, latestPut (lowerCase k) ops = some u ∧
    md.headers.get (lowerCase k) = [u] ∧ md.responseHeaders.get (lowerCase k) = [u]
  absent : ∀ l, (∀ k, lowerCase k = l → md.getByKey k = none) → md.headers.get l = [] ∧
    md.responseHeaders.get l = []

/-- **The views agree as long as no removal comes last among the spellings of a key that still has a
text.** -/
theorem header_view_iff : HeaderView ops (applyAll ops : MetadataImpl α) ↔
    ∀ k v, written id k ops = some v → v ≠ "" → written lowerCase (lowerCase k) ops ≠ none := by
  constructor
  · intro hview k v hk hv hnone
    have hget : (applyAll ops : MetadataImpl α).getString k = .ok v := by
      rw [getString_applyAll, hk, Option.getD_some]
    obtain ⟨u, -, hheaders, -⟩ := hview.held k v hget hv
    rw [get_headers_applyAll, hnone] at hheaders
    cases hheaders
  · intro hlast
    refine ⟨?_, ?_⟩
    · intro k v hget hv
      rw [getString_applyAll, Except.ok.injEq] at hget
      obtain ⟨w, hk⟩ : ∃ w, written id k ops = some w := by
        cases hk : written id k ops with
        | none => rw [hk, Option.getD_none] at hget; exact absurd hget.symm hv
        | some w => exact ⟨w, rfl⟩
      have hwv : w = v := by rwa [hk, Option.getD_some] at hget
      obtain ⟨u, hu⟩ := Option.ne_none_iff_exists'.1 (hlast k v (hwv ▸ hk) hv)
      refine ⟨u, latestPut_of_written hu, ?_, ?_⟩
      · rw [get_headers_applyAll, hu, Option.toList_some]
      · rw [responseHeaders_applyAll, get_headers_applyAll, hu, Option.toList_some]
    · intro l hstored
      rw [responseHeaders_applyAll, and_self, get_headers_applyAll]
      cases hl : written lowerCase l ops with
      | none => rfl
      | some u =>
        obtain ⟨k, hk, hw⟩ := written_spelling hl
        have hnone := hstored k hk
        rw [getByKey_applyAll, hw] at hnone
        cases hnone

/-- An attachment `Foo`, and the removal of `foo`: `getString("Foo")` still has the text, and no
route sees it. -/
def spellings : List TextOp := [.putString "Foo" "a", .remove "foo"]

theorem spellings_views_differ : ¬ HeaderView spellings (applyAll spellings : MetadataImpl Empty) := by
  intro hview
  obtain ⟨u, -, hheaders, -⟩ := hview.held "Foo" "a" (by decide) (by decide)
  have hnone : (applyAll spellings : MetadataImpl Empty).headers.get (lowerCase "Foo") = [] := by decide
  rw [hnone] at hheaders
  cases hheaders

end TextOp

/-! ### Clones -/

/-- A public operation. `originMessage`, `getHeaders` and `getResponseHeaders` give their caller a
reference. -/
inductive MetadataOp (α : Type)
  | put (key : String) (value : Any α)
  | text (op : TextOp)
  | originMessage (edit : Bytes → Bytes)
  | setMessageType (messageType : MessageType)
  | setResponseStatus (responseStatus : ResponseStatus)
  | setRequestId (requestId : Nat)
  | setStreamId (streamId : Nat)
  | setHeaderSize (headerSize : Nat)
  | setBodySize (bodySize : Nat)
  | setOperationName (operationName : String)
  | getHeaders (edit : HeaderMap → HeaderMap)
  | getResponseHeaders (edit : HeaderMap → HeaderMap)

namespace MetadataOp

def apply (md : MetadataImpl α) : MetadataOp α → MetadataImpl α
  | put key value => md.put key value
  | text op => op.apply md
  | originMessage edit => { md with originMessage := edit md.originMessage }
  | setMessageType messageType => { md with messageType }
  | setResponseStatus responseStatus => { md with responseStatus }
  | setRequestId requestId => { md with requestId }
  | setStreamId streamId => { md with streamId }
  | setHeaderSize headerSize => { md with headerSize }
  | setBodySize bodySize => { md with bodySize }
  | setOperationName operationName => { md with operationName }
  | getHeaders edit => { md with headers := edit md.headers }
  | getResponseHeaders edit => { md with responseHeaders := edit md.responseHeaders }

def applyAll (md : MetadataImpl α) (ops : List (MetadataOp α)) : MetadataImpl α := ops.foldl apply md

end MetadataOp

namespace MetadataImpl

variable (md : MetadataImpl α)

/-- `properties_` is a map. -/
def Keyed : Prop := (md.properties.map Prod.fst).Nodup

theorem keyed_fresh : ({} : MetadataImpl α).Keyed := List.nodup_nil

theorem nodup_filter_keys {entries : List (String × Any α)} (h : (entries.map Prod.fst).Nodup)
    (key : String) : ((entries.filter fun kv => kv.1 != key).map Prod.fst).Nodup :=
  h.sublist (List.Sublist.map _ List.filter_sublist)

theorem Keyed.put {md : MetadataImpl α} (h : md.Keyed) (key : String) (value : Any α) :
    (md.put key value).Keyed := by
  refine List.nodup_cons.2 ⟨?_, nodup_filter_keys h key⟩
  intro hmem
  obtain ⟨kv, hkv, heq⟩ := List.mem_map.1 hmem
  have hne := (List.mem_filter.1 hkv).2
  simp [heq] at hne

theorem Keyed.apply {md : MetadataImpl α} (h : md.Keyed) (op : MetadataOp α) : (op.apply md).Keyed := by
  cases op with
  | put key value => exact h.put key value
  | text op =>
    cases op with
    | putString key value => exact h.put key (.string value)
    | removeString key => exact nodup_filter_keys h key
    | set key value => exact h.put key (.string value)
    | remove key => exact nodup_filter_keys h key
  | _ => exact h

theorem Keyed.applyAll {md : MetadataImpl α} (h : md.Keyed) (ops : List (MetadataOp α)) :
    (MetadataOp.applyAll md ops).Keyed := by
  induction ops generalizing md with
  | nil => exact h
  | cons op ops ih => exact ih (h.apply op)

/-- The loop of `clone` changes nothing but properties. -/
theorem foldl_put_eq (entries : List (String × Any α)) (copy : MetadataImpl α) :
    ∃ properties, entries.foldl (fun copy kv => copy.put kv.1 kv.2) copy = { copy with properties } := by
  induction entries generalizing copy with
  | nil => exact ⟨copy.properties, rfl⟩
  | cons kv entries ih => exact ih (copy.put kv.1 kv.2)

theorem getByKey_foldl_put {entries : List (String × Any α)} (h : (entries.map Prod.fst).Nodup)
    (copy : MetadataImpl α) (k : String) :
    (entries.foldl (fun copy kv => copy.put kv.1 kv.2) copy).getByKey k =
      (entries.lookup k).or (copy.getByKey k) := by
  induction entries generalizing copy with
  | nil => rfl
  | cons kv entries ih =>
    obtain ⟨key, value⟩ := kv
    obtain ⟨hkey, hrest⟩ := List.nodup_cons.1 h
    have hput : (copy.put key value).getByKey k = if k = key then some value else copy.getByKey k :=
      Metadata.getByKey_put copy.toMetadata key k value
    rw [List.foldl_cons, ih hrest, hput, List.lookup_cons]
    by_cases hk : k = key
    · subst hk
      simp [lookup_eq_none_of_keys hkey]
    · simp [hk, beq_eq_false_iff_ne.2 hk]

structure SameAnswers (a b : MetadataImpl α) : Prop where
  getByKey : ∀ key, a.getByKey key = b.getByKey key
  getString : ∀ key, a.getString key = b.getString key
  getHeaders : a.headers = b.headers
  getResponseHeaders : a.responseHeaders = b.responseHeaders
  getOperationName : a.operationName = b.operationName
  getMessageType : a.messageType = b.messageType
  getResponseStatus : a.responseStatus = b.responseStatus
  getRequestId : a.requestId = b.requestId
  getStreamId : a.streamId = b.streamId
  getHeaderSize : a.headerSize = b.headerSize
  getBodySize : a.bodySize = b.bodySize
  getMessageSize : a.getMessageSize = b.getMessageSize
  originMessage : a.originMessage = b.originMessage

theorem clone_eq :
    ∃ properties, md.clone = { toMetadata := { md.toMetadata.clone with properties } } :=
  foldl_put_eq md.properties _

theorem getByKey_clone {md : MetadataImpl α} (h : md.Keyed) (key : String) :
    md.clone.getByKey key = md.getByKey key :=
  (getByKey_foldl_put h _ key).trans Option.or_none

/-- What a clone has: as `Metadata.clone` has it, with empty header maps. -/
theorem clone_sameAnswers {md : MetadataImpl α} (h : md.Keyed) :
    SameAnswers md.clone { toMetadata := md.toMetadata.clone } := by
  have hget := getByKey_clone h
  obtain ⟨properties, hclone⟩ := md.clone_eq
  rw [hclone] at hget ⊢
  exact
    { getByKey := hget
      getString := fun key => by rw [Metadata.getString, hget key, Metadata.getString]; rfl
      getHeaders := rfl
      getResponseHeaders := rfl
      getOperationName := rfl
      getMessageType := rfl
      getResponseStatus := rfl
      getRequestId := rfl
      getStreamId := rfl
      getHeaderSize := rfl
      getBodySize := rfl
      getMessageSize := rfl
      originMessage := rfl }

theorem sameAnswers_refl (a : MetadataImpl α) : SameAnswers a a :=
  ⟨fun _ => rfl, fun _ => rfl, rfl, rfl, rfl, rfl, rfl, rfl, rfl, rfl, rfl, rfl, rfl⟩

inductive OneOfTwo
  | original
  | copy
  deriving DecidableEq, Repr

def applyTo (objects : OneOfTwo → MetadataImpl α) (call : OneOfTwo × MetadataOp α) :
    OneOfTwo → MetadataImpl α :=
  fun i => if i = call.1 then call.2.apply (objects i) else objects i

def callsOn (i : OneOfTwo) (calls : List (OneOfTwo × MetadataOp α)) : List (MetadataOp α) :=
  (calls.filter fun call => i = call.1).map Prod.snd

theorem foldl_applyTo (i : OneOfTwo) (calls : List (OneOfTwo × MetadataOp α))
    (objects : OneOfTwo → MetadataImpl α) :
    calls.foldl applyTo objects i = MetadataOp.applyAll (objects i) (callsOn i calls) := by
  induction calls generalizing objects with
  | nil => rfl
  | cons call calls ih =>
    rw [List.foldl_cons, ih]
    by_cases hi : i = call.1
    · simp [applyTo, callsOn, MetadataOp.applyAll, hi]
    · simp [applyTo, callsOn, MetadataOp.applyAll, hi]

def afterClone : OneOfTwo → MetadataImpl α
  | .original => md
  | .copy => md.clone

/-- A clone answers as the original does, and calls on either leave the other's answers as they
are. -/
structure CloneFaithful (md : MetadataImpl α) : Prop where
  same : SameAnswers md.clone md
  independent : ∀ (calls : List (OneOfTwo × MetadataOp α)) (i : OneOfTwo), (∀ call ∈ calls, call.1 ≠ i) →
    SameAnswers (calls.foldl applyTo (afterClone md) i) (afterClone md i)

theorem clone_independent (calls : List (OneOfTwo × MetadataOp α)) (i : OneOfTwo)
    (hothers : ∀ call ∈ calls, call.1 ≠ i) :
    SameAnswers (calls.foldl applyTo (afterClone md) i) (afterClone md i) := by
  have hnone : callsOn i calls = [] := by
    rw [callsOn, List.map_eq_nil_iff, List.filter_eq_nil_iff]
    intro call hcall
    simpa using (hothers call hcall).symm
  rw [foldl_applyTo, hnone]
  exact sameAnswers_refl _

/-- **A clone is faithful where there is nothing in the original but properties and sizes**: no
header in either map, and no operation name. -/
theorem clone_faithful_iff (ops : List (MetadataOp α)) : CloneFaithful (MetadataOp.applyAll {} ops) ↔
    (MetadataOp.applyAll {} ops : MetadataImpl α).headers = [] ∧
    (MetadataOp.applyAll {} ops : MetadataImpl α).responseHeaders = [] ∧
    (MetadataOp.applyAll {} ops : MetadataImpl α).operationName = "" := by
  have hkeyed : (MetadataOp.applyAll {} ops : MetadataImpl α).Keyed := keyed_fresh.applyAll ops
  generalize MetadataOp.applyAll {} ops = md at hkeyed ⊢
  have hclone := clone_sameAnswers hkeyed
  constructor
  · intro hfaithful
    have hsame := hfaithful.same
    exact ⟨hsame.getHeaders.symm.trans hclone.getHeaders,
      hsame.getResponseHeaders.symm.trans hclone.getResponseHeaders,
      hsame.getOperationName.symm.trans hclone.getOperationName⟩
  · rintro ⟨hheaders, hresponse, hname⟩
    refine ⟨?_, clone_independent md⟩
    have hmd : ({ toMetadata := md.toMetadata.clone } : MetadataImpl α) = md := by
      obtain ⟨toMetadata, headers, responseHeaders⟩ := md
      obtain rfl : headers = [] := hheaders
      obtain rfl : responseHeaders = [] := hresponse
      have : toMetadata.clone = toMetadata := by rw [Metadata.clone, ← hname]
      rw [this]
    rwa [hmd] at hclone

/-- One header on a request: its clone, which the router makes for the mirrors, has none. -/
theorem clone_drops_header :
    ¬ CloneFaithful (MetadataOp.applyAll {} [.text (.putString "user" "a")] : MetadataImpl Empty) := by
  intro hfaithful
  have hheaders := hfaithful.same.getHeaders
  revert hheaders
  decide

end MetadataImpl

end MetaProtocolProxy
