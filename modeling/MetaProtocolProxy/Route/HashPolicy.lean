import Mathlib.Data.List.Sort
import Mathlib.Data.String.Basic
import MetaProtocolProxy.MetadataImpl
/-
# The hash policy of a route (hash_policy_impl.cc)

`generateHash` looks up one value per policy entry and hashes them sorted, so that the order of the
entries does not matter. The loop sorts and hashes in every round: a round appends one value to the
sorted ones so far and sorts again, and what the last round hashes is all the values, sorted once
(`hashLoop_eq`).

| here | there |
| --- | --- |
| `xxHash64` | `HashUtil::xxHash64` of a span, any function of its strings |
| `sortValues` | `std::sort` of `string_view`s |

The vector holds views of strings that `getString` returns by value; a view is modelled as the
string it was made from.
-/
namespace MetaProtocolProxy.Route

variable {α : Type}

def sortValues (values : List String) : List String := values.mergeSort fun a b => decide (a ≤ b)

def hashStep (xxHash64 : List String → UInt64) (md : Metadata α) (st : Option UInt64 × List String)
    (key : String) : Except Failure (Option UInt64 × List String) := do
  -- looked up twice; the first value is not used
  let _value ← md.getString key
  let value ← md.getString key
  let headerValues := sortValues (st.2 ++ [value])
  return (some (xxHash64 headerValues), headerValues)

/-- `HashPolicyImpl::generateHash` (hash_policy_impl.cc:9-22). -/
def generateHash (xxHash64 : List String → UInt64) (hashPolicy : List String) (md : Metadata α) :
    Except Failure (Option UInt64) := do
  let (hash, _) ← hashPolicy.foldlM (hashStep xxHash64 md) (none, [])
  return hash

theorem sortValues_perm_self (values : List String) : (sortValues values).Perm values :=
  List.mergeSort_perm values _

theorem pairwise_sortValues (values : List String) : (sortValues values).Pairwise (· ≤ ·) :=
  List.pairwise_mergeSort' (· ≤ ·) values

theorem sortValues_eq_of_perm {values values' : List String} (h : values.Perm values') :
    sortValues values = sortValues values' := by
  have hperm : (sortValues values).Perm (sortValues values') :=
    (sortValues_perm_self values).trans (h.trans (sortValues_perm_self values').symm)
  exact hperm.eq_of_pairwise' (pairwise_sortValues values) (pairwise_sortValues values')

theorem sortValues_append (values rest : List String) :
    sortValues (sortValues values ++ rest) = sortValues (values ++ rest) :=
  sortValues_eq_of_perm ((sortValues_perm_self values).append_right rest)

section Loop

variable (xxHash64 : List String → UInt64) {md : Metadata α}

theorem hashStep_eq {key : String} (h : md.HoldsText key) (st : Option UInt64 × List String) :
    hashStep xxHash64 md st key =
      .ok (some (xxHash64 (sortValues (st.2 ++ [md.lookedUp key]))),
        sortValues (st.2 ++ [md.lookedUp key])) := by
  rw [hashStep, Metadata.getString_lookedUp h]
  rfl

/-- The rounds over `keys`, with `seen` looked up before them: the vector is what was seen, sorted,
and the hash that of the vector. -/
theorem hashLoop_eq {keys : List String} (hkeys : ∀ key ∈ keys, md.HoldsText key)
    (seen : List String) (hash : Option UInt64) :
    keys.foldlM (hashStep xxHash64 md) (hash, sortValues seen) =
      .ok (if keys = [] then hash else some (xxHash64 (sortValues (seen ++ keys.map md.lookedUp))),
        sortValues (seen ++ keys.map md.lookedUp)) := by
  induction keys generalizing seen hash with
  | nil => simp [pure, Except.pure]
  | cons key keys ih =>
    have hfirst := hashStep_eq xxHash64 (hkeys key List.mem_cons_self) (hash, sortValues seen)
    rw [sortValues_append] at hfirst
    rw [List.foldlM_cons, hfirst]
    have hrest := ih (fun k hk => hkeys k (List.mem_cons_of_mem key hk)) (seen ++ [md.lookedUp key])
      (some (xxHash64 (sortValues (seen ++ [md.lookedUp key]))))
    refine hrest.trans ?_
    rw [List.append_assoc, List.map_cons]
    cases keys with
    | nil => rfl
    | cons k ks => rfl

theorem generateHash_eq {hashPolicy : List String} (h : ∀ key ∈ hashPolicy, md.HoldsText key) :
    generateHash xxHash64 hashPolicy md =
      .ok (if hashPolicy = [] then none else some (xxHash64 (sortValues (hashPolicy.map md.lookedUp)))) := by
  have hnil : sortValues [] = [] := List.mergeSort_nil
  have hloop := hashLoop_eq xxHash64 h [] none
  rw [hnil] at hloop
  rw [generateHash, hloop]
  rfl

theorem generateHash_eq_of_perm {md' : Metadata α} {hashPolicy hashPolicy' : List String}
    (h : ∀ key ∈ hashPolicy, md.HoldsText key) (h' : ∀ key ∈ hashPolicy', md'.HoldsText key)
    (hvalues : (hashPolicy'.map md'.lookedUp).Perm (hashPolicy.map md.lookedUp)) :
    generateHash xxHash64 hashPolicy' md' = generateHash xxHash64 hashPolicy md := by
  have hlength := hvalues.length_eq
  rw [List.length_map, List.length_map] at hlength
  have hempty : hashPolicy' = [] ↔ hashPolicy = [] := by
    rw [← List.length_eq_zero_iff, ← List.length_eq_zero_iff, hlength]
  rw [generateHash_eq xxHash64 h, generateHash_eq xxHash64 h', sortValues_eq_of_perm hvalues]
  simp only [hempty]

end Loop

/-- **The hash is that of the sorted values**, and so depends on their multiset only. -/
theorem hash_order_insensitive (xxHash64 : List String → UInt64) (hashPolicy : List String) (md : Metadata α)
    (h : ∀ key ∈ hashPolicy, md.HoldsText key) :
    (∃ hash, generateHash xxHash64 hashPolicy md = .ok hash ∧ (hash = none ↔ hashPolicy = []) ∧
      (hashPolicy ≠ [] → hash = some (xxHash64 (sortValues (hashPolicy.map md.lookedUp))))) ∧
    (∀ (hashPolicy' : List String) (md' : Metadata α), (∀ key ∈ hashPolicy', md'.HoldsText key) →
      (hashPolicy'.map md'.lookedUp).Perm (hashPolicy.map md.lookedUp) →
      generateHash xxHash64 hashPolicy' md' = generateHash xxHash64 hashPolicy md) ∧
    (∀ hashPolicy' : List String, hashPolicy'.Perm hashPolicy →
      generateHash xxHash64 hashPolicy' md = generateHash xxHash64 hashPolicy md) := by
  refine ⟨⟨_, generateHash_eq xxHash64 h, ?_, ?_⟩, ?_, ?_⟩
  · by_cases hp : hashPolicy = []
    · simp [hp]
    · simp [hp]
  · intro hp
    rw [if_neg hp]
  · intro hashPolicy' md' h' hvalues
    exact generateHash_eq_of_perm xxHash64 h h' hvalues
  · intro hashPolicy' hperm
    exact generateHash_eq_of_perm xxHash64 h (fun key hkey => h key (hperm.subset hkey)) (hperm.map _)

/-- A request with a user and no zone. -/
def userOnly : Metadata Empty := ({} : Metadata Empty).putString "user" "x"

/-- A hash that tells the orders of its values apart. -/
def rollingHash (values : List String) : UInt64 :=
  values.foldl (fun hash value => 31 * hash + UInt64.ofNat value.length) 0

theorem userOnly_holdsText (key : String) : userOnly.HoldsText key := by
  intro v hv
  rw [userOnly, Metadata.putString, Metadata.getByKey_put] at hv
  split at hv
  · exact ⟨"x", (Option.some.inj hv).symm⟩
  · cases hv

theorem hash_of_two_keys :
    (∃ hash, generateHash rollingHash ["user", "zone"] userOnly = .ok hash ∧
      hash = some (rollingHash (sortValues ["x", ""]))) ∧
    generateHash rollingHash ["zone", "user"] userOnly =
      generateHash rollingHash ["user", "zone"] userOnly := by
  obtain ⟨⟨hash, hok, -, hsorted⟩, -, hperm⟩ :=
    hash_order_insensitive rollingHash ["user", "zone"] userOnly fun key _ => userOnly_holdsText key
  exact ⟨⟨hash, hok, hsorted (by decide)⟩, hperm _ (List.Perm.swap _ _ _)⟩

end MetaProtocolProxy.Route
