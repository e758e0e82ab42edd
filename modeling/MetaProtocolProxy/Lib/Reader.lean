import Mathlib.Data.List.Basic
/-
# Readers that look only at what they take

A `Reader` gives the value at the front of a list and how many symbols it takes. It is `Local`
when it depends on those symbols only and reads nothing when they are not all there; then it
can be used on a buffer that other data follow, and be tried again when more has come. Readers
put together from `pure`, `fail`, `take` and `bind` are local. `Reads r a v` says what such a
reader finds: `v` in `a`, whatever follows.
-/
namespace Reading

/-- The value at the front of a list and how many symbols it takes. -/
abbrev Reader (β τ : Type) := List β → Option (τ × Nat)

namespace Reader

variable {β τ υ : Type}

/-- The reader depends only on the symbols it takes, and reads nothing when they are not all
there. -/
def Local (r : Reader β τ) : Prop :=
  ∀ (bs more : List β) (v : τ) (n : Nat), r bs = some (v, n) ↔ r (bs ++ more) = some (v, n) ∧ n ≤ bs.length

def pure (v : τ) : Reader β τ := fun _ => some (v, 0)

def fail : Reader β τ := fun _ => none

/-- The next `k` symbols. -/
def take (k : Nat) : Reader β (List β) := fun bs => if bs.length < k then none else some (bs.take k, k)

def bind (r : Reader β τ) (f : τ → Reader β υ) : Reader β υ := fun bs =>
  match r bs with
  | none => none
  | some (v, n) => (f v (bs.drop n)).map fun w => (w.1, n + w.2)

theorem local_pure (v : τ) : Local (pure v : Reader β τ) := by
  intro bs more w n
  simp only [pure, Option.some.injEq, Prod.mk.injEq]
  constructor
  · rintro ⟨rfl, rfl⟩
    simp
  · rintro ⟨h, -⟩
    exact h

theorem local_fail : Local (fail : Reader β τ) := by
  intro bs more v n
  simp [fail]

theorem local_take (k : Nat) : Local (take k : Reader β (List β)) := by
  intro bs more v n
  simp only [take, List.length_append]
  constructor
  · intro h
    split at h
    · cases h
    · cases h
      rename_i hk
      rw [if_neg (by omega), List.take_append_of_le_length (by omega)]
      exact ⟨rfl, by omega⟩
  · rintro ⟨h, hn⟩
    split at h
    · cases h
    · cases h
      rw [if_neg (by omega), List.take_append_of_le_length hn]

theorem local_bind {r : Reader β τ} {f : τ → Reader β υ} (hr : Local r) (hf : ∀ v, Local (f v)) :
    Local (r.bind f) := by
  intro bs more w k
  simp only [bind]
  constructor
  · intro h
    cases hv : r bs with
    | none => simp [hv] at h
    | some p =>
      obtain ⟨v, n⟩ := p
      obtain ⟨hv', hn⟩ := (hr bs more v n).1 hv
      simp only [hv, Option.map_eq_some_iff] at h
      obtain ⟨⟨w', m⟩, hw, heq⟩ := h
      cases heq
      obtain ⟨hw', hm⟩ := (hf v (bs.drop n) more w' m).1 hw
      rw [List.length_drop] at hm
      rw [hv']
      simp only [List.drop_append_of_le_length hn, hw', Option.map_some, true_and]
      omega
  · rintro ⟨h, hk⟩
    cases hv : r (bs ++ more) with
    | none => simp [hv] at h
    | some p =>
      obtain ⟨v, n⟩ := p
      simp only [hv, Option.map_eq_some_iff] at h
      obtain ⟨⟨w', m⟩, hw, heq⟩ := h
      cases heq
      have hn : n ≤ bs.length := by omega
      rw [List.drop_append_of_le_length hn] at hw
      have hw' := (hf v (bs.drop n) more w' m).2 ⟨hw, by rw [List.length_drop]; omega⟩
      rw [(hr bs more v n).2 ⟨hv, hn⟩]
      simp only [hw', Option.map_some]

/-- In `a` the reader finds `v`, whatever follows. -/
def Reads (r : Reader β τ) (a : List β) (v : τ) : Prop := ∀ rest, r (a ++ rest) = some (v, a.length)

theorem reads_pure (v : τ) : Reads (pure v : Reader β τ) [] v := fun _ => rfl

theorem reads_take {a : List β} {k : Nat} (h : a.length = k) : Reads (take k) a a := by
  intro rest
  subst h
  simp [take]

theorem Reads.bind {r : Reader β τ} {f : τ → Reader β υ} {a b : List β} {v : τ} {w : υ} (hr : Reads r a v)
    (hf : Reads (f v) b w) : Reads (r.bind f) (a ++ b) w := by
  intro rest
  simp only [Reader.bind, List.append_assoc, hr (b ++ rest), List.drop_left, hf rest, Option.map_some,
    List.length_append]

/-- A bind whose second reader takes nothing. -/
theorem Reads.bind_nil {r : Reader β τ} {f : τ → Reader β υ} {a : List β} {v : τ} {w : υ} (hr : Reads r a v)
    (hf : Reads (f v) [] w) : Reads (r.bind f) a w := by
  have h := hr.bind hf
  rwa [List.append_nil] at h

end Reader

end Reading
