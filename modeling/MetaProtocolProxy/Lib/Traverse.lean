import Mathlib.Data.List.Forall2
/-
# Lists of computations that may fail

`xs.mapM f` in `Except` stops at the first failure. It succeeds just when `f` succeeds on every
member, its result then goes with the list member by member, and a failure is the failure of a
member.
-/
namespace Traverse

variable {ε α β : Type} {f : α → Except ε β} {xs : List α} {ys : List β}

theorem bind_eq_ok_iff {x : Except ε α} {g : α → Except ε β} {b : β} :
    (x >>= g) = .ok b ↔ ∃ a, x = .ok a ∧ g a = .ok b := by
  cases x <;> simp [bind, Except.bind]

theorem mapM_eq_ok_iff : xs.mapM f = .ok ys ↔ List.Forall₂ (fun x y => f x = .ok y) xs ys := by
  induction xs generalizing ys with
  | nil =>
    rw [List.mapM_nil, List.forall₂_nil_left_iff]
    exact ⟨fun h => (Except.ok.inj h).symm, fun h => h ▸ rfl⟩
  | cons x xs ih =>
    simp only [List.mapM_cons, bind_eq_ok_iff, ih, List.forall₂_cons_left_iff]
    constructor
    · rintro ⟨y, hy, ys', hys, h⟩
      exact ⟨y, ys', hy, hys, (Except.ok.inj h).symm⟩
    · rintro ⟨y, ys', hy, hys, rfl⟩
      exact ⟨y, hy, ys', hys, rfl⟩

theorem mapM_succeeds_iff : (∃ ys, xs.mapM f = .ok ys) ↔ ∀ x ∈ xs, ∃ y, f x = .ok y := by
  simp only [mapM_eq_ok_iff]
  induction xs with
  | nil => simp
  | cons x xs ih =>
    simp only [List.forall₂_cons_left_iff, List.forall_mem_cons, ← ih]
    constructor
    · rintro ⟨_, y, ys, hy, hys, -⟩
      exact ⟨⟨y, hy⟩, ys, hys⟩
    · rintro ⟨⟨y, hy⟩, ys, hys⟩
      exact ⟨y :: ys, y, ys, hy, hys, rfl⟩

theorem mem_of_mapM_eq_error {e : ε} (h : xs.mapM f = .error e) : ∃ x ∈ xs, f x = .error e := by
  induction xs with
  | nil => simp [pure, Except.pure] at h
  | cons x xs ih =>
    rw [List.mapM_cons] at h
    cases hx : f x with
    | error e' =>
      rw [hx] at h
      exact ⟨x, List.mem_cons_self, hx.trans (congrArg _ (Except.error.inj h))⟩
    | ok y =>
      rw [hx] at h
      cases hxs : xs.mapM f with
      | ok ys =>
        rw [hxs] at h
        cases h
      | error e' =>
        rw [hxs] at h
        obtain ⟨x', hx', hfx'⟩ := ih (hxs.trans (congrArg _ (Except.error.inj h)))
        exact ⟨x', List.mem_cons_of_mem x hx', hfx'⟩

end Traverse
