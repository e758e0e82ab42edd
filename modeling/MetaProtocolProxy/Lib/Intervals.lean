import Mathlib.Algebra.Order.BigOperators.Group.List
import Mathlib.Algebra.Order.Ring.Nat
import Mathlib.Order.Interval.Finset.Nat
/-
# Intervals laid side by side

The members of a list of lengths, laid side by side from 0 on, cut the numbers below their sum into
intervals: each number lies in one of them (`exists_holds`, `Holds.unique`), and an interval of
length `w` holds exactly `w` numbers (`card_holds`).
-/
namespace Intervals

/-- The number `x` lies in the interval at position `i`, which starts behind those before it. -/
def Holds (ws : List Nat) (i x : Nat) : Prop := (ws.take i).sum ≤ x ∧ x < (ws.take (i + 1)).sum

instance (ws : List Nat) (i x : Nat) : Decidable (Holds ws i x) := inferInstanceAs (Decidable (_ ∧ _))

theorem exists_holds {ws : List Nat} {x : Nat} (hx : x < ws.sum) : ∃ i < ws.length, Holds ws i x := by
  induction ws generalizing x with
  | nil => simp at hx
  | cons w ws ih =>
    rw [List.sum_cons] at hx
    by_cases hin : x < w
    · exact ⟨0, by simp, by simp [Holds, hin]⟩
    · obtain ⟨i, hi, hle, hlt⟩ := ih (x := x - w) (by omega)
      refine ⟨i + 1, by simpa using hi, ?_⟩
      simp only [Holds, List.take_succ_cons, List.sum_cons]
      omega

theorem sum_take_mono (ws : List Nat) : Monotone fun i => (ws.take i).sum := fun _ _ hij =>
  (List.take_sublist_take_left hij).sum_le_sum fun _ _ => Nat.zero_le _

theorem Holds.unique {ws : List Nat} {i j x : Nat} (hi : Holds ws i x) (hj : Holds ws j x) : i = j := by
  -- of two different intervals, the later starts no earlier than the other ends
  by_contra hne
  rcases Nat.lt_or_gt_of_ne hne with h | h
  · exact absurd (sum_take_mono ws h) (Nat.not_le.2 (hj.1.trans_lt hi.2))
  · exact absurd (sum_take_mono ws h) (Nat.not_le.2 (hi.1.trans_lt hj.2))

theorem sum_take_succ {ws : List Nat} {i : Nat} : (ws.take (i + 1)).sum = (ws.take i).sum + ws.getD i 0 := by
  rw [List.take_add_one, List.sum_append, List.getD_eq_getElem?_getD]
  cases ws[i]? <;> simp

/-- The numbers below the total that lie in the interval at position `i` are as many as it is
long. -/
theorem card_holds (ws : List Nat) (i : Nat) : ((Finset.range ws.sum).filter (Holds ws i)).card =
    ws.getD i 0 := by
  have htotal : (ws.take (i + 1)).sum ≤ ws.sum := (List.take_sublist _ ws).sum_le_sum fun _ _ => Nat.zero_le _
  have hset : (Finset.range ws.sum).filter (Holds ws i) =
      Finset.Ico (ws.take i).sum (ws.take (i + 1)).sum := by
    ext x
    simp only [Finset.mem_filter, Finset.mem_range, Finset.mem_Ico, Holds]
    omega
  rw [hset, Nat.card_Ico, sum_take_succ]
  omega

end Intervals
