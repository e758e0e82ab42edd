import Mathlib.Algebra.Group.Int.Defs
import Mathlib.Algebra.Group.Nat.Defs
import Mathlib.Data.List.Induction
/-
# Big-endian integers in byte lists

`peekBE` reads an unsigned integer at an offset without consuming it, `writeBE` is its
bytes. A read depends only on the bytes it covers (`peekBE_append`), which is what lets a
decoder look at a header while the rest of the frame is still on its way.
-/
namespace Bytes

/-- The value of a big-endian byte list. -/
def ofBE (bs : List UInt8) : Nat := bs.foldl (fun n b => n * 256 + b.toNat) 0

/-- The `width` bytes at `pos`, as an unsigned big-endian integer. -/
def peekBE (width pos : Nat) (buf : List UInt8) : Nat := ofBE ((buf.drop pos).take width)

theorem ofBE_lt (bs : List UInt8) : ofBE bs < 256 ^ bs.length := by
  induction bs using List.reverseRecOn with
  | nil => simp [ofBE]
  | append_singleton bs b ih =>
    have hb : b.toNat < 256 := b.toNat_lt
    have hstep : ofBE (bs ++ [b]) = ofBE bs * 256 + b.toNat := by simp [ofBE]
    rw [hstep, List.length_append, List.length_singleton, Nat.pow_succ]
    omega

theorem peekBE_lt (width pos : Nat) (buf : List UInt8) : peekBE width pos buf < 256 ^ width := by
  have hlen : ((buf.drop pos).take width).length ≤ width := List.length_take_le _ _
  exact Nat.lt_of_lt_of_le (ofBE_lt _) (Nat.pow_le_pow_right (by decide) hlen)

/-- `n` in `width` bytes, big-endian, truncated. -/
def writeBE : Nat → Nat → List UInt8
  | 0, _ => []
  | w + 1, n => UInt8.ofNat (n / 256 ^ w) :: writeBE w n

@[simp] theorem length_writeBE (w n : Nat) : (writeBE w n).length = w := by
  induction w with
  | zero => rfl
  | succ w ih => simp [writeBE, ih]

private theorem foldl_eq (bs : List UInt8) (k : Nat) :
    bs.foldl (fun n b => n * 256 + b.toNat) k = k * 256 ^ bs.length + ofBE bs := by
  induction bs using List.reverseRecOn with
  | nil => simp [ofBE]
  | append_singleton bs b ih =>
    have hstep : ofBE (bs ++ [b]) = ofBE bs * 256 + b.toNat := by simp [ofBE]
    rw [List.foldl_append, ih, hstep, List.length_append, List.length_singleton, Nat.pow_succ]
    simp only [List.foldl_cons, List.foldl_nil, Nat.add_mul, Nat.mul_assoc, Nat.add_assoc]

/-- Reading back what `writeBE` wrote gives the number, truncated to the width. -/
theorem ofBE_writeBE (w n : Nat) : ofBE (writeBE w n) = n % 256 ^ w := by
  induction w with
  | zero => simp [writeBE, ofBE, Nat.mod_one]
  | succ w ih =>
    have hbyte : (UInt8.ofNat (n / 256 ^ w)).toNat = n / 256 ^ w % 256 := by simp
    rw [writeBE, ofBE, List.foldl_cons, foldl_eq, length_writeBE, ih, hbyte, Nat.pow_succ, Nat.mod_mul,
      Nat.zero_mul, Nat.zero_add, Nat.mul_comm, Nat.add_comm]

/-- `size` bytes from `start` on; what the buffer does not hold stays zero. -/
def copyOut (start size : Nat) (buf : List UInt8) : List UInt8 :=
  (buf.drop start).take size ++ List.replicate (size - ((buf.drop start).take size).length) 0

@[simp] theorem length_copyOut (start size : Nat) (buf : List UInt8) :
    (copyOut start size buf).length = size := by
  have hle : ((buf.drop start).take size).length ≤ size := List.length_take_le _ _
  rw [copyOut, List.length_append, List.length_replicate]
  omega

theorem drop_take_append {start size : Nat} {p : List UInt8} (c : List UInt8) (h : start + size ≤ p.length) :
    ((p ++ c).drop start).take size = (p.drop start).take size := by
  rw [List.drop_append_of_le_length (by omega), List.take_append_of_le_length (by simp; omega)]

theorem peekBE_append {width pos : Nat} {p : List UInt8} (c : List UInt8) (h : pos + width ≤ p.length) :
    peekBE width pos (p ++ c) = peekBE width pos p := by
  rw [peekBE, drop_take_append c h, peekBE]

/-- An integer is read back from where it is written. -/
theorem peekBE_writeBE (width n : Nat) (c : List UInt8) :
    peekBE width 0 (writeBE width n ++ c) = n % 256 ^ width := by
  rw [peekBE, List.drop_zero, List.take_left' (length_writeBE width n), ofBE_writeBE]

/-- A read behind an integer. -/
theorem peekBE_skip {width pos k : Nat} (n : Nat) (c : List UInt8) (h : k ≤ pos) :
    peekBE width pos (writeBE k n ++ c) = peekBE width (pos - k) c := by
  rw [peekBE, List.drop_append, length_writeBE, List.drop_eq_nil_of_le (by simpa using h),
    List.nil_append, peekBE]

/-- Bytes behind `start` others. -/
theorem copyOut_mid {start size : Nat} {p q : List UInt8} (c : List UInt8) (h : p.length = start)
    (hq : q.length = size) : copyOut start size (p ++ (q ++ c)) = q := by
  rw [copyOut, List.drop_left' h, List.take_left' hq, hq, Nat.sub_self, List.replicate_zero, List.append_nil]

theorem copyOut_append {start size : Nat} {p : List UInt8} (c : List UInt8) (h : start + size ≤ p.length) :
    copyOut start size (p ++ c) = copyOut start size p := by
  rw [copyOut, drop_take_append c h, copyOut]

end Bytes
