import Mathlib.Algebra.Group.Nat.Defs
/-
# Protobuf's wire format

A message is written as a list of fields: a tag with the number and the wire type, then a varint,
four or eight bytes, or as many bytes as a varint says. What the numbers stand for is the business
of the message type: `Wire.parse` reads the fields and puts them into a message one after the other.
Groups, which proto3 does not have, are not read.
-/
namespace Wire

inductive Value
  | varint (n : Nat)
  | fixed64 (bytes : List UInt8)
  | bytes (bytes : List UInt8)
  | fixed32 (bytes : List UInt8)
  deriving DecidableEq, Repr

structure Field where
  number : Nat
  value : Value
  deriving DecidableEq, Repr

/-- The digits of a number in base 128, the lowest first; each but the last has the high bit set. -/
def digits : Nat → Nat → List UInt8
  | 0, _ => []
  | k + 1, n => if n < 128 then [UInt8.ofNat n] else UInt8.ofNat (n % 128 + 128) :: digits k (n / 128)

/-- A varint has at most ten bytes. -/
def writeVarint (n : Nat) : List UInt8 := digits 10 n

def readDigits : Nat → List UInt8 → Option (Nat × List UInt8)
  | 0, _ => none
  | _ + 1, [] => none
  | k + 1, b :: bs =>
    if b < 128 then some (b.toNat, bs) else (readDigits k bs).map fun r => (b.toNat - 128 + 128 * r.1, r.2)

/-- A varint is a number of 64 bits. -/
def readVarint (bs : List UInt8) : Option (Nat × List UInt8) :=
  (readDigits 10 bs).map fun r => (r.1 % 2 ^ 64, r.2)

/-- The next `n` bytes. -/
def readBytes (n : Nat) (bs : List UInt8) : Option (List UInt8 × List UInt8) :=
  if bs.length < n then none else some (bs.take n, bs.drop n)

def Value.wireType : Value → Nat
  | .varint _ => 0
  | .fixed64 _ => 1
  | .bytes _ => 2
  | .fixed32 _ => 5

def Value.write : Value → List UInt8
  | .varint n => writeVarint n
  | .fixed64 b => b
  | .bytes b => writeVarint b.length ++ b
  | .fixed32 b => b

def readValue (wireType : Nat) (bs : List UInt8) : Option (Value × List UInt8) :=
  match wireType with
  | 0 => (readVarint bs).map fun r => (.varint r.1, r.2)
  | 1 => (readBytes 8 bs).map fun r => (.fixed64 r.1, r.2)
  | 2 => (readVarint bs).bind fun r => (readBytes r.1 r.2).map fun r => (.bytes r.1, r.2)
  | 5 => (readBytes 4 bs).map fun r => (.fixed32 r.1, r.2)
  | _ => none

def Field.write (f : Field) : List UInt8 := writeVarint (8 * f.number + f.value.wireType) ++ f.value.write

/-- A field; the number 0 and tags of more than 32 bits are errors. -/
def readField (bs : List UInt8) : Option (Field × List UInt8) :=
  (readVarint bs).bind fun r =>
    if r.1 < 8 ∨ 2 ^ 32 ≤ r.1 then none else (readValue (r.1 % 8) r.2).map fun v => (⟨r.1 / 8, v.1⟩, v.2)

def readFields : Nat → List UInt8 → Option (List Field)
  | _, [] => some []
  | 0, _ => none
  | k + 1, bs => (readField bs).bind fun r => (readFields k r.2).map (r.1 :: ·)

def write (fs : List Field) : List UInt8 := fs.flatMap Field.write

/-- `set` puts a field into a message, which fails for a part that cannot be read itself. -/
def parse {τ : Type} (set : τ → Field → Option τ) (init : τ) (bs : List UInt8) : Option τ :=
  (readFields bs.length bs).bind fun fs => fs.foldlM set init

/-- A message is no shorter than what it contains. -/
theorem length_le_write {fs : List Field} {number : Nat} {b : List UInt8} (h : ⟨number, .bytes b⟩ ∈ fs) :
    b.length ≤ (write fs).length := by
  obtain ⟨fs₁, fs₂, rfl⟩ := List.append_of_mem h
  simp only [write, List.flatMap_append, List.flatMap_cons, List.length_append, Field.write, Value.write]
  omega

end Wire
