import Mathlib.Algebra.Order.Ring.Nat
import MetaProtocolProxy.Dubbo.Serializer
/-
# Parameter counting against the grammar of JVM type descriptors (hessian_utils.cc)

`getParametersNumber` reads the parameter types of a call with one flag, set between the `L` and the
`;` of an object type. A type descriptor is

    T ::= V | Z | B | C | D | F | I | J | S | '[' T | 'L' name ';'

and over any concatenation of descriptors the scanner counts one for each: a bracket counts nothing
and everything in a name is skipped, brackets by the first test and letters by the second. The count
is a `uint32_t`, so what it gives is the number of descriptors modulo 2^32.
-/
namespace MetaProtocolProxy.Dubbo

inductive Primitive
  | void | boolean | byte | char | double | float | int | long | short
  deriving DecidableEq, Repr

def Primitive.letter : Primitive → Char
  | void => 'V' | boolean => 'Z' | byte => 'B' | char => 'C' | double => 'D'
  | float => 'F' | int => 'I' | long => 'J' | short => 'S'

inductive TypeDescriptor
  | primitive (p : Primitive)
  | array (element : TypeDescriptor)
  | object (name : String) (closed : ';' ∉ name.toList)

namespace TypeDescriptor

def render : TypeDescriptor → List Char
  | primitive p => [p.letter]
  | array element => '[' :: element.render
  | object name _ => 'L' :: (name.toList ++ [';'])

/-- The parameter types of a call. -/
def parametersType (ts : List TypeDescriptor) : String := String.ofList (ts.flatMap render)

theorem scan_letter (p : Primitive) (count : UInt32) :
    scanParametersType (count, false) p.letter = (count + 1, false) := by
  cases p <;> rfl

theorem scan_bracket (st : UInt32 × Bool) : scanParametersType st '[' = st := rfl

theorem scan_in_name (count : UInt32) {ch : Char} (h : ch ≠ ';') :
    scanParametersType (count, true) ch = (count, true) := by
  by_cases hb : ch = '['
  · simp [scanParametersType, hb]
  · simp [scanParametersType, hb, h]

theorem foldl_scan_name (count : UInt32) {name : List Char} (h : ';' ∉ name) :
    name.foldl scanParametersType (count, true) = (count, true) := by
  induction name with
  | nil => rfl
  | cons ch name ih =>
    obtain ⟨hch, hname⟩ := not_or.1 (List.mem_cons.not.1 h)
    rw [List.foldl_cons, scan_in_name count (Ne.symm hch), ih hname]

theorem foldl_scan_render (t : TypeDescriptor) (count : UInt32) :
    t.render.foldl scanParametersType (count, false) = (count + 1, false) := by
  induction t with
  | primitive p => exact scan_letter p count
  | array element ih => rw [render, List.foldl_cons, scan_bracket, ih]
  | object name closed =>
    have hopen : scanParametersType (count, false) 'L' = (count + 1, true) := rfl
    rw [render, List.foldl_cons, hopen, List.foldl_append, foldl_scan_name (count + 1) closed]
    rfl

theorem foldl_scan_types (ts : List TypeDescriptor) (count : UInt32) :
    (ts.flatMap render).foldl scanParametersType (count, false) =
      (count + UInt32.ofNat ts.length, false) := by
  induction ts generalizing count with
  | nil => simp
  | cons t ts ih =>
    rw [List.flatMap_cons, List.foldl_append, foldl_scan_render, ih, List.length_cons, UInt32.ofNat_add]
    congr 1
    grind

theorem getParametersNumber_parametersType (ts : List TypeDescriptor) :
    getParametersNumber (parametersType ts) = UInt32.ofNat ts.length := by
  rw [getParametersNumber, parametersType, String.toList_ofList, foldl_scan_types]
  simp

/-- **The scanner counts descriptors**, modulo 2^32: exactly, for fewer than 2^32 of them. -/
theorem parameters_counted (ts : List TypeDescriptor) :
    (getParametersNumber (parametersType ts)).toNat = ts.length % 2 ^ 32 ∧
    ((getParametersNumber (parametersType ts)).toNat = ts.length ↔ ts.length < 2 ^ 32) := by
  have hcount : (getParametersNumber (parametersType ts)).toNat = ts.length % 2 ^ 32 := by
    rw [getParametersNumber_parametersType, UInt32.toNat_ofNat']
  refine ⟨hcount, ?_⟩
  rw [hcount]
  omega

/-- As many parameters as make the count wrap to zero. -/
def wrapping : List TypeDescriptor := List.replicate (2 ^ 32) (.primitive .int)

theorem wrapping_count : (getParametersNumber (parametersType wrapping)).toNat ≠ wrapping.length := by
  have hlength : wrapping.length = 2 ^ 32 := List.length_replicate
  rw [getParametersNumber_parametersType, UInt32.toNat_ofNat', hlength]
  omega

end TypeDescriptor

end MetaProtocolProxy.Dubbo
