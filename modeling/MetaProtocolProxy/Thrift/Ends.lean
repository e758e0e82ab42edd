import Mathlib.Algebra.Order.Ring.Nat
import MetaProtocolProxy.Thrift.Stack
/-
# A run of the Thrift state machine ends (thrift_codec.cc:583-599)

Few handlers have to consume anything: entering a struct, leaving fields and containers, and a
boolean may be silent. `weight` still falls with every handler that goes on:

* a byte pays for whatever its reading may push, at most a frame with 2^32 - 1 elements;
* a frame pays for being popped, and each of its elements for a nested frame;
* the state pays for what is done next without reading.

So `weight + 1` handlers suffice for any buffer (`run_ends`). The shape of the stack is needed for
this: a frame that returns to `FieldValue` would make a silent boolean go round for ever.
-/
namespace MetaProtocolProxy.Thrift

variable {π α : Type}

/-- What a frame pays for: its pop, and the nested frames of its elements. -/
def Frame.weight (f : Frame) : Nat := 4 + 7 * f.remaining.toNat

/-- What is done after a state without reading. -/
def ProtocolState.weight : ProtocolState → Nat
  | .fieldValue | .mapKey => 6
  | .structEnd | .mapEnd | .listEnd | .setEnd => 3
  | .passthroughData => 2
  | .structBegin | .messageEnd => 1
  | _ => 0

def stackWeight (stack : List Frame) : Nat := (stack.map Frame.weight).sum

def byteWeight : Nat := 7 * 2 ^ 32 + 8

/-- The measure of a state over a stack with so many bytes to read. -/
def weight (s : ProtocolState) (stack : List Frame) (bytes : Nat) : Nat :=
  byteWeight * bytes + stackWeight stack + s.weight

@[simp] theorem stackWeight_nil : stackWeight [] = 0 := rfl

@[simp] theorem stackWeight_cons (f : Frame) (below : List Frame) :
    stackWeight (f :: below) = f.weight + stackWeight below := rfl

theorem Frame.weight_lt (f : Frame) : f.weight + 7 < byteWeight := by
  have := f.remaining.toNat_lt
  simp only [Frame.weight, byteWeight]
  omega

theorem Frame.weight_decrement {f : Frame} (h : f.remaining ≠ 0) : f.decrement.weight + 7 = f.weight := by
  have := Frame.toNat_decrement h
  simp only [Frame.weight]
  omega

theorem ProtocolState.weight_le (s : ProtocolState) : s.weight ≤ 6 := by cases s <;> decide

theorem Begins.weight_le {s : ProtocolState} (h : s.Begins) : s.weight ≤ 1 := by
  rcases h with rfl | rfl | rfl | rfl <;> decide

theorem Ends.weight {s : ProtocolState} (h : s.Ends) : s.weight = 3 := by
  rcases h with rfl | rfl | rfl | rfl <;> rfl

theorem ValueStep.weight_le {returnState s' : ProtocolState} {stack stack' : List Frame}
    (h : ValueStep returnState stack s' stack') :
    stackWeight stack' + s'.weight ≤ stackWeight stack + max returnState.weight 5 := by
  cases h with
  | complete => omega
  | nested hs =>
    have hplain : ({ returnState } : Frame).weight = 4 := rfl
    have := Begins.weight_le hs
    rw [stackWeight_cons, hplain]
    omega

theorem StackStep.weight_lt {s s' : ProtocolState} {stack stack' : List Frame}
    (h : StackStep s stack false s' stack')
    (hstack : WellStacked s stack) : stackWeight stack' + s'.weight < stackWeight stack + s.weight := by
  cases h with
  | passthroughData => simp only [ProtocolState.weight]; omega
  | messageEnd => simp only [ProtocolState.weight]; omega
  | structBegin => simp only [ProtocolState.weight]; omega
  | fieldValue hvalue =>
    cases hstack with
    | field hf helem hr =>
      have := hvalue.weight_le
      rw [hf] at this
      simp only [ProtocolState.weight] at this ⊢
      omega
  | fieldEnd => simp only [stackWeight_cons, Frame.weight, ProtocolState.weight]; omega
  | exhausted hs hf =>
    -- the end of the container, which is less than its frame
    rcases hs with rfl | rfl | rfl
    · cases hstack with
      | list hend hr =>
        rw [hend]
        simp only [stackWeight_cons, Frame.weight, ProtocolState.weight]
        omega
    · cases hstack with
      | set hend hr =>
        rw [hend]
        simp only [stackWeight_cons, Frame.weight, ProtocolState.weight]
        omega
    · cases hstack with
      | mapKey hend hr =>
        rw [hend]
        simp only [stackWeight_cons, Frame.weight, ProtocolState.weight]
        omega
  | element hs hf hvalue =>
    have hdown := Frame.weight_decrement hf
    have := hvalue.weight_le
    rw [stackWeight_cons] at this ⊢
    rcases hs with rfl | rfl <;> simp only [ProtocolState.weight] at this ⊢ <;> omega
  | mapKey hf hvalue =>
    have := hvalue.weight_le
    simp only [ProtocolState.weight] at this ⊢
    omega
  | mapValue hf hvalue =>
    have hdown := Frame.weight_decrement hf
    have := hvalue.weight_le
    rw [stackWeight_cons] at this ⊢
    simp only [ProtocolState.weight] at this ⊢
    omega
  | pop hs =>
    rename_i f
    have := f.returnState.weight_le
    rw [stackWeight_cons, Ends.weight hs, Frame.weight]
    omega

theorem StackStep.weight_lt_byte {s s' : ProtocolState} {stack stack' : List Frame}
    (h : StackStep s stack true s' stack') :
    stackWeight stack' + s'.weight < stackWeight stack + byteWeight := by
  cases h with
  | messageBegin hs =>
    have := ({ returnState := .messageEnd } : Frame).weight_lt
    rcases hs with rfl | rfl <;> simp only [stackWeight_cons, stackWeight_nil, ProtocolState.weight] <;> omega
  | stop => simp only [ProtocolState.weight, byteWeight]; omega
  | @field _ elemType helem =>
    have := ({ returnState := .fieldEnd, elemType } : Frame).weight_lt
    simp only [stackWeight_cons, ProtocolState.weight]
    omega
  | listBegin elemType remaining =>
    have := ({ returnState := .listEnd, elemType, remaining } : Frame).weight_lt
    simp only [stackWeight_cons, ProtocolState.weight]
    omega
  | setBegin elemType remaining =>
    have := ({ returnState := .setEnd, elemType, remaining } : Frame).weight_lt
    simp only [stackWeight_cons, ProtocolState.weight]
    omega
  | mapBegin elemType valueType remaining =>
    have := ({ returnState := .mapEnd, elemType, valueType, remaining } : Frame).weight_lt
    simp only [stackWeight_cons, ProtocolState.weight]
    omega

namespace DecoderStateMachine

variable {P : Protocol π} {m m' : DecoderStateMachine} {env env' : Env π} {s' : ProtocolState}

theorem handleState_weight (hP : P.Consumes) (hstack : WellStacked m.state m.stack)
    (h : handleState P m env = .next s' m' env') :
    weight s' m'.stack env'.buffer.length < weight m.state m.stack env.buffer.length := by
  obtain ⟨strict, hstep, -, hshrinks⟩ := handleState_next h
  have hbytes := hshrinks hP
  cases strict with
  | false =>
    have hfalls := hstep.weight_lt hstack
    have hle : byteWeight * env'.buffer.length ≤ byteWeight * env.buffer.length :=
      Nat.mul_le_mul_left _ hbytes
    simp only [weight]
    omega
  | true =>
    have hfalls := hstep.weight_lt_byte
    have hle : byteWeight * (env'.buffer.length + 1) ≤ byteWeight * env.buffer.length :=
      Nat.mul_le_mul_left _ hbytes
    rw [Nat.mul_add_one] at hle
    simp only [weight]
    omega

theorem run_of_weight (hP : P.Consumes) {n : Nat} (h : Reached P m)
    (hn : weight m.state m.stack env.buffer.length < n) : ∃ r, run P n m env = some r := by
  induction n generalizing m env with
  | zero => exact absurd hn (Nat.not_lt_zero _)
  | succ n ih =>
    by_cases hdone : m.state = .done
    · exact ⟨_, run_done P hdone env (n + 1)⟩
    · cases hstate : handleState P m env with
      | waitForData => exact ⟨_, run_wait hdone hstate n⟩
      | throws e => exact ⟨_, run_throws hdone hstate n⟩
      | next s₁ m₁ env₁ =>
        have hfalls := handleState_weight hP h.wellStacked.1 hstate
        rw [run_next hdone hstate]
        refine ih (.next h hstate) ?_
        simp only
        omega

/-- **A run ends**, from every reachable machine and on every buffer, whatever sizes the containers
claim. -/
theorem run_ends (hP : P.Consumes) (m : DecoderStateMachine) (h : Reached P m) (env : Env π) :
    ∃ r, run P (weight m.state m.stack env.buffer.length + 1) m env = some r :=
  run_of_weight hP h (Nat.lt_succ_self _)

end DecoderStateMachine

/-! ### The strict binary protocol consumes -/

theorem shrinks_scan (r : Reading.Reader UInt8 (Except Failure α)) : Read.Shrinks false (scan r) := by
  intro p b v p' rest h
  unfold scan at h
  split at h
  · cases h
  · cases h
    simp
  · cases h

theorem shrinks_take (k : Nat) (f : Bytes → Reading.Reader UInt8 (Except Failure α)) :
    Read.Shrinks true (scan ((Reading.Reader.take (k + 1)).bind f)) := by
  intro p b v p' rest h
  unfold scan at h
  split at h
  · cases h
  next n hread =>
    cases h
    unfold Reading.Reader.bind Reading.Reader.take at hread
    split at hread
    · cases hread
    next w j htake =>
      split at htake
      · cases htake
      next hlong =>
        cases htake
        obtain ⟨x, -, hx⟩ := Option.map_eq_some_iff.1 hread
        have hn : k + 1 + x.2 = n := congrArg Prod.snd hx
        rw [if_pos rfl, List.length_drop]
        omega
  · cases h

theorem binary_consumes : binary.Consumes where
  messageBegin := fun _ => shrinks_take 11 _
  fieldBegin := shrinks_take 0 _
  mapBegin := shrinks_take 0 _
  listBegin := shrinks_take 0 _
  setBegin := shrinks_take 0 _
  messageEnd := shrinks_scan (Binary.nothing ())
  structBegin := shrinks_scan (Binary.nothing [])
  structEnd := shrinks_scan (Binary.nothing ())
  fieldEnd := shrinks_scan (Binary.nothing ())
  mapEnd := shrinks_scan (Binary.nothing ())
  listEnd := shrinks_scan (Binary.nothing ())
  setEnd := shrinks_scan (Binary.nothing ())
  bool := shrinks_scan (Binary.number 1 fun n => n != 0)
  byte := shrinks_scan (Binary.number 1 UInt8.ofNat)
  int16 := shrinks_scan (Binary.number 2 fun n => (UInt16.ofNat n).toInt16)
  int32 := shrinks_scan (Binary.number 4 fun n => (UInt32.ofNat n).toInt32)
  int64 := shrinks_scan (Binary.number 8 fun n => (UInt64.ofNat n).toInt64)
  double := shrinks_scan (Binary.number 8 UInt64.ofNat)
  string := shrinks_scan Binary.string

theorem run_ends_binary :
    ∃ n r, DecoderStateMachine.run binary n {}
      ⟨(), {}, [0x80, 1, 0, 1, 0, 0, 0, 0, 0, 0, 0, 7, 15, 0, 1, 2, 0x7f, 0xff, 0xff, 0xff]⟩ = some r :=
  ⟨_, DecoderStateMachine.run_ends binary_consumes {} .start _⟩

end MetaProtocolProxy.Thrift
