import MetaProtocolProxy.Thrift.Binary
import MetaProtocolProxy.Thrift.Machine
/-
# The stack of the Thrift state machine (thrift_codec.cc:233-599)

What a handler does to the state and the stack depends on neither the protocol nor the buffer,
except for which of several things it does: `StackStep` lists them, and `handleState_next` says that
there are no others.

A struct or container that is being read has a frame of its own, which says where to go on behind it
(`Nested`). A field has a second frame on top of that, and so have the elements of a container.
`Returns s stack` says that a value may be completed in the state `s` over this stack, and every
state of a reachable machine has its stack in shape (`WellStacked`). So no assertion of a handler
fails, and `remaining_` is counted down only where it is not zero (`stack_invariant`).
-/
namespace MetaProtocolProxy.Thrift

variable {π α : Type}

/-! ## What a handler does to the stack -/

def ProtocolState.Begins (s : ProtocolState) : Prop :=
  s = .structBegin ∨ s = .mapBegin ∨ s = .listBegin ∨ s = .setBegin

def ProtocolState.Ends (s : ProtocolState) : Prop := s = .structEnd ∨ s = .mapEnd ∨ s = .listEnd ∨ s = .setEnd

/-- `handleValue`: a value without parts is complete, any other one begins over a frame of its
own. -/
inductive ValueStep (returnState : ProtocolState) (stack : List Frame) : ProtocolState → List Frame → Prop
  | complete : ValueStep returnState stack returnState stack
  | nested {s : ProtocolState} (hs : s.Begins) : ValueStep returnState stack s ({ returnState } :: stack)

/-- Everything a handler does to the state and the stack. The flag says that it reads a part that
cannot be empty. -/
inductive StackStep : ProtocolState → List Frame → Bool → ProtocolState → List Frame → Prop
  | messageBegin {stack : List Frame} {s : ProtocolState} (hs : s = .structBegin ∨ s = .passthroughData) :
    StackStep .messageBegin stack true s [{ returnState := .messageEnd }]
  | passthroughData {stack : List Frame} : StackStep .passthroughData stack false .messageEnd stack
  | messageEnd {stack : List Frame} : StackStep .messageEnd stack false .done stack
  | structBegin {stack : List Frame} : StackStep .structBegin stack false .fieldBegin stack
  | stop {stack : List Frame} : StackStep .fieldBegin stack true .structEnd stack
  | field {stack : List Frame} {elemType : FieldType} (helem : elemType ≠ .stop) :
    StackStep .fieldBegin stack true .fieldValue ({ returnState := .fieldEnd, elemType } :: stack)
  | fieldValue {f : Frame} {below stack' : List Frame} {s' : ProtocolState}
    (h : ValueStep f.returnState (f :: below) s' stack') : StackStep .fieldValue (f :: below) false s' stack'
  | fieldEnd {f : Frame} {below : List Frame} : StackStep .fieldEnd (f :: below) false .fieldBegin below
  | listBegin {stack : List Frame} (elemType : FieldType) (remaining : UInt32) :
    StackStep .listBegin stack true .listValue ({ returnState := .listEnd, elemType, remaining } :: stack)
  | setBegin {stack : List Frame} (elemType : FieldType) (remaining : UInt32) :
    StackStep .setBegin stack true .setValue ({ returnState := .setEnd, elemType, remaining } :: stack)
  | mapBegin {stack : List Frame} (elemType valueType : FieldType) (remaining : UInt32) :
    StackStep .mapBegin stack true .mapKey
      ({ returnState := .mapEnd, elemType, valueType, remaining } :: stack)
  | exhausted {s : ProtocolState} {f : Frame} {below : List Frame} (hs :
      s = .listValue ∨ s = .setValue ∨ s = .mapKey)
    (hf : f.remaining = 0) : StackStep s (f :: below) false f.returnState below
  | element {s : ProtocolState} {f : Frame} {below stack' : List Frame} {s' : ProtocolState}
    (hs : s = .listValue ∨ s = .setValue) (hf : f.remaining ≠ 0) (h :
      ValueStep s (f.decrement :: below) s' stack') :
    StackStep s (f :: below) false s' stack'
  | mapKey {f : Frame} {below stack' : List Frame} {s' : ProtocolState} (hf : f.remaining ≠ 0)
    (h : ValueStep .mapValue (f :: below) s' stack') : StackStep .mapKey (f :: below) false s' stack'
  | mapValue {f : Frame} {below stack' : List Frame} {s' : ProtocolState} (hf : f.remaining ≠ 0)
    (h : ValueStep .mapKey (f.decrement :: below) s' stack') :
      StackStep .mapValue (f :: below) false s' stack'
  | pop {s : ProtocolState} {f : Frame} {below : List Frame} (hs : s.Ends) :
    StackStep s (f :: below) false f.returnState below

/-- What a read leaves of the buffer: strictly less if the part cannot be empty, and never more. -/
def Read.Shrinks (strict : Bool) (read : π → Bytes → Read π α) : Prop :=
  ∀ p b v p' rest, read p b = .ok v p' rest →
    if strict then rest.length < b.length else rest.length ≤ b.length

/-- The beginnings of messages, fields and containers consume at least a byte, and no read gives any
back. -/
structure Protocol.Consumes (P : Protocol π) : Prop where
  messageBegin : ∀ md, Read.Shrinks true (P.readMessageBegin md)
  fieldBegin : Read.Shrinks true P.fieldBegin.read
  mapBegin : Read.Shrinks true P.mapBegin.read
  listBegin : Read.Shrinks true P.listBegin.read
  setBegin : Read.Shrinks true P.setBegin.read
  messageEnd : Read.Shrinks false P.messageEnd.read
  structBegin : Read.Shrinks false P.structBegin.read
  structEnd : Read.Shrinks false P.structEnd.read
  fieldEnd : Read.Shrinks false P.fieldEnd.read
  mapEnd : Read.Shrinks false P.mapEnd.read
  listEnd : Read.Shrinks false P.listEnd.read
  setEnd : Read.Shrinks false P.setEnd.read
  bool : Read.Shrinks false P.bool.read
  byte : Read.Shrinks false P.byte.read
  int16 : Read.Shrinks false P.int16.read
  int32 : Read.Shrinks false P.int32.read
  int64 : Read.Shrinks false P.int64.read
  double : Read.Shrinks false P.double.read
  string : Read.Shrinks false P.string.read

/-- A handler's answer: a step of the stack that keeps `passthroughEnabled`, and what is left of the
buffer if the protocol's reads consume. -/
structure Answered (P : Protocol π) (m : DecoderStateMachine) (env : Env π) (s' : ProtocolState)
    (m' : DecoderStateMachine) (env' : Env π) (strict : Bool) : Prop where
  step : StackStep m.state m.stack strict s' m'.stack
  passthrough : m'.passthroughEnabled = m.passthroughEnabled
  shrinks : P.Consumes →
    if strict then env'.buffer.length < env.buffer.length else env'.buffer.length ≤ env.buffer.length

namespace DecoderStateMachine

variable {P : Protocol π} {m m' : DecoderStateMachine} {env env' : Env π} {s s' : ProtocolState}

theorem handle_next {r : Read π α} {f : α → π → Bytes → Handled π} (h : r.handle f = .next s' m' env') :
    ∃ v p rest, r = .ok v p rest ∧ f v p rest = .next s' m' env' := by
  cases r with
  | more => cases h
  | throws e => cases h
  | ok v p rest => exact ⟨v, p, rest, rfl, h⟩

theorem copy_next {w : Wire π α} {f : α → DecoderStateMachine → Env π → Handled π}
    (h : copy m env w f = .next s' m' env') :
    ∃ v p rest, w.read env.proto env.buffer = .ok v p rest ∧
      f v (m.emit (w.write p v)) { env with proto := (w.write p v).2, buffer := rest } =
        .next s' m' env' := by
  obtain ⟨v, p, rest, hread, hf⟩ := handle_next h
  exact ⟨v, p, rest, hread, hf⟩

theorem popReturnState_next (h : popReturnState m env = .next s' m' env') :
    ∃ f below, m.stack = f :: below ∧ s' = f.returnState ∧ m' = { m with stack := below } ∧ env' = env := by
  unfold popReturnState at h
  split at h
  · cases h
  · cases h
    exact ⟨_, _, by assumption, rfl, rfl, rfl⟩

/-- What `handleValue` does, over the stack of `m`. -/
structure ValueAnswered (P : Protocol π) (m : DecoderStateMachine) (env : Env π)
    (returnState : ProtocolState) (stack : List Frame)
    (s' : ProtocolState) (m' : DecoderStateMachine) (env' : Env π) : Prop where
  step : ValueStep returnState stack s' m'.stack
  passthrough : m'.passthroughEnabled = m.passthroughEnabled
  shrinks : P.Consumes → env'.buffer.length ≤ env.buffer.length

theorem primitive_next {w : Wire π α} {returnState : ProtocolState}
    (hw : P.Consumes → Read.Shrinks false w.read)
    (h : primitive m env w returnState = .next s' m' env') :
    ValueAnswered P m env returnState m.stack s' m' env' := by
  obtain ⟨v, p, rest, hread, hnext⟩ := copy_next h
  cases hnext
  exact ⟨.complete, rfl, fun hP => hw hP _ _ _ _ _ hread⟩

theorem handleValue_next {elemType : FieldType} {returnState : ProtocolState}
    (h : handleValue P m env elemType returnState = .next s' m' env') :
    ValueAnswered P m env returnState m.stack s' m' env' := by
  have hnested : ∀ s : ProtocolState, s.Begins →
      (.next s (m.push { returnState }) env : Handled π) = .next s' m' env' →
      ValueAnswered P m env returnState m.stack s' m' env' := by
    intro s hs hnext
    cases hnext
    exact ⟨.nested hs, rfl, fun _ => Nat.le_refl _⟩
  cases elemType with
  | bool => exact primitive_next (fun hP => hP.bool) h
  | byte => exact primitive_next (fun hP => hP.byte) h
  | i16 => exact primitive_next (fun hP => hP.int16) h
  | i32 => exact primitive_next (fun hP => hP.int32) h
  | i64 => exact primitive_next (fun hP => hP.int64) h
  | double => exact primitive_next (fun hP => hP.double) h
  | string => exact primitive_next (fun hP => hP.string) h
  | struct => exact hnested .structBegin (by simp [ProtocolState.Begins]) h
  | map => exact hnested .mapBegin (by simp [ProtocolState.Begins]) h
  | list => exact hnested .listBegin (by simp [ProtocolState.Begins]) h
  | set => exact hnested .setBegin (by simp [ProtocolState.Begins]) h
  | stop => cases h
  | void => cases h
  | other n => cases h

/-- Counting down reaches the container's own frame, also below the frame that the value has
pushed. -/
theorem valueStep_decrement {f : Frame} {below : List Frame} {returnState : ProtocolState}
    (h : ValueStep returnState (f :: below) s' m.stack) :
    ValueStep returnState (f.decrement :: below) s' (m.decrement below.length).stack := by
  generalize hstack : m.stack = stack at h
  cases h with
  | complete =>
    have hdecrement : (m.decrement below.length).stack = f.decrement :: below := by simp [decrement, hstack]
    rw [hdecrement]
    exact .complete
  | nested hs =>
    have hdecrement :
      (m.decrement below.length).stack = { returnState } :: f.decrement :: below := by
        simp [decrement, hstack]
    rw [hdecrement]
    exact .nested hs

theorem element_next {f : Frame} {below : List Frame} {elemType : FieldType} {returnState : ProtocolState}
    (hstack : m.stack = f :: below) (h : element P m env elemType returnState = .next s' m' env') :
    ValueAnswered P m env returnState (f.decrement :: below) s' m' env' := by
  unfold element at h
  cases hvalue : handleValue P m env elemType returnState with
  | waitForData => simp [hvalue] at h
  | throws e => simp [hvalue] at h
  | next s₁ m₁ env₁ =>
    simp only [hvalue, hstack, List.length_cons, Nat.add_sub_cancel] at h
    cases h
    have hanswered := handleValue_next hvalue
    rw [hstack] at hanswered
    exact ⟨valueStep_decrement hanswered.step, hanswered.passthrough, hanswered.shrinks⟩

theorem containerEnd_next {w : Wire π Unit} (hs : m.state.Ends) (hw : P.Consumes → Read.Shrinks false w.read)
    (h : containerEnd m env w = .next s' m' env') : Answered P m env s' m' env' false := by
  obtain ⟨v, p, rest, hread, hpop⟩ := copy_next h
  obtain ⟨f, below, hstack, rfl, rfl, rfl⟩ := popReturnState_next hpop
  have hstack' : m.stack = f :: below := hstack
  refine ⟨?_, rfl, fun hP => hw hP _ _ _ _ _ hread⟩
  rw [hstack']
  exact .pop hs

theorem exhausted_next {f : Frame} {below : List Frame}
    (hs : m.state = .listValue ∨ m.state = .setValue ∨ m.state = .mapKey)
    (hstack : m.stack = f :: below) (hzero : f.remaining = 0) (h : popReturnState m env = .next s' m' env') :
    Answered P m env s' m' env' false := by
  obtain ⟨f', below', hstack', rfl, rfl, rfl⟩ := popReturnState_next h
  obtain ⟨rfl, rfl⟩ := List.cons.inj (hstack.symm.trans hstack')
  refine ⟨?_, rfl, fun _ => Nat.le_refl _⟩
  rw [hstack]
  exact .exhausted hs hzero

theorem sequenceValue_next (hs : m.state = .listValue ∨ m.state = .setValue)
    (h : sequenceValue P m env m.state = .next s' m' env') : Answered P m env s' m' env' false := by
  unfold sequenceValue at h
  split at h
  · cases h
  next f below hstack =>
    split at h
    next hzero => exact exhausted_next (hs.imp_right .inl) hstack hzero h
    next hleft =>
      obtain ⟨hstep, hpass, hshrinks⟩ := element_next hstack h
      refine ⟨?_, hpass, hshrinks⟩
      rw [hstack]
      exact .element hs hleft hstep

theorem passthroughData_next (hstate : m.state = .passthroughData)
    (h : passthroughData m env = .next s' m' env') :
    ∃ strict, Answered P m env s' m' env' strict := by
  simp only [passthroughData] at h
  split at h
  · cases h
  · cases h
    refine ⟨false, hstate ▸ .passthroughData, rfl, fun _ => ?_⟩
    simp

theorem messageBegin_next (hstate : m.state = .messageBegin) (h : messageBegin P m env = .next s' m' env') :
    ∃ strict, Answered P m env s' m' env' strict := by
  simp only [messageBegin] at h
  obtain ⟨md, p, rest, hread, hnext⟩ := handle_next h
  have hshrinks : P.Consumes → rest.length < env.buffer.length := fun hP => hP.messageBegin _ _ _ _ _ _ hread
  split at hnext
  · split at hnext
    · cases hnext
    · cases hnext
      exact ⟨true, hstate ▸ .messageBegin (.inr rfl), rfl, hshrinks⟩
  · cases hnext
    exact ⟨true, hstate ▸ .messageBegin (.inl rfl), rfl, hshrinks⟩

theorem structEnd_next (hstate : m.state = .structEnd) (h : structEnd P m env = .next s' m' env') :
    ∃ strict, Answered P m env s' m' env' strict := by
  simp only [structEnd] at h
  obtain ⟨v, p, rest, hread, hpop⟩ := handle_next h
  obtain ⟨f, below, hstack, rfl, rfl, rfl⟩ := popReturnState_next hpop
  have hstack' : m.stack = f :: below := hstack
  refine ⟨false, ?_, rfl, fun hP => hP.structEnd _ _ _ _ _ hread⟩
  rw [hstate, hstack']
  exact .pop (.inl rfl)

theorem fieldBegin_next (hstate : m.state = .fieldBegin) (h : fieldBegin P m env = .next s' m' env') :
    ∃ strict, Answered P m env s' m' env' strict := by
  simp only [fieldBegin] at h
  obtain ⟨field, p, rest, hread, hnext⟩ := handle_next h
  have hshrinks : P.Consumes → rest.length < env.buffer.length := fun hP => hP.fieldBegin _ _ _ _ _ hread
  split at hnext
  · cases hnext
    exact ⟨true, hstate ▸ .stop, rfl, hshrinks⟩
  next hfield =>
    cases hnext
    exact ⟨true, hstate ▸ .field hfield, rfl, hshrinks⟩

theorem fieldValue_next (hstate : m.state = .fieldValue) (h : fieldValue P m env = .next s' m' env') :
    ∃ strict, Answered P m env s' m' env' strict := by
  simp only [fieldValue] at h
  split at h
  · cases h
  next f below hstack =>
    obtain ⟨hstep, hpass, hshrinks⟩ := handleValue_next h
    refine ⟨false, ?_, hpass, hshrinks⟩
    rw [hstack] at hstep
    rw [hstate, hstack]
    exact .fieldValue hstep

theorem fieldEnd_next (hstate : m.state = .fieldEnd) (h : fieldEnd P m env = .next s' m' env') :
    ∃ strict, Answered P m env s' m' env' strict := by
  simp only [fieldEnd] at h
  obtain ⟨v, p, rest, hread, hnext⟩ := handle_next h
  split at hnext
  · cases hnext
  next f below hstack =>
    cases hnext
    refine ⟨false, ?_, rfl, fun hP => hP.fieldEnd _ _ _ _ _ hread⟩
    rw [hstate, hstack]
    exact .fieldEnd

theorem mapKey_next (hstate : m.state = .mapKey) (h : mapKey P m env = .next s' m' env') :
    ∃ strict, Answered P m env s' m' env' strict := by
  simp only [mapKey] at h
  split at h
  · cases h
  next f below hstack =>
    split at h
    next hzero => exact ⟨false, exhausted_next (.inr (.inr hstate)) hstack hzero h⟩
    next hleft =>
      obtain ⟨hstep, hpass, hshrinks⟩ := handleValue_next h
      refine ⟨false, ?_, hpass, hshrinks⟩
      rw [hstack] at hstep
      rw [hstate, hstack]
      exact .mapKey hleft hstep

theorem mapValue_next (hstate : m.state = .mapValue) (h : mapValue P m env = .next s' m' env') :
    ∃ strict, Answered P m env s' m' env' strict := by
  simp only [mapValue] at h
  split at h
  · cases h
  next f below hstack =>
    split at h
    · cases h
    next hleft =>
      obtain ⟨hstep, hpass, hshrinks⟩ := element_next hstack h
      refine ⟨false, ?_, hpass, hshrinks⟩
      rw [hstate, hstack]
      exact .mapValue hleft hstep

theorem copied_next {w : Wire π α} {s : ProtocolState} (hs : StackStep m.state m.stack false s m.stack)
    (hw : P.Consumes → Read.Shrinks false w.read) (h : copy m env w (fun _ => .next s) = .next s' m' env') :
    Answered P m env s' m' env' false := by
  obtain ⟨v, p, rest, hread, hnext⟩ := copy_next h
  cases hnext
  exact ⟨hs, rfl, fun hP => hw hP _ _ _ _ _ hread⟩

theorem pushed_next {w : Wire π α} {s : ProtocolState} {frame : α → Frame}
    (hs : ∀ v, StackStep m.state m.stack true s (frame v :: m.stack))
    (hw : P.Consumes → Read.Shrinks true w.read)
    (h : copy m env w (fun v m => .next s (m.push (frame v))) = .next s' m' env') :
    Answered P m env s' m' env' true := by
  obtain ⟨v, p, rest, hread, hnext⟩ := copy_next h
  cases hnext
  exact ⟨hs v, rfl, fun hP => hw hP _ _ _ _ _ hread⟩

/-- **Everything a handler that goes on can have done.** -/
theorem handleState_next (h : handleState P m env = .next s' m' env') :
    ∃ strict, Answered P m env s' m' env' strict := by
  revert h
  unfold handleState
  cases hstate : m.state with
  | passthroughData => exact passthroughData_next hstate
  | messageBegin => exact messageBegin_next hstate
  | messageEnd => exact fun h => ⟨false, copied_next (hstate ▸ .messageEnd) (fun hP => hP.messageEnd) h⟩
  | structBegin => exact fun h => ⟨false, copied_next (hstate ▸ .structBegin) (fun hP => hP.structBegin) h⟩
  | structEnd => exact structEnd_next hstate
  | fieldBegin => exact fieldBegin_next hstate
  | fieldValue => exact fieldValue_next hstate
  | fieldEnd => exact fieldEnd_next hstate
  | mapBegin =>
    exact fun h => ⟨true, pushed_next (fun v => hstate ▸ .mapBegin v.1 v.2.1 v.2.2) (fun hP => hP.mapBegin) h⟩
  | mapKey => exact mapKey_next hstate
  | mapValue => exact mapValue_next hstate
  | mapEnd =>
    exact fun h => ⟨false, containerEnd_next (by simp [hstate, ProtocolState.Ends]) (fun hP => hP.mapEnd) h⟩
  | listBegin =>
    exact fun h => ⟨true, pushed_next (fun v => hstate ▸ .listBegin v.1 v.2) (fun hP => hP.listBegin) h⟩
  | listValue => exact fun h => ⟨false, sequenceValue_next (.inl hstate) (hstate ▸ h)⟩
  | listEnd =>
    exact fun h => ⟨false, containerEnd_next (by simp [hstate, ProtocolState.Ends]) (fun hP => hP.listEnd) h⟩
  | setBegin =>
    exact fun h => ⟨true, pushed_next (fun v => hstate ▸ .setBegin v.1 v.2) (fun hP => hP.setBegin) h⟩
  | setValue => exact fun h => ⟨false, sequenceValue_next (.inr hstate) (hstate ▸ h)⟩
  | setEnd =>
    exact fun h => ⟨false, containerEnd_next (by simp [hstate, ProtocolState.Ends]) (fun hP => hP.setEnd) h⟩
  | done => nofun

end DecoderStateMachine

/-! ## The shape of the stack -/

/-- A value may be completed in the state over the stack: the frame on top is the one the state
expects, and below it is the frame of the struct or container itself, a plain one, which is
completed in its turn. A field's frame is told from a plain one by its type. -/
inductive Returns : ProtocolState → List Frame → Prop
  | message : Returns .messageEnd []
  | field {f : Frame} {r : ProtocolState} {below : List Frame} (hf :
      f.returnState = .fieldEnd) (helem : f.elemType ≠ .stop)
    (hr : Returns r below) : Returns .fieldEnd (f :: { returnState := r } :: below)
  | list {f : Frame} {r : ProtocolState} {below : List Frame} (hf : f.returnState = .listEnd) (hr :
      Returns r below) :
    Returns .listValue (f :: { returnState := r } :: below)
  | set {f : Frame} {r : ProtocolState} {below : List Frame} (hf : f.returnState = .setEnd) (hr :
      Returns r below) :
    Returns .setValue (f :: { returnState := r } :: below)
  | mapKey {f : Frame} {r : ProtocolState} {below : List Frame} (hf : f.returnState = .mapEnd) (hr :
      Returns r below) :
    Returns .mapKey (f :: { returnState := r } :: below)
  | mapValue {f : Frame} {r : ProtocolState} {below : List Frame} (hf :
      f.returnState = .mapEnd) (hleft : f.remaining ≠ 0)
    (hr : Returns r below) : Returns .mapValue (f :: { returnState := r } :: below)

inductive Nested : List Frame → Prop
  | intro {r : ProtocolState} {below : List Frame} (hr : Returns r below) :
  Nested ({ returnState := r } :: below)

def WellStacked : ProtocolState → List Frame → Prop
  | .passthroughData, _ | .messageBegin, _ | .messageEnd, _ | .done, _ => True
  | .fieldValue, stack | .fieldEnd, stack => Returns .fieldEnd stack
  | .listValue, stack => Returns .listValue stack
  | .setValue, stack => Returns .setValue stack
  | .mapKey, stack => Returns .mapKey stack
  | .mapValue, stack => Returns .mapValue stack
  | _, stack => Nested stack

theorem Nested.ne_nil {stack : List Frame} (h : Nested stack) : stack ≠ [] := by
  cases h
  exact List.cons_ne_nil _ _

theorem Returns.ne_nil {s : ProtocolState} {stack : List Frame} (hs : s ≠ .messageEnd)
    (h : Returns s stack) : stack ≠ [] := by
  cases h with
  | message => exact absurd rfl hs
  | _ => exact List.cons_ne_nil _ _

theorem Returns.wellStacked {s : ProtocolState} {stack : List Frame} (h : Returns s stack) :
    WellStacked s stack := by
  cases h with
  | message => trivial
  | field hf helem hg => exact .field hf helem hg
  | list hf hg => exact .list hf hg
  | set hf hg => exact .set hf hg
  | mapKey hf hg => exact .mapKey hf hg
  | mapValue hf hleft hg => exact .mapValue hf hleft hg

theorem Nested.wellStacked {s : ProtocolState} {stack : List Frame} (h : Nested stack)
    (hs : s.Begins ∨ s.Ends ∨ s = .fieldBegin) : WellStacked s stack := by
  rcases hs with (rfl | rfl | rfl | rfl) | (rfl | rfl | rfl | rfl) | rfl <;> exact h

theorem nested_of_ends {s : ProtocolState} {stack : List Frame} (hs : s.Ends)
    (h : WellStacked s stack) : Nested stack := by
  rcases hs with rfl | rfl | rfl | rfl <;> exact h

theorem ValueStep.wellStacked {returnState s' : ProtocolState} {stack stack' : List Frame}
    (hstep : ValueStep returnState stack s' stack')
    (h : Returns returnState stack) : WellStacked s' stack' := by
  cases hstep with
  | complete => exact h.wellStacked
  | nested hs => exact Nested.wellStacked (.intro h) (.inl hs)

theorem StackStep.wellStacked {s s' : ProtocolState} {stack stack' : List Frame} {strict : Bool}
    (hstep : StackStep s stack strict s' stack') (h : WellStacked s stack) : WellStacked s' stack' := by
  cases hstep with
  | messageBegin hs =>
    rcases hs with rfl | rfl
    · exact Nested.intro .message
    · trivial
  | passthroughData => trivial
  | messageEnd => trivial
  | structBegin => exact h
  | stop => exact h
  | field helem =>
    obtain ⟨hg⟩ := h
    exact .field rfl helem hg
  | fieldValue hvalue =>
    cases h with
    | field hf helem hg =>
      refine hvalue.wellStacked ?_
      rw [hf]
      exact .field hf helem hg
  | fieldEnd =>
    cases h with
    | field hf helem hg => exact Nested.intro hg
  | listBegin elemType remaining =>
    obtain ⟨hg⟩ := h
    exact .list rfl hg
  | setBegin elemType remaining =>
    obtain ⟨hg⟩ := h
    exact .set rfl hg
  | mapBegin elemType valueType remaining =>
    obtain ⟨hg⟩ := h
    exact .mapKey rfl hg
  | exhausted hs hf =>
    -- the container's own frame is popped into the end of the container
    rcases hs with rfl | rfl | rfl
    · cases h with
      | list hend hg => rw [hend]; exact Nested.intro hg
    · cases h with
      | set hend hg => rw [hend]; exact Nested.intro hg
    · cases h with
      | mapKey hend hg => rw [hend]; exact Nested.intro hg
  | element hs hf hvalue =>
    rcases hs with rfl | rfl
    · cases h with
      | list hend hg => exact hvalue.wellStacked (.list hend hg)
    · cases h with
      | set hend hg => exact hvalue.wellStacked (.set hend hg)
  | mapKey hf hvalue =>
    cases h with
    | mapKey hend hg => exact hvalue.wellStacked (.mapValue hend hf hg)
  | mapValue hf hvalue =>
    cases h with
    | mapValue hend _ hg => exact hvalue.wellStacked (.mapKey hend hg)
  | pop hs =>
    obtain ⟨hg⟩ := nested_of_ends hs h
    exact hg.wellStacked

/-- A machine that some sequence of buffers leads to: each handler may find another buffer, and what
else the owner of the machine has changed. -/
inductive Reached (P : Protocol π) : DecoderStateMachine → Prop
  | start : Reached P {}
  | next {m m' : DecoderStateMachine} {env env' : Env π} {s : ProtocolState} (h : Reached P m)
    (hnext : m.handleState P env = .next s m' env') : Reached P { m' with state := s }

theorem Reached.wellStacked {P : Protocol π} {m : DecoderStateMachine} (h : Reached P m) :
    WellStacked m.state m.stack ∧ m.passthroughEnabled = false := by
  induction h with
  | start => exact ⟨trivial, rfl⟩
  | next _ hnext ih =>
    obtain ⟨strict, hanswered⟩ := DecoderStateMachine.handleState_next hnext
    exact ⟨hanswered.step.wellStacked ih.1, hanswered.passthrough.trans ih.2⟩

/-! ## What a handler throws -/

/-- The exception of `handleValue` for a type no value has. -/
def unknownFieldType (type : FieldType) : Failure := .envoyException s!"unknown field type {type.toInt}"

/-- What a read throws satisfies `Q`. -/
def Read.ThrowsOnly (Q : Failure → Prop) (read : π → Bytes → Read π α) : Prop :=
  ∀ p b e, read p b = .throws e → Q e

structure Protocol.ThrowsOnly (P : Protocol π) (Q : Failure → Prop) : Prop where
  messageBegin : ∀ md, Read.ThrowsOnly Q (P.readMessageBegin md)
  messageEnd : Read.ThrowsOnly Q P.messageEnd.read
  structBegin : Read.ThrowsOnly Q P.structBegin.read
  structEnd : Read.ThrowsOnly Q P.structEnd.read
  fieldBegin : Read.ThrowsOnly Q P.fieldBegin.read
  fieldEnd : Read.ThrowsOnly Q P.fieldEnd.read
  mapBegin : Read.ThrowsOnly Q P.mapBegin.read
  mapEnd : Read.ThrowsOnly Q P.mapEnd.read
  listBegin : Read.ThrowsOnly Q P.listBegin.read
  listEnd : Read.ThrowsOnly Q P.listEnd.read
  setBegin : Read.ThrowsOnly Q P.setBegin.read
  setEnd : Read.ThrowsOnly Q P.setEnd.read
  bool : Read.ThrowsOnly Q P.bool.read
  byte : Read.ThrowsOnly Q P.byte.read
  int16 : Read.ThrowsOnly Q P.int16.read
  int32 : Read.ThrowsOnly Q P.int32.read
  int64 : Read.ThrowsOnly Q P.int64.read
  double : Read.ThrowsOnly Q P.double.read
  string : Read.ThrowsOnly Q P.string.read

namespace DecoderStateMachine

variable {P : Protocol π} {m : DecoderStateMachine} {env : Env π} {Q : Failure → Prop} {e : Failure}

theorem handle_throws {read : π → Bytes → Read π α} {p : π} {b : Bytes} {f : α → π → Bytes → Handled π}
    (hread : Read.ThrowsOnly Q read) (h : (read p b).handle f = .throws e) :
    Q e ∨ ∃ v p' rest, f v p' rest = .throws e := by
  cases hr : read p b with
  | more => rw [hr] at h; cases h
  | throws e' =>
    rw [hr] at h
    cases h
    exact .inl (hread p b e hr)
  | ok v p' rest =>
    rw [hr] at h
    exact .inr ⟨v, p', rest, h⟩

theorem copy_throws {w : Wire π α} {s : ProtocolState} {g : α → DecoderStateMachine → DecoderStateMachine}
    (hread : Read.ThrowsOnly Q w.read) (h : copy m env w (fun v m => .next s (g v m)) = .throws e) : Q e := by
  obtain hq | ⟨v, p', rest, hf⟩ := handle_throws hread h
  · exact hq
  · cases hf

theorem primitive_throws {w : Wire π α} {returnState : ProtocolState} (hread : Read.ThrowsOnly Q w.read)
    (h : primitive m env w returnState = .throws e) : Q e :=
  copy_throws hread h

theorem sequenceBegin_throws {w : Wire π (FieldType × UInt32)} {endState valueState : ProtocolState}
    (hread : Read.ThrowsOnly Q w.read) (h : sequenceBegin m env w endState valueState = .throws e) : Q e :=
  copy_throws hread h

theorem handleValue_throws (hP : P.ThrowsOnly Q) {elemType : FieldType} {returnState : ProtocolState}
    (h : handleValue P m env elemType returnState = .throws e) : Q e ∨ ∃ type, e = unknownFieldType type := by
  cases elemType with
  | bool => exact .inl (primitive_throws hP.bool h)
  | byte => exact .inl (primitive_throws hP.byte h)
  | i16 => exact .inl (primitive_throws hP.int16 h)
  | i32 => exact .inl (primitive_throws hP.int32 h)
  | i64 => exact .inl (primitive_throws hP.int64 h)
  | double => exact .inl (primitive_throws hP.double h)
  | string => exact .inl (primitive_throws hP.string h)
  | struct => cases h
  | map => cases h
  | list => cases h
  | set => cases h
  | stop => cases h; exact .inr ⟨.stop, rfl⟩
  | void => cases h; exact .inr ⟨.void, rfl⟩
  | other n => cases h; exact .inr ⟨.other n, rfl⟩

theorem element_throws (hP : P.ThrowsOnly Q) {elemType : FieldType} {returnState : ProtocolState}
    (h : element P m env elemType returnState = .throws e) : Q e ∨ ∃ type, e = unknownFieldType type := by
  unfold element at h
  cases hvalue : handleValue P m env elemType returnState with
  | waitForData => simp [hvalue] at h
  | next s₁ m₁ env₁ => simp [hvalue] at h
  | throws e' =>
    simp only [hvalue] at h
    cases h
    exact handleValue_throws hP hvalue

theorem popReturnState_throws (hne : m.stack ≠ []) : popReturnState m env ≠ .throws e := by
  obtain ⟨f, below, hstack⟩ := List.exists_cons_of_ne_nil hne
  simp [popReturnState, hstack]

theorem containerEnd_throws {w : Wire π Unit} (hread : Read.ThrowsOnly Q w.read) (hne : m.stack ≠ [])
    (h : containerEnd m env w = .throws e) : Q e := by
  obtain hq | ⟨v, p', rest, hf⟩ := handle_throws hread h
  · exact hq
  · exact absurd hf (popReturnState_throws hne)

theorem sequenceValue_throws (hP : P.ThrowsOnly Q) {self : ProtocolState} (hne : m.stack ≠ [])
    (h : sequenceValue P m env self = .throws e) : Q e ∨ ∃ type, e = unknownFieldType type := by
  unfold sequenceValue at h
  split at h
  next hnil => exact absurd hnil hne
  next f below hstack =>
    split at h
    · exact absurd h (popReturnState_throws hne)
    · exact element_throws hP h

theorem structEnd_throws (hP : P.ThrowsOnly Q) (hstack : WellStacked m.state m.stack)
    (hstate : m.state = .structEnd) (h : structEnd P m env = .throws e) :
    Q e ∨ ∃ type, e = unknownFieldType type := by
  rw [hstate] at hstack
  simp only [structEnd] at h
  obtain hq | ⟨v, p', rest, hf⟩ := handle_throws hP.structEnd h
  · exact .inl hq
  · exact absurd hf (popReturnState_throws (Nested.ne_nil hstack))

theorem fieldValue_throws (hP : P.ThrowsOnly Q) (hstack : WellStacked m.state m.stack)
    (hstate : m.state = .fieldValue) (h : fieldValue P m env = .throws e) :
    Q e ∨ ∃ type, e = unknownFieldType type := by
  rw [hstate] at hstack
  simp only [fieldValue] at h
  split at h
  next hnil => exact absurd hnil (Returns.ne_nil (by decide) hstack)
  next => exact handleValue_throws hP h

theorem fieldEnd_throws (hP : P.ThrowsOnly Q) (hstack : WellStacked m.state m.stack)
    (hstate : m.state = .fieldEnd) (h : fieldEnd P m env = .throws e) :
    Q e ∨ ∃ type, e = unknownFieldType type := by
  rw [hstate] at hstack
  simp only [fieldEnd] at h
  obtain hq | ⟨v, p', rest, hf⟩ := handle_throws hP.fieldEnd h
  · exact .inl hq
  · split at hf
    next hnil => exact absurd hnil (Returns.ne_nil (by decide) hstack)
    next => cases hf

theorem mapKey_throws (hP : P.ThrowsOnly Q) (hstack : WellStacked m.state m.stack)
    (hstate : m.state = .mapKey) (h : mapKey P m env = .throws e) :
    Q e ∨ ∃ type, e = unknownFieldType type := by
  rw [hstate] at hstack
  have hne := Returns.ne_nil (by decide) hstack
  simp only [mapKey] at h
  split at h
  next hnil => exact absurd hnil hne
  next =>
    split at h
    · exact absurd h (popReturnState_throws hne)
    · exact handleValue_throws hP h

theorem mapValue_throws (hP : P.ThrowsOnly Q) (hstack : WellStacked m.state m.stack)
    (hstate : m.state = .mapValue) (h : mapValue P m env = .throws e) :
    Q e ∨ ∃ type, e = unknownFieldType type := by
  rw [hstate] at hstack
  simp only [mapValue] at h
  split at h
  next hnil => exact absurd hnil (Returns.ne_nil (by decide) hstack)
  next f below hm =>
    split at h
    next hzero =>
      rw [hm] at hstack
      cases hstack with
      | mapValue hend hleft hg => exact absurd hzero hleft
    next => exact element_throws hP h

/-- **No assertion fails**: over a stack in shape a handler throws what a read throws, or that a
type is unknown. -/
theorem handleState_throws (hP : P.ThrowsOnly Q) (hstack : WellStacked m.state m.stack)
    (hpass : m.passthroughEnabled = false)
    (hdone : m.state ≠ .done) (h : handleState P m env = .throws e) :
    Q e ∨ ∃ type, e = unknownFieldType type := by
  have hstacked : ∀ s, m.state = s → WellStacked s m.stack := fun s hs => hs ▸ hstack
  revert h
  unfold handleState
  cases hstate : m.state with
  | passthroughData =>
    intro h
    simp only [passthroughData] at h
    split at h <;> cases h
  | messageBegin =>
    intro h
    obtain hq | ⟨v, p', rest, hf⟩ := handle_throws (hP.messageBegin _) h
    · exact .inl hq
    · simp [hpass] at hf
  | messageEnd => exact fun h => .inl (copy_throws hP.messageEnd h)
  | structBegin => exact fun h => .inl (copy_throws hP.structBegin h)
  | structEnd => exact structEnd_throws hP hstack hstate
  | fieldBegin =>
    intro h
    obtain hq | ⟨v, p', rest, hf⟩ := handle_throws hP.fieldBegin h
    · exact .inl hq
    · split at hf <;> cases hf
  | fieldValue => exact fieldValue_throws hP hstack hstate
  | fieldEnd => exact fieldEnd_throws hP hstack hstate
  | mapBegin => exact fun h => .inl (copy_throws hP.mapBegin h)
  | mapKey => exact mapKey_throws hP hstack hstate
  | mapValue => exact mapValue_throws hP hstack hstate
  | mapEnd => exact fun h => .inl (containerEnd_throws hP.mapEnd (Nested.ne_nil (hstacked _ hstate)) h)
  | listBegin => exact fun h => .inl (sequenceBegin_throws hP.listBegin h)
  | listValue => exact sequenceValue_throws hP (Returns.ne_nil (by decide) (hstacked _ hstate))
  | listEnd => exact fun h => .inl (containerEnd_throws hP.listEnd (Nested.ne_nil (hstacked _ hstate)) h)
  | setBegin => exact fun h => .inl (sequenceBegin_throws hP.setBegin h)
  | setValue => exact sequenceValue_throws hP (Returns.ne_nil (by decide) (hstacked _ hstate))
  | setEnd => exact fun h => .inl (containerEnd_throws hP.setEnd (Nested.ne_nil (hstacked _ hstate)) h)
  | done => exact absurd hstate hdone

end DecoderStateMachine

/-! ## The invariant -/

/-- The exceptions of a protocol's reads: whatever holds of all of them holds of `e`. -/
def Protocol.CanThrow (P : Protocol π) (e : Failure) : Prop := ∀ Q, P.ThrowsOnly Q → Q e

/-- What a handler may do to the stack: a count goes down by one, from a number that is not zero. -/
inductive StackEdit : List Frame → List Frame → Prop
  | restart {stack : List Frame} (g : Frame) : StackEdit stack [g]
  | keep {stack : List Frame} : StackEdit stack stack
  | pop {f : Frame} {below : List Frame} : StackEdit (f :: below) below
  | push {stack : List Frame} (g : Frame) : StackEdit stack (g :: stack)
  | count {f : Frame} {below : List Frame} (h : f.decrement.remaining.toNat + 1 = f.remaining.toNat) :
    StackEdit (f :: below) (f.decrement :: below)
  | countPush {f : Frame} {below : List Frame} (g : Frame) (h :
      f.decrement.remaining.toNat + 1 = f.remaining.toNat) :
    StackEdit (f :: below) (g :: f.decrement :: below)

theorem Frame.toNat_decrement {f : Frame} (h : f.remaining ≠ 0) :
    f.decrement.remaining.toNat + 1 = f.remaining.toNat := by
  have hpos : f.remaining.toNat ≠ 0 := fun hzero => h (UInt32.toNat_inj.1 hzero)
  have hle : (1 : UInt32) ≤ f.remaining := UInt32.le_iff_toNat_le.2 (Nat.one_le_iff_ne_zero.2 hpos)
  have hsub : f.decrement.remaining.toNat = f.remaining.toNat - 1 := UInt32.toNat_sub_of_le _ _ hle
  omega

theorem ValueStep.edit {returnState s' : ProtocolState} {stack stack' : List Frame}
    (h : ValueStep returnState stack s' stack') : StackEdit stack stack' := by
  cases h with
  | complete => exact .keep
  | nested hs => exact .push _

theorem ValueStep.edit_count {f : Frame} {below stack' : List Frame}
    {returnState s' : ProtocolState} (hf : f.remaining ≠ 0)
    (h : ValueStep returnState (f.decrement :: below) s' stack') : StackEdit (f :: below) stack' := by
  cases h with
  | complete => exact .count (Frame.toNat_decrement hf)
  | nested hs => exact .countPush _ (Frame.toNat_decrement hf)

theorem StackStep.edit {s s' : ProtocolState} {stack stack' : List Frame} {strict : Bool}
    (h : StackStep s stack strict s' stack') : StackEdit stack stack' := by
  cases h with
  | messageBegin hs => exact .restart _
  | passthroughData => exact .keep
  | messageEnd => exact .keep
  | structBegin => exact .keep
  | stop => exact .keep
  | field helem => exact .push _
  | fieldValue hvalue => exact hvalue.edit
  | fieldEnd => exact .pop
  | listBegin elemType remaining => exact .push _
  | setBegin elemType remaining => exact .push _
  | mapBegin elemType valueType remaining => exact .push _
  | exhausted hs hf => exact .pop
  | element hs hf hvalue => exact hvalue.edit_count hf
  | mapKey hf hvalue => exact hvalue.edit
  | mapValue hf hvalue => exact hvalue.edit_count hf
  | pop hs => exact .pop

/-- The frame a state finds on top. -/
structure StackSound (m : DecoderStateMachine) : Prop where
  field : m.state = .fieldValue ∨ m.state = .fieldEnd →
    ∃ f below, m.stack = f :: below ∧ f.returnState = .fieldEnd ∧ f.elemType ≠ .stop
  list : m.state = .listValue → ∃ f below, m.stack = f :: below ∧ f.returnState = .listEnd
  set : m.state = .setValue → ∃ f below, m.stack = f :: below ∧ f.returnState = .setEnd
  map : m.state = .mapKey ∨ m.state = .mapValue → ∃ f below, m.stack = f :: below ∧ f.returnState = .mapEnd
  left : m.state = .mapValue → ∃ f below, m.stack = f :: below ∧ 0 < f.remaining.toNat
  pop : m.state.Ends → m.stack ≠ []

theorem WellStacked.sound {m : DecoderStateMachine} (h : WellStacked m.state m.stack) : StackSound m := by
  constructor
  case field =>
    rintro (hs | hs) <;> rw [hs] at h <;> generalize m.stack = stack at h <;> cases h with
    | field hf helem hr => exact ⟨_, _, rfl, hf, helem⟩
  case list =>
    intro hs
    rw [hs] at h
    generalize m.stack = stack at h
    cases h with
    | list hf hr => exact ⟨_, _, rfl, hf⟩
  case set =>
    intro hs
    rw [hs] at h
    generalize m.stack = stack at h
    cases h with
    | set hf hr => exact ⟨_, _, rfl, hf⟩
  case map =>
    rintro (hs | hs)
    · rw [hs] at h
      generalize m.stack = stack at h
      cases h with
      | mapKey hf hr => exact ⟨_, _, rfl, hf⟩
    · rw [hs] at h
      generalize m.stack = stack at h
      cases h with
      | mapValue hf hleft hr => exact ⟨_, _, rfl, hf⟩
  case left =>
    intro hs
    rw [hs] at h
    generalize m.stack = stack at h
    cases h with
    | mapValue hf hleft hr =>
      exact ⟨_, _, rfl, Nat.pos_of_ne_zero fun hzero => hleft (UInt32.toNat_inj.1 hzero)⟩
  case pop => exact fun hs => (nested_of_ends hs h).ne_nil

/-- The machine a run ends with. -/
def Ran.machine : Ran π → DecoderStateMachine
  | .waitForData m _ | .done m _ | .throws m _ _ => m

namespace DecoderStateMachine

variable {P : Protocol π} {m : DecoderStateMachine}

theorem reached_throws (h : Reached P m) (hdone : m.state ≠ .done) {env : Env π} {e : Failure}
    (hthrows : handleState P m env = .throws e) : P.CanThrow e ∨ ∃ type, e = unknownFieldType type := by
  by_cases hunknown : ∃ type, e = unknownFieldType type
  · exact .inr hunknown
  · refine .inl fun Q hQ => ?_
    exact (handleState_throws hQ h.wellStacked.1 h.wellStacked.2 hdone hthrows).resolve_right hunknown

/-- A run goes through reachable machines, and what it throws a handler of one of them throws. -/
theorem run_reached (h : Reached P m) {n : Nat} {env : Env π} {r : Ran π} (hrun : run P n m env = some r) :
    Reached P r.machine ∧ ∀ m' env' e, r = .throws m' env' e → m'.state ≠ .done ∧
      handleState P m' env' = .throws e := by
  induction n generalizing m env with
  | zero =>
    by_cases hdone : m.state = .done
    · rw [run_done P hdone] at hrun
      cases hrun
      exact ⟨h, fun _ _ _ hr => nomatch hr⟩
    · rw [run_zero hdone] at hrun
      cases hrun
  | succ n ih =>
    by_cases hdone : m.state = .done
    · rw [run_done P hdone] at hrun
      cases hrun
      exact ⟨h, fun _ _ _ hr => nomatch hr⟩
    · cases hstate : handleState P m env with
      | waitForData =>
        rw [run_wait hdone hstate] at hrun
        cases hrun
        exact ⟨h, fun _ _ _ hr => nomatch hr⟩
      | throws e =>
        rw [run_throws hdone hstate] at hrun
        cases hrun
        refine ⟨h, ?_⟩
        intro m' env' e' hr
        cases hr
        exact ⟨hdone, hstate⟩
      | next s m₁ env₁ =>
        rw [run_next hdone hstate] at hrun
        exact ih (.next h hstate) hrun

/-- **The stack of a reachable machine is in shape**: every handler finds the frame it expects,
fails no assertion and counts down no zero; and a run, over whatever buffer, leads to such machines
only. -/
theorem stack_invariant (P : Protocol π) (m : DecoderStateMachine) (h : Reached P m) :
    StackSound m ∧
    (∀ env e, m.state ≠ .done → handleState P m env = .throws e → P.CanThrow e ∨
      ∃ type, e = unknownFieldType type) ∧
    (∀ env s' m' env', handleState P m env = .next s' m' env' → StackEdit m.stack m'.stack) ∧
    (∀ n env r, run P n m env = some r → Reached P r.machine ∧
      ∀ m' env' e, r = .throws m' env' e → P.CanThrow e ∨ ∃ type, e = unknownFieldType type) := by
  refine ⟨h.wellStacked.1.sound, ?_, ?_, ?_⟩
  · intro env e hdone hthrows
    exact reached_throws h hdone hthrows
  · intro env s' m' env' hnext
    obtain ⟨strict, hanswered⟩ := handleState_next hnext
    exact hanswered.step.edit
  · intro n env r hrun
    obtain ⟨hreached, hthrows⟩ := run_reached h hrun
    refine ⟨hreached, ?_⟩
    rintro m' env' e rfl
    obtain ⟨hdone, hstate⟩ := hthrows m' env' e rfl
    exact reached_throws hreached hdone hstate

/-- A call of the strict binary protocol with a map of two entries, cut behind the key of the second
one. -/
def cutInMap : Bytes :=
  [0x80, 1, 0, 1, 0, 0, 0, 0, 0, 0, 0, 7, 13, 0, 1, 3, 11, 0, 0, 0, 2, 5, 0, 0, 0, 1, 0x61, 6]

/-- The frames then: one for the entries, one each for the map, its field and the message. -/
def mapFrames : List Frame :=
  [{ returnState := .mapEnd, elemType := .byte, valueType := .string, remaining := 1 },
    { returnState := .fieldEnd }, { returnState := .fieldEnd, elemType := .map },
      { returnState := .messageEnd }]

theorem stack_invariant_map :
    ∃ m, Reached binary m ∧ m.state = .mapValue ∧ m.stack = mapFrames ∧ StackSound m := by
  have hrun : (run binary 20 {} ⟨(), {}, cutInMap⟩).map (fun r => (r.machine.state, r.machine.stack)) =
      some (.mapValue, mapFrames) := by
    decide +kernel
  obtain ⟨r, hr, hmachine⟩ := Option.map_eq_some_iff.1 hrun
  obtain ⟨hstate, hstack⟩ := Prod.mk.inj hmachine
  have hreached := ((stack_invariant binary {} .start).2.2.2 20 _ r hr).1
  exact ⟨r.machine, hreached, hstate, hstack, (stack_invariant binary r.machine hreached).1⟩

end DecoderStateMachine

end MetaProtocolProxy.Thrift
