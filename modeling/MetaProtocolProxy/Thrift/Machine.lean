import MetaProtocolProxy.Thrift.Protocol
/-
# The Thrift message state machine (thrift_codec.h:72-175, thrift_codec.cc:222-599)

`DecoderStateMachine` reads a message part by part and writes each part again into
`origin_message_`. It is a pushdown machine: a frame of the stack says where to go on once a nested
value is complete, and counts the elements left of a container.

A handler either waits and leaves everything as it was, or gives the next state. It works on the
buffer and on two objects of its owner, the protocol and the metadata (`Env`). The assertions of the
handlers are modelled as what they do when they fail.
-/
namespace MetaProtocolProxy.Thrift

variable {π α : Type}

inductive ProtocolState
  | passthroughData
  | messageBegin
  | messageEnd
  | structBegin
  | structEnd
  | fieldBegin
  | fieldValue
  | fieldEnd
  | mapBegin
  | mapKey
  | mapValue
  | mapEnd
  | listBegin
  | listValue
  | listEnd
  | setBegin
  | setValue
  | setEnd
  | done
  deriving DecidableEq, Repr

/-- `DecoderStateMachine::Frame`. -/
structure Frame where
  returnState : ProtocolState
  elemType : FieldType := .stop
  valueType : FieldType := .stop
  remaining : UInt32 := 0
  deriving DecidableEq, Repr

/-- `remaining_--`. -/
def Frame.decrement (f : Frame) : Frame := { f with remaining := f.remaining - 1 }

/-- `DecoderStateMachine`; the last frame of `stack_` comes first. -/
structure DecoderStateMachine where
  state : ProtocolState := .messageBegin
  stack : List Frame := []
  bodyBytes : UInt32 := 0
  passthroughEnabled : Bool := false
  originMessage : Bytes := []
  deriving DecidableEq, Repr

/-- What a machine works on besides itself: `proto_`, `metadata_` and the buffer. -/
structure Env (π : Type) where
  proto : π
  metadata : MessageMetadata
  buffer : Bytes
  deriving DecidableEq

/-- What a handler answers. -/
inductive Handled (π : Type)
  | waitForData
  | next (state : ProtocolState) (m : DecoderStateMachine) (env : Env π)
  | throws (e : Failure)

/-- Go on with what a read gives. -/
def Read.handle (r : Read π α) (f : α → π → Bytes → Handled π) : Handled π :=
  match r with
  | .more => .waitForData
  | .ok v p rest => f v p rest
  | .throws e => .throws e

namespace DecoderStateMachine

variable (P : Protocol π) (m : DecoderStateMachine) (env : Env π)

/-- Append what a write produces to `origin_message_`. -/
def emit (w : Bytes × π) : DecoderStateMachine := { m with originMessage := m.originMessage ++ w.1 }

def push (frame : Frame) : DecoderStateMachine := { m with stack := frame :: m.stack }

/-- `stack_[index].remaining_--`. -/
def decrement (index : Nat) : DecoderStateMachine :=
  { m with stack := m.stack.modify (m.stack.length - 1 - index) Frame.decrement }

/-- Read a part and write it again. -/
def copy (w : Wire π α) (f : α → DecoderStateMachine → Env π → Handled π) : Handled π :=
  (w.read env.proto env.buffer).handle fun v p rest =>
    let written := w.write p v
    f v (m.emit written) { env with proto := written.2, buffer := rest }

/-- `popReturnState`. -/
def popReturnState : Handled π :=
  match m.stack with
  | [] => .throws (.panicked "assert failure: !stack_.empty()")
  | frame :: below => .next frame.returnState { m with stack := below } env

def passthroughData : Handled π :=
  if env.buffer.length < m.bodyBytes.toNat then .waitForData
  else
    .next .messageEnd { m with originMessage := m.originMessage ++ env.buffer.take m.bodyBytes.toNat }
      { env with buffer := env.buffer.drop m.bodyBytes.toNat }

def messageBegin : Handled π :=
  (P.readMessageBegin env.metadata env.proto env.buffer).handle fun metadata p rest =>
    let m := { m with stack := [{ returnState := .messageEnd }] }
    if m.passthroughEnabled then
      match metadata.frameSize with
      | none => .throws (.panicked "bad optional access")
      | some size =>
        .next .passthroughData { m with bodyBytes := size - UInt32.ofNat (env.buffer.length - rest.length) }
          ⟨p, metadata, rest⟩
    else
      let written := P.writeMessageBegin p metadata
      .next .structBegin (m.emit written) ⟨written.2, metadata, rest⟩

def messageEnd : Handled π := copy m env P.messageEnd fun _ m env => .next .done m env

def structBegin : Handled π := copy m env P.structBegin fun _ m env => .next .fieldBegin m env

/-- The stop field was read before, and is written here. -/
def structEnd : Handled π :=
  (P.structEnd.read env.proto env.buffer).handle fun _ p rest =>
    let stop := P.fieldBegin.write p { type := .stop }
    let written := P.structEnd.write stop.2 ()
    popReturnState ((m.emit stop).emit written) { env with proto := written.2, buffer := rest }

def fieldBegin : Handled π :=
  (P.fieldBegin.read env.proto env.buffer).handle fun field p rest =>
    if field.type = .stop then .next .structEnd m { env with proto := p, buffer := rest }
    else
      let written := P.fieldBegin.write p field
      .next .fieldValue ((m.push { returnState := .fieldEnd, elemType := field.type }).emit written)
        { env with proto := written.2, buffer := rest }

/-- `handleValue` of a value without parts. -/
def primitive (w : Wire π α) (returnState : ProtocolState) : Handled π :=
  copy m env w fun _ m env => .next returnState m env

def handleValue (elemType : FieldType) (returnState : ProtocolState) : Handled π :=
  match elemType with
  | .bool => primitive m env P.bool returnState
  | .byte => primitive m env P.byte returnState
  | .i16 => primitive m env P.int16 returnState
  | .i32 => primitive m env P.int32 returnState
  | .i64 => primitive m env P.int64 returnState
  | .double => primitive m env P.double returnState
  | .string => primitive m env P.string returnState
  | .struct => .next .structBegin (m.push { returnState }) env
  | .map => .next .mapBegin (m.push { returnState }) env
  | .list => .next .listBegin (m.push { returnState }) env
  | .set => .next .setBegin (m.push { returnState }) env
  | type => .throws (.envoyException s!"unknown field type {type.toInt}")

def fieldValue : Handled π :=
  match m.stack with
  | [] => .throws (.panicked "assert failure: !stack_.empty()")
  | frame :: _ => handleValue P m env frame.elemType frame.returnState

def fieldEnd : Handled π :=
  (P.fieldEnd.read env.proto env.buffer).handle fun _ p rest =>
    match m.stack with
    | [] => .throws (.panicked "assert failure: !stack_.empty()")
    | _ :: below =>
      let written := P.fieldEnd.write p ()
      .next .fieldBegin ({ m with stack := below }.emit written)
        { env with proto := written.2, buffer := rest }

/-- `listBegin` and `setBegin`. -/
def sequenceBegin (w : Wire π (FieldType × UInt32)) (endState valueState : ProtocolState) : Handled π :=
  copy m env w fun v m env =>
    .next valueState (m.push { returnState := endState, elemType := v.1, remaining := v.2 }) env

/-- A value of a container; `remaining_` is counted down unless the value waits. -/
def element (elemType : FieldType) (returnState : ProtocolState) : Handled π :=
  let index := m.stack.length - 1
  match handleValue P m env elemType returnState with
  | .next state m env => .next state (m.decrement index) env
  | h => h

/-- `listValue` and `setValue`. -/
def sequenceValue (self : ProtocolState) : Handled π :=
  match m.stack with
  | [] => .throws (.panicked "assert failure: !stack_.empty()")
  | frame :: _ => if frame.remaining = 0 then popReturnState m env else element P m env frame.elemType self

/-- `listEnd`, `setEnd` and `mapEnd`. -/
def containerEnd (w : Wire π Unit) : Handled π := copy m env w fun _ m env => popReturnState m env

def listBegin : Handled π := sequenceBegin m env P.listBegin .listEnd .listValue
def listValue : Handled π := sequenceValue P m env .listValue
def listEnd : Handled π := containerEnd m env P.listEnd

def setBegin : Handled π := sequenceBegin m env P.setBegin .setEnd .setValue
def setValue : Handled π := sequenceValue P m env .setValue
def setEnd : Handled π := containerEnd m env P.setEnd

def mapBegin : Handled π :=
  copy m env P.mapBegin fun v m env =>
    .next .mapKey
      (m.push { returnState := .mapEnd, elemType := v.1, valueType := v.2.1, remaining := v.2.2 }) env

def mapKey : Handled π :=
  match m.stack with
  | [] => .throws (.panicked "assert failure: !stack_.empty()")
  | frame :: _ =>
    if frame.remaining = 0 then popReturnState m env else handleValue P m env frame.elemType .mapValue

def mapValue : Handled π :=
  match m.stack with
  | [] => .throws (.panicked "assert failure: !stack_.empty()")
  | frame :: _ =>
    if frame.remaining = 0 then .throws (.panicked "assert failure: stack_[index].remaining_ != 0")
    else element P m env frame.valueType .mapKey

def mapEnd : Handled π := containerEnd m env P.mapEnd

/-- `handleState` (thrift_codec.cc:533-574). -/
def handleState : Handled π :=
  match m.state with
  | .passthroughData => passthroughData m env
  | .messageBegin => messageBegin P m env
  | .structBegin => structBegin P m env
  | .structEnd => structEnd P m env
  | .fieldBegin => fieldBegin P m env
  | .fieldValue => fieldValue P m env
  | .fieldEnd => fieldEnd P m env
  | .listBegin => listBegin P m env
  | .listValue => listValue P m env
  | .listEnd => listEnd P m env
  | .mapBegin => mapBegin P m env
  | .mapKey => mapKey P m env
  | .mapValue => mapValue P m env
  | .mapEnd => mapEnd P m env
  | .setBegin => setBegin P m env
  | .setValue => setValue P m env
  | .setEnd => setEnd P m env
  | .messageEnd => messageEnd P m env
  | .done => .throws (.panicked "not reachec")

end DecoderStateMachine

/-- How `run` ends. -/
inductive Ran (π : Type)
  | waitForData (m : DecoderStateMachine) (env : Env π)
  | done (m : DecoderStateMachine) (env : Env π)
  | throws (m : DecoderStateMachine) (env : Env π) (e : Failure)
  deriving DecidableEq

/-- `DecoderStateMachine::run` (thrift_codec.cc:583-599); `none` when `n` handlers did not
suffice. -/
def DecoderStateMachine.run (P : Protocol π) (n : Nat) (m : DecoderStateMachine) (env : Env π) :
    Option (Ran π) :=
  if m.state = .done then some (.done m env)
  else
    match n with
    | 0 => none
    | n + 1 =>
      match handleState P m env with
      | .waitForData => some (.waitForData m env)
      | .throws e => some (.throws m env e)
      | .next state m env => run P n { m with state } env

namespace DecoderStateMachine

variable {P : Protocol π} {m m' : DecoderStateMachine} {env env' : Env π} {s : ProtocolState}

theorem run_done (P : Protocol π) (hm : m.state = .done) (env : Env π) (n : Nat) :
    run P n m env = some (.done m env) := by
  rw [run.eq_def, if_pos hm]

theorem run_zero (hm : m.state ≠ .done) : run P 0 m env = none := by
  rw [run, if_neg hm]

theorem run_wait (hm : m.state ≠ .done) (h : handleState P m env = .waitForData) (n : Nat) :
    run P (n + 1) m env = some (.waitForData m env) := by
  rw [run, if_neg hm]
  simp only [h]

theorem run_throws {e : Failure} (hm : m.state ≠ .done) (h : handleState P m env = .throws e) (n : Nat) :
    run P (n + 1) m env = some (.throws m env e) := by
  rw [run, if_neg hm]
  simp only [h]

theorem run_next (hm : m.state ≠ .done) (h : handleState P m env = .next s m' env') (n : Nat) :
    run P (n + 1) m env = run P n { m' with state := s } env' := by
  rw [run, if_neg hm]
  simp only [h]

end DecoderStateMachine

end MetaProtocolProxy.Thrift
