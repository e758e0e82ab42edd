import MetaProtocolProxy.Thrift.Values
/-
# The Thrift codec (thrift_codec.h:183-215, thrift_codec.cc:18-220)

`ThriftCodec::decode` finds the start of a frame, runs the state machine over the message and
finds the end of the frame. Whatever it had come to is kept in the codec, so that a call that had
to wait goes on there. The reply built by `onError` is the encoding of a message.

`decode` takes the number of handlers the state machine may run; `none` means it was too small.
-/
namespace MetaProtocolProxy.Thrift

open Framing (Step)

variable {τ π α : Type}

/-- `ThriftCodec`. -/
structure ThriftCodec (τ π : Type) where
  transport : τ
  protocol : π
  metadata : Option MessageMetadata := none
  stateMachine : Option DecoderStateMachine := none
  frameStarted : Bool := false
  frameEnded : Bool := false

/-- A `std::string` as the bytes it holds, and back. -/
def ofText (s : String) : Bytes := s.toList.map fun c => UInt8.ofNat c.toNat

def toText (b : Bytes) : String := String.ofList (b.map fun c => Char.ofNat c.toNat)

def ThriftMessageType.toMessageType : ThriftMessageType → MessageType
  | .call => .request
  | .reply => .response
  | .oneway => .oneway
  | .exception => .error

namespace ThriftCodec

variable (T : Transport τ) (P : Protocol π) (c : ThriftCodec τ π)

def complete : ThriftCodec τ π := { c with stateMachine := none, frameStarted := false, frameEnded := false }

/-- `toMetadata` (thrift_codec.cc:179-210); the sequence id is sign-extended to 64 bits. -/
def toMetadata (msg : MessageMetadata) (originalMessage : Bytes) (md : Metadata α) :
    Except Failure (Metadata α × ThriftCodec τ π) :=
  let md := match msg.methodName with
    | some method => md.putString "method" (toText method)
    | none => md
  let md := match msg.sequenceId with
    | some id => { md with requestId := id.toInt64.toUInt64.toNat }
    | none => md
  match msg.messageType with
  | none => .error (.panicked "assert failure: msgMetadata.hasMessageType()")
  | some type =>
    match T.encodeFrame c.transport msg originalMessage with
    | .error e => .error e
    | .ok (frame, t) =>
      .ok ({ md with messageType := type.toMessageType, originMessage := md.originMessage ++ frame },
        { c with transport := t })

/-- The protocol the transport reports is taken over, or has to be the one configured
(thrift_codec.cc:42-53). -/
def setProtocol (msg : MessageMetadata) : Except Failure (ThriftCodec τ π) :=
  match msg.protocol with
  | none => .ok c
  | some type =>
    if P.type c.protocol = .auto then .ok { c with protocol := P.setType type c.protocol }
    else if type ≠ P.type c.protocol then
      .error (.envoyException
        s!"transport reports protocol {type.name}, but configured for {(P.type c.protocol).name}")
    else .ok c

/-- The start of a frame (thrift_codec.cc:29-65), with `metadata_` in place. -/
def startFrame (msg : MessageMetadata) (buffer : Bytes) : Step (ThriftCodec τ π) UInt8 Unit Failure :=
  let c := { c with metadata := some msg }
  match T.decodeFrameStart msg c.transport buffer with
  | .more => .wait c buffer
  | .throws e => .fail c buffer e
  | .ok msg t rest =>
    let c := { c with transport := t, metadata := some msg }
    match c.setProtocol P msg with
    | .error e => .fail c rest e
    | .ok c =>
      match msg.appException with
      | some (type, message) =>
        .fail { c with metadata := none } rest
          (.envoyException s!"thrift AppException: type: {type.toNat}, message: {message}")
      | none => .done { c with frameStarted := true, stateMachine := some {} } () rest

/-- The end of a frame (thrift_codec.cc:80-95). -/
def endFrame (msg : MessageMetadata) (m : DecoderStateMachine) (buffer : Bytes) (md : Metadata α) :
    Step (ThriftCodec τ π) UInt8 (Metadata α) Failure :=
  match T.decodeFrameEnd c.transport buffer with
  | .more => .wait c buffer
  | .throws e => .fail c buffer e
  | .ok _ t rest =>
    let c := { c with transport := t }
    match c.toMetadata T msg m.originMessage md with
    | .error e => .fail c rest e
    | .ok (md, c) => .done { c with metadata := none }.complete md rest

/-- The codec with what the state machine has made of itself, the protocol and the metadata. -/
def withMachine (m : DecoderStateMachine) (env : Env π) : ThriftCodec τ π :=
  { c with stateMachine := some m, protocol := env.proto, metadata := some env.metadata }

/-- The part of `decode` behind the start of the frame (thrift_codec.cc:67-95). -/
def decodeFrame (n : Nat) (buffer : Bytes) (md : Metadata α) :
    Option (Step (ThriftCodec τ π) UInt8 (Metadata α) Failure) :=
  match c.stateMachine, c.metadata with
  | none, _ => some (.fail c buffer (.panicked "assert failure: state_machine_ != nullptr"))
  | some _, none => some (.fail c buffer (.nullDereference "metadata_"))
  | some m, some msg =>
    match m.run P n ⟨c.protocol, msg, buffer⟩ with
    | none => none
    | some (.waitForData m env) => some (.wait (c.withMachine m env) env.buffer)
    | some (.throws m env e) => some (.fail (c.withMachine m env) env.buffer e)
    | some (.done m env) => some ((c.withMachine m env).endFrame T env.metadata m env.buffer md)

/-- `ThriftCodec::decode` (thrift_codec.cc:18-96). -/
def decode (n : Nat) (buffer : Bytes) (md : Metadata α) :
    Option (Step (ThriftCodec τ π) UInt8 (Metadata α) Failure) :=
  if c.frameEnded then some (.done c.complete md buffer)
  else if c.frameStarted then c.decodeFrame T P n buffer md
  else
    match c.startFrame T P (c.metadata.getD {}) buffer with
    | .wait c rest => some (.wait c rest)
    | .fail c rest e => some (.fail c rest e)
    | .done c _ rest => c.decodeFrame T P n rest md

/-- `ThriftCodec::encode` (thrift_codec.cc:104-132) leaves the buffer as it is. -/
def encode (md : Metadata α) (_mutation : Mutation) (buffer : Bytes) : Except Failure Bytes :=
  match md.messageType with
  | .heartbeat | .request | .response | .error => .ok buffer
  | _ => .error (.panicked "not reachec")

/-- `toMsgMetadata` (thrift_codec.cc:212-220). -/
def toMsgMetadata (md : Metadata α) : Except Failure MessageMetadata :=
  match md.getString "method" with
  | .error e => .error e
  | .ok method =>
    .ok {
      methodName := if method ≠ "" then some (ofText method) else none
      sequenceId := some (UInt32.ofNat md.requestId).toInt32 }

/-- What `onError` writes into `response_buffer` (thrift_codec.cc:158-173). -/
def writeException (msg : MessageMetadata) (error : Error) : π → Bytes × π :=
  andThen (P.writeMessageBegin · msg) <|
  andThen (P.structBegin.write · (ofText "TApplicationException")) <|
  andThen (P.fieldBegin.write · ⟨ofText "message", .string, 1⟩) <|
  andThen (P.string.write · (ofText error.message)) <|
  andThen (P.fieldEnd.write · ()) <|
  andThen (P.fieldBegin.write · ⟨ofText "type", .i32, 2⟩) <|
  andThen (P.int32.write · (Int32.ofNat AppExceptionType.internalError.toNat)) <|
  andThen (P.fieldEnd.write · ()) <|
  andThen (P.fieldBegin.write · { type := .stop }) <|
  andThen (P.structEnd.write · ()) (P.messageEnd.write · ())

/-- `ThriftCodec::onError` (thrift_codec.cc:139-177). -/
def onError (md : Metadata α) (error : Error) : Except Failure (Bytes × ThriftCodec τ π) :=
  match toMsgMetadata md with
  | .error e => .error e
  | .ok msg =>
    let msg := { msg with
      methodName := some (msg.methodName.getD [])
      sequenceId := some (msg.sequenceId.getD 0)
      messageType := some .exception }
    let response := writeException P msg error c.protocol
    (T.encodeFrame c.transport msg response.1).map fun f =>
      (f.1, { c with transport := f.2, protocol := response.2 })

end ThriftCodec

/-! ## The reply of `onError` -/

def errorMessage (method : Bytes) (sequenceId : Int32) (error : Error) : Message where
  header := ⟨method, .exception, sequenceId⟩
  name := ofText "TApplicationException"
  fields :=
    .cons (ofText "message") 1 .string (.string (ofText error.message)) <|
    .cons (ofText "type") 2 .i32 (.i32 6) <|
    .nil

theorem andThen_assoc (u v w : π → Bytes × π) : andThen (andThen u v) w = andThen u (andThen v w) := by
  funext q
  simp only [andThen, List.append_assoc]

theorem writeException_eq (P : Protocol π) (method : Bytes) (sequenceId : Int32) (error : Error) :
    ThriftCodec.writeException P (errorMessage method sequenceId error).header.metadata error =
      (errorMessage method sequenceId error).write P := by
  have hfields : (errorMessage method sequenceId error).fields.write P =
      andThen (P.fieldBegin.write · ⟨ofText "message", .string, 1⟩)
        (andThen (P.string.write · (ofText error.message)) (andThen (P.fieldEnd.write · ())
        (andThen (P.fieldBegin.write · ⟨ofText "type", .i32, 2⟩) (andThen (P.int32.write · 6)
        (andThen (P.fieldEnd.write · ())
        (andThen (P.fieldBegin.write · { type := .stop }) (P.structEnd.write · ()))))))) := by
    funext q
    simp only [errorMessage, Fields.write, Value.write, andThen]
    rfl
  rw [Message.write, hfields]
  simp only [andThen_assoc]
  rfl

/-- The reply is a frame around the encoding of an exception with the request's method and id. -/
theorem onError_eq (T : Transport τ) (P : Protocol π) (c : ThriftCodec τ π) {md : Metadata α}
    {method : String} (h : md.getString "method" = .ok method) (error : Error) :
    let msg := errorMessage (if method ≠ "" then ofText method else [])
      (UInt32.ofNat md.requestId).toInt32 error
    c.onError T P md error =
      (T.encodeFrame c.transport msg.header.metadata (msg.encoding P c.protocol)).map fun f =>
      (f.1, { c with transport := f.2, protocol := (msg.write P c.protocol).2 }) := by
  intro msg
  have hmethod : (if method ≠ "" then some (ofText method) else none).getD [] =
      if method ≠ "" then ofText method else [] := by
    split <;> rfl
  have hwrite : ThriftCodec.writeException P msg.header.metadata error = msg.write P := writeException_eq ..
  rw [Message.encoding, ← hwrite]
  simp only [ThriftCodec.onError, ThriftCodec.toMsgMetadata, h, hmethod, Option.getD_some]
  rfl

end MetaProtocolProxy.Thrift
