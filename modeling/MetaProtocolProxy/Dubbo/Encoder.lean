import MetaProtocolProxy.Dubbo.Codec
/-
# The Dubbo encoder (dubbo_codec.cc:55-155, 241-326; dubbo_protocol_impl.cc:179-295)

`encode` and `onError` get a `Metadata` and first turn it back into a `MessageMetadata`
(`toMsgMetadata`): nine properties are looked up by name and cast to the type `toMetadata`
stored them with. The strings of a message's attachment map are properties of the same map,
under the names the peer chose. Whether a cast can meet one of them depends on which of the
nine names `toMetadata` writes after the attachments.

| here | there |
| --- | --- |
| `Any DubboAny`, by constructor | the type held by a `std::any` |
| `optional`, `required`, `getBool` | `any_cast` behind `has_value`, behind `assert`, and in `getBool` |
| `encodeMap` | `Hessian2::Encoder::encode` of an `UntypedMapObject` |
| the `Metadata` an encoder returns | the message after it: the invocation and the result are shared with it |

`assert` and `ASSERT` are not compiled into a release build: `required` on a missing property is
a null dereference. The arguments of log statements are not evaluated, but for the
`getString` at the top of `encode`.
-/
namespace MetaProtocolProxy.Dubbo

open Bytes

/-- `any_cast` of a property that may be missing. -/
def optional {τ : Type} (cast : Any DubboAny → Option τ) (md : Metadata DubboAny) (key : String) :
    Except Failure (Option τ) :=
  match md.getByKey key with
  | none => .ok none
  | some v => match cast v with
    | some x => .ok (some x)
    | none => .error .badAnyCast

/-- `any_cast` of a property that is only asserted to be there. -/
def required {τ : Type} (cast : Any DubboAny → Option τ) (md : Metadata DubboAny) (key : String) :
    Except Failure τ :=
  match md.getByKey key with
  | none => .error (.nullDereference key)
  | some v => match cast v with
    | some x => .ok x
    | none => .error .badAnyCast

namespace Cast

def invocationInfo : Any DubboAny → Option (Option RpcInvocation)
  | .other (.invocationInfo i) => some i
  | _ => none

def rpcResultInfo : Any DubboAny → Option RpcResult
  | .other (.rpcResultInfo r) => some r
  | _ => none

def protocolType : Any DubboAny → Option ProtocolType
  | .other (.protocolType t) => some t
  | _ => none

def protocolVersion : Any DubboAny → Option Nat
  | .other (.protocolVersion v) => some v
  | _ => none

def messageType : Any DubboAny → Option DubboMessageType
  | .other (.messageType t) => some t
  | _ => none

/-- `any_cast<uint32_t>`, where `toMetadata` stores an `optional<uint32_t>`. -/
def timeout : Any DubboAny → Option Nat
  | .uint32 n => some n
  | _ => none

def serializationType : Any DubboAny → Option SerializationType
  | .other (.serializationType t) => some t
  | _ => none

def responseStatus : Any DubboAny → Option DubboResponseStatus
  | .other (.responseStatus s) => some s
  | _ => none

end Cast

/-- `DubboCodec::toMsgMetadata` (dubbo_codec.cc:241-289). -/
def toMsgMetadata (md : Metadata DubboAny) : Except Failure MessageMetadata := do
  let invo ← optional Cast.invocationInfo md "InvocationInfo"
  let rpcResultInfo ← optional Cast.rpcResultInfo md "RpcResultInfo"
  let protocolType ← required Cast.protocolType md "ProtocolType"
  let protocolVersion ← required Cast.protocolVersion md "ProtocolVersion"
  let messageType ← required Cast.messageType md "MessageType"
  let timeout ← optional Cast.timeout md "Timeout"
  let isTwoWay ← md.getBool "TwoWay"
  let serializationType ← required Cast.serializationType md "SerializationType"
  let responseStatus ← optional Cast.responseStatus md "ResponseStatus"
  return { requestId := md.requestId, invocationInfo := invo.join, rpcResultInfo, protocolType,
           protocolVersion, messageType, timeout, isTwoWay, serializationType, responseStatus }

/-- `static_cast<uint8_t>` of a serialization type. -/
def SerializationType.toByte : SerializationType → UInt8
  | .hessian2 => 2

/-- `static_cast<uint8_t>` of a response status. -/
def DubboResponseStatus.toByte : DubboResponseStatus → UInt8
  | .ok => 20
  | .clientTimeout => 30
  | .serverTimeout => 31
  | .badRequest => 40
  | .badResponse => 50
  | .serviceNotFound => 60
  | .serviceError => 70
  | .serverError => 80
  | .clientError => 90
  | .serverThreadpoolExhaustedError => 100

/-- A difference of `size_t`. -/
def sub64 (a b : Nat) : Nat := (a + 2 ^ 64 - b) % 2 ^ 64

section Protocol

variable (encodeMap : List (Object × Object) → Bytes)

/-- The common body of `headerMutation` and `rspheaderMutation`: everything up to the attachment is
kept, with the new body size in place of the old one, and the attachment is serialized anew. -/
def reserialize (buffer : Bytes) (a : Attachment) (headerSize : Nat) : Bytes :=
  let bodyLengthSize := 4
  let head := sub64 headerSize bodyLengthSize
  let originBuffer := (buffer.drop head).drop bodyLengthSize
  let attachmentBuffer := encodeMap a.attachment
  let newBodySize := sub64 (a.attachmentOffset + attachmentBuffer.length) headerSize
  buffer.take head ++ writeBE 4 newBodySize ++ originBuffer.take (sub64 a.attachmentOffset headerSize) ++
    attachmentBuffer

/-- `DubboProtocolImpl::headerMutation` (dubbo_protocol_impl.cc:260-295): only an updated
attachment. -/
def headerMutation (buffer : Bytes) (msg : MessageMetadata) (ctx : Context) : Bytes :=
  match msg.invocationInfo.bind RpcInvocation.attachment with
  | some a => if a.attachmentUpdated then reserialize encodeMap buffer a ctx.headerSize else buffer
  | none => buffer

/-- `DubboProtocolImpl::rspheaderMutation` (dubbo_protocol_impl.cc:179-214): any attachment. -/
def rspheaderMutation (buffer : Bytes) (msg : MessageMetadata) (ctx : Context) : Bytes :=
  match msg.rpcResultInfo.bind RpcResult.attachment with
  | some a => reserialize encodeMap buffer a ctx.headerSize
  | none => buffer

/-- `DubboProtocolImpl::encode` (dubbo_protocol_impl.cc:216-258). -/
def protocolEncode (buffer : Bytes) (msg : MessageMetadata) (ctx : Context) (content : String) :
    Except Failure Bytes :=
  match msg.messageType with
  | .heartbeatResponse =>
    match msg.responseStatus with
    | none => .error (.nullDereference "response_status_")
    | some status =>
      .ok (writeBE 2 magicNumber ++ [msg.serializationType.toByte ^^^ eventMask, status.toByte] ++
        writeBE 8 msg.requestId ++ writeBE 4 1 ++ [0x4e])
  | .response => .ok (if content = "addheader" then rspheaderMutation encodeMap buffer msg ctx else buffer)
  | .request => .ok (headerMutation encodeMap buffer msg ctx)
  | _ => .error (.panicked "not implemented")

/-- The loop of `encodeRequest` and `encodeResponse` over the mutation. -/
def mutate (mutation : Mutation) (a : Attachment) : Attachment :=
  mutation.foldl (fun a kv => (a.remove kv.1).insert kv.1 kv.2) a

/-- What an encoder leaves: the message, whose invocation or result it may have changed, and the
buffer. -/
abbrev Encoded := Except Failure (Metadata DubboAny × Bytes)

variable (md : Metadata DubboAny) (mutation : Mutation) (buffer : Bytes)

def contextOf : Context := { headerSize := md.headerSize, bodySize := md.bodySize }

/-- `DubboCodec::encodeRequest` (dubbo_codec.cc:303-326). -/
def encodeRequest : Encoded := do
  let msg ← toMsgMetadata md
  let invo := msg.invocationInfo.map fun invo =>
    { invo with attachment := invo.attachment.map (mutate mutation) }
  let buffer ← protocolEncode encodeMap buffer { msg with invocationInfo := invo } (contextOf md) ""
  return (if invo.isSome then md.put "InvocationInfo" (.other (.invocationInfo invo)) else md, buffer)

/-- `DubboCodec::encodeResponse` (dubbo_codec.cc:81-128): nothing is written without a mutation. -/
def encodeResponse : Encoded := do
  let msg ← toMsgMetadata md
  match msg.rpcResultInfo with
  | none => return (md, buffer)
  | some result =>
    if mutation.isEmpty then return (md, buffer)
    else match result.attachment with
      | none => .error (.nullDereference "attachment_")
      | some a =>
        let result := { result with attachment := some (mutate mutation a) }
        let buffer ← protocolEncode encodeMap buffer { msg with rpcResultInfo := some result }
          (contextOf md) "addheader"
        return (md.put "RpcResultInfo" (.other (.rpcResultInfo result)), buffer)

/-- `DubboCodec::encodeHeartbeat` (dubbo_codec.cc:291-301). -/
def encodeHeartbeat : Encoded := do
  let msg ← toMsgMetadata md
  let buffer ← protocolEncode encodeMap buffer
    { msg with responseStatus := some .ok, messageType := .heartbeatResponse } {} ""
  return (md, buffer)

/-- `DubboCodec::encode` (dubbo_codec.cc:55-79). -/
def encode : Encoded := do
  let _ ← md.getString realServerAddress
  match md.messageType with
  | .heartbeat => encodeHeartbeat encodeMap md buffer
  | .request => encodeRequest encodeMap md mutation buffer
  | .response => encodeResponse encodeMap md mutation buffer
  | .error => return (md, buffer)
  | _ => .error (.panicked "not reached")

def errorStatus : ErrorType → DubboResponseStatus
  | .routeNotFound => .serviceNotFound
  | .badResponse => .badResponse
  | _ => .serverError

/-- `DubboCodec::onError` (dubbo_codec.cc:130-155). -/
def onError (error : Error) : Except Failure Bytes := do
  let msg ← toMsgMetadata md
  protocolEncode encodeMap []
    { msg with responseStatus := some (errorStatus error.type), messageType := .response } {}
    error.message

end Protocol

/-- The codec object `DubboCodec` as the proxy sees it. -/
def dubboCodec (hs : Hessian2) (encodeMap : List (Object × Object) → Bytes) : Codec DubboCodec DubboAny where
  init := {}
  decode := DubboCodec.decode hs
  encode md mutation buffer := (encode encodeMap md mutation buffer).map Prod.snd
  onError := onError encodeMap

end MetaProtocolProxy.Dubbo
