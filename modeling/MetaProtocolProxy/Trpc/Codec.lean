import MetaProtocolProxy.Trpc.Protocol
/-
# The tRPC codec (application_protocols/trpc/codec_checker.cc, trpc_codec.cc)

`CodecChecker` walks a frame in stages: fixed header, protobuf header (unary) or the whole
frame (stream), payload. Only the payload stage takes bytes from the buffer, all
`total_size_` of them at once; the stages before it peek, and the stage reached is kept
when the checker has to wait. `TrpcCodec` holds the checker, its callbacks' results and
the message type of the last call.

`handleState` makes at most three stages' progress before the frame is done, so the C++
loop `while (decode_stage_ != kDecodeDone)` runs here with fuel 3 and never exhausts it
(`onDataLoop_stable`).
-/
namespace MetaProtocolProxy.Trpc

open Bytes
open Framing (Step)

/-- `CodecChecker::DecodeStage`, the stages a checker can be left in. -/
inductive DecodeStage
  | decodeFixedHeader
  | decodeUnaryProtocolHeader
  | decodeStreamFrame
  | decodePayload
  deriving DecidableEq, Repr

/-- `TrpcCodec` with its `CodecChecker` (`decode_stage_`, `total_size_`,
`protocol_header_size_`). -/
structure TrpcCodec where
  decodeStage : DecodeStage := .decodeFixedHeader
  totalSize : Nat := 0
  protocolHeaderSize : Nat := 0
  fixedHeader : TrpcFixedHeader := {}
  requestHeader : RequestProtocol := {}
  responseHeader : ResponseProtocol := {}
  streamInitMeta : StreamInitMeta := {}
  streamCloseMeta : StreamCloseMeta := {}
  originMsg : Bytes := []
  messageType : MessageType := .request
  deriving DecidableEq, Repr

inductive Staged
  | wait
  | next (c : TrpcCodec)
  | done (c : TrpcCodec) (rest : Bytes)
  | throws (c : TrpcCodec) (e : Failure)

namespace TrpcCodec

variable (pb : Protobuf) (c : TrpcCodec) (buffer : Bytes)

/-- `CodecChecker::decodeFixedHeader` (codec_checker.cc:51-73). -/
def decodeFixedHeader : Staged :=
  if buffer.length < prefixSpace then .wait
  else match TrpcFixedHeader.decode buffer with
    | none => .throws c (.envoyException "protocol invalid")
    | some h =>
      let c := { c with totalSize := h.dataFrameSize, protocolHeaderSize := h.pbHeaderSize, fixedHeader := h }
      if h.streamFrameType = .unary then .next { c with decodeStage := .decodeUnaryProtocolHeader }
      else .next { c with decodeStage := .decodeStreamFrame }

/-- `TrpcCodec::onUnaryHeader`; `none` is `false`. -/
def onUnaryHeader (headerRaw : Bytes) : Option TrpcCodec :=
  if c.messageType = .request then (pb.parseRequest headerRaw).map fun h => { c with requestHeader := h }
  else (pb.parseResponse headerRaw).map fun h => { c with responseHeader := h }

/-- `CodecChecker::decodeUnaryProtocolHeader` (codec_checker.cc:75-93). -/
def decodeUnaryProtocolHeader : Staged :=
  if buffer.length < prefixSpace + c.protocolHeaderSize then .wait
  else match onUnaryHeader pb c (copyOut prefixSpace c.protocolHeaderSize buffer) with
    | none => .throws c (.envoyException "parse header failed")
    | some c => .next { c with decodeStage := .decodePayload }

/-- `TrpcCodec::onStreamFrame`; `none` is `false`, an unknown frame type panics. -/
def onStreamFrame (headerRaw : Bytes) : Except Failure (Option TrpcCodec) :=
  match c.fixedHeader.streamFrameType with
  | .init => .ok ((pb.parseInit headerRaw).map fun m => { c with streamInitMeta := m })
  | .close => .ok ((pb.parseClose headerRaw).map fun m => { c with streamCloseMeta := m })
  | .data => .ok (some c)
  | .feedback => .ok (some c)
  | _ => .error (.panicked "not reached")

/-- `CodecChecker::decodeStreamFrame` (codec_checker.cc:95-114); `frame_size` is a
`uint32_t` difference. -/
def decodeStreamFrame : Staged :=
  if buffer.length < c.totalSize then .wait
  else
    let frameSize := (c.totalSize + 2 ^ 32 - prefixSpace) % 2 ^ 32
    match onStreamFrame pb c (copyOut prefixSpace frameSize buffer) with
    | .error e => .throws c e
    | .ok none => .throws c (.envoyException "parse header failed")
    | .ok (some c) => .next { c with decodeStage := .decodePayload }

/-- `CodecChecker::decodePayload` and `reset` (codec_checker.cc:116-129, codec_checker.h). -/
def decodePayload : Staged :=
  if buffer.length < c.totalSize then .wait
  else .done { c with originMsg := buffer.take c.totalSize, decodeStage := .decodeFixedHeader, totalSize := 0,
                      protocolHeaderSize := 0 } (buffer.drop c.totalSize)

/-- `CodecChecker::handleState`. -/
def handleState : Staged :=
  match c.decodeStage with
  | .decodeFixedHeader => decodeFixedHeader c buffer
  | .decodeUnaryProtocolHeader => decodeUnaryProtocolHeader pb c buffer
  | .decodeStreamFrame => decodeStreamFrame pb c buffer
  | .decodePayload => decodePayload c buffer

/-- The loop of `CodecChecker::onData` (codec_checker.cc:17-33). -/
def onDataLoop : Nat → TrpcCodec → Bytes → Step TrpcCodec UInt8 Unit Failure
  | 0, c, buffer => .fail c buffer (.panicked "not reached")
  | n + 1, c, buffer =>
    match handleState pb c buffer with
    | .wait => .wait c buffer
    | .throws c e => .fail c buffer e
    | .done c rest => .done c () rest
    | .next c => onDataLoop n c buffer

def onData : Step TrpcCodec UInt8 Unit Failure := onDataLoop pb 3 c buffer

/-- `TrpcCodec::toMetadata` (trpc_codec.cc:134-196). -/
def toMetadata {α : Type} (c : TrpcCodec) (md : Metadata α) : Metadata α :=
  let md := { md with headerSize := c.fixedHeader.getHeaderSize, bodySize := c.fixedHeader.getPayloadSize }
  let md :=
    match c.fixedHeader.streamFrameType with
    | .unary =>
      if c.messageType = MessageType.request then
        let h := c.requestHeader
        let md := { md with requestId := h.requestId }
        let md := ((md.putString "caller" h.caller).putString "callee" h.callee).putString "func" h.func
        let md := (md.put "call_type" (.uint32 h.callType)).put "version" (.uint32 h.version)
        let md := (md.put "content_type" (.uint32 h.contentType)).put "content_encoding"
          (.uint32 h.contentEncoding)
        md.putStrings h.transInfo
      else
        let h := c.responseHeader
        ({ md with requestId := h.requestId }.putString "error_msg" h.errorMsg).putStrings h.transInfo
    | .init =>
      let m := c.streamInitMeta.requestMeta
      let md := { md with messageType := .streamInit, streamId := c.fixedHeader.streamId }
      (((md.putString "caller" m.caller).putString "callee" m.callee).putString "func"
        m.func).putStrings m.transInfo
    | .data => { md with messageType := .streamData, streamId := c.fixedHeader.streamId }
    | .feedback => { md with messageType := .streamData, streamId := c.fixedHeader.streamId }
    | .close =>
      let t : MessageType :=
        if c.streamCloseMeta.closeType = 0 then .streamCloseOneWay else .streamCloseTwoWay
      { md with messageType := t, streamId := c.fixedHeader.streamId }
    | .unknown _ => md
  { md with originMessage := md.originMessage ++ c.originMsg }

theorem toMetadata_originMessage {α : Type} (c : TrpcCodec) (md : Metadata α) :
    (c.toMetadata md).originMessage = md.originMessage ++ c.originMsg := by
  unfold toMetadata
  cases c.fixedHeader.streamFrameType with
  | unary =>
    by_cases hr : c.messageType = .request
    · simp only [hr, if_true, Metadata.putStrings_originMessage]
      rfl
    · simp only [hr, if_false, Metadata.putStrings_originMessage]
      rfl
  | init =>
    simp only [Metadata.putStrings_originMessage]
    rfl
  | _ => rfl

/-- `TrpcCodec::decode` (trpc_codec.cc:18-33). -/
def decode {α : Type} (pb : Protobuf) (c : TrpcCodec) (buffer : Bytes) (md : Metadata α) :
    Step TrpcCodec UInt8 (Metadata α) Failure :=
  match onData pb { c with messageType := md.messageType } buffer with
  | .wait c rest => .wait c rest
  | .fail c rest e => .fail c rest e
  | .done c _ rest => .done c (toMetadata c md) rest

end TrpcCodec

/-- `TrpcCodec::encode` (trpc_codec.cc:35-54). -/
def encode {α : Type} (pb : Protobuf) (md : Metadata α) (mutation : Mutation) (buffer : Bytes) :
    Except Failure Bytes :=
  if mutation.isEmpty then .ok buffer
  else match md.messageType with
    | .request =>
      match mutateHeader pb.parseRequest pb.serializeRequest
          (fun h m => { h with transInfo := Mutation.set h.transInfo m }) buffer mutation with
      | none => .error (.envoyException "encode request failed")
      | some b => .ok b
    | .response =>
      match mutateHeader pb.parseResponse pb.serializeResponse
          (fun h m => { h with transInfo := Mutation.set h.transInfo m }) buffer mutation with
      | none => .error (.envoyException "encode response failed")
      | some b => .ok b
    | _ => .ok buffer

/-- The return code of an error reply: `TRPC_SERVER_NOSERVICE_ERR` or `TRPC_SERVER_SYSTEM_ERR`. -/
def errCode : ErrorType → Int
  | .routeNotFound => 11
  | _ => 31

/-- `TrpcCodec::onError` (trpc_codec.cc:56-95). -/
def onError {α : Type} (pb : Protobuf) (md : Metadata α) (error : Error) : Except Failure Bytes :=
  let code := errCode error.type
  if md.messageType = .streamInit then
    let h : TrpcFixedHeader :=
      { streamId := md.streamId % 2 ^ 32, dataFrameType := 1, streamFrameType := .init }
    .ok (encodeProtocol h (pb.serializeInit { responseMeta := some (code, error.message) }) [])
  else
    -- `set_request_id` takes a `uint32_t`
    let p : ResponseProtocol :=
      { requestId := md.requestId % 2 ^ 32, errorMsg := error.message, ret := code, funcRet := code }
    .ok (encodeProtocol {} (pb.serializeResponse p) [])

/-- The codec object `TrpcCodec` as the proxy sees it. -/
def trpcCodec (α : Type) (pb : Protobuf) : Codec TrpcCodec α where
  init := {}
  decode := TrpcCodec.decode pb
  encode := encode pb
  onError := onError pb

end MetaProtocolProxy.Trpc
