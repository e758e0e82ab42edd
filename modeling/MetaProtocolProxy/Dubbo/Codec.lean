import MetaProtocolProxy.Dubbo.Serializer
import MetaProtocolProxy.Lib.Bytes
/-
# The Dubbo decoder (dubbo_protocol_impl.cc, dubbo_codec.cc, metadata.h)

`DecoderStateMachine` reads a header, then a body. The header is taken out of the buffer
into the context's `originMessage` as soon as it is valid, so a machine that waits for the
body has already consumed 16 bytes; a heartbeat is taken whole. `DubboCodec::decode` starts
a machine when it has none, drives it, and turns what it found into a `Metadata`.

A machine makes at most two steps, so `run` has fuel 2 and never exhausts it
(`runLoop_stable`). A codec whose `decode` throws keeps its machine (`complete` is not
reached); the proxy closes the connection then and does not call it again.
-/
namespace MetaProtocolProxy.Dubbo

open Bytes
open Framing (Step)

/-- `Dubbo::MessageType` (message.h). -/
inductive DubboMessageType
  | response
  | request
  | oneway
  | exception
  | heartbeatRequest
  | heartbeatResponse
  deriving DecidableEq, Repr

/-- `Dubbo::ResponseStatus` (message.h). -/
inductive DubboResponseStatus
  | ok
  | clientTimeout
  | serverTimeout
  | badRequest
  | badResponse
  | serviceNotFound
  | serviceError
  | serverError
  | clientError
  | serverThreadpoolExhaustedError
  deriving DecidableEq, Repr

def DubboResponseStatus.ofByte : Nat → Option DubboResponseStatus
  | 20 => some .ok
  | 30 => some .clientTimeout
  | 31 => some .serverTimeout
  | 40 => some .badRequest
  | 50 => some .badResponse
  | 60 => some .serviceNotFound
  | 70 => some .serviceError
  | 80 => some .serverError
  | 90 => some .clientError
  | 100 => some .serverThreadpoolExhaustedError
  | _ => none

/-- `isValidResponseStatus`: every enumerator but `ServerError`. -/
def isValidResponseStatus : DubboResponseStatus → Bool
  | .serverError => false
  | _ => true

inductive ProtocolType
  | dubbo
  deriving DecidableEq, Repr

inductive SerializationType
  | hessian2
  deriving DecidableEq, Repr

/-- `isValidSerializationType` of the flag's serialization bits. -/
def SerializationType.ofBits : Nat → Option SerializationType
  | 2 => some .hessian2
  | _ => none

/-- `MessageMetadata` (metadata.h). `requestId` is the 64 bits of the `int64_t`, which is
also what `setRequestId(uint64_t)` makes of it. -/
structure MessageMetadata where
  isTwoWay : Bool := false
  messageType : DubboMessageType := .request
  protocolType : ProtocolType := .dubbo
  responseStatus : Option DubboResponseStatus := none
  timeout : Option Nat := none
  invocationInfo : Option RpcInvocation := none
  rpcResultInfo : Option RpcResult := none
  serializationType : SerializationType := .hessian2
  protocolVersion : Nat := 1
  requestId : Nat := 0

/-- What the codec stores in a `Metadata` besides strings and booleans. -/
inductive DubboAny
  | invocationInfo (invo : Option RpcInvocation)
  | protocolType (t : ProtocolType)
  | protocolVersion (v : Nat)
  | messageType (t : DubboMessageType)
  | timeout (t : Option Nat)
  | serializationType (t : SerializationType)
  | responseStatus (s : DubboResponseStatus)
  | rpcResultInfo (r : RpcResult)

def magicNumber : Nat := 0xdabb

/-- `DubboProtocolImpl::MessageSize`: the length of a header. -/
def messageSize : Nat := 16

/-- `DubboProtocolImpl::MaxBodySize`. -/
def maxBodySize : Nat := 16 * 1024 * 1024

/-- `(flag & mask) == mask`. -/
def hasMask (flag mask : UInt8) : Bool := flag &&& mask == mask

def messageTypeMask : UInt8 := 0x80
def twoWayMask : UInt8 := 0x40
def eventMask : UInt8 := 0x20
def serializationTypeMask : UInt8 := 0x1f

def flagOffset : Nat := 2
def statusOffset : Nat := 3
def requestIDOffset : Nat := 4
def bodySizeOffset : Nat := 12

/-- `peekInt<uint8_t>`. -/
def peekByte (pos : Nat) (buffer : Bytes) : UInt8 := buffer.getD pos 0

/-- The number a 32-bit word is as an `int32_t`. -/
def int32 (n : Nat) : Int := if n < 2 ^ 31 then n else (n : Int) - 2 ^ 32

/-- `parseRequestInfoFromBuffer`. -/
def parseRequestInfoFromBuffer (buffer : Bytes) (md : MessageMetadata) :
    MessageMetadata × Except Failure Unit :=
  let flag := peekByte flagOffset buffer
  let bits := (flag &&& serializationTypeMask).toNat
  match SerializationType.ofBits bits with
  | none => (md, .error (.envoyException s!"invalid dubbo message serialization type {bits}"))
  | some type =>
    let md :=
      if !hasMask flag twoWayMask && md.messageType != .heartbeatRequest then
        { md with messageType := .oneway }
      else md
    ({ md with serializationType := type }, .ok ())

/-- `parseResponseInfoFromBuffer`. -/
def parseResponseInfoFromBuffer (buffer : Bytes) (md : MessageMetadata) :
    MessageMetadata × Except Failure Unit :=
  let byte := (peekByte statusOffset buffer).toNat
  match (DubboResponseStatus.ofByte byte).filter isValidResponseStatus with
  | none => (md, .error (.envoyException s!"invalid dubbo message response status {byte}"))
  | some status => ({ md with responseStatus := some status }, .ok ())

/-- `DubboProtocolImpl::decodeHeader` (dubbo_protocol_impl.cc:87-136); `none` asks for more
data. -/
def decodeHeader (buffer : Bytes) (md : MessageMetadata) :
    MessageMetadata × Except Failure (Option Context) :=
  if buffer.length < messageSize then (md, .ok none)
  else
    let magic := peekBE 2 0 buffer
    if magic ≠ magicNumber then (md, .error (.envoyException s!"invalid dubbo message magic number {magic}"))
    else
      let flag := peekByte flagOffset buffer
      let isEvent := hasMask flag eventMask
      let bodySize := int32 (peekBE 4 bodySizeOffset buffer)
      if bodySize > maxBodySize ∨ bodySize < 0 then
        (md, .error (.envoyException s!"invalid dubbo message size {bodySize}"))
      else
        let md := { md with requestId := peekBE 8 requestIDOffset buffer }
        let parsed :=
          if hasMask flag messageTypeMask then
            parseRequestInfoFromBuffer buffer
              { md with messageType := if isEvent then .heartbeatRequest else .request }
          else
            parseResponseInfoFromBuffer buffer
              { md with messageType := if isEvent then .heartbeatResponse else .response }
        match parsed with
        | (md, .error e) => (md, .error e)
        | (md, .ok ()) =>
          (md, .ok (some { headerSize := messageSize, bodySize := bodySize.toNat, isHeartbeat := isEvent }))

/-- `DubboProtocolImpl::decodeData` (dubbo_protocol_impl.cc:138-177); `none` asks for more
data. -/
def decodeData (hs : Hessian2) (buffer : Bytes) (context : Context) (md : MessageMetadata) :
    Except Failure (Option MessageMetadata) :=
  if buffer.length < context.bodySize then .ok none
  else match md.messageType with
    | .oneway | .request => do
      let invo ← deserializeRpcInvocation hs buffer context
      return some { md with invocationInfo := some invo }
    | .response =>
      -- the body of another status has no response type
      if md.responseStatus ≠ some .ok then .ok (some { md with messageType := .exception })
      else do
        let result ← deserializeRpcResult hs buffer context
        let md := { md with rpcResultInfo := some result }
        return some (if result.hasException then { md with messageType := .exception } else md)
    | _ => .error (.panicked "not handled")

/-- `ProtocolState`, the states a machine can be in. -/
inductive ProtocolState
  | onDecodeStreamHeader
  | onDecodeStreamData
  | done
  deriving DecidableEq, Repr

/-- `DecoderStateMachine`. -/
structure DecoderStateMachine where
  state : ProtocolState := .onDecodeStreamHeader
  metadata : MessageMetadata := {}
  context : Context := {}

/-- What one state's handler answers. -/
inductive Handled
  | waitForData (m : DecoderStateMachine)
  | next (m : DecoderStateMachine) (rest : Bytes)
  | throws (m : DecoderStateMachine) (e : Failure)

/-- `Buffer::move(buffer, n)` into the context's `originMessage`. -/
def Context.moveIn (context : Context) (buffer : Bytes) (n : Nat) : Context :=
  { context with originMessage := context.originMessage ++ buffer.take n }

namespace DecoderStateMachine

variable (hs : Hessian2) (m : DecoderStateMachine) (buffer : Bytes)

/-- `DecoderStateMachine::onDecodeStreamHeader` (dubbo_codec.cc:328-351). -/
def onDecodeStreamHeader : Handled :=
  match decodeHeader buffer m.metadata with
  | (md, .error e) => .throws { m with metadata := md } e
  | (md, .ok none) => .waitForData { m with metadata := md }
  | (md, .ok (some context)) =>
    let m := { m with metadata := md, context := context }
    if md.messageType = .heartbeatRequest ∨ md.messageType = .heartbeatResponse then
      let size := context.headerSize + context.bodySize
      if buffer.length < size then .waitForData m
      else .next { m with context := context.moveIn buffer size, state := .done } (buffer.drop size)
    else
      .next { m with context := context.moveIn buffer context.headerSize, state := .onDecodeStreamData }
        (buffer.drop context.headerSize)

/-- `DecoderStateMachine::onDecodeStreamData` (dubbo_codec.cc:353-364). -/
def onDecodeStreamData : Handled :=
  match decodeData hs buffer m.context m.metadata with
  | .error e => .throws m e
  | .ok none => .waitForData m
  | .ok (some md) =>
    .next { m with metadata := md, context := m.context.moveIn buffer m.context.bodySize, state := .done }
      (buffer.drop m.context.bodySize)

/-- `DecoderStateMachine::handleState`. -/
def handleState : Handled :=
  match m.state with
  | .onDecodeStreamHeader => onDecodeStreamHeader m buffer
  | .onDecodeStreamData => onDecodeStreamData hs m buffer
  | .done => .throws m (.panicked "not reached")

/-- The loop of `DecoderStateMachine::run` (dubbo_codec.cc:377-391). -/
def runLoop : Nat → DecoderStateMachine → Bytes → Step DecoderStateMachine UInt8 Unit Failure
  | n, m, buffer =>
    if m.state = .done then .done m () buffer
    else match n with
      | 0 => .fail m buffer (.panicked "not reached")
      | n + 1 =>
        match handleState hs m buffer with
        | .waitForData m => .wait m buffer
        | .throws m e => .fail m buffer e
        | .next m rest => runLoop n m rest

def run : Step DecoderStateMachine UInt8 Unit Failure := runLoop hs 2 m buffer

/-- How many steps a machine in a state is from `Done`, at most. -/
def stepsLeft : ProtocolState → Nat
  | .onDecodeStreamHeader => 2
  | .onDecodeStreamData => 1
  | .done => 0

theorem handleState_stepsLeft {m m' : DecoderStateMachine} {buffer rest : Bytes}
    (h : handleState hs m buffer = .next m' rest) : stepsLeft m'.state < stepsLeft m.state := by
  unfold handleState at h
  cases hm : m.state with
  | onDecodeStreamHeader =>
    simp only [hm, onDecodeStreamHeader] at h
    split at h
    · cases h
    · cases h
    · split at h
      · -- a heartbeat is taken whole
        split at h
        · cases h
        · cases h
          exact Nat.two_pos
      · cases h
        exact Nat.one_lt_two
  | onDecodeStreamData =>
    simp only [hm, onDecodeStreamData] at h
    split at h
    · cases h
    · cases h
    · cases h
      exact Nat.one_pos
  | done =>
    simp only [hm] at h
    cases h

theorem runLoop_stable {n : Nat} {m : DecoderStateMachine} (h : stepsLeft m.state ≤ n) (buffer : Bytes) :
    runLoop hs (n + 1) m buffer = runLoop hs n m buffer := by
  induction n generalizing m buffer with
  | zero =>
    have hd : m.state = .done := by cases hm : m.state <;> simp [hm, stepsLeft] at h ⊢
    unfold runLoop
    simp only [hd, if_true]
  | succ n ih =>
    unfold runLoop
    split
    · rfl
    · cases hh : handleState hs m buffer with
      | waitForData m' => rfl
      | throws m' e => rfl
      | next m' rest =>
        have := handleState_stepsLeft hs hh
        exact ih (by omega) rest

end DecoderStateMachine

def DubboMessageType.toMessageType : DubboMessageType → MessageType
  | .request => .request
  | .response => .response
  | .oneway => .oneway
  | .exception => .error
  | .heartbeatRequest | .heartbeatResponse => .heartbeat

/-- The invocation's part of `DubboCodec::toMetadata`. -/
def putInvocation (md : Metadata DubboAny) (invo : RpcInvocation) : Metadata DubboAny :=
  let md := (md.putString "interface" invo.serviceName).putString "method" invo.methodName
  let md := { md with operationName := invo.serviceName ++ "/" ++ invo.methodName }
  md.putStrings ((invo.attachment.map Attachment.strings).getD [])

/-- The properties every message gets, then `ResponseStatus`. -/
def putMessage (md : Metadata DubboAny) (msg : MessageMetadata) : Metadata DubboAny :=
  let md := md.put "InvocationInfo" (.other (.invocationInfo msg.invocationInfo))
  let md := md.put "ProtocolType" (.other (.protocolType msg.protocolType))
  let md := md.put "ProtocolVersion" (.other (.protocolVersion msg.protocolVersion))
  let md := md.put "MessageType" (.other (.messageType msg.messageType))
  let md := { md with requestId := msg.requestId }
  let md := if msg.timeout.isSome then md.put "Timeout" (.other (.timeout msg.timeout)) else md
  let md := md.put "TwoWay" (.bool msg.isTwoWay)
  let md := md.put "SerializationType" (.other (.serializationType msg.serializationType))
  match msg.responseStatus with
  | some status => md.put "ResponseStatus" (.other (.responseStatus status))
  | none => md

/-- The result's part of `DubboCodec::toMetadata`: `attachment_` is taken without asking
whether it is null. -/
def putResult (md : Metadata DubboAny) (result : RpcResult) : Except Failure (Metadata DubboAny) :=
  match result.attachment with
  | none => .error (.nullDereference "attachment_")
  | some attachment =>
    .ok ((md.putStrings attachment.strings).put "RpcResultInfo" (.other (.rpcResultInfo result)))

/-- `DubboCodec::toMetadata` (dubbo_codec.cc:157-239). -/
def toMetadata (hs : Hessian2) (msg : MessageMetadata) (context : Context) (md : Metadata DubboAny) :
    Except Failure (Metadata DubboAny) := do
  let invo ← match msg.invocationInfo with
    | some invo => (invo.assignAttachmentIfNeed hs context.originMessage).map some
    | none => .ok none
  let md := match invo with
    | some invo => putInvocation md invo
    | none => md
  let md := putMessage md { msg with invocationInfo := invo }
  let md ← match msg.rpcResultInfo with
    | some result => putResult md result
    | none => .ok md
  let md := { md with messageType := msg.messageType.toMessageType }
  let md : Metadata DubboAny := match msg.responseStatus with
    | some status => { md with responseStatus := if status = .ok then .ok else .error }
    | none => md
  return { md with headerSize := context.headerSize, bodySize := context.bodySize,
                   originMessage := md.originMessage ++ context.originMessage }

theorem putMessage_originMessage (md : Metadata DubboAny) (msg : MessageMetadata) :
    (putMessage md msg).originMessage = md.originMessage := by
  unfold putMessage
  cases msg.timeout <;> cases msg.responseStatus <;> rfl

theorem toMetadata_result (hs : Hessian2) {msg : MessageMetadata} {result : RpcResult} (context : Context)
    (md : Metadata DubboAny) (hi : msg.invocationInfo = none) (hr : msg.rpcResultInfo = some result) :
    (result.attachment = none → toMetadata hs msg context md = .error (.nullDereference "attachment_")) ∧
    (∀ a, result.attachment = some a → ∃ md', toMetadata hs msg context md = .ok md' ∧
      md'.originMessage = md.originMessage ++ context.originMessage ∧
      md'.messageType = msg.messageType.toMessageType) := by
  constructor
  · intro ha
    simp [toMetadata, hi, hr, putResult, ha, bind, Except.bind]
  · intro a ha
    have horigin : ∀ msg' kvs, ((putMessage md msg').putStrings kvs).originMessage = md.originMessage := by
      intro msg' kvs
      rw [Metadata.putStrings_originMessage, putMessage_originMessage]
    cases hst : msg.responseStatus with
    | none => simp [toMetadata, hi, hr, putResult, ha, hst, horigin, bind, Except.bind, pure, Except.pure]
    | some status =>
      simp [toMetadata, hi, hr, putResult, ha, hst, horigin, bind, Except.bind, pure, Except.pure]

/-- `DubboCodec`: `decode_started_` says whether there is a machine. -/
structure DubboCodec where
  stateMachine : Option DecoderStateMachine := none

/-- `DubboCodec::decode` (dubbo_codec.cc:19-43). -/
def DubboCodec.decode (hs : Hessian2) (c : DubboCodec) (buffer : Bytes) (md : Metadata DubboAny) :
    Step DubboCodec UInt8 (Metadata DubboAny) Failure :=
  match (c.stateMachine.getD {}).run hs buffer with
  | .wait m rest => .wait ⟨some m⟩ rest
  | .fail m rest e => .fail ⟨some m⟩ rest e
  | .done m _ rest =>
    match toMetadata hs m.metadata m.context md with
    | .error e => .fail ⟨some m⟩ rest e
    | .ok md => .done {} md rest

end MetaProtocolProxy.Dubbo
