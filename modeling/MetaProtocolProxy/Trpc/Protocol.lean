import MetaProtocolProxy.Codec
import MetaProtocolProxy.Lib.Bytes
import MetaProtocolProxy.Lib.Wire
/-
# tRPC frames (application_protocols/trpc/protocol.h, protocol.cc, trpc.proto)

A tRPC frame is a fixed header of 16 bytes, a protobuf header of `pb_header_size` bytes
and a payload; `data_frame_size` counts all three. The protobuf runtime and the code
generated from `trpc.proto` are outside the repository: `Protobuf` gives them as
functions, and the message types keep the fields the proxy reads or sets, the others
together as `others`, which a parse and a serialise carry along.
-/
namespace MetaProtocolProxy.Trpc

open Bytes

/-- `TrpcStreamFrameType` (trpc.proto), read from one byte. -/
inductive StreamFrameType
  | unary
  | init
  | data
  | feedback
  | close
  | unknown (byte : Nat)
  deriving DecidableEq, Repr

def StreamFrameType.ofByte : Nat → StreamFrameType
  | 0 => .unary
  | 1 => .init
  | 2 => .data
  | 3 => .feedback
  | 4 => .close
  | n => .unknown n

def StreamFrameType.toByte : StreamFrameType → Nat
  | .unary => 0
  | .init => 1
  | .data => 2
  | .feedback => 3
  | .close => 4
  | .unknown n => n

/-- `TRPC_PROTO_PREFIX_SPACE`. -/
def prefixSpace : Nat := 16

/-- `TRPC_MAGIC_VALUE`. -/
def magicValue : Nat := 0x930

/-- `TrpcFixedHeader`. -/
structure TrpcFixedHeader where
  magic : Nat := magicValue
  dataFrameType : Nat := 0
  streamFrameType : StreamFrameType := .unary
  dataFrameSize : Nat := 0
  pbHeaderSize : Nat := 0
  streamId : Nat := 0
  reserved : List UInt8 := [0, 0]
  deriving DecidableEq, Repr

namespace TrpcFixedHeader

/-- `TrpcFixedHeader::decode` (protocol.cc:33-71) without its drain; `none` is `false`. -/
def decode (buff : Bytes) : Option TrpcFixedHeader :=
  if buff.length < prefixSpace then none
  else if peekBE 2 0 buff ≠ magicValue then none
  else some
    { magic := peekBE 2 0 buff
      dataFrameType := peekBE 1 2 buff
      streamFrameType := .ofByte (peekBE 1 3 buff)
      dataFrameSize := peekBE 4 4 buff
      pbHeaderSize := peekBE 2 8 buff
      streamId := peekBE 4 10 buff
      reserved := copyOut 14 2 buff }

/-- `TrpcFixedHeader::encode` (protocol.cc:73-82). -/
def encode (h : TrpcFixedHeader) : Bytes :=
  writeBE 2 h.magic ++ writeBE 1 h.dataFrameType ++ writeBE 1 h.streamFrameType.toByte ++
    writeBE 4 h.dataFrameSize ++ writeBE 2 h.pbHeaderSize ++ writeBE 4 h.streamId ++ h.reserved

/-- `getHeaderSize`: fixed header and protobuf header. -/
def getHeaderSize (h : TrpcFixedHeader) : Nat := h.pbHeaderSize + prefixSpace

/-- `getPayloadSize`, a subtraction of `uint32_t`. -/
def getPayloadSize (h : TrpcFixedHeader) : Nat := (h.dataFrameSize + 2 ^ 32 - h.getHeaderSize) % 2 ^ 32

theorem decode_append {p : Bytes} (c : Bytes) (h : prefixSpace ≤ p.length) : decode (p ++ c) = decode p := by
  have h16 : 16 ≤ p.length := h
  have hlen : ¬ (p ++ c).length < prefixSpace := by simp only [List.length_append]; omega
  simp only [decode, hlen, Nat.not_lt.2 h, if_false]
  rw [peekBE_append c (by omega), peekBE_append c (by omega), peekBE_append c (by omega),
    peekBE_append c (by omega), peekBE_append c (by omega), peekBE_append c (by omega),
    copyOut_append c (by omega)]

theorem of_decode {p : Bytes} {h : TrpcFixedHeader} (hd : decode p = some h) :
    prefixSpace ≤ p.length ∧ h.magic = magicValue ∧
      h = ⟨peekBE 2 0 p, peekBE 1 2 p, .ofByte (peekBE 1 3 p), peekBE 4 4 p, peekBE 2 8 p,
        peekBE 4 10 p, copyOut 14 2 p⟩ := by
  simp only [decode] at hd
  split at hd
  · cases hd
  next hlen =>
  split at hd
  · cases hd
  next hmagic =>
  cases hd
  exact ⟨Nat.not_lt.1 hlen, not_not.1 hmagic, rfl⟩

theorem length_of_decode {p : Bytes} {h : TrpcFixedHeader} (hd : decode p = some h) :
    prefixSpace ≤ p.length := (of_decode hd).1

theorem dataFrameSize_of_decode {p : Bytes} {h : TrpcFixedHeader} (hd : decode p = some h) :
    h.dataFrameSize = peekBE 4 4 p := by
  rw [(of_decode hd).2.2]

end TrpcFixedHeader

/-- `trpc::RequestProtocol`. -/
structure RequestProtocol where
  requestId : Nat := 0
  caller : String := ""
  callee : String := ""
  func : String := ""
  callType : Nat := 0
  version : Nat := 0
  contentType : Nat := 0
  contentEncoding : Nat := 0
  transInfo : List (String × String) := []
  others : Bytes := []
  deriving DecidableEq, Repr

/-- `trpc::ResponseProtocol`. -/
structure ResponseProtocol where
  requestId : Nat := 0
  ret : Int := 0
  funcRet : Int := 0
  errorMsg : String := ""
  transInfo : List (String × String) := []
  others : Bytes := []
  deriving DecidableEq, Repr

/-- `trpc::TrpcStreamInitRequestMeta`. -/
structure StreamInitRequestMeta where
  caller : String := ""
  callee : String := ""
  func : String := ""
  transInfo : List (String × String) := []
  deriving DecidableEq, Repr

/-- `trpc::TrpcStreamInitMeta`; `responseMeta` is the pair `ret`, `error_msg`. -/
structure StreamInitMeta where
  requestMeta : StreamInitRequestMeta := {}
  responseMeta : Option (Int × String) := none
  others : Bytes := []
  deriving DecidableEq, Repr

/-- `trpc::TrpcStreamCloseMeta`; `close_type` 0 is `TRPC_STREAM_CLOSE`. -/
structure StreamCloseMeta where
  closeType : Int := 0
  others : Bytes := []
  deriving DecidableEq, Repr

/-- `ParseFromString` and `SerializeAsString` of the four message types. -/
structure Protobuf where
  parseRequest : Bytes → Option RequestProtocol
  parseResponse : Bytes → Option ResponseProtocol
  parseInit : Bytes → Option StreamInitMeta
  parseClose : Bytes → Option StreamCloseMeta
  serializeRequest : RequestProtocol → Bytes
  serializeResponse : ResponseProtocol → Bytes
  serializeInit : StreamInitMeta → Bytes

/-! ## The wire format -/

section Wire

open Wire (Field)

/-- The bytes of a `std::string`, one for each character. -/
def ofString (s : String) : Bytes := s.toList.map fun ch => UInt8.ofNat ch.toNat

def toText (b : Bytes) : String := .ofList (b.map fun byte => Char.ofNat byte.toNat)

/-- An `int32`, written in 64 bits and read in 32. -/
def toInt32 (n : Nat) : Int := if n % 2 ^ 32 < 2 ^ 31 then n % 2 ^ 32 else n % 2 ^ 32 - 2 ^ 32

def uintField (number n : Nat) : List Field := if n = 0 then [] else [⟨number, .varint n⟩]

def intField (number : Nat) (i : Int) : List Field := uintField number (i % 2 ^ 64).toNat

def bytesField (number : Nat) (b : Bytes) : List Field := if b.isEmpty then [] else [⟨number, .bytes b⟩]

/-- An entry of a map is a message of its key and its value, written whatever they are. -/
def entryField (number : Nat) (kv : String × String) : Field :=
  ⟨number, .bytes (Wire.write [⟨1, .bytes (ofString kv.1)⟩, ⟨2, .bytes (ofString kv.2)⟩])⟩

def setEntry (kv : String × String) : Field → Option (String × String)
  | ⟨1, .bytes b⟩ => some (toText b, kv.2)
  | ⟨2, .bytes b⟩ => some (kv.1, toText b)
  | _ => some kv

/-- The map with the entry read from `b`, in the place of one with its key. -/
def addEntry (kvs : List (String × String)) (b : Bytes) : Option (List (String × String)) :=
  (Wire.parse setEntry ("", "") b).map fun kv => kvs.filter (fun e => e.1 != kv.1) ++ [kv]

def setRequest (h : RequestProtocol) : Field → Option RequestProtocol
  | ⟨1, .varint n⟩ => some { h with version := n % 2 ^ 32 }
  | ⟨2, .varint n⟩ => some { h with callType := n % 2 ^ 32 }
  | ⟨3, .varint n⟩ => some { h with requestId := n % 2 ^ 32 }
  | ⟨5, .bytes b⟩ => some { h with caller := toText b }
  | ⟨6, .bytes b⟩ => some { h with callee := toText b }
  | ⟨7, .bytes b⟩ => some { h with func := toText b }
  | ⟨9, .bytes b⟩ => (addEntry h.transInfo b).map fun kvs => { h with transInfo := kvs }
  | ⟨10, .varint n⟩ => some { h with contentType := n % 2 ^ 32 }
  | ⟨11, .varint n⟩ => some { h with contentEncoding := n % 2 ^ 32 }
  | f => some { h with others := h.others ++ f.write }

def requestFields (h : RequestProtocol) : List Field :=
  uintField 1 h.version ++ uintField 2 h.callType ++ uintField 3 h.requestId ++ bytesField 5
    (ofString h.caller) ++
    bytesField 6 (ofString h.callee) ++ bytesField 7 (ofString h.func) ++ h.transInfo.map (entryField 9) ++
    uintField 10 h.contentType ++ uintField 11 h.contentEncoding

def setResponse (h : ResponseProtocol) : Field → Option ResponseProtocol
  | ⟨3, .varint n⟩ => some { h with requestId := n % 2 ^ 32 }
  | ⟨4, .varint n⟩ => some { h with ret := toInt32 n }
  | ⟨5, .varint n⟩ => some { h with funcRet := toInt32 n }
  | ⟨6, .bytes b⟩ => some { h with errorMsg := toText b }
  | ⟨8, .bytes b⟩ => (addEntry h.transInfo b).map fun kvs => { h with transInfo := kvs }
  | f => some { h with others := h.others ++ f.write }

def responseFields (h : ResponseProtocol) : List Field :=
  uintField 3 h.requestId ++ intField 4 h.ret ++ intField 5 h.funcRet ++ bytesField 6 (ofString h.errorMsg) ++
    h.transInfo.map (entryField 8)

def setRequestMeta (m : StreamInitRequestMeta) : Field → Option StreamInitRequestMeta
  | ⟨1, .bytes b⟩ => some { m with caller := toText b }
  | ⟨2, .bytes b⟩ => some { m with callee := toText b }
  | ⟨3, .bytes b⟩ => some { m with func := toText b }
  | ⟨5, .bytes b⟩ => (addEntry m.transInfo b).map fun kvs => { m with transInfo := kvs }
  | _ => some m

def requestMetaFields (m : StreamInitRequestMeta) : List Field :=
  bytesField 1 (ofString m.caller) ++ bytesField 2 (ofString m.callee) ++ bytesField 3 (ofString m.func) ++
    m.transInfo.map (entryField 5)

def setResponseMeta (m : Int × String) : Field → Option (Int × String)
  | ⟨1, .varint n⟩ => some (toInt32 n, m.2)
  | ⟨2, .bytes b⟩ => some (m.1, toText b)
  | _ => some m

def setInit (m : StreamInitMeta) : Field → Option StreamInitMeta
  | ⟨1, .bytes b⟩ => (Wire.parse setRequestMeta m.requestMeta b).map fun r => { m with requestMeta := r }
  | ⟨2, .bytes b⟩ =>
    (Wire.parse setResponseMeta (m.responseMeta.getD (0, "")) b).map fun r =>
      { m with responseMeta := some r }
  | f => some { m with others := m.others ++ f.write }

def initFields (m : StreamInitMeta) : List Field :=
  bytesField 1 (Wire.write (requestMetaFields m.requestMeta)) ++ m.responseMeta.toList.map fun r =>
    ⟨2, .bytes (Wire.write (intField 1 r.1 ++ bytesField 2 (ofString r.2)))⟩

def setClose (m : StreamCloseMeta) : Field → Option StreamCloseMeta
  | ⟨1, .varint n⟩ => some { m with closeType := toInt32 n }
  | f => some { m with others := m.others ++ f.write }

/-- Protobuf's wire format with the field numbers of `trpc.proto`; the fields the proxy does not use
are written last. -/
def wireProtobuf : Protobuf where
  parseRequest := Wire.parse setRequest {}
  parseResponse := Wire.parse setResponse {}
  parseInit := Wire.parse setInit {}
  parseClose := Wire.parse setClose {}
  serializeRequest h := Wire.write (requestFields h) ++ h.others
  serializeResponse h := Wire.write (responseFields h) ++ h.others
  serializeInit m := Wire.write (initFields m) ++ m.others

end Wire

/-- `Protocol<T>::encode` (protocol.h:153-165) for a message already serialised. -/
def encodeProtocol (h : TrpcFixedHeader) (protocolHeader body : Bytes) : Bytes :=
  let h := { h with magic := magicValue, pbHeaderSize := protocolHeader.length % 2 ^ 16 }
  let h := { h with dataFrameSize := (h.getHeaderSize + body.length) % 2 ^ 32 }
  h.encode ++ protocolHeader ++ body

/-- `Protocol<T>::decode` (protocol.h:121-146) of an object without a body yet: the fixed header,
the protobuf header, the body, and what stays in the buffer; `none` is `false`. -/
def decodeProtocol {τ : Type} (parse : Bytes → Option τ) (buff : Bytes) :
    Option (TrpcFixedHeader × τ × Bytes × Bytes) :=
  match TrpcFixedHeader.decode buff with
  | none => none
  | some h =>
    if buff.length < h.dataFrameSize then none
    else
      let rest := buff.drop prefixSpace
      -- the fixed header has been drained, the offset of `copyOut` still counts it
      match parse (copyOut prefixSpace h.pbHeaderSize rest) with
      | none => none
      | some ph =>
        let rest := rest.drop h.pbHeaderSize
        some (h, ph, rest.take h.getPayloadSize, rest.drop h.getPayloadSize)

/-- `Protocol<T>::mutateHeader` (protocol.h:176-222), for any header type `τ`; `none` is
`false`. Bytes after the frame stay in front of the rebuilt message. -/
def mutateHeader {τ : Type} (parse : Bytes → Option τ) (serialize : τ → Bytes) (set : τ → Mutation → τ)
    (buff : Bytes) (mutation : Mutation) : Option Bytes :=
  match TrpcFixedHeader.decode buff with
  | none => none
  | some h =>
    if buff.length < h.dataFrameSize then none
    else
      let rest := buff.drop prefixSpace
      match parse (copyOut 0 h.pbHeaderSize rest) with
      | none => none
      | some ph =>
        let rest := rest.drop h.pbHeaderSize
        let body := rest.take h.getPayloadSize
        let left := rest.drop h.getPayloadSize
        let raw := serialize (set ph mutation)
        let h := { h with pbHeaderSize := raw.length % 2 ^ 16 }
        let h := { h with dataFrameSize := (h.getHeaderSize + body.length) % 2 ^ 32 }
        some (left ++ h.encode ++ raw ++ body)

end MetaProtocolProxy.Trpc
