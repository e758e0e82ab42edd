import MetaProtocolProxy.Codec
import MetaProtocolProxy.Lib.Bytes
/-
# The Thrift library's interfaces (thrift.h, protocol.h, transport.h, metadata.h)

The codec is written against two interfaces of the Envoy library: a `Protocol` reads and writes the
parts of a message, a `Transport` the frame around it. Both keep state of their own (`π`, `τ`).
A read that returns false has left everything as it was, so it is `more` and carries nothing.

| here | there |
| --- | --- |
| `Wire` | a pair `readX` / `writeX` of `Protocol` |
| `Read.more`, `.ok`, `.throws` | false, true, an `EnvoyException` |
| `Bytes` | a `std::string` on the wire |
| `double` | the 64 bits of it |

`Resumable` and `Faithful` are what the library promises: a read behaves the same when more bytes
follow, and reads back what was written. Headers, spans and trace ids of `MessageMetadata`, which
the codec only hands on, are not modelled.
-/
namespace MetaProtocolProxy.Thrift

/-- `ThriftProxy::FieldType`; a byte on the wire may be no enumerator. -/
inductive FieldType
  | stop
  | void
  | bool
  | byte
  | double
  | i16
  | i32
  | i64
  | string
  | struct
  | map
  | set
  | list
  | other (n : Int)
  deriving DecidableEq, Repr

/-- `static_cast<int8_t>`. -/
def FieldType.toInt : FieldType → Int
  | stop => 0
  | void => 1
  | bool => 2
  | byte => 3
  | double => 4
  | i16 => 6
  | i32 => 8
  | i64 => 10
  | string => 11
  | struct => 12
  | map => 13
  | set => 14
  | list => 15
  | other n => n

inductive ProtocolType
  | binary
  | laxBinary
  | compact
  | twitter
  | auto
  deriving DecidableEq, Repr

/-- `ProtocolNames::fromType`. -/
def ProtocolType.name : ProtocolType → String
  | binary => "binary"
  | laxBinary => "binary/non-strict"
  | compact => "compact"
  | twitter => "twitter"
  | auto => "auto"

/-- `ThriftProxy::MessageType`. -/
inductive ThriftMessageType
  | call
  | reply
  | exception
  | oneway
  deriving DecidableEq, Repr

inductive AppExceptionType
  | unknown
  | unknownMethod
  | invalidMessageType
  | wrongMethodName
  | badSequenceId
  | missingResult
  | internalError
  | protocolError
  | invalidTransform
  | invalidProtocol
  | unsupportedClientType
  | loadShedding
  | timeout
  | injectedFailure
  | checksumMismatch
  | interruption
  deriving DecidableEq, Repr

/-- `static_cast<int>`. -/
def AppExceptionType.toNat : AppExceptionType → Nat
  | unknown => 0
  | unknownMethod => 1
  | invalidMessageType => 2
  | wrongMethodName => 3
  | badSequenceId => 4
  | missingResult => 5
  | internalError => 6
  | protocolError => 7
  | invalidTransform => 8
  | invalidProtocol => 9
  | unsupportedClientType => 10
  | loadShedding => 11
  | timeout => 12
  | injectedFailure => 13
  | checksumMismatch => 14
  | interruption => 15

/-- `ThriftProxy::MessageMetadata`. -/
structure MessageMetadata where
  frameSize : Option UInt32 := none
  protocol : Option ProtocolType := none
  methodName : Option Bytes := none
  sequenceId : Option Int32 := none
  messageType : Option ThriftMessageType := none
  appException : Option (AppExceptionType × String) := none
  deriving DecidableEq, Repr

/-- What a read gives: the value, the reader's new state and the bytes left. -/
inductive Read (π α : Type)
  | more
  | ok (value : α) (p : π) (rest : Bytes)
  | throws (e : Failure)

/-- A part of a message: how it is read and how it is written. -/
structure Wire (π α : Type) where
  read : π → Bytes → Read π α
  write : π → α → Bytes × π

structure FieldBegin where
  name : Bytes := []
  type : FieldType
  id : Int16 := 0
  deriving DecidableEq, Repr

/-- `ThriftProxy::Protocol`. -/
structure Protocol (π : Type) where
  type : π → ProtocolType
  setType : ProtocolType → π → π
  readMessageBegin : MessageMetadata → π → Bytes → Read π MessageMetadata
  writeMessageBegin : π → MessageMetadata → Bytes × π
  messageEnd : Wire π Unit
  structBegin : Wire π Bytes
  structEnd : Wire π Unit
  fieldBegin : Wire π FieldBegin
  fieldEnd : Wire π Unit
  mapBegin : Wire π (FieldType × FieldType × UInt32)
  mapEnd : Wire π Unit
  listBegin : Wire π (FieldType × UInt32)
  listEnd : Wire π Unit
  setBegin : Wire π (FieldType × UInt32)
  setEnd : Wire π Unit
  bool : Wire π Bool
  byte : Wire π UInt8
  int16 : Wire π Int16
  int32 : Wire π Int32
  int64 : Wire π Int64
  double : Wire π UInt64
  string : Wire π Bytes

/-- `ThriftProxy::Transport`. -/
structure Transport (τ : Type) where
  decodeFrameStart : MessageMetadata → τ → Bytes → Read τ MessageMetadata
  decodeFrameEnd : τ → Bytes → Read τ Unit
  encodeFrame : τ → MessageMetadata → Bytes → Except Failure (Bytes × τ)

/-! ## What the library promises -/

section Promises

variable {π τ α : Type}

/-- A read behaves the same when more bytes follow. -/
structure Resumable (read : π → Bytes → Read π α) : Prop where
  ok : ∀ {p p' v b rest}, read p b = .ok v p' rest → ∀ x, read p (b ++ x) = .ok v p' (rest ++ x)
  throws : ∀ {p b e}, read p b = .throws e → ∀ x, read p (b ++ x) = .throws e

structure Protocol.Resumable (P : Protocol π) : Prop where
  messageBegin : ∀ md, Thrift.Resumable (P.readMessageBegin md)
  messageEnd : Thrift.Resumable P.messageEnd.read
  structBegin : Thrift.Resumable P.structBegin.read
  structEnd : Thrift.Resumable P.structEnd.read
  fieldBegin : Thrift.Resumable P.fieldBegin.read
  fieldEnd : Thrift.Resumable P.fieldEnd.read
  mapBegin : Thrift.Resumable P.mapBegin.read
  mapEnd : Thrift.Resumable P.mapEnd.read
  listBegin : Thrift.Resumable P.listBegin.read
  listEnd : Thrift.Resumable P.listEnd.read
  setBegin : Thrift.Resumable P.setBegin.read
  setEnd : Thrift.Resumable P.setEnd.read
  bool : Thrift.Resumable P.bool.read
  byte : Thrift.Resumable P.byte.read
  int16 : Thrift.Resumable P.int16.read
  int32 : Thrift.Resumable P.int32.read
  int64 : Thrift.Resumable P.int64.read
  double : Thrift.Resumable P.double.read
  string : Thrift.Resumable P.string.read

structure Transport.Resumable (T : Transport τ) : Prop where
  frameStart : ∀ md, Thrift.Resumable (T.decodeFrameStart md)
  frameEnd : Thrift.Resumable T.decodeFrameEnd

/-- Behind what was written for `v` the read finds a value like `v` and leaves the rest; the value
found is written in the same bytes, in whatever state. -/
def Wire.ReadsBack (w : Wire π α) (like : α → α → Prop) (v : α) : Prop :=
  ∀ p q rest, ∃ v' p', w.read p ((w.write q v).1 ++ rest) = .ok v' p' rest ∧ like v v' ∧
    ∀ r, (w.write r v').1 = (w.write q v).1

def Wire.Silent (w : Wire π Unit) : Prop := ∀ p b, ∃ p', w.read p b = .ok () p' b

inductive ValueType
  | bool
  | byte
  | double
  | i16
  | i32
  | i64
  | string
  | struct
  | map
  | set
  | list
  deriving DecidableEq, Repr

def ValueType.toFieldType : ValueType → FieldType
  | bool => .bool
  | byte => .byte
  | double => .double
  | i16 => .i16
  | i32 => .i32
  | i64 => .i64
  | string => .string
  | struct => .struct
  | map => .map
  | set => .set
  | list => .list

theorem ValueType.toFieldType_ne_stop (t : ValueType) : t.toFieldType ≠ .stop := by cases t <;> decide

structure MessageHeader where
  methodName : Bytes
  messageType : ThriftMessageType
  sequenceId : Int32

def MessageHeader.metadata (h : MessageHeader) : MessageMetadata :=
  { methodName := some h.methodName, messageType := some h.messageType, sequenceId := some h.sequenceId }

/-- What a protocol can carry: how long strings, how large containers, which field ids. The count of
a container is a `uint32_t` in any case. -/
structure Limits where
  text : Nat → Prop
  size : Nat → Prop
  ids : Int16 → Prop
  size_lt : ∀ {n}, size n → n < 2 ^ 32

/-- Every read finds what the write of the same name has written. The names of structs and fields
need not be on the wire. -/
structure Protocol.Faithful (P : Protocol π) (L : Limits) : Prop where
  messageBegin : ∀ (h : MessageHeader), L.text h.methodName.length → ∀ md p q rest, ∃ md' p',
    P.readMessageBegin md p ((P.writeMessageBegin q h.metadata).1 ++ rest) = .ok md' p' rest ∧
    ∀ r, (P.writeMessageBegin r md').1 = (P.writeMessageBegin q h.metadata).1
  messageEnd : P.messageEnd.ReadsBack Eq ()
  structBegin : ∀ name, P.structBegin.ReadsBack (fun _ _ => True) name
  structEnd : P.structEnd.ReadsBack Eq () ∧ P.structEnd.Silent
  field : ∀ name (t : ValueType) id, L.ids id →
    P.fieldBegin.ReadsBack (fun f f' => f'.type = f.type ∧ f'.id = f.id) ⟨name, t.toFieldType, id⟩
  stop : P.fieldBegin.ReadsBack Eq { type := .stop }
  fieldEnd : P.fieldEnd.ReadsBack Eq () ∧ P.fieldEnd.Silent
  mapBegin : ∀ (k v : ValueType) (n : UInt32), L.size n.toNat →
    P.mapBegin.ReadsBack Eq (k.toFieldType, v.toFieldType, n)
  mapEnd : P.mapEnd.ReadsBack Eq () ∧ P.mapEnd.Silent
  listBegin : ∀ (t : ValueType) (n : UInt32), L.size n.toNat → P.listBegin.ReadsBack Eq (t.toFieldType, n)
  listEnd : P.listEnd.ReadsBack Eq () ∧ P.listEnd.Silent
  setBegin : ∀ (t : ValueType) (n : UInt32), L.size n.toNat → P.setBegin.ReadsBack Eq (t.toFieldType, n)
  setEnd : P.setEnd.ReadsBack Eq () ∧ P.setEnd.Silent
  bool : ∀ v, P.bool.ReadsBack Eq v
  byte : ∀ v, P.byte.ReadsBack Eq v
  int16 : ∀ v, P.int16.ReadsBack Eq v
  int32 : ∀ v, P.int32.ReadsBack Eq v
  int64 : ∀ v, P.int64.ReadsBack Eq v
  double : ∀ v, P.double.ReadsBack Eq v
  string : ∀ v, L.text v.length → P.string.ReadsBack Eq v

theorem Wire.Silent.write_eq_nil {w : Wire π Unit} (h : w.Silent) (hb : w.ReadsBack Eq ()) (q : π) :
    (w.write q ()).1 = [] := by
  obtain ⟨v', p', hread, -, -⟩ := hb q q []
  obtain ⟨p'', hsilent⟩ := h q ((w.write q ()).1 ++ [])
  rw [hsilent] at hread
  simpa using (Read.ok.inj hread).2.2

theorem Wire.ReadsBack.write_eq {w : Wire π α} {v : α} (h : w.ReadsBack Eq v) (q r : π) :
    (w.write r v).1 = (w.write q v).1 := by
  obtain ⟨v', p', -, rfl, hwrite⟩ := h q q []
  exact hwrite r

end Promises

end MetaProtocolProxy.Thrift
