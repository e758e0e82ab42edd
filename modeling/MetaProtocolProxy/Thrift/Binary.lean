import MetaProtocolProxy.Lib.Reader
import MetaProtocolProxy.Thrift.Protocol
/-
# The strict binary protocol and the framed transport

A reference implementation of the library's interfaces, without state of its own: big-endian
numbers, strings behind their length, containers behind the types and the number of their
elements. Names of structs and fields are not on the wire. Like the library's it refuses negative
sizes and field ids, so it is faithful up to `binaryLimits`.

Each read is a `Reading.Reader` whose value may be an error; that it behaves the same when more
bytes follow is locality of the reader.
-/
namespace MetaProtocolProxy.Thrift

open Reading (Reader)
open Reading.Reader
open Bytes (ofBE writeBE)

variable {α : Type}

/-- A read: it asks for more bytes until its reader finds a value or an error. -/
def scan (r : Reader UInt8 (Except Failure α)) (p : Unit) (b : Bytes) : Read Unit α :=
  match r b with
  | none => .more
  | some (.ok v, n) => .ok v p (b.drop n)
  | some (.error e, _) => .throws e

variable {r : Reader UInt8 (Except Failure α)}

theorem resumable_scan (h : r.Local) : Resumable (scan r) where
  ok := by
    intro p p' v b rest hb x
    unfold scan at hb ⊢
    split at hb
    · cases hb
    · rename_i n hr
      obtain ⟨hx, hn⟩ := (h b x _ n).1 hr
      cases hb
      rw [hx, ← List.drop_append_of_le_length hn]
    · cases hb
  throws := by
    intro p b e hb x
    unfold scan at hb ⊢
    split at hb
    · cases hb
    · cases hb
    · rename_i n hr
      cases hb
      rw [((h b x _ n).1 hr).1]

theorem scan_reads {a : Bytes} {v : α} (h : Reads r a (.ok v)) (p : Unit)
    (rest : Bytes) : scan r p (a ++ rest) = .ok v p rest := by
  rw [scan, h rest]
  simp only [List.drop_left]

/-- A wire part without state. -/
def plain (r : Reader UInt8 (Except Failure α)) (write : α → Bytes) : Wire Unit α where
  read := scan r
  write := fun p v => (write v, p)

theorem readsBack_plain {write : α → Bytes} {like : α → α → Prop} {v v' : α}
    (h : Reads r (write v) (.ok v')) (hlike : like v v') (hwrite : write v' = write v) :
    (plain r write).ReadsBack like v := by
  intro p q rest
  exact ⟨v', p, scan_reads h p rest, hlike, fun _ => hwrite⟩

def FieldType.ofByte (b : UInt8) : FieldType :=
  match b.toNat with
  | 0 => .stop
  | 1 => .void
  | 2 => .bool
  | 3 => .byte
  | 4 => .double
  | 6 => .i16
  | 8 => .i32
  | 10 => .i64
  | 11 => .string
  | 12 => .struct
  | 13 => .map
  | 14 => .set
  | 15 => .list
  | n => .other n

def FieldType.toByte (t : FieldType) : UInt8 := UInt8.ofInt t.toInt

/-! ## The parts -/

namespace Binary

def nothing (v : α) : Reader UInt8 (Except Failure α) := pure (.ok v)

/-- A number of `width` bytes. -/
def number (width : Nat) (decode : Nat → α) : Reader UInt8 (Except Failure α) :=
  (take width).bind fun b => pure (.ok (decode (ofBE b)))

/-- A length or a count, `what` it is of; a negative one is refused. -/
def counted (what : String) (n : Nat) (next : Reader UInt8 (Except Failure α)) :
    Reader UInt8 (Except Failure α) :=
  if n < 2 ^ 31 then next
  else pure (.error (.envoyException s!"negative binary protocol {what} {(n : Int) - 2 ^ 32}"))

def string : Reader UInt8 (Except Failure Bytes) :=
  (take 4).bind fun b => counted "string/binary length" (ofBE b) <|
    (take (ofBE b)).bind fun text => pure (.ok text)

def sequence : Reader UInt8 (Except Failure (FieldType × UInt32)) :=
  (take 1).bind fun t => (take 4).bind fun n => counted "list/set size" (ofBE n) <|
    pure (.ok (.ofByte (t.headD 0), UInt32.ofNat (ofBE n)))

def map : Reader UInt8 (Except Failure (FieldType × FieldType × UInt32)) :=
  (take 1).bind fun k => (take 1).bind fun v => (take 4).bind fun n => counted "map size" (ofBE n) <|
    pure (.ok (.ofByte (k.headD 0), .ofByte (v.headD 0), UInt32.ofNat (ofBE n)))

def field : Reader UInt8 (Except Failure FieldBegin) :=
  (take 1).bind fun t =>
    if t.headD 0 = 0 then pure (.ok { type := .stop })
    else (take 2).bind fun id =>
      if ofBE id < 2 ^ 15 then pure
        (.ok { type := .ofByte (t.headD 0), id := (UInt16.ofNat (ofBE id)).toInt16 })
      else pure (.error (.envoyException s!"invalid binary protocol field id {(ofBE id : Int) - 2 ^ 16}"))

def messageType (b : UInt8) : Option ThriftMessageType :=
  match b.toNat with
  | 1 => some .call
  | 2 => some .reply
  | 3 => some .exception
  | 4 => some .oneway
  | _ => none

def messageTypeByte : ThriftMessageType → UInt8
  | .call => 1
  | .reply => 2
  | .exception => 3
  | .oneway => 4

/-- The twelve bytes a header has at least are looked at together; the name is as long as the second
four of them say. -/
def messageBegin (md : MessageMetadata) : Reader UInt8 (Except Failure MessageMetadata) :=
  (take 12).bind fun h =>
    if ofBE (h.take 2) ≠ 0x8001 then
      pure (.error (.envoyException s!"invalid binary protocol version {ofBE (h.take 2)}"))
    else
      match messageType (h.getD 3 0) with
      | none => pure (.error (.envoyException s!"invalid binary protocol message type {h.getD 3 0}"))
      | some type =>
        (take (ofBE ((h.drop 4).take 4))).bind fun tail =>
          pure (.ok { md with
            methodName := some ((h.drop 8 ++ tail).take (ofBE ((h.drop 4).take 4)))
            messageType := some type
            sequenceId :=
              some (UInt32.ofNat (ofBE ((h.drop 8 ++ tail).drop (ofBE ((h.drop 4).take 4))))).toInt32 })

def writeString (text : Bytes) : Bytes := writeBE 4 text.length ++ text

def writeMessageBegin (md : MessageMetadata) : Bytes :=
  [0x80, 0x01, 0x00, messageTypeByte (md.messageType.getD .call)] ++
    writeBE 4 (md.methodName.getD []).length ++
    ((md.methodName.getD []) ++ writeBE 4 (md.sequenceId.getD 0).toUInt32.toNat)

def writeField (f : FieldBegin) : Bytes :=
  if f.type = .stop then [0] else f.type.toByte :: writeBE 2 f.id.toUInt16.toNat

def writeSequence (v : FieldType × UInt32) : Bytes := v.1.toByte :: writeBE 4 v.2.toNat

def writeMap (v : FieldType × FieldType × UInt32) : Bytes :=
  v.1.toByte :: v.2.1.toByte :: writeBE 4 v.2.2.toNat

end Binary

/-- `BinaryProtocolImpl`. -/
def binary : Protocol Unit where
  type := fun _ => .binary
  setType := fun _ p => p
  readMessageBegin := fun md => scan (Binary.messageBegin md)
  writeMessageBegin := fun p md => (Binary.writeMessageBegin md, p)
  messageEnd := plain (Binary.nothing ()) fun _ => []
  structBegin := plain (Binary.nothing []) fun _ => []
  structEnd := plain (Binary.nothing ()) fun _ => []
  fieldBegin := plain Binary.field Binary.writeField
  fieldEnd := plain (Binary.nothing ()) fun _ => []
  mapBegin := plain Binary.map Binary.writeMap
  mapEnd := plain (Binary.nothing ()) fun _ => []
  listBegin := plain Binary.sequence Binary.writeSequence
  listEnd := plain (Binary.nothing ()) fun _ => []
  setBegin := plain Binary.sequence Binary.writeSequence
  setEnd := plain (Binary.nothing ()) fun _ => []
  bool := plain (Binary.number 1 fun n => n != 0) fun v => writeBE 1 v.toNat
  byte := plain (Binary.number 1 UInt8.ofNat) fun v => writeBE 1 v.toNat
  int16 := plain (Binary.number 2 fun n => (UInt16.ofNat n).toInt16) fun v => writeBE 2 v.toUInt16.toNat
  int32 := plain (Binary.number 4 fun n => (UInt32.ofNat n).toInt32) fun v => writeBE 4 v.toUInt32.toNat
  int64 := plain (Binary.number 8 fun n => (UInt64.ofNat n).toInt64) fun v => writeBE 8 v.toUInt64.toNat
  double := plain (Binary.number 8 UInt64.ofNat) fun v => writeBE 8 v.toNat
  string := plain Binary.string Binary.writeString

def binaryLimits : Limits := ⟨(· < 2 ^ 31), (· < 2 ^ 31), (0 ≤ ·), fun h => Nat.lt_trans h (by decide)⟩

/-- `FramedTransportImpl`, its frames of at most 16384000 bytes. -/
def framed : Transport Unit where
  decodeFrameStart := fun md => scan <| (take 4).bind fun b =>
    if 0 < ofBE b ∧ ofBE b ≤ 0xfa0000 then pure (.ok { md with frameSize := some (UInt32.ofNat (ofBE b)) })
    else pure (.error (.envoyException
      s!"invalid thrift framed transport frame size {(UInt32.ofNat (ofBE b)).toInt32}"))
  decodeFrameEnd := scan (Binary.nothing ())
  encodeFrame := fun p _ message =>
    if 0 < message.length ∧ message.length ≤ 0xfa0000 then .ok (writeBE 4 message.length ++ message, p)
    else .error (.envoyException s!"invalid thrift framed transport frame size {message.length}")

/-! ## It keeps the promises -/

section Promises

open Binary

theorem local_counted {r : Reader UInt8 (Except Failure α)} (what : String) (n : Nat) (h : r.Local) :
    (counted what n r).Local := by
  unfold counted
  split
  · exact h
  · exact local_pure _

theorem local_nothing (v : α) : (nothing v).Local := local_pure _

theorem resumable_nothing (v : α) (write : α → Bytes) : Resumable (plain (nothing v) write).read :=
  resumable_scan (local_nothing v)

theorem resumable_number (width : Nat) (decode : Nat → α) (write : α → Bytes) :
    Resumable (plain (number width decode) write).read :=
  resumable_scan (local_bind (local_take _) fun _ => local_pure _)

theorem resumable_sequence : Resumable (plain sequence writeSequence).read :=
  resumable_scan <| local_bind (local_take _) fun _ => local_bind (local_take _) fun _ =>
    local_counted _ _ (local_pure _)

theorem local_field : Binary.field.Local := by
  refine local_bind (local_take _) fun t => ?_
  split
  · exact local_pure _
  · refine local_bind (local_take _) fun id => ?_
    split
    · exact local_pure _
    · exact local_pure _

theorem local_messageBegin (md : MessageMetadata) : (messageBegin md).Local := by
  refine local_bind (local_take _) fun h => ?_
  split
  · exact local_pure _
  · split
    · exact local_pure _
    · exact local_bind (local_take _) fun _ => local_pure _

theorem resumable_binary : binary.Resumable where
  messageBegin := fun md => resumable_scan (local_messageBegin md)
  messageEnd := resumable_nothing _ _
  structBegin := resumable_nothing _ _
  structEnd := resumable_nothing _ _
  fieldBegin := resumable_scan local_field
  fieldEnd := resumable_nothing _ _
  mapBegin := resumable_scan <| local_bind (local_take _) fun _ => local_bind (local_take _) fun _ =>
    local_bind (local_take _) fun _ => local_counted _ _ (local_pure _)
  mapEnd := resumable_nothing _ _
  listBegin := resumable_sequence
  listEnd := resumable_nothing _ _
  setBegin := resumable_sequence
  setEnd := resumable_nothing _ _
  bool := resumable_number _ _ _
  byte := resumable_number _ _ _
  int16 := resumable_number _ _ _
  int32 := resumable_number _ _ _
  int64 := resumable_number _ _ _
  double := resumable_number _ _ _
  string := resumable_scan <| local_bind (local_take _) fun _ =>
    local_counted _ _ (local_bind (local_take _) fun _ => local_pure _)

theorem resumable_framed : framed.Resumable where
  frameStart := by
    intro md
    refine resumable_scan (local_bind (local_take _) fun b => ?_)
    split
    · exact local_pure _
    · exact local_pure _
  frameEnd := resumable_scan (local_nothing ())

theorem ofBE_writeBE_of_lt {width n : Nat} (h : n < 256 ^ width) : ofBE (writeBE width n) = n := by
  rw [Bytes.ofBE_writeBE, Nat.mod_eq_of_lt h]

theorem reads_number {width n : Nat} (decode : Nat → α) (h : n < 256 ^ width) :
    Reads (number width decode) (writeBE width n) (.ok (decode n)) := by
  refine (reads_take (Bytes.length_writeBE width n)).bind_nil ?_
  rw [ofBE_writeBE_of_lt h]
  exact reads_pure _

theorem ofByte_toByte (t : ValueType) : FieldType.ofByte t.toFieldType.toByte = t.toFieldType := by
  cases t <;> rfl

theorem readsBack_nothing (v w : α) (like : α → α → Prop) (h : like w v) :
    (plain (nothing v) fun _ => []).ReadsBack like w := readsBack_plain (reads_pure _) h rfl

theorem readsBack_number {width : Nat} {decode : Nat → α} {encode : α → Nat} {v : α}
    (h : encode v < 256 ^ width) (hv : decode (encode v) = v) :
    (plain (number width decode) fun v => writeBE width (encode v)).ReadsBack Eq v := by
  have hr := reads_number decode h
  rw [hv] at hr
  exact readsBack_plain hr rfl rfl

theorem reads_counted {r : Reader UInt8 (Except Failure α)} {what : String} {n : Nat}
    (hn : n < 2 ^ 31) {a : Bytes}
    {v : Except Failure α} (h : Reads r a v) : Reads (counted what n r) a v := by
  rw [counted, if_pos hn]
  exact h

theorem reads_string {text : Bytes} (h : text.length < 2 ^ 31) :
    Reads Binary.string (writeString text) (.ok text) := by
  refine (reads_take (Bytes.length_writeBE 4 text.length)).bind ?_
  rw [ofBE_writeBE_of_lt (by omega)]
  exact reads_counted h ((reads_take rfl).bind_nil (reads_pure _))

theorem reads_sequence (t : ValueType) {n : UInt32} (h : n.toNat < 2 ^ 31) :
    Reads sequence (writeSequence (t.toFieldType, n)) (.ok (t.toFieldType, n)) := by
  refine (reads_take (a := [t.toFieldType.toByte]) rfl).bind ?_
  refine (reads_take (Bytes.length_writeBE 4 n.toNat)).bind_nil ?_
  rw [ofBE_writeBE_of_lt n.toNat_lt, UInt32.ofNat_toNat, List.headD_cons, ofByte_toByte]
  exact reads_counted h (reads_pure _)

theorem reads_map (k v : ValueType) {n : UInt32} (h : n.toNat < 2 ^ 31) :
    Reads Binary.map (writeMap (k.toFieldType, v.toFieldType, n))
      (.ok (k.toFieldType, v.toFieldType, n)) := by
  refine (reads_take (a := [k.toFieldType.toByte]) rfl).bind ?_
  refine (reads_take (a := [v.toFieldType.toByte]) rfl).bind ?_
  refine (reads_take (Bytes.length_writeBE 4 n.toNat)).bind_nil ?_
  rw [ofBE_writeBE_of_lt n.toNat_lt, UInt32.ofNat_toNat, List.headD_cons, List.headD_cons,
    ofByte_toByte, ofByte_toByte]
  exact reads_counted h (reads_pure _)

theorem reads_field (name : Bytes) (t : ValueType) {id : Int16} (h : 0 ≤ id) :
    Reads Binary.field (writeField ⟨name, t.toFieldType, id⟩) (.ok ⟨[], t.toFieldType, id⟩) := by
  have hbyte : t.toFieldType.toByte ≠ 0 := by cases t <;> decide
  have hid : id.toUInt16.toNat < 2 ^ 15 := by
    have hle : (0 : Int) ≤ id.toInt := Int16.le_iff_toInt_le.1 h
    rw [Int16.toInt, BitVec.toInt_eq_toNat_cond] at hle
    change id.toBitVec.toNat < 2 ^ 15
    have := id.toBitVec.isLt
    split at hle <;> omega
  rw [writeField, if_neg t.toFieldType_ne_stop]
  refine (reads_take (a := [t.toFieldType.toByte]) rfl).bind ?_
  rw [List.headD_cons, if_neg hbyte, ofByte_toByte]
  refine (reads_take (Bytes.length_writeBE 2 id.toUInt16.toNat)).bind_nil ?_
  rw [ofBE_writeBE_of_lt id.toUInt16.toNat_lt, if_pos hid, UInt16.ofNat_toNat]
  exact reads_pure _

theorem messageType_byte (t : ThriftMessageType) : messageType (messageTypeByte t) = some t := by
  cases t <;> rfl

/-- A header whose first twelve bytes are `hd`; name and sequence id are the last four of them and
`tail`. -/
theorem reads_header {hd tail name seq w : Bytes} {t : ThriftMessageType} (md : MessageMetadata)
    (hlen : hd.length = 12)
    (hversion : ofBE (hd.take 2) = 0x8001) (htype : messageType (hd.getD 3 0) = some t)
    (hw : (hd.drop 4).take 4 = w)
    (hname : ofBE w = name.length) (hbody : hd.drop 8 ++ tail = name ++ seq)
    (htail : tail.length = name.length) : Reads (messageBegin md) (hd ++ tail)
      (.ok { md with
        methodName := some name, messageType := some t, sequenceId :=
          some (UInt32.ofNat (ofBE seq)).toInt32 }) := by
  refine (reads_take hlen).bind ?_
  rw [if_neg (not_not_intro hversion)]
  simp only [htype, hw, hname]
  refine (reads_take htail).bind_nil ?_
  rw [hbody, List.take_left, List.drop_left]
  exact reads_pure _

theorem reads_messageBegin (h : MessageHeader) (hh : h.methodName.length < 2 ^ 31) (md : MessageMetadata) :
    Reads (messageBegin md) (writeMessageBegin h.metadata)
      (.ok { md with
        methodName := some h.methodName, messageType := some h.messageType, sequenceId :=
          some h.sequenceId }) := by
  obtain ⟨seq, hseq⟩ : ∃ seq, seq = writeBE 4 h.sequenceId.toUInt32.toNat := ⟨_, rfl⟩
  obtain ⟨tl, htl⟩ : ∃ tl, tl = h.methodName ++ seq := ⟨_, rfl⟩
  obtain ⟨w, hw⟩ : ∃ w, w = writeBE 4 h.methodName.length := ⟨_, rfl⟩
  have hwlen : w.length = 4 := by rw [hw, Bytes.length_writeBE]
  have hlen : tl.length = h.methodName.length + 4 := by
    rw [htl, List.length_append, hseq, Bytes.length_writeBE]
  have hseqId : (UInt32.ofNat (ofBE seq)).toInt32 = h.sequenceId := by
    rw [hseq, ofBE_writeBE_of_lt h.sequenceId.toUInt32.toNat_lt, UInt32.ofNat_toNat]
    rfl
  have hwrite : writeMessageBegin h.metadata =
      (0x80 :: 0x01 :: 0x00 :: messageTypeByte h.messageType :: (w ++ tl.take 4)) ++ tl.drop 4 := by
    simp only [List.cons_append, List.append_assoc, List.take_append_drop]
    rw [htl, hseq, hw]
    rfl
  rw [hwrite, ← hseqId]
  refine reads_header md ?_ rfl (messageType_byte _) (List.take_left' hwlen) ?_ ?_ ?_
  · simp only [List.length_cons, List.length_append, hwlen, List.length_take, hlen]
    omega
  · rw [hw, ofBE_writeBE_of_lt (by omega)]
  · -- behind the first eight bytes stand the name and the sequence id
    have hdrop : (0x80 :: 0x01 :: 0x00 :: messageTypeByte h.messageType :: (w ++ tl.take 4)).drop
        8 = tl.take 4 := by
      rw [← List.drop_drop (i := 4) (j := 4)]
      exact List.drop_left' hwlen
    rw [hdrop, List.take_append_drop, htl]
  · rw [List.length_drop, hlen]
    omega

theorem faithful_binary : binary.Faithful binaryLimits where
  messageBegin := by
    intro h hh md p q rest
    refine ⟨_, (), scan_reads (reads_messageBegin h hh md) _ _, fun r => rfl⟩
  messageEnd := readsBack_nothing _ _ _ rfl
  structBegin := fun name => readsBack_nothing _ _ _ trivial
  structEnd := ⟨readsBack_nothing _ _ _ rfl, fun p b => ⟨p, rfl⟩⟩
  field := by
    intro name t id hid
    exact readsBack_plain (reads_field name t hid) ⟨rfl, rfl⟩ rfl
  stop := readsBack_plain ((reads_take (a := [0]) rfl).bind_nil (reads_pure _)) rfl rfl
  fieldEnd := ⟨readsBack_nothing _ _ _ rfl, fun p b => ⟨p, rfl⟩⟩
  mapBegin := fun k v n h => readsBack_plain (reads_map k v h) rfl rfl
  mapEnd := ⟨readsBack_nothing _ _ _ rfl, fun p b => ⟨p, rfl⟩⟩
  listBegin := fun t n h => readsBack_plain (reads_sequence t h) rfl rfl
  listEnd := ⟨readsBack_nothing _ _ _ rfl, fun p b => ⟨p, rfl⟩⟩
  setBegin := fun t n h => readsBack_plain (reads_sequence t h) rfl rfl
  setEnd := ⟨readsBack_nothing _ _ _ rfl, fun p b => ⟨p, rfl⟩⟩
  bool := fun v => readsBack_number (by cases v <;> decide) (by cases v <;> rfl)
  byte := fun v => readsBack_number v.toNat_lt UInt8.ofNat_toNat
  int16 := fun v => readsBack_number v.toUInt16.toNat_lt (by rw [UInt16.ofNat_toNat]; rfl)
  int32 := fun v => readsBack_number v.toUInt32.toNat_lt (by rw [UInt32.ofNat_toNat]; rfl)
  int64 := fun v => readsBack_number v.toUInt64.toNat_lt (by rw [UInt64.ofNat_toNat]; rfl)
  double := fun v => readsBack_number v.toNat_lt UInt64.ofNat_toNat
  string := fun v h => readsBack_plain (reads_string h) rfl rfl

theorem framed_start {n : Nat} (h : 0 < n ∧ n ≤ 0xfa0000) (md : MessageMetadata) (rest : Bytes) :
    framed.decodeFrameStart md () (writeBE 4 n ++ rest) =
      .ok { md with frameSize := some (UInt32.ofNat n) } () rest := by
  refine scan_reads ((reads_take (Bytes.length_writeBE 4 n)).bind_nil ?_) _ _
  rw [ofBE_writeBE_of_lt (by omega), if_pos h]
  exact reads_pure _

end Promises

end MetaProtocolProxy.Thrift
