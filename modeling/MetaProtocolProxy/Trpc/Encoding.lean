import MetaProtocolProxy.Trpc.Frames
/-
# What the tRPC encoder writes (application_protocols/trpc: protocol.h, protocol.cc, trpc_codec.cc)

The fixed header comes back from its bytes as long as its fields fit their widths
(`TrpcFixedHeader.decode_encode`); whether a message does depends on the two sizes in it, which
`Protocol<T>` computes in 16 and in 32 bits.

* `protocol_round_trip_iff` — `Protocol<T>::decode` looks for the protobuf header 16 bytes too far.
* `header_mutation_iff` — a mutated frame is well formed as long as its new sizes fit.
* `local_reply_decodes` — the codec reads the replies it makes.

Protobuf's part is the assumption that the message at hand is parsed from what it was serialised to
(`ReadsBack`, `ReplyReadsBack`), as it is in the wire format (`wireProtobuf`).
-/
namespace MetaProtocolProxy.Trpc

open Bytes TrpcCodec
open Metadata (ofType)

/-! ## The fixed header -/

theorem StreamFrameType.toByte_ofByte (n : Nat) : (StreamFrameType.ofByte n).toByte = n := by
  unfold StreamFrameType.ofByte
  split <;> rfl

namespace TrpcFixedHeader

variable {h : TrpcFixedHeader} {b : Bytes}

/-- The fields are values of their C++ types. -/
structure Fits (h : TrpcFixedHeader) : Prop where
  magic : h.magic < 2 ^ 16
  dataFrameType : h.dataFrameType < 2 ^ 8
  streamFrameType : h.streamFrameType.toByte < 2 ^ 8
  canonical : .ofByte h.streamFrameType.toByte = h.streamFrameType
  dataFrameSize : h.dataFrameSize < 2 ^ 32
  pbHeaderSize : h.pbHeaderSize < 2 ^ 16
  streamId : h.streamId < 2 ^ 32
  reserved : h.reserved.length = 2

theorem length_encode (hf : h.Fits) : h.encode.length = prefixSpace := by
  simp [encode, hf.reserved, prefixSpace]

theorem decode_encode (hf : h.Fits) (hm : h.magic = magicValue) (rest : Bytes) :
    decode (h.encode ++ rest) = some h := by
  have hlen : ¬ (h.encode ++ rest).length < prefixSpace := by
    rw [List.length_append, length_encode hf]
    omega
  have hreserved : copyOut 14 2 (h.encode ++ rest) = h.reserved := by
    rw [encode, List.append_assoc]
    exact copyOut_mid rest (by simp) hf.reserved
  have hbytes : h.encode ++ rest =
      writeBE 2 h.magic ++ (writeBE 1 h.dataFrameType ++ (writeBE 1 h.streamFrameType.toByte ++
        (writeBE 4 h.dataFrameSize ++ (writeBE 2 h.pbHeaderSize ++ (writeBE 4 h.streamId ++
          (h.reserved ++ rest)))))) := by
    simp only [encode, List.append_assoc]
  have hmagic : h.magic % 256 ^ 2 = h.magic := Nat.mod_eq_of_lt hf.magic
  have htype : h.dataFrameType % 256 ^ 1 = h.dataFrameType := Nat.mod_eq_of_lt hf.dataFrameType
  have hstream : h.streamFrameType.toByte % 256 ^ 1 = h.streamFrameType.toByte :=
    Nat.mod_eq_of_lt hf.streamFrameType
  have hsize : h.dataFrameSize % 256 ^ 4 = h.dataFrameSize := Nat.mod_eq_of_lt hf.dataFrameSize
  have hpb : h.pbHeaderSize % 256 ^ 2 = h.pbHeaderSize := Nat.mod_eq_of_lt hf.pbHeaderSize
  have hid : h.streamId % 256 ^ 4 = h.streamId := Nat.mod_eq_of_lt hf.streamId
  rw [decode, if_neg hlen, hreserved, hbytes]
  simp (disch := decide) only [peekBE_skip, peekBE_writeBE, Nat.reduceSub, hmagic, htype, hstream,
    hsize, hpb, hid, hf.canonical]
  rw [if_neg (not_not_intro hm)]

theorem fits_of_decode (hd : decode b = some h) : h.Fits ∧ h.magic = magicValue := by
  obtain ⟨-, hmagic, hh⟩ := of_decode hd
  refine ⟨?_, hmagic⟩
  rw [hh]
  refine ⟨peekBE_lt 2 0 b, peekBE_lt 1 2 b, ?_, ?_, peekBE_lt 4 4 b, peekBE_lt 2 8 b,
    peekBE_lt 4 10 b, length_copyOut 14 2 b⟩
  · rw [StreamFrameType.toByte_ofByte]
    exact peekBE_lt 1 3 b
  · rw [StreamFrameType.toByte_ofByte]

/-- The header with the sizes `Protocol<T>` computes for a serialised header and a body. -/
def sized (h : TrpcFixedHeader) (raw body : Bytes) : TrpcFixedHeader :=
  { h with
    pbHeaderSize := raw.length % 2 ^ 16
    dataFrameSize := (raw.length % 2 ^ 16 + prefixSpace + body.length) % 2 ^ 32 }

variable {raw body : Bytes}

theorem Fits.sized (hf : h.Fits) : (h.sized raw body).Fits :=
  { hf with dataFrameSize := Nat.mod_lt _ (by decide), pbHeaderSize := Nat.mod_lt _ (by decide) }

end TrpcFixedHeader

/-! ## Frames -/

/-- A frame of the three parts `Protocol<T>` writes one after the other. -/
def frameOf (h : TrpcFixedHeader) (raw body : Bytes) : Bytes := (h.sized raw body).encode ++ raw ++ body

theorem encodeProtocol_eq (h : TrpcFixedHeader) (raw body : Bytes) :
    encodeProtocol h raw body = frameOf { h with magic := magicValue } raw body := rfl

/-- The sizes of a frame fit their fields. -/
structure SizesFit (raw body : Bytes) : Prop where
  pbHeaderSize : raw.length < 2 ^ 16
  dataFrameSize : prefixSpace + raw.length + body.length < 2 ^ 32

section FrameOf

variable {h : TrpcFixedHeader} {raw body : Bytes} (hf : h.Fits)
include hf

theorem length_frameOf : (frameOf h raw body).length = prefixSpace + raw.length + body.length := by
  rw [frameOf, List.length_append, List.length_append, TrpcFixedHeader.length_encode hf.sized]

theorem decode_frameOf (hm : h.magic = magicValue) : TrpcFixedHeader.decode (frameOf h raw body) =
    some (h.sized raw body) := by
  rw [frameOf, List.append_assoc]
  exact TrpcFixedHeader.decode_encode hf.sized hm (raw ++ body)

theorem drop_header_frameOf : (frameOf h raw body).drop prefixSpace = raw ++ body := by
  rw [frameOf, List.append_assoc]
  exact List.drop_left' (TrpcFixedHeader.length_encode hf.sized)

theorem copyOut_frameOf : copyOut prefixSpace raw.length (frameOf h raw body) = raw := by
  rw [frameOf, List.append_assoc]
  exact copyOut_mid body (TrpcFixedHeader.length_encode hf.sized) rfl

theorem drop_frameOf : (frameOf h raw body).drop (prefixSpace + raw.length) = body := by
  rw [← List.drop_drop, drop_header_frameOf hf]
  exact List.drop_left' rfl

end FrameOf

section Sizes

variable {raw body : Bytes}

theorem SizesFit.pbHeaderSize_sized (hs : SizesFit raw body) (h : TrpcFixedHeader) :
    (h.sized raw body).pbHeaderSize = raw.length :=
  Nat.mod_eq_of_lt hs.pbHeaderSize

theorem SizesFit.dataFrameSize_sized (hs : SizesFit raw body) (h : TrpcFixedHeader) :
    (h.sized raw body).dataFrameSize = prefixSpace + raw.length + body.length := by
  have hpb := hs.pbHeaderSize
  have htotal := hs.dataFrameSize
  simp only [TrpcFixedHeader.sized]
  omega

theorem SizesFit.getPayloadSize_sized (hs : SizesFit raw body) (h : TrpcFixedHeader) :
    (h.sized raw body).getPayloadSize = body.length := by
  have htotal := hs.dataFrameSize
  rw [TrpcFixedHeader.getPayloadSize, TrpcFixedHeader.getHeaderSize, hs.pbHeaderSize_sized,
    hs.dataFrameSize_sized]
  omega

end Sizes

/-! ## `Protocol<T>::decode` -/

section RoundTrip

variable {τ : Type} {parse : Bytes → Option τ} {serialize : τ → Bytes}

/-- The bytes `Protocol<T>::decode` takes for the protobuf header. -/
def misread (raw body : Bytes) : Bytes := copyOut prefixSpace raw.length (raw ++ body)

theorem decodeProtocol_frameOf {h : TrpcFixedHeader} {raw body : Bytes} (hf : h.Fits)
    (hm : h.magic = magicValue)
    (hs : SizesFit raw body) : decodeProtocol parse (frameOf h raw body) =
      (parse (misread raw body)).map fun ph => (h.sized raw body, ph, body, []) := by
  have hlen : ¬ (frameOf h raw body).length < (h.sized raw body).dataFrameSize := by
    rw [hs.dataFrameSize_sized, length_frameOf hf]
    omega
  simp only [decodeProtocol, decode_frameOf hf hm, if_neg hlen, drop_header_frameOf hf, hs.pbHeaderSize_sized,
    hs.getPayloadSize_sized, List.drop_left, List.take_length, List.drop_length, misread]
  cases parse (copyOut prefixSpace raw.length (raw ++ body)) <;> rfl

/-- `decode` recovers what `encode` wrote: the fixed header as `encode` left it, the protobuf header
and the body, and nothing stays in the buffer. -/
def RoundTrips (parse : Bytes → Option τ) (serialize : τ → Bytes) (h : TrpcFixedHeader) (ph : τ)
    (body : Bytes) : Prop :=
  decodeProtocol parse (encodeProtocol h (serialize ph) body) =
    some ({ h with magic := magicValue }.sized (serialize ph) body, ph, body, [])

/-- `decode` undoes `encode` exactly if the bytes 16 behind the start of the protobuf header, zeros
past the end of the frame, parse as the header does. -/
theorem protocol_round_trip_iff {ph : τ} (hinv : parse (serialize ph) = some ph)
    {h : TrpcFixedHeader} (hf : h.Fits)
    (body : Bytes) (hpb : (serialize ph).length < 2 ^ 16)
    (htotal : prefixSpace + (serialize ph).length + body.length < 2 ^ 32) :
    RoundTrips parse serialize h ph body ↔ parse (misread (serialize ph) body) = parse (serialize ph) := by
  have hf' : ({ h with magic := magicValue } : TrpcFixedHeader).Fits :=
    { hf with magic := show magicValue < 2 ^ 16 by decide }
  rw [RoundTrips, encodeProtocol_eq, decodeProtocol_frameOf hf' rfl ⟨hpb, htotal⟩, hinv]
  cases parse (misread (serialize ph) body) <;> simp

/-- The request 5 with a body that repeats the protobuf header 16 bytes behind it. -/
theorem protocol_round_trip_repeated :
    RoundTrips wireProtobuf.parseRequest wireProtobuf.serializeRequest {} { requestId := 5 }
      (List.replicate 14 0 ++ [0x18, 5]) :=
  (protocol_round_trip_iff (by decide)
    ⟨by decide, by decide, by decide, rfl, by decide, by decide, by decide, rfl⟩
    (List.replicate 14 0 ++ [0x18, 5]) (by decide) (by decide)).2 (by decide)

/-- The request 5 without a body, 18 bytes, is not accepted by `decode`. -/
theorem protocol_round_trip_fails :
    encodeProtocol {} (wireProtobuf.serializeRequest { requestId := 5 }) [] =
        [0x09, 0x30, 0, 0, 0, 0, 0, 18, 0, 2, 0, 0, 0, 0, 0, 0, 0x18, 5] ∧
      decodeProtocol wireProtobuf.parseRequest
        (encodeProtocol {} (wireProtobuf.serializeRequest { requestId := 5 }) []) = none ∧
      ¬ RoundTrips wireProtobuf.parseRequest wireProtobuf.serializeRequest {} { requestId := 5 } [] := by
  have hnone : decodeProtocol wireProtobuf.parseRequest
      (encodeProtocol {} (wireProtobuf.serializeRequest { requestId := 5 }) []) = none := by decide
  refine ⟨by decide, hnone, ?_⟩
  rw [RoundTrips, hnone]
  simp

end RoundTrip

/-! ## `mutateHeader` -/

section Mutate

variable {τ : Type} {parse : Bytes → Option τ} {serialize : τ → Bytes} {set : τ → Mutation → τ} {f : Bytes}
  {h : TrpcFixedHeader} {ph : τ}

/-- On a whole frame whose size covers both headers the new message is one frame again. -/
theorem mutateHeader_eq (hd : TrpcFixedHeader.decode f = some h) (hsize : h.dataFrameSize = f.length)
    (hpb : prefixSpace + h.pbHeaderSize ≤ f.length)
    (hparse : parse (copyOut prefixSpace h.pbHeaderSize f) = some ph) (m : Mutation) :
    mutateHeader parse serialize set f m =
      some (frameOf h (serialize (set ph m)) (f.drop (prefixSpace + h.pbHeaderSize))) := by
  have hlt : h.dataFrameSize < 2 ^ 32 := (TrpcFixedHeader.fits_of_decode hd).1.dataFrameSize
  have hlen : (f.drop (prefixSpace + h.pbHeaderSize)).length =
    f.length - (prefixSpace + h.pbHeaderSize) := List.length_drop
  have hpayload : h.getPayloadSize = (f.drop (prefixSpace + h.pbHeaderSize)).length := by
    rw [TrpcFixedHeader.getPayloadSize, TrpcFixedHeader.getHeaderSize, hlen, hsize]
    omega
  have hcopy : copyOut 0 h.pbHeaderSize (f.drop prefixSpace) = copyOut prefixSpace h.pbHeaderSize f := rfl
  have hdrop : (f.drop prefixSpace).drop h.pbHeaderSize = f.drop (prefixSpace + h.pbHeaderSize) :=
    List.drop_drop
  have hwhole : ¬ f.length < h.dataFrameSize := by omega
  simp only [mutateHeader, hd, if_neg hwhole, hcopy, hparse, hdrop, hpayload, List.take_length,
    List.drop_length, List.nil_append]
  rfl

/-- `f'` is one frame with the protobuf header `ph`, in which the rest is as in the frame `f` with
header `h`. -/
structure Rewrites (parse : Bytes → Option τ) (serialize : τ → Bytes) (ph : τ) (f : Bytes)
    (h : TrpcFixedHeader) (f' : Bytes) (h' : TrpcFixedHeader) : Prop where
  decodes : TrpcFixedHeader.decode f' = some h'
  dataFrameSize : h'.dataFrameSize = f'.length
  pbHeaderSize : h'.pbHeaderSize = (serialize ph).length
  header : parse (copyOut prefixSpace h'.pbHeaderSize f') = some ph
  body : f'.drop (prefixSpace + h'.pbHeaderSize) = f.drop (prefixSpace + h.pbHeaderSize)
  streamId : h'.streamId = h.streamId
  dataFrameType : h'.dataFrameType = h.dataFrameType
  streamFrameType : h'.streamFrameType = h.streamFrameType

theorem Rewrites.sizesFit {h' : TrpcFixedHeader} {body : Bytes} (hf : h.Fits) (hm : h.magic = magicValue)
    (hr : Rewrites parse serialize ph f h (frameOf h (serialize ph) body) h') :
    SizesFit (serialize ph) body := by
  obtain rfl : h.sized (serialize ph) body = h' :=
    Option.some.inj ((decode_frameOf hf hm).symm.trans hr.decodes)
  have hpb : (serialize ph).length % 2 ^ 16 = (serialize ph).length := hr.pbHeaderSize
  have hsize : (h.sized (serialize ph) body).dataFrameSize =
    prefixSpace + (serialize ph).length + body.length :=
    hr.dataFrameSize.trans (length_frameOf hf)
  refine ⟨?_, ?_⟩
  · rw [← hpb]
    exact Nat.mod_lt _ (by decide)
  · rw [← hsize]
    exact hf.sized.dataFrameSize

theorem SizesFit.rewrites (hf : h.Fits) (hm : h.magic = magicValue) (hinv : parse (serialize ph) = some ph)
    (hs : SizesFit (serialize ph) (f.drop (prefixSpace + h.pbHeaderSize))) :
    ∃ h', Rewrites parse serialize ph f h
      (frameOf h (serialize ph) (f.drop (prefixSpace + h.pbHeaderSize))) h' := by
  generalize hbody : f.drop (prefixSpace + h.pbHeaderSize) = body at hs
  refine ⟨h.sized (serialize ph) body, decode_frameOf hf hm, ?_, hs.pbHeaderSize_sized h, ?_, ?_,
    rfl, rfl, rfl⟩
  · rw [hs.dataFrameSize_sized, length_frameOf hf]
  · rw [hs.pbHeaderSize_sized, copyOut_frameOf hf, hinv]
  · rw [hs.pbHeaderSize_sized, drop_frameOf hf, hbody]

end Mutate

section Decoded

variable {α : Type} {pb : Protobuf} {t : MessageType} {c₀ c : TrpcCodec} {buf rest : Bytes} {md : Metadata α}

/-- The codec `c` has finished a frame at the front of `buf`, decoding messages of type `t`. -/
structure Finished (pb : Protobuf) (t : MessageType) (buf : Bytes) (c : TrpcCodec) : Prop where
  header : TrpcFixedHeader.decode buf = some c.fixedHeader
  type : c.messageType = t
  originMsg : c.originMsg = buf.take c.fixedHeader.dataFrameSize
  size : c.fixedHeader.dataFrameSize ≤ buf.length
  unary : c.fixedHeader.streamFrameType = .unary → ParsedUnary pb t buf c

variable {u : Unit}

theorem payload_done {n : Nat} (hon : onDataLoop pb (n + 1) c₀ buf = .done c u rest)
    (hstage : c₀.decodeStage = .decodePayload)
    (ht : c₀.messageType = t) (hp : Peeked buf c₀)
    (hun : c₀.fixedHeader.streamFrameType = .unary → ParsedUnary pb t buf c₀) :
    Finished pb t buf c := by
  rw [onDataLoop_payload pb c₀ buf n hstage, hp.total] at hon
  split at hon
  · cases hon
  next hlen =>
    cases hon
    exact ⟨hp.header, ht, rfl, Nat.not_lt.1 hlen, hun⟩

theorem unary_done {n : Nat} (hon : onDataLoop pb (n + 2) c₀ buf = .done c u rest)
    (hstage : c₀.decodeStage = .decodeUnaryProtocolHeader) (ht : c₀.messageType = t) (hp : Peeked buf c₀) :
    Finished pb t buf c := by
  subst ht
  rw [onDataLoop_unary pb c₀ buf n hstage, hp.pbSize] at hon
  split at hon
  · cases hon
  · split at hon
    · cases hon
    next c₁ hraw =>
      rcases onUnaryHeader_eq_some pb c₀ hraw with ⟨ht, r, hr, rfl⟩ | ⟨ht, r, hr, rfl⟩
      · exact payload_done hon rfl rfl ⟨hp.header, hp.total, hp.pbSize⟩ fun _ => (if_pos ht).mpr hr
      · exact payload_done hon rfl rfl ⟨hp.header, hp.total, hp.pbSize⟩ fun _ => (if_neg ht).mpr hr

theorem stream_done {n : Nat} (hon : onDataLoop pb (n + 2) c₀ buf = .done c u rest)
    (hstage : c₀.decodeStage = .decodeStreamFrame) (ht : c₀.messageType = t) (hp : Peeked buf c₀)
    (hst : c₀.fixedHeader.streamFrameType ≠ .unary) : Finished pb t buf c := by
  rw [onDataLoop_stream pb c₀ buf n hstage] at hon
  split at hon
  · cases hon
  · split at hon
    · cases hon
    · cases hon
    next c₁ hraw =>
      rcases onStreamFrame_eq_some pb c₀ hraw with ⟨-, r, -, rfl⟩ | ⟨-, r, -, rfl⟩ | ⟨-, rfl⟩
      all_goals exact payload_done hon rfl ht ⟨hp.header, hp.total, hp.pbSize⟩ fun hun => absurd hun hst

theorem fixed_done {n : Nat} (hon : onDataLoop pb (n + 3) c₀ buf = .done c u rest)
    (hstage : c₀.decodeStage = .decodeFixedHeader) : Finished pb c₀.messageType buf c := by
  rw [onDataLoop_fixed pb c₀ buf (n + 2) hstage] at hon
  split at hon
  · cases hon
  · cases hd : TrpcFixedHeader.decode buf with
    | none =>
      rw [hd] at hon
      cases hon
    | some h =>
      rw [hd] at hon
      replace hon : onDataLoop pb (n + 2) (withHeader c₀ h) buf = .done c u rest := hon
      have hp : Peeked buf (withHeader c₀ h) := ⟨hd, rfl, rfl⟩
      by_cases hu : h.streamFrameType = .unary
      · exact unary_done hon (by simp [withHeader, hu]) rfl hp
      · exact stream_done hon (by simp [withHeader, hu]) rfl hp hu

theorem Peeked.extend {p : Bytes} (hp : Peeked p c₀) (hpre : p <+: buf) : Peeked buf c₀ := by
  obtain ⟨r, rfl⟩ := hpre
  exact ⟨(TrpcFixedHeader.decode_append r (TrpcFixedHeader.length_of_decode hp.header)).trans
    hp.header, hp.total, hp.pbSize⟩

/-- Wherever in a frame the codec was, when it finishes, it has the frame at the front of the
buffer. -/
theorem onData_finished {p : Bytes} (hR : Resumes pb c₀.messageType p c₀ p) (hpre : p <+: buf)
    (hon : onData pb c₀ buf = .done c u rest) : Finished pb c₀.messageType buf c := by
  obtain ⟨-, hR⟩ := hR
  cases hs : c₀.decodeStage with
  | decodeFixedHeader => exact fixed_done hon hs
  | decodeUnaryProtocolHeader =>
    simp only [hs] at hR
    exact unary_done hon hs rfl (hR.1.extend hpre)
  | decodeStreamFrame =>
    simp only [hs] at hR
    exact stream_done hon hs rfl (hR.1.extend hpre) hR.2
  | decodePayload =>
    simp only [hs] at hR
    obtain ⟨hp, -, hlen, hparsed⟩ := hR
    refine payload_done hon hs rfl (hp.extend hpre) fun _ => ?_
    obtain ⟨r, rfl⟩ := hpre
    rwa [ParsedUnary, copyOut_append r hlen]

/-- `TrpcCodec::decode` finishes what the checker finishes. -/
theorem decode_finished {p : Bytes} (hR : Resumes pb t p c₀ p) (hpre : p <+: buf)
    (hdec : decode pb c₀ buf (ofType t) = .done c md rest) :
    Finished pb t buf c ∧ md = toMetadata c (ofType t) := by
  simp only [decode, ofType] at hdec
  cases hon : onData pb { c₀ with messageType := t } buf with
  | wait | fail =>
    rw [hon] at hdec
    cases hdec
  | done c₁ u rest₁ =>
    rw [hon] at hdec
    cases hdec
    have hR' : Resumes pb t p { c₀ with messageType := t } p := hR.setType t
    exact ⟨onData_finished hR' hpre hon, rfl⟩

theorem toMetadata_unary_messageType (hun : c.fixedHeader.streamFrameType = .unary) :
    (toMetadata c (ofType t : Metadata α)).messageType = t := by
  by_cases hr : c.messageType = .request <;>
    simp [toMetadata, hun, hr, Metadata.putStrings_messageType, Metadata.putString, ofType]

/-- The message `md` is that of the unary frame `f`, whose size covers both headers; the codec has
its parts. -/
structure DecodedUnary (pb : Protobuf) (t : MessageType) (f : Bytes) (c : TrpcCodec)
    (md : Metadata α) : Prop where
  messageType : md.messageType = t
  type : c.messageType = t
  originMessage : md.originMessage = f
  header : TrpcFixedHeader.decode f = some c.fixedHeader
  size : c.fixedHeader.dataFrameSize = f.length
  covers : prefixSpace + c.fixedHeader.pbHeaderSize ≤ f.length
  parsed : ParsedUnary pb t f c

theorem decodedUnary_of_decode {p : Bytes} (hR : Resumes pb t p c₀ p) (hpre : p <+: buf)
    (hdec : decode pb c₀ buf (ofType t) = .done c md rest) (hun : c.fixedHeader.streamFrameType = .unary)
    (hcovers : prefixSpace + c.fixedHeader.pbHeaderSize ≤ c.fixedHeader.dataFrameSize) :
    DecodedUnary pb t (buf.take c.fixedHeader.dataFrameSize) c md := by
  obtain ⟨hfin, rfl⟩ := decode_finished hR hpre hdec
  have hlen : (buf.take c.fixedHeader.dataFrameSize).length = c.fixedHeader.dataFrameSize :=
    List.length_take_of_le hfin.size
  have hsplit : buf.take c.fixedHeader.dataFrameSize ++ buf.drop c.fixedHeader.dataFrameSize =
    buf := List.take_append_drop ..
  have hcopy : copyOut prefixSpace c.fixedHeader.pbHeaderSize buf =
      copyOut prefixSpace c.fixedHeader.pbHeaderSize (buf.take c.fixedHeader.dataFrameSize) := by
    conv_lhs => rw [← hsplit]
    exact copyOut_append _ (by omega)
  refine ⟨toMetadata_unary_messageType hun, hfin.type, ?_, ?_, hlen.symm, by omega, ?_⟩
  · rw [toMetadata_originMessage, hfin.originMsg]
    rfl
  · rw [← TrpcFixedHeader.decode_append (buf.drop c.fixedHeader.dataFrameSize) (by omega), hsplit,
      hfin.header]
  · rw [ParsedUnary, ← hcopy]
    exact hfin.unary hun

end Decoded

/-! ## `TrpcCodec::encode` -/

section Encode

variable {α : Type} {pb : Protobuf} {t : MessageType} {c₀ c : TrpcCodec} {buf rest : Bytes}
    {md : Metadata α} {m : Mutation}

/-- `new` is the map `old` with the entries of `m`. -/
def Updated (old m new : Mutation) : Prop := ∀ k, new.lookup k = (m.lookup k).or (old.lookup k)

theorem updated_set (hkeys : (m.map Prod.fst).Nodup) (old : Mutation) : Updated old m (old.set m) :=
  old.lookup_set hkeys

/-- The header of the request with the entries of `m` in its `trans_info`, and that of the
response. -/
def mutatedRequest (c : TrpcCodec) (m : Mutation) : RequestProtocol :=
  { c.requestHeader with transInfo := Mutation.set c.requestHeader.transInfo m }

def mutatedResponse (c : TrpcCodec) (m : Mutation) : ResponseProtocol :=
  { c.responseHeader with transInfo := Mutation.set c.responseHeader.transInfo m }

/-- The serialised header of the message with the entries of `m` in its `trans_info`. -/
def mutatedHeader (pb : Protobuf) (c : TrpcCodec) (m : Mutation) : Bytes :=
  if c.messageType = .request then pb.serializeRequest (mutatedRequest c m)
    else pb.serializeResponse (mutatedResponse c m)

/-- Protobuf reads the new header back. -/
def ReadsBack (pb : Protobuf) (c : TrpcCodec) (m : Mutation) : Prop :=
  if c.messageType = .request then pb.parseRequest (pb.serializeRequest (mutatedRequest c m)) =
    some (mutatedRequest c m)
  else pb.parseResponse (pb.serializeResponse (mutatedResponse c m)) = some (mutatedResponse c m)

/-- `f'` is the frame `f` with the entries of `m` in the `trans_info` of its header, and nothing
else changed. -/
def MutationKept (pb : Protobuf) (c : TrpcCodec) (m : Mutation) (f f' : Bytes) : Prop :=
  if c.messageType = .request then
    Updated c.requestHeader.transInfo m (mutatedRequest c m).transInfo ∧
      ∃ h', Rewrites pb.parseRequest pb.serializeRequest (mutatedRequest c m) f c.fixedHeader f' h'
  else
    Updated c.responseHeader.transInfo m (mutatedResponse c m).transInfo ∧
      ∃ h', Rewrites pb.parseResponse pb.serializeResponse (mutatedResponse c m) f c.fixedHeader f' h'

/-- What `encode` leaves of a unary message. -/
theorem DecodedUnary.encode_eq {f : Bytes} (hd : DecodedUnary pb t f c md)
    (ht : t = .request ∨ t = .response) (hm : m ≠ []) :
    encode pb md m f =
      .ok (frameOf c.fixedHeader (mutatedHeader pb c m)
        (f.drop (prefixSpace + c.fixedHeader.pbHeaderSize))) := by
  have hne : m.isEmpty = false := by simpa using hm
  have hparsed := hd.parsed
  rw [encode, if_neg (by simp [hne]), hd.messageType, mutatedHeader, hd.type]
  rcases ht with rfl | rfl
  · rw [ParsedUnary, if_pos rfl] at hparsed
    simp only [mutateHeader_eq hd.header hd.size hd.covers hparsed, if_true]
    rfl
  · rw [ParsedUnary, if_neg (by decide)] at hparsed
    simp only [mutateHeader_eq hd.header hd.size hd.covers hparsed, reduceCtorEq, if_false]
    rfl

/-- The frame `encode` leaves of a unary message. -/
def mutatedFrame (pb : Protobuf) (c : TrpcCodec) (m : Mutation) (f : Bytes) : Bytes :=
  frameOf c.fixedHeader (mutatedHeader pb c m) (f.drop (prefixSpace + c.fixedHeader.pbHeaderSize))

theorem DecodedUnary.sizesFit {f : Bytes} (hd : DecodedUnary pb t f c md)
    (hkept : MutationKept pb c m f (mutatedFrame pb c m f)) :
    SizesFit (mutatedHeader pb c m) (f.drop (prefixSpace + c.fixedHeader.pbHeaderSize)) := by
  obtain ⟨hfits, hmagic⟩ := TrpcFixedHeader.fits_of_decode hd.header
  rw [MutationKept, mutatedFrame, mutatedHeader] at hkept
  rw [mutatedHeader]
  by_cases hreq : c.messageType = .request
  · simp only [hreq, if_true] at hkept ⊢
    obtain ⟨-, h', hr⟩ := hkept
    exact hr.sizesFit hfits hmagic
  · simp only [hreq, if_false] at hkept ⊢
    obtain ⟨-, h', hr⟩ := hkept
    exact hr.sizesFit hfits hmagic

theorem DecodedUnary.mutationKept {f : Bytes} (hd : DecodedUnary pb t f c md) (hinv : ReadsBack pb c m)
    (hkeys : (m.map Prod.fst).Nodup)
    (hs : SizesFit (mutatedHeader pb c m) (f.drop (prefixSpace + c.fixedHeader.pbHeaderSize))) :
    MutationKept pb c m f (mutatedFrame pb c m f) := by
  obtain ⟨hfits, hmagic⟩ := TrpcFixedHeader.fits_of_decode hd.header
  rw [mutatedHeader] at hs
  rw [ReadsBack] at hinv
  rw [MutationKept, mutatedFrame, mutatedHeader]
  by_cases hreq : c.messageType = .request
  · simp only [hreq, if_true] at hs hinv ⊢
    exact ⟨updated_set hkeys _, hs.rewrites hfits hmagic hinv⟩
  · simp only [hreq, if_false] at hs hinv ⊢
    exact ⟨updated_set hkeys _, hs.rewrites hfits hmagic hinv⟩

/-- The mutation of a unary message off the wire, whose new header protobuf reads back, leaves one
well-formed frame exactly if the sizes of the new frame fit their fields. -/
theorem header_mutation_iff {p : Bytes} (ht : t = .request ∨ t = .response) (hR : Resumes pb t p c₀ p)
    (hpre : p <+: buf) (hdec : decode pb c₀ buf (ofType t) = .done c md rest)
    (hun : c.fixedHeader.streamFrameType = .unary)
    (hcovers : prefixSpace + c.fixedHeader.pbHeaderSize ≤ c.fixedHeader.dataFrameSize) (hm : m ≠ [])
    (hkeys : (m.map Prod.fst).Nodup) (hinv : ReadsBack pb c m) :
    (∀ f', encode pb md m md.originMessage = .ok f' → MutationKept pb c m md.originMessage f') ↔
      SizesFit (mutatedHeader pb c m) (md.originMessage.drop (prefixSpace + c.fixedHeader.pbHeaderSize)) := by
  have hd := decodedUnary_of_decode hR hpre hdec hun hcovers
  rw [hd.originMessage, hd.encode_eq ht hm]
  constructor
  · intro hkept
    exact hd.sizesFit (hkept _ rfl)
  · rintro hs f' hf'
    cases hf'
    exact hd.mutationKept hinv hkeys hs

/-- The request 5, without a body. -/
def requestFive : Bytes := [0x09, 0x30, 0, 0, 0, 0, 0, 18, 0, 2, 0, 0, 0, 0, 0, 0, 0x18, 5]

/-- The codec that has decoded it. -/
def codecFive : TrpcCodec :=
  { fixedHeader := { dataFrameSize := 18, pbHeaderSize := 2 }, requestHeader := { requestId := 5 },
    originMsg := requestFive }

set_option maxRecDepth 1000 in
theorem requestFive_decodes : decode wireProtobuf {} requestFive (ofType .request : Metadata Unit) =
    .done codecFive (toMetadata codecFive (ofType .request)) [] := by
  rfl

/-- One entry, over the request 5. -/
theorem header_mutation_entry :
    SizesFit (mutatedHeader wireProtobuf codecFive [("k", "v")]) [] ∧
      ∀ f', encode wireProtobuf (toMetadata codecFive (ofType .request : Metadata Unit)) [("k", "v")]
        requestFive = .ok f' → MutationKept wireProtobuf codecFive [("k", "v")] requestFive f' :=
  have hfits : SizesFit (mutatedHeader wireProtobuf codecFive [("k", "v")]) [] :=
    ⟨by decide, by decide⟩
  ⟨hfits, (header_mutation_iff (.inl rfl) (resumes_boundary rfl []) List.nil_prefix
    requestFive_decodes rfl (by decide) (List.cons_ne_nil _ _) (by decide)
    (by rw [ReadsBack]; decide)).2 hfits⟩

theorem length_le_serializeRequest (h : RequestProtocol) (k v : String) :
    v.toList.length ≤ (wireProtobuf.serializeRequest { h with transInfo := [(k, v)] }).length := by
  have hvalue :
      (ofString v).length ≤ (Wire.write [⟨1, .bytes (ofString k)⟩, ⟨2, .bytes (ofString v)⟩]).length :=
    Wire.length_le_write (List.mem_cons_of_mem _ List.mem_cons_self)
  have hentry : (Wire.write [⟨1, .bytes (ofString k)⟩, ⟨2, .bytes (ofString v)⟩]).length ≤
      (Wire.write (requestFields { h with transInfo := [(k, v)] })).length :=
    Wire.length_le_write
      (by simp only [requestFields, List.mem_append]; exact .inl (.inl (.inr List.mem_cons_self)))
  have hchars : (ofString v).length = v.toList.length := by simp [ofString]
  simp only [wireProtobuf, List.length_append]
  omega

theorem mutation_truncated {v : String} (hv : 2 ^ 16 ≤ v.toList.length) :
    ¬ ∀ f', encode wireProtobuf (toMetadata codecFive (ofType .request : Metadata Unit)) [("k", v)]
      requestFive = .ok f' → MutationKept wireProtobuf codecFive [("k", v)] requestFive f' := by
  have hd := decodedUnary_of_decode (resumes_boundary rfl []) List.nil_prefix requestFive_decodes
    rfl (by decide)
  intro hkept
  have hfits := hd.sizesFit (hkept _ (hd.encode_eq (.inl rfl) (List.cons_ne_nil _ _)))
  exact absurd (hv.trans (length_le_serializeRequest { requestId := 5 } "k" v))
    (Nat.not_le.2 hfits.pbHeaderSize)

/-- A value of 65536 characters. -/
theorem header_mutation_truncates :
    decode wireProtobuf {} requestFive (ofType .request : Metadata Unit) =
        .done codecFive (toMetadata codecFive (ofType .request)) [] ∧
      ¬ ∀ f', encode wireProtobuf (toMetadata codecFive (ofType .request : Metadata Unit))
          [("k", .ofList (List.replicate 65536 'a'))] requestFive = .ok f' →
        MutationKept wireProtobuf codecFive [("k", .ofList (List.replicate 65536 'a'))] requestFive f' :=
  ⟨requestFive_decodes, mutation_truncated (by rw [String.toList_ofList, List.length_replicate]; decide)⟩

end Encode

/-! ## `TrpcCodec::onError` -/

section OnError

variable {α : Type} {pb : Protobuf} {t : MessageType} {h : TrpcFixedHeader} {c₀ c : TrpcCodec}
    {raw buf rest : Bytes} {md : Metadata α}

theorem wellFormed_frameOf (hf : h.Fits) (hm : h.magic = magicValue) (hraw : raw.length < 2 ^ 16)
    (hun : h.streamFrameType = .unary → parsesUnary pb t raw = true)
    (hst : h.streamFrameType ≠ .unary → parsesStream pb h.streamFrameType raw = true) :
    WellFormedFrame pb t (frameOf h raw []) (h.sized raw []) := by
  have hs : SizesFit raw [] := ⟨hraw, by simp only [prefixSpace, List.length_nil]; omega⟩
  have hlen : (frameOf h raw []).length = prefixSpace + raw.length := length_frameOf hf
  refine ⟨decode_frameOf hf hm, by rw [hs.dataFrameSize_sized, length_frameOf hf], fun hu => ?_, fun hu => ?_⟩
  · rw [hs.pbHeaderSize_sized, copyOut_frameOf hf, hlen]
    exact ⟨Nat.le_refl _, hun hu⟩
  · rw [hlen, Nat.add_sub_cancel_left, copyOut_frameOf hf]
    exact hst hu

theorem toMetadata_unary_requestId (hun : c.fixedHeader.streamFrameType = .unary)
    (md : Metadata α) : (toMetadata c md).requestId =
    if c.messageType = .request then c.requestHeader.requestId else c.responseHeader.requestId := by
  by_cases hr : c.messageType = .request
  · simp only [toMetadata, hun, hr, if_true, Metadata.putStrings_requestId]
    rfl
  · simp only [toMetadata, hun, hr, if_false, Metadata.putStrings_requestId]
    rfl

theorem toMetadata_init (hin : c.fixedHeader.streamFrameType = .init) (md : Metadata α) :
    (toMetadata c md).messageType = .streamInit ∧ (toMetadata c md).streamId = c.fixedHeader.streamId := by
  simp only [toMetadata, hin, Metadata.putStrings_messageType, Metadata.putStrings_streamId]
  exact ⟨rfl, rfl⟩

def errorResponse (md : Metadata α) (error : Error) : ResponseProtocol :=
  { requestId := md.requestId % 2 ^ 32, errorMsg := error.message, ret := errCode error.type,
    funcRet := errCode error.type }

def errorInit (error : Error) : StreamInitMeta := { responseMeta := some (errCode error.type, error.message) }

/-- The protobuf header of the reply to an error. -/
def replyHeader (pb : Protobuf) (md : Metadata α) (error : Error) : Bytes :=
  if md.messageType = .streamInit then pb.serializeInit (errorInit error) else pb.serializeResponse
    (errorResponse md error)

theorem onError_unary (hmd : md.messageType ≠ .streamInit) (error : Error) :
    onError pb md error = .ok (frameOf {} (pb.serializeResponse (errorResponse md error)) []) := by
  rw [onError, if_neg hmd]
  rfl

theorem onError_init (hmd : md.messageType = .streamInit) (error : Error) :
    onError pb md error =
      .ok (frameOf { streamId := md.streamId % 2 ^ 32, dataFrameType := 1, streamFrameType := .init }
      (pb.serializeInit (errorInit error)) []) := by
  rw [onError, if_pos hmd]
  rfl

/-- A fresh codec, decoding responses, reads `bytes` as one frame. -/
def Replies (pb : Protobuf) (md : Metadata α) (error : Error) (bytes : Bytes) (c' : TrpcCodec)
    (md' : Metadata α) : Prop :=
  onError pb md error = .ok bytes ∧ decode pb {} bytes (ofType .response : Metadata α) = .done c' md' []

/-- Protobuf reads the header of the reply back. -/
def ReplyReadsBack (pb : Protobuf) (md : Metadata α) (error : Error) : Prop :=
  if md.messageType = .streamInit then pb.parseInit (pb.serializeInit (errorInit error)) =
    some (errorInit error)
  else pb.parseResponse (pb.serializeResponse (errorResponse md error)) = some (errorResponse md error)

theorem unary_reply_decodes {error : Error} (hmd : md.messageType ≠ .streamInit)
    (hinv : pb.parseResponse (pb.serializeResponse (errorResponse md error)) = some (errorResponse md error))
    (hshort : (pb.serializeResponse (errorResponse md error)).length < 2 ^ 16) :
    ∃ bytes c' md', Replies pb md error bytes c' md' ∧
      c'.fixedHeader.streamFrameType = .unary ∧ md'.messageType = .response ∧
        md'.requestId = md.requestId % 2 ^ 32 := by
  have hfits : ({} : TrpcFixedHeader).Fits :=
    ⟨by decide, by decide, by decide, rfl, by decide, by decide, by decide, rfl⟩
  have hparses : parsesUnary pb .response (pb.serializeResponse (errorResponse md error)) = true := by
    rw [parsesUnary, if_neg (by decide), hinv]
    rfl
  have hwf := wellFormed_frameOf hfits rfl hshort (fun _ => hparses) (fun hu => absurd rfl hu)
  obtain ⟨c', hdec, -, hl, -⟩ :=
    decode_finishes (α := α) (c := {}) hwf (resumes_boundary rfl []) List.nil_prefix
      (List.append_nil _).symm
  have hun : c'.fixedHeader.streamFrameType = .unary := by
    rw [hl.header]
    rfl
  have hparsed := hl.unary rfl
  rw [ParsedUnary, if_neg (by decide), hl.header, TrpcFixedHeader.sized, Nat.mod_eq_of_lt hshort,
    copyOut_frameOf hfits, hinv] at hparsed
  refine ⟨_, c', _, ⟨onError_unary hmd error, hdec⟩, hun, toMetadata_unary_messageType hun, ?_⟩
  rw [toMetadata_unary_requestId hun, hl.type, if_neg (by decide), ← Option.some.inj hparsed]
  rfl

theorem init_reply_decodes {error : Error} (hmd : md.messageType = .streamInit)
    (hinv : pb.parseInit (pb.serializeInit (errorInit error)) = some (errorInit error))
    (hshort : (pb.serializeInit (errorInit error)).length < 2 ^ 16) :
    ∃ bytes c' md', Replies pb md error bytes c' md' ∧
      c'.fixedHeader.streamFrameType = .init ∧ md'.messageType = .streamInit ∧
        md'.streamId = md.streamId % 2 ^ 32 := by
  have hfits : ({ streamId := md.streamId % 2 ^ 32, dataFrameType := 1, streamFrameType := .init } :
      TrpcFixedHeader).Fits :=
    ⟨show magicValue < 2 ^ 16 by decide, show 1 < 2 ^ 8 by decide, show 1 < 2 ^ 8 by decide, rfl,
      show 0 < 2 ^ 32 by decide, show 0 < 2 ^ 16 by decide, Nat.mod_lt _ (by decide), rfl⟩
  have hparses : parsesStream pb .init (pb.serializeInit (errorInit error)) = true := by
    rw [parsesStream, hinv]
    rfl
  have hwf : WellFormedFrame pb .response _ _ :=
    wellFormed_frameOf hfits rfl hshort (fun hu => absurd hu (by simp)) (fun _ => hparses)
  obtain ⟨c', hdec, -, hl, -⟩ :=
    decode_finishes (α := α) (c := {}) hwf (resumes_boundary rfl []) List.nil_prefix
      (List.append_nil _).symm
  have hin : c'.fixedHeader.streamFrameType = .init := by
    rw [hl.header]
    rfl
  obtain ⟨htype, hstream⟩ := toMetadata_init hin (ofType .response : Metadata α)
  refine ⟨_, c', _, ⟨onError_init hmd error, hdec⟩, hin, htype, ?_⟩
  rw [hstream, hl.header]
  rfl

/-- The reply to a message off the wire, if protobuf reads its header back, is one frame, of the
kind of the message and with its id (`request_id` is a `uint32` in trpc.proto). -/
theorem local_reply_decodes {p : Bytes} (hR : Resumes pb .request p c₀ p) (hpre : p <+: buf)
    (hdec : decode pb c₀ buf (ofType .request) = .done c md rest)
    (hid : md.requestId < 2 ^ 32)
    (hkind : c.fixedHeader.streamFrameType = .unary ∨ c.fixedHeader.streamFrameType = .init)
    {error : Error} (hinv : ReplyReadsBack pb md error) (hshort : (replyHeader pb md error).length < 2 ^ 16) :
    ∃ bytes c' md', Replies pb md error bytes c' md' ∧
      c'.fixedHeader.streamFrameType = c.fixedHeader.streamFrameType ∧
      (c.fixedHeader.streamFrameType = .unary → md'.messageType = .response ∧ md'.requestId = md.requestId) ∧
      (c.fixedHeader.streamFrameType = .init → md'.messageType = .streamInit ∧
        md'.streamId = md.streamId) := by
  obtain ⟨hfin, hmd⟩ := decode_finished hR hpre hdec
  rcases hkind with hun | hin
  · have hne : md.messageType ≠ .streamInit := by
      rw [hmd, toMetadata_unary_messageType hun]
      decide
    rw [replyHeader, if_neg hne] at hshort
    rw [ReplyReadsBack, if_neg hne] at hinv
    obtain ⟨bytes, c', md', hreply, hun', htype, hid'⟩ := unary_reply_decodes hne hinv hshort
    rw [hun]
    exact ⟨bytes, c', md', hreply, hun', fun _ => ⟨htype, hid'.trans (Nat.mod_eq_of_lt hid)⟩, by simp⟩
  · obtain ⟨htype, hstream⟩ := toMetadata_init hin (ofType .request : Metadata α)
    rw [← hmd] at htype hstream
    have hlt : md.streamId < 2 ^ 32 := by
      rw [hstream]
      exact (TrpcFixedHeader.fits_of_decode hfin.header).1.streamId
    rw [replyHeader, if_pos htype] at hshort
    rw [ReplyReadsBack, if_pos htype] at hinv
    obtain ⟨bytes, c', md', hreply, hin', htype', hstream'⟩ := init_reply_decodes htype hinv hshort
    rw [hin]
    exact ⟨bytes, c', md', hreply, hin', by simp, fun _ => ⟨htype', hstream'.trans (Nat.mod_eq_of_lt hlt)⟩⟩

/-- No route was found for the request 5. -/
theorem reply_to_five_decodes :
    ∃ bytes c' md', Replies wireProtobuf (toMetadata codecFive (ofType .request : Metadata Unit))
        { type := .routeNotFound, message := "no" } bytes c' md' ∧ md'.messageType = .response ∧
          md'.requestId = 5 := by
  have hinv : ReplyReadsBack wireProtobuf (toMetadata codecFive (ofType .request : Metadata Unit))
      { type := .routeNotFound, message := "no" } := by
    rw [ReplyReadsBack]
    decide
  obtain ⟨bytes, c', md', hreply, -, hresponse, -⟩ :=
    local_reply_decodes (resumes_boundary rfl []) List.nil_prefix
      requestFive_decodes (by decide) (.inl rfl)
      hinv (by decide)
  exact ⟨bytes, c', md', hreply, hresponse rfl⟩

end OnError

end MetaProtocolProxy.Trpc
