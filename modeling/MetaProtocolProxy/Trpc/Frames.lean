import MetaProtocolProxy.Trpc.Checker
import MetaProtocolProxy.Receive
/-
# tRPC frames are frames (application_protocols/trpc)

The codec on well-formed tRPC frames, as an instance of `Framing.IsFrame`. A frame is well
formed when its header is valid, `data_frame_size` is its length and the protobuf part
parses. `Resumes` is what the codec remembers between two pieces of a frame: the header
fields it has peeked, never the bytes themselves, which stay in the buffer.

`isFrame`: however a well-formed frame is cut, the codec waits until it is complete and then
delivers the message a codec of its own would decode from the frame alone (`frameMetadata`),
leaving exactly what follows. `frames_received` puts it under `DecoderBase` and `dispatch`:
a connection that receives frames in chunks makes one call per frame.
-/
namespace MetaProtocolProxy.Trpc

open Bytes
open Framing (Step IsFrame)
open TrpcCodec

variable {α : Type} {pb : Protobuf} {t : MessageType} {f : Bytes} {h : TrpcFixedHeader}

/-- `f` is one well-formed frame with header `h`, as seen by a decoder of type `t`. -/
structure WellFormedFrame (pb : Protobuf) (t : MessageType) (f : Bytes) (h : TrpcFixedHeader) : Prop where
  header : TrpcFixedHeader.decode f = some h
  size : h.dataFrameSize = f.length
  unary : h.streamFrameType = .unary → prefixSpace + h.pbHeaderSize ≤ f.length ∧
    parsesUnary pb t (copyOut prefixSpace h.pbHeaderSize f) = true
  stream : h.streamFrameType ≠ .unary →
    parsesStream pb h.streamFrameType (copyOut prefixSpace (f.length - prefixSpace) f) = true

theorem WellFormedFrame.prefixSpace_le (hf : WellFormedFrame pb t f h) : prefixSpace ≤ f.length :=
  TrpcFixedHeader.length_of_decode hf.header

/-- `data_frame_size` is a `uint32_t`. -/
theorem WellFormedFrame.length_lt (hf : WellFormedFrame pb t f h) : f.length < 2 ^ 32 := by
  rw [← hf.size, TrpcFixedHeader.dataFrameSize_of_decode hf.header]
  exact peekBE_lt 4 4 f

/-- What a codec of its own decodes from the frame alone. -/
def frameMetadata (α : Type) (pb : Protobuf) (t : MessageType) (f : Bytes) : Metadata α :=
  match decode pb {} f (Metadata.ofType t) with
  | .done _ md _ => md
  | _ => Metadata.ofType t

/-- The header fields a codec has taken from the first bytes `p` of a frame. -/
structure Peeked (p : Bytes) (c : TrpcCodec) : Prop where
  header : TrpcFixedHeader.decode p = some c.fixedHeader
  total : c.totalSize = c.fixedHeader.dataFrameSize
  pbSize : c.protocolHeaderSize = c.fixedHeader.pbHeaderSize

/-- The protobuf header of a unary frame has been parsed from `p`. -/
def ParsedUnary (pb : Protobuf) (t : MessageType) (p : Bytes) (c : TrpcCodec) : Prop :=
  if t = .request then pb.parseRequest (copyOut prefixSpace c.fixedHeader.pbHeaderSize p) =
    some c.requestHeader
  else pb.parseResponse (copyOut prefixSpace c.fixedHeader.pbHeaderSize p) = some c.responseHeader

/-- The codec `c` has seen the piece `p` of a frame; all of it is still in the buffer. -/
def Resumes (pb : Protobuf) (t : MessageType) (p : Bytes) (c : TrpcCodec) (buf : Bytes) : Prop :=
  buf = p ∧ match c.decodeStage with
    | .decodeFixedHeader => True
    | .decodeUnaryProtocolHeader => Peeked p c ∧ c.fixedHeader.streamFrameType = .unary
    | .decodeStreamFrame => Peeked p c ∧ c.fixedHeader.streamFrameType ≠ .unary
    | .decodePayload => Peeked p c ∧ c.fixedHeader.streamFrameType = .unary ∧
        prefixSpace + c.fixedHeader.pbHeaderSize ≤ p.length ∧ ParsedUnary pb t p c

/-- Everything `toMetadata` reads has been taken from the frame `f`. -/
structure Loaded (pb : Protobuf) (t : MessageType) (f : Bytes) (h : TrpcFixedHeader)
    (c : TrpcCodec) : Prop where
  header : c.fixedHeader = h
  type : c.messageType = t
  unary : h.streamFrameType = .unary → ParsedUnary pb t f c
  init : h.streamFrameType = .init → pb.parseInit (copyOut prefixSpace (f.length - prefixSpace) f) =
    some c.streamInitMeta
  close : h.streamFrameType = .close →
    pb.parseClose (copyOut prefixSpace (f.length - prefixSpace) f) = some c.streamCloseMeta

theorem toMetadata_loaded {c c' : TrpcCodec} (hc : Loaded pb t f h c) (hc' : Loaded pb t f h c')
    (ho : c.originMsg = c'.originMsg) (md : Metadata α) : toMetadata c md = toMetadata c' md := by
  have hh : c.fixedHeader = c'.fixedHeader := hc.header.trans hc'.header.symm
  have ht : c.messageType = c'.messageType := hc.type.trans hc'.type.symm
  simp only [toMetadata, hh, ht, ho]
  have hft : c'.fixedHeader.streamFrameType = h.streamFrameType := by rw [hc'.header]
  cases hs : h.streamFrameType with
  | unary =>
    have h1 := hc.unary hs
    have h2 := hc'.unary hs
    simp only [ParsedUnary, hc.header, hc'.header] at h1 h2
    by_cases hr : t = .request
    · rw [if_pos hr] at h1 h2
      have : c.requestHeader = c'.requestHeader := Option.some.inj (h1.symm.trans h2)
      simp [hft, hs, hc'.type, hr, this]
    · rw [if_neg hr] at h1 h2
      have : c.responseHeader = c'.responseHeader := Option.some.inj (h1.symm.trans h2)
      simp [hft, hs, hc'.type, hr, this]
  | init =>
    have : c.streamInitMeta = c'.streamInitMeta := Option.some.inj ((hc.init hs).symm.trans (hc'.init hs))
    simp [hft, hs, this]
  | close =>
    have : c.streamCloseMeta = c'.streamCloseMeta := Option.some.inj ((hc.close hs).symm.trans (hc'.close hs))
    simp [hft, hs, this]
  | data => simp [hft, hs]
  | feedback => simp [hft, hs]
  | unknown b => simp [hft, hs]

/-- The buffer `b` holds part of the frame `f`, or all of it and more. -/
def Overlaps (f b : Bytes) : Prop := b <+: f ∨ f <+: b

theorem Overlaps.decode {b : Bytes} (ho : Overlaps f b) (hf : prefixSpace ≤ f.length)
    (hb : prefixSpace ≤ b.length) : TrpcFixedHeader.decode b = TrpcFixedHeader.decode f := by
  rcases ho with ⟨r, rfl⟩ | ⟨r, rfl⟩
  · exact (TrpcFixedHeader.decode_append r hb).symm
  · exact TrpcFixedHeader.decode_append r hf

theorem Overlaps.copyOut {b : Bytes} (ho : Overlaps f b) {start size : Nat} (hf : start + size ≤ f.length)
    (hb : start + size ≤ b.length) : Bytes.copyOut start size b = Bytes.copyOut start size f := by
  rcases ho with ⟨r, rfl⟩ | ⟨r, rfl⟩
  · exact (copyOut_append r hb).symm
  · exact copyOut_append r hf

/-! ## The stages on a buffer that overlaps a frame -/

/-- A call on the buffer `b` does the right thing for the frame `f`: it waits while `f` is
incomplete, and finishes it when it is there. -/
structure Advances (pb : Protobuf) (t : MessageType) (f : Bytes) (h : TrpcFixedHeader) (b : Bytes)
    (r : Step TrpcCodec UInt8 Unit Failure) : Prop where
  waits : b <+: f → b ≠ f → ∃ c', r = .wait c' b ∧ Resumes pb t b c' b
  finishes : ∀ rest, b = f ++ rest →
    ∃ c', r = .done c' () rest ∧ c'.decodeStage = .decodeFixedHeader ∧ Loaded pb t f h c' ∧ c'.originMsg = f

theorem length_lt_of_piece {b : Bytes} (hb : b <+: f) (hne : b ≠ f) : b.length < f.length :=
  lt_of_le_of_ne hb.length_le fun hl => hne (hb.eq_of_length hl)

variable {c : TrpcCodec} {b : Bytes}

theorem payload_advances (n : Nat) (hstage : c.decodeStage = .decodePayload) (hsize : c.totalSize = f.length)
    (hl : Loaded pb t f h c) (hw : b <+: f → b ≠ f → Resumes pb t b c b) :
    Advances pb t f h b (onDataLoop pb (n + 1) c b) := by
  rw [onDataLoop_payload pb c b n hstage, hsize]
  refine ⟨fun hb hne => ?_, fun rest hrest => ?_⟩
  · rw [if_pos (length_lt_of_piece hb hne)]
    exact ⟨c, rfl, hw hb hne⟩
  · subst hrest
    rw [if_neg (by simp)]
    rw [List.drop_left, List.take_left]
    exact ⟨_, rfl, rfl, ⟨hl.header, hl.type, hl.unary, hl.init, hl.close⟩, rfl⟩

theorem unary_advances (n : Nat) (hf : WellFormedFrame pb t f h)
    (hstage : c.decodeStage = .decodeUnaryProtocolHeader)
    (hp : Peeked b c) (hh : c.fixedHeader = h) (hu : h.streamFrameType = .unary) (ht : c.messageType = t)
    (ho : Overlaps f b) : Advances pb t f h b (onDataLoop pb (n + 2) c b) := by
  obtain ⟨hlen, hparse⟩ := hf.unary hu
  rw [onDataLoop_unary pb c b n hstage, hp.pbSize, hh]
  by_cases hb : b.length < prefixSpace + h.pbHeaderSize
  · -- the protobuf header is not there yet
    rw [if_pos hb]
    refine ⟨fun _ _ => ⟨c, rfl, rfl, by simp only [hstage]; exact ⟨hp, by rw [hh, hu]⟩⟩, fun rest hrest => ?_⟩
    subst hrest
    simp only [List.length_append] at hb
    omega
  · rw [if_neg hb, ho.copyOut hlen (Nat.not_lt.1 hb)]
    have hsome := onUnaryHeader_isSome pb c (copyOut prefixSpace h.pbHeaderSize f)
    rw [ht, hparse, Option.isSome_iff_exists] at hsome
    obtain ⟨c', hc'⟩ := hsome
    rw [hc']
    have hsame : c'.fixedHeader = h ∧ c'.messageType = t ∧ c'.totalSize = f.length ∧
        c'.protocolHeaderSize = h.pbHeaderSize ∧ ParsedUnary pb t f c' := by
      have hsize : c.totalSize = f.length := by rw [hp.total, hh, hf.size]
      have hpb : c.protocolHeaderSize = h.pbHeaderSize := by rw [hp.pbSize, hh]
      rcases onUnaryHeader_eq_some pb c hc' with ⟨hr, r, hpr, rfl⟩ | ⟨hr, r, hpr, rfl⟩
      · exact ⟨hh, ht, hsize, hpb, by rw [ParsedUnary, if_pos (ht ▸ hr)]; simpa [hh] using hpr⟩
      · exact ⟨hh, ht, hsize, hpb, by rw [ParsedUnary, if_neg (ht ▸ hr)]; simpa [hh] using hpr⟩
    obtain ⟨h1, h2, h3, h4, h5⟩ := hsame
    refine payload_advances n rfl h3 ⟨h1, h2, fun _ => h5, by simp [hu], by simp [hu]⟩ fun _ _ => ⟨rfl, ?_⟩
    refine ⟨⟨by rw [hp.header, hh]; simp [h1], by simp [h1, h3, hf.size], by simp [h1, h4]⟩,
      by simp [h1, hu], ?_, ?_⟩
    · simpa [h1] using hb
    · have := ho.copyOut hlen (Nat.not_lt.1 hb)
      simpa only [ParsedUnary, h1, this] using h5

theorem stream_advances (n : Nat) (hf : WellFormedFrame pb t f h)
    (hstage : c.decodeStage = .decodeStreamFrame)
    (hp : Peeked b c) (hh : c.fixedHeader = h) (hu : h.streamFrameType ≠ .unary) (ht : c.messageType = t)
    (ho : Overlaps f b) : Advances pb t f h b (onDataLoop pb (n + 2) c b) := by
  rw [onDataLoop_stream pb c b n hstage, hp.total, hh, hf.size]
  by_cases hb : b.length < f.length
  · rw [if_pos hb]
    refine ⟨fun _ _ => ⟨c, rfl, rfl, by simp only [hstage]; exact ⟨hp, by rw [hh]; exact hu⟩⟩,
      fun rest hrest => ?_⟩
    subst hrest
    simp only [List.length_append] at hb
    omega
  · have hlen := hf.prefixSpace_le
    have hsize : (f.length + 2 ^ 32 - prefixSpace) % 2 ^ 32 = f.length - prefixSpace := by
      have := hf.length_lt
      simp only [prefixSpace] at hlen ⊢
      omega
    rw [if_neg hb, hsize, ho.copyOut (by omega) (by omega)]
    obtain ⟨c', hc'⟩ := (onStreamFrame_some pb c (copyOut prefixSpace (f.length - prefixSpace) f)).2
      (by rw [hh]; exact hf.stream hu)
    rw [hc']
    have hl : Loaded pb t f h c' ∧ c'.totalSize = f.length := by
      have hsize : c.totalSize = f.length := by rw [hp.total, hh, hf.size]
      rcases onStreamFrame_eq_some pb c hc' with ⟨hi, m, hm, rfl⟩ | ⟨hi, m, hm, rfl⟩ | ⟨hi, rfl⟩ <;>
        rw [hh] at hi
      · exact ⟨⟨hh, ht, by simp [hi], fun _ => hm, by simp [hi]⟩, hsize⟩
      · exact ⟨⟨hh, ht, by simp [hi], by simp [hi], fun _ => hm⟩, hsize⟩
      · rcases hi with hi | hi <;> exact ⟨⟨hh, ht, by simp [hi], by simp [hi], by simp [hi]⟩, hsize⟩
    exact payload_advances n rfl hl.2 ⟨hl.1.header, hl.1.type, hl.1.unary, hl.1.init, hl.1.close⟩
      fun hpre hne => absurd (length_lt_of_piece hpre hne) hb

theorem fixed_advances (n : Nat) (hf : WellFormedFrame pb t f h) (hstage : c.decodeStage = .decodeFixedHeader)
    (ht : c.messageType = t) (ho : Overlaps f b) : Advances pb t f h b (onDataLoop pb (n + 3) c b) := by
  have hlen := hf.prefixSpace_le
  rw [onDataLoop_fixed pb c b (n + 2) hstage]
  by_cases hb : b.length < prefixSpace
  · rw [if_pos hb]
    refine ⟨fun _ _ => ⟨c, rfl, rfl, by simp only [hstage]⟩, fun rest hrest => ?_⟩
    subst hrest
    simp only [List.length_append] at hb
    omega
  · have hd : TrpcFixedHeader.decode b = some h := (ho.decode hlen (Nat.not_lt.1 hb)).trans hf.header
    rw [if_neg hb, hd]
    have hp : Peeked b (withHeader c h) := ⟨hd, rfl, rfl⟩
    by_cases hu : h.streamFrameType = .unary
    · exact unary_advances n hf (by simp [withHeader, hu]) hp rfl hu ht ho
    · exact stream_advances n hf (by simp [withHeader, hu]) hp rfl hu ht ho

theorem onData_advances {p : Bytes} (hf : WellFormedFrame pb t f h) (hR : Resumes pb t p c p)
    (ht : c.messageType = t)
    (hpb : p <+: b) (ho : Overlaps f b) : Advances pb t f h b (onData pb c b) := by
  obtain ⟨r, rfl⟩ := hpb
  have hpeek : Peeked p c → Peeked (p ++ r) c ∧ c.fixedHeader = h := fun hp => by
    have hlen := TrpcFixedHeader.length_of_decode hp.header
    have hd := TrpcFixedHeader.decode_append r hlen
    have hdf := ho.decode hf.prefixSpace_le (by simp only [List.length_append]; omega)
    rw [hd, hp.header, hf.header] at hdf
    exact ⟨⟨hd.trans hp.header, hp.total, hp.pbSize⟩, Option.some.inj hdf⟩
  obtain ⟨-, hR⟩ := hR
  rw [onData]
  cases hs : c.decodeStage with
  | decodeFixedHeader => exact fixed_advances 0 hf hs ht ho
  | decodeUnaryProtocolHeader =>
    simp only [hs] at hR
    obtain ⟨hp, hh⟩ := hpeek hR.1
    exact unary_advances 1 hf hs hp hh (hh ▸ hR.2) ht ho
  | decodeStreamFrame =>
    simp only [hs] at hR
    obtain ⟨hp, hh⟩ := hpeek hR.1
    exact stream_advances 1 hf hs hp hh (hh ▸ hR.2) ht ho
  | decodePayload =>
    simp only [hs] at hR
    obtain ⟨hp₀, hu, hlen, hpu⟩ := hR
    obtain ⟨hp, hh⟩ := hpeek hp₀
    have hpr : ParsedUnary pb t (p ++ r) c := by
      simpa only [ParsedUnary, copyOut_append r hlen] using hpu
    have hlen' : prefixSpace + c.fixedHeader.pbHeaderSize ≤ (p ++ r).length := by
      simp only [List.length_append]
      omega
    have hpf : ParsedUnary pb t f c := by
      have := (hf.unary (hh ▸ hu)).1
      simpa only [ParsedUnary, ho.copyOut (by rw [hh]; exact this) hlen'] using hpr
    refine payload_advances 2 hs (by rw [hp.total, hh, hf.size])
      ⟨hh, ht, fun _ => hpf, by rw [← hh, hu]; simp, by rw [← hh, hu]; simp⟩ fun _ _ => ⟨rfl, ?_⟩
    simp only [hs]
    exact ⟨hp, hu, hlen', hpr⟩

/-! ## Frames -/

theorem resumes_boundary (hc : c.decodeStage = .decodeFixedHeader) (p : Bytes) : Resumes pb t p c p :=
  ⟨rfl, by simp only [hc]⟩

/-- The message type is set anew by every call of `decode`. -/
theorem Resumes.setType {p buf : Bytes} (hR : Resumes pb t p c buf) (t' : MessageType) :
    Resumes pb t p { c with messageType := t' } buf := by
  obtain ⟨hbuf, hR⟩ := hR
  refine ⟨hbuf, ?_⟩
  cases hs : c.decodeStage <;> simp only [hs] at hR ⊢
  all_goals exact ⟨⟨hR.1.header, hR.1.total, hR.1.pbSize⟩, hR.2⟩

/-- A complete frame is finished with everything `toMetadata` reads taken from it. -/
theorem decode_finishes {p rest : Bytes} (hf : WellFormedFrame pb t f h) (hR : Resumes pb t p c p)
    (hpb : p <+: b) (hb : b = f ++ rest) : ∃ c', decode pb c b (Metadata.ofType t : Metadata α) =
      .done c' (toMetadata c' (Metadata.ofType t)) rest ∧ c'.decodeStage = .decodeFixedHeader ∧
        Loaded pb t f h c' ∧ c'.originMsg = f := by
  have hadv := onData_advances hf (hR.setType t) rfl hpb (.inr ⟨rest, hb.symm⟩)
  obtain ⟨c', hr, hstage, hl, horigin⟩ := hadv.finishes rest hb
  exact ⟨c', by simp [decode, Metadata.ofType, hr], hstage, hl, horigin⟩

theorem toMetadata_eq_frameMetadata (hf : WellFormedFrame pb t f h) (hl : Loaded pb t f h c)
    (ho : c.originMsg = f) :
    toMetadata c (Metadata.ofType t : Metadata α) = frameMetadata α pb t f := by
  have hwhole : f = f ++ [] := (List.append_nil f).symm
  obtain ⟨c₀, hd, -, hl₀, ho₀⟩ :=
    decode_finishes (α := α) (c := {}) hf (resumes_boundary rfl []) List.nil_prefix hwhole
  rw [frameMetadata, hd]
  exact toMetadata_loaded hl hl₀ (ho.trans ho₀.symm) _

theorem frameMetadata_ne_heartbeat (ht : t ≠ .heartbeat) :
    (frameMetadata α pb t f).messageType ≠ .heartbeat := by
  rw [frameMetadata]
  cases hd : decode pb {} f (Metadata.ofType t : Metadata α) with
  | wait | fail => simpa [Metadata.ofType] using ht
  | done c' md rest => exact (decode_done pb {} f hd).2.2 ht

theorem frameMetadata_originMessage (hf : WellFormedFrame pb t f h) :
    (frameMetadata α pb t f).originMessage = f := by
  obtain ⟨c, hd, -, hl, ho⟩ := decode_finishes (α := α) (c := {}) hf (resumes_boundary rfl []) List.nil_prefix
    (List.append_nil f).symm
  rw [← toMetadata_eq_frameMetadata hf hl ho]
  rw [toMetadata_originMessage, ho]
  rfl

/-- **A well-formed tRPC frame is one frame of the codec**, however it is cut. -/
theorem isFrame (hf : WellFormedFrame pb t f h) :
    IsFrame ((trpcCodec α pb).decodeAs t) (Resumes pb t) f (frameMetadata α pb t f) where
  ne := by
    have hlen := hf.prefixSpace_le
    rintro rfl
    simp [prefixSpace] at hlen
  waits := by
    rintro p c buf ch hR hpre hne
    obtain rfl : buf = p := hR.1
    have hadv := onData_advances hf (hR.setType t) rfl (List.prefix_append buf ch) (.inl hpre)
    obtain ⟨c', hr, hR'⟩ := hadv.waits hpre hne
    exact ⟨c', buf ++ ch, by simp [Codec.decodeAs, trpcCodec, decode, Metadata.ofType, hr], hR'⟩
  done := by
    rintro p c buf ch rest hR - - hsplit
    obtain rfl : buf = p := hR.1
    obtain ⟨c', hd, hstage, hl, ho⟩ := decode_finishes (α := α) hf hR (List.prefix_append buf ch) hsplit
    exact ⟨c', by rw [← toMetadata_eq_frameMetadata hf hl ho]; exact hd, resumes_boundary hstage []⟩

/-! ## A stream of frames -/

theorem Resumes.idle {buf : Bytes} (hR : Resumes pb t [] c buf) : c.decodeStage = .decodeFixedHeader := by
  obtain ⟨-, hR⟩ := hR
  have hpeek : ¬ Peeked [] c :=
    fun hp => by simpa [prefixSpace] using TrpcFixedHeader.length_of_decode hp.header
  cases hs : c.decodeStage with
  | decodeFixedHeader => rfl
  | _ =>
    simp only [hs] at hR
    exact absurd hR.1 hpeek

/-- The id a request frame carries: a unary frame in its protobuf header, a stream frame in its
fixed header. -/
def CarriesId (pb : Protobuf) (f : Bytes) (h : TrpcFixedHeader) (md : Metadata α) : Prop :=
  if h.streamFrameType = .unary then
    ∃ r, pb.parseRequest (copyOut prefixSpace h.pbHeaderSize f) = some r ∧ md.requestId = r.requestId
  else md.streamId = h.streamId

theorem frameMetadata_carriesId (hf : WellFormedFrame pb .request f h) :
    CarriesId pb f h (frameMetadata α pb .request f) := by
  obtain ⟨c, hd, -, hl, ho⟩ := decode_finishes (α := α) (c := {}) hf (resumes_boundary rfl []) List.nil_prefix
    (List.append_nil f).symm
  rw [← toMetadata_eq_frameMetadata hf hl ho, CarriesId]
  have hh := hl.header
  cases hs : h.streamFrameType with
  | unary =>
    have hp := hl.unary hs
    rw [ParsedUnary, if_pos rfl, hh] at hp
    refine ⟨_, hp, ?_⟩
    simp only [toMetadata, hh, hs, hl.type, if_true, Metadata.putStrings_requestId]
    rfl
  | init =>
    simp only [toMetadata, hh, hs, Metadata.putStrings_streamId]
    rfl
  | unknown b =>
    have := hf.stream (by simp [hs])
    simp [hs, parsesStream] at this
  | _ => simp [toMetadata, hh, hs]

/-- However a stream of well-formed frames is cut into chunks, the proxy is handed one message per
frame, in order: the frame's bytes, its id, and the metadata a codec of its own would decode from
the frame alone. Nothing is left unread and the codec is back in its first stage. -/
theorem frames_received (pb : Protobuf) (fs : List (Bytes × TrpcFixedHeader))
    (hwf : ∀ f ∈ fs, WellFormedFrame pb .request f.1 f.2) (chunks : List Bytes)
    (hcut : chunks.flatten = (fs.map Prod.fst).flatten) {δ : Type} (hd : Handlers δ α) (w : δ) :
    ∃ c, Connection.receive (trpcCodec α pb) .request hd { codec := {}, world := w } chunks = some (.ok c) ∧
      c.calls = fs.map (fun f => .onMessageDecoded (frameMetadata α pb .request f.1)) ∧
      (∀ f ∈ fs, (frameMetadata α pb .request f.1).originMessage = f.1 ∧
        CarriesId pb f.1 f.2 (frameMetadata α pb .request f.1)) ∧
      c.requestBuffer = [] ∧ c.codec.decodeStage = .decodeFixedHeader := by
  have hfs : ∀ f ∈ fs.map Prod.fst,
      IsFrame ((trpcCodec α pb).decodeAs .request) (Resumes pb .request) f
          (frameMetadata α pb .request f) := by
    intro f hf
    obtain ⟨g, hg, rfl⟩ := List.mem_map.1 hf
    exact isFrame (hwf g hg)
  obtain ⟨c, hrun, hbuf, hR, hcalls, -⟩ := Connection.receive_frames hd hfs (fun hR => hR.1) hcut
    (s := {}) (resumes_boundary rfl []) w
  refine ⟨c, hrun, ?_, fun f hf =>
    ⟨frameMetadata_originMessage (hwf f hf), frameMetadata_carriesId (hwf f hf)⟩, hbuf, hR.idle⟩
  rw [hcalls, List.map_map, List.map_map]
  refine List.map_congr_left fun f _ => ?_
  simp [Call.of, frameMetadata_ne_heartbeat]

def mixedFrames : List (Bytes × TrpcFixedHeader) :=
  [([0x09, 0x30, 0, 0, 0, 0, 0, 18, 0, 2, 0, 0, 0, 0, 0, 0, 0x18, 5],
    { dataFrameSize := 18, pbHeaderSize := 2 }),
    ([0x09, 0x30, 1, 2, 0, 0, 0, 17, 0, 0, 0, 0, 0, 7, 0, 0, 0xaa],
      { dataFrameType := 1, streamFrameType := .data, dataFrameSize := 17, streamId := 7 })]

theorem mixedFrames_wellFormed : ∀ f ∈ mixedFrames, WellFormedFrame wireProtobuf .request f.1 f.2 := by
  intro f hf
  simp only [mixedFrames, List.mem_cons, List.not_mem_nil, or_false] at hf
  rcases hf with rfl | rfl
  · exact ⟨by decide, by decide, by decide, by decide⟩
  · exact ⟨by decide, by decide, by decide, by decide⟩

/-- The two frames, cut inside both fixed headers. -/
theorem frames_received_pieces :
    ∃ c, Connection.receive (trpcCodec Unit wireProtobuf) .request (⟨fun _ w => w, fun _ w => w⟩ :
      Handlers Unit Unit)
        { codec := {}, world := () }
        [[0x09, 0x30, 0, 0, 0], [0, 0, 18, 0, 2, 0, 0, 0, 0, 0, 0, 0x18, 5, 0x09, 0x30, 1, 2, 0, 0,
          0, 17, 0, 0], [0, 0, 0, 7, 0, 0, 0xaa]] = some (.ok c) ∧
      c.calls = mixedFrames.map (fun f => .onMessageDecoded (frameMetadata Unit wireProtobuf .request f.1)) ∧
      (∀ f ∈ mixedFrames, (frameMetadata Unit wireProtobuf .request f.1).originMessage = f.1 ∧
        CarriesId wireProtobuf f.1 f.2 (frameMetadata Unit wireProtobuf .request f.1)) ∧
      c.requestBuffer = [] ∧ c.codec.decodeStage = .decodeFixedHeader :=
  frames_received wireProtobuf mixedFrames mixedFrames_wellFormed _ (by decide) _ ()

end MetaProtocolProxy.Trpc
