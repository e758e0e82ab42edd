import MetaProtocolProxy.Trpc.Codec
/-
# What the tRPC checker accepts (application_protocols/trpc/codec_checker.cc)

The stages of `CodecChecker::onData` unrolled: one equation per stage
(`onDataLoop_fixed`, `onDataLoop_unary`, `onDataLoop_stream`, `onDataLoop_payload`), and
from them one specification of a whole call. `accepts` says on the checker's fields and
the buffered bytes when a call finishes a frame, `frameSize` how many bytes it then takes:
the peer's `data_frame_size`, whatever its value. `decode_done_iff` and `decode_done` carry
this to `TrpcCodec::decode`.
-/
namespace MetaProtocolProxy.Trpc
open Bytes
open Framing (Step)

namespace TrpcCodec
variable (pb : Protobuf) (c : TrpcCodec) (buf : Bytes)

/-- The protobuf part `headerRaw` of a unary frame parses. -/
def parsesUnary (t : MessageType) (headerRaw : Bytes) : Bool :=
  if t = .request then (pb.parseRequest headerRaw).isSome else (pb.parseResponse headerRaw).isSome

/-- The rest of a stream frame parses; only the init and close frames are looked at. -/
def parsesStream (ft : StreamFrameType) (headerRaw : Bytes) : Bool :=
  match ft with
  | .init => (pb.parseInit headerRaw).isSome
  | .close => (pb.parseClose headerRaw).isSome
  | .data => true
  | .feedback => true
  | _ => false

def acceptsUnary (t : MessageType) (total pbSize : Nat) : Bool :=
  prefixSpace + pbSize ≤ buf.length && parsesUnary pb t (copyOut prefixSpace pbSize buf) && total ≤ buf.length

def acceptsStream (ft : StreamFrameType) (total : Nat) : Bool :=
  total ≤ buf.length && parsesStream pb ft (copyOut prefixSpace ((total + 2 ^ 32 - prefixSpace) % 2 ^ 32) buf)

/-- The bytes at hand hold a frame the checker finishes from the stage it is in. -/
def accepts (t : MessageType) : Bool :=
  match c.decodeStage with
  | .decodeFixedHeader =>
    match TrpcFixedHeader.decode buf with
    | none => false
    | some h =>
      if h.streamFrameType = .unary then acceptsUnary pb buf t h.dataFrameSize h.pbHeaderSize
      else acceptsStream pb buf h.streamFrameType h.dataFrameSize
  | .decodeUnaryProtocolHeader => acceptsUnary pb buf t c.totalSize c.protocolHeaderSize
  | .decodeStreamFrame => acceptsStream pb buf c.fixedHeader.streamFrameType c.totalSize
  | .decodePayload => c.totalSize ≤ buf.length

/-- What a finished frame takes from the buffer: the `data_frame_size` of its header, read
now or when the header was decoded. -/
def frameSize : Nat :=
  match c.decodeStage with
  | .decodeFixedHeader => peekBE 4 4 buf
  | _ => c.totalSize

theorem onDataLoop_payload (n : Nat) (h : c.decodeStage = .decodePayload) :
    onDataLoop pb (n + 1) c buf =
      if buf.length < c.totalSize then .wait c buf
      else .done { c with
          originMsg := buf.take c.totalSize, decodeStage := .decodeFixedHeader, totalSize := 0,
          protocolHeaderSize := 0 } () (buf.drop c.totalSize) := by
  by_cases h1 : buf.length < c.totalSize <;> simp [onDataLoop, handleState, h, decodePayload, h1]

/-- The checker once the fixed header `h` is known. -/
def withHeader (h : TrpcFixedHeader) : TrpcCodec :=
  { c with totalSize := h.dataFrameSize, protocolHeaderSize := h.pbHeaderSize, fixedHeader := h,
           decodeStage :=
             if h.streamFrameType = .unary then .decodeUnaryProtocolHeader else .decodeStreamFrame }

theorem onDataLoop_fixed (n : Nat) (h : c.decodeStage = .decodeFixedHeader) :
    onDataLoop pb (n + 1) c buf =
      if buf.length < prefixSpace then .wait c buf
      else match TrpcFixedHeader.decode buf with
        | none => .fail c buf (.envoyException "protocol invalid")
        | some hd => onDataLoop pb n (withHeader c hd) buf := by
  rw [onDataLoop]
  simp only [handleState, h, decodeFixedHeader]
  by_cases h1 : buf.length < prefixSpace
  · simp [h1]
  · simp only [h1, if_false]
    rcases TrpcFixedHeader.decode buf with _ | hd
    · rfl
    · by_cases hu : hd.streamFrameType = .unary <;> simp [withHeader, hu]

theorem onDataLoop_unary (n : Nat) (h : c.decodeStage = .decodeUnaryProtocolHeader) :
    onDataLoop pb (n + 2) c buf =
      if buf.length < prefixSpace + c.protocolHeaderSize then .wait c buf
      else match onUnaryHeader pb c (copyOut prefixSpace c.protocolHeaderSize buf) with
        | none => .fail c buf (.envoyException "parse header failed")
        | some c' => onDataLoop pb (n + 1) { c' with decodeStage := .decodePayload } buf := by
  rw [onDataLoop]
  simp only [handleState, h, decodeUnaryProtocolHeader]
  by_cases h1 : buf.length < prefixSpace + c.protocolHeaderSize
  · simp [h1]
  · simp only [h1, if_false]
    cases onUnaryHeader pb c (copyOut prefixSpace c.protocolHeaderSize buf) <;> rfl

theorem onDataLoop_stream (n : Nat) (h : c.decodeStage = .decodeStreamFrame) :
    onDataLoop pb (n + 2) c buf =
      if buf.length < c.totalSize then .wait c buf
      else match onStreamFrame pb c
        (copyOut prefixSpace ((c.totalSize + 2 ^ 32 - prefixSpace) % 2 ^ 32) buf) with
        | .error e => .fail c buf e
        | .ok none => .fail c buf (.envoyException "parse header failed")
        | .ok (some c') => onDataLoop pb (n + 1) { c' with decodeStage := .decodePayload } buf := by
  rw [onDataLoop]
  simp only [handleState, h, decodeStreamFrame]
  by_cases h1 : buf.length < c.totalSize
  · simp [h1]
  · simp only [h1, if_false]
    rcases onStreamFrame pb c (copyOut prefixSpace ((c.totalSize + 2 ^ 32 - prefixSpace) % 2 ^ 32) buf) with
      e | _ | c' <;> rfl

theorem onDataLoop_stable (n : Nat) : onDataLoop pb (n + 3) c buf = onData pb c buf := by
  have hp : ∀ (k : Nat) (c : TrpcCodec), c.decodeStage = .decodePayload →
      onDataLoop pb (k + 1) c buf = onDataLoop pb 1 c buf := fun k c h => by
    rw [onDataLoop_payload pb c buf k h, onDataLoop_payload pb c buf 0 h]
  have hp' : ∀ (k : Nat) (c : TrpcCodec), onDataLoop pb (k + 1) { c with decodeStage := .decodePayload } buf =
      onDataLoop pb 1 { c with decodeStage := .decodePayload } buf := fun k c => hp k _ rfl
  have h2 : ∀ (k : Nat) (c : TrpcCodec), c.decodeStage ≠ .decodeFixedHeader →
      onDataLoop pb (k + 2) c buf = onDataLoop pb 2 c buf := by
    intro k c hne
    cases hs : c.decodeStage with
    | decodeFixedHeader => exact absurd hs hne
    | decodePayload => rw [hp (k + 1) c hs, ← hp 1 c hs]
    | decodeUnaryProtocolHeader =>
      rw [onDataLoop_unary pb c buf k hs, onDataLoop_unary pb c buf 0 hs]
      simp only [hp' k]
    | decodeStreamFrame =>
      rw [onDataLoop_stream pb c buf k hs, onDataLoop_stream pb c buf 0 hs]
      simp only [hp' k]
  rw [onData]
  by_cases hf : c.decodeStage = .decodeFixedHeader
  · rw [onDataLoop_fixed pb c buf (n + 2) hf, onDataLoop_fixed pb c buf 2 hf]
    have hw : ∀ hd, onDataLoop pb (n + 2) (withHeader c hd) buf = onDataLoop pb 2 (withHeader c hd) buf := by
      intro hd
      exact h2 n _ (by simp only [withHeader]; split <;> simp)
    simp only [hw]
  · rw [show n + 3 = n + 1 + 2 from rfl, h2 (n + 1) c hf, ← h2 1 c hf]

theorem onUnaryHeader_isSome (raw : Bytes) :
    (onUnaryHeader pb c raw).isSome = parsesUnary pb c.messageType raw := by
  by_cases h : c.messageType = .request <;> simp [onUnaryHeader, parsesUnary, h]

/-- `onUnaryHeader` sets the header of its message type and nothing else. -/
theorem onUnaryHeader_eq_some {raw : Bytes} {c' : TrpcCodec} (h : onUnaryHeader pb c raw = some c') :
    (c.messageType = .request ∧ ∃ r, pb.parseRequest raw = some r ∧ c' = { c with requestHeader := r }) ∨
      (c.messageType ≠ .request ∧ ∃ r, pb.parseResponse raw = some r ∧
          c' = { c with responseHeader := r }) := by
  simp only [onUnaryHeader] at h
  split at h <;> simp only [Option.map_eq_some_iff] at h <;> obtain ⟨r, hr, rfl⟩ := h
  · exact .inl ⟨‹_›, r, hr, rfl⟩
  · exact .inr ⟨‹_›, r, hr, rfl⟩

theorem onStreamFrame_some (raw : Bytes) :
    (∃ c', onStreamFrame pb c raw = .ok (some c')) ↔
      parsesStream pb c.fixedHeader.streamFrameType raw = true := by
  simp only [onStreamFrame, parsesStream]
  cases c.fixedHeader.streamFrameType <;>
    simp [Option.isSome_iff_exists, Except.ok.injEq]

/-- `onStreamFrame` sets the meta of an init or close frame and nothing else. -/
theorem onStreamFrame_eq_some {raw : Bytes} {c' : TrpcCodec} (h : onStreamFrame pb c raw = .ok (some c')) :
    (c.fixedHeader.streamFrameType = .init ∧ ∃ m, pb.parseInit raw = some m ∧
      c' = { c with streamInitMeta := m }) ∨
      (c.fixedHeader.streamFrameType = .close ∧
        ∃ m, pb.parseClose raw = some m ∧ c' = { c with streamCloseMeta := m }) ∨
      ((c.fixedHeader.streamFrameType = .data ∨ c.fixedHeader.streamFrameType = .feedback) ∧ c' = c) := by
  simp only [onStreamFrame] at h
  split at h <;> simp only [Except.ok.injEq, Option.map_eq_some_iff, Option.some.injEq, reduceCtorEq] at h
  · obtain ⟨m, hm, rfl⟩ := h
    exact .inl ⟨‹_›, m, hm, rfl⟩
  · obtain ⟨m, hm, rfl⟩ := h
    exact .inr (.inl ⟨‹_›, m, hm, rfl⟩)
  · exact .inr (.inr ⟨.inl ‹_›, h.symm⟩)
  · exact .inr (.inr ⟨.inr ‹_›, h.symm⟩)

/-- `r` finishes a frame and leaves `rest`, with the checker back at its first stage, if `ok`;
otherwise it does not finish. -/
def Outcome (ok : Bool) (r : Step TrpcCodec UInt8 Unit Failure) (rest : Bytes) : Prop :=
  if ok then ∃ c', r = .done c' () rest ∧ c'.decodeStage = .decodeFixedHeader else ∀ c' rest',
    r ≠ .done c' () rest'

theorem outcome_payload (n : Nat) (h : c.decodeStage = .decodePayload) :
    Outcome (c.totalSize ≤ buf.length) (onDataLoop pb (n + 1) c buf) (buf.drop c.totalSize) := by
  rw [onDataLoop_payload pb c buf n h]
  by_cases hlen : buf.length < c.totalSize
  · simp [Outcome, hlen]
  · simp [Outcome, hlen, Nat.not_lt.1 hlen]

theorem outcome_unary (n : Nat) (h : c.decodeStage = .decodeUnaryProtocolHeader) :
    Outcome (acceptsUnary pb buf c.messageType c.totalSize c.protocolHeaderSize) (onDataLoop pb (n + 2) c buf)
      (buf.drop c.totalSize) := by
  rw [onDataLoop_unary pb c buf n h, acceptsUnary]
  by_cases hlen : buf.length < prefixSpace + c.protocolHeaderSize
  · simp [Outcome, hlen, Nat.not_le.2 hlen]
  · have hp := onUnaryHeader_isSome pb c (copyOut prefixSpace c.protocolHeaderSize buf)
    rw [if_neg hlen, ← hp, decide_eq_true (Nat.not_lt.1 hlen)]
    cases hu : onUnaryHeader pb c (copyOut prefixSpace c.protocolHeaderSize buf) with
    | none => simp [Outcome]
    | some c' =>
      have ht : c'.totalSize = c.totalSize := by
        rcases onUnaryHeader_eq_some pb c hu with ⟨-, r, -, rfl⟩ | ⟨-, r, -, rfl⟩ <;> rfl
      simpa [ht] using outcome_payload pb { c' with decodeStage := .decodePayload } buf n rfl

theorem outcome_stream (n : Nat) (h : c.decodeStage = .decodeStreamFrame) :
    Outcome (acceptsStream pb buf c.fixedHeader.streamFrameType c.totalSize) (onDataLoop pb (n + 2) c buf)
      (buf.drop c.totalSize) := by
  rw [onDataLoop_stream pb c buf n h, acceptsStream]
  by_cases hlen : buf.length < c.totalSize
  · simp [Outcome, hlen, Nat.not_le.2 hlen]
  · rw [if_neg hlen, decide_eq_true (Nat.not_lt.1 hlen), Bool.true_and]
    generalize hraw : copyOut prefixSpace ((c.totalSize + 2 ^ 32 - prefixSpace) % 2 ^ 32) buf = raw
    have hp := onStreamFrame_some pb c raw
    rcases hs : onStreamFrame pb c raw with e | _ | c'
    · simp only [hs, reduceCtorEq, exists_false, false_iff, Bool.not_eq_true] at hp
      simp [Outcome, hp]
    · simp only [hs, Except.ok.injEq, reduceCtorEq, exists_false, false_iff, Bool.not_eq_true] at hp
      simp [Outcome, hp]
    · have hok := hp.1 ⟨c', hs⟩
      have ht : c'.totalSize = c.totalSize := by
        rcases onStreamFrame_eq_some pb c hs with ⟨-, m, -, rfl⟩ | ⟨-, m, -, rfl⟩ | ⟨-, rfl⟩ <;> rfl
      have := outcome_payload pb { c' with decodeStage := .decodePayload } buf n rfl
      simpa [ht, hok, Nat.not_lt.1 hlen] using this

/-- **One spec for `CodecChecker::onData`**: it finishes exactly the frames `accepts` allows,
and then takes `frameSize` bytes. -/
theorem onData_outcome :
    Outcome (accepts pb c buf c.messageType) (onData pb c buf) (buf.drop (frameSize c buf)) := by
  rw [onData]
  cases hs : c.decodeStage with
  | decodePayload => simpa [accepts, frameSize, hs] using outcome_payload pb c buf 2 hs
  | decodeUnaryProtocolHeader => simpa [accepts, frameSize, hs] using outcome_unary pb c buf 1 hs
  | decodeStreamFrame => simpa [accepts, frameSize, hs] using outcome_stream pb c buf 1 hs
  | decodeFixedHeader =>
    rw [onDataLoop_fixed pb c buf 2 hs]
    simp only [accepts, frameSize, hs]
    by_cases hlen : buf.length < prefixSpace
    · simp [TrpcFixedHeader.decode, hlen, Outcome]
    · rw [if_neg hlen]
      cases hd : TrpcFixedHeader.decode buf with
      | none => simp [Outcome]
      | some h =>
        have hsize := TrpcFixedHeader.dataFrameSize_of_decode hd
        by_cases hu : h.streamFrameType = .unary
        · simpa [withHeader, hu, hsize] using outcome_unary pb (withHeader c h) buf 0
            (by simp [withHeader, hu])
        · simpa [withHeader, hu, hsize] using outcome_stream pb (withHeader c h) buf 0
            (by simp [withHeader, hu])

/-! ## `TrpcCodec::decode` -/

variable {α : Type} {t : MessageType}

/-- The codec keeps the decoder's type or sets a streaming one; it never reports a heartbeat. -/
theorem toMetadata_ne_heartbeat (ht : t ≠ .heartbeat) :
    (toMetadata c (Metadata.ofType t : Metadata α)).messageType ≠ .heartbeat := by
  cases hft : c.fixedHeader.streamFrameType with
  | unary => by_cases hr : c.messageType = .request <;>
      simp [toMetadata, hft, hr, Metadata.putStrings_messageType, Metadata.putString, Metadata.ofType, ht]
  | close => by_cases hc : c.streamCloseMeta.closeType = 0 <;> simp [toMetadata, hft, hc]
  | init => simp [toMetadata, hft, Metadata.putStrings_messageType, Metadata.putString]
  | data => simp [toMetadata, hft]
  | feedback => simp [toMetadata, hft]
  | unknown b => simp [toMetadata, hft, Metadata.ofType, ht]

theorem accepts_messageType (t' : MessageType) :
    accepts pb { c with messageType := t' } buf t = accepts pb c buf t := rfl

/-- A call of `decode` finishes a frame exactly when `accepts` allows it. -/
theorem decode_done_iff :
    (∃ c' md rest, decode pb c buf (Metadata.ofType t : Metadata α) = .done c' md rest) ↔
      accepts pb c buf t = true := by
  have ho := onData_outcome pb { c with messageType := t } buf
  simp only [accepts_messageType] at ho
  simp only [decode, Metadata.ofType]
  cases hacc : accepts pb c buf t with
  | true =>
    simp only [hacc, Outcome, if_true] at ho
    obtain ⟨c', hr, -⟩ := ho
    simp [hr]
  | false =>
    simp only [hacc, Outcome, Bool.false_eq_true, if_false] at ho
    cases hr : onData pb { c with messageType := t } buf with
    | wait | fail => simp
    | done c' u rest => exact absurd hr (ho c' rest)

/-- …and then it has taken `frameSize` bytes and is back at the first stage. -/
theorem decode_done {c' : TrpcCodec} {md : Metadata α} {rest : Bytes}
    (h : decode pb c buf (Metadata.ofType t : Metadata α) = .done c' md rest) :
    rest = buf.drop (frameSize c buf) ∧ c'.decodeStage = .decodeFixedHeader ∧
      (t ≠ .heartbeat → md.messageType ≠ .heartbeat) := by
  have hacc := (decode_done_iff pb c buf (α := α) (t := t)).1 ⟨c', md, rest, h⟩
  have ho := onData_outcome pb { c with messageType := t } buf
  simp only [accepts_messageType, hacc, Outcome, if_true] at ho
  obtain ⟨c₁, hr, hs⟩ := ho
  simp only [decode, Metadata.ofType, hr, Step.done.injEq] at h
  obtain ⟨rfl, rfl, rfl⟩ := h
  exact ⟨rfl, hs, fun ht => toMetadata_ne_heartbeat c₁ ht⟩

theorem decode_wait {c' : TrpcCodec} {rest : Bytes}
    (h : decode pb c buf (Metadata.ofType t : Metadata α) = .wait c' rest) : rest = buf := by
  have hloop : ∀ (n : Nat) (c : TrpcCodec), onDataLoop pb n c buf = .wait c' rest → rest = buf := by
    intro n
    induction n with
    | zero => simp [onDataLoop]
    | succ n ih =>
      intro c hr
      rw [onDataLoop] at hr
      cases hs : handleState pb c buf with
      | wait => simp only [hs, Step.wait.injEq] at hr; exact hr.2.symm
      | next c₁ => simp only [hs] at hr; exact ih c₁ hr
      | done | throws => simp [hs] at hr
  simp only [decode, Metadata.ofType] at h
  cases hr : onData pb { c with messageType := t } buf with
  | wait c₁ rest₁ =>
    simp only [hr, Step.wait.injEq] at h
    obtain ⟨rfl, rfl⟩ := h
    exact hloop 3 _ hr
  | fail | done => simp [hr] at h

theorem accepts_boundary {c' : TrpcCodec} (h : c.decodeStage = .decodeFixedHeader)
    (h' : c'.decodeStage = .decodeFixedHeader) :
    accepts pb c buf t = accepts pb c' buf t ∧ frameSize c buf = frameSize c' buf := by
  simp [accepts, frameSize, h, h']

theorem frameSize_le (h : accepts pb c buf t = true) : frameSize c buf ≤ buf.length := by
  simp only [accepts, frameSize] at h ⊢
  cases hs : c.decodeStage with
  | decodePayload => simpa [hs] using h
  | decodeUnaryProtocolHeader =>
    simp only [hs, acceptsUnary, Bool.and_eq_true, decide_eq_true_eq] at h; exact h.2
  | decodeStreamFrame => simp only [hs, acceptsStream, Bool.and_eq_true, decide_eq_true_eq] at h; exact h.1
  | decodeFixedHeader =>
    simp only [hs] at h
    cases hd : TrpcFixedHeader.decode buf with
    | none => simp [hd] at h
    | some hdr =>
      have hsize := TrpcFixedHeader.dataFrameSize_of_decode hd
      simp only [hd] at h
      split at h
      · simp only [acceptsUnary, Bool.and_eq_true, decide_eq_true_eq] at h; simpa [← hsize] using h.2
      · simp only [acceptsStream, Bool.and_eq_true, decide_eq_true_eq] at h; simpa [← hsize] using h.1

end TrpcCodec
end MetaProtocolProxy.Trpc
