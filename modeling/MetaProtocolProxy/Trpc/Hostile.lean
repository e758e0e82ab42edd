import MetaProtocolProxy.Lib.Runs
import MetaProtocolProxy.Trpc.Checker
/-
# The tRPC codec on hostile input (codec_checker.cc:51-129, trpc_codec.cc:102-196, protocol.h:84-88)

The frame type, the frame size and the size of the protobuf header are three fields of the fixed
header that the peer chooses, and no stage compares them. A call of `decode` is `CrashFree` if it
ends with `WaitForData`, `Done` or an `EnvoyException`, reads and moves only bytes that are in the
buffer, and none of its `uint32_t` sums and differences wraps.

* `decode_crash_free` — however the bytes arrive, every call is, as long as every header the codec
  reads has a known frame type and a frame size that covers both headers.
* `hostile_headers_crash` — one header for each way in which it is not.

| here | there |
| --- | --- |
| `Access` | what a stage asks of the buffer or computes on `uint32_t`s |
| `stageAccesses`, `accessesLoop` | the accesses of one stage, and of the stages of a call up to the end of `toMetadata` |
-/
namespace MetaProtocolProxy.Trpc

open Bytes TrpcCodec
open Framing (Step)

inductive Access
  | copyOut (start size : Nat)
  | move (size : Nat)
  | sum (a b : Nat)
  | difference (a b : Nat)
  deriving DecidableEq, Repr

def Access.Safe (buffer : Bytes) : Access → Prop
  | .copyOut start size => start + size ≤ buffer.length
  | .move size => size ≤ buffer.length
  | .sum a b => a + b < 2 ^ 32
  | .difference a b => b ≤ a

instance (buffer : Bytes) : (a : Access) → Decidable (a.Safe buffer)
  | .copyOut start size => inferInstanceAs (Decidable (start + size ≤ buffer.length))
  | .move size => inferInstanceAs (Decidable (size ≤ buffer.length))
  | .sum a b => inferInstanceAs (Decidable (a + b < 2 ^ 32))
  | .difference a b => inferInstanceAs (Decidable (b ≤ a))

/-- The accesses of `handleState`; each stage first waits for the bytes it is about to use. -/
def stageAccesses (c : TrpcCodec) (buffer : Bytes) : List Access :=
  match c.decodeStage with
  | .decodeFixedHeader => if buffer.length < prefixSpace then [] else [.copyOut 0 prefixSpace]
  | .decodeUnaryProtocolHeader =>
    if buffer.length < prefixSpace + c.protocolHeaderSize then []
      else [.copyOut prefixSpace c.protocolHeaderSize]
  | .decodeStreamFrame =>
    if buffer.length < c.totalSize then []
    else [.difference c.totalSize prefixSpace,
      .copyOut prefixSpace ((c.totalSize + 2 ^ 32 - prefixSpace) % 2 ^ 32)]
  | .decodePayload => if buffer.length < c.totalSize then [] else [.move c.totalSize]

/-- The accesses of `getHeaderSize` and `getPayloadSize`. -/
def TrpcFixedHeader.accesses (h : TrpcFixedHeader) : List Access :=
  [.sum h.pbHeaderSize prefixSpace, .difference h.dataFrameSize h.getHeaderSize]

/-- The accesses of a call: stage after stage as `onDataLoop` goes on, then those of
`toMetadata`. -/
def accessesLoop (pb : Protobuf) : Nat → TrpcCodec → Bytes → List Access
  | 0, _, _ => []
  | n + 1, c, buffer =>
    stageAccesses c buffer ++
      match handleState pb c buffer with
      | .wait => []
      | .throws _ _ => []
      | .done c _ => c.fixedHeader.accesses
      | .next c => accessesLoop pb n c buffer

/-- The accesses of `TrpcCodec::decode`. -/
def decodeAccesses {α : Type} (pb : Protobuf) (c : TrpcCodec) (buffer : Bytes) (md : Metadata α) :
    List Access :=
  accessesLoop pb 3 { c with messageType := md.messageType } buffer

/-- A call does no harm. -/
structure CrashFree {α : Type} (pb : Protobuf) (c : TrpcCodec) (buffer : Bytes) (md : Metadata α) : Prop where
  throws : ∀ c' rest e, TrpcCodec.decode pb c buffer md = .fail c' rest e → ∃ what, e = .envoyException what
  accesses : ∀ a ∈ decodeAccesses pb c buffer md, a.Safe buffer

structure TrpcFixedHeader.Sound (h : TrpcFixedHeader) : Prop where
  known : ∀ byte, h.streamFrameType ≠ .unknown byte
  fits : h.getHeaderSize ≤ h.dataFrameSize

theorem TrpcFixedHeader.widths_of_decode {p : Bytes} {h : TrpcFixedHeader}
    (hd : TrpcFixedHeader.decode p = some h) :
    h.dataFrameSize < 2 ^ 32 ∧ h.pbHeaderSize < 2 ^ 16 := by
  rw [(TrpcFixedHeader.of_decode hd).2.2]
  exact ⟨peekBE_lt 4 4 p, peekBE_lt 2 8 p⟩

theorem onStreamFrame_ne_error {pb : Protobuf} {c : TrpcCodec} {raw : Bytes} {e : Failure}
    (hknown : ∀ byte, c.fixedHeader.streamFrameType ≠ .unknown byte)
    (hstream : c.fixedHeader.streamFrameType ≠ .unary) : onStreamFrame pb c raw ≠ .error e := by
  unfold onStreamFrame
  cases htype : c.fixedHeader.streamFrameType with
  | unary => exact absurd htype hstream
  | unknown byte => exact absurd htype (hknown byte)
  | init | close | data | feedback => exact nofun

/-! ## One call -/

structure InFrame (c : TrpcCodec) : Prop where
  totalSize : c.totalSize = c.fixedHeader.dataFrameSize
  protocolHeaderSize : c.protocolHeaderSize = c.fixedHeader.pbHeaderSize
  sound : c.fixedHeader.Sound
  widths : c.fixedHeader.dataFrameSize < 2 ^ 32 ∧ c.fixedHeader.pbHeaderSize < 2 ^ 16
  stream : c.decodeStage = .decodeStreamFrame → c.fixedHeader.streamFrameType ≠ .unary

def Ready (c : TrpcCodec) : Prop := c.decodeStage ≠ .decodeFixedHeader → InFrame c

/-- The stages from `c` on do no harm and leave the checker ready for the next call. -/
structure Harmless (pb : Protobuf) (n : Nat) (c : TrpcCodec) (buffer : Bytes) : Prop where
  throws : ∀ c' rest e, onDataLoop pb n c buffer = .fail c' rest e → Ready c' ∧
    ∃ what, e = .envoyException what
  accesses : ∀ a ∈ accessesLoop pb n c buffer, a.Safe buffer
  waits : ∀ c' rest, onDataLoop pb n c buffer = .wait c' rest → Ready c'
  finishes : ∀ c' rest, onDataLoop pb n c buffer = .done c' () rest → Ready c'

namespace Harmless

variable {pb : Protobuf} {c : TrpcCodec} {buffer : Bytes} {n : Nat}

theorem wait (hc : Ready c) (hstage : handleState pb c buffer = .wait) (ha : stageAccesses c buffer = []) :
    Harmless pb (n + 1) c buffer := by
  have hrun : onDataLoop pb (n + 1) c buffer = .wait c buffer := by simp only [onDataLoop, hstage]
  refine ⟨fun c' rest e h => ?_, fun a h => ?_, fun c' rest h => ?_, fun c' rest h => ?_⟩
  · rw [hrun] at h
    cases h
  · simp [accessesLoop, hstage, ha] at h
  · rw [hrun] at h
    cases h
    exact hc
  · rw [hrun] at h
    cases h

theorem throw (hc : Ready c) {what : String}
    (hstage : handleState pb c buffer = .throws c (.envoyException what))
    (ha : ∀ a ∈ stageAccesses c buffer, a.Safe buffer) : Harmless pb (n + 1) c buffer := by
  have hrun : onDataLoop pb (n + 1) c buffer = .fail c buffer (.envoyException what) := by
    simp only [onDataLoop, hstage]
  refine ⟨fun c'' rest e h => ?_, fun a h => ?_, fun c'' rest h => ?_, fun c'' rest h => ?_⟩
  · rw [hrun] at h
    cases h
    exact ⟨hc, what, rfl⟩
  · simp only [accessesLoop, hstage, List.append_nil] at h
    exact ha a h
  · rw [hrun] at h
    cases h
  · rw [hrun] at h
    cases h

theorem next {c' : TrpcCodec} (hstage : handleState pb c buffer = .next c')
    (ha : ∀ a ∈ stageAccesses c buffer, a.Safe buffer) (h : Harmless pb n c' buffer) :
    Harmless pb (n + 1) c buffer := by
  have hrun : onDataLoop pb (n + 1) c buffer = onDataLoop pb n c' buffer := by simp only [onDataLoop, hstage]
  refine ⟨hrun ▸ h.throws, fun a hmem => ?_, hrun ▸ h.waits, hrun ▸ h.finishes⟩
  simp only [accessesLoop, hstage, List.mem_append] at hmem
  rcases hmem with hmem | hmem
  · exact ha a hmem
  · exact h.accesses a hmem

/-- The payload is moved once it is all there, and its size is what is left of the frame. -/
theorem payload (hc : InFrame c) (hstage : c.decodeStage = .decodePayload) :
    Harmless pb (n + 1) c buffer := by
  by_cases hlen : buffer.length < c.totalSize
  · exact wait (fun _ => hc) (by simp [handleState, hstage, decodePayload, hlen])
      (by simp [stageAccesses, hstage, hlen])
  · have hdone : handleState pb c buffer = .done { c with
        originMsg := buffer.take c.totalSize, decodeStage := .decodeFixedHeader, totalSize := 0,
        protocolHeaderSize := 0 } (buffer.drop c.totalSize) := by
      simp [handleState, hstage, decodePayload, hlen]
    refine ⟨fun c' rest e h => ?_, fun a h => ?_, fun c' rest h => ?_, fun c' rest h => ?_⟩
    · simp only [onDataLoop, hdone] at h
      cases h
    · simp only [accessesLoop, hdone, stageAccesses, hstage, if_neg hlen, TrpcFixedHeader.accesses,
        List.mem_append, List.mem_cons, List.not_mem_nil, or_false] at h
      rcases h with rfl | rfl | rfl
      · exact Nat.le_of_not_lt hlen
      · have := hc.widths.2
        simp only [Access.Safe, prefixSpace]
        omega
      · exact hc.sound.fits
    · simp only [onDataLoop, hdone] at h
      cases h
    · simp only [onDataLoop, hdone] at h
      cases h
      exact fun hne => absurd rfl hne

theorem unary (hc : InFrame c) (hstage : c.decodeStage = .decodeUnaryProtocolHeader) :
    Harmless pb (n + 2) c buffer := by
  by_cases hlen : buffer.length < prefixSpace + c.protocolHeaderSize
  · exact wait (fun _ => hc) (by simp [handleState, hstage, decodeUnaryProtocolHeader, hlen])
      (by simp [stageAccesses, hstage, hlen])
  · have ha : ∀ a ∈ stageAccesses c buffer, a.Safe buffer := by
      intro a hmem
      simp only [stageAccesses, hstage, if_neg hlen, List.mem_singleton] at hmem
      rw [hmem]
      exact Nat.le_of_not_lt hlen
    cases hparse : onUnaryHeader pb c (copyOut prefixSpace c.protocolHeaderSize buffer) with
    | none =>
      have hthrow : handleState pb c buffer = .throws c (.envoyException "parse header failed") := by
        simp only [handleState, hstage, decodeUnaryProtocolHeader, if_neg hlen, hparse]
      exact throw (fun _ => hc) hthrow ha
    | some c' =>
      have hnext : handleState pb c buffer = .next { c' with decodeStage := .decodePayload } := by
        simp only [handleState, hstage, decodeUnaryProtocolHeader, if_neg hlen, hparse]
      refine next hnext ha ?_
      -- only a header has been parsed
      rcases onUnaryHeader_eq_some pb c hparse with ⟨-, r, -, rfl⟩ | ⟨-, r, -, rfl⟩
      all_goals exact payload ⟨hc.totalSize, hc.protocolHeaderSize, hc.sound, hc.widths, by simp⟩ rfl

theorem stream (hc : InFrame c) (hstage : c.decodeStage = .decodeStreamFrame) :
    Harmless pb (n + 2) c buffer := by
  by_cases hlen : buffer.length < c.totalSize
  · exact wait (fun _ => hc) (by simp [handleState, hstage, decodeStreamFrame, hlen])
      (by simp [stageAccesses, hstage, hlen])
  · have hsize : prefixSpace ≤ c.totalSize := by
      have := hc.sound.fits
      rw [hc.totalSize]
      unfold TrpcFixedHeader.getHeaderSize at this
      omega
    have hframe : (c.totalSize + 2 ^ 32 - prefixSpace) % 2 ^ 32 = c.totalSize - prefixSpace := by
      have := hc.widths.1
      have := hc.totalSize
      rw [Nat.sub_add_comm hsize, Nat.add_mod_right]
      exact Nat.mod_eq_of_lt (by omega)
    have ha : ∀ a ∈ stageAccesses c buffer, a.Safe buffer := by
      intro a hmem
      simp only [stageAccesses, hstage, if_neg hlen, hframe, List.mem_cons, List.not_mem_nil,
        or_false] at hmem
      rcases hmem with rfl | rfl
      · exact hsize
      · simp only [Access.Safe]
        omega
    cases hparse :
      onStreamFrame pb c (copyOut prefixSpace ((c.totalSize + 2 ^ 32 - prefixSpace) % 2 ^ 32) buffer) with
    | error e => exact absurd hparse (onStreamFrame_ne_error hc.sound.known (hc.stream hstage))
    | ok parsed =>
      cases parsed with
      | none =>
        have hthrow : handleState pb c buffer = .throws c (.envoyException "parse header failed") := by
          simp only [handleState, hstage, decodeStreamFrame, if_neg hlen, hparse]
        exact throw (fun _ => hc) hthrow ha
      | some c' =>
        have hnext : handleState pb c buffer = .next { c' with decodeStage := .decodePayload } := by
          simp only [handleState, hstage, decodeStreamFrame, if_neg hlen, hparse]
        refine next hnext ha ?_
        rcases onStreamFrame_eq_some pb c hparse with ⟨-, m, -, rfl⟩ | ⟨-, m, -, rfl⟩ | ⟨-, rfl⟩
        all_goals exact payload ⟨hc.totalSize, hc.protocolHeaderSize, hc.sound, hc.widths, by simp⟩ rfl

theorem fixed (hstage : c.decodeStage = .decodeFixedHeader)
    (hsound : ∀ h, TrpcFixedHeader.decode buffer = some h → h.Sound) : Harmless pb (n + 3) c buffer := by
  by_cases hlen : buffer.length < prefixSpace
  · exact wait (fun hne => absurd hstage hne) (by simp [handleState, hstage, decodeFixedHeader, hlen])
      (by simp [stageAccesses, hstage, hlen])
  · have ha : ∀ a ∈ stageAccesses c buffer, a.Safe buffer := by
      intro a hmem
      simp only [stageAccesses, hstage, if_neg hlen, List.mem_singleton] at hmem
      rw [hmem]
      simp only [Access.Safe]
      omega
    cases hd : TrpcFixedHeader.decode buffer with
    | none =>
      have hthrow : handleState pb c buffer = .throws c (.envoyException "protocol invalid") := by
        simp only [handleState, hstage, decodeFixedHeader, if_neg hlen, hd]
      exact throw (fun hne => absurd hstage hne) hthrow ha
    | some h =>
      have hin : ∀ stage, (stage = .decodeStreamFrame → h.streamFrameType ≠ .unary) →
          InFrame { c with
            totalSize := h.dataFrameSize, protocolHeaderSize := h.pbHeaderSize, fixedHeader := h,
            decodeStage := stage } := fun stage hstream =>
        ⟨rfl, rfl, hsound h hd, TrpcFixedHeader.widths_of_decode hd, hstream⟩
      by_cases hu : h.streamFrameType = .unary
      · exact next (by simp only [handleState, hstage, decodeFixedHeader, if_neg hlen, hd, if_pos hu]) ha
          (unary (hin .decodeUnaryProtocolHeader (by simp)) rfl)
      · exact next (by simp only [handleState, hstage, decodeFixedHeader, if_neg hlen, hd, if_neg hu]) ha
          (stream (hin .decodeStreamFrame fun _ => hu) rfl)

end Harmless

/-! ## Every call -/

structure Feed where
  codec : TrpcCodec := {}
  buffer : Bytes := []

inductive FeedEvent (α : Type)
  | arrive (chunk : Bytes)
  | decode (md : Metadata α)

namespace Feed

variable {α : Type} (pb : Protobuf)

/-- Bytes are appended to the buffer; a call leaves the codec and the buffer as `decode` does,
whichever way it ends. -/
def step (s : Feed) : FeedEvent α → Feed
  | .arrive chunk => { s with buffer := s.buffer ++ chunk }
  | .decode md =>
    match TrpcCodec.decode pb s.codec s.buffer md with
    | .wait c rest => ⟨c, rest⟩
    | .done c _ rest => ⟨c, rest⟩
    | .fail c rest _ => ⟨c, rest⟩

/-- The header a call is about to read, if it is about to read one, is sound. -/
def ReadsSound (s : Feed) : FeedEvent α → Prop
  | .arrive _ => True
  | .decode _ =>
    s.codec.decodeStage = .decodeFixedHeader → ∀ h, TrpcFixedHeader.decode s.buffer = some h → h.Sound

/-- The call, if the event is one, does no harm. -/
def CallCrashFree (s : Feed) : FeedEvent α → Prop
  | .arrive _ => True
  | .decode md => CrashFree pb s.codec s.buffer md

variable {pb} {s : Feed} {md : Metadata α}

theorem harmless (hready : Ready s.codec) (hsound : ReadsSound s (.decode md)) :
    Harmless pb 3 { s.codec with messageType := md.messageType } s.buffer := by
  have hin (hne : s.codec.decodeStage ≠ .decodeFixedHeader) :
    InFrame { s.codec with messageType := md.messageType } :=
    have hc := hready hne
    ⟨hc.totalSize, hc.protocolHeaderSize, hc.sound, hc.widths, hc.stream⟩
  cases hstage : s.codec.decodeStage with
  | decodeFixedHeader => exact .fixed hstage (hsound hstage)
  | decodeUnaryProtocolHeader => exact .unary (hin (by simp [hstage])) hstage
  | decodeStreamFrame => exact .stream (hin (by simp [hstage])) hstage
  | decodePayload => exact .payload (hin (by simp [hstage])) hstage

theorem crashFree_of_harmless (h : Harmless pb 3 { s.codec with messageType := md.messageType } s.buffer) :
    CrashFree pb s.codec s.buffer md := by
  refine ⟨fun c' rest e hfail => ?_, h.accesses⟩
  unfold TrpcCodec.decode onData at hfail
  split at hfail
  · cases hfail
  next hrun =>
    cases hfail
    exact (h.throws _ _ _ hrun).2
  · cases hfail

theorem ready_step {e : FeedEvent α} (hready : Ready s.codec) (hsound : ReadsSound s e) :
    Ready (step pb s e).codec := by
  cases e with
  | arrive chunk => exact hready
  | decode md =>
    have h : Harmless pb 3 { s.codec with messageType := md.messageType } s.buffer := harmless hready hsound
    cases hrun : onDataLoop pb 3 { s.codec with messageType := md.messageType } s.buffer with
    | wait c rest =>
      simp only [step, TrpcCodec.decode, onData, hrun]
      exact h.waits c rest hrun
    | done c u rest =>
      simp only [step, TrpcCodec.decode, onData, hrun]
      exact h.finishes c rest hrun
    | fail c rest e =>
      simp only [step, TrpcCodec.decode, onData, hrun]
      exact (h.throws c rest e hrun).1

/-- **However the bytes arrive, no call does harm**, if every header the codec reads names a known
frame type and a frame that covers its two headers. -/
theorem decode_crash_free (pb : Protobuf) (es : List (FeedEvent α))
    (h : Runs.Guarded (step pb) ReadsSound {} es) :
    Runs.Guarded (step pb) (CallCrashFree pb) {} es := by
  refine h.ensures (I := fun s => Ready s.codec) (fun s e => ready_step) (fun s e hready hsound => ?_)
    (fun hne => absurd rfl hne)
  cases e with
  | arrive chunk => trivial
  | decode md => exact crashFree_of_harmless (harmless hready hsound)

/-- A fixed header with an empty protobuf header: a frame type and a frame size. -/
def headerOf (frameType frameSize : UInt8) : Bytes :=
  [9, 0x30, 0, frameType, 0, 0, 0, frameSize, 0, 0, 0, 0, 0, 0, 0, 0]

def unaryFive : Bytes := [9, 0x30, 0, 0, 0, 0, 0, 21, 0, 2, 0, 0, 0, 0, 0, 0, 0x18, 5, 7, 8, 9]

/-- It arrives in three pieces. -/
def splitUnary : List (FeedEvent Unit) :=
  [.arrive (unaryFive.take 9), .decode (.ofType .request), .arrive ((unaryFive.drop 9).take 9),
    .decode (.ofType .request), .arrive (unaryFive.drop 18), .decode (.ofType .request)]

theorem split_unary_crash_free :
    Runs.Guarded (step wireProtobuf) ReadsSound {} splitUnary ∧
      Runs.Guarded (step wireProtobuf) (CallCrashFree wireProtobuf) {} splitUnary := by
  have hguard : Runs.Guarded (step wireProtobuf) ReadsSound {} splitUnary := by
    refine ⟨trivial, fun _ h hd => ?_, trivial, fun _ h hd => ?_, trivial, fun hstage => ?_, trivial⟩
    · exact absurd (TrpcFixedHeader.length_of_decode hd) (by decide)
    · have hh : TrpcFixedHeader.decode (unaryFive.take 18) =
        some { dataFrameSize := 21, pbHeaderSize := 2 } := by decide
      cases hh.symm.trans hd
      exact ⟨fun byte => nofun, by decide⟩
    · -- the header has been read
      exact absurd hstage (by decide)
  exact ⟨hguard, decode_crash_free wireProtobuf splitUnary hguard⟩

theorem onData_unknown {c : TrpcCodec} {buffer : Bytes} {h : TrpcFixedHeader} {byte : Nat}
    (hstage : c.decodeStage = .decodeFixedHeader) (hd : TrpcFixedHeader.decode buffer = some h)
    (hu : h.streamFrameType = .unknown byte) (hlen : h.dataFrameSize ≤ buffer.length) :
    onData pb c buffer = .fail (withHeader c h) buffer (.panicked "not reached") := by
  have hprefix : ¬ buffer.length < prefixSpace := Nat.not_lt.2 (TrpcFixedHeader.length_of_decode hd)
  have hnext : (withHeader c h).decodeStage = .decodeStreamFrame := by simp [withHeader, hu]
  have hfull : ¬ buffer.length < (withHeader c h).totalSize := Nat.not_lt.2 hlen
  rw [onData, onDataLoop_fixed pb c buffer 2 hstage, if_neg hprefix]
  simp only [hd]
  rw [onDataLoop_stream pb (withHeader c h) buffer 0 hnext, if_neg hfull]
  simp only [onStreamFrame, withHeader, hu]

/-- An unknown frame type panics. A stream frame of size 0 is 16 bytes too short for the
subtraction, and the copy asks for the wrapped size. A unary frame of size 0 is taken off the buffer
as zero bytes, with a body size that wraps. -/
theorem hostile_headers_crash :
    ¬ CrashFree wireProtobuf {} (headerOf 5 16) (.ofType .request : Metadata Unit) ∧
      ¬ CrashFree wireProtobuf {} (headerOf 2 0) (.ofType .request : Metadata Unit) ∧
      ¬ CrashFree wireProtobuf {} (headerOf 0 0) (.ofType .request : Metadata Unit) := by
  refine ⟨fun h => ?_, fun h => ?_, fun h => ?_⟩
  · have hheader :
        TrpcFixedHeader.decode (headerOf 5 16) =
            some { streamFrameType := .unknown 5, dataFrameSize := 16 } := by
      decide
    obtain ⟨what, hwhat⟩ := h.throws _ _ (.panicked "not reached")
      (by rw [TrpcCodec.decode, onData_unknown rfl hheader rfl (by decide)])
    cases hwhat
  · exact absurd (h.accesses (.copyOut 16 (2 ^ 32 - 16)) (by decide)) (by decide)
  · exact absurd (h.accesses (.difference 0 16) (by decide)) (by decide)

end Feed

end MetaProtocolProxy.Trpc
