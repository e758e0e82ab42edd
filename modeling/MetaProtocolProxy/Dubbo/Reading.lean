import MetaProtocolProxy.Dubbo.Encoder
import MetaProtocolProxy.Dubbo.Frame
/-
# Reading a Dubbo frame in pieces

The machine has seen a piece of a frame in one of two ways (`SeenBy`): all of it is still in the
buffer, or the header has been taken and the buffer holds what there is of the body. A machine that
waits for the rest of a heartbeat has already set its metadata from the header, which it will read
again: `K` says what that metadata may be.

`Readable` is what a frame needs for the machine to get to its end. `Readable.isFrame`: a frame that
has it is one frame of the codec, however it is cut.
-/
namespace MetaProtocolProxy.Dubbo

open Bytes
open Framing (IsFrame)

/-- The machine has seen `p` of a frame: it is all in the buffer, or the header has been taken. -/
inductive SeenBy (K : Bytes → MessageMetadata → Prop) (p : Bytes) (m : DecoderStateMachine)
    (buf : Bytes) : Prop
  | header (hstate : m.state = .onDecodeStreamHeader) (hbuf : buf = p) (hmd : K p m.metadata)
  | body {h : Bytes} {md : MessageMetadata} {ctx : Context} (hlen : h.length = messageSize) (hp :
      p = h ++ buf)
    (hdec : decodeHeader h {} = (md, .ok (some ctx))) (hbeat : ctx.isHeartbeat = false)
    (hm : m = ⟨.onDecodeStreamData, md, { ctx with originMessage := h }⟩)

/-- The header of `f` makes `headed` of the metadata, also when it is read again, and the machine
ends with `read`. -/
structure Readable (K : Bytes → MessageMetadata → Prop) (hs : Hessian2) (f : Frame)
    (headed read : MessageMetadata) : Prop where
  fresh : decodeHeader f.header {} = (headed, .ok (some f.context))
  again : ∀ {p x q md}, K p md → p ++ x = f.header ++ q → decodeHeader f.header md =
    (headed, .ok (some f.context))
  short : ∀ {p x md}, K p md → (p ++ x).length < messageSize → K (p ++ x) md
  kept : ∀ q, K (f.header ++ q) headed
  beat : (headed.messageType = .heartbeatRequest ∨ headed.messageType = .heartbeatResponse) ↔ f.isEvent = true
  event : f.isEvent = true → read = headed
  body : f.isEvent = false → ∀ rest, decodeData hs (f.body ++ rest) f.headedContext headed = .ok (some read)

section Machine

open DecoderStateMachine

variable {K : Bytes → MessageMetadata → Prop} {hs : Hessian2} {f : Frame}
  {headed read : MessageMetadata} {p buf x q rest : Bytes} {m : DecoderStateMachine}

theorem SeenBy.run_short (hr : Readable K hs f headed read) (hm : SeenBy K p m buf)
    (hshort : (p ++ x).length < messageSize) :
    m.run hs (buf ++ x) = .wait m (p ++ x) ∧ SeenBy K (p ++ x) m (p ++ x) := by
  cases hm with
  | header hstate hbuf hmd =>
    subst hbuf
    refine ⟨?_, .header hstate rfl (hr.short hmd hshort)⟩
    obtain ⟨state, md, ctx⟩ := m
    dsimp only at hstate
    subst hstate
    rw [DecoderStateMachine.run, runLoop]
    simp only [handleState, onDecodeStreamHeader, decodeHeader_short hshort, reduceCtorEq, if_false]
  | body hlen hp =>
    rw [hp, List.length_append, List.length_append, hlen] at hshort
    omega

theorem SeenBy.run_body (hr : Readable K hs f headed read) (hev : f.isEvent = false) (hm : SeenBy K p m buf)
    (hpx : p ++ x = f.header ++ q) :
    m.run hs (buf ++ x) = runLoop hs 1 ⟨.onDecodeStreamData, headed, f.headedContext⟩ q := by
  cases hm with
  | header hstate hbuf hmd =>
    rw [hbuf, hpx]
    refine Frame.run_header hstate (hr.again hmd hpx) ?_ q
    rw [hr.beat, hev]
    decide
  | body hlen hp hdec _ hm =>
    -- both begin with 16 bytes of header
    rw [hp, List.append_assoc] at hpx
    obtain ⟨rfl, hq⟩ := List.append_inj hpx (hlen.trans f.header_length.symm)
    rw [hr.fresh] at hdec
    cases hdec
    rw [hm, hq]
    exact runLoop_stable hs (Nat.le_refl 1) q

theorem SeenBy.run_heartbeat (hr : Readable K hs f headed read) (hev : f.isEvent = true)
    (hm : SeenBy K p m buf) (hpx : p ++ x = f.header ++ q) :
    m.run hs (buf ++ x) =
      if q.length < f.body.length then .wait ⟨.onDecodeStreamHeader, headed, f.context⟩ (f.header ++ q)
      else .done ⟨.done, headed, { f.context with originMessage := f.header ++ q.take f.body.length }⟩ ()
        (q.drop f.body.length) := by
  cases hm with
  | header hstate hbuf hmd =>
    rw [hbuf, hpx]
    exact Frame.run_heartbeat hstate (hr.again hmd hpx) (hr.beat.2 hev) q
  | body hlen hp hdec hbeat hm =>
    rw [hp, List.append_assoc] at hpx
    obtain ⟨rfl, hq⟩ := List.append_inj hpx (hlen.trans f.header_length.symm)
    rw [hr.fresh] at hdec
    cases hdec
    exact absurd hev (by simpa [Frame.context] using hbeat)

theorem SeenBy.run_waits (hr : Readable K hs f headed read) (hm : SeenBy K p m buf)
    (hpre : p ++ x <+: f.bytes)
    (hne : p ++ x ≠ f.bytes) : ∃ m' buf', m.run hs (buf ++ x) = .wait m' buf' ∧
      SeenBy K (p ++ x) m' buf' := by
  by_cases hshort : (p ++ x).length < messageSize
  · obtain ⟨hrun, hseen⟩ := hm.run_short hr hshort
    exact ⟨m, p ++ x, hrun, hseen⟩
  · -- the header is there, and a proper piece `q` of the body
    obtain ⟨q, hq⟩ : f.header <+: p ++ x :=
      List.prefix_of_prefix_length_le (List.prefix_append _ _) hpre (by rw [f.header_length]; omega)
    have hqlt : q.length < f.body.length := by
      rw [← hq, Frame.bytes, List.prefix_append_right_inj] at hpre
      refine lt_of_le_of_ne hpre.length_le fun hl => hne ?_
      rw [← hq, hpre.eq_of_length hl, Frame.bytes]
    cases hev : f.isEvent with
    | true =>
      refine ⟨_, _, (hm.run_heartbeat hr hev hq.symm).trans (if_pos hqlt), .header rfl hq ?_⟩
      rw [← hq]
      exact hr.kept q
    | false =>
      refine ⟨_, _, (hm.run_body hr hev hq.symm).trans (Frame.runLoop_body_wait 0 hqlt), ?_⟩
      exact .body f.header_length hq.symm hr.fresh hev rfl

theorem SeenBy.run_done (hr : Readable K hs f headed read) (hm : SeenBy K p m buf)
    (hpx : p ++ x = f.bytes ++ rest) :
    m.run hs (buf ++ x) = .done ⟨.done, read, { f.context with originMessage := f.bytes }⟩ () rest := by
  rw [Frame.bytes, List.append_assoc] at hpx
  cases hev : f.isEvent with
  | true =>
    rw [hm.run_heartbeat hr hev hpx, if_neg (by simp), hr.event hev]
    simp [Frame.bytes]
  | false => rw [hm.run_body hr hev hpx, Frame.runLoop_body_done 0 (hr.body hev rest)]

end Machine

/-- How the codec has seen `p` of a frame. -/
def ResumesBy (K : Bytes → MessageMetadata → Prop) (p : Bytes) (c : DubboCodec) (buf : Bytes) : Prop :=
  SeenBy K p (c.stateMachine.getD {}) buf

section Codec

variable {K : Bytes → MessageMetadata → Prop} {hs : Hessian2} {f : Frame}
  {headed read : MessageMetadata} {t : MessageType} {md : Metadata DubboAny}

/-- The codec delivers the frame's message and is idle, however much it had seen before. -/
theorem ResumesBy.decode_done (hr : Readable K hs f headed read)
    (hmd : toMetadata hs read { f.context with originMessage := f.bytes } (Metadata.ofType t) =
      .ok md) {p buf x rest : Bytes}
    {c : DubboCodec} (hR : ResumesBy K p c buf) (hpx : p ++ x = f.bytes ++ rest) :
    c.decode hs (buf ++ x) (Metadata.ofType t) = .done {} md rest := by
  simp only [DubboCodec.decode, SeenBy.run_done hr hR hpx, hmd]

theorem Readable.isFrame (encodeMap : List (Object × Object) → Bytes)
    (hr : Readable K hs f headed read) (hidle : K [] {})
    (hmd : toMetadata hs read { f.context with originMessage := f.bytes } (Metadata.ofType t) = .ok md) :
    IsFrame ((dubboCodec hs encodeMap).decodeAs t) (ResumesBy K) f.bytes md where
  ne := by simp [Frame.bytes, f.header_ne_nil]
  waits hR hpre hne := by
    obtain ⟨m', buf', hrun, hseen⟩ := SeenBy.run_waits hr hR hpre hne
    refine ⟨⟨some m'⟩, buf', ?_, hseen⟩
    simp only [Codec.decodeAs, dubboCodec, DubboCodec.decode, hrun]
  done hR _ _ hpx := ⟨{}, hR.decode_done hr hmd hpx, .header rfl rfl hidle⟩

end Codec

end MetaProtocolProxy.Dubbo
