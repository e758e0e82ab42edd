import MetaProtocolProxy.Trpc.Checker
import MetaProtocolProxy.Decoder
/-
# Does `ConnectionManager::dispatch` end? (conn_manager.cc:109-133 over TrpcCodec)

The only measure of the loop `while (!underflow) decoder_->onData(...)` is the length of
`request_buffer_`, and a finished tRPC frame takes `data_frame_size` bytes from it. No stage
of the checker compares that field with anything but the bytes at hand, so a peer may send
0: the frame is finished, nothing is taken, and the loop decodes it again.

* `dispatch_ends_iff` — for every codec state and buffer, every finished frame takes a byte
  and the loop ends, exactly when the frames at the front of the buffer do not lead to one
  of size zero (`ZeroFrame`).
* `dispatch_diverges` — from a frame boundary a zero-size frame keeps the loop going for
  ever, one new message handler per iteration.
-/
namespace MetaProtocolProxy.Trpc

open Framing (Step)
open TrpcCodec

variable {α : Type} (pb : Protobuf)

/-- `decode` as the request decoder of a connection calls it. -/
abbrev decodeRequest (α : Type) (pb : Protobuf) :
    TrpcCodec → Bytes → Step TrpcCodec UInt8 (Metadata α) Failure :=
  (trpcCodec α pb).decodeAs .request

/-- The calls of `decode` the loop makes on a buffer when the message handlers return. -/
inductive Called (α : Type) (pb : Protobuf) (c : TrpcCodec) (buf : Bytes) : TrpcCodec → Bytes → Prop
  | first : buf ≠ [] → Called α pb c buf c buf
  | next {c₁ c₂ : TrpcCodec} {b₁ b₂ : Bytes} {md : Metadata α} : Called α pb c buf c₁ b₁ →
      decodeRequest α pb c₁ b₁ = .done c₂ md b₂ → b₂ ≠ [] → Called α pb c buf c₂ b₂

/-- Every call that returns `Done` removes at least one byte from the buffer. -/
def DoneShrinks (α : Type) (pb : Protobuf) (c : TrpcCodec) (buf : Bytes) : Prop :=
  ∀ c₁ b₁ c₂ md b₂, Called α pb c buf c₁ b₁ → decodeRequest α pb c₁ b₁ = .done c₂ md b₂ →
    b₂.length < b₁.length

/-- Whatever the handlers do, some number of iterations is enough. -/
def DispatchEnds (α : Type) (pb : Protobuf) (c : TrpcCodec) (buf : Bytes) : Prop :=
  ∀ (δ : Type) (dg : Delegate δ α) (d : DecoderBase) (w : δ),
    ∃ fuel r, dispatch (trpcCodec α pb) .request dg fuel d c w buf = some r

/-- The frames at the front of `buf` lead to an accepted one with `data_frame_size` 0: at
once, or after an accepted frame of `frameSize` bytes. -/
inductive ZeroFrame (pb : Protobuf) : TrpcCodec → Bytes → Prop
  | here {c : TrpcCodec} {buf : Bytes} : buf ≠ [] → accepts pb c buf .request = true → frameSize c buf = 0 →
      ZeroFrame pb c buf
  | later {c : TrpcCodec} {buf : Bytes} : accepts pb c buf .request = true → 0 < frameSize c buf →
      ZeroFrame pb {} (buf.drop (frameSize c buf)) → ZeroFrame pb c buf

theorem ZeroFrame.boundary {pb : Protobuf} {c c' : TrpcCodec} {buf : Bytes} (h : ZeroFrame pb c buf)
    (hc : c.decodeStage = .decodeFixedHeader) (hc' : c'.decodeStage = .decodeFixedHeader) :
    ZeroFrame pb c' buf := by
  obtain ⟨hacc, hsize⟩ := accepts_boundary pb c buf (t := .request) hc hc'
  cases h with
  | here hne ha hz => exact .here hne (hacc ▸ ha) (hsize ▸ hz)
  | later ha hpos hrest => exact .later (hacc ▸ ha) (hsize ▸ hpos) (hsize ▸ hrest)

theorem ZeroFrame.ne_nil {pb : Protobuf} {c : TrpcCodec} {buf : Bytes} (h : ZeroFrame pb c buf) :
    buf ≠ [] := by
  cases h with
  | here hne => exact hne
  | later ha hpos =>
    rintro rfl
    have := frameSize_le pb c [] ha
    simp at this
    omega

theorem ZeroFrame.of_rest {c c' : TrpcCodec} {buf rest : Bytes} {md : Metadata α}
    (h : decodeRequest α pb c buf = .done c' md rest) (hne : buf ≠ []) (hz : ZeroFrame pb c' rest) :
    ZeroFrame pb c buf := by
  have ha := (decode_done_iff pb c buf (α := α)).1 ⟨c', md, rest, h⟩
  obtain ⟨rfl, hs, -⟩ := decode_done pb c buf h
  rcases Nat.eq_zero_or_pos (frameSize c buf) with h0 | hpos
  · exact .here hne ha h0
  · exact .later ha hpos (hz.boundary hs rfl)

/-- Without a zero-size frame ahead, a finished frame takes bytes and has none ahead either. -/
theorem rest_of_not_zeroFrame {c c' : TrpcCodec} {buf rest : Bytes} {md : Metadata α}
    (h : decodeRequest α pb c buf = .done c' md rest) (hne : buf ≠ []) (hz : ¬ ZeroFrame pb c buf) :
    rest.length < buf.length ∧ ¬ ZeroFrame pb c' rest := by
  have ha := (decode_done_iff pb c buf (α := α)).1 ⟨c', md, rest, h⟩
  refine ⟨?_, fun hz' => hz (ZeroFrame.of_rest pb h hne hz')⟩
  obtain ⟨rfl, -, -⟩ := decode_done pb c buf h
  have hpos : 0 < frameSize c buf := Nat.pos_of_ne_zero fun h0 => hz (.here hne ha h0)
  have hlen : 0 < buf.length := List.length_pos_iff.2 hne
  simp only [List.length_drop]
  omega

/-! ## Every finished frame takes a byte -/

theorem not_zeroFrame_of_called {c c₁ : TrpcCodec} {buf b₁ : Bytes} (hz : ¬ ZeroFrame pb c buf)
    (h : Called α pb c buf c₁ b₁) : b₁ ≠ [] ∧ ¬ ZeroFrame pb c₁ b₁ := by
  induction h with
  | first hne => exact ⟨hne, hz⟩
  | next _ hd hne ih => exact ⟨hne, (rest_of_not_zeroFrame pb hd ih.1 ih.2).2⟩

theorem Called.cons {c c₁ c₂ : TrpcCodec} {buf b₁ b₂ : Bytes} {md : Metadata α} (hne : buf ≠ [])
    (h : decodeRequest α pb c buf = .done c₁ md b₁) (hc : Called α pb c₁ b₁ c₂ b₂) :
    Called α pb c buf c₂ b₂ := by
  induction hc with
  | first hne₁ => exact .next (.first hne) h hne₁
  | next _ hd hne' ih => exact .next ih hd hne'

theorem not_doneShrinks_of_zeroFrame {c : TrpcCodec} {buf : Bytes} (hz : ZeroFrame pb c buf) :
    ¬ DoneShrinks α pb c buf := by
  intro hs
  have ha : accepts pb c buf .request = true := by cases hz <;> assumption
  have hne := hz.ne_nil
  obtain ⟨c', md, rest, hd⟩ := (decode_done_iff pb c buf (α := α)).2 ha
  have hlt := hs c buf c' md rest (.first hne) hd
  obtain ⟨hrest, hstage, -⟩ := decode_done pb c buf hd
  cases hz with
  | here _ _ h0 => simp [hrest, h0] at hlt
  | later _ hpos hz' =>
    -- the frame took bytes, so the induction is on what it left
    subst hrest
    have hz₁ : ZeroFrame pb c' (buf.drop (frameSize c buf)) := hz'.boundary rfl hstage
    exact not_doneShrinks_of_zeroFrame hz₁ fun c₁ b₁ c₂ md₂ b₂ hcall =>
      hs c₁ b₁ c₂ md₂ b₂ (Called.cons pb hne hd hcall)
termination_by buf.length

theorem doneShrinks_iff (c : TrpcCodec) (buf : Bytes) : DoneShrinks α pb c buf ↔ ¬ ZeroFrame pb c buf := by
  refine ⟨fun hs hz => not_doneShrinks_of_zeroFrame pb hz hs, fun hz c₁ b₁ c₂ md b₂ hc hd => ?_⟩
  obtain ⟨hne, hz₁⟩ := not_zeroFrame_of_called pb hz hc
  exact (rest_of_not_zeroFrame pb hd hne hz₁).1

/-! ## The loop -/

theorem dispatchLoop_ends {δ : Type} (dg : Delegate δ α) :
    ∀ (fuel : Nat) (d : DecoderBase) (c : TrpcCodec) (w : δ) (buf : Bytes), buf ≠ [] → buf.length ≤ fuel →
      ¬ ZeroFrame pb c buf → ∃ r, dispatchLoop (trpcCodec α pb) .request dg fuel d c w buf = some r
  | 0, _, _, _, buf, hne, hlen, _ => absurd (List.length_eq_zero_iff.1 (Nat.le_zero.1 hlen)) hne
  | fuel + 1, d, c, w, buf, hne, hlen, hz => by
    cases hd : decodeRequest α pb c buf with
    | wait c' rest => exact ⟨_, dispatchLoop_wait fuel hd⟩
    | fail c' rest e => exact ⟨_, dispatchLoop_fail fuel hd⟩
    | done c' md rest =>
      obtain ⟨hlt, hz'⟩ := rest_of_not_zeroFrame pb hd hne hz
      have hb := (decode_done pb c buf hd).2.2 (by decide)
      rw [dispatchLoop_done fuel hd hb]
      rcases dg.newStream md [] w with ⟨e | u, w'⟩
      · exact ⟨_, rfl⟩
      · cases rest with
        | nil => exact ⟨_, rfl⟩
        | cons b rest => exact dispatchLoop_ends dg fuel {} c' w' (b :: rest) (by simp) (by omega) hz'

/-- **A zero-size frame ahead is never left behind**: from a frame boundary, with handlers that
return, no number of iterations ends the loop. -/
theorem dispatch_diverges {δ : Type} (dg : Delegate δ α)
    (hret : ∀ md w, ∃ w', dg.newStream md [] w = (.ok (), w')) :
    ∀ (fuel : Nat) (d : DecoderBase) (c : TrpcCodec) (w : δ) (buf : Bytes), c.decodeStage =
      .decodeFixedHeader →
      ZeroFrame pb c buf → dispatchLoop (trpcCodec α pb) .request dg fuel d c w buf = none
  | 0, _, _, _, _, _, _ => rfl
  | fuel + 1, d, c, w, buf, hc, hz => by
    have ha : accepts pb c buf .request = true := by cases hz <;> assumption
    obtain ⟨c', md, rest, hd⟩ := (decode_done_iff pb c buf (α := α)).2 ha
    obtain ⟨hrest, hstage, hb⟩ := decode_done pb c buf hd
    obtain ⟨w', hw⟩ := hret md w
    have hz' : ZeroFrame pb c' rest := by
      cases hz with
      | here hne ha h0 =>
        -- nothing was taken: the same frame is at the front again
        rw [h0, List.drop_zero] at hrest
        exact hrest ▸ (ZeroFrame.here hne ha h0).boundary hc hstage
      | later _ _ hz' => exact hrest ▸ hz'.boundary rfl hstage
    have hd' : decodeRequest α pb c buf = .done c' md rest := hd
    rw [dispatchLoop_done fuel hd' (hb (by decide)), hw]
    simp only [List.isEmpty_iff, hz'.ne_nil, if_false]
    exact dispatch_diverges dg hret fuel {} c' w' rest hstage hz'

/-- **When `dispatch` ends.** For every codec state and every buffer: each `decode` that returns
`Done` removes at least one byte and the loop makes finitely many iterations, exactly when the
buffer does not lead to a frame whose `data_frame_size` is 0. -/
theorem dispatch_ends_iff (pb : Protobuf) (c : TrpcCodec) (buf : Bytes) :
    (DoneShrinks α pb c buf ∧ DispatchEnds α pb c buf) ↔ ¬ ZeroFrame pb c buf := by
  rw [doneShrinks_iff]
  refine ⟨And.left, fun hz => ⟨hz, fun δ dg d w => ?_⟩⟩
  by_cases hne : buf = []
  · exact ⟨0, ⟨.ok (), d, c, w, buf⟩, by simp [dispatch, hne]⟩
  · obtain ⟨r, hr⟩ := dispatchLoop_ends pb dg buf.length d c w buf hne le_rfl hz
    exact ⟨buf.length, r, by simp [dispatch, hne, hr]⟩

/-- A unary header with `data_frame_size` and `pb_header_size` 0. -/
def zeroSizeFrame : Bytes := [0x09, 0x30, 0, 0, 0, 0, 0, 0, 0, 0, 0, 0, 0, 0, 0, 0]

/-- A fresh codec and these 16 bytes: `decode` returns `Done` without taking a byte, and a
connection whose handlers return never gets out of the loop. -/
theorem zeroSizeFrame_never_ends : ¬ DoneShrinks Unit wireProtobuf {} zeroSizeFrame ∧
    ¬ DispatchEnds Unit wireProtobuf {} zeroSizeFrame := by
  have hz : ZeroFrame wireProtobuf {} zeroSizeFrame := .here (by decide) (by decide) (by decide)
  refine ⟨not_doneShrinks_of_zeroFrame _ hz, fun hends => ?_⟩
  -- the handler counts the messages it is given
  let dg : Delegate Nat Unit :=
    { onHeartbeat := fun _ w => (.ok false, w), newStream := fun _ _ w => (.ok (), w + 1) }
  obtain ⟨fuel, r, hr⟩ := hends Nat dg {} 0
  have hnone := dispatch_diverges wireProtobuf dg (fun _ w => ⟨w + 1, rfl⟩) fuel {} {} 0 zeroSizeFrame rfl hz
  rw [dispatch, if_neg (by decide), hnone] at hr
  cases hr

end MetaProtocolProxy.Trpc
