import MetaProtocolProxy.Receive
import MetaProtocolProxy.Lib.Bytes
/-
# bRPC (application_protocols/brpc: protocol.h, protocol.cc, brpc_codec.h, brpc_codec.cc)

A bRPC frame is a header of 12 bytes (four bytes of magic that the decoder skips, `body_len`,
`meta_len`) and a body of `body_len` bytes that starts with `meta_len` bytes of protobuf.

`decode_status` is the state the decoder resumes from and also what a handler answers; an
answer `WaitForData` is stored in it, and `handleState` has no case for it. So a codec that has
waited once never decodes again.

* `received_iff` — a stream of frames cut into chunks is decoded like the whole stream at once
  exactly when nothing is left of any chunk but the last (`CutApart`), as the decoder cuts them; if
  no frame has 2^32 bytes or more, that is when every chunk ends where a frame ends.
* `split_frame_panics` — one frame in two chunks.
* `frame_exact_iff` — a call takes the frame its header declares, and parses inside it, exactly when
  the frame's size is a `uint32_t` and the meta is not longer than the body.
* `sizes_wrap` — a frame of zero bytes, and a meta that is read from the next frame.

| here | there |
| --- | --- |
| `BrpcHeader` | `_body_len`, `_meta_len`; not initialised there, and not read before `decode` |
| `decodeBody`, first failure | `Buffer::linearize`, which ends the process on a size beyond the buffer |

`messageType_` and `meta_` are only logged and not modelled.
-/
namespace MetaProtocolProxy.Brpc

open Bytes Framing

variable {α δ : Type}

/-- `BrpcHeader::HEADER_SIZE`. -/
def headerSize : Nat := 12

structure BrpcHeader where
  bodyLen : Nat := 0
  metaLen : Nat := 0
  deriving DecidableEq, Repr

/-- `BrpcHeader::decode`. -/
def BrpcHeader.decode (buffer : Bytes) : Option BrpcHeader :=
  if buffer.length < headerSize then none
  else some { bodyLen := peekBE 4 4 buffer, metaLen := peekBE 4 8 buffer }

inductive BrpcDecodeStatus
  | decodeHeader
  | decodePayload
  | decodeDone
  | waitForData
  deriving DecidableEq, Repr

structure BrpcCodec where
  decodeStatus : BrpcDecodeStatus := .decodeHeader
  brpcHeader : BrpcHeader := {}
  originMsg : Bytes := []
  deriving DecidableEq, Repr

/-- What a handler answers, with the codec and the buffer it leaves. -/
abbrev Handled := Except Failure BrpcDecodeStatus × BrpcCodec × Bytes

namespace BrpcCodec

/-- `BrpcCodec::decodeHeader` (brpc_codec.cc:78-92). -/
def decodeHeader (c : BrpcCodec) (buffer : Bytes) : Handled :=
  if buffer.length < headerSize then (.ok .waitForData, c, buffer)
  else match BrpcHeader.decode buffer with
    | none => (.error (.envoyException "brpc header invalid"), c, buffer)
    | some h => (.ok .decodePayload, { c with brpcHeader := h }, buffer)

/-- `BrpcCodec::decodeBody` (brpc_codec.cc:94-110). The sizes are `uint32_t` sums. -/
def decodeBody (c : BrpcCodec) (buffer : Bytes) : Handled :=
  let size := (headerSize + c.brpcHeader.bodyLen) % 2 ^ 32
  if buffer.length < size then (.ok .waitForData, c, buffer)
  else if buffer.length < (headerSize + c.brpcHeader.metaLen) % 2 ^ 32 then
    (.error (.panicked "Linearize size exceeds buffer size"), c, buffer)
  else (.ok .decodeDone, { c with originMsg := buffer.take size }, buffer.drop size)

/-- `BrpcCodec::handleState` (brpc_codec.cc:66-76). -/
def handleState (c : BrpcCodec) (buffer : Bytes) : Handled :=
  match c.decodeStatus with
  | .decodeHeader => decodeHeader c buffer
  | .decodePayload => decodeBody c buffer
  | _ => (.error (.panicked "not reached"), c, buffer)

/-- The loop of `BrpcCodec::decode` (brpc_codec.cc:24-29); two steps lead from any status to
the end of a message. -/
def decodeLoop : Nat → BrpcCodec → Bytes → Step BrpcCodec UInt8 Unit Failure
  | n, c, buffer =>
    if c.decodeStatus = .decodeDone then .done c () buffer
    else match n with
      | 0 => .fail c buffer (.panicked "not reached")
      | n + 1 =>
        match handleState c buffer with
        | (.error e, c, rest) => .fail c rest e
        | (.ok .waitForData, c, rest) => .wait { c with decodeStatus := .waitForData } rest
        | (.ok status, c, rest) => decodeLoop n { c with decodeStatus := status } rest

/-- `BrpcCodec::toMetadata`. -/
def toMetadata (c : BrpcCodec) (md : Metadata α) : Metadata α :=
  { md with originMessage := md.originMessage ++ c.originMsg }

/-- `BrpcCodec::decode` (brpc_codec.cc:16-36). -/
def decode (c : BrpcCodec) (buffer : Bytes) (md : Metadata α) : Step BrpcCodec UInt8 (Metadata α) Failure :=
  match decodeLoop 2 c buffer with
  | .wait c rest => .wait c rest
  | .fail c rest e => .fail c rest e
  | .done c _ rest => .done { c with decodeStatus := .decodeHeader, originMsg := [] } (toMetadata c md) rest

end BrpcCodec

/-- `BrpcCodec` as the proxy sees it: `encode` and `onError` do nothing. -/
def brpcCodec (α : Type) : Codec BrpcCodec α where
  init := {}
  decode := BrpcCodec.decode
  encode _ _ buffer := .ok buffer
  onError _ _ := .ok []

/-- A well-formed frame: the header, and a body as long as it says, with the meta inside. -/
structure WellFormedFrame (f : Bytes) : Prop where
  header : headerSize ≤ f.length
  body : headerSize + peekBE 4 4 f = f.length
  meta_le : peekBE 4 8 f ≤ peekBE 4 4 f

/-- The message of a frame. -/
def frameMetadata (α : Type) (f : Bytes) : Metadata α := { messageType := .request, originMessage := f }

/-! ## One call of the codec -/

/-- The header in the buffer. -/
def peeked (buffer : Bytes) : BrpcHeader := ⟨peekBE 4 4 buffer, peekBE 4 8 buffer⟩

/-- The bytes a call takes for a message, a `uint32_t` sum. -/
def cutSize (buffer : Bytes) : Nat := (headerSize + (peeked buffer).bodyLen) % 2 ^ 32

def linearized (buffer : Bytes) : Nat := (headerSize + (peeked buffer).metaLen) % 2 ^ 32

/-- Between two frames. -/
def Idle (c : BrpcCodec) : Prop := c.decodeStatus = .decodeHeader

inductive Called (buffer : Bytes) (md : Metadata α) : Step BrpcCodec UInt8 (Metadata α) Failure → Prop
  /-- It waits, in a status that it cannot resume from. -/
  | waits {c' : BrpcCodec} (hshort : buffer.length < headerSize ∨ buffer.length < cutSize buffer)
      (hc' : c'.decodeStatus = .waitForData) : Called buffer md (.wait c' buffer)
  | beyond {c' : BrpcCodec} (hlen : headerSize ≤ buffer.length) (hcut : cutSize buffer ≤ buffer.length)
      (hlin : buffer.length < linearized buffer) :
      Called buffer md (.fail c' buffer (.panicked "Linearize size exceeds buffer size"))
  | cut {c' : BrpcCodec} (hlen : headerSize ≤ buffer.length) (hcut : cutSize buffer ≤ buffer.length)
      (hlin : linearized buffer ≤ buffer.length) (hc' : Idle c') :
      Called buffer md (.done c' { md with originMessage := md.originMessage ++ buffer.take (cutSize buffer) }
        (buffer.drop (cutSize buffer)))

section Decode

variable {c : BrpcCodec} {buffer : Bytes}

theorem decode_called (hc : Idle c) (buffer : Bytes) (md : Metadata α) :
    Called buffer md (c.decode buffer md) := by
  have hs : c.decodeStatus = .decodeHeader := hc
  by_cases hlen : buffer.length < headerSize
  · simp only [BrpcCodec.decode, BrpcCodec.decodeLoop, BrpcCodec.handleState,
      BrpcCodec.decodeHeader, hs, hlen, reduceCtorEq, if_false, if_true]
    exact .waits (.inl hlen) rfl
  · have hheader := Nat.not_lt.1 hlen
    simp only [BrpcCodec.decode, BrpcCodec.decodeLoop, BrpcCodec.handleState,
      BrpcCodec.decodeHeader, BrpcHeader.decode,
      BrpcCodec.decodeBody, hs, hlen, reduceCtorEq, if_false]
    by_cases hcut : buffer.length < cutSize buffer
    · rw [if_pos (show _ < (headerSize + peekBE 4 4 buffer) % 2 ^ 32 from hcut)]
      exact .waits (.inr hcut) rfl
    · rw [if_neg (show ¬ _ < (headerSize + peekBE 4 4 buffer) % 2 ^ 32 from hcut)]
      by_cases hlin : buffer.length < linearized buffer
      · rw [if_pos (show _ < (headerSize + peekBE 4 8 buffer) % 2 ^ 32 from hlin)]
        exact .beyond hheader (Nat.not_lt.1 hcut) hlin
      · rw [if_neg (show ¬ _ < (headerSize + peekBE 4 8 buffer) % 2 ^ 32 from hlin)]
        exact .cut hheader (Nat.not_lt.1 hcut) (Nat.not_lt.1 hlin) rfl

theorem decodeAs_waits (t : MessageType) (hc : Idle c)
    (hshort : buffer.length < headerSize ∨ buffer.length < cutSize buffer) :
    ∃ c', (brpcCodec α).decodeAs t c buffer = .wait c' buffer ∧ c'.decodeStatus = .waitForData := by
  have h := decode_called hc buffer (Metadata.ofType t : Metadata α)
  simp only [Codec.decodeAs, brpcCodec]
  generalize c.decode buffer _ = r at h ⊢
  cases h with
  | waits _ hc' => exact ⟨_, rfl, hc'⟩
  | beyond hlen hcut _ => omega
  | cut hlen hcut _ _ => omega

theorem decodeAs_cut (t : MessageType) (hc : Idle c) {size : Nat} (hsize : cutSize buffer = size)
    (hlen : headerSize ≤ buffer.length) (hcut : size ≤ buffer.length)
    (hlin : linearized buffer ≤ buffer.length) : ∃ c', Idle c' ∧ (brpcCodec α).decodeAs t c buffer =
      .done c' { messageType := t, originMessage := buffer.take size } (buffer.drop size) := by
  subst hsize
  have h := decode_called hc buffer (Metadata.ofType t : Metadata α)
  simp only [Codec.decodeAs, brpcCodec]
  generalize c.decode buffer _ = r at h ⊢
  cases h with
  | waits hshort _ => omega
  | beyond _ _ hbeyond => omega
  | cut _ _ _ hc' => exact ⟨_, hc', rfl⟩

theorem decode_waited (hc : c.decodeStatus = .waitForData) (buffer : Bytes) :
    (brpcCodec α).decodeAs .request c buffer = .fail c buffer (.panicked "not reached") := by
  simp [Codec.decodeAs, brpcCodec, BrpcCodec.decode, BrpcCodec.decodeLoop, BrpcCodec.handleState, hc]

/-- The message and what is left of the buffer are cut where the header says, and the bytes that
are parsed lie in the message. -/
structure FrameExact (buffer message rest : Bytes) : Prop where
  complete : headerSize + (peeked buffer).bodyLen ≤ buffer.length
  message : message = buffer.take (headerSize + (peeked buffer).bodyLen)
  removed : rest = buffer.drop (headerSize + (peeked buffer).bodyLen)
  parsed : headerSize + (peeked buffer).metaLen ≤ headerSize + (peeked buffer).bodyLen

/-- The sizes are right exactly when the first does not wrap and the second is not larger. -/
theorem frame_exact_iff (hc : Idle c) {t : MessageType} {buffer rest : Bytes} {md : Metadata α}
    {c' : BrpcCodec} (hdone : (brpcCodec α).decodeAs t c buffer = .done c' md rest) :
    FrameExact buffer md.originMessage rest ↔
      headerSize + (peeked buffer).bodyLen < 2 ^ 32 ∧ (peeked buffer).metaLen ≤ (peeked buffer).bodyLen := by
  have hcalled := decode_called hc buffer (Metadata.ofType t : Metadata α)
  rw [show c.decode buffer (Metadata.ofType t) = .done c' md rest from hdone] at hcalled
  cases hcalled with
  | cut hlen hcut hlin _ =>
    constructor
    · intro hexact
      -- both cuts of the buffer leave the same number of bytes
      have hlength := congrArg List.length hexact.removed
      simp only [List.length_drop] at hlength
      have hsame : cutSize buffer = headerSize + (peeked buffer).bodyLen := by
        have := hexact.complete
        omega
      refine ⟨?_, Nat.le_of_add_le_add_left hexact.parsed⟩
      rw [← hsame]
      exact Nat.mod_lt _ (by decide)
    · rintro ⟨hwrap, hmeta⟩
      have hsize : cutSize buffer = headerSize + (peeked buffer).bodyLen := Nat.mod_eq_of_lt hwrap
      rw [hsize] at hcut
      exact ⟨hcut, by rw [hsize]; rfl, by rw [hsize], Nat.add_le_add_left hmeta headerSize⟩

/-- A header: `body_len` and `meta_len`. -/
def headerOf (bodyLen metaLen : Nat) : Bytes :=
  [0x50, 0x52, 0x50, 0x43] ++ writeBE 4 bodyLen ++ writeBE 4 metaLen

/-- Two bytes of body, of which one is meta, and a byte of the next frame. -/
theorem frame_exact_two :
    ∃ c' md rest, (brpcCodec Unit).decodeAs .request {} (headerOf 2 1 ++ [7, 8, 9]) = .done c' md rest ∧
    FrameExact (headerOf 2 1 ++ [7, 8, 9]) md.originMessage rest := by
  have hidle : Idle {} := rfl
  obtain ⟨c', -, hdone⟩ := @decodeAs_cut Unit _ (headerOf 2 1 ++ [7, 8, 9]) .request hidle 14
    (by decide) (by decide) (by decide) (by decide)
  exact ⟨c', _, _, hdone, (frame_exact_iff hidle hdone).2 (by decide)⟩

/-- A body of 2^32 - 12 bytes: the call ends with `Done` and has taken nothing. A meta of one byte
in a body of none: the byte is the one behind the frame. -/
theorem sizes_wrap :
    (∃ c' md, (brpcCodec Unit).decodeAs .request {} (headerOf (2 ^ 32 - 12) 0) =
      .done c' md (headerOf (2 ^ 32 - 12) 0) ∧
      ¬ FrameExact (headerOf (2 ^ 32 - 12) 0) md.originMessage (headerOf (2 ^ 32 - 12) 0)) ∧
    ∃ c' md, (brpcCodec Unit).decodeAs .request {} (headerOf 0 1 ++ [7]) = .done c' md [7] ∧
      ¬ FrameExact (headerOf 0 1 ++ [7]) md.originMessage [7] := by
  have hidle : Idle {} := rfl
  obtain ⟨c₁, -, hdone₁⟩ := @decodeAs_cut Unit _ (headerOf (2 ^ 32 - 12) 0) .request hidle 0
    (by decide) (by decide) (by decide) (by decide)
  obtain ⟨c₂, -, hdone₂⟩ := @decodeAs_cut Unit _ (headerOf 0 1 ++ [7]) .request hidle 12
    (by decide) (by decide) (by decide) (by decide)
  refine ⟨⟨c₁, _, hdone₁, fun h => ?_⟩, ⟨c₂, _, hdone₂, fun h => ?_⟩⟩
  · exact absurd h.complete (by decide)
  · exact absurd h.parsed (by decide)

end Decode

/-! ## A stream of frames in chunks -/

inductive TakesApart : Bytes → List Bytes → Bytes → Prop
  | empty : TakesApart [] [] []
  | waits {b : Bytes} (hne : b ≠ []) (hshort : b.length < headerSize ∨ b.length < cutSize b) :
      TakesApart b [] b
  /-- A message without bytes would be followed by itself, for ever. -/
  | cut {b q : Bytes} {ms : List Bytes} (hlen : headerSize ≤ b.length) (hcut : cutSize b ≤ b.length)
      (hlin : linearized b ≤ b.length) (hpos : 0 < cutSize b) (h : TakesApart (b.drop (cutSize b)) ms q) :
      TakesApart b (b.take (cutSize b) :: ms) q

/-- The codec is idle if nothing is left, and otherwise waits where it cannot resume from. -/
def Stopped (q : Bytes) (c : BrpcCodec) : Prop := (q = [] → Idle c) ∧ (q ≠ [] → c.decodeStatus = .waitForData)

namespace TakesApart

variable {b b' q q' : Bytes} {ms ms' : List Bytes}

theorem length_le (h : TakesApart b ms q) : ms.length ≤ b.length := by
  induction h with
  | empty => rfl
  | waits _ _ => exact Nat.zero_le _
  | cut hlen hcut hlin hpos h ih =>
    rw [List.length_drop] at ih
    rw [List.length_cons]
    omega

theorem drain (h : TakesApart b ms q) {s : BrpcCodec} (hs : Idle s) {n : Nat} (hn : ms.length < n) :
    ∃ s', Stopped q s' ∧ Framing.drain ((brpcCodec α).decodeAs .request) n s b =
      ⟨s', q, ms.map (frameMetadata α), .underflow⟩ := by
  induction h generalizing s n with
  | empty =>
    obtain ⟨n, rfl⟩ := Nat.exists_eq_add_one_of_ne_zero (Nat.ne_of_gt hn)
    exact ⟨s, ⟨fun _ => hs, fun hq => absurd rfl hq⟩, drain_nil⟩
  | waits hne hshort =>
    obtain ⟨n, rfl⟩ := Nat.exists_eq_add_one_of_ne_zero (Nat.ne_of_gt hn)
    obtain ⟨s', hdec, hs'⟩ := decodeAs_waits (α := α) .request hs hshort
    exact ⟨s', ⟨fun hq => absurd hq hne, fun _ => hs'⟩, drain_wait hne hdec⟩
  | cut hlen hcut hlin hpos h ih =>
    obtain ⟨n, rfl⟩ := Nat.exists_eq_add_one_of_ne_zero (Nat.ne_of_gt (Nat.zero_lt_of_lt hn))
    obtain ⟨s₁, hs₁, hdec⟩ := decodeAs_cut (α := α) .request hs rfl hlen hcut hlin
    obtain ⟨s', hs', hrest⟩ := ih hs₁ (Nat.lt_of_succ_lt_succ hn)
    refine ⟨s', hs', ?_⟩
    rw [drain_done (List.ne_nil_of_length_pos (by omega)) hdec, hrest]
    rfl

theorem unique (h : TakesApart b ms q) (h' : TakesApart b ms' q') : q = q' := by
  induction h generalizing ms' with
  | empty =>
    cases h' with
    | empty => rfl
    | waits hne _ => exact absurd rfl hne
    | cut hlen _ _ _ _ => simp [headerSize] at hlen
  | waits hne hshort =>
    cases h' with
    | empty => rfl
    | waits _ _ => rfl
    | cut hlen hcut _ _ _ => omega
  | cut hlen hcut hlin hpos h ih =>
    cases h' with
    | empty => simp [headerSize] at hlen
    | waits _ hshort => omega
    | cut _ _ _ _ h' => exact ih h'

theorem peeked_append (hlen : headerSize ≤ b.length) (b' : Bytes) : peeked (b ++ b') = peeked b := by
  simp only [headerSize] at hlen
  rw [peeked, peekBE_append b' (by omega), peekBE_append b' (by omega), peeked]

theorem append (h : TakesApart b ms []) (h' : TakesApart b' ms' q) : TakesApart (b ++ b') (ms ++ ms') q := by
  generalize hnone : [] = q₀ at h
  induction h with
  | empty => exact h'
  | waits hne _ => exact absurd hnone.symm hne
  | @cut b q ms hlen hcut hlin hpos h ih =>
    have hsize : cutSize (b ++ b') = cutSize b := by rw [cutSize, peeked_append hlen, cutSize]
    have hlin' : linearized (b ++ b') = linearized b := by rw [linearized, peeked_append hlen, linearized]
    have hle : b.length ≤ (b ++ b').length := by simp
    have hrest := ih hnone
    rw [← List.drop_append_of_le_length hcut, ← hsize] at hrest
    rw [List.cons_append, ← List.take_append_of_le_length hcut, ← hsize]
    exact .cut (hlen.trans hle) (by omega) (by omega) (by omega) hrest

end TakesApart

/-- Every chunk is taken apart, and nothing is left of any but the last one. -/
def CutApart : List Bytes → Prop
  | [] => True
  | data :: chunks => ∃ ms q, TakesApart data ms q ∧ (q ≠ [] → chunks = []) ∧ CutApart chunks

section Chunks

variable {hd : Handlers δ α} {c c' : Connection BrpcCodec δ α} {fs : List Bytes} {q data : Bytes}
    {ms chunks : List Bytes}

structure AtBoundary (c : Connection BrpcCodec δ α) : Prop where
  idle : Idle c.codec
  empty : c.requestBuffer = []

variable (hd) in
theorem AtBoundary.onData (hc : AtBoundary c) (h : TakesApart data ms q) :
    ∃ c', c.onData (brpcCodec α) .request hd data = some (.ok c') ∧ Stopped q c'.codec ∧
      c'.requestBuffer = q ∧
      c'.calls = c.calls ++ ms.map fun f => .onMessageDecoded (frameMetadata α f) := by
  by_cases hne : data = []
  · subst hne
    cases h with
    | empty =>
      simp only [Connection.onData, dispatch, hc.empty, List.append_nil, List.isEmpty_nil, if_true,
        Option.map_some, Except.map]
      exact ⟨_, rfl, ⟨fun _ => hc.idle, fun hq => absurd rfl hq⟩, rfl, by simp⟩
    | waits hne _ => exact absurd rfl hne
    | cut hlen _ _ _ _ => simp [headerSize] at hlen
  · have hbuf : c.requestBuffer ++ data = data := by rw [hc.empty, List.nil_append]
    obtain ⟨s', hs', hrun⟩ := h.drain (α := α) hc.idle (Nat.lt_succ_of_le h.length_le)
    obtain ⟨d, hdata⟩ := Connection.onData_of_drain (h := hd) (by rwa [hbuf]) (by rw [hbuf]; exact hrun)
    refine ⟨_, hdata, hs', rfl, ?_⟩
    rw [List.map_map]
    rfl

theorem takesApart_of_dispatchLoop {fuel : Nat} {d : DecoderBase} {s : BrpcCodec} {w : δ × List (Call α)}
    {r : Ran Unit BrpcCodec (δ × List (Call α))} (hs : Idle s) (hne : data ≠ [])
    (h : dispatchLoop (brpcCodec α) .request hd.delegate fuel d s w data = some r) (hok : r.result = .ok ()) :
    ∃ ms q, TakesApart data ms q := by
  induction fuel generalizing d s w data with
  | zero => cases h
  | succ fuel ih =>
    have hcalled := decode_called hs data (Metadata.ofType .request : Metadata α)
    cases hdec : (brpcCodec α).decodeAs .request s data with
    | wait s' rest =>
      rw [show s.decode data (Metadata.ofType .request : Metadata α) = _ from hdec] at hcalled
      cases hcalled with
      | waits hshort _ => exact ⟨_, _, .waits hne hshort⟩
    | fail s' rest e =>
      rw [dispatchLoop_fail fuel hdec] at h
      cases h
      cases hok
    | done s' md rest =>
      rw [dispatchLoop_returns fuel hdec (hd.delegate_returns md)] at h
      rw [show s.decode data (Metadata.ofType .request : Metadata α) = _ from hdec] at hcalled
      cases hcalled with
      | cut hlen hcut hlin hs' =>
        by_cases hpos : cutSize data = 0
        · -- the loop goes on with the same buffer
          simp only [hpos, List.drop_zero, List.isEmpty_iff, hne, if_false] at h
          exact ih hs' hne h
        · have hpos := Nat.pos_of_ne_zero hpos
          by_cases hrest : data.drop (cutSize data) = []
          · exact ⟨_, _, .cut hlen hcut hlin hpos (by rw [hrest]; exact .empty)⟩
          · simp only [List.isEmpty_iff, hrest, if_false] at h
            obtain ⟨ms, q, h'⟩ := ih hs' hrest h
            exact ⟨_, _, .cut hlen hcut hlin hpos h'⟩

theorem AtBoundary.takesApart (hc : AtBoundary c)
    (hrun : c.onData (brpcCodec α) .request hd data = some (.ok c')) :
    ∃ ms q, TakesApart data ms q := by
  simp only [Connection.onData, dispatch, hc.empty, List.nil_append, Option.map_eq_some_iff] at hrun
  obtain ⟨r, hr, hmap⟩ := hrun
  by_cases hne : data = []
  · subst hne
    exact ⟨_, _, .empty⟩
  · simp only [List.isEmpty_iff, hne, if_false] at hr
    refine takesApart_of_dispatchLoop hc.idle hne hr ?_
    cases hres : r.result with
    | ok u => rfl
    | error e => simp [hres, Except.map] at hmap

variable (hd) in
/-- Whatever comes next, `handleState` panics. -/
theorem onData_waited (hc : c.codec.decodeStatus = .waitForData) (hb : c.requestBuffer ≠ []) (data : Bytes) :
    c.onData (brpcCodec α) .request hd data = some (.error (.panicked "not reached")) := by
  have hne : c.requestBuffer ++ data ≠ [] := by simp [hb]
  simp only [Connection.onData, dispatch, List.isEmpty_iff, hne, if_false,
    dispatchLoop_fail _ (decode_waited hc (c.requestBuffer ++ data)), Option.map_some, Except.map]

variable (hd) in
theorem AtBoundary.receive (hc : AtBoundary c) (h : CutApart chunks) :
    ∃ ms q c', TakesApart chunks.flatten ms q ∧ c.receive (brpcCodec α) .request hd chunks = some (.ok c') ∧
      c'.calls = c.calls ++ ms.map fun f => .onMessageDecoded (frameMetadata α f) := by
  induction chunks generalizing c with
  | nil => exact ⟨[], [], c, .empty, rfl, by simp⟩
  | cons data chunks ih =>
    obtain ⟨ms, q, htake, hlast, hrest⟩ := h
    obtain ⟨c₁, hdata, hstop, hbuf, hcalls⟩ := hc.onData hd htake
    rw [Connection.receive, hdata, List.flatten_cons]
    by_cases hq : q = []
    · subst hq
      obtain ⟨ms', q', c', htake', hrun, hcalls'⟩ := ih ⟨hstop.1 rfl, hbuf⟩ hrest
      refine ⟨_, _, c', htake.append htake', hrun, ?_⟩
      rw [hcalls', hcalls, List.map_append, List.append_assoc]
    · obtain rfl := hlast hq
      exact ⟨ms, q, c₁, by simpa using htake, rfl, hcalls⟩

/-- A run that does not panic has met no chunk that something is left of, but the last one. -/
theorem AtBoundary.cutApart (hc : AtBoundary c)
    (hrun : c.receive (brpcCodec α) .request hd chunks = some (.ok c')) : CutApart chunks := by
  induction chunks generalizing c with
  | nil => trivial
  | cons data chunks ih =>
    rw [Connection.receive] at hrun
    cases hdata : c.onData (brpcCodec α) .request hd data with
    | none =>
      rw [hdata] at hrun
      cases hrun
    | some r =>
      cases r with
      | error e =>
        rw [hdata] at hrun
        cases hrun
      | ok c₁ =>
        obtain ⟨ms, q, htake⟩ := hc.takesApart hdata
        obtain ⟨c₂, hdata', hstop, hbuf, -⟩ := hc.onData hd htake
        obtain rfl : c₁ = c₂ := Except.ok.inj (Option.some.inj (hdata.symm.trans hdata'))
        rw [hdata] at hrun
        by_cases hq : q = []
        · subst hq
          exact ⟨ms, [], htake, fun hne => absurd rfl hne, ih ⟨hstop.1 rfl, hbuf⟩ hrun⟩
        · cases chunks with
          | nil => exact ⟨ms, q, htake, fun _ => rfl, trivial⟩
          | cons data' chunks =>
            have hwaited := onData_waited hd (hstop.2 hq) (by rwa [hbuf]) data'
            simp only [Connection.receive, hwaited] at hrun
            cases hrun

/-! ### Frames whose length is a `uint32_t` -/

/-- Every chunk ends where a frame ends: the chunks are the frames in groups. -/
def Aligned (fs chunks : List Bytes) : Prop :=
  ∃ groups : List (List Bytes), groups.flatten = fs ∧ chunks = groups.map List.flatten

def Sized (f : Bytes) : Prop := WellFormedFrame f ∧ f.length < 2 ^ 32

theorem Sized.ne_nil {f : Bytes} (hf : Sized f) : f ≠ [] := by
  have := hf.1.header
  rintro rfl
  simp [headerSize] at this

theorem Sized.cutSize_eq {f : Bytes} (hf : Sized f) : cutSize f = f.length := by
  rw [cutSize, show headerSize + (peeked f).bodyLen = f.length from hf.1.body]
  exact Nat.mod_eq_of_lt hf.2

theorem Sized.takesApart {f : Bytes} (hf : Sized f) : TakesApart f [f] [] := by
  have hlin : linearized f ≤ f.length := by
    have hmeta : (peeked f).metaLen ≤ (peeked f).bodyLen := hf.1.meta_le
    have hbody : headerSize + (peeked f).bodyLen = f.length := hf.1.body
    exact (Nat.mod_le _ _).trans (by omega)
  have h := TakesApart.cut hf.1.header hf.cutSize_eq.le hlin (hf.cutSize_eq ▸ List.length_pos_iff.2 hf.ne_nil)
    (by rw [hf.cutSize_eq, List.drop_length]; exact .empty)
  rwa [hf.cutSize_eq, List.take_length] at h

theorem takesApart_flatten (hfs : ∀ f ∈ fs, Sized f) : TakesApart fs.flatten fs [] := by
  induction fs with
  | nil => exact .empty
  | cons f fs ih =>
    exact (hfs f List.mem_cons_self).takesApart.append (ih fun g hg => hfs g (List.mem_cons_of_mem f hg))

theorem Sized.piece {f : Bytes} (hf : Sized f) (hq : q <+: f) (hne : q ≠ f) (hq0 : q ≠ []) :
    TakesApart q [] q := by
  refine .waits hq0 ?_
  by_cases hh : q.length < headerSize
  · exact .inl hh
  · have hlt : q.length < f.length := lt_of_le_of_ne hq.length_le fun h => hne (hq.eq_of_length h)
    obtain ⟨rest, rfl⟩ := hq
    have hsize := hf.cutSize_eq
    rw [cutSize, TakesApart.peeked_append (Nat.not_lt.1 hh)] at hsize
    exact .inr (hlt.trans_eq hsize.symm)

theorem cutApart_of_aligned (hfs : ∀ f ∈ fs, Sized f) (h : Aligned fs chunks) : CutApart chunks := by
  obtain ⟨groups, rfl, rfl⟩ := h
  induction groups with
  | nil => trivial
  | cons g gs ih =>
    simp only [List.flatten_cons, List.mem_append] at hfs
    exact ⟨g, [], takesApart_flatten fun f hf => hfs f (.inl hf), fun hne => absurd rfl hne,
      ih fun f hf => hfs f (.inr hf)⟩

theorem aligned_of_cutApart (hfs : ∀ f ∈ fs, Sized f) (hcut : chunks.flatten = fs.flatten)
    (h : CutApart chunks) : Aligned fs chunks := by
  have hne : ∀ f ∈ fs, f ≠ [] := fun f hf => (hfs f hf).ne_nil
  induction chunks generalizing fs with
  | nil =>
    obtain rfl : fs = [] := List.eq_nil_iff_forall_not_mem.2 fun f hf =>
      hne f hf (List.flatten_eq_nil_iff.1 (by simpa using hcut.symm) f hf)
    exact ⟨[], rfl, rfl⟩
  | cons data chunks ih =>
    obtain ⟨ms, q', htake', hlast, hrest⟩ := h
    obtain ⟨q, hdata, hq⟩ := framesIn_split hne ⟨chunks.flatten, hcut⟩
    generalize framesIn fs data.length = n at hdata hq
    have hdrop : ∀ f ∈ fs.drop n, Sized f := fun f hf => hfs f (List.mem_of_mem_drop hf)
    have htake := takesApart_flatten fun f (hf : f ∈ fs.take n) => hfs f (List.mem_of_mem_take hf)
    have hbehind : q ++ chunks.flatten = (fs.drop n).flatten := by
      apply List.append_cancel_left (α := UInt8)
      rw [← List.append_assoc, ← hdata, ← List.flatten_append, List.take_append_drop]
      exact hcut
    by_cases hq0 : q = []
    · subst hq0
      obtain ⟨groups, hg, hch⟩ := ih hdrop (by simpa using hbehind) hrest fun f hf => (hdrop f hf).ne_nil
      refine ⟨fs.take n :: groups, by rw [List.flatten_cons, hg, List.take_append_drop], ?_⟩
      rw [List.map_cons, ← hch, hdata, List.append_nil]
    · obtain ⟨f, hget, hqf, hqne⟩ := hq.resolve_left hq0
      -- the piece is what is left of the chunk, so it is the last, but it cannot be all that is left of the stream
      have hleft :=
        (htake.append ((hfs f (List.mem_of_getElem? hget)).piece hqf hqne hq0)).unique (hdata ▸ htake')
      obtain rfl := hlast (hleft ▸ hq0)
      have hlen : f.length ≤ (fs.drop n).flatten.length := by
        rw [List.getElem?_eq_some_iff] at hget
        obtain ⟨hn, rfl⟩ := hget
        rw [List.drop_eq_getElem_cons hn, List.flatten_cons, List.length_append]
        omega
      rw [← hbehind, List.flatten_nil, List.append_nil] at hlen
      exact absurd (hqf.eq_of_length_le hlen) hqne

/-- The codec is given the chunks one by one, or all their bytes at once: no call panics, and both
yield the same messages. -/
def ChunkIndependent (hd : Handlers δ α) (w : δ) (chunks : List Bytes) : Prop :=
  ∃ c c', Connection.receive (brpcCodec α) .request hd { codec := {}, world := w } chunks = some (.ok c) ∧
    Connection.receive (brpcCodec α) .request hd { codec := {}, world := w } [chunks.flatten] =
      some (.ok c') ∧
    c.calls.map Call.originMessage = c'.calls.map Call.originMessage

/-- Decoding a stream of frames is independent of the chunks exactly when the decoder, with its
sizes modulo 2^32, has nothing left of a chunk but the last; for frames shorter than 2^32 bytes,
when every chunk ends where a frame ends. -/
theorem received_iff (fs : List Bytes) (hwf : ∀ f ∈ fs, WellFormedFrame f) (chunks : List Bytes)
    (hcut : chunks.flatten = fs.flatten) (hd : Handlers δ α) (w : δ) :
    (ChunkIndependent hd w chunks ↔ CutApart chunks) ∧
      ((∀ f ∈ fs, f.length < 2 ^ 32) → (CutApart chunks ↔ Aligned fs chunks)) := by
  have hstart : AtBoundary ({ codec := {}, world := w } : Connection BrpcCodec δ α) := ⟨rfl, rfl⟩
  refine ⟨⟨?_, fun h => ?_⟩, fun hlen => ?_⟩
  · rintro ⟨c, c', hrun, -, -⟩
    exact hstart.cutApart hrun
  · obtain ⟨ms, q, c, htake, hrun, hcalls⟩ := hstart.receive hd h
    obtain ⟨c', hdata, -, -, hcalls'⟩ := hstart.onData hd htake
    refine ⟨c, c', hrun, ?_, by rw [hcalls, hcalls']⟩
    rw [Connection.receive, hdata]
    rfl
  · have hfs : ∀ f ∈ fs, Sized f := fun f hf => ⟨hwf f hf, hlen f hf⟩
    exact ⟨aligned_of_cutApart hfs hcut, cutApart_of_aligned hfs⟩

end Chunks

section Concrete

/-- A frame with a body of one byte and no meta. -/
def oneByteFrame : Bytes := [0x50, 0x52, 0x50, 0x43, 0, 0, 0, 1, 0, 0, 0, 0, 0xaa]

theorem oneByteFrame_wellFormed : WellFormedFrame oneByteFrame := ⟨by decide, by decide, by decide⟩

def ignored : Handlers Unit Unit := ⟨fun _ w => w, fun _ w => w⟩

/-- Three frames, the last in a chunk of its own. -/
theorem whole_frames_received : ChunkIndependent ignored () [oneByteFrame ++ oneByteFrame, oneByteFrame] := by
  have hwf : ∀ f ∈ [oneByteFrame, oneByteFrame, oneByteFrame], WellFormedFrame f := by
    simp [oneByteFrame_wellFormed]
  obtain ⟨hindependent, haligned⟩ := received_iff [oneByteFrame, oneByteFrame, oneByteFrame] hwf
    [oneByteFrame ++ oneByteFrame, oneByteFrame] (by decide) ignored ()
  exact hindependent.2
    ((haligned (by decide)).2 ⟨[[oneByteFrame, oneByteFrame], [oneByteFrame]], by simp, by simp⟩)

/-- The header of a frame, then its body: the second call panics. -/
theorem split_frame_panics :
    WellFormedFrame oneByteFrame ∧ [oneByteFrame.take 12, oneByteFrame.drop 12].flatten =
      [oneByteFrame].flatten ∧
      Connection.receive (brpcCodec Unit) .request ignored { codec := {}, world := () }
        [oneByteFrame.take 12, oneByteFrame.drop 12] = some (.error (.panicked "not reached")) ∧
      ¬ ChunkIndependent ignored () [oneByteFrame.take 12, oneByteFrame.drop 12] := by
  have hrun : Connection.receive (brpcCodec Unit) .request ignored { codec := {}, world := () }
      [oneByteFrame.take 12, oneByteFrame.drop 12] = some (.error (.panicked "not reached")) := rfl
  refine ⟨oneByteFrame_wellFormed, by decide, hrun, ?_⟩
  rintro ⟨c, c', hc, -, -⟩
  rw [hrun] at hc
  cases hc

end Concrete

end MetaProtocolProxy.Brpc
