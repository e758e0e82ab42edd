import MetaProtocolProxy.Dubbo.Serializer
import MetaProtocolProxy.Lib.Reader
/-
# What a Hessian2 read depends on (hessian_utils.h: BufferReader)

The serializer reads the body of a message from the connection's buffer, where later messages
may already follow. `Hessian2.Local` is what the library promises then: a read depends only on
the bytes it consumes, and gives null when they are not all there. A read that succeeds inside
the body is therefore the same with anything behind it (`LocalRead.append`), and what the
serializer accepts on the body alone it accepts in place.

`fragment` is a reference decoder for short strings, one-byte integers and untyped maps of short
strings, built from readers that are local by construction.
-/
namespace MetaProtocolProxy.Dubbo

open Reading (Reader)

structure LocalRead {τ : Type} (decode : Decoder → Option τ × Decoder) : Prop where
  buffer : ∀ d, (decode d).2.buffer = d.buffer
  local_iff : ∀ (b more : Bytes) (o n : Nat) (v : τ),
    decode ⟨b, o⟩ = (some v, ⟨b, n⟩) ↔ decode ⟨b ++ more, o⟩ = (some v, ⟨b ++ more, n⟩) ∧ n ≤ b.length

/-- The promise of the library, for the three types the serializer asks for. -/
structure Hessian2.Local (hs : Hessian2) : Prop where
  int : LocalRead hs.decodeInt
  string : LocalRead hs.decodeString
  object : LocalRead hs.decodeObject

section Reads

variable {τ : Type} {decode : Decoder → Option τ × Decoder} {b : Bytes} {o : Nat} {v : τ} {d : Decoder}

theorem LocalRead.eq_mk {r : Option τ} (hl : LocalRead decode) (h : decode ⟨b, o⟩ = (r, d)) :
    d = ⟨b, d.offset⟩ := by
  have hb := hl.buffer ⟨b, o⟩
  rw [h] at hb
  exact congrArg (Decoder.mk · d.offset) hb

/-- A value read from a buffer is read in the same way with anything behind the buffer. -/
theorem LocalRead.append (hl : LocalRead decode) (h : decode ⟨b, o⟩ = (some v, d)) (more : Bytes) :
    decode ⟨b ++ more, o⟩ = (some v, ⟨b ++ more, d.offset⟩) :=
  ((hl.local_iff b more o d.offset v).1 (by rw [← hl.eq_mk h, h])).1

theorem LocalRead.offset_le (hl : LocalRead decode) (h : decode ⟨b, o⟩ = (some v, d)) : d.offset ≤ b.length :=
  ((hl.local_iff b [] o d.offset v).1 (by rw [← hl.eq_mk h, h])).2

end Reads

variable {hs : Hessian2}

/-- An invocation accepted on the body alone is accepted with anything behind the body. -/
theorem deserializeRpcInvocation_append (hl : hs.Local) {body : Bytes} {ctx : Context} {invo : RpcInvocation}
    (h : deserializeRpcInvocation hs body ctx = .ok invo) (rest : Bytes) :
    deserializeRpcInvocation hs (body ++ rest) ctx = .ok invo := by
  unfold deserializeRpcInvocation at h ⊢
  cases h1 : hs.decodeString ⟨body, 0⟩ with
  | mk s1 d1 =>
  cases h2 : hs.decodeString d1 with
  | mk s2 d2 =>
  cases h3 : hs.decodeString d2 with
  | mk s3 d3 =>
  cases h4 : hs.decodeString d3 with
  | mk s4 d4 =>
    simp only [h1, h2, h3, h4] at h
    split at h
    · cases h
    rename_i hsize
    split at h
    · -- all four strings are there: each read is followed in the longer buffer
      rw [hl.string.eq_mk h1] at h2
      rw [hl.string.eq_mk h2] at h3
      rw [hl.string.eq_mk h3] at h4
      simp only [hl.string.append h1 rest, hl.string.append h2 rest, hl.string.append h3 rest,
        hl.string.append h4 rest, hsize, if_false]
      exact h
    · cases h

/-! ## A reference decoder -/

open Reading.Reader in
def shortString : Reader UInt8 String :=
  (take 1).bind fun b =>
    if b.headD 0 < 0x20 then
      (take (b.headD 0).toNat).bind fun text => pure (String.ofList (text.map fun c => Char.ofNat c.toNat))
    else fail

open Reading.Reader in
/-- At most `n` pairs of short strings up to the end of the map. -/
def mapEntries : Nat → Reader UInt8 (List (Object × Object))
  | 0 => fail
  | n + 1 =>
    (take 1).bind fun b =>
      if b.headD 0 = 0x5a then pure []
      else if b.headD 0 < 0x20 then
        (take (b.headD 0).toNat).bind fun key => shortString.bind fun value =>
          (mapEntries n).bind fun entries =>
          pure ((.string (String.ofList (key.map fun c => Char.ofNat c.toNat)), .string value) :: entries)
      else fail

open Reading.Reader in
/-- One value: a short string, a one-byte integer (0x90 is zero), or a map of at most 16 pairs. -/
def fragmentValue : Reader UInt8 Object :=
  (take 1).bind fun b =>
    let b := b.headD 0
    if b < 0x20 then
      (take b.toNat).bind fun text => pure (.string (String.ofList (text.map fun c => Char.ofNat c.toNat)))
    else if 0x80 ≤ b ∧ b ≤ 0xbf then pure (.integer ((b.toNat : Int) - 0x90))
    else if b = 0x48 then (mapEntries 16).bind fun entries => pure (.untypedMap entries)
    else fail

/-- `decode<T>`: the value at the decoder's position, if it is a `T`. -/
def readAt {τ : Type} (cast : Object → Option τ) (d : Decoder) : Option τ × Decoder :=
  match fragmentValue (d.buffer.drop d.offset) with
  | some (v, n) => (cast v, d.skip n)
  | none => (none, d)

def Object.toInteger : Object → Option Int
  | .integer n => some n
  | _ => none

def fragment : Hessian2 where
  decodeInt := readAt Object.toInteger
  decodeString := readAt Object.toString
  decodeObject := readAt some

def encodeShort : Object → Bytes
  | .string s => UInt8.ofNat s.length :: s.toList.map fun ch => UInt8.ofNat ch.toNat
  | _ => [0x4e]

def encodeShortMap (entries : List (Object × Object)) : Bytes :=
  [0x48] ++ entries.flatMap (fun kv => encodeShort kv.1 ++ encodeShort kv.2) ++ [0x5a]

theorem local_shortString : Reader.Local shortString := by
  refine Reader.local_bind (Reader.local_take 1) fun b => ?_
  split
  · exact Reader.local_bind (Reader.local_take _) fun _ => Reader.local_pure _
  · exact Reader.local_fail

theorem local_mapEntries (n : Nat) : Reader.Local (mapEntries n) := by
  induction n with
  | zero => exact Reader.local_fail
  | succ n ih =>
    refine Reader.local_bind (Reader.local_take 1) fun b => ?_
    split
    · exact Reader.local_pure _
    · split
      · exact Reader.local_bind (Reader.local_take _) fun _ => Reader.local_bind local_shortString fun _ =>
          Reader.local_bind ih fun _ => Reader.local_pure _
      · exact Reader.local_fail

theorem local_fragmentValue : Reader.Local fragmentValue := by
  refine Reader.local_bind (Reader.local_take 1) fun b => ?_
  dsimp only
  split
  · exact Reader.local_bind (Reader.local_take _) fun _ => Reader.local_pure _
  · split
    · exact Reader.local_pure _
    · split
      · exact Reader.local_bind (local_mapEntries 16) fun _ => Reader.local_pure _
      · exact Reader.local_fail

theorem readAt_eq_some {τ : Type} {cast : Object → Option τ} {b : Bytes} {o n : Nat} {x : τ} :
    readAt cast ⟨b, o⟩ = (some x, ⟨b, n⟩) ↔
      ∃ v k, fragmentValue (b.drop o) = some (v, k) ∧ cast v = some x ∧ n = o + k := by
  unfold readAt
  cases hv : fragmentValue (b.drop o) with
  | none => simp
  | some p =>
    obtain ⟨v, k⟩ := p
    simp [Decoder.skip, eq_comm]

theorem readAt_local {τ : Type} (cast : Object → Option τ) : LocalRead (readAt cast) where
  buffer d := by
    unfold readAt
    split <;> rfl
  local_iff b more o n x := by
    rw [readAt_eq_some, readAt_eq_some]
    by_cases ho : o ≤ b.length
    · rw [List.drop_append_of_le_length ho]
      constructor
      · rintro ⟨v, k, hv, hx, rfl⟩
        obtain ⟨hv', hk⟩ := (local_fragmentValue (b.drop o) more v k).1 hv
        rw [List.length_drop] at hk
        exact ⟨⟨v, k, hv', hx, rfl⟩, by omega⟩
      · rintro ⟨⟨v, k, hv, hx, rfl⟩, hk⟩
        exact ⟨v, k, (local_fragmentValue (b.drop o) more v k).2
          ⟨hv, by rw [List.length_drop]; omega⟩, hx, rfl⟩
    · -- beyond the buffer there is nothing to read, and a read there ends beyond it
      have hnil : b.drop o = [] := List.drop_eq_nil_of_le (by omega)
      constructor
      · rintro ⟨v, k, hv, -, -⟩
        rw [hnil] at hv
        cases hv
      · rintro ⟨⟨v, k, -, -, rfl⟩, hn⟩
        omega

theorem fragment_local : fragment.Local := ⟨readAt_local _, readAt_local _, readAt_local _⟩

end MetaProtocolProxy.Dubbo
