import MetaProtocolProxy.Dubbo.Attachments
/-
# What decoding a Dubbo response depends on (dubbo_hessian2_serializer_impl.cc:89-174)

`deserializeRpcResult` compares the body size with the offset behind the response type, and then
reads the value and the attachment from the buffer, which may hold later bytes. A read stands in
one of three ways to the body (`Standing`): it ends within the body, it fails whatever follows,
or it fails on the body alone and succeeds on some bytes behind it.

`Overreads` is when the third way makes a difference. `response_isolated_iff`: outside of it, and
only then, the outcome is the same whatever follows the frame. A frame whose body is not
deserialized (an event, another status than `Ok`, an invalid header) always has one outcome.
-/
namespace MetaProtocolProxy.Dubbo

open Bytes
open Framing (Step)

/-! ## Reads at the end of the body -/

section Reads

variable {τ : Type} {decode : Decoder → Option τ × Decoder}

/-- How a read at offset `o` stands to the end of `b`. -/
inductive Standing (decode : Decoder → Option τ × Decoder) (b : Bytes) (o : Nat) : Prop
  | within {v : τ} {n : Nat} (hn : n ≤ b.length) (h : ∀ x, decode ⟨b ++ x, o⟩ = (some v, ⟨b ++ x, n⟩))
  | never (h : ∀ x, (decode ⟨b ++ x, o⟩).1 = none)
  | past {x : Bytes} {v : τ} {d : Decoder} (h : decode ⟨b ++ x, o⟩ = (some v, d)) (hd : b.length < d.offset)

/-- A read that succeeds on the body alone, or ends in it, is the same whatever follows. -/
theorem LocalRead.within (hl : LocalRead decode) {b x : Bytes} {o : Nat} {v : τ} {d : Decoder}
    (h : decode ⟨b ++ x, o⟩ = (some v, d)) (hd : d.offset ≤ b.length) (y : Bytes) :
    decode ⟨b ++ y, o⟩ = (some v, ⟨b ++ y, d.offset⟩) := by
  rw [hl.eq_mk h] at h
  exact hl.append ((hl.local_iff b x o d.offset v).2 ⟨h, hd⟩) y

theorem LocalRead.standing (hl : LocalRead decode) (b : Bytes) (o : Nat) : Standing decode b o := by
  by_cases hnone : ∀ x, (decode ⟨b ++ x, o⟩).1 = none
  · exact .never hnone
  · obtain ⟨x, hx⟩ := not_forall.1 hnone
    obtain ⟨v, hv⟩ := Option.ne_none_iff_exists'.1 hx
    have h : decode ⟨b ++ x, o⟩ = (some v, (decode ⟨b ++ x, o⟩).2) := Prod.ext hv rfl
    by_cases hd : (decode ⟨b ++ x, o⟩).2.offset ≤ b.length
    · exact .within hd (hl.within h hd)
    · exact .past h (Nat.lt_of_not_le hd)

theorem LocalRead.none_of_past (hl : LocalRead decode) {b x : Bytes} {o : Nat} {v : τ} {d : Decoder}
    (h : decode ⟨b ++ x, o⟩ = (some v, d)) (hd : b.length < d.offset) : (decode ⟨b, o⟩).1 = none := by
  by_contra hsome
  obtain ⟨w, hw⟩ := Option.ne_none_iff_exists'.1 hsome
  have hb : decode ⟨b, o⟩ = (some w, (decode ⟨b, o⟩).2) := Prod.ext hw rfl
  have hx := hl.append hb x
  rw [h] at hx
  have hle := hl.offset_le hb
  rw [congrArg (fun r => r.2.offset) hx] at hd
  exact absurd hle (Nat.not_le_of_lt hd)

end Reads

/-! ## The result -/

/-- The serializer is asked for something that bytes behind the body complete: the response type,
the value, or an attachment that is not empty. The attachment counts only where it is kept: a type
without a value must be all of the body. -/
inductive Overreads (hs : Hessian2) (body : Bytes) : Prop
  | type {x : Bytes} {n : Int} {d : Decoder} (h : hs.decodeInt ⟨body ++ x, 0⟩ = (some n, d))
    (hd : body.length < d.offset)
  | value {n : Int} {o : Nat} {type : RpcResponseType} (hn : hs.decodeInt ⟨body, 0⟩ = (some n, ⟨body, o⟩))
    (htype : RpcResponseType.ofInt n = some type) (hvalue : type.shape.hasValue = true) {x :
      Bytes} {s : String}
    {d : Decoder} (h : hs.decodeString ⟨body ++ x, o⟩ = (some s, d)) (hd : body.length < d.offset)
  | attachment {n : Int} {o o' : Nat} {type : RpcResponseType} {s : String}
    (hn : hs.decodeInt ⟨body, 0⟩ = (some n, ⟨body, o⟩)) (htype : RpcResponseType.ofInt n = some type)
    (hvalue : decodeRspBody hs type.shape ⟨body, o⟩ = .ok (s, ⟨body, o'⟩)) (hatt :
      type.shape.hasAttachment = true)
    (hkept : type.shape.hasValueOrAttachment = true ∨ body.length = o) {x : Bytes} {entries :
      List (Object × Object)}
    {d : Decoder} (h : hs.decodeObject ⟨body ++ x, o'⟩ = (some (.untypedMap entries), d)) (hne : entries ≠ [])
    (hd : body.length < d.offset)

section Result

variable {hs : Hessian2} {body : Bytes} {ctx : Context} {type : RpcResponseType} {o : Nat}

/-- Where no attachment but an empty one can be completed from behind, the attachment is the same
whatever follows. -/
theorem decodeAttachment_stable (hl : hs.Local)
    (hempty : ∀ {x entries d}, hs.decodeObject ⟨body ++ x, o⟩ = (some (.untypedMap entries), d) →
      body.length < d.offset → entries = []) (x : Bytes) (offset : Nat) :
    (decodeAttachment hs ⟨body ++ x, o⟩ offset).1 = (decodeAttachment hs ⟨body, o⟩ offset).1 := by
  have hpast : ∀ y, body.length < (hs.decodeObject ⟨body ++ y, o⟩).2.offset ∨
      (hs.decodeObject ⟨body ++ y, o⟩).1 = none →
      (decodeAttachment hs ⟨body ++ y, o⟩ offset).1 = { attachmentOffset := offset } := by
    intro y hy
    unfold decodeAttachment
    split
    · rename_i entries d h
      rw [h] at hy
      rw [hempty h (hy.resolve_right (by simp))]
    · rfl
  cases hl.object.standing body o with
  | @within v n hn h =>
    have hb := h []
    rw [List.append_nil] at hb
    simp only [decodeAttachment, h x, hb]
    cases v <;> rfl
  | never h =>
    have hb := hpast [] (.inr (h []))
    rw [List.append_nil] at hb
    rw [hpast x (.inr (h x)), hb]
  | past h hd =>
    have hnone := hl.object.none_of_past h hd
    have hb := hpast [] (.inr (by rwa [List.append_nil]))
    rw [List.append_nil] at hb
    rw [hb]
    refine hpast x ?_
    cases hv : (hs.decodeObject ⟨body ++ x, o⟩).1 with
    | none => exact .inr rfl
    | some w =>
      -- a read that ended in the body would succeed on the body alone
      refine .inl (Nat.lt_of_not_le fun hle => ?_)
      have hw := hl.object.within (Prod.ext hv rfl) hle []
      rw [List.append_nil] at hw
      rw [hw] at hnone
      cases hnone

theorem decodeRspBody_append (hl : hs.Local) {s : String} {o' : Nat}
    (h : decodeRspBody hs type.shape ⟨body, o⟩ = .ok (s, ⟨body, o'⟩)) (x : Bytes) :
    decodeRspBody hs type.shape ⟨body ++ x, o⟩ = .ok (s, ⟨body ++ x, o'⟩) := by
  unfold decodeRspBody at h ⊢
  split at h
  · split at h
    · rename_i hread
      cases h
      rw [if_pos ‹_›, hl.string.append hread x]
    · cases h
  · cases h
    rw [if_neg ‹_›]

/-- The value of a body that is not overread ends in the body, or it is missing whatever follows. -/
theorem decodeRspBody_stable (hl : hs.Local) (hno : ¬ Overreads hs body) {n : Int}
    (hn : hs.decodeInt ⟨body, 0⟩ = (some n, ⟨body, o⟩)) (htype : RpcResponseType.ofInt n = some type) :
    (∃ s o', decodeRspBody hs type.shape ⟨body, o⟩ = .ok (s, ⟨body, o'⟩)) ∨
      ∃ e, ∀ x, decodeRspBody hs type.shape ⟨body ++ x, o⟩ = .error e := by
  cases hv : type.shape.hasValue with
  | false => exact .inl ⟨"", o, by simp [decodeRspBody, hv]⟩
  | true =>
    cases hl.string.standing body o with
    | @within s m hm h =>
      have hb := h []
      rw [List.append_nil] at hb
      exact .inl ⟨s, m, by simp [decodeRspBody, hv, hb]⟩
    | never h =>
      refine .inr ⟨.nullDereference "responesebody", fun x => ?_⟩
      have hx := h x
      unfold decodeRspBody
      rw [if_pos hv]
      split
      · rename_i hsome
        rw [hsome] at hx
        cases hx
      · rfl
    | past h hd => exact absurd (.value hn htype hv h hd) hno

theorem decodeResult_stable (hl : hs.Local) (hno : ¬ Overreads hs body)
    (hc : ctx.bodySize = body.length) {n : Int}
    (hn : hs.decodeInt ⟨body, 0⟩ = (some n, ⟨body, o⟩))
    (htype : RpcResponseType.ofInt n = some type) (x : Bytes) :
    decodeResult hs type.shape ⟨body ++ x, o⟩ ctx = decodeResult hs type.shape ⟨body, o⟩ ctx := by
  rcases decodeRspBody_stable hl hno hn htype with ⟨s, o', hb⟩ | ⟨e, he⟩
  · simp only [decodeResult, hb, decodeRspBody_append hl hb x]
    by_cases hkept : type.shape.hasValueOrAttachment = true ∨ body.length = o
    · cases hatt : type.shape.hasAttachment with
      | false => rfl
      | true =>
        have hstable := decodeAttachment_stable hl (o := o') (fun {y entries d} h hd => by
          by_contra hne
          exact hno (.attachment hn htype hb hatt hkept h hne hd)) x (ctx.headerSize + o')
        simp only [if_true, hstable]
    · -- the attachment is read, and thrown away with the rest
      obtain ⟨hnot, hlen⟩ := not_or.1 hkept
      have hflag : type.shape.hasValueOrAttachment = false := by simpa using hnot
      have hdiff : (ctx.bodySize != o) = true := by simpa [hc] using hlen
      simp only [hflag, hdiff, Bool.not_false, Bool.and_self, if_true]
  · have hb := he []
    rw [List.append_nil] at hb
    simp only [decodeResult, he x, hb]

theorem deserializeRpcResult_stable (hl : hs.Local) (hno : ¬ Overreads hs body)
    (hc : ctx.bodySize = body.length)
    (x : Bytes) : deserializeRpcResult hs (body ++ x) ctx = deserializeRpcResult hs body ctx := by
  unfold deserializeRpcResult
  cases hl.int.standing body 0 with
  | within hm h =>
    have hb := h []
    rw [List.append_nil] at hb
    simp only [h x, hb]
    split
    · rfl
    · rename_i type htype
      exact decodeResult_stable hl hno hc hb htype x
  | never h =>
    have hval : ∀ y, ∃ d, hs.decodeInt ⟨body ++ y, 0⟩ = (none, d) := fun y => ⟨_, Prod.ext (h y) rfl⟩
    obtain ⟨d, hx⟩ := hval x
    obtain ⟨d', hb⟩ := hval []
    rw [List.append_nil] at hb
    simp only [hx, hb]
  | past h hd => exact absurd (.type h hd) hno

end Result

/-! ## The outcome of a frame -/

/-- What a call gives on a frame with `rest` behind it: the message, with exactly `rest` left
unread, or the exception. -/
def Outcome (step : Step DubboCodec UInt8 (Metadata DubboAny) Failure) (rest : Bytes)
    (r : Except Failure (Metadata DubboAny)) : Prop :=
  (∃ c md, step = .done c md rest ∧ r = .ok md) ∨ ∃ c unread e, step = .fail c unread e ∧ r = .error e

theorem Outcome.unique {step : Step DubboCodec UInt8 (Metadata DubboAny) Failure} {rest : Bytes}
    {r r' : Except Failure (Metadata DubboAny)} (h : Outcome step rest r)
    (h' : Outcome step rest r') : r = r' := by
  rcases h with ⟨c, md, rfl, rfl⟩ | ⟨c, unread, e, rfl, rfl⟩ <;>
    rcases h' with ⟨c', md', h, rfl⟩ | ⟨c', unread', e', h, rfl⟩ <;>
    cases h <;> rfl

section Outcomes

variable {hs : Hessian2} {buffer rest unread : Bytes} {m : DecoderStateMachine}
    {md₀ : Metadata DubboAny} {e : Failure}

theorem outcome_of_done (h : DecoderStateMachine.run hs {} buffer = .done m () rest) :
    Outcome (DubboCodec.decode hs {} buffer md₀) rest (toMetadata hs m.metadata m.context md₀) := by
  simp only [DubboCodec.decode, Option.getD_none, h]
  cases toMetadata hs m.metadata m.context md₀ with
  | ok md => exact .inl ⟨_, md, rfl, rfl⟩
  | error e => exact .inr ⟨_, _, e, rfl, rfl⟩

theorem outcome_of_fail (h : DecoderStateMachine.run hs {} buffer = .fail m unread e) :
    Outcome (DubboCodec.decode hs {} buffer md₀) rest (.error e) := by
  simp only [DubboCodec.decode, Option.getD_none, h]
  exact .inr ⟨_, _, e, rfl, rfl⟩

end Outcomes

namespace Frame

variable (f : Frame)

/-- The body of a response is deserialized when its header is valid and its status is `Ok`. -/
def Deserialized : Prop :=
  f.isEvent = false ∧ f.body.length ≤ maxBodySize ∧ DubboResponseStatus.ofByte f.status.toNat = some .ok

def answered (status : DubboResponseStatus) : MessageMetadata :=
  { requestId := ofBE f.id, messageType := if f.isEvent then .heartbeatResponse else .response,
    responseStatus := some status }

/-- The message of a response with the result `result`. -/
def resulting (result : RpcResult) : MessageMetadata :=
  { f.answered .ok with
    rpcResultInfo := some result, messageType := if result.hasException then .exception else .response }

/-- What the result of a response becomes. -/
def converted (hs : Hessian2) (md₀ : Metadata DubboAny) (result : RpcResult) :
    Except Failure (Metadata DubboAny) :=
  toMetadata hs (f.resulting result) f.wholeContext md₀

variable {f} {hs : Hessian2} {md₀ : Metadata DubboAny}

theorem decodeHeader_answered (hresp : f.isRequest = false) (hsize : f.body.length ≤ maxBodySize)
    {status : DubboResponseStatus}
    (hst : (DubboResponseStatus.ofByte f.status.toNat).filter isValidResponseStatus = some status)
    {md : MessageMetadata} (hmd : md = {} ∨ md = f.answered status) :
    decodeHeader f.header md = (f.answered status, .ok (some f.context)) := by
  have hbyte : peekByte statusOffset f.header = f.status := rfl
  refine f.decodeHeader_sized hsize (r := .ok ()) ?_
  rw [parsed, if_neg (by simp [hresp])]
  simp only [parseResponseInfoFromBuffer, hbyte, hst]
  rcases hmd with rfl | rfl <;> rfl

theorem decodeHeader_invalid (hresp : f.isRequest = false) (hsize : f.body.length ≤ maxBodySize)
    (hst : (DubboResponseStatus.ofByte f.status.toNat).filter isValidResponseStatus = none) :
    ∃ md e, decodeHeader f.header {} = (md, .error e) := by
  have hbyte : peekByte statusOffset f.header = f.status := rfl
  have hparsed : ∃ md e, f.parsed {} = (md, .error e) := by
    rw [parsed, if_neg (by simp [hresp])]
    simp only [parseResponseInfoFromBuffer, hbyte, hst]
    exact ⟨_, _, rfl⟩
  obtain ⟨md, e, hp⟩ := hparsed
  exact ⟨md, e, f.decodeHeader_sized hsize hp⟩

theorem outcome_deserialized (hresp : f.isRequest = false) (hf : f.Deserialized) (x : Bytes) :
    Outcome (DubboCodec.decode hs {} (f.bytes ++ x) md₀) x
      (deserializeRpcResult hs (f.body ++ x) f.headedContext >>= f.converted hs md₀) := by
  obtain ⟨hev, hsize, hst⟩ := hf
  have hdec : decodeHeader f.header {} = (f.answered .ok, _) :=
    decodeHeader_answered hresp hsize (by rw [hst]; rfl) (.inl rfl)
  have htype : (f.answered .ok).messageType = .response := by simp [answered, hev]
  have hrun := @run_header f hs {} _ rfl hdec (by simp [htype]) (f.body ++ x)
  rw [← List.append_assoc] at hrun
  have hdata : decodeData hs (f.body ++ x) f.headedContext (f.answered .ok) =
      (deserializeRpcResult hs (f.body ++ x) f.headedContext).map fun result =>
          some (f.resulting result) := by
    have hstatus : (f.answered .ok).responseStatus = some .ok := rfl
    rw [decodeData, if_neg (f.not_short x)]
    simp only [htype, hstatus, ne_eq, not_true_eq_false, if_false]
    cases deserializeRpcResult hs (f.body ++ x) f.headedContext with
    | error e => rfl
    | ok result =>
      simp only [bind, Except.bind, pure, Except.pure, Except.map, resulting]
      cases result.hasException <;> simp [answered, hev]
  cases hd : deserializeRpcResult hs (f.body ++ x) f.headedContext with
  | error e =>
    rw [hd] at hdata
    exact outcome_of_fail (hrun.trans (runLoop_body_error 0 hdata))
  | ok result =>
    rw [hd] at hdata
    exact outcome_of_done (hrun.trans (runLoop_body_done 0 hdata))

/-- A response whose body is not deserialized has one outcome, which is not a message of the type
response. -/
theorem outcome_fixed (hresp : f.isRequest = false) (hf : ¬ f.Deserialized) :
    ∃ r, (∀ x, Outcome (DubboCodec.decode hs {} (f.bytes ++ x) md₀) x r) ∧ ∀ md, r = .ok md →
      md.messageType ≠ .response := by
  by_cases hsize : f.body.length ≤ maxBodySize
  · cases hst : (DubboResponseStatus.ofByte f.status.toNat).filter isValidResponseStatus with
    | none =>
      obtain ⟨md, e, hdec⟩ := decodeHeader_invalid hresp hsize hst
      refine ⟨.error e, fun x => ?_, by simp⟩
      rw [bytes, List.append_assoc]
      exact outcome_of_fail (run_refused (m := {}) rfl hdec _)
    | some status =>
      have hdec := decodeHeader_answered hresp hsize hst (.inl rfl)
      have hbyte : DubboResponseStatus.ofByte f.status.toNat = some status :=
        (Option.filter_eq_some_iff.1 hst).1
      cases hev : f.isEvent with
      | true =>
        have htype : (f.answered status).messageType = .heartbeatResponse := by simp [answered, hev]
        have hnot : ∀ md, toMetadata hs (f.answered status) f.wholeContext md₀ = .ok md →
            md.messageType ≠ .response := by
          intro md hmd
          rw [(toMetadata_fields hmd).1, htype]
          decide
        refine ⟨_, fun x => ?_, hnot⟩
        have hrun := @run_heartbeat f hs {} _ rfl hdec (.inr htype) (f.body ++ x)
        rw [if_neg (by simp), List.take_left, List.drop_left, ← List.append_assoc] at hrun
        exact outcome_of_done hrun
      | false =>
        have hne : some status ≠ some .ok := fun h => hf ⟨hev, hsize, hbyte.trans h⟩
        have htype : (f.answered status).messageType = .response := by simp [answered, hev]
        have hnot : ∀ md, toMetadata hs { f.answered status with messageType := .exception }
            f.wholeContext md₀ = .ok md → md.messageType ≠ .response := by
          intro md hmd
          rw [(toMetadata_fields hmd).1]
          simp [DubboMessageType.toMessageType]
        refine ⟨_, fun x => ?_, hnot⟩
        have hrun := @run_header f hs {} _ rfl hdec (by simp [htype]) (f.body ++ x)
        have hdata : decodeData hs (f.body ++ x) f.headedContext (f.answered status) =
            .ok (some { f.answered status with messageType := .exception }) := by
          rw [decodeData, if_neg (f.not_short x)]
          simp only [htype]
          exact if_pos hne
        rw [← List.append_assoc] at hrun
        exact outcome_of_done (hrun.trans (runLoop_body_done 0 hdata))
  · refine ⟨.error (.envoyException s!"invalid dubbo message size {(f.body.length : Int)}"),
      fun x => ?_, by simp⟩
    rw [bytes, List.append_assoc]
    exact outcome_of_fail (run_refused (m := {}) rfl (f.decodeHeader_oversized hsize {}) _)

/-- Two results with different attachments become different messages: the result is stored in
them. -/
theorem converted_injective {r r' : RpcResult} {md : Metadata DubboAny} (h : f.converted hs md₀ r = .ok md)
    (h' : f.converted hs md₀ r' = .ok md) : r = r' := by
  have hstored : ∀ {r}, f.converted hs md₀ r = .ok md →
      md.getByKey "RpcResultInfo" = some (.other (.rpcResultInfo r)) := by
    intro r h
    obtain ⟨a, -, hp⟩ := @toMetadata_stored _ _ _ _ _ r rfl rfl h
    rw [getByKey_of_properties hp, Metadata.getByKey_put, if_pos rfl]
  have heq := (hstored h).symm.trans (hstored h')
  cases heq
  rfl

theorem converted_cases (r : RpcResult) :
    f.converted hs md₀ r = .error (.nullDereference "attachment_") ∧ r.attachment = none ∨
      (∃ md, f.converted hs md₀ r = .ok md) ∧ r.attachment ≠ none := by
  have h := @toMetadata_result hs (f.resulting r) r f.wholeContext md₀ rfl rfl
  cases ha : r.attachment with
  | none => exact .inl ⟨h.1 ha, rfl⟩
  | some a =>
    obtain ⟨md, hmd, -⟩ := h.2 a ha
    exact .inr ⟨⟨md, hmd⟩, by simp⟩

end Frame

/-! ## Responses that borrow -/

section Borrow

variable {hs : Hessian2} {f : Frame} {md₀ : Metadata DubboAny} {x : Bytes}

theorem text_ne {a b : String} (h : ¬ a.toList <+: b.toList) (rest : String) : a ++ rest ≠ b := by
  rintro rfl
  exact h ⟨rest.toList, String.toList_append.symm⟩

theorem type_differs (hl : hs.Local) {n : Int} {d : Decoder} (h : hs.decodeInt ⟨f.body ++ x, 0⟩ = (some n, d))
    (hd : f.body.length < d.offset) :
    (deserializeRpcResult hs (f.body ++ x) f.headedContext >>= f.converted hs md₀) ≠
      (deserializeRpcResult hs f.body f.headedContext >>= f.converted hs md₀) := by
  have hb : deserializeRpcResult hs f.body f.headedContext =
      .error (.envoyException "Cannot parse RpcResult type from buffer") := by
    have hnone := hl.int.none_of_past h hd
    unfold deserializeRpcResult
    split
    · rfl
    · rename_i hsome
      rw [hsome] at hnone
      cases hnone
  have hsize : f.headedContext.bodySize < d.offset := hd
  have hx : ∃ e, deserializeRpcResult hs (f.body ++ x) f.headedContext = .error e ∧
      e ≠ .envoyException "Cannot parse RpcResult type from buffer" := by
    unfold deserializeRpcResult
    rw [h]
    dsimp only
    split
    · exact ⟨_, rfl, fun he => text_ne (by decide) _ (Failure.envoyException.inj he)⟩
    · unfold decodeResult
      split
      · rename_i hvalue
        refine ⟨_, rfl, fun he => ?_⟩
        rw [he] at hvalue
        unfold decodeRspBody at hvalue
        split at hvalue
        · split at hvalue <;> cases hvalue
        · cases hvalue
      · -- the body is too small for the type
        rw [if_pos hsize]
        refine ⟨_, rfl, fun he => ?_⟩
        have htext := Failure.envoyException.inj he
        simp only [String.append_assoc] at htext
        exact text_ne (by decide) _ htext
  obtain ⟨e, hx, hne⟩ := hx
  rw [hx, hb]
  intro heq
  exact hne (Except.error.inj heq)

/-- The shape of a response with a value: nothing is said about the size of the rest. -/
theorem shape_of_hasValue {type : RpcResponseType} (h : type.shape.hasValue = true) :
    type.shape.hasValueOrAttachment = true := by
  cases type <;> first | rfl | cases h

/-- The value is read from behind the body: on the body alone a null pointer is dereferenced. -/
theorem value_differs (hl : hs.Local) {n : Int} {o : Nat} {type : RpcResponseType}
    (hn : hs.decodeInt ⟨f.body, 0⟩ = (some n, ⟨f.body, o⟩)) (htype : RpcResponseType.ofInt n = some type)
    (hvalue : type.shape.hasValue = true) {s : String} {d : Decoder}
    (h : hs.decodeString ⟨f.body ++ x, o⟩ = (some s, d)) (hd : f.body.length < d.offset) :
    (deserializeRpcResult hs (f.body ++ x) f.headedContext >>= f.converted hs md₀) ≠
      (deserializeRpcResult hs f.body f.headedContext >>= f.converted hs md₀) := by
  have hb : deserializeRpcResult hs f.body f.headedContext = .error (.nullDereference "responesebody") := by
    have hnone := hl.string.none_of_past h hd
    have hval : decodeRspBody hs type.shape ⟨f.body, o⟩ = .error (.nullDereference "responesebody") := by
      unfold decodeRspBody
      rw [if_pos hvalue]
      split
      · rename_i hsome
        rw [hsome] at hnone
        cases hnone
      · rfl
    simp only [deserializeRpcResult, hn, htype, decodeResult, hval]
  have hsize : ¬ f.headedContext.bodySize < o := Nat.not_lt_of_le (hl.int.offset_le hn)
  have hval : decodeRspBody hs type.shape ⟨f.body ++ x, o⟩ = .ok (s, d) := by
    simp only [decodeRspBody, hvalue, if_true, h]
  have hx : ∃ r, deserializeRpcResult hs (f.body ++ x) f.headedContext = .ok r := by
    simp only [deserializeRpcResult, hl.int.append hn x, htype, decodeResult, hval, hsize, if_false,
      shape_of_hasValue hvalue, Bool.not_true, Bool.false_and, Bool.false_eq_true]
    exact ⟨_, rfl⟩
  obtain ⟨r, hx⟩ := hx
  rw [hx, hb]
  show f.converted hs md₀ r ≠ .error (.nullDereference "responesebody")
  rcases @Frame.converted_cases f hs md₀ r with ⟨hr, -⟩ | ⟨⟨md, hr⟩, -⟩
  · rw [hr]
    simp
  · rw [hr]
    simp

theorem attachment_differs (hl : hs.Local) {n : Int} {o o' : Nat} {type : RpcResponseType} {s : String}
    (hn : hs.decodeInt ⟨f.body, 0⟩ = (some n, ⟨f.body, o⟩)) (htype : RpcResponseType.ofInt n = some type)
    (hvalue : decodeRspBody hs type.shape ⟨f.body, o⟩ = .ok (s, ⟨f.body, o'⟩))
    (hatt : type.shape.hasAttachment = true)
    (hkept : type.shape.hasValueOrAttachment = true ∨ f.body.length = o)
    {entries : List (Object × Object)} {d : Decoder}
    (h : hs.decodeObject ⟨f.body ++ x, o'⟩ = (some (.untypedMap entries), d)) (hne : entries ≠ [])
    (hd : f.body.length < d.offset) :
    (deserializeRpcResult hs (f.body ++ x) f.headedContext >>= f.converted hs md₀) ≠
      (deserializeRpcResult hs f.body f.headedContext >>= f.converted hs md₀) := by
  have hsize : ¬ f.headedContext.bodySize < o := Nat.not_lt_of_le (hl.int.offset_le hn)
  have hfull : (!type.shape.hasValueOrAttachment && f.headedContext.bodySize != o) = false := by
    have hbody : f.headedContext.bodySize = f.body.length := rfl
    rcases hkept with hk | hk <;> simp [hk, hbody]
  have hx : deserializeRpcResult hs (f.body ++ x) f.headedContext = .ok
      { hasException := type.shape.exception, rspBody := s,
        attachment :=
            some { attachment := entries, attachmentOffset := f.headedContext.headerSize + o' } } := by
    have hval := decodeRspBody_append hl hvalue x
    simp only [deserializeRpcResult, hl.int.append hn x, htype, decodeResult, hval, hatt, if_true,
      decodeAttachment, h, hsize, if_false, hfull, Bool.false_eq_true]
  have hb : deserializeRpcResult hs f.body f.headedContext = .ok
      { hasException := type.shape.exception, rspBody := s,
        attachment := some { attachmentOffset := f.headedContext.headerSize + o' } } := by
    have hnone : hs.decodeObject ⟨f.body, o'⟩ = (none, (hs.decodeObject ⟨f.body, o'⟩).2) :=
      Prod.ext (hl.object.none_of_past h hd) rfl
    simp only [deserializeRpcResult, hn, htype, decodeResult, hvalue, hatt, if_true, decodeAttachment]
    rw [hnone]
    simp only [hsize, if_false, hfull, Bool.false_eq_true]
  rw [hx, hb]
  intro heq
  simp only [bind, Except.bind] at heq
  -- both convert, and the messages hold the results
  have hconv : ∀ r : RpcResult, r.attachment ≠ none → ∃ md, f.converted hs md₀ r = .ok md := by
    intro r hr
    rcases @Frame.converted_cases f hs md₀ r with ⟨-, h0⟩ | ⟨hmd, -⟩
    · exact absurd h0 hr
    · exact hmd
  obtain ⟨md, hmd⟩ := hconv
    { hasException := type.shape.exception, rspBody := s,
      attachment := some { attachmentOffset := f.headedContext.headerSize + o' } }
    (by simp)
  have hsame := Frame.converted_injective (heq.trans hmd) hmd
  simp only [RpcResult.mk.injEq, Option.some.injEq, Attachment.mk.injEq, true_and, and_true] at hsame
  exact hne hsame

end Borrow

/-- On the frame with `x` behind it and with `y` behind it the call gives the same, and if that is a
message, exactly the frame is consumed. -/
def Isolated (hs : Hessian2) (f : Frame) (md₀ : Metadata DubboAny) (x y : Bytes) : Prop :=
  ∃ r, Outcome (DubboCodec.decode hs {} (f.bytes ++ x) md₀) x r ∧
    Outcome (DubboCodec.decode hs {} (f.bytes ++ y) md₀) y r

/-- The frame alone against the frame with `x` behind it. -/
theorem Isolated.same {hs : Hessian2} {f : Frame} {md₀ : Metadata DubboAny} {x : Bytes}
    (h : Isolated hs f md₀ x []) (hresp : f.isRequest = false) (hf : f.Deserialized) :
    (deserializeRpcResult hs (f.body ++ x) f.headedContext >>= f.converted hs md₀) =
      (deserializeRpcResult hs f.body f.headedContext >>= f.converted hs md₀) := by
  obtain ⟨r, hx, hy⟩ := h
  have hnil := @Frame.outcome_deserialized f hs md₀ hresp hf []
  rw [List.append_nil, List.append_nil] at hnil
  rw [List.append_nil] at hy
  rw [(Frame.outcome_deserialized hresp hf x).unique hx, hnil.unique hy]

/-- **What follows a response makes no difference**, exactly if its body is not deserialized or
nothing the serializer asks for can be completed from behind it. -/
theorem response_isolated_iff {hs : Hessian2} (hl : hs.Local) (f : Frame) (hresp : f.isRequest = false)
    (md₀ : Metadata DubboAny) :
    (∀ x y, Isolated hs f md₀ x y) ↔ (f.Deserialized → ¬ Overreads hs f.body) := by
  constructor
  · intro hiso hf hover
    -- the frame alone against the frame with the bytes that complete the read
    have hsame := fun x => (hiso x []).same hresp hf
    cases hover with
    | type h hd => exact type_differs hl h hd (hsame _)
    | value hn htype hvalue h hd => exact value_differs hl hn htype hvalue h hd (hsame _)
    | attachment hn htype hvalue hatt hkept h hne hd =>
      exact attachment_differs hl hn htype hvalue hatt hkept h hne hd (hsame _)
  · intro hno x y
    by_cases hf : f.Deserialized
    · have hstable := @deserializeRpcResult_stable hs f.body f.headedContext hl (hno hf) rfl
      refine ⟨deserializeRpcResult hs f.body f.headedContext >>= f.converted hs md₀, ?_, ?_⟩
      · rw [← hstable x]
        exact Frame.outcome_deserialized hresp hf x
      · rw [← hstable y]
        exact Frame.outcome_deserialized hresp hf y
    · obtain ⟨r, hr, -⟩ := @Frame.outcome_fixed f hs md₀ hresp hf
      exact ⟨r, hr x, hr y⟩

/-- A response of the type null value, without anything else. -/
def nullResponse : Frame := ⟨0x02, 20, [0, 0, 0, 0, 0, 0, 0, 9], [0x92], rfl, by decide⟩

/-- The map `{"k": "v"}` behind the null response is taken for its attachment. -/
theorem null_response_borrows :
    ¬ Isolated fragment nullResponse (Metadata.ofType .response) [0x48, 0x01, 0x6b, 0x01, 0x76, 0x5a] [] := by
  intro h
  have hdiffers :=
    @attachment_differs fragment nullResponse (Metadata.ofType .response) [0x48, 0x01, 0x6b, 0x01, 0x76, 0x5a]
      fragment_local 2 1 1 .responseWithNullValue "" rfl rfl rfl rfl (.inr rfl)
        [(.string "k", .string "v")] ⟨_, 7⟩ rfl (by simp)
      (by decide)
  exact hdiffers (h.same rfl ⟨rfl, by decide, rfl⟩)

/-- A response of the type null value with attachments, with the empty map. -/
def attachedResponse : Frame := ⟨0x02, 20, [0, 0, 0, 0, 0, 0, 0, 9], [0x95, 0x48, 0x5a], rfl, by decide⟩

theorem attachedResponse_contained : ¬ Overreads fragment attachedResponse.body := by
  have hint : fragment.decodeInt ⟨attachedResponse.body, 0⟩ = (some 5, ⟨attachedResponse.body, 1⟩) := rfl
  intro h
  cases h with
  | type h hd =>
    rw [fragment_local.int.append hint] at h
    cases h
    have hpast : 3 < 1 := hd
    omega
  | value hn htype hvalue =>
    rw [hint] at hn
    cases hn
    cases htype
    cases hvalue
  | attachment hn htype hvalue hatt hkept h hne hd =>
    rw [hint] at hn
    cases hn
    cases htype
    cases hvalue
    have hmap : fragment.decodeObject ⟨attachedResponse.body, 1⟩ =
      (some (.untypedMap []), ⟨attachedResponse.body, 3⟩) := rfl
    rw [fragment_local.object.append hmap] at h
    cases h
    exact hne rfl

/-- A response that carries its map depends on nothing behind it. -/
theorem attached_response_isolated : attachedResponse.Deserialized ∧
    ∀ x y, Isolated fragment attachedResponse (Metadata.ofType .response) x y :=
  ⟨⟨rfl, by decide, rfl⟩,
    (response_isolated_iff fragment_local attachedResponse rfl (Metadata.ofType .response)).2
      fun _ => attachedResponse_contained⟩

end MetaProtocolProxy.Dubbo
