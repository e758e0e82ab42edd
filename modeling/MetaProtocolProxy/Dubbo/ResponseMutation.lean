import MetaProtocolProxy.Dubbo.Mutation
import MetaProtocolProxy.Dubbo.Overread
/-
# Mutating a Dubbo response
(dubbo_codec.cc:81-128, dubbo_protocol_impl.cc:179-214, dubbo_hessian2_serializer_impl.cc:89-174)

`encodeResponse` sets the entries of the mutation in the attachment of the result, and
`rspheaderMutation` writes the response anew with the attachment behind the value. Neither looks at
the response type. `deserializeRpcResult` does: the case of `ResponseWithNullValue` falls through
into the next one and so asks for an attachment, and still wants the type to be all of the body.

* `ReadResult` — the parts of a body that was accepted with an attachment.
* `ReadResult.spliced` — what the serializer makes of these parts with another attachment behind
  them.
* `response_mutation_iff` — the new frame is accepted as the same response with the attachment
  updated exactly if no attachment clashes with the codec's own names, the response type is not
  `ResponseWithNullValue`, and the new body is not too long.
-/
namespace MetaProtocolProxy.Dubbo

open Bytes
open Metadata (ofType)

/-! ## The body of a response -/

def responseTypeOf (hs : Hessian2) (body : Bytes) : Option RpcResponseType :=
  (hs.decodeInt ⟨body, 0⟩).1.bind RpcResponseType.ofInt

/-- A body of a type with an attachment: the type ends at `o`, the value at `o'`, and the attachment
is read from there on. -/
structure ReadResult (hs : Hessian2) (body : Bytes) (type : RpcResponseType) (o o' : Nat)
    (s : String) : Prop where
  tag : ∃ n, hs.decodeInt ⟨body, 0⟩ = (some n, ⟨body, o⟩) ∧ RpcResponseType.ofInt n = some type
  value : decodeRspBody hs type.shape ⟨body, o⟩ = .ok (s, ⟨body, o'⟩)
  attached : type.shape.hasAttachment = true
  order : o ≤ o'
  within : o' ≤ body.length
  full : type.shape.hasValueOrAttachment = false → body.length = o

section Body

variable {hs : Hessian2} {body : Bytes} {ctx : Context} {type : RpcResponseType} {o o' : Nat} {s : String}

theorem ReadResult.responseTypeOf_eq (hr : ReadResult hs body type o o' s) :
    responseTypeOf hs body = some type := by
  obtain ⟨n, hn, htype⟩ := hr.tag
  rw [responseTypeOf, hn]
  exact htype

theorem decodeRspBody_ends (hl : hs.Local) (hf : hs.Forward) {d : Decoder} (ho : o ≤ body.length)
    (h : decodeRspBody hs type.shape ⟨body, o⟩ = .ok (s, d)) : d = ⟨body, d.offset⟩ ∧ o ≤ d.offset ∧
      d.offset ≤ body.length := by
  unfold decodeRspBody at h
  split at h
  · split at h
    · next hread =>
      cases h
      have hahead := hf.string ⟨body, o⟩
      rw [hread] at hahead
      exact ⟨hl.string.eq_mk hread, hahead.le, hl.string.offset_le hread⟩
    · cases h
  · cases h
    exact ⟨rfl, Nat.le_refl o, ho⟩

theorem decodeRspBody_take (hl : hs.Local) (hwithin : o' ≤ body.length)
    (h : decodeRspBody hs type.shape ⟨body, o⟩ = .ok (s, ⟨body, o'⟩)) :
    decodeRspBody hs type.shape ⟨body.take o', o⟩ = .ok (s, ⟨body.take o', o'⟩) := by
  unfold decodeRspBody at h ⊢
  split at h
  · next hhas =>
    split at h
    · next hread =>
      simp only [Except.ok.injEq, Prod.mk.injEq] at h
      obtain ⟨rfl, rfl⟩ := h
      rw [← List.take_append_drop o' body] at hread
      have hshort := hl.string.within hread (by simp [hwithin]) []
      rw [List.append_nil] at hshort
      rw [if_pos hhas, hshort]
    · cases h
  · next hhas =>
    cases h
    rw [if_neg hhas]

theorem deserializeRpcResult_read (hl : hs.Local) (hf : hs.Forward)
    (hc : ctx.bodySize = body.length) {result : RpcResult}
    {a : Attachment} (h : deserializeRpcResult hs body ctx = .ok result) (ha : result.attachment = some a) :
    ∃ type o o' s, ReadResult hs body type o o' s ∧ result.hasException = type.shape.exception ∧
      result.rspBody = s ∧ a.attachmentOffset = ctx.headerSize + o' := by
  unfold deserializeRpcResult at h
  split at h
  · cases h
  next n d hn =>
  split at h
  · cases h
  next type htype =>
  have hd : d = ⟨body, d.offset⟩ := hl.int.eq_mk hn
  have hle := hl.int.offset_le hn
  rw [hd] at h hn
  unfold decodeResult at h
  dsimp only at h
  split at h
  · cases h
  next s d' hvalue =>
  obtain ⟨hd', hlo, hhi⟩ := decodeRspBody_ends hl hf hle hvalue
  rw [hd'] at hvalue
  split at h
  · cases h
  split at h
  · cases h
  next hfull =>
  replace hfull : type.shape.hasValueOrAttachment = false → ctx.bodySize = d.offset := by simpa using hfull
  cases h
  cases hatt : type.shape.hasAttachment with
  | false => simp [hatt] at ha
  | true =>
    simp only [hatt, if_true, Option.some.injEq] at ha
    refine ⟨type, d.offset, d'.offset, s, ⟨⟨n, hn, htype⟩, hvalue, hatt, hlo, hhi, fun hkept => ?_⟩,
      rfl, rfl, ?_⟩
    · rw [← hc, hfull hkept]
    · rw [← ha, (decodeAttachment_fields hs d' _).1]

/-- A response type without a value or an attachment, and `n` bytes behind it. -/
def restOfBody (n : Nat) : Failure :=
  .envoyException s!"RpcResult is no value, but the rest of the body size({n}) not equal 0"

/-- The parts of the body with the map `entries` behind them. -/
theorem ReadResult.spliced (hl : hs.Local) (hr : ReadResult hs body type o o' s) {map : Bytes}
    {entries : List (Object × Object)}
    (hread : (hs.decodeObject ⟨body.take o' ++ map, o'⟩).1 = some (.untypedMap entries))
    (hsize : ctx.bodySize = o' + map.length) :
    deserializeRpcResult hs (body.take o' ++ map) ctx =
      if !type.shape.hasValueOrAttachment && ctx.bodySize != o then
        .error (restOfBody (ctx.bodySize - o))
      else .ok { hasException := type.shape.exception, rspBody := s,
                 attachment := some { attachment := entries, attachmentOffset := ctx.headerSize + o' } } := by
  obtain ⟨n, hn, htype⟩ := hr.tag
  have hlen : (body.take o').length = o' := List.length_take_of_le hr.within
  have hparts : body = body.take o' ++ body.drop o' := (List.take_append_drop o' body).symm
  have hint : hs.decodeInt ⟨body.take o' ++ map, 0⟩ = (some n, ⟨body.take o' ++ map, o⟩) := by
    rw [hparts] at hn
    exact hl.int.within hn (by rw [hlen]; exact hr.order) _
  have hvalue := decodeRspBody_append hl (decodeRspBody_take hl hr.within hr.value) map
  have hmap : (decodeAttachment hs ⟨body.take o' ++ map, o'⟩ (ctx.headerSize + o')).1 =
      { attachment := entries, attachmentOffset := ctx.headerSize + o' } := by
    unfold decodeAttachment
    rcases hd : hs.decodeObject ⟨body.take o' ++ map, o'⟩ with ⟨r, d⟩
    rw [hd] at hread
    cases hread
    rfl
  have hnot : ¬ ctx.bodySize < o := by
    have := hr.order
    omega
  have hatt := hr.attached
  simp only [deserializeRpcResult, hint, htype, decodeResult, hvalue, hatt, if_true, hmap, hnot,
    if_false, restOfBody]

end Body

/-! ## Accepted responses -/

/-- The result of a message. -/
def resultOf (md : Metadata DubboAny) : Option RpcResult :=
  match md.getByKey "RpcResultInfo" with
  | some (.other (.rpcResultInfo result)) => some result
  | _ => none

section Accepted

variable {hs : Hessian2} {f : Frame} {c : DubboCodec} {md : Metadata DubboAny} {t : MessageType}
    {result : RpcResult}

theorem accepted_response (h : DubboCodec.decode hs {} f.bytes (ofType t) = .done c md [])
    (hresp : md.messageType = .response) :
    f.isRequest = false ∧ f.Deserialized ∧
      ∃ result, deserializeRpcResult hs f.body f.headedContext = .ok result ∧
      result.hasException = false ∧ f.converted hs (ofType t) result = .ok md := by
  obtain ⟨m, hrun, hmd⟩ := decode_done h
  cases hreq : f.isRequest with
  | true =>
    have htype := (run_readRequest hrun hreq).messageType
    rw [(toMetadata_fields hmd).1, htype, requestTypeOf] at hresp
    cases hev : hasMask (peekByte flagOffset f.bytes) eventMask <;>
      cases htw : hasMask (peekByte flagOffset f.bytes) twoWayMask <;>
      simp [hev, htw, DubboMessageType.toMessageType] at hresp
  | false =>
    have hout : Outcome (DubboCodec.decode hs {} (f.bytes ++ []) (ofType t)) [] (.ok md) :=
      .inl ⟨c, md, by rw [List.append_nil]; exact h, rfl⟩
    by_cases hdes : f.Deserialized
    · refine ⟨rfl, hdes, ?_⟩
      have hr := (Frame.outcome_deserialized hreq hdes []).unique hout
      rw [List.append_nil] at hr
      obtain ⟨result, hresult, hconv⟩ := bind_eq_ok.1 hr
      refine ⟨result, hresult, ?_, hconv⟩
      rw [(toMetadata_fields hconv).1] at hresp
      cases hex : result.hasException with
      | false => rfl
      | true => simp [Frame.resulting, hex, DubboMessageType.toMessageType] at hresp
    · obtain ⟨r, hr, hnot⟩ := @Frame.outcome_fixed f hs (ofType t) hreq hdes
      exact absurd hresp (hnot md ((hr []).unique hout))

structure Carried (f : Frame) (result : RpcResult) (md : Metadata DubboAny) : Prop where
  messageType : md.messageType = if result.hasException then .error else .response
  requestId : md.requestId = ofBE f.id
  responseStatus : md.responseStatus = .ok
  headerSize : md.headerSize = messageSize
  result : md.getByKey "RpcResultInfo" = some (.other (.rpcResultInfo result))

theorem converted_carried (h : f.converted hs (ofType t) result = .ok md) : Carried f result md := by
  obtain ⟨a, ha, hp⟩ := toMetadata_stored rfl rfl h
  obtain ⟨htype, hsize⟩ := toMetadata_fields h
  have hfields : md.requestId = ofBE f.id ∧ md.responseStatus = .ok := by
    simp only [Frame.converted, toMetadata, Frame.resulting, Frame.answered, putResult, ha, bind,
      Except.bind, pure, Except.pure, Except.ok.injEq] at h
    subst h
    refine ⟨?_, rfl⟩
    rw [Metadata.put_requestId, Metadata.putStrings_requestId]
    rfl
  refine ⟨?_, hfields.1, hfields.2, hsize, ?_⟩
  · rw [htype]
    cases hex : result.hasException <;> simp [Frame.resulting, hex, DubboMessageType.toMessageType]
  · rw [getByKey_of_properties hp, Metadata.getByKey_put, if_pos rfl]

theorem converted_back (h : f.converted hs (ofType t) result = .ok md) (hex : result.hasException = false)
    {msg : MessageMetadata} (hmsg : toMsgMetadata md = .ok msg) : msg.messageType = .response ∧
      msg.rpcResultInfo = some result := by
  obtain ⟨a, -, hp⟩ := toMetadata_stored rfl rfl h
  have hw : Written (ofType t) (f.resulting result) _ := putMessage_written rfl
  -- no attachment is named `MessageType`, or the conversion would have thrown
  have hnot : "MessageType" ∉ a.strings.map Prod.fst :=
    (castable_result rfl hp).1 (toMsgMetadata_ok_iff.1 ⟨msg, hmsg⟩) _ (by simp)
  have htype : md.getByKey "MessageType" = some (.other (.messageType .response)) := by
    rw [getByKey_of_properties hp, Metadata.getByKey_put, if_neg (by decide),
      (Metadata.getByKey_putStrings _ _ _).2 hnot, hw.messageType]
    simp [Frame.resulting, hex]
  refine ⟨toMsgMetadata_messageType hmsg htype, ?_⟩
  have hcast := (toMsgMetadata_iff.1 hmsg).rpcResultInfo
  simp only [optional, (converted_carried h).result, Cast.rpcResultInfo, Except.ok.injEq] at hcast
  exact hcast.symm

/-- `encodeResponse` writes the attachment anew, whatever the response type is. -/
theorem encodeResponse_eq (encodeMap : List (Object × Object) → Bytes)
    (h : f.converted hs (ofType t) result = .ok md)
    (hex : result.hasException = false) {a : Attachment} (ha : result.attachment = some a)
    (hcast : ∃ msg, toMsgMetadata md = .ok msg) {m : Mutation} (hm : m ≠ []) (buffer : Bytes) :
    ∃ md', encodeResponse encodeMap md m buffer =
      .ok (md', reserialize encodeMap buffer (mutate m a) messageSize) := by
  obtain ⟨msg, hmsg⟩ := hcast
  obtain ⟨htype, hresult⟩ := converted_back h hex hmsg
  have hne : m.isEmpty = false := by simpa using hm
  simp only [encodeResponse, hmsg, hresult, hne, ha, protocolEncode, htype, rspheaderMutation, contextOf,
    (converted_carried h).headerSize, bind, Except.bind]
  exact ⟨_, rfl⟩

structure AcceptedResponse (hs : Hessian2) (t : MessageType) (f : Frame) (md : Metadata DubboAny)
    (result : RpcResult) (a : Attachment) (type : RpcResponseType) (o o' : Nat) : Prop where
  isResponse : f.isRequest = false
  deserialized : f.Deserialized
  converted : f.converted hs (ofType t) result = .ok md
  attachment : result.attachment = some a
  noException : result.hasException = false
  shape : type.shape.exception = false
  read : ReadResult hs f.body type o o' result.rspBody
  offset : a.attachmentOffset = messageSize + o'

theorem acceptedResponse_of_decode (hl : hs.Local) (hf : hs.Forward)
    (h : DubboCodec.decode hs {} f.bytes (ofType t) = .done c md []) (hresp : md.messageType = .response) :
    ∃ result a type o o', AcceptedResponse hs t f md result a type o o' := by
  obtain ⟨hreq, hdes, result, hresult, hex, hconv⟩ := accepted_response h hresp
  obtain ⟨a, ha, -⟩ := toMetadata_stored rfl rfl hconv
  obtain ⟨type, o, o', s, hread, hex', rfl, hoffset⟩ := deserializeRpcResult_read hl hf rfl hresult ha
  exact ⟨result, a, type, o, o', hreq, hdes, hconv, ha, hex, hex'.symm.trans hex, hread, hoffset⟩

theorem AcceptedResponse.resultOf_eq {a : Attachment} {type : RpcResponseType} {o o' : Nat}
    (hacc : AcceptedResponse hs t f md result a type o o') : resultOf md = some result := by
  rw [resultOf, (converted_carried hacc.converted).result]

end Accepted

/-! ## The new frame -/

def Frame.withBody (f : Frame) (body : Bytes) (h : body.length < 2 ^ 31) : Frame :=
  { f with body := body, body_lt := h }

/-- `md'` is the response `md` with the mutation `m` in its attachment. -/
structure ResponseUpdated (md : Metadata DubboAny) (m : Mutation) (md' : Metadata DubboAny) : Prop where
  messageType : md'.messageType = .response
  requestId : md'.requestId = md.requestId
  responseStatus : md'.responseStatus = md.responseStatus
  result : ∃ r r', resultOf md = some r ∧ resultOf md' = some r' ∧ r'.rspBody = r.rspBody ∧
    r'.hasException = r.hasException ∧
    ∃ a a', r.attachment = some a ∧ r'.attachment = some a' ∧ MapUpdated a.attachment m a'.attachment

/-- What `encodeResponse` makes of `f` is accepted whole, as the same response with the mutation in
its attachment. -/
def ResponseRoundTrips (hs : Hessian2) (encodeMap : List (Object × Object) → Bytes)
    (t : MessageType) (f : Frame) (md : Metadata DubboAny) (m : Mutation) : Prop :=
  ∃ left g c md', encodeResponse encodeMap md m f.bytes = .ok (left, g) ∧
    DubboCodec.decode hs {} g (ofType t) = .done c md' [] ∧ ResponseUpdated md m md'

/-- A response whose attachments keep clear of the codec's names, of a type that may have an
attachment, with a new body that is not too long. -/
structure RewritableResponse (hs : Hessian2) (encodeMap : List (Object × Object) → Bytes)
    (f : Frame) (md : Metadata DubboAny) (m : Mutation) : Prop where
  noClash : NoClash hs f.bytes
  type : responseTypeOf hs f.body ≠ some .responseWithNullValue
  size : ∀ r a, resultOf md = some r → r.attachment = some a →
    a.attachmentOffset - messageSize + (encodeMap (mutate m a).attachment).length ≤ maxBodySize

section Rewritten

variable {hs : Hessian2} {encodeMap : List (Object × Object) → Bytes} {f : Frame} {c : DubboCodec}
    {md : Metadata DubboAny}
  {t : MessageType} {m : Mutation} {result : RpcResult} {a : Attachment} {type : RpcResponseType} {o o' : Nat}

theorem reserialize_withBody (hoffset : a.attachmentOffset = messageSize + o') (hle : o' ≤ f.body.length)
    (hlt : (f.body.take o' ++ encodeMap a.attachment).length < 2 ^ 31) :
    reserialize encodeMap f.bytes a messageSize =
      (f.withBody (f.body.take o' ++ encodeMap a.attachment) hlt).bytes := by
  have hbody := f.body_lt
  have hsub : sub64 (a.attachmentOffset + (encodeMap a.attachment).length) messageSize =
      (f.body.take o' ++ encodeMap a.attachment).length := by
    rw [List.length_append, List.length_take_of_le hle] at hlt ⊢
    rw [hoffset, sub64]
    simp only [messageSize]
    omega
  have hhead : f.bytes.take bodySizeOffset = 0xda :: 0xbb :: f.flag :: f.status :: f.id := by
    simp only [Frame.bytes, Frame.header, bodySizeOffset, List.cons_append, List.take_succ_cons,
      List.append_assoc]
    rw [List.take_left' f.id_length]
  have hdrop : f.bytes.drop messageSize = f.body := f.bytes_drop f.body
  rw [reserialize_eq (by omega) (by simp only [messageSize] at hoffset; omega), hsub, hhead, hdrop, hoffset,
    Nat.add_sub_cancel_left]
  simp [Frame.withBody, Frame.bytes, Frame.header]

def RpcResult.attach (result : RpcResult) (entries : List (Object × Object)) (offset : Nat) : RpcResult :=
  { result with attachment := some { attachment := entries, attachmentOffset := offset } }

/-- The frame `encodeResponse` writes, seen by the next decoder. -/
theorem AcceptedResponse.outcome (hl : hs.Local) (hacc : AcceptedResponse hs t f md result a type o o')
    (hinv : Inverse hs encodeMap (mutate m a).attachment)
    (hsize : o' + (encodeMap (mutate m a).attachment).length ≤ maxBodySize) :
    ∃ (entries : List (Object × Object)) (f' : Frame), entries.Perm (mutate m a).attachment ∧ f'.id = f.id ∧
      Outcome (DubboCodec.decode hs {} (reserialize encodeMap f.bytes (mutate m a) messageSize) (ofType t)) []
        ((if !type.shape.hasValueOrAttachment && o' + (encodeMap (mutate m a).attachment).length != o then
            .error (restOfBody (o' + (encodeMap (mutate m a).attachment).length - o))
          else .ok (result.attach entries (messageSize + o'))) >>= f'.converted hs (ofType t)) := by
  have hlen : (f.body.take o' ++ encodeMap (mutate m a).attachment).length =
      o' + (encodeMap (mutate m a).attachment).length := by
    rw [List.length_append, List.length_take_of_le hacc.read.within]
  have hlt : (f.body.take o' ++ encodeMap (mutate m a).attachment).length < 2 ^ 31 := by
    rw [hlen]
    exact Nat.lt_of_le_of_lt hsize (by decide)
  have hoffset : (mutate m a).attachmentOffset = messageSize + o' :=
    (mutate_attachmentOffset m a).trans hacc.offset
  obtain ⟨entries, hperm, hread⟩ := hinv (f.body.take o')
  rw [List.length_take_of_le hacc.read.within] at hread
  refine ⟨entries, f.withBody _ hlt, hperm, rfl, ?_⟩
  rw [reserialize_withBody hoffset hacc.read.within hlt]
  generalize hf' : f.withBody _ hlt = f'
  have hbody : f'.body = f.body.take o' ++ encodeMap (mutate m a).attachment := by rw [← hf']; rfl
  have hout := @Frame.outcome_deserialized f' hs (ofType t) (by rw [← hf']; exact hacc.isResponse)
    (by rw [← hf']; exact ⟨hacc.deserialized.1, hlen ▸ hsize, hacc.deserialized.2.2⟩) []
  have hctx : f'.headedContext.bodySize = o' + (encodeMap (mutate m a).attachment).length := by
    rw [← hlen, ← hbody]
    rfl
  rw [List.append_nil, List.append_nil, hbody, hacc.read.spliced hl hread hctx, hctx,
    hacc.shape.trans hacc.noException.symm] at hout
  exact hout

/-- `encodeResponse` throws, or leaves the frame with the new attachment. -/
theorem AcceptedResponse.roundTrips_iff (hacc : AcceptedResponse hs t f md result a type o o') (hm : m ≠ []) :
    ResponseRoundTrips hs encodeMap t f md m ↔ Castable md ∧ ∃ c md',
      DubboCodec.decode hs {} (reserialize encodeMap f.bytes (mutate m a) messageSize) (ofType t) =
        .done c md' [] ∧ ResponseUpdated md m md' := by
  constructor
  · rintro ⟨left, g, c, md', henc, hdec, hupd⟩
    have hcast : ∃ msg, toMsgMetadata md = .ok msg := by
      obtain ⟨msg, hmsg, -⟩ := bind_eq_ok.1 henc
      exact ⟨msg, hmsg⟩
    obtain ⟨left', henc'⟩ :=
      encodeResponse_eq encodeMap hacc.converted hacc.noException hacc.attachment hcast hm f.bytes
    rw [henc] at henc'
    cases henc'
    exact ⟨toMsgMetadata_ok_iff.1 hcast, c, md', hdec, hupd⟩
  · rintro ⟨hcast, c, md', hdec, hupd⟩
    obtain ⟨left, henc⟩ := encodeResponse_eq encodeMap hacc.converted hacc.noException hacc.attachment
      (toMsgMetadata_ok_iff.2 hcast) hm f.bytes
    exact ⟨left, _, c, md', henc, hdec, hupd⟩

theorem AcceptedResponse.size_of_decode (hacc : AcceptedResponse hs t f md result a type o o')
    {md' : Metadata DubboAny}
    (h : DubboCodec.decode hs {} (reserialize encodeMap f.bytes (mutate m a) messageSize)
      (ofType t) = .done c md' []) :
    o' + (encodeMap (mutate m a).attachment).length ≤ maxBodySize := by
  have hoffset : (mutate m a).attachmentOffset = messageSize + o' :=
    (mutate_attachmentOffset m a).trans hacc.offset
  have hwithin := hacc.read.within
  have hbody := f.body_lt
  have hlen : f.bytes.length = messageSize + f.body.length := by
    rw [Frame.bytes, List.length_append, f.header_length]
  have hsp : Spliced f.bytes _ (encodeMap (mutate m a).attachment) _ :=
    reserialize_spliced (by omega) (by omega) (by simp only [messageSize] at hoffset; omega)
  obtain ⟨machine, hrun, -⟩ := decode_done h
  obtain ⟨hsize, hmax⟩ := run_length hrun
  have := hsp.size
  omega

/-- A null value has no room for an attachment: the serializer refuses the bytes behind the type. -/
theorem AcceptedResponse.null_refused (hl : hs.Local)
    (hacc : AcceptedResponse hs t f md result a .responseWithNullValue o o')
    (hm : m ≠ []) (hne : encodeMap (mutate m a).attachment ≠ [])
    (hinv : Inverse hs encodeMap (mutate m a).attachment) :
    ¬ ResponseRoundTrips hs encodeMap t f md m := by
  intro h
  obtain ⟨-, c, md', hdec, -⟩ := (hacc.roundTrips_iff hm).1 h
  obtain ⟨entries, f', -, -, hout⟩ := hacc.outcome hl hinv (hacc.size_of_decode hdec)
  have hmore : o' + (encodeMap (mutate m a).attachment).length ≠ o := by
    have := hacc.read.order
    have := List.length_pos_iff.2 hne
    omega
  rw [if_pos (by simpa [RpcResponseType.shape] using hmore)] at hout
  cases hout.unique (.inl ⟨c, md', hdec, rfl⟩)

/-- Any other type has: the next decoder reads the same response with the new attachment. -/
theorem AcceptedResponse.rewritten (hl : hs.Local) (hacc : AcceptedResponse hs t f md result a type o o')
    (htype : type ≠ .responseWithNullValue) (hm : (m.map Prod.fst).Nodup)
    (hinv : Inverse hs encodeMap (mutate m a).attachment)
    (hsize : o' + (encodeMap (mutate m a).attachment).length ≤ maxBodySize) :
    ∃ c md', DubboCodec.decode hs {} (reserialize encodeMap f.bytes (mutate m a) messageSize) (ofType t) =
      .done c md' [] ∧ ResponseUpdated md m md' := by
  have hkept : type.shape.hasValueOrAttachment = true := by
    have hshape := hacc.shape
    cases type <;> simp [RpcResponseType.shape] at hshape htype ⊢
  obtain ⟨entries, f', hperm, hid, hout⟩ := hacc.outcome hl hinv hsize
  rw [if_neg (by simp [hkept])] at hout
  obtain ⟨md', hconv⟩ : ∃ md', f'.converted hs (ofType t) (result.attach entries (messageSize + o')) =
      .ok md' := by
    rcases Frame.converted_cases (result.attach entries (messageSize + o')) with ⟨-, hnone⟩ | ⟨hmd', -⟩
    · cases hnone
    · exact hmd'
  rcases hout with ⟨c, md'', hdec, hr⟩ | ⟨c, unread, e, -, hr⟩
  · cases hconv.symm.trans hr
    have hold := converted_carried hacc.converted
    have hnew := converted_carried hconv
    refine ⟨c, md', hdec, ?_, ?_, hnew.responseStatus.trans hold.responseStatus.symm, result,
      result.attach _ _,
      hacc.resultOf_eq, by
        rw [resultOf, hnew.result], rfl, rfl, a, _, hacc.attachment, rfl, mapUpdated_mutate hm hperm⟩
    · rw [hnew.messageType, if_neg (by simp [RpcResult.attach, hacc.noException])]
    · rw [hnew.requestId, hid, hold.requestId]
  · cases hconv.symm.trans hr

/-- **The new frame is accepted as the same response** exactly if no attachment clashes, the type is
not that of a null value, and the new body is not too long. -/
theorem response_mutation_iff (hl : hs.Local) (hf : hs.Forward) (hne : ∀ entries, encodeMap entries ≠ [])
    (h : DubboCodec.decode hs {} f.bytes (ofType t) = .done c md [])
    (hresp : md.messageType = .response) (hm : m ≠ []) (hkeys : (m.map Prod.fst).Nodup)
    (hinv : ∀ r a, resultOf md = some r → r.attachment = some a →
      Inverse hs encodeMap (mutate m a).attachment) :
    ResponseRoundTrips hs encodeMap t f md m ↔ RewritableResponse hs encodeMap f md m := by
  obtain ⟨result, a, type, o, o', hacc⟩ := acceptedResponse_of_decode hl hf h hresp
  have hinv' := hinv result a hacc.resultOf_eq hacc.attachment
  constructor
  · intro hround
    obtain ⟨hcast, c', md', hdec, -⟩ := (hacc.roundTrips_iff hm).1 hround
    refine ⟨(castable_iff_noClash h).1 hcast, ?_, fun r b hr hb => ?_⟩
    · rw [hacc.read.responseTypeOf_eq]
      rintro ⟨⟩
      exact hacc.null_refused hl hm (hne _) hinv' hround
    · cases hacc.resultOf_eq.symm.trans hr
      cases hacc.attachment.symm.trans hb
      rw [hacc.offset, Nat.add_sub_cancel_left]
      exact hacc.size_of_decode hdec
  · intro hrw
    refine (hacc.roundTrips_iff hm).2 ⟨(castable_iff_noClash h).2 hrw.noClash, ?_⟩
    have htype : type ≠ .responseWithNullValue := by
      rintro rfl
      exact hrw.type hacc.read.responseTypeOf_eq
    have hsize := hrw.size result a hacc.resultOf_eq hacc.attachment
    rw [hacc.offset, Nat.add_sub_cancel_left] at hsize
    exact hacc.rewritten hl htype hkeys hinv' hsize

end Rewritten

/-! ## Sample responses -/

theorem decode_response {hs : Hessian2} {f : Frame} {result : RpcResult}
    (hresp : f.isRequest = false) (hdes : f.Deserialized)
    (h : deserializeRpcResult hs f.body f.headedContext = .ok result)
    (ha : result.attachment ≠ none) (t : MessageType) :
    ∃ c md, DubboCodec.decode hs {} f.bytes (ofType t) = .done c md [] ∧
      f.converted hs (ofType t) result = .ok md := by
  obtain ⟨md, hmd⟩ : ∃ md, f.converted hs (ofType t) result = .ok md := by
    rcases Frame.converted_cases result with ⟨-, hnone⟩ | ⟨hmd, -⟩
    · exact absurd hnone ha
    · exact hmd
  have hout := @Frame.outcome_deserialized f hs (ofType t) hresp hdes []
  rw [List.append_nil, List.append_nil, h] at hout
  rcases hout with ⟨c, md', hdec, hr⟩ | ⟨c, unread, e, -, hr⟩
  · cases hmd.symm.trans hr
    exact ⟨c, md, hdec, hmd⟩
  · cases hmd.symm.trans hr

theorem encodeShortMap_ne_nil (entries : List (Object × Object)) : encodeShortMap entries ≠ [] := by
  simp [encodeShortMap]

theorem shortEntry_inverse : Inverse fragment encodeShortMap [(.string "k", .string "v")] :=
  inverse_of_fragmentValue rfl

/-- The empty attachment of a sample response, at offset `o` of the message. -/
def emptyResult (o : Nat) : RpcResult := { attachment := some { attachmentOffset := o } }

theorem attached_response_mutated :
    ∃ c md, DubboCodec.decode fragment {} attachedResponse.bytes (ofType .response) = .done c md [] ∧
      md.messageType = .response ∧
        ResponseRoundTrips fragment encodeShortMap .response attachedResponse md [("k", "v")] := by
  have hresult :
    deserializeRpcResult fragment attachedResponse.body attachedResponse.headedContext =
      .ok (emptyResult 17) := rfl
  obtain ⟨c, md, hdec, hconv⟩ := decode_response rfl ⟨rfl, by decide, rfl⟩ hresult nofun .response
  have hcarried := converted_carried hconv
  have hof : resultOf md = some (emptyResult 17) := by rw [resultOf, hcarried.result]
  obtain ⟨a, ha, hp⟩ := toMetadata_stored rfl rfl hconv
  cases ha
  have hclash : NoClash fragment attachedResponse.bytes :=
    (castable_iff_noClash hdec).1 ((castable_result rfl hp).2 fun key _ => by simp [Attachment.strings])
  refine ⟨c, md, hdec, hcarried.messageType,
    (response_mutation_iff fragment_local fragment_forward encodeShortMap_ne_nil hdec
    hcarried.messageType (by simp) (by simp) fun r a hr ha => ?_).2 ⟨hclash, by decide, fun r a hr ha => ?_⟩⟩
  · cases hof.symm.trans hr
    cases ha
    exact shortEntry_inverse
  · cases hof.symm.trans hr
    cases ha
    decide

/-- A null value is accepted with an empty attachment; with the entry `k` in it, it is refused. -/
theorem null_response_not_mutated :
    Inverse fragment encodeShortMap [(.string "k", .string "v")] ∧
      ∃ c md, DubboCodec.decode fragment {} nullResponse.bytes (ofType .response) = .done c md [] ∧
        md.messageType = .response ∧
          ¬ ResponseRoundTrips fragment encodeShortMap .response nullResponse md [("k", "v")] := by
  have hresult : deserializeRpcResult fragment nullResponse.body nullResponse.headedContext =
    .ok (emptyResult 17) := rfl
  obtain ⟨c, md, hdec, hconv⟩ := decode_response rfl ⟨rfl, by decide, rfl⟩ hresult nofun .response
  have hresp : md.messageType = .response := (converted_carried hconv).messageType
  obtain ⟨result, a, type, o, o', hacc⟩ :=
    acceptedResponse_of_decode fragment_local fragment_forward hdec hresp
  refine ⟨shortEntry_inverse, c, md, hdec, hresp, ?_⟩
  have hof : resultOf md = some (emptyResult 17) := by rw [resultOf, (converted_carried hconv).result]
  cases hof.symm.trans hacc.resultOf_eq
  cases hacc.attachment
  cases hacc.read.responseTypeOf_eq
  exact hacc.null_refused fragment_local (by simp) (encodeShortMap_ne_nil _) shortEntry_inverse

end MetaProtocolProxy.Dubbo
