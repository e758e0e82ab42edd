import MetaProtocolProxy.Dubbo.Frame
import MetaProtocolProxy.Dubbo.Locality
/-
# Which Dubbo responses can be decoded

`ResponseFrame` is a well-formed response of status `Ok`: a header, the response type and
what a response of that type carries. `deserializeRpcResult` reads less than that of some
types and more of others, and `toMetadata` wants an attachment of every result:

| type | value read | attachment read | then |
| --- | --- | --- | --- |
| exception, with or without attachments | no | | the unread exception is an error |
| value | a string, or null is dereferenced | no | `attachment_` is null and dereferenced |
| null value | | from what follows the frame | decoded |
| value with attachments | a string, or null is dereferenced | yes | decoded |
| null value with attachments | | yes | decoded |

So of the six types one is always decoded with its attachments, one without having any,
one when its value is a string, and three never.
-/
namespace MetaProtocolProxy.Dubbo

open Bytes

namespace RpcResponseType

def toInt : RpcResponseType → Int
  | responseWithException => 0
  | responseWithValue => 1
  | responseWithNullValue => 2
  | responseWithExceptionWithAttachments => 3
  | responseValueWithAttachments => 4
  | responseNullValueWithAttachments => 5

@[simp] theorem ofInt_toInt (t : RpcResponseType) : ofInt t.toInt = some t := by cases t <;> rfl

def isException : RpcResponseType → Bool
  | responseWithException | responseWithExceptionWithAttachments => true
  | _ => false

def carriesValue : RpcResponseType → Bool
  | responseWithNullValue | responseNullValueWithAttachments => false
  | _ => true

def carriesAttachments : RpcResponseType → Bool
  | responseWithExceptionWithAttachments | responseValueWithAttachments
  | responseNullValueWithAttachments => true
  | _ => false

end RpcResponseType

/-- A response of status `Ok` with the bytes of its parts. -/
structure Response where
  flag : UInt8
  id : Bytes
  type : RpcResponseType
  typeBytes : Bytes
  value : Object
  valueBytes : Bytes
  attachments : List (Object × Object)
  attachmentBytes : Bytes

namespace Response

variable (r : Response)

def valuePart : Bytes := if r.type.carriesValue then r.valueBytes else []

def attachmentPart : Bytes := if r.type.carriesAttachments then r.attachmentBytes else []

def body : Bytes := r.typeBytes ++ (r.valuePart ++ r.attachmentPart)

def header : Bytes := 0xda :: 0xbb :: r.flag :: 20 :: (r.id ++ writeBE 4 r.body.length)

def bytes : Bytes := r.header ++ r.body

end Response

/-- A response whose parts are what they should be; its body size is an `int32_t`. -/
structure ResponseFrame (Encodes : Bytes → Object → Bytes → Prop) extends Response where
  isResponse : hasMask flag messageTypeMask = false
  notEvent : hasMask flag eventMask = false
  id_length : id.length = 8
  encodes_type : Encodes [] (.integer type.toInt) typeBytes
  encodes_value : type.carriesValue = true → Encodes typeBytes value valueBytes
  encodes_attachments : type.carriesAttachments = true →
    Encodes (typeBytes ++ toResponse.valuePart) (.untypedMap attachments) attachmentBytes
  body_lt : toResponse.body.length < 2 ^ 31

namespace ResponseFrame

variable {Encodes : Bytes → Object → Bytes → Prop} (r : ResponseFrame Encodes)

def toFrame : Frame := ⟨r.flag, 20, r.id, r.body, r.id_length, r.body_lt⟩

theorem toFrame_bytes (rest : Bytes) : r.bytes ++ rest = r.toFrame.header ++ (r.body ++ rest) :=
  List.append_assoc r.header r.body rest

/-- The metadata a header leaves. -/
def headed (md : MessageMetadata) : MessageMetadata :=
  { md with requestId := ofBE r.id, messageType := .response, responseStatus := some .ok }

theorem toFrame_parsed (md : MessageMetadata) : r.toFrame.parsed md = (r.headed md, .ok ()) := by
  simp only [Frame.parsed, Frame.isRequest, Frame.isEvent, toFrame, r.isResponse, r.notEvent,
    Bool.false_eq_true, if_false]
  rfl

/-! ## The body -/

section Body

variable {hs : Hessian2} (h : hs.ReadsBack Encodes) (rest : Bytes) (context : Context)

def afterType : Decoder := ⟨r.body ++ rest, r.typeBytes.length⟩

def afterValue : Decoder := ⟨r.body ++ rest, (r.typeBytes ++ r.valuePart).length⟩

include h

theorem deserializeRpcResult_eq :
    deserializeRpcResult hs (r.body ++ rest) context =
      decodeResult hs r.type.shape (r.afterType rest) context := by
  have hint := h.int (r.valuePart ++ r.attachmentPart ++ rest) r.encodes_type
  have hbody : r.body ++ rest = [] ++ r.typeBytes ++ (r.valuePart ++ r.attachmentPart ++ rest) := by
    simp [Response.body]
  have htype : hs.decodeInt ⟨r.body ++ rest, 0⟩ = (some r.type.toInt, r.afterType rest) := by
    rw [hbody, afterType, hbody]
    simpa [Decoder.skip] using hint
  rw [deserializeRpcResult, htype]
  simp only [RpcResponseType.ofInt_toInt]

theorem decodeString_value (hv : r.type.carriesValue = true) {s : String} (hs' : r.value = .string s) :
    hs.decodeString (r.afterType rest) = (some s, r.afterValue rest) := by
  have henc := r.encodes_value hv
  rw [hs'] at henc
  have hstr := h.string (r.attachmentPart ++ rest) henc
  simpa [afterType, afterValue, Response.body, Response.valuePart, hv, Decoder.skip] using hstr

theorem decodeString_mismatch (hv : r.type.carriesValue = true) (hs' : r.value.toString = none) :
    (hs.decodeString (r.afterType rest)).1 = none := by
  have hstr := h.mismatch (r.attachmentPart ++ rest) (r.encodes_value hv) hs'
  simpa [afterType, Response.body, Response.valuePart, hv] using hstr

theorem decodeAttachment_eq (ha : r.type.carriesAttachments = true) (offset : Nat) :
    (decodeAttachment hs (r.afterValue rest) offset).1 =
      { attachment := r.attachments, attachmentOffset := offset } := by
  have hobj := h.object rest (r.encodes_attachments ha)
  have hdec : hs.decodeObject (r.afterValue rest) =
      (some (.untypedMap r.attachments), (r.afterValue rest).skip r.attachmentBytes.length) := by
    simpa [afterValue, Response.body, Response.attachmentPart, ha] using hobj
  rw [decodeAttachment, hdec]

theorem decodeResult_exception (hx : r.type.isException = true) (hc : context.bodySize = r.body.length) :
    decodeResult hs r.type.shape (r.afterType rest) context = .error (.envoyException
      s!"RpcResult is no value, but the rest of the body size({r.body.length - r.typeBytes.length}) not equal 0") := by
  have hv : r.type.carriesValue = true := by
    revert hx
    cases r.type <;> simp [RpcResponseType.isException, RpcResponseType.carriesValue]
  have hpos : 0 < r.valueBytes.length := List.length_pos_iff.2 (h.ne_nil (r.encodes_value hv))
  have hlen : r.typeBytes.length < r.body.length := by
    simp only [Response.body, Response.valuePart, hv, if_true, List.length_append]
    omega
  have hlt : ¬ r.body.length < r.typeBytes.length := by omega
  have hne : (r.body.length != r.typeBytes.length) = true := by
    simp only [bne_iff_ne]
    omega
  cases ht : r.type with
  | responseWithException =>
    simp only [decodeResult, RpcResponseType.shape, decodeRspBody, afterType, hc, hlt, hne, if_false,
      Bool.not_false, Bool.true_and, Bool.false_eq_true, if_true]
  | responseWithExceptionWithAttachments =>
    simp only [decodeResult, RpcResponseType.shape, decodeRspBody, afterType, hc, hlt, hne, if_false,
      Bool.not_false, Bool.true_and, Bool.false_eq_true, if_true]
  | _ => simp [ht, RpcResponseType.isException] at hx

theorem decodeResult_mismatch (ht : r.type.shape.hasValue = true) (hs' : r.value.toString = none) :
    decodeResult hs r.type.shape (r.afterType rest) context = .error (.nullDereference "responesebody") := by
  have hv : r.type.carriesValue = true := by
    revert ht
    cases r.type <;> simp [RpcResponseType.shape, RpcResponseType.carriesValue]
  have hnone := r.decodeString_mismatch h rest hv hs'
  have hbody : decodeRspBody hs r.type.shape (r.afterType rest) =
      .error (.nullDereference "responesebody") := by
    rw [decodeRspBody, if_pos ht]
    generalize hs.decodeString (r.afterType rest) = res at hnone ⊢
    rcases res with ⟨_ | body, d⟩
    · rfl
    · cases hnone
  rw [decodeResult, hbody]

theorem decodeResult_string (ht : r.type.shape.hasValue = true) {s : String} (hs' : r.value = .string s)
    (hc : context.bodySize = r.body.length) :
    decodeResult hs r.type.shape (r.afterType rest) context = .ok
      { rspBody := s
        attachment := if r.type.carriesAttachments then
            some { attachment := r.attachments
                   attachmentOffset := context.headerSize + (r.typeBytes ++ r.valuePart).length }
          else none } := by
  have hlt : ¬ r.body.length < r.typeBytes.length := by
    simp [Response.body]
  have hshape : r.type = .responseWithValue ∨ r.type = .responseValueWithAttachments := by
    revert ht
    cases r.type <;> simp [RpcResponseType.shape]
  have hbody : decodeRspBody hs r.type.shape (r.afterType rest) = .ok (s, r.afterValue rest) := by
    have hv : r.type.carriesValue = true := by
      rcases hshape with hr | hr <;> rw [hr] <;> rfl
    rw [decodeRspBody, if_pos ht, r.decodeString_value h rest hv hs']
  rw [decodeResult, hbody]
  simp only [hc, afterType, hlt, if_false]
  rcases hshape with hr | hr
  · simp [hr, RpcResponseType.shape, RpcResponseType.carriesAttachments]
  · have ha : r.type.carriesAttachments = true := by rw [hr]; rfl
    have hatt := r.decodeAttachment_eq h rest ha (context.headerSize + (r.afterValue rest).offset)
    rw [hatt]
    simp [hr, RpcResponseType.shape, RpcResponseType.carriesAttachments, afterValue]

omit h in
/-- The fall-through makes a null value ask for an attachment it does not have: whatever
follows the frame is looked at, and counts as an empty attachment unless it is a map. -/
theorem decodeResult_null (ht : r.type = .responseWithNullValue) (hc : context.bodySize = r.body.length) :
    decodeResult hs r.type.shape (r.afterType rest) context = .ok
      { attachment := some (decodeAttachment hs (r.afterType rest)
          (context.headerSize + r.typeBytes.length)).1 } := by
  have hbody : r.body = r.typeBytes := by
    simp [Response.body, Response.valuePart, Response.attachmentPart, ht, RpcResponseType.carriesValue,
      RpcResponseType.carriesAttachments]
  simp [decodeResult, decodeRspBody, ht, RpcResponseType.shape, hc, hbody, afterType]

theorem decodeResult_attachments (ht : r.type = .responseNullValueWithAttachments)
    (hc : context.bodySize = r.body.length) :
    decodeResult hs r.type.shape (r.afterType rest) context = .ok
      { attachment := some
          { attachment := r.attachments
            attachmentOffset := context.headerSize + r.typeBytes.length } } := by
  have hlt : ¬ r.body.length < r.typeBytes.length := by
    simp [Response.body]
  have hval : r.afterValue rest = r.afterType rest := by
    simp [afterValue, afterType, Response.valuePart, ht, RpcResponseType.carriesValue]
  have ha : r.type.carriesAttachments = true := by rw [ht]; rfl
  have hatt := r.decodeAttachment_eq h rest ha (context.headerSize + r.typeBytes.length)
  rw [hval] at hatt
  simp only [decodeResult, decodeRspBody, ht, RpcResponseType.shape, Bool.false_eq_true, if_false, if_true]
  rw [show (r.afterType rest).offset = r.typeBytes.length from rfl, hatt]
  simp [hc, hlt]

end Body

/-! ## The machine and the codec -/

def headedContext : Context := r.toFrame.headedContext

/-- What `decodeData` makes of a response. -/
theorem decodeData_eq (hs : Hessian2) (rest : Bytes) :
    decodeData hs (r.body ++ rest) r.headedContext (r.headed {}) =
      (deserializeRpcResult hs (r.body ++ rest) r.headedContext).map fun res =>
        let md : MessageMetadata := { r.headed {} with rpcResultInfo := some res }
        some (if res.hasException then { md with messageType := .exception } else md) := by
  have hshort : ¬ (r.body ++ rest).length < r.headedContext.bodySize := r.toFrame.not_short rest
  simp only [decodeData, headed, hshort, if_false, ne_eq, not_true_eq_false]
  cases deserializeRpcResult hs (r.body ++ rest) r.headedContext <;> rfl

theorem run_eq (hs : Hessian2) (rest : Bytes) (hsize : r.body.length ≤ maxBodySize) :
    DecoderStateMachine.run hs {} (r.bytes ++ rest) =
      match deserializeRpcResult hs (r.body ++ rest) r.headedContext with
      | .error e => .fail ⟨.onDecodeStreamData, r.headed {}, r.headedContext⟩ (r.body ++ rest) e
      | .ok res =>
        let md : MessageMetadata := { r.headed {} with rpcResultInfo := some res }
        .done ⟨.done, if res.hasException then { md with messageType := .exception } else md,
          { r.toFrame.context with originMessage := r.bytes }⟩ () rest := by
  have hdec : decodeHeader r.toFrame.header ({} : DecoderStateMachine).metadata =
      (r.headed {}, .ok (some r.toFrame.context)) := r.toFrame.decodeHeader_sized hsize (r.toFrame_parsed {})
  have hbeat : ¬ ((r.headed {}).messageType = .heartbeatRequest ∨
      (r.headed {}).messageType = .heartbeatResponse) := by simp [headed]
  have hdata := r.decodeData_eq hs rest
  rw [toFrame_bytes, Frame.run_header rfl hdec hbeat]
  cases hd : deserializeRpcResult hs (r.body ++ rest) r.headedContext with
  | error e =>
    rw [hd] at hdata
    exact Frame.runLoop_body_error 0 hdata
  | ok res =>
    rw [hd] at hdata
    exact Frame.runLoop_body_done 0 hdata

/-- `decode` of a codec between two frames. -/
theorem decode_oversized (hs : Hessian2) (rest : Bytes) (md : Metadata DubboAny)
    (hsize : ¬ r.body.length ≤ maxBodySize) :
    ∃ c, DubboCodec.decode hs {} (r.bytes ++ rest) md =
      .fail c (r.bytes ++ rest) (.envoyException s!"invalid dubbo message size {(r.body.length : Int)}") := by
  have hdec : decodeHeader r.toFrame.header ({} : DecoderStateMachine).metadata = ({}, .error (.envoyException
      s!"invalid dubbo message size {(r.body.length : Int)}")) := r.toFrame.decodeHeader_oversized hsize {}
  have hrun := @Frame.run_refused r.toFrame hs {} {} _ rfl hdec (r.body ++ rest)
  rw [toFrame_bytes, DubboCodec.decode, Option.getD_none, hrun]
  exact ⟨_, rfl⟩

theorem decode_error {hs : Hessian2} {rest : Bytes} {e : Failure} (md : Metadata DubboAny)
    (hsize : r.body.length ≤ maxBodySize)
    (hd : deserializeRpcResult hs (r.body ++ rest) r.headedContext = .error e) :
    ∃ c, DubboCodec.decode hs {} (r.bytes ++ rest) md = .fail c (r.body ++ rest) e := by
  rw [DubboCodec.decode, Option.getD_none, r.run_eq hs rest hsize, hd]
  exact ⟨_, rfl⟩

theorem decode_no_attachment {hs : Hessian2} {rest : Bytes} {res : RpcResult} (md : Metadata DubboAny)
    (hsize : r.body.length ≤ maxBodySize)
    (hd : deserializeRpcResult hs (r.body ++ rest) r.headedContext = .ok res) (ha : res.attachment = none) :
    ∃ c, DubboCodec.decode hs {} (r.bytes ++ rest) md = .fail c rest (.nullDereference "attachment_") := by
  rw [DubboCodec.decode, Option.getD_none, r.run_eq hs rest hsize, hd]
  dsimp only
  rw [(toMetadata_result hs _ md (by split <;> rfl) (by split <;> rfl)).1 ha]
  exact ⟨_, rfl⟩

theorem decode_attachment {hs : Hessian2} {rest : Bytes} {res : RpcResult} {a : Attachment}
    (md : Metadata DubboAny) (hsize : r.body.length ≤ maxBodySize)
    (hd : deserializeRpcResult hs (r.body ++ rest) r.headedContext = .ok res) (ha : res.attachment = some a) :
    ∃ md', DubboCodec.decode hs {} (r.bytes ++ rest) md = .done {} md' rest ∧
      md'.originMessage = md.originMessage ++ r.bytes ∧
      md'.messageType = if res.hasException then .error else .response := by
  have hrun := r.run_eq hs rest hsize
  rw [hd] at hrun
  dsimp only at hrun
  generalize hm : (if res.hasException = true then _ else _ : MessageMetadata) = msg at hrun
  have hi : msg.invocationInfo = none := by rw [← hm]; split <;> rfl
  have hr : msg.rpcResultInfo = some res := by rw [← hm]; split <;> rfl
  have ht : msg.messageType.toMessageType = if res.hasException then .error else .response := by
    rw [← hm]
    cases res.hasException <;> rfl
  obtain ⟨md', hmd, horigin, htype⟩ :=
    (toMetadata_result hs { r.toFrame.context with originMessage := r.bytes } md hi hr).2 a ha
  refine ⟨md', ?_, horigin, htype.trans ht⟩
  rw [DubboCodec.decode, Option.getD_none, hrun]
  dsimp only
  rw [hmd]

/-- What the wire format promises of a response: it is decoded, its message is the frame,
and it is an error exactly when it carries an exception. -/
def Decoded (hs : Hessian2) (rest : Bytes) (t : MessageType) : Prop :=
  ∃ c md, DubboCodec.decode hs {} (r.bytes ++ rest) (Metadata.ofType t) = .done c md rest ∧
    md.originMessage = r.bytes ∧ md.messageType = if r.type.isException then .error else .response

/-- What the decoder can take: a body within the limit, of one of the null types or of a
string with attachments. -/
def Supported : Prop :=
  r.body.length ≤ maxBodySize ∧
    (r.type = .responseWithNullValue ∨ r.type = .responseNullValueWithAttachments ∨
      (r.type = .responseValueWithAttachments ∧ ∃ s, r.value = .string s))

theorem string_of_toString {v : Object} {s : String} (hv : v.toString = some s) : v = .string s := by
  cases v <;> simp_all [Object.toString]

theorem deserialize_supported {hs : Hessian2} (h : hs.ReadsBack Encodes) (rest : Bytes)
    (hsup : r.Supported) :
    ∃ res a, deserializeRpcResult hs (r.body ++ rest) r.headedContext = .ok res ∧ res.attachment = some a ∧
      res.hasException = r.type.isException := by
  rw [r.deserializeRpcResult_eq h]
  rcases hsup.2 with ht | ht | ⟨ht, s, hv⟩
  · rw [r.decodeResult_null rest _ ht rfl, ht]
    exact ⟨_, _, rfl, rfl, rfl⟩
  · rw [r.decodeResult_attachments h rest _ ht rfl, ht]
    exact ⟨_, _, rfl, rfl, rfl⟩
  · have hval : r.type.shape.hasValue = true := by rw [ht]; rfl
    rw [r.decodeResult_string h rest _ hval hv rfl, ht]
    exact ⟨_, _, rfl, rfl, rfl⟩

/-- Any other response within the size limit has no result, or one without attachment. -/
theorem deserialize_unsupported {hs : Hessian2} (h : hs.ReadsBack Encodes) (rest : Bytes)
    (hsize : r.body.length ≤ maxBodySize) (hsup : ¬ r.Supported) :
    (∃ e, deserializeRpcResult hs (r.body ++ rest) r.headedContext = .error e) ∨
    (∃ res, deserializeRpcResult hs (r.body ++ rest) r.headedContext = .ok res ∧ res.attachment = none) := by
  rw [r.deserializeRpcResult_eq h]
  by_cases hx : r.type.isException = true
  · exact .inl ⟨_, r.decodeResult_exception h rest _ hx rfl⟩
  by_cases hval : r.type.shape.hasValue = true
  · cases hv : r.value.toString with
    | none => exact .inl ⟨_, r.decodeResult_mismatch h rest _ hval hv⟩
    | some s =>
      have hs' := string_of_toString hv
      have ha : r.type.carriesAttachments = false := by
        cases ht : r.type with
        | responseValueWithAttachments => exact absurd ⟨hsize, .inr (.inr ⟨ht, s, hs'⟩)⟩ hsup
        | responseWithValue => rfl
        | _ => simp [ht, RpcResponseType.shape] at hval
      refine .inr ⟨_, r.decodeResult_string h rest _ hval hs' rfl, ?_⟩
      simp [ha]
  · -- neither an exception nor a value: one of the two null types
    exfalso
    cases ht : r.type with
    | responseWithNullValue => exact hsup ⟨hsize, .inl ht⟩
    | responseNullValueWithAttachments => exact hsup ⟨hsize, .inr (.inl ht)⟩
    | responseWithException => exact hx (by rw [ht]; rfl)
    | responseWithExceptionWithAttachments => exact hx (by rw [ht]; rfl)
    | responseWithValue => exact hval (by rw [ht]; rfl)
    | responseValueWithAttachments => exact hval (by rw [ht]; rfl)

/-- A response is decoded exactly when it is supported. -/
theorem decoded_iff {hs : Hessian2} (h : hs.ReadsBack Encodes) (rest : Bytes) (t : MessageType) :
    r.Decoded hs rest t ↔ r.Supported := by
  constructor
  · rintro ⟨c, md, hd, _, _⟩
    by_contra hsup
    by_cases hsize : r.body.length ≤ maxBodySize
    · rcases r.deserialize_unsupported h rest hsize hsup with ⟨e, he⟩ | ⟨res, hr, ha⟩
      · obtain ⟨c', hc⟩ := r.decode_error (Metadata.ofType t) hsize he
        rw [hc] at hd
        cases hd
      · obtain ⟨c', hc⟩ := r.decode_no_attachment (Metadata.ofType t) hsize hr ha
        rw [hc] at hd
        cases hd
    · obtain ⟨c', hc⟩ := r.decode_oversized hs rest (Metadata.ofType t) hsize
      rw [hc] at hd
      cases hd
  · intro hsup
    obtain ⟨res, a, hr, ha, hx⟩ := r.deserialize_supported h rest hsup
    obtain ⟨md, hd, horigin, htype⟩ := r.decode_attachment (Metadata.ofType t) hsup.1 hr ha
    refine ⟨_, md, hd, ?_, ?_⟩
    · rw [horigin]
      rfl
    · rw [htype, hx]

end ResponseFrame

/-! ## Responses of the reference decoder -/

def FragmentEncodes (_ : Bytes) (v : Object) (bs : Bytes) : Prop := fragmentValue bs = some (v, bs.length)

theorem fragment_readsBack : fragment.ReadsBack FragmentEncodes := by
  have hdec : ∀ {τ : Type} (cast : Object → Option τ) {before v bs} (rest : Bytes),
      FragmentEncodes before v bs → readAt cast ⟨before ++ bs ++ rest, before.length⟩ =
        (cast v, Decoder.skip ⟨before ++ bs ++ rest, before.length⟩ bs.length) := by
    intro τ cast before v bs rest henc
    rw [readAt, List.append_assoc, List.drop_left, ((local_fragmentValue bs rest v bs.length).1 henc).1]
  constructor
  · rintro before v bs henc rfl
    cases henc
  · intro before n bs rest henc
    exact hdec _ rest henc
  · intro before s bs rest henc
    exact hdec _ rest henc
  · intro before v bs rest henc hv
    rw [show fragment.decodeString = readAt Object.toString from rfl, hdec _ rest henc, hv]
  · intro before v bs rest henc
    exact hdec _ rest henc

/-- The string `a` in a response of type `t`, with an empty map where attachments belong. -/
def stringResponse (t : RpcResponseType) (typeByte : UInt8) : Response :=
  { flag := 0x02, id := [0, 0, 0, 0, 0, 0, 0, 7], type := t, typeBytes := [typeByte],
    value := .string (String.singleton 'a'), valueBytes := [0x01, 0x61],
    attachments := [], attachmentBytes := [0x48, 0x5a] }

def valueWithAttachments : ResponseFrame FragmentEncodes where
  toResponse := stringResponse .responseValueWithAttachments 0x94
  isResponse := by decide
  notEvent := by decide
  id_length := rfl
  encodes_type := rfl
  encodes_value := fun _ => rfl
  encodes_attachments := fun _ => rfl
  body_lt := by decide

def valueAlone : ResponseFrame FragmentEncodes where
  toResponse := stringResponse .responseWithValue 0x91
  isResponse := by decide
  notEvent := by decide
  id_length := rfl
  encodes_type := rfl
  encodes_value := fun _ => rfl
  encodes_attachments := fun _ => rfl
  body_lt := by decide

theorem string_with_attachments_decoded : valueWithAttachments.Decoded fragment [] .response :=
  (ResponseFrame.decoded_iff valueWithAttachments fragment_readsBack [] .response).2
    ⟨by decide, .inr (.inr ⟨rfl, _, rfl⟩)⟩

/-- A plain string reply: the result has no attachment, and `toMetadata` walks it. -/
theorem string_reply_dereferences_null :
    (∃ c, DubboCodec.decode fragment {} valueAlone.bytes (Metadata.ofType .response) =
      .fail c [] (.nullDereference "attachment_")) ∧
    ¬ valueAlone.Decoded fragment [] .response := by
  have hfail : ∃ c, DubboCodec.decode fragment {} valueAlone.bytes (Metadata.ofType .response) =
      .fail c [] (.nullDereference "attachment_") := ⟨_, rfl⟩
  refine ⟨hfail, ?_⟩
  rintro ⟨c', md, hd, _, _⟩
  obtain ⟨c, hc⟩ := hfail
  rw [List.append_nil, hc] at hd
  cases hd

end MetaProtocolProxy.Dubbo
