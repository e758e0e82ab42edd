import MetaProtocolProxy.Dubbo.Overread
import MetaProtocolProxy.Lib.Polling
/-
# Error responses and heartbeats (dubbo_protocol_impl.cc:38-177, 216-238; dubbo_codec.cc:291-301)

The body of a response with another status than `Ok` is not read, and neither is that of a
heartbeat: such a frame says what its header says, whatever the Hessian2 reader does.

A status passes three tables: the enumerators, the decoder's `isValidResponseStatus`, and the
mapping to the proxy's two values. The second one lacks `ServerError`.

* `error_response_iff` — an error response comes through, however it is cut, exactly if its status
  is not `ServerError`.
* `heartbeat_answered` — the reply to a heartbeat is one frame that the codec reads as a heartbeat
  response with the same id.
-/
namespace MetaProtocolProxy.Dubbo

open Bytes
open Framing (IsFrame)

/-! ## Frames whose body is not read -/

/-- What is known of the metadata after `p`: nothing was set, or `p` begins with the header that set
it. -/
def Reread (p : Bytes) (md : MessageMetadata) : Prop :=
  md = {} ∨ ∃ ctx, decodeHeader p {} = (md, .ok (some ctx))

section Readable

variable {hs : Hessian2} {f : Frame} {headed read md : MessageMetadata} {p x q : Bytes}

theorem Reread.fresh_or_headed (hK : Reread p md) (hpx : p ++ x = f.header ++ q)
    (hfresh : decodeHeader f.header {} = (headed, .ok (some f.context))) : md = {} ∨ md = headed := by
  refine hK.imp_right ?_
  rintro ⟨ctx, hdec⟩
  by_cases hshort : p.length < messageSize
  · rw [decodeHeader_short hshort] at hdec
    cases hdec
  · obtain ⟨r, rfl⟩ : f.header <+: p :=
      List.prefix_of_prefix_length_le (hpx ▸ List.prefix_append _ _) (List.prefix_append p x)
        (by rw [f.header_length]; omega)
    rw [decodeHeader_append (le_of_eq f.header_length.symm), hfresh] at hdec
    cases hdec
    rfl

theorem readable_of_again (hfresh : decodeHeader f.header {} = (headed, .ok (some f.context)))
    (hagain : decodeHeader f.header headed = (headed, .ok (some f.context)))
    (hbeat : (headed.messageType = .heartbeatRequest ∨ headed.messageType = .heartbeatResponse) ↔
      f.isEvent = true)
    (hevent : f.isEvent = true → read = headed)
    (hbody : f.isEvent = false → ∀ rest, decodeData hs (f.body ++ rest) f.headedContext headed =
      .ok (some read)) :
    Readable Reread hs f headed read where
  fresh := hfresh
  again hK hpx := by
    rcases Reread.fresh_or_headed hK hpx hfresh with rfl | rfl
    · exact hfresh
    · exact hagain
  short {p x md} hK hshort := by
    refine hK.imp_right ?_
    rintro ⟨ctx, hdec⟩
    rw [decodeHeader_short (by rw [List.length_append] at hshort; omega)] at hdec
    cases hdec
  kept q := .inr ⟨f.context, (decodeHeader_append (le_of_eq f.header_length.symm) q {}).trans hfresh⟩
  beat := hbeat
  event := hevent
  body := hbody

theorem reread_idle : Reread [] {} := .inl rfl

theorem resumesBy_idle : ResumesBy Reread [] {} [] := .header rfl rfl reread_idle

/-- A heartbeat request, whatever its body. -/
structure HeartbeatRequest (f : Frame) : Prop where
  isRequest : f.isRequest = true
  isEvent : f.isEvent = true
  serialization : (f.flag &&& serializationTypeMask).toNat = 2
  size : f.body.length ≤ maxBodySize

theorem HeartbeatRequest.wellFormed (hf : HeartbeatRequest f) (hs : Hessian2) : f.WellFormedRequest hs where
  isRequest := hf.isRequest
  serialization := hf.serialization
  size := hf.size
  accepted hev := absurd hf.isEvent (by simp [hev])

theorem HeartbeatRequest.readable (hf : HeartbeatRequest f) (hs : Hessian2) :
    Readable Reread hs f f.headed f.headed :=
  readable_of_again ((hf.wellFormed hs).decodeHeader Blank.fresh)
    ((hf.wellFormed hs).decodeHeader (Blank.headed f)) f.headed_beat
    (fun _ => rfl) fun hev => absurd hf.isEvent (by simp [hev])

variable {status : DubboResponseStatus}

theorem Frame.answered_beat (f : Frame) (status : DubboResponseStatus) :
    ((f.answered status).messageType = .heartbeatRequest ∨ (f.answered status).messageType =
      .heartbeatResponse) ↔ f.isEvent = true := by
  cases hev : f.isEvent <;> simp [Frame.answered, hev]

structure ValidResponse (f : Frame) (status : DubboResponseStatus) : Prop where
  isResponse : f.isRequest = false
  status : (DubboResponseStatus.ofByte f.status.toNat).filter isValidResponseStatus = some status
  size : f.body.length ≤ maxBodySize

theorem ValidResponse.readable_event (hf : ValidResponse f status) (hs : Hessian2) (hev : f.isEvent = true) :
    Readable Reread hs f (f.answered status) (f.answered status) :=
  readable_of_again (Frame.decodeHeader_answered hf.isResponse hf.size hf.status (.inl rfl))
    (Frame.decodeHeader_answered hf.isResponse hf.size hf.status (.inr rfl))
      (f.answered_beat status) (fun _ => rfl)
    fun h => absurd hev (by simp [h])

def Frame.refusal (f : Frame) (status : DubboResponseStatus) : MessageMetadata :=
  { f.answered status with messageType := .exception }

theorem ValidResponse.readable_error (hf : ValidResponse f status) (hev : f.isEvent = false)
    (hne : status ≠ .ok) : Readable Reread hs f (f.answered status) (f.refusal status) := by
  refine readable_of_again (Frame.decodeHeader_answered hf.isResponse hf.size hf.status (.inl rfl))
    (Frame.decodeHeader_answered hf.isResponse hf.size hf.status (.inr rfl)) (f.answered_beat status)
    (fun h => absurd h (by simp [hev])) fun _ rest => ?_
  rw [decodeData, if_neg (f.not_short rest)]
  simp [Frame.answered, Frame.refusal, hev, hne]

end Readable

/-! ## Error responses -/

/-- A response, not a heartbeat, whose status is an enumerator other than `Ok`. -/
structure ErrorResponse (f : Frame) (status : DubboResponseStatus) : Prop where
  isResponse : f.isRequest = false
  isEvent : f.isEvent = false
  notOk : status ≠ .ok
  status : DubboResponseStatus.ofByte f.status.toNat = some status
  size : f.body.length ≤ maxBodySize

/-- However `f` is cut, the codec delivers it as an error with the id and the bytes of `f`. -/
def PassesThrough (hs : Hessian2) (f : Frame) : Prop :=
  ∀ (t : MessageType) (cs : List Bytes), cs.flatten = f.bytes →
    ∃ c md, Framing.feed (fun c buf => DubboCodec.decode hs c buf (Metadata.ofType t)) {} [] cs =
      .done c md [] ∧
      md.messageType = .error ∧ md.responseStatus = .error ∧ md.requestId = ofBE f.id ∧
        md.originMessage = f.bytes

section ErrorResponse

variable {hs : Hessian2} {f : Frame} {status : DubboResponseStatus}

theorem toMetadata_refusal (hs : Hessian2) (f : Frame) (hne : status ≠ .ok) (t : MessageType) :
    ∃ md, toMetadata hs (f.refusal status) { f.context with originMessage := f.bytes }
      (Metadata.ofType t) = .ok md ∧
      md.messageType = .error ∧ md.responseStatus = .error ∧ md.requestId = ofBE f.id ∧
        md.originMessage = f.bytes :=
  ⟨_, rfl, rfl, if_neg hne, rfl, rfl⟩

theorem ErrorResponse.isFrame (hf : ErrorResponse f status) (hv : status ≠ .serverError) (hs : Hessian2)
    (encodeMap : List (Object × Object) → Bytes) (t : MessageType) :
    ∃ md, IsFrame ((dubboCodec hs encodeMap).decodeAs t) (ResumesBy Reread) f.bytes md ∧
      md.messageType = .error ∧ md.responseStatus = .error ∧ md.requestId = ofBE f.id ∧
        md.originMessage = f.bytes := by
  have hvalid : isValidResponseStatus status = true := by
    cases status <;> first | rfl | exact absurd rfl hv
  have hframe : ValidResponse f status :=
    ⟨hf.isResponse, by rw [hf.status, Option.filter, if_pos hvalid], hf.size⟩
  obtain ⟨md, hmd, hsays⟩ := toMetadata_refusal hs f hf.notOk t
  exact ⟨md, (hframe.readable_error hf.isEvent hf.notOk).isFrame encodeMap reread_idle hmd, hsays⟩

theorem ErrorResponse.passesThrough (hf : ErrorResponse f status) (hv : status ≠ .serverError) :
    PassesThrough hs f := by
  intro t cs hcut
  obtain ⟨md, hisFrame, hsays⟩ := hf.isFrame hv hs encodeShortMap t
  obtain ⟨c, hfeed, -⟩ :=
    hisFrame.feed resumesBy_idle List.nil_prefix hisFrame.ne.symm (hcut.trans (List.append_nil _).symm)
  exact ⟨c, md, hfeed, hsays⟩

/-- `ServerError` is refused as soon as the header is there. -/
theorem ErrorResponse.not_passesThrough (hf : ErrorResponse f .serverError) : ¬ PassesThrough hs f := by
  intro h
  obtain ⟨md', e, hdec⟩ := Frame.decodeHeader_invalid hf.isResponse hf.size (by rw [hf.status]; rfl)
  obtain ⟨c, md, hfeed, -⟩ := h .response [f.bytes] (List.append_nil _)
  have hrun := @Frame.run_refused f hs {} _ _ rfl hdec f.body
  simp only [Framing.feed, List.nil_append, DubboCodec.decode, Option.getD_none, Frame.bytes, hrun] at hfeed
  cases hfeed

theorem encode_error (encodeMap : List (Object × Object) → Bytes) {md : Metadata DubboAny}
    (htype : md.messageType = .error) (address : String) (mutation : Mutation) (buffer : Bytes) :
    (encode encodeMap (md.putString realServerAddress address) mutation buffer).map Prod.snd =
      .ok buffer := by
  have htype' : (md.putString realServerAddress address).messageType = .error := htype
  simp only [encode, md.getString_putString realServerAddress address, htype']
  rfl

/-- An error response comes through exactly if its status is not `ServerError`. -/
theorem error_response_iff (hs : Hessian2) (hf : ErrorResponse f status) : PassesThrough hs f ↔
    status ≠ .serverError := by
  constructor
  · rintro h rfl
    exact hf.not_passesThrough h
  · exact hf.passesThrough

end ErrorResponse

theorem shortId_length : ([0, 0, 0, 0, 0, 0, 0, 7] : Bytes).length = 8 := rfl

/-- A response whose body is the error text `oops`. -/
def failedAnswer (status : UInt8) : Frame where
  flag := 0x02
  status := status
  id := [0, 0, 0, 0, 0, 0, 0, 7]
  body := [0x04, 0x6f, 0x6f, 0x70, 0x73]
  id_length := shortId_length
  body_lt := by decide

theorem failedAnswer_error {byte : UInt8} {status : DubboResponseStatus} (hne : status ≠ .ok)
    (hbyte : DubboResponseStatus.ofByte byte.toNat = some status) :
    ErrorResponse (failedAnswer byte) status where
  isResponse := show hasMask 0x02 messageTypeMask = false by decide
  isEvent := show hasMask 0x02 eventMask = false by decide
  notOk := hne
  status := hbyte
  size := show 5 ≤ maxBodySize by decide

theorem service_error_passes : ErrorResponse (failedAnswer 70) .serviceError ∧
    PassesThrough fragment (failedAnswer 70) :=
  have hf : ErrorResponse (failedAnswer 70) .serviceError := failedAnswer_error (by decide) rfl
  ⟨hf, (error_response_iff fragment hf).2 (by decide)⟩

theorem server_error_refused :
    ErrorResponse (failedAnswer 80) .serverError ∧ ∀ hs, ¬ PassesThrough hs (failedAnswer 80) :=
  have hf : ErrorResponse (failedAnswer 80) .serverError := failedAnswer_error (by decide) rfl
  ⟨hf, fun _ => hf.not_passesThrough⟩

/-! ## Heartbeats -/

theorem nullBody_lt : ([0x4e] : Bytes).length < 2 ^ 31 := by decide

/-- The frame `encodeHeartbeat` writes. -/
def heartbeatReply (id : Nat) : Frame where
  flag := SerializationType.hessian2.toByte ^^^ eventMask
  status := DubboResponseStatus.ok.toByte
  id := writeBE 8 id
  body := [0x4e]
  id_length := length_writeBE 8 id
  body_lt := nullBody_lt

section Heartbeat

variable {hs : Hessian2} {f : Frame} {md : Metadata DubboAny}

theorem heartbeatReply_valid (id : Nat) : ValidResponse (heartbeatReply id) .ok where
  isResponse := show hasMask 0x22 messageTypeMask = false by decide
  status := rfl
  size := show 1 ≤ maxBodySize by decide

theorem heartbeatReply_isEvent (id : Nat) : (heartbeatReply id).isEvent = true :=
  show hasMask 0x22 eventMask = true by decide

theorem heartbeatReply_id {id : Nat} (hid : id < 2 ^ 64) : ofBE (heartbeatReply id).id = id := by
  rw [heartbeatReply, ofBE_writeBE]
  exact Nat.mod_eq_of_lt hid

theorem encodeHeartbeat_eq (encodeMap : List (Object × Object) → Bytes) (buffer : Bytes)
    (hcast : Castable md) :
    encodeHeartbeat encodeMap md buffer = .ok (md, (heartbeatReply md.requestId).bytes) := by
  obtain ⟨msg, hmsg⟩ := toMsgMetadata_ok_iff.2 hcast
  have hid : msg.requestId = md.requestId := (toMsgMetadata_iff.1 hmsg).requestId
  rw [encodeHeartbeat, hmsg]
  simp only [bind, Except.bind, protocolEncode, hid]
  rfl

theorem HeartbeatRequest.isFrame (hf : HeartbeatRequest f) (hs : Hessian2)
    (encodeMap : List (Object × Object) → Bytes) (t : MessageType) :
    ∃ md, IsFrame ((dubboCodec hs encodeMap).decodeAs t) (ResumesBy Reread) f.bytes md ∧
      md.messageType = .heartbeat := by
  have htype : f.headed.messageType = .heartbeatRequest := if_pos hf.isEvent
  refine ⟨_, (hf.readable hs).isFrame encodeMap reread_idle rfl, ?_⟩
  rw [htype]
  rfl

theorem HeartbeatRequest.decode (hf : HeartbeatRequest f) (hs : Hessian2) :
    ∃ md, DubboCodec.decode hs {} f.bytes (Metadata.ofType .request) = .done {} md [] ∧
      md.messageType = .heartbeat ∧
      md.requestId = ofBE f.id ∧ Castable md ∧ ∃ s, md.getString realServerAddress = .ok s := by
  have hw : Written (Metadata.ofType .request) f.headed _ := putMessage_written rfl
  have htype : f.headed.messageType = .heartbeatRequest := if_pos hf.isEvent
  refine ⟨_, resumesBy_idle.decode_done (hf.readable hs) rfl (List.append_nil _).symm, ?_, rfl,
    castable_bodiless rfl rfl, ?_⟩
  · rw [htype]
    rfl
  · refine getString_ok fun v hv => ?_
    have hnone := hw.address.symm.trans hv
    rw [Metadata.getByKey_ofType] at hnone
    cases hnone

theorem heartbeatResponse_encode (hs : Hessian2) (encodeMap : List (Object × Object) → Bytes) (buffer : Bytes)
    (htype : md.messageType = .heartbeat) (hcast : Castable md)
    (haddress : ∃ s, md.getString realServerAddress = .ok s) :
    HeartbeatResponse.encode (dubboCodec hs encodeMap) md buffer =
      .ok (heartbeatReply md.requestId).bytes := by
  obtain ⟨s, hs⟩ := haddress
  have hself : { md with messageType := .heartbeat } = md := by rw [← htype]
  rw [HeartbeatResponse.encode, hself]
  simp only [dubboCodec, encode, htype, hs, encodeHeartbeat_eq encodeMap buffer hcast]
  rfl

/-- The message of a heartbeat's reply. -/
structure AnswersHeartbeat (id : Nat) (md : Metadata DubboAny) : Prop where
  messageType : md.messageType = .heartbeat
  dubboType : md.getByKey "MessageType" = some (.other (.messageType .heartbeatResponse))
  requestId : md.requestId = id
  responseStatus : md.responseStatus = .ok
  dubboStatus : md.getByKey "ResponseStatus" = some (.other (.responseStatus .ok))

theorem heartbeatReply_decodes (hs : Hessian2) {id : Nat} (hid : id < 2 ^ 64) (t : MessageType)
    (rest : Bytes) :
    ∃ md, DubboCodec.decode hs {} ((heartbeatReply id).bytes ++ rest) (Metadata.ofType t) = .done {} md rest ∧
      AnswersHeartbeat id md := by
  have hev := heartbeatReply_isEvent id
  have hw : Written (Metadata.ofType t) ((heartbeatReply id).answered .ok) _ := putMessage_written rfl
  have htype : ((heartbeatReply id).answered .ok).messageType = .heartbeatResponse := if_pos hev
  have hreadable := (heartbeatReply_valid id).readable_event hs hev
  refine ⟨_, resumesBy_idle.decode_done hreadable rfl rfl, ?_, hw.messageType.trans ?_,
    heartbeatReply_id hid, rfl, hw.responseStatus⟩
  · rw [htype]
    rfl
  · rw [htype]

/-- The reply to a heartbeat is one frame, which the codec reads as a heartbeat response with status
`Ok` and the id of the request. -/
theorem heartbeat_answered (hs : Hessian2) (encodeMap : List (Object × Object) → Bytes)
    (hf : HeartbeatRequest f) :
    ∃ md bytes, DubboCodec.decode hs {} f.bytes (Metadata.ofType .request) = .done {} md [] ∧
      HeartbeatResponse.encode (dubboCodec hs encodeMap) md [] = .ok bytes ∧
      ∀ t rest, ∃ md', DubboCodec.decode hs {} (bytes ++ rest) (Metadata.ofType t) = .done {} md' rest ∧
        AnswersHeartbeat (ofBE f.id) md' := by
  obtain ⟨md, hdec, htype, hid, hcast, haddress⟩ := hf.decode hs
  have hlt : ofBE f.id < 2 ^ 64 := by
    have h := ofBE_lt f.id
    rw [f.id_length] at h
    exact h
  have henc := heartbeatResponse_encode hs encodeMap [] htype hcast haddress
  rw [hid] at henc
  exact ⟨md, _, hdec, henc, heartbeatReply_decodes hs hlt⟩

end Heartbeat

/-- A two-way heartbeat request without a body; the id has its sign bit set. -/
def emptyHeartbeat : Frame where
  flag := 0xe2
  status := 0
  id := [0xff, 0, 0, 0, 0, 0, 0, 7]
  body := []
  id_length := rfl
  body_lt := by decide

theorem emptyHeartbeat_answered :
    HeartbeatRequest emptyHeartbeat ∧
      ∃ md bytes, DubboCodec.decode fragment {} emptyHeartbeat.bytes (Metadata.ofType .request) =
        .done {} md [] ∧
        HeartbeatResponse.encode (dubboCodec fragment encodeShortMap) md [] = .ok bytes ∧
        ∀ t rest, ∃ md', DubboCodec.decode fragment {} (bytes ++ rest) (Metadata.ofType t) =
          .done {} md' rest ∧ AnswersHeartbeat (ofBE emptyHeartbeat.id) md' :=
  have hf : HeartbeatRequest emptyHeartbeat := ⟨by decide, by decide, by decide, by decide⟩
  ⟨hf, heartbeat_answered fragment _ hf⟩

end MetaProtocolProxy.Dubbo
