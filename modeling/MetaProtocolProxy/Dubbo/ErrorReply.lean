import MetaProtocolProxy.Dubbo.Attachments
/-
# The error reply that is never written (dubbo_codec.cc:130-155, dubbo_protocol_impl.cc:216-258)

`onError` turns the request's metadata into that of a response, with the status of the error, and
gives it to `DubboProtocolImpl::encode` with an empty buffer. The case of a response there does not
write a frame: it rewrites the attachment of the one in the buffer, and only under the content
`addheader` and with an `RpcResultInfo`, which a request never has. So whatever the request, its id
and the error, the buffer stays empty, and the client of a request that is answered locally gets
nothing.

* `no_error_reply` — for every two-way request, however it came off the wire, and every error.
* `route_not_found_unanswered` — a call without a route.
-/
namespace MetaProtocolProxy.Dubbo

open DecoderStateMachine

variable {hs : Hessian2} {m m' : DecoderStateMachine} {buffer rest : Bytes}

/-! ## Requests have no result -/

structure Resultless (msg : MessageMetadata) : Prop where
  rpcResultInfo : msg.rpcResultInfo = none
  timeout : msg.timeout = none

theorem Resultless.decodeHeader {msg : MessageMetadata} (h : Resultless msg) (buffer : Bytes) :
    Resultless (decodeHeader buffer msg).1 := by
  unfold Dubbo.decodeHeader parseRequestInfoFromBuffer parseResponseInfoFromBuffer
  grind [Resultless]

theorem Resultless.decodeData {msg msg' : MessageMetadata} {ctx : Context} (h : Resultless msg)
    (hdata : decodeData hs buffer ctx msg = .ok (some msg')) :
    Resultless msg' ∨ msg'.messageType ≠ .request := by
  unfold Dubbo.decodeData at hdata
  split at hdata
  · cases hdata
  split at hdata
  · -- a request, one-way or not
    obtain ⟨invo, -, hmsg⟩ := bind_eq_ok.1 hdata
    cases hmsg
    exact .inl ⟨h.rpcResultInfo, h.timeout⟩
  · obtain ⟨invo, -, hmsg⟩ := bind_eq_ok.1 hdata
    cases hmsg
    exact .inl ⟨h.rpcResultInfo, h.timeout⟩
  next htype =>
    right
    split at hdata
    · cases hdata
      simp
    · obtain ⟨result, -, hmsg⟩ := bind_eq_ok.1 hdata
      cases hmsg
      split <;> simp [htype]
  · cases hdata

/-- The machine has read no result, or it is done with a message that is not a request. -/
def Reads (m : DecoderStateMachine) : Prop :=
  Resultless m.metadata ∨ m.state = .done ∧ m.metadata.messageType ≠ .request

theorem reads_wait (hm : Resultless m.metadata) (h : handleState hs m buffer = .waitForData m') :
    Resultless m'.metadata := by
  unfold handleState at h
  split at h
  · have hheader := hm.decodeHeader buffer
    unfold onDecodeStreamHeader at h
    split at h
    · cases h
    next md hdec =>
      cases h
      rwa [hdec] at hheader
    next md ctx hdec =>
      rw [hdec] at hheader
      dsimp only at h
      split at h
      · split at h <;> cases h
        exact hheader
      · cases h
  · unfold onDecodeStreamData at h
    split at h <;> cases h
    exact hm
  · cases h

theorem reads_next (hm : Resultless m.metadata) (h : handleState hs m buffer = .next m' rest) : Reads m' := by
  unfold handleState at h
  split at h
  · have hheader := hm.decodeHeader buffer
    unfold onDecodeStreamHeader at h
    split at h
    · cases h
    · cases h
    next md ctx hdec =>
      rw [hdec] at hheader
      dsimp only at h
      split at h
      · split at h <;> cases h
        exact .inl hheader
      · cases h
        exact .inl hheader
  · unfold onDecodeStreamData at h
    split at h
    · cases h
    · cases h
    next md hdata =>
      cases h
      exact (hm.decodeData hdata).imp_right fun hne => ⟨rfl, hne⟩
  · cases h

def Stops : Framing.Step DecoderStateMachine UInt8 Unit Failure → Prop
  | .wait m _ => Resultless m.metadata
  | .done m _ _ => Reads m
  | .fail _ _ _ => True

theorem runLoop_stops (n : Nat) (hm : Reads m) : Stops (runLoop hs n m buffer) := by
  induction n generalizing m buffer with
  | zero =>
    rw [runLoop]
    split
    · exact hm
    · trivial
  | succ n ih =>
    rw [runLoop]
    split
    · exact hm
    next hstate =>
      have hm : Resultless m.metadata := hm.resolve_right fun h => hstate h.1
      cases hh : handleState hs m buffer with
      | waitForData m₁ =>
        simp only
        exact reads_wait hm hh
      | throws m₁ e =>
        trivial
      | next m₁ rest₁ =>
        simp only
        exact ih (reads_next hm hh)

theorem run_stops (hs : Hessian2) (buffer : Bytes) (hm : Resultless m.metadata) : Stops (m.run hs buffer) :=
  runLoop_stops 2 (.inl hm)

/-- A codec as calls that wait leave it. -/
inductive Waited (hs : Hessian2) : DubboCodec → Prop
  | fresh : Waited hs {}
  | wait {c c' : DubboCodec} {buffer rest : Bytes} {md : Metadata DubboAny} (hc : Waited hs c)
    (h : DubboCodec.decode hs c buffer md = .wait c' rest) : Waited hs c'

theorem Waited.resultless {c : DubboCodec} (hc : Waited hs c) :
    Resultless (c.stateMachine.getD {}).metadata := by
  induction hc with
  | fresh => exact ⟨rfl, rfl⟩
  | @wait c c' buffer rest md hc h ih =>
    unfold DubboCodec.decode at h
    split at h
    · next hrun =>
      cases h
      have hstops := run_stops hs buffer ih
      rwa [hrun] at hstops
    · cases h
    · split at h <;> cases h

/-! ## Nothing is written -/

section Reply

variable {c c' : DubboCodec} {md : Metadata DubboAny} {msg : MessageMetadata} {t : MessageType}

/-- A request's metadata may have a string under `RpcResultInfo`, and nothing else. -/
theorem toMetadata_resultless {ctx : Context} (hmsg : Resultless msg)
    (h : toMetadata hs msg ctx (Metadata.ofType t) = .ok md) :
    ∀ v, md.getByKey "RpcResultInfo" = some v → ∃ s, v = .string s := by
  intro v hv
  cases hi : msg.invocationInfo with
  | some invo =>
    obtain ⟨invo', -, hp⟩ := toMetadata_invocation hi hmsg.rpcResultInfo h
    have hw : Written (putInvocation (Metadata.ofType t) invo') { msg with invocationInfo := some invo' } _ :=
      putMessage_written hmsg.timeout
    rw [getByKey_of_properties hp, hw.rpcResultInfo] at hv
    exact string_of_putStrings (by simp [Metadata.getByKey_mk, Metadata.putString, Metadata.getByKey_put]) hv
  | none =>
    have hw : Written (Metadata.ofType t) msg _ := putMessage_written hmsg.timeout
    rw [getByKey_of_properties (toMetadata_bodiless hi hmsg.rpcResultInfo h), hw.rpcResultInfo] at hv
    simp at hv

theorem decode_resultless (hc : Waited hs c)
    (h : DubboCodec.decode hs c buffer (Metadata.ofType t) = .done c' md rest)
    (hreq : md.messageType = .request) :
    ∀ v, md.getByKey "RpcResultInfo" = some v → ∃ s, v = .string s := by
  obtain ⟨m, hrun, hmd⟩ := decode_ran h
  have hstops := run_stops hs buffer hc.resultless
  rw [hrun] at hstops
  rcases hstops with hmsg | ⟨-, hne⟩
  · exact toMetadata_resultless hmsg hmd
  · rw [(toMetadata_fields hmd).1] at hreq
    cases htype : m.metadata.messageType <;> simp [htype, DubboMessageType.toMessageType] at hreq hne

variable (encodeMap : List (Object × Object) → Bytes)

theorem onError_empty (hresult : ∀ v, md.getByKey "RpcResultInfo" = some v → ∃ s, v = .string s)
    {error : Error} {reply : Bytes} (h : onError encodeMap md error = .ok reply) : reply = [] := by
  obtain ⟨msg, hmsg, henc⟩ := bind_eq_ok.1 h
  have hnone : msg.rpcResultInfo = none := by
    have hcast := (toMsgMetadata_iff.1 hmsg).rpcResultInfo
    unfold optional at hcast
    split at hcast
    · exact (Except.ok.inj hcast).symm
    next v hv =>
      obtain ⟨s, rfl⟩ := hresult v hv
      cases hcast
  simp only [protocolEncode, rspheaderMutation, hnone, Option.bind_none, ite_self, Except.ok.injEq] at henc
  exact henc.symm

/-- A frame that answers a request with an error: the client's codec accepts it, and finds the
request's id and the status of the error. -/
structure AnswersWith (hs : Hessian2) (request : Metadata DubboAny) (error : Error) (reply : Bytes)
    (md : Metadata DubboAny) : Prop where
  accepted : DubboCodec.decode hs {} reply (Metadata.ofType .response) = .done {} md []
  requestId : md.requestId = request.requestId
  status : md.getByKey "ResponseStatus" = some (.other (.responseStatus (errorStatus error.type)))
  messageType : md.messageType = .error

theorem not_answers_nil (request md' : Metadata DubboAny) (error : Error) :
    ¬ AnswersWith hs request error [] md' := by
  intro hanswer
  have hwait : DubboCodec.decode hs {} [] (Metadata.ofType .response) = .wait ⟨some {}⟩ [] := rfl
  cases hwait.symm.trans hanswer.accepted

/-- **No two-way request gets an error reply**, whatever the error. -/
theorem no_error_reply (hc : Waited hs c)
    (h : DubboCodec.decode hs c buffer (Metadata.ofType t) = .done c' md rest)
    (hreq : md.messageType = .request) (error : Error) :
    ¬ ∃ reply md', onError encodeMap md error = .ok reply ∧ AnswersWith hs md error reply md' := by
  rintro ⟨reply, md', hreply, hanswer⟩
  obtain rfl := onError_empty encodeMap (decode_resultless hc h hreq) hreply
  exact not_answers_nil md md' error hanswer

theorem request_messageType (hl : hs.Local) {f : Frame} (hf : f.WellFormedRequest hs) :
    (frameMetadata hs f.bytes).messageType = f.requestType.toMessageType := by
  obtain ⟨m, hrun, hmd⟩ := decode_done (decode_request hl hf)
  cases (run_request hl hf).symm.trans hrun
  exact (toMetadata_fields hmd).1

end Reply

/-- A call with the attachment `{"a": "b"}`. -/
def plainCall : Frame := callFrame 0xc2 [0x48, 0x01, 0x61, 0x01, 0x62, 0x5a] (by decide)

theorem plainCall_wellFormed : plainCall.WellFormedRequest fragment :=
  ⟨rfl, rfl, by decide, fun _ => ⟨_, callFrame_invocation rfl⟩⟩

theorem plainCall_noClash : NoClash fragment plainCall.bytes := by
  rw [noClash_request fragment_local plainCall_wellFormed rfl (callFrame_invocation rfl)]
  simp [Attachment.strings, Object.toString]

/-- The call came off the wire in one piece, and the proxy answers that it has no route. -/
theorem no_error_reply_plain :
    ∃ md, DubboCodec.decode fragment {} plainCall.bytes (Metadata.ofType .request) = .done {} md [] ∧
      md.messageType = .request ∧
      ¬ ∃ reply md', onError encodeShortMap md ⟨.routeNotFound, "no route"⟩ = .ok reply ∧
        AnswersWith fragment md ⟨.routeNotFound, "no route"⟩ reply md' := by
  have hdecode := decode_request fragment_local plainCall_wellFormed
  have hreq := request_messageType fragment_local plainCall_wellFormed
  exact ⟨_, hdecode, hreq, no_error_reply encodeShortMap .fresh hdecode hreq _⟩

/-- `onError` returns, and has written nothing; there is no status in it to decode. -/
theorem route_not_found_unanswered :
    ∃ md, DubboCodec.decode fragment {} plainCall.bytes (Metadata.ofType .request) = .done {} md [] ∧
      onError encodeShortMap md ⟨.routeNotFound, "no route"⟩ = .ok [] ∧
      ∀ md', ¬ AnswersWith fragment md ⟨.routeNotFound, "no route"⟩ [] md' := by
  have hdecode := decode_request fragment_local plainCall_wellFormed
  have hreq := request_messageType fragment_local plainCall_wellFormed
  have hreply : ∃ reply, onError encodeShortMap _ ⟨.routeNotFound, "no route"⟩ = .ok reply :=
    (ready_of_noClash hdecode plainCall_noClash).onError ⟨.routeNotFound, "no route"⟩
  obtain ⟨reply, hreply⟩ := hreply
  obtain rfl := onError_empty _ (decode_resultless .fresh hdecode hreq) hreply
  exact ⟨_, hdecode, hreply, fun md' => not_answers_nil _ md' _⟩

end MetaProtocolProxy.Dubbo
