import MetaProtocolProxy.Dubbo.Requests
/-
# Attachment names against the codec's own properties (dubbo_codec.cc:157-289)

The attachments of a request are stored before the codec's properties, so a peer's string
survives only under a name the codec does not write for a request; the attachments of a
response are stored after them and survive under every name but `RpcResultInfo`. Where such a
name is one that `toMsgMetadata` casts, the cast throws `bad_any_cast`, which nobody catches.

* `ReadMessage` — what a decoded message is: an invocation, a result, or neither.
* `castable_iff` — a decoded message converts back exactly when no attachment has a clashing
  name.
* `attachments_survive_iff` — and then no sequence of later `encode` and `onError` calls on it
  ends in anything but a return or an `EnvoyException`.
-/
namespace MetaProtocolProxy.Dubbo

open Metadata (ofType)

/-! ## Converting back -/

section Convert

variable {τ : Type} {cast : Any DubboAny → Option τ} {md : Metadata DubboAny} {key : String}

theorem optional_ok_iff :
    (∃ x, optional cast md key = .ok x) ↔ ∀ v, md.getByKey key = some v → (cast v).isSome = true := by
  unfold optional
  cases md.getByKey key with
  | none => simp
  | some v => cases hv : cast v <;> simp [hv]

theorem required_ok_iff :
    (∃ x, required cast md key = .ok x) ↔ ∃ v, md.getByKey key = some v ∧ (cast v).isSome = true := by
  unfold required
  cases md.getByKey key with
  | none => simp
  | some v => cases hv : cast v <;> simp [hv]

theorem getBool_ok_iff :
    (∃ b, md.getBool key = .ok b) ↔ ∀ v, md.getByKey key = some v → ∃ b, v = .bool b := by
  unfold Metadata.getBool
  cases md.getByKey key with
  | none => simp
  | some v => cases v <;> simp

theorem optional_error {e : Failure} (h : optional cast md key = .error e) : e = .badAnyCast := by
  unfold optional at h
  split at h
  · cases h
  · split at h <;> cases h
    rfl

theorem required_error {e : Failure} (h : required cast md key = .error e) :
    e = .badAnyCast ∨ e = .nullDereference key := by
  unfold required at h
  split at h
  · cases h
    exact .inr rfl
  · split at h <;> cases h
    exact .inl rfl

theorem getBool_error {e : Failure} (h : md.getBool key = .error e) : e = .badAnyCast := by
  unfold Metadata.getBool at h
  split at h <;> cases h
  rfl

end Convert

theorem bind_eq_ok {τ υ : Type} {x : Except Failure τ} {f : τ → Except Failure υ} {r : υ} :
    (x >>= f) = .ok r ↔ ∃ a, x = .ok a ∧ f a = .ok r := by
  cases x <;> simp [bind, Except.bind]

theorem bind_eq_error {τ υ : Type} {x : Except Failure τ} {f : τ → Except Failure υ} {e : Failure} :
    (x >>= f) = .error e ↔ x = .error e ∨ ∃ a, x = .ok a ∧ f a = .error e := by
  cases x <;> simp [bind, Except.bind]

/-- The nine lookups of `toMsgMetadata`, and the message they make. -/
structure Converts (md : Metadata DubboAny) (msg : MessageMetadata) : Prop where
  requestId : msg.requestId = md.requestId
  invocationInfo : ∃ x, optional Cast.invocationInfo md "InvocationInfo" = .ok x ∧ msg.invocationInfo = x.join
  rpcResultInfo : optional Cast.rpcResultInfo md "RpcResultInfo" = .ok msg.rpcResultInfo
  protocolType : required Cast.protocolType md "ProtocolType" = .ok msg.protocolType
  protocolVersion : required Cast.protocolVersion md "ProtocolVersion" = .ok msg.protocolVersion
  messageType : required Cast.messageType md "MessageType" = .ok msg.messageType
  timeout : optional Cast.timeout md "Timeout" = .ok msg.timeout
  isTwoWay : md.getBool "TwoWay" = .ok msg.isTwoWay
  serializationType : required Cast.serializationType md "SerializationType" = .ok msg.serializationType
  responseStatus : optional Cast.responseStatus md "ResponseStatus" = .ok msg.responseStatus

theorem toMsgMetadata_iff {md : Metadata DubboAny} {msg : MessageMetadata} :
    toMsgMetadata md = .ok msg ↔ Converts md msg := by
  constructor
  · intro h
    simp only [toMsgMetadata, bind_eq_ok] at h
    obtain ⟨a, ha, b, hb, c, hc, d, hd, e, he, f, hf, g, hg, i, hi, j, hj, hmsg⟩ := h
    cases hmsg
    exact ⟨rfl, ⟨a, ha, rfl⟩, hb, hc, hd, he, hf, hg, hi, hj⟩
  · rintro ⟨hid, ⟨a, ha, hinvo⟩, hb, hc, hd, he, hf, hg, hi, hj⟩
    have hmsg : { msg with requestId := md.requestId, invocationInfo := a.join } = msg := by
      rw [← hid, ← hinvo]
    rw [← hmsg]
    simp only [toMsgMetadata, ha, hb, hc, hd, he, hf, hg, hi, hj]
    rfl

/-- The nine lookups of `toMsgMetadata` succeed. -/
structure Castable (md : Metadata DubboAny) : Prop where
  invocationInfo : ∃ x, optional Cast.invocationInfo md "InvocationInfo" = .ok x
  rpcResultInfo : ∃ x, optional Cast.rpcResultInfo md "RpcResultInfo" = .ok x
  protocolType : ∃ x, required Cast.protocolType md "ProtocolType" = .ok x
  protocolVersion : ∃ x, required Cast.protocolVersion md "ProtocolVersion" = .ok x
  messageType : ∃ x, required Cast.messageType md "MessageType" = .ok x
  timeout : ∃ x, optional Cast.timeout md "Timeout" = .ok x
  isTwoWay : ∃ x, md.getBool "TwoWay" = .ok x
  serializationType : ∃ x, required Cast.serializationType md "SerializationType" = .ok x
  responseStatus : ∃ x, optional Cast.responseStatus md "ResponseStatus" = .ok x

theorem toMsgMetadata_ok_iff {md : Metadata DubboAny} : (∃ msg, toMsgMetadata md = .ok msg) ↔
    Castable md := by
  constructor
  · rintro ⟨msg, h⟩
    obtain ⟨-, ⟨a, ha, -⟩, hb, hc, hd, he, hf, hg, hi, hj⟩ := toMsgMetadata_iff.1 h
    exact ⟨⟨a, ha⟩, ⟨_, hb⟩, ⟨_, hc⟩, ⟨_, hd⟩, ⟨_, he⟩, ⟨_, hf⟩, ⟨_, hg⟩, ⟨_, hi⟩, ⟨_, hj⟩⟩
  · rintro ⟨⟨a, ha⟩, ⟨b, hb⟩, ⟨c, hc⟩, ⟨d, hd⟩, ⟨e, he⟩, ⟨f, hf⟩, ⟨g, hg⟩, ⟨i, hi⟩, ⟨j, hj⟩⟩
    simp only [toMsgMetadata, ha, hb, hc, hd, he, hf, hg, hi, hj]
    exact ⟨_, rfl⟩

/-- A conversion fails by a bad cast or a missing property, never by an `EnvoyException`. -/
theorem toMsgMetadata_error {md : Metadata DubboAny} {e : Failure} (h : toMsgMetadata md = .error e) :
    e = .badAnyCast ∨ ∃ what, e = .nullDereference what := by
  simp only [toMsgMetadata, bind_eq_error] at h
  rcases h with h | ⟨_, _,
    h | ⟨_, _, h | ⟨_, _, h | ⟨_, _, h | ⟨_, _, h | ⟨_, _, h | ⟨_, _, h | ⟨_, _, h | ⟨_, _, h⟩⟩⟩⟩⟩⟩⟩⟩⟩
  · exact .inl (optional_error h)
  · exact .inl (optional_error h)
  · exact (required_error h).imp_right fun he => ⟨_, he⟩
  · exact (required_error h).imp_right fun he => ⟨_, he⟩
  · exact (required_error h).imp_right fun he => ⟨_, he⟩
  · exact .inl (optional_error h)
  · exact .inl (getBool_error h)
  · exact (required_error h).imp_right fun he => ⟨_, he⟩
  · exact .inl (optional_error h)
  · cases h

/-! ## What a decoded message is -/

/-- The Dubbo message in a frame: a request with its invocation, a response with its result, or a
message whose body is not read. -/
inductive ReadMessage : MessageMetadata → Prop
  | invocation {msg : MessageMetadata} (invo : RpcInvocation) (hi : msg.invocationInfo = some invo)
    (hr : msg.rpcResultInfo = none) (hs : msg.responseStatus = none) (ht : msg.timeout = none)
    (htype : msg.messageType = .request ∨ msg.messageType = .oneway) : ReadMessage msg
  | result {msg : MessageMetadata} (result : RpcResult) (hi : msg.invocationInfo = none)
    (hr : msg.rpcResultInfo = some result) (hs : msg.responseStatus ≠ none) (ht : msg.timeout = none)
    (htype : msg.messageType = .response ∨ msg.messageType = .exception) : ReadMessage msg
  | bodiless {msg : MessageMetadata} (hi : msg.invocationInfo = none) (hr : msg.rpcResultInfo = none)
    (ht : msg.timeout = none)
    (htype : msg.messageType = .exception ∨ msg.messageType = .heartbeatRequest ∨
      msg.messageType = .heartbeatResponse) :
    ReadMessage msg

structure ReadHeader (msg : MessageMetadata) : Prop where
  invocationInfo : msg.invocationInfo = none
  rpcResultInfo : msg.rpcResultInfo = none
  timeout : msg.timeout = none
  kind : (msg.responseStatus = none ∧
      (msg.messageType = .request ∨ msg.messageType = .oneway ∨ msg.messageType = .heartbeatRequest)) ∨
    (msg.responseStatus ≠ none ∧ (msg.messageType = .response ∨ msg.messageType = .heartbeatResponse))

theorem parseRequestInfo_ok {buffer : Bytes} {msg msg' : MessageMetadata}
    (h : parseRequestInfoFromBuffer buffer msg = (msg', .ok ())) :
    ∃ type, msg' = { msg with serializationType := type } ∨
      msg' = { msg with messageType := .oneway, serializationType := type } := by
  unfold parseRequestInfoFromBuffer at h
  dsimp only at h
  split at h
  · cases h
  · rename_i type _
    simp only [Prod.mk.injEq, and_true] at h
    refine ⟨type, ?_⟩
    split at h
    · exact .inr h.symm
    · exact .inl h.symm

theorem parseResponseInfo_ok {buffer : Bytes} {msg msg' : MessageMetadata}
    (h : parseResponseInfoFromBuffer buffer msg = (msg', .ok ())) :
    ∃ status, msg' = { msg with responseStatus := some status } := by
  unfold parseResponseInfoFromBuffer at h
  dsimp only at h
  split at h
  · cases h
  · rename_i status _
    simp only [Prod.mk.injEq, and_true] at h
    exact ⟨status, h.symm⟩

theorem decodeHeader_readHeader {buffer : Bytes} {msg : MessageMetadata} {ctx : Context}
    (h : decodeHeader buffer {} = (msg, .ok (some ctx))) : ReadHeader msg := by
  have hparsed := (decodeHeader_accepted h).parsed
  simp only [parsedInfo] at hparsed
  split at hparsed
  · -- a request
    obtain ⟨type, rfl | rfl⟩ := parseRequestInfo_ok hparsed
    · refine ⟨rfl, rfl, rfl, .inl ⟨rfl, ?_⟩⟩
      cases hasMask (peekByte flagOffset buffer) eventMask <;> simp
    · exact ⟨rfl, rfl, rfl, .inl ⟨rfl, .inr (.inl rfl)⟩⟩
  · obtain ⟨status, rfl⟩ := parseResponseInfo_ok hparsed
    refine ⟨rfl, rfl, rfl, .inr ⟨by simp, ?_⟩⟩
    cases hasMask (peekByte flagOffset buffer) eventMask <;> simp

variable {hs : Hessian2}

theorem decodeData_readMessage {buffer : Bytes} {ctx : Context} {msg msg' : MessageMetadata}
    (hmsg : ReadHeader msg) (h : decodeData hs buffer ctx msg = .ok (some msg')) : ReadMessage msg' := by
  unfold decodeData at h
  split at h
  · cases h
  have hinvo : (do
      let invo ← deserializeRpcInvocation hs buffer ctx
      return some { msg with invocationInfo := some invo } :
        Except Failure (Option MessageMetadata)) = .ok (some msg') →
      (msg.messageType = .request ∨ msg.messageType = .oneway) → ReadMessage msg' := by
    intro h htype
    obtain ⟨invo, -, h⟩ := bind_eq_ok.1 h
    cases h
    have hstatus : msg.responseStatus = none := by
      rcases hmsg.kind with ⟨hst, -⟩ | ⟨-, hty⟩
      · exact hst
      · rcases htype with ht | ht <;> rw [ht] at hty <;> simp at hty
    exact .invocation invo rfl hmsg.rpcResultInfo hstatus hmsg.timeout htype
  split at h
  · exact hinvo h (.inr ‹_›)
  · exact hinvo h (.inl ‹_›)
  · rename_i htype
    have hstatus : msg.responseStatus ≠ none := by
      rcases hmsg.kind with ⟨-, hty⟩ | ⟨hst, -⟩
      · rw [htype] at hty
        simp at hty
      · exact hst
    split at h
    · cases h
      exact .bodiless hmsg.invocationInfo hmsg.rpcResultInfo hmsg.timeout (.inl rfl)
    · obtain ⟨result, -, h⟩ := bind_eq_ok.1 h
      cases h
      split
      · exact .result result hmsg.invocationInfo rfl hstatus hmsg.timeout (.inr rfl)
      · exact .result result hmsg.invocationInfo rfl hstatus hmsg.timeout (.inl htype)
  · cases h

inductive Ran (hs : Hessian2) (buffer rest : Bytes) : DecoderStateMachine → Prop
  | heartbeat {msg : MessageMetadata} {ctx : Context} (hheader :
      decodeHeader buffer {} = (msg, .ok (some ctx)))
    (hbeat : msg.messageType = .heartbeatRequest ∨ msg.messageType = .heartbeatResponse)
    (hlen : ctx.headerSize + ctx.bodySize ≤ buffer.length) (hrest :
      rest = buffer.drop (ctx.headerSize + ctx.bodySize)) :
    Ran hs buffer rest ⟨.done, msg, ctx.moveIn buffer (ctx.headerSize + ctx.bodySize)⟩
  | body {msg msg' : MessageMetadata} {ctx : Context} (hheader :
      decodeHeader buffer {} = (msg, .ok (some ctx)))
    (hbeat : ¬ (msg.messageType = .heartbeatRequest ∨ msg.messageType = .heartbeatResponse))
    (hdata : decodeData hs (buffer.drop ctx.headerSize) (ctx.moveIn buffer ctx.headerSize) msg =
      .ok (some msg'))
    (hrest : rest = (buffer.drop ctx.headerSize).drop ctx.bodySize) :
    Ran hs buffer rest
      ⟨.done, msg', (ctx.moveIn buffer ctx.headerSize).moveIn (buffer.drop ctx.headerSize) ctx.bodySize⟩

open DecoderStateMachine in
theorem run_ran {buffer rest : Bytes} {m : DecoderStateMachine}
    (h : DecoderStateMachine.run hs {} buffer = .done m () rest) : Ran hs buffer rest m := by
  rw [DecoderStateMachine.run, runLoop] at h
  simp only [handleState, reduceCtorEq, if_false] at h
  cases hh : onDecodeStreamHeader {} buffer with
  | waitForData m₁ => simp [hh] at h
  | throws m₁ e => simp [hh] at h
  | next m₁ rest₁ =>
    simp only [hh] at h
    unfold onDecodeStreamHeader at hh
    split at hh
    · cases hh
    · cases hh
    rename_i msg ctx hheader
    dsimp only at hh
    split at hh
    · -- a heartbeat: the machine is done
      rename_i hbeat
      split at hh
      · cases hh
      rename_i hlen
      cases hh
      rw [runLoop] at h
      simp only [if_true, Framing.Step.done.injEq] at h
      obtain ⟨rfl, -, rfl⟩ := h
      exact .heartbeat hheader hbeat (Nat.not_lt.1 hlen) rfl
    · rename_i hbeat
      cases hh
      rw [runLoop] at h
      simp only [handleState, reduceCtorEq, if_false] at h
      cases hd : onDecodeStreamData hs ⟨.onDecodeStreamData, msg, ctx.moveIn buffer ctx.headerSize⟩
          (buffer.drop ctx.headerSize) with
      | waitForData m₂ => simp [hd] at h
      | throws m₂ e => simp [hd] at h
      | next m₂ rest₂ =>
        simp only [hd] at h
        unfold onDecodeStreamData at hd
        split at hd
        · cases hd
        · cases hd
        rename_i msg' hdata
        cases hd
        rw [runLoop] at h
        simp only [if_true, Framing.Step.done.injEq] at h
        obtain ⟨rfl, -, rfl⟩ := h
        exact .body hheader hbeat hdata rfl

theorem run_readMessage {buffer rest : Bytes} {m : DecoderStateMachine}
    (h : DecoderStateMachine.run hs {} buffer = .done m () rest) : ReadMessage m.metadata := by
  cases run_ran h with
  | heartbeat hheader hbeat =>
    have hread := decodeHeader_readHeader hheader
    exact .bodiless hread.invocationInfo hread.rpcResultInfo hread.timeout (.inr hbeat)
  | body hheader _ hdata => exact decodeData_readMessage (decodeHeader_readHeader hheader) hdata

theorem decode_ran {buffer rest : Bytes} {c c' : DubboCodec} {md₀ md : Metadata DubboAny}
    (h : DubboCodec.decode hs c buffer md₀ = .done c' md rest) :
    ∃ m, (c.stateMachine.getD {}).run hs buffer = .done m () rest ∧
      toMetadata hs m.metadata m.context md₀ = .ok md := by
  unfold DubboCodec.decode at h
  split at h
  · cases h
  · cases h
  rename_i m u rest' hrun
  split at h
  · cases h
  rename_i md' hmd
  cases h
  exact ⟨m, hrun, hmd⟩

theorem decode_done {buffer rest : Bytes} {c : DubboCodec} {md₀ md : Metadata DubboAny}
    (h : DubboCodec.decode hs {} buffer md₀ = .done c md rest) :
    ∃ m, DecoderStateMachine.run hs {} buffer = .done m () rest ∧
      toMetadata hs m.metadata m.context md₀ = .ok md :=
  decode_ran h

/-! ## The names under which an attachment survives -/

/-- The string attachments of a message; a request's are read from the message on first use. -/
def stringAttachments (hs : Hessian2) (msg : MessageMetadata) (originMessage : Bytes) :
    List (String × String) :=
  match msg.invocationInfo, msg.rpcResultInfo with
  | some invo, _ =>
    match invo.assignAttachmentIfNeed hs originMessage with
    | .ok invo => (invo.attachment.map Attachment.strings).getD []
    | .error _ => []
  | none, some result => (result.attachment.map Attachment.strings).getD []
  | none, none => []

/-- The names `toMsgMetadata` casts and `toMetadata` does not write after the attachments. -/
def clashingNames (msg : MessageMetadata) : List String :=
  match msg.invocationInfo, msg.rpcResultInfo with
  | some _, _ => ["RpcResultInfo", "Timeout", "ResponseStatus"]
  | none, some _ =>
    ["InvocationInfo", "ProtocolType", "ProtocolVersion", "MessageType", "Timeout", "TwoWay",
      "SerializationType", "ResponseStatus"]
  | none, none => []

section Lookup

variable {md : Metadata DubboAny} {msg : MessageMetadata} {kvs : List (String × String)} {key : String}

/-- A property that is right before the attachments are stored stays right exactly when none of them
has its name. -/
theorem putStrings_fits (P : Option (Any DubboAny) → Prop) (h : P (md.getByKey key))
    (hstring : ∀ s, ¬ P (some (.string s))) : P ((md.putStrings kvs).getByKey key) ↔
      key ∉ kvs.map Prod.fst := by
  obtain ⟨hin, hout⟩ := Metadata.getByKey_putStrings md kvs key
  constructor
  · intro hP hmem
    obtain ⟨s, hs⟩ := hin hmem
    rw [hs] at hP
    exact hstring s hP
  · intro hmem
    rw [hout hmem]
    exact h

/-- What `putMessage` leaves under the nine names, for a message without a timeout. -/
structure Written (md : Metadata DubboAny) (msg : MessageMetadata) (md' : Metadata DubboAny) : Prop where
  invocationInfo : md'.getByKey "InvocationInfo" = some (.other (.invocationInfo msg.invocationInfo))
  protocolType : md'.getByKey "ProtocolType" = some (.other (.protocolType msg.protocolType))
  protocolVersion : md'.getByKey "ProtocolVersion" = some (.other (.protocolVersion msg.protocolVersion))
  messageType : md'.getByKey "MessageType" = some (.other (.messageType msg.messageType))
  isTwoWay : md'.getByKey "TwoWay" = some (.bool msg.isTwoWay)
  serializationType :
    md'.getByKey "SerializationType" = some (.other (.serializationType msg.serializationType))
  responseStatus : md'.getByKey "ResponseStatus" =
    (msg.responseStatus.map fun s => .other (.responseStatus s)).or (md.getByKey "ResponseStatus")
  timeout : md'.getByKey "Timeout" = md.getByKey "Timeout"
  rpcResultInfo : md'.getByKey "RpcResultInfo" = md.getByKey "RpcResultInfo"
  address : md'.getByKey realServerAddress = md.getByKey realServerAddress

theorem putMessage_written (ht : msg.timeout = none) : Written md msg (putMessage md msg) := by
  constructor <;> unfold putMessage <;> cases msg.responseStatus <;>
    simp [ht, Metadata.getByKey_put, Metadata.getByKey_mk, realServerAddress]

variable {hs : Hessian2}

theorem toMetadata_invocation {ctx : Context} {md₀ : Metadata DubboAny} {invo : RpcInvocation}
    (hi : msg.invocationInfo = some invo) (hr : msg.rpcResultInfo = none)
    (h : toMetadata hs msg ctx md₀ = .ok md) :
    ∃ invo', invo.assignAttachmentIfNeed hs ctx.originMessage = .ok invo' ∧
      md.properties =
        (putMessage (putInvocation md₀ invo') { msg with invocationInfo := some invo' }).properties := by
  simp only [toMetadata, hi, hr, bind_eq_ok] at h
  obtain ⟨i, hassign, md₁, hmd₁, h⟩ := h
  cases hx : invo.assignAttachmentIfNeed hs ctx.originMessage with
  | error e => simp [hx, Except.map] at hassign
  | ok invo' =>
    simp only [hx, Except.map, Except.ok.injEq] at hassign
    subst hassign
    cases hmd₁
    refine ⟨invo', rfl, ?_⟩
    cases hst : msg.responseStatus <;> simp only [hst] at h <;> cases h <;> rfl

theorem toMetadata_stored {ctx : Context} {md₀ : Metadata DubboAny} {result : RpcResult}
    (hi : msg.invocationInfo = none) (hr : msg.rpcResultInfo = some result)
    (h : toMetadata hs msg ctx md₀ = .ok md) : ∃ a, result.attachment = some a ∧
      md.properties = (((putMessage md₀ msg).putStrings a.strings).put "RpcResultInfo"
        (.other (.rpcResultInfo result))).properties := by
  obtain ⟨twoWay, type, protocol, status, timeout, invo, res, serialization, version, id⟩ := msg
  dsimp only at hi hr
  subst hi hr
  simp only [toMetadata, bind_eq_ok] at h
  obtain ⟨i, hnone, md₁, hmd₁, h⟩ := h
  cases hnone
  unfold putResult at hmd₁
  cases ha : result.attachment with
  | none => simp [ha] at hmd₁
  | some a =>
    simp only [ha, Except.ok.injEq] at hmd₁
    subst hmd₁
    refine ⟨a, rfl, ?_⟩
    cases status <;> cases h <;> rfl

theorem toMetadata_bodiless {ctx : Context} {md₀ : Metadata DubboAny} (hi : msg.invocationInfo = none)
    (hr : msg.rpcResultInfo = none) (h : toMetadata hs msg ctx md₀ = .ok md) :
    md.properties = (putMessage md₀ msg).properties := by
  obtain ⟨twoWay, type, protocol, status, timeout, invo, res, serialization, version, id⟩ := msg
  dsimp only at hi hr
  subst hi hr
  simp only [toMetadata, bind_eq_ok] at h
  obtain ⟨i, hnone, md₁, hmd₁, h⟩ := h
  cases hnone
  cases hmd₁
  cases status <;> cases h <;> rfl

theorem toMetadata_fields {ctx : Context} {md₀ : Metadata DubboAny} (h : toMetadata hs msg ctx md₀ = .ok md) :
    md.messageType = msg.messageType.toMessageType ∧ md.headerSize = ctx.headerSize := by
  obtain ⟨twoWay, type, protocol, status, timeout, invo, result, serialization, version, id⟩ := msg
  cases invo <;> cases result <;> simp only [toMetadata, bind_eq_ok] at h
  all_goals
    obtain ⟨i, -, md₁, -, h⟩ := h
    cases status <;> cases h <;> exact ⟨rfl, rfl⟩

theorem putInvocation_originMessage (md : Metadata DubboAny) (invo : RpcInvocation) :
    (putInvocation md invo).originMessage = md.originMessage := by
  unfold putInvocation
  rw [Metadata.putStrings_originMessage]
  rfl

theorem toMetadata_originMessage {ctx : Context} {t : MessageType} (hr : msg.rpcResultInfo = none)
    (h : toMetadata hs msg ctx (ofType t) = .ok md) : md.originMessage = ctx.originMessage := by
  obtain ⟨twoWay, type, protocol, status, timeout, invo, result, serialization, version, id⟩ := msg
  dsimp only at hr
  subst hr
  cases invo <;> simp only [toMetadata, bind_eq_ok] at h
  all_goals
    obtain ⟨i, -, md₁, hmd₁, h⟩ := h
    cases hmd₁
    cases status <;> cases h <;> cases i <;>
      simp only [putMessage_originMessage, putInvocation_originMessage] <;> rfl

end Lookup

section Clash

variable {hs : Hessian2} {ctx : Context} {t : MessageType} {md : Metadata DubboAny} {msg : MessageMetadata}

theorem getByKey_of_properties {md md' : Metadata DubboAny} (h : md.properties = md'.properties)
    (key : String) : md.getByKey key = md'.getByKey key := by
  rw [Metadata.getByKey, h, Metadata.getByKey]

/-- `Castable` as a statement about the nine lookups. -/
theorem castable_iff_lookups :
    Castable md ↔
      (∀ v, md.getByKey "InvocationInfo" = some v → (Cast.invocationInfo v).isSome = true) ∧
      (∀ v, md.getByKey "RpcResultInfo" = some v → (Cast.rpcResultInfo v).isSome = true) ∧
      (∃ v, md.getByKey "ProtocolType" = some v ∧ (Cast.protocolType v).isSome = true) ∧
      (∃ v, md.getByKey "ProtocolVersion" = some v ∧ (Cast.protocolVersion v).isSome = true) ∧
      (∃ v, md.getByKey "MessageType" = some v ∧ (Cast.messageType v).isSome = true) ∧
      (∀ v, md.getByKey "Timeout" = some v → (Cast.timeout v).isSome = true) ∧
      (∀ v, md.getByKey "TwoWay" = some v → ∃ b, v = .bool b) ∧
      (∃ v, md.getByKey "SerializationType" = some v ∧ (Cast.serializationType v).isSome = true) ∧
      (∀ v, md.getByKey "ResponseStatus" = some v → (Cast.responseStatus v).isSome = true) := by
  constructor
  · intro h
    exact ⟨optional_ok_iff.1 h.1, optional_ok_iff.1 h.2, required_ok_iff.1 h.3, required_ok_iff.1 h.4,
      required_ok_iff.1 h.5, optional_ok_iff.1 h.6, getBool_ok_iff.1 h.7, required_ok_iff.1 h.8,
        optional_ok_iff.1 h.9⟩
  · rintro ⟨h1, h2, h3, h4, h5, h6, h7, h8, h9⟩
    exact ⟨optional_ok_iff.2 h1, optional_ok_iff.2 h2, required_ok_iff.2 h3, required_ok_iff.2 h4,
      required_ok_iff.2 h5,
      optional_ok_iff.2 h6, getBool_ok_iff.2 h7, required_ok_iff.2 h8, optional_ok_iff.2 h9⟩

/-- A request: the codec's own properties are written last, the three it does not write for a
request may be the peer's. -/
theorem castable_invocation (invo : RpcInvocation) (hr : msg.responseStatus = none) (ht : msg.timeout = none)
    (hp : md.properties = (putMessage (putInvocation (ofType t) invo) msg).properties) :
    Castable md ↔ ∀ key ∈ ["RpcResultInfo", "Timeout", "ResponseStatus"],
      key ∉ ((invo.attachment.map Attachment.strings).getD []).map Prod.fst := by
  have hw : Written (putInvocation (ofType t) invo) msg _ := putMessage_written ht
  have hpeer : ∀ key, key ≠ "interface" → key ≠ "method" →
      ∀ (fits : Any DubboAny → Prop), (∀ s, ¬ fits (.string s)) →
      ((∀ v, (putInvocation (ofType t) invo).getByKey key = some v → fits v) ↔
        key ∉ ((invo.attachment.map Attachment.strings).getD []).map Prod.fst) := by
    intro key h1 h2 fits hfits
    refine putStrings_fits (fun o => ∀ v, o = some v → fits v) ?_ fun s h => hfits s (h _ rfl)
    simp [Metadata.getByKey_mk, Metadata.putString, Metadata.getByKey_put, h1, h2]
  rw [castable_iff_lookups]
  simp only [getByKey_of_properties hp, hw.invocationInfo, hw.rpcResultInfo, hw.protocolType,
    hw.protocolVersion,
    hw.messageType, hw.timeout, hw.isTwoWay, hw.serializationType, hw.responseStatus, hr,
      Option.map_none, Option.none_or]
  rw [hpeer "RpcResultInfo" (by decide) (by decide) _ (by simp [Cast.rpcResultInfo]),
    hpeer "Timeout" (by decide) (by decide) _ (by simp [Cast.timeout]),
    hpeer "ResponseStatus" (by decide) (by decide) _ (by simp [Cast.responseStatus])]
  simp [Cast.invocationInfo, Cast.protocolType, Cast.protocolVersion, Cast.messageType,
    Cast.serializationType]

/-- A response: the attachments are written after everything but `RpcResultInfo`. -/
theorem castable_result {result : RpcResult} {kvs : List (String × String)} (ht : msg.timeout = none)
    (hp : md.properties = (((putMessage (ofType t) msg).putStrings kvs).put "RpcResultInfo"
      (.other (.rpcResultInfo result))).properties) :
    Castable md ↔
      ∀ key ∈ ["InvocationInfo", "ProtocolType", "ProtocolVersion", "MessageType", "Timeout", "TwoWay",
      "SerializationType", "ResponseStatus"], key ∉ kvs.map Prod.fst := by
  have hw : Written (ofType t) msg _ := putMessage_written ht
  have hstatus : ∀ v, (putMessage (ofType t) msg).getByKey "ResponseStatus" = some v →
      (Cast.responseStatus v).isSome = true := by
    rw [hw.responseStatus]
    cases msg.responseStatus <;> simp [Cast.responseStatus]
  have hopt : ∀ key (fits : Any DubboAny → Prop), key ≠ "RpcResultInfo" → (∀ s, ¬ fits (.string s)) →
      (∀ v, (putMessage (ofType t) msg).getByKey key = some v → fits v) →
      ((∀ v, md.getByKey key = some v → fits v) ↔ key ∉ kvs.map Prod.fst) := by
    intro key fits hkey hfits h
    rw [getByKey_of_properties hp, Metadata.getByKey_put, if_neg hkey]
    exact putStrings_fits (fun o => ∀ v, o = some v → fits v) h fun s h => hfits s (h _ rfl)
  have hreq : ∀ key (fits : Any DubboAny → Prop), key ≠ "RpcResultInfo" → (∀ s, ¬ fits (.string s)) →
      (∃ v, (putMessage (ofType t) msg).getByKey key = some v ∧ fits v) →
      ((∃ v, md.getByKey key = some v ∧ fits v) ↔ key ∉ kvs.map Prod.fst) := by
    intro key fits hkey hfits h
    rw [getByKey_of_properties hp, Metadata.getByKey_put, if_neg hkey]
    exact putStrings_fits (fun o => ∃ v, o = some v ∧ fits v) h fun s => by simpa using hfits s
  rw [castable_iff_lookups,
    hopt "InvocationInfo" _ (by decide) (by simp [Cast.invocationInfo])
      (by simp [hw.invocationInfo, Cast.invocationInfo]),
    hreq "ProtocolType" (Cast.protocolType · |>.isSome) (by decide) (by simp [Cast.protocolType])
      ⟨_, hw.protocolType, rfl⟩,
    hreq "ProtocolVersion" (Cast.protocolVersion · |>.isSome) (by decide) (by simp [Cast.protocolVersion])
      ⟨_, hw.protocolVersion, rfl⟩,
    hreq "MessageType" (Cast.messageType · |>.isSome) (by decide) (by simp [Cast.messageType])
      ⟨_, hw.messageType, rfl⟩,
    hopt "Timeout" _ (by decide) (by simp [Cast.timeout]) (by simp [hw.timeout]),
    hopt "TwoWay" _ (by decide) (by simp) (by simp [hw.isTwoWay]),
    hreq "SerializationType" (Cast.serializationType · |>.isSome) (by decide)
      (by simp [Cast.serializationType]) ⟨_, hw.serializationType, rfl⟩,
    hopt "ResponseStatus" _ (by decide) (by simp [Cast.responseStatus]) hstatus]
  have hresult : ∀ v, md.getByKey "RpcResultInfo" = some v → (Cast.rpcResultInfo v).isSome = true := by
    rw [getByKey_of_properties hp, Metadata.getByKey_put, if_pos rfl]
    simp [Cast.rpcResultInfo]
  rw [and_iff_right hresult]
  simp

theorem castable_bodiless (ht : msg.timeout = none)
    (hp : md.properties = (putMessage (ofType t) msg).properties) : Castable md := by
  have hw : Written (ofType t) msg _ := putMessage_written ht
  rw [castable_iff_lookups]
  simp only [getByKey_of_properties hp, hw.invocationInfo, hw.rpcResultInfo, hw.protocolType,
    hw.protocolVersion,
    hw.messageType, hw.timeout, hw.isTwoWay, hw.serializationType, hw.responseStatus]
  cases msg.responseStatus <;>
    simp [Cast.invocationInfo, Cast.protocolType, Cast.protocolVersion, Cast.messageType,
      Cast.serializationType, Cast.responseStatus]

/-- **A decoded message converts back exactly when no string attachment has a clashing name.** -/
theorem castable_iff (hmsg : ReadMessage msg) (h : toMetadata hs msg ctx (ofType t) = .ok md) :
    Castable md ↔
      ∀ key ∈ clashingNames msg, key ∉ (stringAttachments hs msg ctx.originMessage).map Prod.fst := by
  cases hmsg with
  | invocation invo hi hr hst ht htype =>
    obtain ⟨invo', hassign, hp⟩ := toMetadata_invocation hi hr h
    have hatt : stringAttachments hs msg ctx.originMessage =
        (invo'.attachment.map Attachment.strings).getD [] := by
      simp only [stringAttachments, hi, hassign]
    have hnames : clashingNames msg = ["RpcResultInfo", "Timeout", "ResponseStatus"] := by
      simp only [clashingNames, hi]
    rw [hatt, hnames]
    exact @castable_invocation _ _ { msg with invocationInfo := some invo' } invo' hst ht hp
  | result result hi hr hst ht htype =>
    obtain ⟨a, ha, hp⟩ := toMetadata_stored hi hr h
    have hatt : stringAttachments hs msg ctx.originMessage = a.strings := by
      simp only [stringAttachments, hi, hr, ha, Option.map_some, Option.getD_some]
    simp only [hatt, clashingNames, hi, hr]
    exact castable_result ht hp
  | bodiless hi hr ht htype =>
    have hp := toMetadata_bodiless hi hr h
    simp [clashingNames, hi, hr, castable_bodiless ht hp]

end Clash

/-! ## Later calls -/

section Calls

variable (encodeMap : List (Object × Object) → Bytes)

inductive CodecCall
  | encode (mutation : Mutation) (buffer : Bytes)
  | onError (error : Error)

def perform (md : Metadata DubboAny) : CodecCall → Except Failure (Metadata DubboAny)
  | .encode mutation buffer => (encode encodeMap md mutation buffer).map Prod.fst
  | .onError error => (onError encodeMap md error).map fun _ => md

def later (md : Metadata DubboAny) (calls : List CodecCall) : Metadata DubboAny :=
  calls.foldl (fun md call => match perform encodeMap md call with
    | .ok md' => md'
    | .error _ => md) md

/-- The proxy encodes requests and responses; it may ask for an error reply to any message. -/
def CodecCall.Allowed (md : Metadata DubboAny) : CodecCall → Prop
  | .encode _ _ => md.messageType = .request ∨ md.messageType = .response
  | .onError _ => True

def Caught (r : Except Failure (Metadata DubboAny)) : Prop :=
  (∃ md, r = .ok md) ∨ ∃ what, r = .error (.envoyException what)

/-- After any calls, every further one returns or throws an `EnvoyException`. -/
def Survives (md : Metadata DubboAny) : Prop :=
  ∀ calls call, (∀ c ∈ call :: calls, CodecCall.Allowed md c) →
    Caught (perform encodeMap (later encodeMap md calls) call)

/-- What keeps the calls safe: the message converts back, to a message of its own type whose result
has an attachment. -/
structure Ready (t : MessageType) (md : Metadata DubboAny) : Prop where
  type : md.messageType = t
  converts : ∃ msg, toMsgMetadata md = .ok msg ∧ (t = .request → msg.messageType = .request) ∧
    (t = .response → msg.messageType = .response) ∧ ∀ r, msg.rpcResultInfo = some r → r.attachment ≠ none
  address : ∃ s, md.getString realServerAddress = .ok s

variable {encodeMap} {t : MessageType} {md : Metadata DubboAny}

theorem optional_put_ne {τ : Type} {cast : Any DubboAny → Option τ} {key key' : String} (v : Any DubboAny)
    (h : key' ≠ key) : optional cast (md.put key v) key' = optional cast md key' := by
  rw [optional, Metadata.getByKey_put, if_neg h, optional]

theorem required_put_ne {τ : Type} {cast : Any DubboAny → Option τ} {key key' : String} (v : Any DubboAny)
    (h : key' ≠ key) : required cast (md.put key v) key' = required cast md key' := by
  rw [required, Metadata.getByKey_put, if_neg h, required]

theorem getBool_put_ne {key key' : String} (v : Any DubboAny) (h : key' ≠ key) :
    (md.put key v).getBool key' = md.getBool key' := by
  rw [Metadata.getBool, Metadata.getByKey_put, if_neg h, Metadata.getBool]

/-- Storing a changed invocation under its name is seen as such by the next conversion. -/
theorem toMsgMetadata_put_invocation {msg : MessageMetadata} (h : toMsgMetadata md = .ok msg)
    (invo : Option RpcInvocation) :
    toMsgMetadata (md.put "InvocationInfo" (.other (.invocationInfo invo))) =
      .ok { msg with invocationInfo := invo } := by
  have hself : optional Cast.invocationInfo
      (md.put "InvocationInfo" (.other (.invocationInfo invo))) "InvocationInfo" =
      .ok (some invo) := by
    simp [optional, Metadata.getByKey_put, Cast.invocationInfo]
  obtain ⟨hid, -, hb, hc, hd, he, hf, hg, hi, hj⟩ := toMsgMetadata_iff.1 h
  refine toMsgMetadata_iff.2 ⟨hid, ⟨_, hself, rfl⟩, ?_, ?_, ?_, ?_, ?_, ?_, ?_, ?_⟩
  all_goals simpa (disch := decide) only [optional_put_ne, required_put_ne, getBool_put_ne]

theorem toMsgMetadata_put_result {msg : MessageMetadata} (h : toMsgMetadata md = .ok msg)
    (result : RpcResult) : toMsgMetadata (md.put "RpcResultInfo" (.other (.rpcResultInfo result))) =
      .ok { msg with rpcResultInfo := some result } := by
  have hself : optional Cast.rpcResultInfo (md.put "RpcResultInfo" (.other (.rpcResultInfo result)))
      "RpcResultInfo" = .ok (some result) := by
    simp [optional, Metadata.getByKey_put, Cast.rpcResultInfo]
  obtain ⟨hid, ha, -, hc, hd, he, hf, hg, hi, hj⟩ := toMsgMetadata_iff.1 h
  refine toMsgMetadata_iff.2 ⟨hid, ?_, hself, ?_, ?_, ?_, ?_, ?_, ?_, ?_⟩
  all_goals simpa (disch := decide) only [optional_put_ne, required_put_ne, getBool_put_ne]

theorem getString_put_ne {key key' : String} (v : Any DubboAny) (h : key' ≠ key) :
    (md.put key v).getString key' = md.getString key' := by
  rw [Metadata.getString, Metadata.getByKey_put, if_neg h, Metadata.getString]

theorem Ready.put_invocation (h : Ready t md) (invo : Option RpcInvocation) :
    Ready t (md.put "InvocationInfo" (.other (.invocationInfo invo))) := by
  obtain ⟨msg, hmsg, hreq, hresp, hatt⟩ := h.converts
  refine ⟨h.type, ⟨_, toMsgMetadata_put_invocation hmsg invo, hreq, hresp, hatt⟩, ?_⟩
  rw [getString_put_ne _ (by decide)]
  exact h.address

theorem Ready.put_result (h : Ready t md) {result : RpcResult} (ha : result.attachment ≠ none) :
    Ready t (md.put "RpcResultInfo" (.other (.rpcResultInfo result))) := by
  obtain ⟨msg, hmsg, hreq, hresp, -⟩ := h.converts
  refine ⟨h.type, ⟨_, toMsgMetadata_put_result hmsg result, hreq, hresp, ?_⟩, ?_⟩
  · intro r hr
    cases hr
    exact ha
  · rw [getString_put_ne _ (by decide)]
    exact h.address

theorem Ready.encodeRequest (h : Ready .request md) (mutation : Mutation) (buffer : Bytes) :
    ∃ r, encodeRequest encodeMap md mutation buffer = .ok r ∧ Ready .request r.1 := by
  obtain ⟨msg, hmsg, hreq, -, -⟩ := h.converts
  simp only [Dubbo.encodeRequest, hmsg, bind, Except.bind, protocolEncode, hreq rfl, pure, Except.pure]
  refine ⟨_, rfl, ?_⟩
  split
  · exact h.put_invocation _
  · exact h

theorem Ready.encodeResponse (h : Ready .response md) (mutation : Mutation) (buffer : Bytes) :
    ∃ r, encodeResponse encodeMap md mutation buffer = .ok r ∧ Ready .response r.1 := by
  obtain ⟨msg, hmsg, -, hresp, hatt⟩ := h.converts
  simp only [Dubbo.encodeResponse, hmsg, bind, Except.bind, protocolEncode, hresp rfl, pure, Except.pure]
  cases hr : msg.rpcResultInfo with
  | none => exact ⟨_, rfl, h⟩
  | some result =>
    obtain ⟨a, ha⟩ := Option.ne_none_iff_exists'.1 (hatt result hr)
    simp only [ha]
    split
    · exact ⟨_, rfl, h⟩
    · exact ⟨_, rfl, h.put_result (by simp)⟩

theorem Ready.onError (h : Ready t md) (error : Error) : ∃ bytes, onError encodeMap md error = .ok bytes := by
  obtain ⟨msg, hmsg, -, -, -⟩ := h.converts
  simp only [Dubbo.onError, hmsg, bind, Except.bind, protocolEncode]
  exact ⟨_, rfl⟩

theorem Ready.perform (h : Ready t md) {call : CodecCall} (hcall : call.Allowed md) :
    ∃ md', perform encodeMap md call = .ok md' ∧ Ready t md' := by
  cases call with
  | onError error =>
    obtain ⟨bytes, hb⟩ : ∃ bytes, Dubbo.onError encodeMap md error = .ok bytes := h.onError error
    exact ⟨md, by simp [Dubbo.perform, hb, Except.map], h⟩
  | encode mutation buffer =>
    obtain ⟨s, haddr⟩ := h.address
    simp only [Dubbo.perform, encode, haddr, bind, Except.bind]
    rcases hcall with ht | ht
    · obtain rfl : t = .request := h.type.symm.trans ht
      obtain ⟨r, hr, hready⟩ : ∃ r, Dubbo.encodeRequest encodeMap md mutation buffer = .ok r ∧ _ :=
        h.encodeRequest mutation buffer
      exact ⟨r.1, by simp [ht, hr, Except.map], hready⟩
    · obtain rfl : t = .response := h.type.symm.trans ht
      obtain ⟨r, hr, hready⟩ : ∃ r, Dubbo.encodeResponse encodeMap md mutation buffer = .ok r ∧ _ :=
        h.encodeResponse mutation buffer
      exact ⟨r.1, by simp [ht, hr, Except.map], hready⟩

theorem Ready.later (h : Ready t md) {calls : List CodecCall} (hcalls : ∀ c ∈ calls, c.Allowed md) :
    Ready t (later encodeMap md calls) := by
  induction calls generalizing md with
  | nil => exact h
  | cons call calls ih =>
    obtain ⟨md', hperform, hready⟩ : ∃ md', Dubbo.perform encodeMap md call = .ok md' ∧ _ :=
      h.perform (hcalls call (by simp))
    have hstep : Dubbo.later encodeMap md (call :: calls) = Dubbo.later encodeMap md' calls := by
      rw [Dubbo.later, List.foldl_cons, hperform]
      rfl
    rw [hstep]
    refine ih hready fun c hc => ?_
    have hallowed := hcalls c (by simp [hc])
    cases c with
    | encode mutation buffer =>
      rw [CodecCall.Allowed, hready.type, ← h.type]
      exact hallowed
    | onError error => trivial

theorem Ready.survives (h : Ready t md) : Survives encodeMap md := by
  intro calls call hcalls
  have hlater : Ready t (Dubbo.later encodeMap md calls) := h.later fun c hc => hcalls c (by simp [hc])
  have hallowed : call.Allowed (Dubbo.later encodeMap md calls) := by
    have := hcalls call (by simp)
    cases call with
    | encode mutation buffer =>
      rw [CodecCall.Allowed, hlater.type, ← h.type]
      exact this
    | onError error => trivial
  obtain ⟨md', hmd', -⟩ : ∃ md', Dubbo.perform encodeMap _ call = .ok md' ∧ _ := hlater.perform hallowed
  exact .inl ⟨md', hmd'⟩

theorem Survives.castable (h : Survives encodeMap md) : Castable md := by
  rw [← toMsgMetadata_ok_iff]
  cases hmsg : toMsgMetadata md with
  | ok msg => exact ⟨msg, rfl⟩
  | error e =>
    have hcall := h [] (.onError ⟨.unspecified, ""⟩) (by simp [CodecCall.Allowed])
    have hperform : perform encodeMap md (.onError ⟨.unspecified, ""⟩) = .error e := by
      simp only [perform, onError, hmsg, bind, Except.bind, Except.map]
    rw [show Dubbo.later encodeMap md [] = md from rfl, hperform] at hcall
    rcases hcall with ⟨md', hmd'⟩ | ⟨what, hwhat⟩
    · cases hmd'
    · rcases toMsgMetadata_error hmsg with rfl | ⟨_, rfl⟩ <;> cases hwhat

end Calls

section Decoded

variable {hs : Hessian2} {ctx : Context} {t : MessageType} {md : Metadata DubboAny} {msg : MessageMetadata}

theorem getString_ok (h : ∀ v, md.getByKey realServerAddress = some v → ∃ s, v = .string s) :
    ∃ s, md.getString realServerAddress = .ok s := by
  unfold Metadata.getString
  cases hv : md.getByKey realServerAddress with
  | none => exact ⟨"", rfl⟩
  | some v =>
    obtain ⟨s, rfl⟩ := h v hv
    exact ⟨s, rfl⟩

/-- The lookups behind `Ready`, for a message whose properties are known. -/
theorem ready_of_lookups (hc : Castable md) (htype : md.messageType = msg.messageType.toMessageType)
    (hlookup : md.getByKey "MessageType" = some (.other (.messageType msg.messageType)))
    (hresult : ∀ r, md.getByKey "RpcResultInfo" = some (.other (.rpcResultInfo r)) → r.attachment ≠ none)
    (haddr : ∀ v, md.getByKey realServerAddress = some v → ∃ s, v = .string s) : Ready md.messageType md := by
  obtain ⟨msg', hmsg'⟩ := toMsgMetadata_ok_iff.2 hc
  have hconv := toMsgMetadata_iff.1 hmsg'
  have hty := hconv.messageType
  have hres := hconv.rpcResultInfo
  have hsame : msg'.messageType = msg.messageType := by
    simpa [required, hlookup, Cast.messageType, eq_comm] using hty
  refine ⟨rfl, ⟨msg', hmsg', ?_, ?_, ?_⟩, getString_ok haddr⟩
  · rw [htype, hsame]
    cases msg.messageType <;> simp [DubboMessageType.toMessageType]
  · rw [htype, hsame]
    cases msg.messageType <;> simp [DubboMessageType.toMessageType]
  · intro r hr
    rw [hr] at hres
    unfold optional at hres
    split at hres
    · cases hres
    · rename_i v hv
      split at hres
      · rename_i r' hcast
        cases hres
        refine hresult r ?_
        rw [hv]
        revert hcast
        unfold Cast.rpcResultInfo
        split
        · intro hcast
          cases hcast
          rfl
        · intro hcast
          cases hcast
      · cases hres

theorem string_of_putStrings {b : Metadata DubboAny} {kvs : List (String × String)} {key : String}
    (hb : b.getByKey key = none) {v : Any DubboAny} (hv : (b.putStrings kvs).getByKey key = some v) :
    ∃ s, v = .string s := by
  obtain ⟨hin, hout⟩ := Metadata.getByKey_putStrings b kvs key
  by_cases hmem : key ∈ kvs.map Prod.fst
  · obtain ⟨s, hs⟩ := hin hmem
    exact ⟨s, Option.some.inj (hv.symm.trans hs)⟩
  · rw [hout hmem, hb] at hv
    cases hv

theorem ready_of_castable (hmsg : ReadMessage msg) (h : toMetadata hs msg ctx (ofType t) = .ok md)
    (hc : Castable md) : Ready md.messageType md := by
  have hclash := (castable_iff hmsg h).1 hc
  have hty := (toMetadata_fields h).1
  cases hmsg with
  | invocation invo hi hr hst ht htype =>
    obtain ⟨invo', -, hp⟩ := toMetadata_invocation hi hr h
    have hw : Written (putInvocation (ofType t) invo') { msg with invocationInfo := some invo' } _ :=
      putMessage_written ht
    refine ready_of_lookups hc hty ?_ ?_ ?_
    · rw [getByKey_of_properties hp, hw.messageType]
    · intro r hr'
      rw [getByKey_of_properties hp, hw.rpcResultInfo] at hr'
      obtain ⟨s, hs⟩ :=
        string_of_putStrings (by simp [Metadata.getByKey_mk, Metadata.putString, Metadata.getByKey_put]) hr'
      cases hs
    · intro v hv
      rw [getByKey_of_properties hp, hw.address] at hv
      exact string_of_putStrings
        (by simp [Metadata.getByKey_mk, Metadata.putString, Metadata.getByKey_put, realServerAddress]) hv
  | result result hi hr hst ht htype =>
    obtain ⟨a, ha, hp⟩ := toMetadata_stored hi hr h
    have hw : Written (ofType t) msg _ := putMessage_written ht
    have hmem : "MessageType" ∉ a.strings.map Prod.fst := by
      simp only [stringAttachments, clashingNames, hi, hr, ha, Option.map_some, Option.getD_some] at hclash
      exact hclash "MessageType" (by simp)
    refine ready_of_lookups hc hty ?_ ?_ ?_
    · rw [getByKey_of_properties hp, Metadata.getByKey_put, if_neg (by decide),
        (Metadata.getByKey_putStrings _ _ _).2 hmem, hw.messageType]
    · intro r hr'
      rw [getByKey_of_properties hp, Metadata.getByKey_put, if_pos rfl] at hr'
      cases hr'
      simp [ha]
    · intro v hv
      rw [getByKey_of_properties hp, Metadata.getByKey_put, if_neg (by decide)] at hv
      exact string_of_putStrings (by rw [hw.address, Metadata.getByKey_ofType]) hv
  | bodiless hi hr ht htype =>
    have hp := toMetadata_bodiless hi hr h
    have hw : Written (ofType t) msg _ := putMessage_written ht
    refine ready_of_lookups hc hty ?_ ?_ ?_
    · rw [getByKey_of_properties hp, hw.messageType]
    · simp [getByKey_of_properties hp, hw.rpcResultInfo]
    · simp [getByKey_of_properties hp, hw.address]

/-- The machine after a frame: the Dubbo message it holds, and the frame's bytes in the context. -/
def readFrame (hs : Hessian2) (buffer : Bytes) : DecoderStateMachine :=
  match DecoderStateMachine.run hs {} buffer with
  | .done m _ _ => m
  | _ => {}

/-- No string attachment of the frame's message has a name that clashes with the codec's own. -/
def NoClash (hs : Hessian2) (buffer : Bytes) : Prop :=
  let m := readFrame hs buffer
  ∀ key ∈ clashingNames m.metadata,
    key ∉ (stringAttachments hs m.metadata m.context.originMessage).map Prod.fst

theorem castable_iff_noClash {buffer rest : Bytes} {c : DubboCodec}
    (h : DubboCodec.decode hs {} buffer (ofType t) = .done c md rest) : Castable md ↔ NoClash hs buffer := by
  obtain ⟨m, hrun, hmd⟩ := decode_done h
  have hread : readFrame hs buffer = m := by rw [readFrame, hrun]
  rw [NoClash, hread, ← castable_iff (run_readMessage hrun) hmd]

theorem ready_of_noClash {buffer rest : Bytes} {c : DubboCodec}
    (h : DubboCodec.decode hs {} buffer (ofType t) = .done c md rest) (hclash : NoClash hs buffer) :
    Ready md.messageType md := by
  obtain ⟨m, hrun, hmd⟩ := decode_done h
  exact ready_of_castable (run_readMessage hrun) hmd ((castable_iff_noClash h).2 hclash)

/-- Every call on an accepted message returns or throws an `EnvoyException`, in every sequence of
calls, exactly when no attachment's name clashes. -/
theorem attachments_survive_iff (encodeMap : List (Object × Object) → Bytes) {buffer rest : Bytes}
    {c : DubboCodec} (h : DubboCodec.decode hs {} buffer (ofType t) = .done c md rest) :
    Survives encodeMap md ↔ NoClash hs buffer :=
  ⟨fun hsurvives => (castable_iff_noClash h).1 hsurvives.castable, fun hclash =>
    (ready_of_noClash h hclash).survives⟩

theorem run_request (hl : hs.Local) {f : Frame} (hf : f.WellFormedRequest hs) :
    DecoderStateMachine.run hs {} f.bytes = .done ⟨.done, f.read hs, f.wholeContext⟩ () [] :=
  show DecoderStateMachine.run hs {} ([] ++ f.bytes) = _ from
    SeenBy.run_done (hf.readable hl) resumes_idle (List.append_nil f.bytes).symm

theorem decode_request (hl : hs.Local) {f : Frame} (hf : f.WellFormedRequest hs) :
    DubboCodec.decode hs {} f.bytes (ofType .request) = .done {} (frameMetadata hs f.bytes) [] :=
  (resumes_idle.decode_done hl hf (List.append_nil f.bytes).symm).1

/-- The properties of a request: interface and method, the attachments, then the codec's own. -/
theorem request_properties (hl : hs.Local) {f : Frame} (hf : f.WellFormedRequest hs) (hev : f.isEvent = false)
    {invo : RpcInvocation} (hinvo : f.invocation hs = .ok invo) :
    (frameMetadata hs f.bytes).properties = (putMessage (putInvocation (ofType .request) invo)
      { f.headed with invocationInfo := some invo }).properties := by
  obtain ⟨m, hrun, hmd⟩ := decode_done (decode_request hl hf)
  rw [run_request hl hf] at hrun
  cases hrun
  obtain ⟨invo₀, invo', -, hassign, hinvo', hread⟩ := hf.read_invocation hev
  obtain rfl : invo' = invo := Except.ok.inj (hinvo'.symm.trans hinvo)
  dsimp only at hmd
  rw [hread] at hmd
  obtain ⟨invo'', hassign', hp⟩ := toMetadata_invocation rfl rfl hmd
  obtain rfl : invo' = invo'' := Except.ok.inj (hassign.symm.trans hassign')
  exact hp

theorem noClash_request (hl : hs.Local) {f : Frame} (hf : f.WellFormedRequest hs) (hev : f.isEvent = false)
    {invo : RpcInvocation} (hinvo : f.invocation hs = .ok invo) :
    NoClash hs f.bytes ↔ ∀ key ∈ ["RpcResultInfo", "Timeout", "ResponseStatus"],
      key ∉ ((invo.attachment.map Attachment.strings).getD []).map Prod.fst := by
  have hrun := run_request hl hf
  obtain ⟨invo₀, invo', -, hassign, hinvo', hread⟩ := hf.read_invocation hev
  obtain rfl : invo' = invo := Except.ok.inj (hinvo'.symm.trans hinvo)
  simp only [NoClash, readFrame, hrun, clashingNames, stringAttachments, hread, Frame.wholeContext, hassign]

end Decoded

/-- A call with the attachment `{"Timeout": "1"}`. -/
def timeoutCall : Frame :=
  callFrame 0xc2 [0x48, 0x07, 0x54, 0x69, 0x6d, 0x65, 0x6f, 0x75, 0x74, 0x01, 0x31, 0x5a] (by decide)

def timeoutInvocation : RpcInvocation :=
  { serviceName := "s", methodName := "m", serviceVersion := "0", delayedFrom := 24, parameters := some [],
    attachment := some { attachment := [(.string "Timeout", .string "1")], attachmentOffset := 25 } }

theorem timeoutCall_invocation : timeoutCall.invocation fragment = .ok timeoutInvocation :=
  callFrame_invocation rfl

theorem timeoutCall_wellFormed : timeoutCall.WellFormedRequest fragment :=
  ⟨rfl, rfl, by decide, fun _ => ⟨_, timeoutCall_invocation⟩⟩

/-- The attachment `Timeout` survives as a string, and `toMsgMetadata` casts it to a number. -/
theorem timeoutCall_converted :
    toMsgMetadata (frameMetadata fragment timeoutCall.bytes) = .error .badAnyCast ∧
      (frameMetadata fragment timeoutCall.bytes).getString realServerAddress = .ok "" := by
  have hp := request_properties fragment_local timeoutCall_wellFormed rfl timeoutCall_invocation
  have hw : Written (putInvocation (ofType .request) timeoutInvocation)
      { timeoutCall.headed with invocationInfo := some timeoutInvocation } _ := putMessage_written rfl
  constructor
  · simp only [toMsgMetadata, optional, required, getByKey_of_properties hp, hw.invocationInfo,
      hw.rpcResultInfo, hw.protocolType, hw.protocolVersion, hw.messageType, hw.timeout]
    rfl
  · simp only [Metadata.getString, getByKey_of_properties hp, hw.address]
    rfl

/-- The error reply the proxy wants to send ends in a `bad_any_cast`. -/
theorem timeout_attachment_breaks :
    DubboCodec.decode fragment {} timeoutCall.bytes (ofType .request) =
        .done {} (frameMetadata fragment timeoutCall.bytes) [] ∧
      onError encodeShortMap (frameMetadata fragment timeoutCall.bytes) ⟨.unspecified, ""⟩ =
        .error .badAnyCast ∧
      ¬ Survives encodeShortMap (frameMetadata fragment timeoutCall.bytes) := by
  have hdecode := decode_request fragment_local timeoutCall_wellFormed
  have hconvert := timeoutCall_converted.1
  refine ⟨hdecode, ?_, fun h => ?_⟩
  · simp only [onError, hconvert]
    rfl
  · obtain ⟨msg, hmsg⟩ := toMsgMetadata_ok_iff.2 h.castable
    rw [hconvert] at hmsg
    cases hmsg

/-- A call with the attachment `{"k": "v"}` survives every sequence of calls. -/
theorem plain_attachment_survives :
    ∃ md, DubboCodec.decode fragment {} (callFrame 0xc2 [0x48, 0x01, 0x6b, 0x01, 0x76, 0x5a]
      (by decide)).bytes
        (ofType .request) = .done {} md [] ∧ Survives encodeShortMap md := by
  have hinvo : (callFrame 0xc2 [0x48, 0x01, 0x6b, 0x01, 0x76, 0x5a] (by decide)).invocation
    fragment = _ := callFrame_invocation rfl
  have hf : (callFrame 0xc2 [0x48, 0x01, 0x6b, 0x01, 0x76, 0x5a] (by decide)).WellFormedRequest fragment :=
    ⟨rfl, rfl, by decide, fun _ => ⟨_, hinvo⟩⟩
  have hdecode := decode_request fragment_local hf
  refine ⟨_, hdecode, (attachments_survive_iff _ hdecode).2 ?_⟩
  rw [noClash_request fragment_local hf rfl hinvo]
  simp [Attachment.strings, Object.toString]

end MetaProtocolProxy.Dubbo
