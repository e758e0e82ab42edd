import MetaProtocolProxy.Dubbo.Attachments
/-
# Storing a message and reading it back (dubbo_codec.cc:157-289, metadata.h)

`toMetadata` stores the fields of a `MessageMetadata` as properties, each a `std::any`;
`toMsgMetadata` reads them with `any_cast`, which wants the very type that was stored. The timeout
is stored as what `timeout()` returns, an `optional<uint32_t>`, and read as a `uint32_t`: a message
with a timeout never comes back. Without one every field does, if `toMetadata` returns at all: it
calls the invocation's attachment callback, which may throw, and takes the result's attachment,
which may be null.

The invocation that comes back is the object that went in (the pointer is stored). Its attachment
has been read by then, so it is compared as it is after `toMetadata`.
-/
namespace MetaProtocolProxy.Dubbo

def codecKeys : List String :=
  ["interface", "method", "InvocationInfo", "ProtocolType", "ProtocolVersion", "MessageType",
    "Timeout", "TwoWay", "SerializationType", "ResponseStatus", "RpcResultInfo"]

section Store

variable (hs : Hessian2) (msg : MessageMetadata) (originMessage : Bytes)

/-- The invocation once its attachment has been asked for. -/
def readInvocation : Except Failure (Option RpcInvocation) :=
  match msg.invocationInfo with
  | some invo => (invo.assignAttachmentIfNeed hs originMessage).map some
  | none => .ok none

def storedInvocation (t : MessageType) : Option RpcInvocation → Metadata DubboAny
  | some invo => putInvocation (Metadata.ofType t) invo
  | none => Metadata.ofType t

def storedResult (md : Metadata DubboAny) : Option RpcResult → Metadata DubboAny
  | some result =>
    (md.putStrings ((result.attachment.map Attachment.strings).getD [])).put "RpcResultInfo"
      (.other (.rpcResultInfo result))
  | none => md

/-- Every result that is set has an attachment. -/
def ResultAttached : Prop := ∀ result, msg.rpcResultInfo = some result → result.attachment ≠ none

end Store

variable {hs : Hessian2} {msg : MessageMetadata} {ctx : Context} {t : MessageType} {md : Metadata DubboAny}

theorem putResult_iff {base : Metadata DubboAny} {result : RpcResult} :
    putResult base result = .ok md ↔ result.attachment ≠ none ∧ md = storedResult base (some result) := by
  unfold putResult storedResult
  cases ha : result.attachment with
  | none => simp
  | some a => simp [ha, eq_comm]

/-- The fields `toMetadata` sets last; no property is one of them. -/
def finish (msg : MessageMetadata) (ctx : Context) (md : Metadata DubboAny) : Metadata DubboAny :=
  let md := { md with messageType := msg.messageType.toMessageType }
  let md : Metadata DubboAny := match msg.responseStatus with
    | some status => { md with responseStatus := if status = .ok then .ok else .error }
    | none => md
  { md with
    headerSize := ctx.headerSize, bodySize := ctx.bodySize
    originMessage := md.originMessage ++ ctx.originMessage }

theorem finish_properties (md : Metadata DubboAny) : (finish msg ctx md).properties = md.properties := by
  unfold finish
  cases msg.responseStatus <;> rfl

theorem finish_requestId (md : Metadata DubboAny) : (finish msg ctx md).requestId = md.requestId := by
  unfold finish
  cases msg.responseStatus <;> rfl

theorem toMetadata_eq : toMetadata hs msg ctx (Metadata.ofType t) =
    (readInvocation hs msg ctx.originMessage >>= fun invo =>
      (match msg.rpcResultInfo with
        | some result =>
          putResult (putMessage (storedInvocation t invo) { msg with invocationInfo := invo }) result
        | none =>
          .ok (putMessage (storedInvocation t invo) { msg with invocationInfo := invo })) >>= fun md =>
      .ok (finish msg ctx md)) := by
  unfold toMetadata readInvocation storedInvocation
  cases msg.invocationInfo <;> cases msg.rpcResultInfo <;> rfl

theorem putMessage_requestId (md : Metadata DubboAny) : (putMessage md msg).requestId = msg.requestId := by
  unfold putMessage
  cases msg.timeout <;> cases msg.responseStatus <;> rfl

theorem storedResult_requestId (md : Metadata DubboAny) (result : Option RpcResult) :
    (storedResult md result).requestId = md.requestId := by
  cases result with
  | none => rfl
  | some result => rw [storedResult, Metadata.put_requestId, Metadata.putStrings_requestId]

def stored (t : MessageType) (msg : MessageMetadata) (invo : Option RpcInvocation) : Metadata DubboAny :=
  storedResult (putMessage (storedInvocation t invo) { msg with invocationInfo := invo }) msg.rpcResultInfo

theorem stored_requestId (invo : Option RpcInvocation) : (stored t msg invo).requestId = msg.requestId := by
  rw [stored, storedResult_requestId, putMessage_requestId]

/-- `toMetadata` returns when the invocation can be read and the result is attached, and only
then. -/
theorem toMetadata_iff : toMetadata hs msg ctx (Metadata.ofType t) = .ok md ↔
    ∃ invo, readInvocation hs msg ctx.originMessage = .ok invo ∧ ResultAttached msg ∧
      md = finish msg ctx (stored t msg invo) := by
  rw [toMetadata_eq]
  simp only [bind_eq_ok, stored, ResultAttached]
  cases hresult : msg.rpcResultInfo with
  | none => simp [storedResult, eq_comm]
  | some result =>
    constructor
    · rintro ⟨invo, hinvo, md₁, hput, hmd⟩
      obtain ⟨hattached, rfl⟩ := putResult_iff.1 hput
      refine ⟨invo, hinvo, ?_, (Except.ok.inj hmd).symm⟩
      intro result' hsame
      cases hsame
      exact hattached
    · rintro ⟨invo, hinvo, hattached, rfl⟩
      exact ⟨invo, hinvo, _, putResult_iff.2 ⟨hattached result rfl, rfl⟩, rfl⟩

/-! ### What is found again -/

def resultStrings (result : Option RpcResult) : List (String × String) :=
  match result with
  | some result => (result.attachment.map Attachment.strings).getD []
  | none => []

def invocationStrings (invo : Option RpcInvocation) : List (String × String) :=
  match invo with
  | some invo => (invo.attachment.map Attachment.strings).getD []
  | none => []

theorem getByKey_storedInvocation {invo : Option RpcInvocation} {key : String}
    (hkey : key ∉ (invocationStrings invo).map Prod.fst) (hi : key ≠ "interface") (hm : key ≠ "method") :
    (storedInvocation t invo).getByKey key = none := by
  cases invo with
  | none => rfl
  | some invo =>
    refine ((Metadata.getByKey_putStrings _ (invocationStrings (some invo)) key).2 hkey).trans ?_
    simp [Metadata.putString, Metadata.getByKey_put, Metadata.getByKey_mk, hi, hm]

theorem getByKey_storedResult {base : Metadata DubboAny} {result : Option RpcResult} {key : String}
    (hkey : key ∉ (resultStrings result).map Prod.fst) :
    (storedResult base result).getByKey key =
      if key = "RpcResultInfo" then (result.map fun r => .other (.rpcResultInfo r)).or (base.getByKey key)
      else base.getByKey key := by
  cases result with
  | none => simp [storedResult]
  | some result =>
    have hstrings := (Metadata.getByKey_putStrings base (resultStrings (some result)) key).2 hkey
    rw [storedResult, Metadata.getByKey_put]
    by_cases hname : key = "RpcResultInfo"
    · simp [hname]
    · simp only [hname, if_false]
      exact hstrings

theorem getByKey_putMessage_timeout (base : Metadata DubboAny) :
    (putMessage base msg).getByKey "Timeout" =
      if msg.timeout.isSome then some (.other (.timeout msg.timeout)) else base.getByKey "Timeout" := by
  unfold putMessage
  cases msg.timeout <;> cases msg.responseStatus <;> simp [Metadata.getByKey_put, Metadata.getByKey_mk]

/-- No string attachment has a name the codec uses as a key. -/
def KeysApart (msg : MessageMetadata) (invo : Option RpcInvocation) : Prop :=
  ∀ key ∈ codecKeys, key ∉ (invocationStrings invo).map Prod.fst ∧
    key ∉ (resultStrings msg.rpcResultInfo).map Prod.fst

theorem lookup_stored {invo : Option RpcInvocation} (hkeys : KeysApart msg invo) {key : String}
    (hkey : key ∈ codecKeys)
    (hname : key ≠ "RpcResultInfo") : (finish msg ctx (stored t msg invo)).getByKey key =
      (putMessage (storedInvocation t invo) { msg with invocationInfo := invo }).getByKey key := by
  rw [getByKey_of_properties (finish_properties _), stored,
    getByKey_storedResult (hkeys key hkey).2, if_neg hname]

/-- Without a timeout, `toMsgMetadata` finds the message that was stored. -/
theorem converts_stored {invo : Option RpcInvocation} (hkeys : KeysApart msg invo)
    (htimeout : msg.timeout = none) :
    Converts (finish msg ctx (stored t msg invo)) { msg with invocationInfo := invo } := by
  have hw : Written (storedInvocation t invo) { msg with invocationInfo := invo }
      (putMessage (storedInvocation t invo) { msg with invocationInfo := invo }) :=
        putMessage_written htimeout
  have hnone : ∀ key ∈ codecKeys, key ≠ "interface" → key ≠ "method" →
    (storedInvocation t invo).getByKey key = none :=
    fun key hkey hi hm => getByKey_storedInvocation (hkeys key hkey).1 hi hm
  have hresult : (finish msg ctx (stored t msg invo)).getByKey "RpcResultInfo" =
      msg.rpcResultInfo.map fun r => .other (.rpcResultInfo r) := by
    rw [getByKey_of_properties (finish_properties _), stored,
      getByKey_storedResult (hkeys _ (by decide)).2, if_pos rfl,
      hw.rpcResultInfo, hnone _ (by decide) (by decide) (by decide), Option.or_none]
  have hlookup := fun key (hkey : key ∈ codecKeys) (hname : key ≠ "RpcResultInfo") =>
    @lookup_stored msg ctx t invo hkeys key hkey hname
  constructor
  case requestId => rw [finish_requestId, stored_requestId]
  case invocationInfo =>
    refine ⟨some invo, ?_, rfl⟩
    rw [optional, hlookup _ (by decide) (by decide), hw.invocationInfo]
    rfl
  case rpcResultInfo =>
    rw [optional, hresult]
    cases msg.rpcResultInfo <;> rfl
  case protocolType =>
    rw [required, hlookup _ (by decide) (by decide), hw.protocolType]
    rfl
  case protocolVersion =>
    rw [required, hlookup _ (by decide) (by decide), hw.protocolVersion]
    rfl
  case messageType =>
    rw [required, hlookup _ (by decide) (by decide), hw.messageType]
    rfl
  case timeout =>
    rw [optional, hlookup _ (by decide) (by decide), hw.timeout, hnone _ (by decide) (by decide) (by decide)]
    exact congrArg Except.ok htimeout.symm
  case isTwoWay => rw [Metadata.getBool, hlookup _ (by decide) (by decide), hw.isTwoWay]
  case serializationType =>
    rw [required, hlookup _ (by decide) (by decide), hw.serializationType]
    rfl
  case responseStatus =>
    rw [optional, hlookup _ (by decide) (by decide), hw.responseStatus,
      hnone _ (by decide) (by decide) (by decide), Option.or_none]
    cases msg.responseStatus <;> rfl

/-- With a timeout, it throws: an `optional<uint32_t>` is not a `uint32_t`. -/
theorem not_converts_timeout {invo : Option RpcInvocation} (hkeys : KeysApart msg invo)
    (htimeout : msg.timeout ≠ none)
    (msg' : MessageMetadata) : ¬ Converts (finish msg ctx (stored t msg invo)) msg' := by
  intro hconverts
  obtain ⟨n, hn⟩ := Option.ne_none_iff_exists'.1 htimeout
  have hcast := hconverts.timeout
  rw [optional, lookup_stored hkeys (by decide) (by decide), getByKey_putMessage_timeout] at hcast
  simp [hn, Cast.timeout] at hcast

/-- `toMetadata` into a fresh metadata and `toMsgMetadata` out of it return, and give the same
message. -/
def Recovered (hs : Hessian2) (msg : MessageMetadata) (ctx : Context) (t : MessageType) : Prop :=
  ∃ md invo, toMetadata hs msg ctx (Metadata.ofType t) = .ok md ∧
    readInvocation hs msg ctx.originMessage = .ok invo ∧
    toMsgMetadata md = .ok { msg with invocationInfo := invo }

/-- **A message is recovered exactly if it has no timeout**, its invocation's attachment can be read
and its result has one. -/
theorem recovered_iff (hkeys : ∀ invo, readInvocation hs msg ctx.originMessage = .ok invo →
      KeysApart msg invo) :
    Recovered hs msg ctx t ↔
      msg.timeout = none ∧ (∃ invo, readInvocation hs msg ctx.originMessage = .ok invo) ∧
      ResultAttached msg := by
  constructor
  · rintro ⟨md, invo, hstore, hinvo, hback⟩
    obtain ⟨invo', hinvo', hattached, rfl⟩ := toMetadata_iff.1 hstore
    refine ⟨?_, ⟨invo, hinvo⟩, hattached⟩
    by_contra htimeout
    exact not_converts_timeout (hkeys invo' hinvo') htimeout _ (toMsgMetadata_iff.1 hback)
  · rintro ⟨htimeout, ⟨invo, hinvo⟩, hattached⟩
    exact ⟨_, invo, toMetadata_iff.2 ⟨invo, hinvo, hattached, rfl⟩, hinvo,
      toMsgMetadata_iff.2 (converts_stored (hkeys invo hinvo) htimeout)⟩

/-- A call with the attachment `k`, read already. -/
def readCall : MessageMetadata :=
  { invocationInfo := some {
      serviceName := "s", methodName := "m", serviceVersion := "0", delayedFrom := 24,
      attachment := some { attachment := [(.string "k", .string "v")], attachmentOffset := 24 } }
    requestId := 7, isTwoWay := true }

theorem readCall_keysApart (timeout : Option Nat) (invo : Option RpcInvocation)
    (h : readInvocation fragment { readCall with timeout } [] = .ok invo) :
    KeysApart { readCall with timeout } invo := by
  cases h
  show ∀ key ∈ codecKeys, key ∉ ["k"] ∧ key ∉ ([] : List String)
  decide

theorem readCall_recovered : Recovered fragment readCall {} .request :=
  (recovered_iff (readCall_keysApart none)).2 ⟨rfl, ⟨_, rfl⟩, fun _ hresult => nomatch hresult⟩

theorem timed_call_not_recovered :
    ¬ Recovered fragment { readCall with timeout := some 1000 } {} .request := by
  rintro ⟨md, invo, hstore, -, hback⟩
  obtain ⟨invo', hinvo', -, rfl⟩ := toMetadata_iff.1 hstore
  exact not_converts_timeout (readCall_keysApart _ invo' hinvo') (by decide) _ (toMsgMetadata_iff.1 hback)

end MetaProtocolProxy.Dubbo
