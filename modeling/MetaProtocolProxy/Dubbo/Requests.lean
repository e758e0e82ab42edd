import MetaProtocolProxy.Dubbo.Locality
import MetaProtocolProxy.Dubbo.Reading
import MetaProtocolProxy.Receive
/-
# Dubbo requests off the wire

Requests, one-way requests and heartbeats are frames in the sense of `Framing.IsFrame`, since they
are `Readable`: a header sets nothing but the id and the type, so a request's header can be read
again. The body is read in place, with later frames behind it, and that is where `Hessian2.Local`
is needed.

`requests_received`: however a stream of requests is cut into chunks, the connection manager
gets one call for each, with what that frame alone says.
-/
namespace MetaProtocolProxy.Dubbo

open Bytes
open Framing (IsFrame)

namespace Frame

variable (f : Frame)

def requestType : DubboMessageType :=
  if f.isEvent then .heartbeatRequest else if hasMask f.flag twoWayMask then .request else .oneway

/-- The metadata a request's header makes. -/
def headed : MessageMetadata := { requestId := ofBE f.id, messageType := f.requestType }

/-- The invocation a request carries, with the parameters and the attachment that are read from the
message on first use. -/
def invocation (hs : Hessian2) : Except Failure RpcInvocation := do
  let invo ← deserializeRpcInvocation hs f.body f.headedContext
  invo.assignAttachmentIfNeed hs f.bytes

/-- The message the machine makes of a request. -/
def read (hs : Hessian2) : MessageMetadata :=
  { f.headed with
    invocationInfo :=
      if f.isEvent then none else (deserializeRpcInvocation hs f.body f.headedContext).toOption }

/-- The context once the whole message is taken. -/
def wholeContext : Context := { f.context with originMessage := f.bytes }

/-- A request, a one-way request or a heartbeat request, with a body that the serializer accepts. -/
structure WellFormedRequest (hs : Hessian2) (f : Frame) : Prop where
  isRequest : f.isRequest = true
  serialization : (f.flag &&& serializationTypeMask).toNat = 2
  size : f.body.length ≤ maxBodySize
  accepted : f.isEvent = false → ∃ invo, f.invocation hs = .ok invo

end Frame

def Blank (md : MessageMetadata) : Prop := md = { requestId := md.requestId, messageType := md.messageType }

theorem Blank.fresh : Blank {} := rfl

theorem Blank.headed (f : Frame) : Blank f.headed := rfl

section Header

variable {hs : Hessian2} {f : Frame}

theorem Frame.WellFormedRequest.decodeHeader (hf : f.WellFormedRequest hs) {md : MessageMetadata}
    (hmd : Blank md) : decodeHeader f.header md = (f.headed, .ok (some f.context)) := by
  have hflag : peekByte flagOffset f.header = f.flag := rfl
  have hparsed : f.parsed md = (f.headed, .ok ()) := by
    rw [hmd, Frame.parsed, if_pos hf.isRequest]
    simp only [parseRequestInfoFromBuffer, hflag, hf.serialization, SerializationType.ofBits, Frame.headed,
      Frame.requestType]
    cases f.isEvent <;> cases hasMask f.flag twoWayMask <;> rfl
  exact f.decodeHeader_sized hf.size hparsed

theorem Frame.headed_beat (f : Frame) :
    (f.headed.messageType = .heartbeatRequest ∨ f.headed.messageType = .heartbeatResponse) ↔
      f.isEvent = true := by
  simp only [Frame.headed, Frame.requestType]
  cases f.isEvent <;> cases hasMask f.flag twoWayMask <;> simp

end Header

/-- How the codec has seen a piece of a request, whose header it may read again. -/
abbrev Resumes : Bytes → DubboCodec → Bytes → Prop := ResumesBy fun _ => Blank

theorem resumes_idle : Resumes [] {} [] := .header rfl rfl rfl

theorem Resumes.empty {c : DubboCodec} {buf : Bytes} (h : Resumes [] c buf) : buf = [] := by
  cases h with
  | header _ hbuf _ => exact hbuf
  | body _ hp => exact (List.append_eq_nil_iff.1 hp.symm).2

section Machine

variable {hs : Hessian2} {f : Frame} {p buf x rest : Bytes} {m : DecoderStateMachine}

theorem Frame.read_event (hev : f.isEvent = true) : f.read hs = f.headed := by
  simp only [Frame.read, hev, if_true]
  rfl

/-- The invocation of a request, before and after its parameters and attachment are read. -/
theorem Frame.WellFormedRequest.read_invocation (hf : f.WellFormedRequest hs) (hev : f.isEvent = false) :
    ∃ invo₀ invo, deserializeRpcInvocation hs f.body f.headedContext = .ok invo₀ ∧
      invo₀.assignAttachmentIfNeed hs f.bytes = .ok invo ∧ f.invocation hs = .ok invo ∧
      f.read hs = { f.headed with invocationInfo := some invo₀ } := by
  obtain ⟨invo, hinvo⟩ := hf.accepted hev
  cases hd : deserializeRpcInvocation hs f.body f.headedContext with
  | error e =>
    rw [Frame.invocation, hd] at hinvo
    cases hinvo
  | ok invo₀ =>
    refine ⟨invo₀, invo, rfl, ?_, hinvo, ?_⟩
    · rw [Frame.invocation, hd] at hinvo
      exact hinvo
    · simp only [Frame.read, hev, hd, Bool.false_eq_true, if_false]
      rfl

theorem Frame.WellFormedRequest.decodeData (hl : hs.Local) (hf : f.WellFormedRequest hs)
    (hev : f.isEvent = false)
    (rest : Bytes) : decodeData hs (f.body ++ rest) f.headedContext f.headed = .ok (some (f.read hs)) := by
  obtain ⟨invo₀, invo, hd, -, -, hread⟩ := hf.read_invocation hev
  rw [Dubbo.decodeData, if_neg (f.not_short rest), hread, deserializeRpcInvocation_append hl hd]
  simp only [Frame.headed, Frame.requestType, hev, Bool.false_eq_true, if_false]
  cases hasMask f.flag twoWayMask <;> rfl

theorem Frame.WellFormedRequest.readable (hl : hs.Local) (hf : f.WellFormedRequest hs) :
    Readable (fun _ => Blank) hs f f.headed (f.read hs) where
  fresh := hf.decodeHeader Blank.fresh
  again hblank _ := hf.decodeHeader hblank
  short hblank _ := hblank
  kept _ := Blank.headed f
  beat := f.headed_beat
  event := Frame.read_event
  body := hf.decodeData hl

end Machine

/-! ## The message of a frame -/

structure Carries (hs : Hessian2) (f : Frame) (md : Metadata DubboAny) : Prop where
  originMessage : md.originMessage = f.bytes
  requestId : md.requestId = ofBE f.id
  messageType : md.messageType = f.requestType.toMessageType
  invocation : f.isEvent = false → ∃ invo, f.invocation hs = .ok invo ∧
    md.operationName = invo.serviceName ++ "/" ++ invo.methodName ∧
    md.getByKey "InvocationInfo" = some (.other (.invocationInfo (some invo)))

section Message

variable {hs : Hessian2} {f : Frame}

theorem Frame.WellFormedRequest.toMetadata (hf : f.WellFormedRequest hs) :
    ∃ md, toMetadata hs (f.read hs) f.wholeContext (Metadata.ofType .request) = .ok md ∧ Carries hs f md := by
  cases hev : f.isEvent with
  | true =>
    rw [Frame.read_event hev]
    refine ⟨_, rfl, rfl, rfl, rfl, ?_⟩
    simp [hev]
  | false =>
    obtain ⟨invo₀, invo, -, hassign, hinvo, hread⟩ := hf.read_invocation hev
    have hassign' : invo₀.assignAttachmentIfNeed hs f.wholeContext.originMessage = .ok invo := hassign
    -- a request has no response status, so this is the last the properties see
    let stored :=
      putMessage (putInvocation (Metadata.ofType .request) invo) { f.headed with invocationInfo := some invo }
    have horigin : stored.originMessage = [] := by
      rw [putMessage_originMessage, putInvocation, Metadata.putStrings_originMessage]
      rfl
    have hname : stored.operationName = invo.serviceName ++ "/" ++ invo.methodName := by
      have hput : stored.operationName = (putInvocation (Metadata.ofType .request) invo).operationName := rfl
      rw [hput, putInvocation, Metadata.putStrings_operationName]
    have hinfo : stored.getByKey "InvocationInfo" = some (.other (.invocationInfo (some invo))) := by
      simp [stored, putMessage, Frame.headed, Metadata.getByKey_put, Metadata.getByKey_mk]
    refine ⟨{ stored with
        messageType := f.requestType.toMessageType, headerSize := messageSize,
        bodySize := f.body.length, originMessage := stored.originMessage ++ f.bytes },
      ?_, ?_, rfl, rfl, fun _ => ⟨invo, hinvo, hname, hinfo⟩⟩
    · rw [hread]
      simp only [Dubbo.toMetadata, hassign']
      rfl
    · rw [horigin, List.nil_append]

/-- What the codec makes of a buffer that holds one frame. -/
def frameMetadata (hs : Hessian2) (bytes : Bytes) : Metadata DubboAny :=
  match DubboCodec.decode hs {} bytes (Metadata.ofType .request) with
  | .done _ md _ => md
  | _ => Metadata.ofType .request

variable {p buf x rest : Bytes} {c : DubboCodec}

theorem Frame.WellFormedRequest.frameMetadata_eq (hl : hs.Local) (hf : f.WellFormedRequest hs)
    {md : Metadata DubboAny}
    (hmd : Dubbo.toMetadata hs (f.read hs) f.wholeContext (Metadata.ofType .request) = .ok md) :
    frameMetadata hs f.bytes = md := by
  have h := ResumesBy.decode_done (hf.readable hl) hmd
    (x := f.bytes) resumes_idle (List.append_nil f.bytes).symm
  rw [List.nil_append] at h
  rw [frameMetadata, h]

/-- The codec delivers the frame's message and is idle, however much it had seen before. -/
theorem Resumes.decode_done (hl : hs.Local) (hf : f.WellFormedRequest hs) (hR : Resumes p c buf)
    (hpx : p ++ x = f.bytes ++ rest) :
    c.decode hs (buf ++ x) (Metadata.ofType .request) = .done {} (frameMetadata hs f.bytes) rest ∧
      Carries hs f (frameMetadata hs f.bytes) := by
  obtain ⟨md, hmd, hcarries⟩ := hf.toMetadata
  rw [hf.frameMetadata_eq hl hmd]
  exact ⟨ResumesBy.decode_done (hf.readable hl) hmd hR hpx, hcarries⟩

theorem isFrame (encodeMap : List (Object × Object) → Bytes) (hl : hs.Local) (hf : f.WellFormedRequest hs) :
    IsFrame ((dubboCodec hs encodeMap).decodeAs .request) Resumes f.bytes (frameMetadata hs f.bytes) := by
  obtain ⟨md, hmd, -⟩ := hf.toMetadata
  rw [hf.frameMetadata_eq hl hmd]
  exact (hf.readable hl).isFrame encodeMap Blank.fresh hmd

end Message

/-! ## A stream of requests -/

section Idle

variable {hs : Hessian2}

open DecoderStateMachine in
theorem runLoop_waiting {n : Nat} {m m' : DecoderStateMachine} {data rest : Bytes}
    (h : runLoop hs n m data = .wait m' rest) (hm : data ≠ [] ∨ m.state = .onDecodeStreamData) :
    rest ≠ [] ∨ m'.state = .onDecodeStreamData := by
  induction n generalizing m data with
  | zero =>
    unfold runLoop at h
    split at h <;> cases h
  | succ n ih =>
    unfold runLoop at h
    split at h
    · cases h
    cases hh : handleState hs m data with
    | throws m₁ e => simp [hh] at h
    | waitForData m₁ =>
      simp only [hh, Framing.Step.wait.injEq] at h
      obtain ⟨rfl, rfl⟩ := h
      refine hm.imp_right fun hstate => ?_
      simp only [handleState, hstate, onDecodeStreamData] at hh
      split at hh <;> cases hh
      exact hstate
    | next m₁ rest₁ =>
      simp only [hh] at h
      -- the machine has moved on: to the body, or it is done and does not wait
      cases hs₁ : m₁.state with
      | onDecodeStreamData => exact ih h (.inr hs₁)
      | done =>
        unfold runLoop at h
        simp [hs₁] at h
      | onDecodeStreamHeader =>
        have hlt := handleState_stepsLeft hs hh
        rw [hs₁] at hlt
        cases hm₀ : m.state <;> simp [hm₀, stepsLeft] at hlt

def Steady (c : DubboCodec) (buffer : Bytes) : Prop :=
  c = {} ∨ buffer ≠ [] ∨ (c.stateMachine.getD {}).state = .onDecodeStreamData

variable {c c' : DubboCodec} {data rest : Bytes} {md₀ md : Metadata DubboAny}

theorem steady_of_wait (hne : data ≠ []) (h : c.decode hs data md₀ = .wait c' rest) : Steady c' rest := by
  unfold DubboCodec.decode at h
  split at h
  · rename_i m₁ rest₁ hrun
    cases h
    exact .inr (runLoop_waiting hrun (.inl hne))
  · cases h
  · split at h <;> cases h

theorem steady_of_done (h : c.decode hs data md₀ = .done c' md rest) : Steady c' rest := by
  unfold DubboCodec.decode at h
  split at h
  · cases h
  · cases h
  · split at h <;> cases h
    exact .inl rfl

theorem Steady.idle (h : Steady c []) (hR : Resumes [] c []) : c = {} := by
  rcases h with h | h | h
  · exact h
  · exact absurd rfl h
  · cases hR with
    | header hstate => rw [hstate] at h; cases h
    | body hlen hp =>
      rw [(List.append_eq_nil_iff.1 hp.symm).1] at hlen
      cases hlen

end Idle

def requestCall (hs : Hessian2) (f : Frame) : Call DubboAny :=
  if f.isEvent then .onHeartbeat (frameMetadata hs f.bytes) else .onMessageDecoded (frameMetadata hs f.bytes)

theorem Carries.call {hs : Hessian2} {f : Frame} (h : Carries hs f (frameMetadata hs f.bytes)) :
    Call.of (frameMetadata hs f.bytes) = requestCall hs f := by
  rw [Call.of, h.messageType, requestCall, Frame.requestType]
  cases f.isEvent <;> cases hasMask f.flag twoWayMask <;> rfl

/-- **However a stream of requests is cut into chunks**, each frame leads to one call, in order,
with what the frame alone says; nothing is left unread and the codec is idle. -/
theorem requests_received {δ : Type} {hs : Hessian2} (hl : hs.Local)
    (encodeMap : List (Object × Object) → Bytes)
    (hd : Handlers δ DubboAny) (fs : List Frame) (hfs : ∀ f ∈ fs, f.WellFormedRequest hs)
    (chunks : List Bytes) (hcut : chunks.flatten = (fs.map Frame.bytes).flatten) (w : δ) :
    ∃ c, Connection.receive (dubboCodec hs encodeMap) .request hd { codec := {}, world := w }
      chunks = some (.ok c) ∧
      c.calls = fs.map (requestCall hs) ∧ (∀ f ∈ fs, Carries hs f (frameMetadata hs f.bytes)) ∧
      c.requestBuffer = [] ∧ c.codec = {} := by
  have hframes : ∀ bs ∈ fs.map Frame.bytes,
      IsFrame ((dubboCodec hs encodeMap).decodeAs .request) Resumes bs (frameMetadata hs bs) := by
    intro bs hbs
    obtain ⟨f, hf, rfl⟩ := List.mem_map.1 hbs
    exact isFrame encodeMap hl (hfs f hf)
  have hcarries : ∀ f ∈ fs, Carries hs f (frameMetadata hs f.bytes) := fun f hf =>
    (resumes_idle.decode_done hl (hfs f hf) (List.append_nil f.bytes).symm).2
  obtain ⟨c, hrun, hbuf, hR, hcalls, -⟩ :=
    Connection.receive_frames hd hframes Resumes.empty hcut resumes_idle w
  have hsteady : Steady c.codec c.requestBuffer :=
    Connection.receive_invariant hrun (J := Steady) steady_of_wait steady_of_done (.inl rfl)
  refine ⟨c, hrun, ?_, hcarries, hbuf, Steady.idle (hbuf ▸ hsteady) hR⟩
  rw [hcalls, List.map_map, List.map_map]
  exact List.map_congr_left fun f hf => (hcarries f hf).call

/-! ## Sample requests -/

/-- Version, service `s`, service version, method `m`, and no parameter types. -/
def callHead : Bytes := [0x01, 0x32, 0x01, 0x73, 0x01, 0x30, 0x01, 0x6d, 0x00]

/-- A call of `s/m` without parameters, with the attachment `map`. -/
def callFrame (flag : UInt8) (map : Bytes) (h : (callHead ++ map).length < 2 ^ 31) : Frame :=
  ⟨flag, 0, [0, 0, 0, 0, 0, 0, 0, 7], callHead ++ map, rfl, h⟩

theorem fragment_string {b : Bytes} {o n : Nat} {s : String}
    (h : fragmentValue (b.drop o) = some (.string s, n)) :
    fragment.decodeString ⟨b, o⟩ = (some s, ⟨b, o + n⟩) :=
  readAt_eq_some.2 ⟨_, _, h, rfl, rfl⟩

theorem callFrame_invocation {flag : UInt8} {map : Bytes} {h : (callHead ++ map).length < 2 ^ 31}
    {entries : List (Object × Object)} {n : Nat} (hmap : fragmentValue map = some (.untypedMap entries, n)) :
    (callFrame flag map h).invocation fragment = .ok
      { serviceName := "s", methodName := "m", serviceVersion := "0", delayedFrom := 24,
        parameters := some [],
        attachment := some { attachment := entries, attachmentOffset := 25 } } := by
  obtain ⟨f, hf⟩ : ∃ f, f = callFrame flag map h := ⟨_, rfl⟩
  have hbody : f.body = callHead ++ map := by rw [hf, callFrame]
  have hhead : ∀ {o n s}, fragment.decodeString ⟨callHead, o⟩ = (some s, ⟨callHead, n⟩) →
      fragment.decodeString ⟨f.body, o⟩ = (some s, ⟨f.body, n⟩) := fun h =>
    hbody ▸ fragment_local.string.append h map
  have h1 := hhead (fragment_string (o := 0) (s := "2") (n := 2) rfl)
  have h2 := hhead (fragment_string (o := 2) (s := "s") (n := 2) rfl)
  have h3 := hhead (fragment_string (o := 4) (s := "0") (n := 2) rfl)
  have h4 := hhead (fragment_string (o := 6) (s := "m") (n := 2) rfl)
  -- the parameter types and the attachment are read from the whole message
  have htypes : f.bytes.drop 24 = [0x00] ++ map := by rw [hf]; rfl
  have hattachment : f.bytes.drop 25 = map := by rw [hf]; rfl
  have h5 : fragment.decodeString ⟨f.bytes, 24⟩ = (some "", ⟨f.bytes, 25⟩) :=
    fragment_string (htypes ▸ ((local_fragmentValue [0x00] map _ _).1 rfl).1)
  have h6 : fragment.decodeObject ⟨f.bytes, 25⟩ = (some (.untypedMap entries), ⟨f.bytes, 25 + n⟩) :=
    readAt_eq_some.2 ⟨_, _, hattachment ▸ hmap, rfl, rfl⟩
  have hsize : ¬ f.headedContext.bodySize < 8 := by
    have : f.headedContext.bodySize = map.length + 9 := by rw [hf]; rfl
    omega
  have hdes : deserializeRpcInvocation fragment f.body f.headedContext =
      .ok { serviceName := "s", methodName := "m", serviceVersion := "0", delayedFrom := 24 } := by
    simp only [deserializeRpcInvocation, h1, h2, h3, h4, hsize, if_false]
    rfl
  have hnone : (getParametersNumber "").toNat = 0 := rfl
  rw [← hf, Frame.invocation, hdes]
  simp only [bind, Except.bind, RpcInvocation.assignAttachmentIfNeed, parametersCallback, h5, hnone,
    decodeParameters, decodeAttachment, h6, pure, Except.pure]

/-- A call with the attachment `{"k": "v"}`, a heartbeat, and a one-way call without attachments. -/
def sampleRequests : List Frame :=
  [callFrame 0xc2 [0x48, 0x01, 0x6b, 0x01, 0x76, 0x5a] (by decide),
    ⟨0xe2, 0, [0, 0, 0, 0, 0, 0, 0, 8], [0x4e], rfl, by decide⟩,
    callFrame 0x82 [0x48, 0x5a] (by decide)]

theorem sampleRequests_wellFormed : ∀ f ∈ sampleRequests, f.WellFormedRequest fragment := by
  intro f hf
  simp only [sampleRequests, List.mem_cons, List.not_mem_nil, or_false] at hf
  rcases hf with rfl | rfl | rfl
  · exact ⟨rfl, rfl, by decide, fun _ => ⟨_, callFrame_invocation rfl⟩⟩
  · exact ⟨rfl, rfl, by decide, fun h => by cases h⟩
  · exact ⟨rfl, rfl, by decide, fun _ => ⟨_, callFrame_invocation rfl⟩⟩

/-- The three requests, cut inside the first header and inside the last body. -/
theorem requests_received_pieces :
    ∃ c, Connection.receive (dubboCodec fragment encodeShortMap) .request ⟨fun _ w => w, fun _ w => w⟩
        { codec := {}, world := () }
        [((sampleRequests.map Frame.bytes).flatten).take 5,
          (((sampleRequests.map Frame.bytes).flatten).drop 5).take 63,
          ((sampleRequests.map Frame.bytes).flatten).drop 68] = some (.ok c) ∧
      c.calls = sampleRequests.map (requestCall fragment) ∧
      (∀ f ∈ sampleRequests, Carries fragment f (frameMetadata fragment f.bytes)) ∧
      c.requestBuffer = [] ∧ c.codec = {} :=
  requests_received fragment_local encodeShortMap _ sampleRequests sampleRequests_wellFormed _ (by decide) ()

end MetaProtocolProxy.Dubbo
