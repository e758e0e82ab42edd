import MetaProtocolProxy.Proxy.Pipelining
/-
# Decoders that report completion, and the shadow router

`UpstreamHandlerResponseDecoder` and `NullResponseDecoder` have the same `decode` and differ in what
they do with a message. Their flag `complete_` is a bit-field no constructor writes: a new object
starts with what its memory held.

| here | there |
| --- | --- |
| `decodeResponse` | `decode` of both (upstream_response.h:24-44, shadow_writer_impl.h:32-53) |
| `UpstreamHandlerResponseDecoder.onMessageDecoded` | upstream_response.cc:10-22, the handler an argument |
| `NullResponseDecoder.onMessageDecoded` | shadow_writer_impl.h:56-60 |
| `newResponse` | the constructors; the argument is the memory of `complete_` |
| `ShadowRouterImpl` | shadow_writer_impl.h:75-147, the fields a response can change |
| `onUpstreamData`, `cleanup` | shadow_writer_impl.cc:51-94 |

* `completion_reported_iff` — `Complete` is reported from the message on, and `MoreData` before it,
  exactly if the flag was false or no call waits before the message.
* `shadow_never_panics_iff` — no call of the shadow router panics, exactly if the codec throws no
  `EnvoyException`.
-/
namespace MetaProtocolProxy

variable {σ α δ : Type}

/-! ## Decoders -/

/-- What a call of `decode` returns and leaves. -/
structure Decoding (σ δ : Type) where
  status : Except Failure UpstreamResponseStatus
  /-- `decoder_->onData` threw. -/
  threw : Bool
  response : UpstreamResponse σ
  world : δ
  buffer : Bytes

/-- The callbacks of both decoders: a message sets `complete_` before anything else is done with
it. -/
def completing (onMessage : Metadata α → Mutation → δ → Except Failure Unit × δ) : Delegate (Bool × δ) α where
  onHeartbeat _ w := (.ok true, w)
  newStream md mutation w := ((onMessage md mutation w.2).1, true, (onMessage md mutation w.2).2)

def decodeResponse (cd : Codec σ α)
    (onMessage : Metadata α → Mutation → δ → Except Failure Unit × δ) (u : UpstreamResponse σ) (w : δ)
    (data : Bytes) : Decoding σ δ :=
  let r := u.decoder.onData cd .response (completing onMessage) u.codec (u.complete, w) data
  let u := { codec := r.codec, decoder := r.decoder, complete := r.world.1 }
  match r.result with
  | .ok _ => ⟨.ok (if u.complete then .complete else .moreData), false, u, r.world.2, r.buffer⟩
  | .error e => ⟨if e.isEnvoyException then .ok .reset else .error e, true, u, r.world.2, r.buffer⟩

def UpstreamHandlerResponseDecoder.onMessageDecoded (cd : Codec σ α)
    (handler : Metadata α → Mutation → δ → Except Failure Unit × δ)
    (md : Metadata α) (mutation : Mutation) (w : δ) : Except Failure Unit × δ :=
  match cd.encode md mutation md.originMessage with
  | .error e => (.error e, w)
  | .ok bytes => handler { md with originMessage := bytes } mutation w

def NullResponseDecoder.onMessageDecoded (_ : Metadata α) (_ : Mutation) (w : δ) :
    Except Failure Unit × δ := (.ok (), w)

/-- A new decoder with a new codec. -/
def newResponse (cd : Codec σ α) (garbage : Bool) : UpstreamResponse σ :=
  { codec := cd.init, complete := garbage }

inductive CodecAnswer
  | waits
  | message
  | throws (e : Failure)
  deriving DecidableEq, Repr

def codecAnswer (cd : Codec σ α) (s : σ) (data : Bytes) : CodecAnswer :=
  match cd.decodeAs .response s data with
  | .wait _ _ => .waits
  | .fail _ _ e => .throws e
  | .done _ md _ => if md.messageType = .heartbeat then .waits else .message

def left : Framing.Step σ UInt8 (Metadata α) Failure → σ × Bytes
  | .wait s rest => (s, rest)
  | .fail s rest _ => (s, rest)
  | .done s _ rest => (s, rest)

/-- One call: only a message sets the flag, and a call that returns reports the flag. -/
structure Decodes (cd : Codec σ α) (u : UpstreamResponse σ) (data : Bytes) (r : Decoding σ δ) : Prop where
  codec : (r.response.codec, r.buffer) = left (cd.decodeAs .response u.codec data)
  complete : r.response.complete = (u.complete || decide (codecAnswer cd u.codec data = .message))
  returned : r.threw = false → r.status = .ok (if r.response.complete then .complete else .moreData)
  waits : codecAnswer cd u.codec data = .waits → r.threw = false
  throws : ∀ e, codecAnswer cd u.codec data = .throws e →
    r.threw = true ∧ r.status = if e.isEnvoyException then .ok .reset else .error e

theorem decodeResponse_decodes (cd : Codec σ α)
    (onMessage : Metadata α → Mutation → δ → Except Failure Unit × δ)
    (u : UpstreamResponse σ) (w : δ) (data : Bytes) :
    Decodes cd u data (decodeResponse cd onMessage u w data) := by
  cases hdec : cd.decodeAs .response u.codec data with
  | wait s' rest =>
    have hread : codecAnswer cd u.codec data = .waits := by simp only [codecAnswer, hdec]
    constructor <;> simp [decodeResponse, DecoderBase.onData_wait hdec, hdec, left, hread]
  | fail s' rest e =>
    have hread : codecAnswer cd u.codec data = .throws e := by simp only [codecAnswer, hdec]
    constructor <;> simp [decodeResponse, DecoderBase.onData_fail hdec, hdec, left, hread]
  | done s' md rest =>
    by_cases hb : md.messageType = .heartbeat
    · have hread : codecAnswer cd u.codec data = .waits := by simp only [codecAnswer, hdec, hb, if_true]
      have hbeat : (completing onMessage).onHeartbeat md (u.complete, w) = (.ok true, (u.complete, w)) := rfl
      constructor <;> simp [decodeResponse, DecoderBase.onData_heartbeat hdec hb hbeat, hdec, left, hread]
    · have hread : codecAnswer cd u.codec data = .message := by simp only [codecAnswer, hdec, hb, if_false]
      -- the flag is set although the handler may throw
      rcases hm : onMessage md [] w with ⟨e | _, w'⟩ <;>
        constructor <;>
          simp [decodeResponse, DecoderBase.onData_message hdec hb, hdec, left, hread, completing, hm]

/-! ## Every sequence of calls -/

structure DecodeCall where
  answer : CodecAnswer
  threw : Bool
  status : Except Failure UpstreamResponseStatus

/-- The calls of `decode` with each chunk, the unread bytes in front. -/
def decodeCalls (cd : Codec σ α) (onMessage : Metadata α → Mutation → δ → Except Failure Unit × δ) :
    UpstreamResponse σ → δ → Bytes → List Bytes → List DecodeCall
  | _, _, _, [] => []
  | u, w, unread, chunk :: chunks =>
    let r := decodeResponse cd onMessage u w (unread ++ chunk)
    ⟨codecAnswer cd u.codec (unread ++ chunk), r.threw, r.status⟩ :: decodeCalls cd onMessage
      r.response r.world r.buffer chunks

/-- What the codec makes of each chunk. -/
def codecAnswers (cd : Codec σ α) : σ → Bytes → List Bytes → List CodecAnswer
  | _, _, [] => []
  | s, unread, chunk :: chunks =>
    let next := left (cd.decodeAs .response s (unread ++ chunk))
    codecAnswer cd s (unread ++ chunk) :: codecAnswers cd next.1 next.2 chunks

/-- A call that does not throw returns `Complete` if a message was decoded in it or before it, and
else `MoreData`. -/
def ReportsCompletion (calls : List DecodeCall) : Prop :=
  ∀ before c after, calls = before ++ c :: after → c.threw = false →
    c.status = .ok (if ∃ b ∈ before ++ [c], b.answer = .message then .complete else .moreData)

/-- No call waits before a message was decoded. -/
def NeverWaits (rs : List CodecAnswer) : Prop := ∀ before after, rs = before ++ .waits :: after →
    .message ∈ before

section Calls

variable {cd : Codec σ α} {onMessage : Metadata α → Mutation → δ → Except Failure Unit × δ}
  {u : UpstreamResponse σ} {w : δ} {unread : Bytes} {chunks : List Bytes}

theorem decodeCalls_answers (onMessage : Metadata α → Mutation → δ → Except Failure Unit × δ) (w : δ) :
    (decodeCalls cd onMessage u w unread chunks).map (·.answer) = codecAnswers cd u.codec unread chunks := by
  induction chunks generalizing u w unread with
  | nil => rfl
  | cons chunk chunks ih =>
    have hleft := (decodeResponse_decodes cd onMessage u w (unread ++ chunk)).codec
    simp only [decodeCalls, codecAnswers, List.map_cons, ih, ← hleft]

theorem decodeCalls_status {before after : List DecodeCall} {c : DecodeCall}
    (h : decodeCalls cd onMessage u w unread chunks = before ++ c :: after) (hret : c.threw = false) :
    c.status = .ok (if u.complete = true ∨ ∃ b ∈ before ++ [c], b.answer = .message then .complete
      else .moreData) := by
  induction chunks generalizing u w unread before with
  | nil => simp [decodeCalls] at h
  | cons chunk chunks ih =>
    have hr := decodeResponse_decodes cd onMessage u w (unread ++ chunk)
    rw [decodeCalls] at h
    cases before with
    | nil =>
      obtain ⟨rfl, -⟩ := List.cons.inj h
      rw [hr.returned hret, hr.complete]
      simp
    | cons b before =>
      obtain ⟨rfl, htail⟩ := List.cons.inj h
      rw [ih htail, hr.complete]
      simp [or_assoc]

theorem mem_decodeCalls {c : DecodeCall} (h : c ∈ decodeCalls cd onMessage u w unread chunks) :
    (c.answer = .waits → c.threw = false) ∧ (c.threw = false → c.answer = .waits ∨ c.answer = .message) := by
  induction chunks generalizing u w unread with
  | nil => cases h
  | cons chunk chunks ih =>
    rw [decodeCalls] at h
    rcases List.mem_cons.1 h with rfl | h
    · have hr := decodeResponse_decodes cd onMessage u w (unread ++ chunk)
      refine ⟨hr.waits, fun hret => ?_⟩
      cases hread : codecAnswer cd u.codec (unread ++ chunk) with
      | waits => exact .inl rfl
      | message => exact .inr rfl
      | throws e => exact absurd (hr.throws e hread).1 (by simpa using hret)
    · exact ih h

theorem reportsCompletion_iff :
    ReportsCompletion (decodeCalls cd onMessage u w unread chunks) ↔
      u.complete = false ∨ NeverWaits (codecAnswers cd u.codec unread chunks) := by
  constructor
  · intro hreports
    by_cases hflag : u.complete = false
    · exact .inl hflag
    · refine .inr fun before after hsplit => ?_
      -- a call that waits returns the flag, so the report makes some message come first
      rw [← decodeCalls_answers onMessage w] at hsplit
      obtain ⟨bs, cs, hcalls, rfl, hcs⟩ := List.map_eq_append_iff.1 hsplit
      obtain ⟨c, as, rfl, hwaits, -⟩ := List.map_eq_cons_iff.1 hcs
      have hret : c.threw = false := (mem_decodeCalls (by rw [hcalls]; simp)).1 hwaits
      have hstatus := decodeCalls_status hcalls hret
      rw [hreports bs c as hcalls hret, if_pos (Or.inl (by simpa using hflag))] at hstatus
      have hmessage : ∃ b ∈ bs ++ [c], b.answer = .message := by
        by_contra hno
        rw [if_neg hno] at hstatus
        cases hstatus
      obtain ⟨b, hb, hread⟩ := hmessage
      rcases List.mem_append.1 hb with hb | hb
      · exact hread ▸ List.mem_map_of_mem hb
      · rw [List.mem_singleton.1 hb, hwaits] at hread
        cases hread
  · intro h before c after hcalls hret
    rw [decodeCalls_status hcalls hret]
    rcases h with hflag | hnever
    · simp [hflag]
    · have hmessage : ∃ b ∈ before ++ [c], b.answer = .message := by
        rcases (mem_decodeCalls (by rw [hcalls]; simp)).2 hret with hwaits | hread
        · have hsplit :
              codecAnswers cd u.codec unread chunks =
                  before.map (·.answer) ++ .waits :: after.map (·.answer) := by
            rw [← decodeCalls_answers onMessage w, hcalls, List.map_append, List.map_cons, hwaits]
          obtain ⟨b, hb, hread⟩ := List.mem_map.1 (hnever _ _ hsplit)
          exact ⟨b, List.mem_append_left _ hb, hread⟩
        · exact ⟨c, by simp, hread⟩
      rw [if_pos hmessage, if_pos (Or.inr hmessage)]

end Calls

/-- Both decoders report completion exactly if the flag's memory held false, or no call waits before
a message. -/
theorem completion_reported_iff (cd : Codec σ α)
    (handler : Metadata α → Mutation → δ → Except Failure Unit × δ) (w : δ)
    (garbage : Bool) (chunks : List Bytes) :
    (ReportsCompletion (decodeCalls cd (UpstreamHandlerResponseDecoder.onMessageDecoded cd handler)
      (newResponse cd garbage) w [] chunks) ↔
      garbage = false ∨ NeverWaits (codecAnswers cd cd.init [] chunks)) ∧
    (ReportsCompletion (decodeCalls cd NullResponseDecoder.onMessageDecoded (newResponse cd garbage)
      w [] chunks) ↔
      garbage = false ∨ NeverWaits (codecAnswers cd cd.init [] chunks)) :=
  ⟨reportsCompletion_iff, reportsCompletion_iff⟩

/-- With the flag set, one byte of a frame is a complete response. -/
theorem one_byte_reported_complete :
    let cd := Trpc.trpcCodec Unit Trpc.wireProtobuf
    let calls := decodeCalls cd NullResponseDecoder.onMessageDecoded (newResponse cd true) () [] [[0x09]]
    calls = [⟨.waits, false, .ok .complete⟩] ∧ ¬ ReportsCompletion calls := by
  intro cd calls
  have hcalls : calls = [⟨.waits, false, .ok .complete⟩] := rfl
  refine ⟨hcalls, fun h => ?_⟩
  have hstatus := h [] _ [] hcalls rfl
  simp at hstatus

section Handler

variable (cfg : Config σ α) {cm : ConnectionManager σ α} {h : HandlerId}

/-- `UpstreamHandlerImpl::onMessageDecoded` as the handler of the decoder. -/
def handlerCallback (h : HandlerId) (md : Metadata α) (_ : Mutation) (cm : ConnectionManager σ α) :
    Except Failure Unit × ConnectionManager σ α := (.ok (), handlerMessageDecoded cm h md)

structure SameRun (h : HandlerId) (u : UpstreamResponse σ) (r : Ran Bool σ (ConnectionManager σ α))
    (r' : Ran Bool σ (Bool × ConnectionManager σ α)) : Prop where
  result : r.result = r'.result
  decoder : r.decoder = r'.decoder
  codec : r.codec = r'.codec
  buffer : r.buffer = r'.buffer
  flag : (r.world.handlers h).upstreamResponse = some { u with complete := r'.world.1 }

theorem handlerDelegate_sameRun (cm' : ConnectionManager σ α) {u : UpstreamResponse σ}
    (hu : (cm.handlers h).upstreamResponse = some u) (data : Bytes) :
    SameRun h u (u.decoder.onData cfg.codec .response (handlerDelegate cfg h) u.codec cm data)
      (u.decoder.onData cfg.codec .response
        (completing (UpstreamHandlerResponseDecoder.onMessageDecoded cfg.codec (handlerCallback h)))
          u.codec (u.complete, cm') data) := by
  cases hdec : cfg.codec.decodeAs .response u.codec data with
  | wait s' rest =>
    rw [DecoderBase.onData_wait hdec, DecoderBase.onData_wait hdec]
    exact ⟨rfl, rfl, rfl, rfl, hu⟩
  | fail s' rest e =>
    rw [DecoderBase.onData_fail hdec, DecoderBase.onData_fail hdec]
    exact ⟨rfl, rfl, rfl, rfl, hu⟩
  | done s' md rest =>
    by_cases hb : md.messageType = .heartbeat
    · rw [DecoderBase.onData_heartbeat hdec hb rfl, DecoderBase.onData_heartbeat hdec hb rfl]
      exact ⟨rfl, rfl, rfl, rfl, hu⟩
    · rw [DecoderBase.onData_message hdec hb, DecoderBase.onData_message hdec hb]
      simp only [handlerDelegate, handlerResponseDecoded, completing,
        UpstreamHandlerResponseDecoder.onMessageDecoded, handlerCallback]
      cases henc : cfg.codec.encode md [] md.originMessage with
      | error e =>
        refine ⟨rfl, rfl, rfl, rfl, ?_⟩
        simp [ConnectionManager.modifyHandler, hu]
      | ok bytes =>
        refine ⟨rfl, rfl, rfl, rfl, ?_⟩
        simp [(handlerMessageDecoded_spec _ h _).1, ConnectionManager.modifyHandler, hu]

/-- `UpstreamHandlerImpl::onUpstreamData` keeps the decoder exactly while it returns `MoreData`. -/
theorem handlerUpstreamData_decodes (data : Bytes) (garbage : Bool)
    {status : UpstreamResponseStatus} {u : UpstreamResponse σ}
    (hu : u = (cm.handlers h).upstreamResponse.getD (newResponse cfg.codec garbage))
    {r : Decoding σ (ConnectionManager σ α)}
    (hr : r = decodeResponse cfg.codec (UpstreamHandlerResponseDecoder.onMessageDecoded cfg.codec
      (handlerCallback h)) u cm data)
    (hstatus : r.status = .ok status) :
    (handlerUpstreamData cfg cm h data garbage).2 = r.buffer ∧
      ((handlerUpstreamData cfg cm h data garbage).1.handlers h).upstreamResponse =
        if status = .moreData then some r.response else none := by
  have hu' : (cm.handlers h).upstreamResponse.getD
    { codec := cfg.codec.init, complete := garbage } = u := hu.symm
  have hset : ((cm.modifyHandler h fun hd => { hd with upstreamResponse := some u }).handlers
      h).upstreamResponse = some u := by
    simp [ConnectionManager.modifyHandler]
  have hsame := handlerDelegate_sameRun cfg cm hset data
  simp only [decodeResponse] at hr
  simp only [handlerUpstreamData, hu']
  generalize u.decoder.onData cfg.codec .response (handlerDelegate cfg h) u.codec _ data = r₁ at hsame ⊢
  generalize u.decoder.onData cfg.codec .response _ u.codec (u.complete, cm) data = r₂ at hsame hr
  rw [hsame.result, hsame.buffer]
  simp only [ConnectionManager.modifyHandler, Function.update_self, hsame.flag, hsame.codec,
    hsame.decoder, Option.map_some, Option.getD_some]
  cases hr₂ : r₂.result with
  | ok _ =>
    rw [hr₂] at hr
    subst hr
    obtain rfl := Except.ok.inj hstatus
    cases hc : r₂.world.1 <;> simp
  | error e =>
    rw [hr₂] at hr
    subst hr
    -- an exception that is not caught has no status
    cases he : e.isEnvoyException with
    | true =>
      simp only [he, if_true] at hstatus
      obtain rfl := Except.ok.inj hstatus
      simp [he]
    | false =>
      simp only [he] at hstatus
      cases hstatus

end Handler

/-! ## The shadow router -/

structure ShadowRouterImpl (σ : Type) where
  upstreamRequest : UpstreamRequest := {}
  decoder : UpstreamResponse σ
  removed : Bool := false

/-- How a call of `onUpstreamData` ends. -/
inductive CallEnd
  | returned
  | threw (e : Failure)
  | panicked (text : String)
  deriving DecidableEq, Repr

namespace ShadowRouterImpl

/-- `releaseUpStreamConnection(false)` gives the connection back, and the writer drops the
router. -/
def cleanup (s : ShadowRouterImpl σ) : ShadowRouterImpl σ :=
  if s.removed then s
  else { s with removed := true
                upstreamRequest :=
                  { s.upstreamRequest with streamReset := true, handle := false, conn := none } }

/-- `UpstreamRequest::onResponseComplete` (upstream_request.cc:168-171). -/
def onResponseComplete (s : ShadowRouterImpl σ) : ShadowRouterImpl σ :=
  { s with upstreamRequest := { s.upstreamRequest with responseComplete := true, conn := none } }

def onUpstreamData (cd : Codec σ α) (s : ShadowRouterImpl σ) (data : Bytes) (endStream : Bool) :
    CallEnd × ShadowRouterImpl σ × Bytes :=
  let r := decodeResponse cd NullResponseDecoder.onMessageDecoded s.decoder () data
  let s := { s with
    decoder := r.response
    upstreamRequest := { s.upstreamRequest with responseStarted := true } }
  match r.status with
  | .error e => (.threw e, s, r.buffer)
  | .ok .complete => (.returned, s.onResponseComplete.cleanup, r.buffer)
  | .ok .moreData => (.returned, if endStream then s.cleanup else s, r.buffer)
  | .ok _ => (.panicked "not reached", s, r.buffer)

end ShadowRouterImpl

structure ShadowCall (σ : Type) where
  codec : σ
  data : Bytes
  ending : CallEnd

/-- The calls with each chunk and its `end_stream`, until the response is complete or the process
ends. -/
def shadowCalls (cd : Codec σ α) : ShadowRouterImpl σ → Bytes → List (Bytes × Bool) → List (ShadowCall σ)
  | _, _, [] => []
  | s, unread, (chunk, endStream) :: chunks =>
    if s.upstreamRequest.responseComplete then []
    else
      let call : ShadowCall σ :=
        ⟨s.decoder.codec, unread ++ chunk, (s.onUpstreamData cd (unread ++ chunk) endStream).1⟩
      match s.onUpstreamData cd (unread ++ chunk) endStream with
      | (.returned, s', unread') => call :: shadowCalls cd s' unread' chunks
      | _ => [call]

section Shadow

variable {cd : Codec σ α} {s : ShadowRouterImpl σ}

/-- `NullResponseDecoder` adds no exception of its own. -/
theorem null_returns {u : UpstreamResponse σ} {w : δ} {data : Bytes}
    (hread : codecAnswer cd u.codec data = .message) :
    (decodeResponse cd NullResponseDecoder.onMessageDecoded u w data).threw = false := by
  cases hdec : cd.decodeAs .response u.codec data with
  | wait s' rest => simp [codecAnswer, hdec] at hread
  | fail s' rest e => simp [codecAnswer, hdec] at hread
  | done s' md rest =>
    have hb : md.messageType ≠ .heartbeat := by
      intro hb
      simp [codecAnswer, hdec, hb] at hread
    simp [decodeResponse, DecoderBase.onData_message hdec hb, completing,
      NullResponseDecoder.onMessageDecoded]

/-- The one status that the `switch` does not know comes from the exception handler of `decode`. -/
theorem onUpstreamData_panics_iff {data : Bytes} {endStream : Bool} :
    (s.onUpstreamData cd data endStream).1 = .panicked "not reached" ↔
      ∃ e, codecAnswer cd s.decoder.codec data = .throws e ∧ e.isEnvoyException = true := by
  have hr := decodeResponse_decodes cd NullResponseDecoder.onMessageDecoded s.decoder () data
  have hreturned : (decodeResponse cd NullResponseDecoder.onMessageDecoded s.decoder () data).threw = false →
      (s.onUpstreamData cd data endStream).1 = .returned := by
    intro hret
    simp only [ShadowRouterImpl.onUpstreamData, hr.returned hret]
    cases (decodeResponse cd NullResponseDecoder.onMessageDecoded s.decoder () data).response.complete <;> rfl
  cases hread : codecAnswer cd s.decoder.codec data with
  | waits => simp [hreturned (hr.waits hread)]
  | message => simp [hreturned (null_returns hread)]
  | throws e =>
    simp only [ShadowRouterImpl.onUpstreamData, (hr.throws e hread).2]
    cases he : e.isEnvoyException <;> simp [he]

theorem mem_shadowCalls {call : ShadowCall σ} {unread : Bytes} {chunks : List (Bytes × Bool)}
    (h : call ∈ shadowCalls cd s unread chunks) :
    ∃ (s' : ShadowRouterImpl σ) (endStream : Bool), s'.decoder.codec = call.codec ∧
      call.ending = (s'.onUpstreamData cd call.data endStream).1 := by
  induction chunks generalizing s unread with
  | nil => cases h
  | cons chunk chunks ih =>
    obtain ⟨chunk, endStream⟩ := chunk
    rw [shadowCalls] at h
    split at h
    · cases h
    · have hfirst :
          call = ⟨s.decoder.codec, unread ++ chunk, (s.onUpstreamData cd (unread ++ chunk) endStream).1⟩ →
          ∃ (s' : ShadowRouterImpl σ) (endStream : Bool), s'.decoder.codec = call.codec ∧
            call.ending = (s'.onUpstreamData cd call.data endStream).1 := by
        rintro rfl
        exact ⟨s, endStream, rfl, rfl⟩
      split at h
      · rcases List.mem_cons.1 h with h | h
        · exact hfirst h
        · exact ih h
      · exact hfirst (List.mem_singleton.1 h)

/-- No call before the response is complete panics, exactly if none finds bytes that make the codec
throw an `EnvoyException`. -/
theorem shadow_never_panics_iff (cd : Codec σ α) (s : ShadowRouterImpl σ) (unread : Bytes)
    (chunks : List (Bytes × Bool)) :
    (∀ call ∈ shadowCalls cd s unread chunks, call.ending ≠ .panicked "not reached") ↔
      ∀ call ∈ shadowCalls cd s unread chunks, ∀ e, codecAnswer cd call.codec call.data =
        .throws e → e.isEnvoyException = false := by
  refine forall₂_congr fun call hcall => ?_
  obtain ⟨s', endStream, hcodec, hending⟩ := mem_shadowCalls hcall
  rw [hending, ne_eq, onUpstreamData_panics_iff, hcodec]
  simp

end Shadow

/-- Bytes that are no tRPC frame, from a mirror upstream. -/
theorem bad_magic_panics :
    let cd := Trpc.trpcCodec Unit Trpc.wireProtobuf
    (shadowCalls cd { decoder := newResponse cd false } [] [(List.replicate 16 0, false)]).map (·.ending) =
      [.panicked "not reached"] := by
  rfl

end MetaProtocolProxy
