import MetaProtocolProxy.Dubbo.Passthrough
import MetaProtocolProxy.Proxy.Responses
/-
# Heartbeats ahead of a response (active_message.cc:25-41, active_message.h:43-47, decoder.cc:9-82)

`ActiveResponseDecoder::onData` runs the decoder once. A heartbeat of the upstream ends that run
with `WaitForData`, as if bytes were missing, and what stands behind the heartbeat in the buffer is
looked at with the next bytes that arrive, if any do.

* `deliver` — a call of `onData` with each chunk, unread bytes in front, until the status is not
  `MoreData`.
* `deliver_forwarded_iff` — after any piece of the stream: the response comes through exactly if the
  frames that have not arrived are never more than the calls to come (`Framing.InTime`).
* `heartbeats_in_time_iff` — the same from the first byte on.
-/
namespace MetaProtocolProxy

open Framing

variable {σ α : Type}

/-- A call with each chunk, the unread bytes in front, until the status is not `MoreData`. -/
def deliver (cfg : Config σ α) (m : MsgId) :
    ConnectionManager σ α → Bytes → List Bytes → Except Failure UpstreamResponseStatus × ConnectionManager σ α
  | cm, _, [] => (.ok .moreData, cm)
  | cm, unread, chunk :: chunks =>
    match (cm.messages m).responseDecoder with
    | none => (.error (.nullDereference "response_decoder_"), cm)
    | some d =>
      match d.onData cfg cm m (unread ++ chunk) with
      | (.ok .moreData, cm', unread') => deliver cfg m cm' unread' chunks
      | (r, cm', _) => (r, cm')

section Calls

variable {cfg : Config σ α} {cm : ConnectionManager σ α} {m : MsgId} {a : ActiveMessage σ α}
  {d : ActiveResponseDecoder σ α} {s' : σ} {data rest : Bytes} {md : Metadata α}

theorem onData_response (ha : cm.messages m = a) (hd : a.responseDecoder = some d)
    (hopen : cm.connectionOpen = true)
    (hdec : cfg.codec.decodeAs .response d.codec data = .done s' md rest) (hb : md.messageType ≠ .heartbeat)
    {r : Option (Metadata α × Bytes)} (hfw : forwarded cfg a md = .ok r) :
    ∃ cm₁, d.onData cfg cm m data = (.ok .complete, cm₁, rest) ∧ cm₁.out = cm.out ++ responseOuts m r := by
  have hopened := responseDecoded_open cfg ha hd hopen md
  rw [hfw] at hopened
  obtain ⟨cm₁, hon, he⟩ := onData_done cfg hdec hb hopened.1 hopened.2
  exact ⟨cm₁, hon, he.out⟩

end Calls

/-- The frames of a stream: heartbeats `hs`, then the response `f`. -/
structure BeatsThenResponse (cfg : Config σ α) (R : Bytes → σ → Bytes → Prop)
    (msg : Bytes → Metadata α) (hs : List Bytes) (f : Bytes) : Prop where
  frames : ∀ g ∈ hs ++ [f], IsFrame (cfg.codec.decodeAs .response) R g (msg g)
  beats : ∀ g ∈ hs, (msg g).messageType = .heartbeat
  response : (msg f).messageType ≠ .heartbeat

/-- The last call returns `Complete`, and the response has been written to the downstream
connection. -/
def DeliversResponse (cfg : Config σ α) (m : MsgId) (cm : ConnectionManager σ α) (unread : Bytes)
    (cs : List Bytes) (r : Option (Metadata α × Bytes)) : Prop :=
  (deliver cfg m cm unread cs).1 = .ok .complete ∧ (deliver cfg m cm unread cs).2.out =
    cm.out ++ responseOuts m r

section Delivery

variable {cfg : Config σ α} {cm : ConnectionManager σ α} {m : MsgId} {a : ActiveMessage σ α}
    {d : ActiveResponseDecoder σ α}
  {R : Bytes → σ → Bytes → Prop} {msg : Bytes → Metadata α} {hs cs : List Bytes} {f : Bytes}
  {r : Option (Metadata α × Bytes)}

theorem BeatsThenResponse.tail {h : Bytes} (hU : BeatsThenResponse cfg R msg (h :: hs) f) :
    BeatsThenResponse cfg R msg hs f where
  frames g hg := hU.frames g (List.mem_cons_of_mem h hg)
  beats g hg := hU.beats g (List.mem_cons_of_mem h hg)
  response := hU.response

/-- After the bytes `got` of the heartbeats and the response that are still to come. -/
theorem deliver_forwarded_iff {got unread : Bytes} (hU : BeatsThenResponse cfg R msg hs f)
    (ha : cm.messages m = a)
    (hd : a.responseDecoder = some d) (hst : d.responseStatus = .moreData) (hopen : cm.connectionOpen = true)
    (hfw : forwarded cfg a (msg f) = .ok r) (hP : Pending R (hs ++ [f]) got d.codec unread)
    (hcut : got ++ cs.flatten = (hs ++ [f]).flatten) :
    DeliversResponse cfg m cm unread cs r ↔ InTime (hs ++ [f]) got cs := by
  -- one call per chunk; what has been decoded is dropped from the stream
  induction cs generalizing hs cm a d got unread with
  | nil => simp [DeliversResponse, deliver, inTime_nil]
  | cons c cs ih =>
    rw [List.flatten_cons, ← List.append_assoc] at hcut
    have hcm : (cm.messages m).responseDecoder = some d := ha ▸ hd
    have hpre : got ++ c <+: (hs ++ [f]).flatten := hcut ▸ List.prefix_append _ _
    rcases poll_chunk hU.frames (by simp) hpre hP with ⟨hnone, s', rest, hw, hP'⟩ | ⟨g, gs, hgs, hg,
      s', rest, hdone, hP'⟩
    · obtain ⟨dec, cm', hon, he⟩ := onData_quiet cfg ha hd (.inl hw)
      rw [hst] at hon
      rw [inTime_wait hnone, ← ih hU he.self rfl hst (he.connectionOpen.trans hopen) hfw hP' hcut]
      simp only [DeliversResponse, deliver, hcm, hon, he.out, List.append_nil]
    · have hcut' : (got ++ c).drop g.length ++ cs.flatten = gs.flatten := by
        rw [hgs, List.flatten_cons] at hcut
        rw [← List.drop_append_of_le_length hg.length_le, hcut, List.drop_left]
      cases hs with
      | nil =>
        -- the response itself
        obtain ⟨rfl, rfl⟩ : f = g ∧ [] = gs := by simpa using hgs
        obtain ⟨cm', hon, hout⟩ := onData_response ha hd hopen hdone hU.response hfw
        simp only [List.nil_append, inTime_done hg, inTime_of_none, DeliversResponse, deliver, hcm,
          hon, hout, and_self]
      | cons h hs =>
        obtain ⟨rfl, rfl⟩ : h = g ∧ hs ++ [f] = gs := by simpa using hgs
        obtain ⟨dec, cm', hon, he⟩ := onData_quiet cfg ha hd (.inr ⟨_, hdone, hU.beats h List.mem_cons_self⟩)
        rw [hst] at hon
        rw [List.cons_append, inTime_done hg,
          ← ih hU.tail he.self rfl hst (he.connectionOpen.trans hopen) hfw hP' hcut']
        simp only [DeliversResponse, deliver, hcm, hon, he.out, List.append_nil]

theorem BeatsThenResponse.pending (hU : BeatsThenResponse cfg R msg hs f) (hR : R [] d.codec []) :
    Pending R (hs ++ [f]) [] d.codec [] :=
  pending_fresh (fun g hg => (hU.frames g hg).ne) hR []

/-- The response is forwarded with its last byte exactly if the frames that have not arrived are
never more than the calls to come. -/
theorem heartbeats_in_time_iff (hU : BeatsThenResponse cfg R msg hs f) (hR : R [] d.codec [])
    (ha : cm.messages m = a)
    (hd : a.responseDecoder = some d) (hst : d.responseStatus = .moreData) (hopen : cm.connectionOpen = true)
    (hfw : forwarded cfg a (msg f) = .ok r) (hcut : cs.flatten = (hs ++ [f]).flatten) :
    DeliversResponse cfg m cm [] cs r ↔ InTime (hs ++ [f]) [] cs :=
  deliver_forwarded_iff hU ha hd hst hopen hfw (hU.pending hR) hcut

end Delivery

/-! ## A heartbeat and an error response of Dubbo -/

section Sample

open Dubbo

def dubboConfig : Config DubboCodec DubboAny where
  codec := dubboCodec fragment encodeShortMap
  applicationProtocol := "dubbo"
  multiplexing := false

/-- One request is waiting for its response. -/
def oneWaiting : ConnectionManager DubboCodec DubboAny :=
  { messages := fun _ => { responseDecoder := some { codec := {} } } }

theorem oneWaiting_forwarded {md : Metadata DubboAny} (htype : md.messageType = .error) :
    forwarded dubboConfig (oneWaiting.messages 0) md =
      .ok (some (md.putString realServerAddress "", md.originMessage)) := by
  have hfilters : encoderFilters (oneWaiting.messages 0) [] = (.continueIteration, []) := rfl
  have haddress : (oneWaiting.messages 0).metadata.getString realServerAddress = .ok "" := rfl
  have hencode :
      dubboConfig.codec.encode (md.putString realServerAddress "") []
        (md.putString realServerAddress "").originMessage =
      .ok md.originMessage := encode_error encodeShortMap htype "" [] md.originMessage
  simp only [forwarded, hfilters, haddress, hencode]

theorem beat_then_answer :
    ∃ msg md, BeatsThenResponse dubboConfig (ResumesBy Reread) msg [emptyHeartbeat.bytes]
      (failedAnswer 70).bytes ∧
      forwarded dubboConfig (oneWaiting.messages 0) (msg (failedAnswer 70).bytes) =
        .ok (some (md, (failedAnswer 70).bytes)) := by
  have hbeat : HeartbeatRequest emptyHeartbeat := ⟨by decide, by decide, by decide, by decide⟩
  have hanswer : ErrorResponse (failedAnswer 70) .serviceError := failedAnswer_error (by decide) rfl
  obtain ⟨beat, hbeatFrame, hbeatType⟩ := hbeat.isFrame fragment encodeShortMap .response
  obtain ⟨answer, hanswerFrame, htype, -, -, horigin⟩ :=
    hanswer.isFrame (by decide) fragment encodeShortMap .response
  have hne : (failedAnswer 70).bytes ≠ emptyHeartbeat.bytes := by decide
  refine ⟨fun g => if g = emptyHeartbeat.bytes then beat else answer,
    answer.putString realServerAddress "", ⟨?_, ?_, ?_⟩, ?_⟩
  · intro g hg
    rcases List.mem_pair.1 hg with rfl | rfl
    · rw [if_pos rfl]
      exact hbeatFrame
    · rw [if_neg hne]
      exact hanswerFrame
  · intro g hg
    rw [if_pos (List.mem_singleton.1 hg), hbeatType]
  · rw [if_neg hne, htype]
    decide
  · dsimp only
    rw [if_neg hne, oneWaiting_forwarded htype, horigin]

/-- Cut between the frames, the response is forwarded with its last byte. -/
theorem answer_after_heartbeat :
    ∃ msg md, BeatsThenResponse dubboConfig (ResumesBy Reread) msg [emptyHeartbeat.bytes]
      (failedAnswer 70).bytes ∧
      DeliversResponse dubboConfig 0 oneWaiting [] [emptyHeartbeat.bytes, (failedAnswer 70).bytes]
        (some (md, (failedAnswer 70).bytes)) := by
  obtain ⟨msg, md, hU, hfw⟩ := beat_then_answer
  refine ⟨msg, md, hU, (heartbeats_in_time_iff hU resumesBy_idle rfl rfl rfl rfl hfw rfl).2 ?_⟩
  exact ⟨le_rfl, by decide⟩

/-- In one chunk, the response stays in the buffer behind the heartbeat. -/
theorem answer_behind_heartbeat :
    ∃ msg md, BeatsThenResponse dubboConfig (ResumesBy Reread) msg [emptyHeartbeat.bytes]
      (failedAnswer 70).bytes ∧
      forwarded dubboConfig (oneWaiting.messages 0) (msg (failedAnswer 70).bytes) =
        .ok (some (md, (failedAnswer 70).bytes)) ∧
      ¬ DeliversResponse dubboConfig 0 oneWaiting [] [emptyHeartbeat.bytes ++ (failedAnswer 70).bytes]
        (some (md, (failedAnswer 70).bytes)) := by
  obtain ⟨msg, md, hU, hfw⟩ := beat_then_answer
  have hcut : [] ++ [emptyHeartbeat.bytes ++ (failedAnswer 70).bytes].flatten =
      ([emptyHeartbeat.bytes] ++ [(failedAnswer 70).bytes]).flatten := by
    decide
  refine ⟨msg, md, hU, hfw, fun h => ?_⟩
  obtain ⟨hcalls, -⟩ := (deliver_forwarded_iff hU rfl rfl rfl rfl hfw (hU.pending resumesBy_idle) hcut).1 h
  exact absurd hcalls (by decide)

end Sample

end MetaProtocolProxy
