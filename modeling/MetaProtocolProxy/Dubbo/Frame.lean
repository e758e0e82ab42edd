import MetaProtocolProxy.Dubbo.Codec
/-
# Dubbo frames

A `Frame` is a Dubbo message on the wire whose body is as long as its header says. What the
machine does with a frame at the front of its buffer is settled here up to the body: the header
depends on 16 bytes only (`decodeHeader_append`), a heartbeat is taken whole (`run_heartbeat`),
and any other message leaves the machine at its body with the header taken (`run_header`).
-/
namespace MetaProtocolProxy.Dubbo

open Bytes

/-- A message on the wire; its body size is an `int32_t`. -/
structure Frame where
  flag : UInt8
  status : UInt8
  id : Bytes
  body : Bytes
  id_length : id.length = 8
  body_lt : body.length < 2 ^ 31

theorem decodeHeader_append {h : Bytes} (hlen : messageSize ≤ h.length) (rest : Bytes)
    (md : MessageMetadata) : decodeHeader (h ++ rest) md = decodeHeader h md := by
  simp only [messageSize] at hlen
  have hshort : ¬ (h ++ rest).length < messageSize := by
    simp only [List.length_append, messageSize]
    omega
  have hshort' : ¬ h.length < messageSize := by
    simp only [messageSize]
    omega
  have hbyte : ∀ pos < 16, peekByte pos (h ++ rest) = peekByte pos h := by
    intro pos hpos
    simp only [peekByte, List.getD_eq_getElem?_getD]
    rw [List.getElem?_append_left (by omega)]
  have hmagic : peekBE 2 0 (h ++ rest) = peekBE 2 0 h := peekBE_append rest (by omega)
  have hid : peekBE 8 requestIDOffset (h ++ rest) = peekBE 8 requestIDOffset h :=
    peekBE_append rest (by simp only [requestIDOffset]; omega)
  have hsize : peekBE 4 bodySizeOffset (h ++ rest) = peekBE 4 bodySizeOffset h :=
    peekBE_append rest (by simp only [bodySizeOffset]; omega)
  simp only [decodeHeader, parseRequestInfoFromBuffer, parseResponseInfoFromBuffer, hshort, hshort',
    hbyte flagOffset (by decide), hbyte statusOffset (by decide), hmagic, hid, hsize]

theorem decodeHeader_short {buffer : Bytes} (h : buffer.length < messageSize) (md : MessageMetadata) :
    decodeHeader buffer md = (md, .ok none) := by
  rw [decodeHeader, if_pos h]

/-- What `decodeHeader` does with the flag and the status. -/
def parsedInfo (buffer : Bytes) (md : MessageMetadata) : MessageMetadata × Except Failure Unit :=
  let md := { md with requestId := peekBE 8 requestIDOffset buffer }
  let isEvent := hasMask (peekByte flagOffset buffer) eventMask
  if hasMask (peekByte flagOffset buffer) messageTypeMask then
    parseRequestInfoFromBuffer buffer
      { md with messageType := if isEvent then .heartbeatRequest else .request }
  else parseResponseInfoFromBuffer buffer
    { md with messageType := if isEvent then .heartbeatResponse else .response }

structure AcceptedHeader (buffer : Bytes) (md msg : MessageMetadata) (ctx : Context) : Prop where
  length : messageSize ≤ buffer.length
  size : peekBE 4 bodySizeOffset buffer ≤ maxBodySize
  parsed : parsedInfo buffer md = (msg, .ok ())
  context : ctx = { headerSize := messageSize, bodySize := peekBE 4 bodySizeOffset buffer
                    isHeartbeat := hasMask (peekByte flagOffset buffer) eventMask }

theorem decodeHeader_accepted {buffer : Bytes} {md msg : MessageMetadata} {ctx : Context}
    (h : decodeHeader buffer md = (msg, .ok (some ctx))) : AcceptedHeader buffer md msg ctx := by
  unfold decodeHeader at h
  split at h
  · cases h
  next hlen =>
  dsimp only at h
  split at h
  · cases h
  split at h
  · cases h
  next hsize =>
  -- a size that is not negative is what the four bytes say
  have hbody : int32 (peekBE 4 bodySizeOffset buffer) = peekBE 4 bodySizeOffset buffer := by
    have := peekBE_lt 4 bodySizeOffset buffer
    unfold int32 at hsize ⊢
    split <;> simp_all
    omega
  rw [hbody] at hsize
  split at h
  · cases h
  next hparsed =>
  cases h
  exact ⟨Nat.not_lt.1 hlen, by omega, hparsed, by rw [hbody]; rfl⟩

namespace Frame

variable (f : Frame)

def header : Bytes := 0xda :: 0xbb :: f.flag :: f.status :: (f.id ++ writeBE 4 f.body.length)

def bytes : Bytes := f.header ++ f.body

def isRequest : Bool := hasMask f.flag messageTypeMask

def isEvent : Bool := hasMask f.flag eventMask

theorem header_length : f.header.length = messageSize := by
  simp [header, f.id_length, messageSize]

theorem header_ne_nil : f.header ≠ [] := by simp [header]

def context : Context := { headerSize := messageSize, bodySize := f.body.length, isHeartbeat := f.isEvent }

def headedContext : Context := { f.context with originMessage := f.header }

theorem not_short (rest : Bytes) : ¬ (f.body ++ rest).length < f.headedContext.bodySize := by
  rw [List.length_append, show f.headedContext.bodySize = f.body.length from rfl]
  omega

theorem peek_bodySize : peekBE 4 bodySizeOffset f.header = f.body.length := by
  have hdrop : f.header.drop bodySizeOffset = writeBE 4 f.body.length := by
    simp only [header, bodySizeOffset, List.drop_succ_cons]
    exact List.drop_left' f.id_length
  have hlt : f.body.length < 256 ^ 4 := Nat.lt_trans f.body_lt (by decide)
  have htake : (writeBE 4 f.body.length).take 4 = writeBE 4 f.body.length :=
    List.take_of_length_le (by simp)
  rw [peekBE, hdrop, htake, ofBE_writeBE, Nat.mod_eq_of_lt hlt]

theorem peek_requestId : peekBE 8 requestIDOffset f.header = ofBE f.id := by
  have hdrop : f.header.drop requestIDOffset = f.id ++ writeBE 4 f.body.length := by
    simp only [header, requestIDOffset, List.drop_succ_cons, List.drop_zero]
  rw [peekBE, hdrop, List.take_left' f.id_length]

theorem int32_bodySize : int32 f.body.length = f.body.length := by
  rw [int32, if_pos f.body_lt]

def parsed (md : MessageMetadata) : MessageMetadata × Except Failure Unit :=
  if f.isRequest then
    parseRequestInfoFromBuffer f.header
      { md with requestId := ofBE f.id, messageType := if f.isEvent then .heartbeatRequest else .request }
  else
    parseResponseInfoFromBuffer f.header
      { md with requestId := ofBE f.id, messageType := if f.isEvent then .heartbeatResponse else .response }

theorem decodeHeader_oversized (hsize : ¬ f.body.length ≤ maxBodySize) (md : MessageMetadata) :
    decodeHeader f.header md =
      (md, .error (.envoyException s!"invalid dubbo message size {(f.body.length : Int)}")) := by
  have hlen : ¬ f.header.length < messageSize := by
    rw [f.header_length]
    omega
  have hmagic : peekBE 2 0 f.header = magicNumber := rfl
  have hbig : (f.body.length : Int) > maxBodySize ∨ (f.body.length : Int) < 0 := by omega
  simp only [decodeHeader, hlen, hmagic, f.peek_bodySize, f.int32_bodySize, hbig, if_false, if_true, ne_eq,
    not_true_eq_false]

theorem decodeHeader_sized (hsize : f.body.length ≤ maxBodySize) {md md' : MessageMetadata}
    {r : Except Failure Unit}
    (hp : f.parsed md = (md', r)) : decodeHeader f.header md = (md', r.map fun _ => some f.context) := by
  have hlen : ¬ f.header.length < messageSize := by
    rw [f.header_length]
    omega
  have hmagic : peekBE 2 0 f.header = magicNumber := rfl
  have hflag : peekByte flagOffset f.header = f.flag := rfl
  have hsmall : ¬ ((f.body.length : Int) > maxBodySize ∨ (f.body.length : Int) < 0) := by omega
  unfold parsed isRequest isEvent at hp
  simp only [decodeHeader, hlen, hmagic, hflag, f.peek_bodySize, f.peek_requestId, f.int32_bodySize,
    hsmall, if_false, ne_eq, not_true_eq_false]
  rw [hp]
  cases r <;> rfl

theorem bytes_take (rest : Bytes) : (f.header ++ rest).take messageSize = f.header :=
  List.take_left' f.header_length

theorem bytes_drop (rest : Bytes) : (f.header ++ rest).drop messageSize = rest :=
  List.drop_left' f.header_length

open DecoderStateMachine

variable {f} {hs : Hessian2} {m : DecoderStateMachine} {md : MessageMetadata}

theorem run_refused {e : Failure} (hm : m.state = .onDecodeStreamHeader)
    (hdec : decodeHeader f.header m.metadata = (md, .error e)) (q : Bytes) :
    m.run hs (f.header ++ q) = .fail { m with metadata := md } (f.header ++ q) e := by
  have hdec' := (decodeHeader_append (le_of_eq f.header_length.symm) q m.metadata).trans hdec
  rw [DecoderStateMachine.run, runLoop]
  simp only [hm, handleState, onDecodeStreamHeader, hdec', reduceCtorEq, if_false]

theorem run_header (hm : m.state = .onDecodeStreamHeader)
    (hdec : decodeHeader f.header m.metadata = (md, .ok (some f.context)))
    (hbeat : ¬ (md.messageType = .heartbeatRequest ∨ md.messageType = .heartbeatResponse)) (q : Bytes) :
    m.run hs (f.header ++ q) = runLoop hs 1 ⟨.onDecodeStreamData, md, f.headedContext⟩ q := by
  have hdec' := (decodeHeader_append (le_of_eq f.header_length.symm) q m.metadata).trans hdec
  have hnext : handleState hs m (f.header ++ q) = .next ⟨.onDecodeStreamData, md, f.headedContext⟩ q := by
    simp only [handleState, hm, onDecodeStreamHeader, hdec', hbeat, if_false]
    simp only [context, Context.moveIn, f.bytes_take, f.bytes_drop, List.nil_append]
    rfl
  rw [DecoderStateMachine.run, runLoop]
  simp only [hm, hnext, reduceCtorEq, if_false]

theorem run_heartbeat (hm : m.state = .onDecodeStreamHeader)
    (hdec : decodeHeader f.header m.metadata = (md, .ok (some f.context)))
    (hbeat : md.messageType = .heartbeatRequest ∨ md.messageType = .heartbeatResponse) (q : Bytes) :
    m.run hs (f.header ++ q) =
      if q.length < f.body.length then .wait ⟨.onDecodeStreamHeader, md, f.context⟩ (f.header ++ q)
      else .done ⟨.done, md, { f.context with originMessage := f.header ++ q.take f.body.length }⟩ ()
        (q.drop f.body.length) := by
  have hdec' := (decodeHeader_append (le_of_eq f.header_length.symm) q m.metadata).trans hdec
  have hlen : (f.header ++ q).length < messageSize + f.body.length ↔ q.length < f.body.length := by
    rw [List.length_append, f.header_length]
    omega
  have htake : (f.header ++ q).take (messageSize + f.body.length) = f.header ++ q.take f.body.length := by
    rw [← f.header_length, List.take_append]
    simp
  have hdrop : (f.header ++ q).drop (messageSize + f.body.length) = q.drop f.body.length := by
    rw [← f.header_length, List.drop_append]
    simp
  rw [DecoderStateMachine.run, runLoop]
  simp only [hm, handleState, onDecodeStreamHeader, hdec', hbeat, if_true, reduceCtorEq, if_false]
  by_cases hq : q.length < f.body.length
  · simp only [context, hlen, hq, if_true]
  · simp only [context, hlen, hq, if_false, Context.moveIn, htake, hdrop, List.nil_append]
    rw [runLoop]
    simp

theorem runLoop_body_wait (n : Nat) {q : Bytes} (hq : q.length < f.body.length) :
    runLoop hs (n + 1) ⟨.onDecodeStreamData, md, f.headedContext⟩ q =
      .wait ⟨.onDecodeStreamData, md, f.headedContext⟩ q := by
  have hdata : decodeData hs q f.headedContext md = .ok none := by
    rw [decodeData, if_pos (by exact hq)]
  rw [runLoop]
  simp only [handleState, onDecodeStreamData, hdata, reduceCtorEq, if_false]

theorem runLoop_body_error (n : Nat) {q : Bytes} {e : Failure}
    (h : decodeData hs q f.headedContext md = .error e) :
    runLoop hs (n + 1) ⟨.onDecodeStreamData, md, f.headedContext⟩ q =
      .fail ⟨.onDecodeStreamData, md, f.headedContext⟩ q e := by
  rw [runLoop]
  simp only [handleState, onDecodeStreamData, h, reduceCtorEq, if_false]

theorem runLoop_body_done (n : Nat) {rest : Bytes} {md' : MessageMetadata}
    (h : decodeData hs (f.body ++ rest) f.headedContext md = .ok (some md')) :
    runLoop hs (n + 1) ⟨.onDecodeStreamData, md, f.headedContext⟩ (f.body ++ rest) =
      .done ⟨.done, md', { f.context with originMessage := f.bytes }⟩ () rest := by
  rw [runLoop]
  simp only [handleState, onDecodeStreamData, h, reduceCtorEq, if_false]
  rw [runLoop.eq_def]
  simp [headedContext, context, Context.moveIn, bytes]

end Frame

end MetaProtocolProxy.Dubbo
