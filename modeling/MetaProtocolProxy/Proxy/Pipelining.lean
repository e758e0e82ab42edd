import MetaProtocolProxy.Proxy.Replies
import MetaProtocolProxy.Trpc.Frames
/-
# Responses on a multiplexed connection (upstream_handler_impl.cc, upstream_response.h)

`UpstreamHandlerImpl::onUpstreamData` makes one attempt to decode one response, whatever the buffer
holds: a call whose bytes complete two responses writes the first, and the second waits for the next
bytes of the upstream. That the responses that have arrived are written and called back after every
call takes that no call completes more than one, and that no decoder is dropped in the middle of a
frame it cannot begin again, which happens if the new decoder's `complete_` is found set
(`responses_drained`).

`ResponseFrames` is what this needs of a codec. tRPC has it (`Trpc.responseFrames`).
-/
namespace MetaProtocolProxy

open Framing (IsFrame residue arrived completed)

variable {σ α : Type}

/-- The response frames of a codec, which are delivered as they are. -/
structure ResponseFrames (cd : Codec σ α) where
  IsResponse : Bytes → Prop
  /-- What the codec remembers of a piece of a frame. -/
  Resumes : Bytes → σ → Bytes → Prop
  message : Bytes → Metadata α
  fresh : Resumes [] cd.init []
  isFrame : ∀ {f}, IsResponse f → IsFrame (cd.decodeAs .response) Resumes f (message f)
  notHeartbeat : ∀ {f}, IsResponse f → (message f).messageType ≠ .heartbeat
  originMessage : ∀ {f}, IsResponse f → (message f).originMessage = f
  encode : ∀ {f}, IsResponse f → cd.encode (message f) [] f = .ok f

/-- The codec leaves an incomplete frame in the buffer, where a fresh codec finds it. -/
def ResponseFrames.Restarts {cd : Codec σ α} (F : ResponseFrames cd) : Prop :=
  ∀ p s buf, F.Resumes p s buf → F.Resumes p cd.init buf

/-- The bytes of one call, and what `complete_` holds if the call makes a new decoder. -/
structure Chunk where
  bytes : Bytes
  garbage : Bool := false
  deriving DecidableEq, Repr

/-- One call of `onUpstreamData`: what the last one left unread is in front of the new bytes. -/
def receive (cfg : Config σ α) (h : HandlerId) (s : ConnectionManager σ α × Bytes) (x : Chunk) :
    ConnectionManager σ α × Bytes :=
  handlerUpstreamData cfg s.1 h (s.2 ++ x.bytes) x.garbage

/-- What the upstream has sent. -/
def receivedBytes (xs : List Chunk) : Bytes := (xs.map Chunk.bytes).flatten

def Out.isDelivery : Out α → Bool
  | .handlerResponse .. => true
  | .callback .. => true
  | _ => false

/-- The responses a connection manager's handlers have delivered. -/
def deliveries (cm : ConnectionManager σ α) : List (Out α) := cm.out.filter Out.isDelivery

/-- Delivering `md`: the response is written, and the callback registered for its id is run. -/
def delivered (h : HandlerId) (callbacks : List (Nat × MsgId)) (md : Metadata α) : List (Out α) :=
  match callbacks.lookup md.requestId with
  | none => [.handlerResponse h md]
  | some m => [.handlerResponse h md, .callback h md.requestId m]

/-- The callbacks left after `md`. -/
def unanswered (callbacks : List (Nat × MsgId)) (md : Metadata α) : List (Nat × MsgId) :=
  callbacks.filter fun e => e.1 != md.requestId

/-- Delivering a list of responses in order. -/
def deliveredAll (h : HandlerId) (callbacks : List (Nat × MsgId)) : List (Metadata α) → List (Out α)
  | [] => []
  | md :: mds => delivered h callbacks md ++ deliveredAll h (unanswered callbacks md) mds

theorem deliveredAll_append (h : HandlerId) (callbacks : List (Nat × MsgId)) (mds mds' : List (Metadata α)) :
    deliveredAll h callbacks (mds ++ mds') =
      deliveredAll h callbacks mds ++ deliveredAll h (mds.foldl unanswered callbacks) mds' := by
  induction mds generalizing callbacks with
  | nil => rfl
  | cons md mds ih => simp only [List.cons_append, deliveredAll, ih, List.foldl_cons, List.append_assoc]

def Out.isResponse : Out α → Bool
  | .handlerResponse .. => true
  | _ => false

def responsesIn (os : List (Out α)) : Nat := os.countP Out.isResponse

theorem responsesIn_append (os os' : List (Out α)) :
    responsesIn (os ++ os') = responsesIn os + responsesIn os' :=
  List.countP_append

theorem responsesIn_delivered (h : HandlerId) (callbacks : List (Nat × MsgId)) (md : Metadata α) :
    responsesIn (delivered h callbacks md) = 1 := by
  unfold delivered
  split <;> rfl

theorem responsesIn_deliveredAll (h : HandlerId) (callbacks : List (Nat × MsgId)) (mds : List (Metadata α)) :
    responsesIn (deliveredAll h callbacks mds) = mds.length := by
  induction mds generalizing callbacks with
  | nil => rfl
  | cons md mds ih =>
    rw [deliveredAll, responsesIn_append, ih, responsesIn_delivered, List.length_cons, Nat.add_comm]

/-! ## One call -/

section Call

variable {cfg : Config σ α} {cm : ConnectionManager σ α} {h : HandlerId}

theorem onUpstreamResponseCallback_spec (cm : ConnectionManager σ α) (m : MsgId) :
    (onUpstreamResponseCallback cm m).handlers = cm.handlers ∧
      deliveries (onUpstreamResponseCallback cm m) = deliveries cm := by
  unfold onUpstreamResponseCallback
  split
  · exact ⟨rfl, rfl⟩
  · cases hur : (cm.messages m).upstreamRequest with
    | none => exact ⟨rfl, rfl⟩
    | some ur =>
      have he := complete_effect rfl hur
      have he' := he.trans_nil (Effect.deferredDeleteMessage he.self m)
      refine ⟨he'.handlers, ?_⟩
      rw [deliveries, he'.out, List.filter_append]
      cases ur.conn with
      | none => simp [releasedOf, deliveries]
      | some c => simp [releasedOf, deliveries, Out.isDelivery]

theorem unanswered_of_lookup_none {callbacks : List (Nat × MsgId)} {md : Metadata α}
    (hl : callbacks.lookup md.requestId = none) : unanswered callbacks md = callbacks := by
  refine List.filter_eq_self.2 fun e he => ?_
  have hne := List.lookup_eq_none_iff.1 hl e he
  simpa [bne_iff_ne, ne_comm] using hne

theorem handlerMessageDecoded_spec (cm : ConnectionManager σ α) (h : HandlerId) (md : Metadata α) :
    (handlerMessageDecoded cm h md).handlers h =
        { cm.handlers h with responseCallbacks := unanswered (cm.handlers h).responseCallbacks md } ∧
      deliveries (handlerMessageDecoded cm h md) =
        deliveries cm ++ delivered h (cm.handlers h).responseCallbacks md := by
  have hemit : ∀ (cm : ConnectionManager σ α) (o : Out α), o.isDelivery = true →
      deliveries (cm.emit o) = deliveries cm ++ [o] := by
    intro cm o ho
    simp [deliveries, ConnectionManager.emit, ho]
  have hcb : ((cm.emit (.handlerResponse h md)).handlers h).responseCallbacks =
    (cm.handlers h).responseCallbacks := rfl
  simp only [handlerMessageDecoded, hcb, delivered]
  cases hl : (cm.handlers h).responseCallbacks.lookup md.requestId with
  | none =>
    refine ⟨?_, hemit cm _ rfl⟩
    rw [unanswered_of_lookup_none hl]
    rfl
  | some m =>
    obtain ⟨hh, hd⟩ :=
      onUpstreamResponseCallback_spec ((cm.emit (.handlerResponse h md)).emit (.callback h md.requestId m)) m
    constructor
    · simp only [ConnectionManager.modifyHandler, hh, Function.update_self]
      rfl
    · refine hd.trans ?_
      rw [hemit _ _ rfl, hemit _ _ rfl, List.append_assoc]
      rfl

theorem handlerUpstreamData_responses (cm : ConnectionManager σ α) (h : HandlerId) (data : Bytes)
    (garbage : Bool) :
    responsesIn (deliveries (handlerUpstreamData cfg cm h data garbage).1) ≤
      responsesIn (deliveries cm) + 1 := by
  simp only [handlerUpstreamData]
  generalize ((cm.handlers h).upstreamResponse).getD
    { codec := cfg.codec.init, complete := garbage } = response
  have hworld : responsesIn (deliveries (response.decoder.onData cfg.codec .response
      (handlerDelegate cfg h) response.codec
      (cm.modifyHandler h fun hd => { hd with upstreamResponse := some response }) data).world) ≤
        responsesIn (deliveries cm) + 1 := by
    refine DecoderBase.onData_world
      (P := fun cm' => responsesIn (deliveries cm') ≤ responsesIn (deliveries cm) + 1)
      (Nat.le_succ _) (fun _ => Nat.le_succ _) fun md => ?_
    simp only [handlerDelegate, handlerResponseDecoded]
    cases cfg.codec.encode md [] md.originMessage with
    | error e => exact Nat.le_succ _
    | ok bytes =>
      dsimp only
      rw [(handlerMessageDecoded_spec ..).2, responsesIn_append, responsesIn_delivered]
      exact Nat.le_refl _
  -- what happens then to the decoder writes nothing
  generalize response.decoder.onData _ _ _ _ _ data = r at hworld ⊢
  split
  · split <;> exact hworld
  · split <;> exact hworld

def responseCodec (cfg : Config σ α) (cm : ConnectionManager σ α) (h : HandlerId) : σ :=
  ((cm.handlers h).upstreamResponse.map (·.codec)).getD cfg.codec.init

theorem decoding_codec (cm : ConnectionManager σ α) (garbage : Bool) :
    (((cm.handlers h).upstreamResponse).getD { codec := cfg.codec.init, complete := garbage }).codec =
      responseCodec cfg cm h := by
  unfold responseCodec
  cases (cm.handlers h).upstreamResponse <;> rfl

def Incomplete (cm : ConnectionManager σ α) (h : HandlerId) : Prop :=
  ∀ r, (cm.handlers h).upstreamResponse = some r → r.complete = false

/-- The decoder waits. It is kept, unless it is a new one whose `complete_` happens to be set. -/
theorem handlerUpstreamData_wait {data rest : Bytes} (garbage : Bool) {s' : σ} (hinc : Incomplete cm h)
    (hd : cfg.codec.decodeAs .response (responseCodec cfg cm h) data = .wait s' rest) :
    ∃ cm', handlerUpstreamData cfg cm h data garbage = (cm', rest) ∧ cm'.out = cm.out ∧
      (cm'.handlers h).responseCallbacks = (cm.handlers h).responseCallbacks ∧ Incomplete cm' h ∧
      (responseCodec cfg cm' h = s' ∧ (cm'.handlers h).upstreamResponse.isSome = true ∨
        garbage = true ∧ (cm.handlers h).upstreamResponse = none ∧
          responseCodec cfg cm' h = cfg.codec.init) := by
  have hflag : (((cm.handlers h).upstreamResponse).getD
      { codec := cfg.codec.init, complete := garbage }).complete = true →
      garbage = true ∧ (cm.handlers h).upstreamResponse = none := by
    cases hr : (cm.handlers h).upstreamResponse with
    | none => exact fun hg => ⟨hg, rfl⟩
    | some r => simp [hinc r hr]
  simp only [handlerUpstreamData, DecoderBase.onData_wait (decoding_codec cm garbage ▸ hd)]
  generalize ((cm.handlers h).upstreamResponse).getD
    { codec := cfg.codec.init, complete := garbage } = response at hflag ⊢
  cases hc : response.complete with
  | true =>
    simp only [ConnectionManager.modifyHandler, Function.update_self, Option.map_some,
      Option.getD_some, hc, if_true]
    refine ⟨_, rfl, rfl, by simp, ?_, .inr ⟨(hflag hc).1, (hflag hc).2, by simp [responseCodec]⟩⟩
    simp [Incomplete]
  | false =>
    simp only [ConnectionManager.modifyHandler, Function.update_self, Option.map_some, Option.getD_some, hc,
      Bool.false_eq_true, if_false]
    refine ⟨_, rfl, rfl, by simp, ?_, .inl ⟨by simp [responseCodec], by simp⟩⟩
    simp [Incomplete]

theorem handlerUpstreamData_done {data rest : Bytes} (garbage : Bool) {s' : σ} {md : Metadata α}
    {bytes : Bytes}
    (hd : cfg.codec.decodeAs .response (responseCodec cfg cm h) data = .done s' md rest)
    (hb : md.messageType ≠ .heartbeat) (henc : cfg.codec.encode md [] md.originMessage = .ok bytes) :
    ∃ cm', handlerUpstreamData cfg cm h data garbage = (cm', rest) ∧
      deliveries cm' = deliveries cm ++ delivered h (cm.handlers h).responseCallbacks
        { md with originMessage := bytes } ∧
      (cm'.handlers h).responseCallbacks = unanswered (cm.handlers h).responseCallbacks md ∧
      (cm'.handlers h).upstreamResponse = none := by
  simp only [handlerUpstreamData, DecoderBase.onData_message (decoding_codec cm garbage ▸ hd) hb,
    handlerDelegate, handlerResponseDecoded, henc]
  generalize ((cm.handlers h).upstreamResponse).getD
    { codec := cfg.codec.init, complete := garbage } = response
  obtain ⟨hh, hout⟩ := handlerMessageDecoded_spec
    ((cm.modifyHandler h fun hd => { hd with upstreamResponse := some response }).modifyHandler h
      fun hd => { hd with
        upstreamResponse := hd.upstreamResponse.map fun r => { r with complete := true } }) h
    { md with originMessage := bytes }
  generalize handlerMessageDecoded _ h _ = cm₁ at hh hout ⊢
  simp only [ConnectionManager.modifyHandler, Function.update_self, Option.map_some] at hh hout ⊢
  simp only [hh, Option.map_some, Option.getD_some, if_true]
  exact ⟨_, rfl, hout, by simp [unanswered], by simp⟩

end Call

/-! ## All calls -/

/-- No call completes more than one frame of the stream `fs`; `r` has been received before. -/
def AtMostOneEach (fs : List Bytes) : Bytes → List Chunk → Prop
  | _, [] => True
  | r, x :: xs => (completed fs r x.bytes).length ≤ 1 ∧ AtMostOneEach fs (r ++ x.bytes) xs

/-- No new decoder is dropped: the call that makes it, the first one or one behind a call that has
completed a frame (`fresh`), completes a frame or finds `complete_` clear. -/
def NoneDropped (fs : List Bytes) : Bool → Bytes → List Chunk → Prop
  | _, _, [] => True
  | fresh, r, x :: xs =>
    (fresh = true → completed fs r x.bytes = [] → x.garbage = false) ∧
      NoneDropped fs (!(completed fs r x.bytes).isEmpty) (r ++ x.bytes) xs

section Run

variable {cfg : Config σ α} {h : HandlerId} (F : ResponseFrames cfg.codec) {fs : List Bytes}
  {r : Bytes} {fresh : Bool} {s : ConnectionManager σ α × Bytes} {x : Chunk} {xs : List Chunk}

/-- The handler keeps up: all that is left of what it has received is a piece of the next frame.
Part of it the codec may have seen. -/
structure UpToDate (fs : List Bytes) (fresh : Bool) (r : Bytes) (h : HandlerId)
    (s : ConnectionManager σ α × Bytes) : Prop where
  incomplete : Incomplete s.1 h
  seen : ∃ p q buf, F.Resumes p (responseCodec cfg s.1 h) buf ∧ p ++ q = residue fs r ∧ s.2 = buf ++ q
  held : F.Restarts ∨ (fresh = false → (s.1.handlers h).upstreamResponse.isSome = true)

theorem receive_upToDate (hfs : ∀ f ∈ fs, F.IsResponse f) (hpre : r ++ x.bytes <+: fs.flatten)
    (hne : x.bytes ≠ []) (hone : (completed fs r x.bytes).length ≤ 1)
    (hflag : F.Restarts ∨ (fresh = true → completed fs r x.bytes = [] → x.garbage = false))
    (hs : UpToDate F fs fresh r h s) : deliveries (receive cfg h s x).1 = deliveries s.1 ++
        deliveredAll h (s.1.handlers h).responseCallbacks ((completed fs r x.bytes).map F.message) ∧
      ((receive cfg h s x).1.handlers h).responseCallbacks =
        ((completed fs r x.bytes).map F.message).foldl unanswered (s.1.handlers h).responseCallbacks ∧
      UpToDate F fs (!(completed fs r x.bytes).isEmpty) (r ++ x.bytes) h (receive cfg h s x) := by
  obtain ⟨p, q, buf, hR, hpq, hbuf⟩ := hs.seen
  unfold receive
  rw [hbuf]
  rcases Framing.decode_chunk (fun f hf => F.isFrame (hfs f hf)) hpre hR hpq hne with
    ⟨hnone, s', buf', hd, hR'⟩ | ⟨f, gs, s', hsome, hd, hR'⟩
  · obtain ⟨cm', heq, hout, hcb, hinc, hcodec⟩ := handlerUpstreamData_wait x.garbage hs.incomplete hd
    have hdel : deliveries cm' = deliveries s.1 := congrArg (List.filter Out.isDelivery) hout
    -- a decoder that is dropped is one that may be
    have hdropped : x.garbage = true → (s.1.handlers h).upstreamResponse = none → F.Restarts := by
      intro hg hnew
      refine hflag.elim id fun hclear => hs.held.elim id fun hheld => ?_
      cases fresh with
      | true => simp [hclear rfl hnone] at hg
      | false => simp [hnew] at hheld
    rw [heq, hnone]
    refine ⟨by simpa [deliveredAll] using hdel, hcb, hinc, ⟨residue fs (r ++ x.bytes), [], buf', ?_,
      by simp, by simp⟩, ?_⟩
    · rcases hcodec with ⟨hcodec, -⟩ | ⟨hg, hnew, hcodec⟩
      · exact hcodec ▸ hR'
      · exact hcodec ▸ hdropped hg hnew _ _ _ hR'
    · rcases hcodec with ⟨-, hkept⟩ | ⟨hg, hnew, -⟩
      · exact .inr fun _ => hkept
      · exact .inl (hdropped hg hnew)
  · have hf : F.IsResponse f := hfs f (Framing.mem_of_mem_completed (by rw [hsome]; exact List.mem_cons_self))
    obtain ⟨cm', heq, hdel, hcb, hnone⟩ := handlerUpstreamData_done x.garbage hd (F.notHeartbeat hf)
      (by rw [F.originMessage hf]; exact F.encode hf)
    have hmd : ∀ b, (F.message f).originMessage = b → { F.message f with originMessage := b } =
        F.message f := by
      rintro b rfl
      rfl
    rw [hmd f (F.originMessage hf)] at hdel
    rw [hsome] at hone
    obtain rfl : gs = [] := by simpa using hone
    rw [heq, hsome]
    refine ⟨by simpa [deliveredAll] using hdel, by simpa using hcb, ?_,
      ⟨[], residue fs (r ++ x.bytes), [], ?_, rfl, by simp⟩, .inr nofun⟩
    · intro u hu
      rw [hnone] at hu
      cases hu
    · rw [responseCodec, hnone]
      exact F.fresh

/-- The deliveries that are due after `xs`: those of the frames that have arrived. -/
def Due (fs : List Bytes) (h : HandlerId) (s₀ : List (Out α)) (callbacks : List (Nat × MsgId)) (r : Bytes)
    (cm : ConnectionManager σ α) : Prop :=
  deliveries cm = s₀ ++ deliveredAll h callbacks ((arrived fs r).map F.message)

theorem receivedBytes_nil : receivedBytes [] = [] := rfl

theorem receivedBytes_cons (x : Chunk) (xs : List Chunk) :
    receivedBytes (x :: xs) = x.bytes ++ receivedBytes xs := rfl

variable {F} {s₀ : List (Out α)} {callbacks : List (Nat × MsgId)}

theorem Due.responses {cm : ConnectionManager σ α} (hdue : Due F fs h s₀ callbacks r cm) :
    responsesIn (deliveries cm) = responsesIn s₀ + (arrived fs r).length := by
  rw [hdue, responsesIn_append, responsesIn_deliveredAll, List.length_map]

/-- What is due has been delivered after every call only if no call completes two frames: it writes
one at most. -/
theorem atMostOneEach_of_due
    (hdues : ∀ n, Due F fs h s₀ callbacks (r ++ receivedBytes (xs.take n))
      (Runs.run (receive cfg h) s (xs.take n)).1) :
    AtMostOneEach fs r xs := by
  induction xs generalizing r s with
  | nil => trivial
  | cons x xs ih =>
    have hbefore := (hdues 0).responses
    have hafter := (hdues 1).responses
    have hone : responsesIn (deliveries (handlerUpstreamData cfg s.1 h (s.2 ++ x.bytes) x.garbage).1) ≤
        responsesIn (deliveries s.1) + 1 := handlerUpstreamData_responses s.1 h (s.2 ++ x.bytes) x.garbage
    simp only [List.take_zero, List.take_succ_cons, receivedBytes_cons, receivedBytes_nil,
      List.append_nil, Runs.run_cons,
      Runs.run_nil, Framing.arrived_append, List.length_append] at hbefore hafter
    refine ⟨by rw [receive] at hafter; omega, ih (s := receive cfg h s x) fun n => ?_⟩
    simpa only [List.take_succ_cons, receivedBytes_cons, List.append_assoc, Runs.run_cons] using hdues (n + 1)

theorem UpToDate.due (hfs : ∀ f ∈ fs, F.IsResponse f) (hcut : r ++ receivedBytes xs <+: fs.flatten)
    (hne : ∀ x ∈ xs, x.bytes ≠ []) (hone : AtMostOneEach fs r xs)
    (hflag : F.Restarts ∨ NoneDropped fs fresh r xs) (hs : UpToDate F fs fresh r h s)
    (hcb : (s.1.handlers h).responseCallbacks = ((arrived fs r).map F.message).foldl unanswered callbacks)
    (hdue : Due F fs h s₀ callbacks r s.1) (n : Nat) :
    Due F fs h s₀ callbacks (r ++ receivedBytes (xs.take n)) (Runs.run (receive cfg h) s (xs.take n)).1 := by
  induction xs generalizing fresh r s n with
  | nil => simpa [receivedBytes] using hdue
  | cons x xs ih =>
    cases n with
    | zero => simpa [receivedBytes] using hdue
    | succ n =>
      rw [receivedBytes_cons, ← List.append_assoc] at hcut
      obtain ⟨hdel, hcb', hs'⟩ :=
        receive_upToDate F hfs ((List.prefix_append _ _).trans hcut) (hne x List.mem_cons_self)
          hone.1 (hflag.imp_right And.left) hs
      have harr : (arrived fs (r ++ x.bytes)).map F.message =
          (arrived fs r).map F.message ++ (completed fs r x.bytes).map F.message := by
        rw [Framing.arrived_append, List.map_append]
      rw [List.take_succ_cons, receivedBytes_cons, ← List.append_assoc, Runs.run_cons]
      refine ih hcut (fun y hy => hne y (List.mem_cons_of_mem _ hy)) hone.2
        (hflag.imp_right And.right) hs' ?_ ?_ n
      · rw [hcb', hcb, harr, List.foldl_append]
      · rw [Due, hdel, hdue, harr, deliveredAll_append, hcb, List.append_assoc]

end Run

/-- After every call of a multiplexed connection the responses that have arrived have been written
and their callbacks run, in order. -/
def Drained (cfg : Config σ α) (F : ResponseFrames cfg.codec) (h : HandlerId) (fs : List Bytes)
    (cm : ConnectionManager σ α) (xs : List Chunk) : Prop :=
  ∀ n, deliveries (Runs.run (receive cfg h) (cm, []) (xs.take n)).1 = deliveries cm ++
    deliveredAll h (cm.handlers h).responseCallbacks ((arrived fs (receivedBytes (xs.take n))).map F.message)

/-- No call may complete more than one response, whatever `complete_` starts as; and then the
responses are drained if the codec can begin an incomplete frame again, or no decoder is dropped in
the middle of one. -/
theorem responses_drained (cfg : Config σ α) (F : ResponseFrames cfg.codec)
    (cm : ConnectionManager σ α) (h : HandlerId)
    (hnew : (cm.handlers h).upstreamResponse = none) (fs : List Bytes)
    (hfs : ∀ f ∈ fs, F.IsResponse f) (xs : List Chunk)
    (hcut : receivedBytes xs <+: fs.flatten) (hne : ∀ x ∈ xs, x.bytes ≠ []) :
    (Drained cfg F h fs cm xs → AtMostOneEach fs [] xs) ∧
      (AtMostOneEach fs [] xs ∧ (F.Restarts ∨ NoneDropped fs true [] xs) → Drained cfg F h fs cm xs) := by
  constructor
  · intro hdrained
    exact atMostOneEach_of_due fun n => by simpa only [Due, List.nil_append] using hdrained n
  · rintro ⟨hone, hflag⟩ n
    have harr : arrived fs [] = [] := Framing.arrived_nil fun f hf => (F.isFrame (hfs f hf)).ne
    have hstart : UpToDate F fs true [] h (cm, []) := by
      refine ⟨fun r hr => ?_, ⟨[], [], [], ?_, by simp [residue], rfl⟩, .inr nofun⟩
      · rw [hnew] at hr
        cases hr
      · rw [responseCodec, hnew]
        exact F.fresh
    have hcb : (cm.handlers h).responseCallbacks =
        ((arrived fs []).map F.message).foldl unanswered (cm.handlers h).responseCallbacks := by
          rw [harr]; rfl
    have hnone : Due F fs h (deliveries cm) (cm.handlers h).responseCallbacks [] cm := by
      simp [Due, harr, deliveredAll]
    have hdue := hstart.due hfs (by simpa using hcut) hne hone hflag hcb hnone n
    simpa only [Due, List.nil_append] using hdue

namespace Trpc

/-- The response frames of tRPC. -/
def responseFrames (α : Type) (pb : Protobuf) : ResponseFrames (trpcCodec α pb) where
  IsResponse f := ∃ h, WellFormedFrame pb .response f h
  Resumes := Resumes pb .response
  message := frameMetadata α pb .response
  fresh := resumes_boundary rfl []
  isFrame := fun ⟨_, hf⟩ => isFrame hf
  notHeartbeat _ := frameMetadata_ne_heartbeat (by decide)
  originMessage := fun ⟨_, hf⟩ => frameMetadata_originMessage hf
  encode _ := rfl

theorem responseFrames_restarts (α : Type) (pb : Protobuf) : (responseFrames α pb).Restarts := by
  rintro p s buf ⟨rfl, -⟩
  show Resumes pb .response buf {} buf
  exact resumes_boundary rfl buf

end Trpc

section Concrete

open Trpc

/-- tRPC with multiplexing. -/
def multiplexed : Config TrpcCodec Unit :=
  { codec := trpcCodec Unit wireProtobuf, applicationProtocol := "trpc", multiplexing := true }

/-- A handler with a connection, and the requests 5 and 6 sent on it. -/
def twoRequests : ConnectionManager TrpcCodec Unit :=
  Runs.run (step multiplexed) {} [requestWith 5, requestWith 6]

theorem responseFrames_sample :
    ∀ f ∈ [responseFrame 5, responseFrame 6], (responseFrames Unit wireProtobuf).IsResponse f := by
  have h5 : WellFormedFrame wireProtobuf .response (responseFrame 5)
    { dataFrameSize := 18, pbHeaderSize := 2 } :=
    ⟨by decide, by decide, by decide, by decide⟩
  have h6 : WellFormedFrame wireProtobuf .response (responseFrame 6)
    { dataFrameSize := 18, pbHeaderSize := 2 } :=
    ⟨by decide, by decide, by decide, by decide⟩
  intro f hf
  simp only [List.mem_cons, List.not_mem_nil, or_false] at hf
  rcases hf with rfl | rfl
  · exact ⟨_, h5⟩
  · exact ⟨_, h6⟩

/-- One response per call, the second in two pieces. -/
theorem responses_drained_one_by_one :
    Drained multiplexed (responseFrames Unit wireProtobuf) 0 [responseFrame 5, responseFrame 6] twoRequests
      [⟨responseFrame 5 ++ (responseFrame 6).take 4, true⟩,
        ⟨((responseFrame 6).drop 4).take 9, true⟩, ⟨(responseFrame 6).drop 13, true⟩] :=
  (responses_drained multiplexed (responseFrames Unit wireProtobuf) twoRequests 0 rfl
    [responseFrame 5, responseFrame 6] responseFrames_sample _ (List.prefix_refl _) (by decide)).2
    ⟨⟨by decide, by decide, by decide, trivial⟩, .inl (responseFrames_restarts Unit wireProtobuf)⟩

/-- Two responses in one call: the second stays in the buffer, and the callback of its request does
not run. -/
theorem second_response_left_unread :
    (∀ f ∈ [responseFrame 5, responseFrame 6], (responseFrames Unit wireProtobuf).IsResponse f) ∧
      (twoRequests.handlers 0).responseCallbacks = [(6, 1), (5, 0)] ∧
      deliveries (receive multiplexed 0 (twoRequests, []) ⟨responseFrame 5 ++ responseFrame 6, false⟩).1 ≠
        deliveries twoRequests ++ deliveredAll 0 (twoRequests.handlers 0).responseCallbacks
          ((arrived [responseFrame 5, responseFrame 6] (responseFrame 5 ++ responseFrame 6)).map
            (responseFrames Unit wireProtobuf).message) ∧
      ((receive multiplexed 0 (twoRequests, []) ⟨responseFrame 5 ++ responseFrame 6,
        false⟩).1.handlers 0).responseCallbacks =
        [(6, 1)] ∧
      (receive multiplexed 0 (twoRequests, []) ⟨responseFrame 5 ++ responseFrame 6, false⟩).2 =
        responseFrame 6 := by
  refine ⟨responseFrames_sample, rfl, fun heq => ?_, rfl, by decide⟩
  -- a write and a callback, not two of each
  have hlen : (2 : Nat) = 4 := congrArg List.length heq
  cases hlen

end Concrete

end MetaProtocolProxy
