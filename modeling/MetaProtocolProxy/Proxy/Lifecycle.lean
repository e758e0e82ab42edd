import MetaProtocolProxy.Proxy.Responses
import MetaProtocolProxy.Proxy.Service
/-
# The life of a message

The connection manager without multiplexing as a system of independent messages: `Transition` says
how the record of one message can change and what is output meanwhile, and `step_stepped` that
every event moves one message along a `Transition` and leaves the others alone. `MsgWf` is the
invariant of the records.
-/
namespace MetaProtocolProxy

variable {σ α : Type}

def Event.IsNew : Event α → Prop
  | .decoded _ _ _ _ => True
  | _ => False

def PoolAnswer.conn : PoolAnswer → Option ConnId
  | .ready c => some c
  | _ => none

def Event.offers : Event α → Option ConnId
  | .decoded _ _ _ env | .continueDecoding _ _ env => env.pool.conn
  | .poolReady _ c _ => some c
  | _ => none

/-- The pool answers for the request `ur` of the record `b`: at once when the router asks, or
later. -/
inductive Asking (a : ActiveMessage σ α) : Event α → ActiveMessage σ α → UpstreamRequest → Prop
  | atOnce {e mutation} (ht : a.metadata.messageType ≠ .oneway) (hreq : a.upstreamRequest = none)
      (hwhen : a.pendingStreamDecoded = true ∨ e.IsNew) (hsent : a.localResponseSent = false) :
      Asking a e (a.withMutation mutation).asked { buffer := a.metadata.originMessage }
  | later {e ur} (hreq : a.upstreamRequest = some ur) (hh : ur.handle = true) : Asking a e a ur

inductive Transition (cfg : Config σ α) (isOpen : Bool) (m : MsgId) (a : ActiveMessage σ α) :
    Event α → List (Out α) → ActiveMessage σ α → Prop
  /-- The filters continue or stop without a reply, and the router has not been asked. -/
  | filtered {e} (mutation : Mutation) (pending : Bool) (ht : a.metadata.messageType ≠ .oneway)
      (hreq : a.upstreamRequest = none)
      (hwhen : a.pendingStreamDecoded = true ∨ e.IsNew) (hp : pending = true → a.localResponseSent = false) :
      Transition cfg isOpen m a e [] ((a.withMutation mutation).withPending pending)
  /-- A filter or the router replies. -/
  | replied {e mutation os} (hreq : a.upstreamRequest = none) (hwhen :
      a.pendingStreamDecoded = true ∨ e.IsNew)
      (hsent : a.localResponseSent = false) (hos : LocalReply isOpen m os) :
      Transition cfg isOpen m a e os (a.withMutation mutation).replied.resumed
  /-- The router waits for the pool. -/
  | waits {e mutation} (ht : a.metadata.messageType ≠ .oneway) (hreq : a.upstreamRequest = none)
      (hwhen : a.pendingStreamDecoded = true ∨ e.IsNew) (hsent : a.localResponseSent = false) :
      Transition cfg isOpen m a e [] (((a.withMutation mutation).asked.withRequest
        (some { buffer := a.metadata.originMessage, handle := true })).withPending true)
  /-- The pool refuses. -/
  | refused {e b ur host os a'} (hask : Asking a e b ur) (hos : LocalReply isOpen m os)
      (ha' : a' = (b.withRequest (some (ur.refused host))).replied ∨
        a' = (b.withRequest (some (ur.refused host))).replied.resumed) : Transition cfg isOpen m a e os a'
  /-- The pool has a connection, and the message is written. -/
  | sent {e b ur c host conn bytes} (hask : Asking a e b ur) (hoff : e.offers = some c)
      (hconn : conn = some c ∨ a.metadata.messageType = .streamInit ∧ conn = none) :
      Transition cfg isOpen m a e [.assigned m c, .upstreamWrite c m bytes]
        ((b.attached ur c host).withRequest (some { ur with
          host := host, handle := false, conn := conn, buffer := [], requestComplete := true })).resumed
  /-- The pool has a connection, but the message cannot be encoded. -/
  | unsent {e b ur c host} (hask : Asking a e b ur) (hoff : e.offers = some c)
      (hp : b.pendingStreamDecoded = true → ur.handle = true) :
      Transition cfg isOpen m a e [.assigned m c] (b.attached ur c host)
  /-- Bytes of the connection, but no response yet. -/
  | more {ur c d data s' rest dec} (hur : a.upstreamRequest = some ur) (hc : ur.conn = some c)
      (hd : Receiving cfg a ur d) (hq : Quiet cfg d.codec data s' rest) :
      Transition cfg isOpen m a (.upstreamData m data false) []
        ((a.begun ur d).withDecoder (some (d.stored s' dec)))
  /-- The connection ends before the response does. -/
  | ended {ur c d d' data os} (hur : a.upstreamRequest = some ur) (hc : ur.conn = some c)
      (hd : Receiving cfg a ur d) (hos : LocalReply isOpen m os) :
      Transition cfg isOpen m a (.upstreamData m data true) (os ++ [.released c])
        (((a.begun ur d).withDecoder (some d')).replied.withRequest none)
  | complete {ur c d d' data endStream s' md rest r} (hur : a.upstreamRequest = some ur) (hc :
      ur.conn = some c)
      (hd : Receiving cfg a ur d) (hdec : cfg.codec.decodeAs .response d.codec data = .done s' md rest)
      (hr : Forwards cfg isOpen a md r) :
      Transition cfg isOpen m a (.upstreamData m data endStream) (responseOuts m r ++ [.released c])
        (((a.begun ur d).withDecoder (some d')).withRequest none)
  /-- The response is rejected and the connection is closed. -/
  | reset {ur c d d' data endStream r os₁ os₂} (hur : a.upstreamRequest = some ur) (hc : ur.conn = some c)
      (hd : Receiving cfg a ur d) (hwhy : isOpen = true → Rejected cfg a d.codec data)
      (hr : r = none ∨ ∃ s' md rest, cfg.codec.decodeAs .response d.codec data = .done s' md rest ∧
        Forwards cfg isOpen a md r)
      (hos₁ : LocalReply isOpen m os₁) (hos₂ : LocalReply isOpen m os₂) :
      Transition cfg isOpen m a (.upstreamData m data endStream)
        (responseOuts m r ++ os₁ ++ .upstreamClosed c :: os₂)
        (((a.begun ur d).withDecoder (some d')).withRequest
          (some { ur with responseStarted := true }.dropped)).replied
  /-- The connection is closed by the other side or by the pool. -/
  | closed {ur c event os} (hur : a.upstreamRequest = some ur) (hc : ur.conn = some c) (hos :
      LocalReply isOpen m os) :
      Transition cfg isOpen m a (.upstreamEvent m event) (.upstreamClosed c :: os) a.replied
  | destroyed {ur} (hur : a.upstreamRequest = some ur) :
      Transition cfg isOpen m a (.destroy m) (releasedOf ur.conn) (a.withRequest none)
  /-- A message of a stream, or one that nothing is done with. -/
  | passed {e os metadata} (hreq : a.upstreamRequest = none) (hnew : e.IsNew)
      (ht : a.metadata.messageType ≠ .request) (hos : ∀ o ∈ os, ∃ c bytes, o = .upstreamWrite c m bytes) :
      Transition cfg isOpen m a e os ({ a with metadata := metadata }.resumed)

/-- What holds of every record: its request is one of its own, waits for the pool or has a
connection, and a response that has started has a decoder that waits for more. -/
structure MsgWf (a : ActiveMessage σ α) : Prop where
  paused : a.pendingStreamDecoded = true → a.metadata.messageType ≠ .oneway
  kind : ∀ ur, a.upstreamRequest = some ur → a.metadata.messageType ≠ .oneway
  direct : ∀ ur, a.upstreamRequest = some ur → ur.handler = none
  waiting : ∀ ur, a.upstreamRequest = some ur → ur.handle = true →
    ur.conn = none ∧ ur.responseStarted = false ∧ ur.requestComplete = false
  started : ∀ ur, a.upstreamRequest = some ur → ur.conn ≠ none → ur.responseStarted = true →
    ∃ d, a.responseDecoder = some d ∧ d.responseStatus = .moreData
  flowing : ∀ ur, a.upstreamRequest = some ur → ur.conn ≠ none → a.pendingStreamDecoded = false

section

variable {cfg : Config σ α} {isOpen : Bool} {m : MsgId} {a b a' : ActiveMessage σ α} {e : Event α}
  {ur ur' : UpstreamRequest} {c : ConnId} {os : List (Out α)}

theorem MsgWf.of_request_none (hp : a.pendingStreamDecoded = true → a.metadata.messageType ≠ .oneway)
    (h : a.upstreamRequest = none) : MsgWf a :=
  ⟨hp, by simp [h], by simp [h], by simp [h], by simp [h], by simp [h]⟩

theorem MsgWf.of_unconnected (h : a.upstreamRequest = some ur) (ht : a.metadata.messageType ≠ .oneway)
    (hh : ur.handler = none) (hc : ur.conn = none)
    (hs : ur.handle = true → ur.responseStarted = false ∧ ur.requestComplete = false) : MsgWf a := by
  refine ⟨fun _ => ht, fun _ _ => ht, ?_, ?_, ?_, ?_⟩ <;> intro ur' hur' <;> obtain rfl :=
    Option.some.inj (h.symm.trans hur')
  · exact hh
  · exact fun hw => ⟨hc, hs hw⟩
  · exact fun hne => absurd hc hne
  · exact fun hne => absurd hc hne

theorem MsgWf.of_connected (h : a.upstreamRequest = some ur) (ht : a.metadata.messageType ≠ .oneway)
    (hh : ur.handler = none) (hw : ur.handle = false) (hp : a.pendingStreamDecoded = false)
    (hs : ur.responseStarted = true → ∃ d, a.responseDecoder = some d ∧
      d.responseStatus = .moreData) : MsgWf a := by
  refine ⟨fun _ => ht, fun _ _ => ht, ?_, ?_, ?_, fun _ _ _ => hp⟩ <;> intro ur' hur' <;>
    obtain rfl := Option.some.inj (h.symm.trans hur')
  · exact hh
  · simp [hw]
  · exact fun _ => hs

theorem Asking.wf (h : Asking a e b ur) (wf : MsgWf a) :
    b.metadata.messageType ≠ .oneway ∧ ur.handler = none ∧ ur.conn = none ∧ ur.responseStarted = false ∧
      ur.requestComplete = false := by
  cases h with
  | atOnce ht => exact ⟨ht, rfl, rfl, rfl, rfl⟩
  | later hreq hh => exact ⟨wf.kind _ hreq, wf.direct ur hreq, wf.waiting ur hreq hh⟩

theorem Receiving.status {d : ActiveResponseDecoder σ α} (h : Receiving cfg a ur d) :
    d.responseStatus = .moreData := by
  unfold Receiving at h
  split at h
  · exact h.2
  · rw [h]

theorem Transition.wf (h : Transition cfg isOpen m a e os a') (wf : MsgWf a) : MsgWf a' := by
  cases h with
  | filtered _ _ ht hreq => exact .of_request_none (fun _ => ht) hreq
  | replied hreq => exact .of_request_none (by simp) hreq
  | waits ht => exact .of_unconnected rfl ht rfl rfl fun _ => ⟨rfl, rfl⟩
  | refused hask hos ha' =>
    obtain ⟨ht, hh, hc, hs⟩ := hask.wf wf
    rcases ha' with rfl | rfl <;> exact .of_unconnected rfl ht hh hc fun _ => hs
  | sent hask _ hconn =>
    obtain ⟨ht, hh, -, hs, -⟩ := hask.wf wf
    exact .of_connected rfl ht hh rfl rfl (by simp [hs])
  | unsent hask _ hp =>
    obtain ⟨ht, hh, -, hs, -⟩ := hask.wf wf
    refine .of_connected rfl ht hh rfl ?_ (by simp [hs])
    simpa using hp
  | @more ur _ _ _ _ _ _ hur hc hd =>
    have hne : ur.conn ≠ none := by simp [hc]
    refine .of_connected rfl (wf.kind _ hur) (wf.direct _ hur :) ?_ (wf.flowing _ hur hne) fun _ =>
      ⟨_, rfl, hd.status⟩
    exact Bool.eq_false_iff.2 fun hw => hne (wf.waiting _ hur hw).1
  | ended hur => exact .of_request_none (fun _ => wf.kind _ hur) rfl
  | complete hur => exact .of_request_none (fun _ => wf.kind _ hur) rfl
  | reset hur => exact .of_unconnected rfl (wf.kind _ hur) (wf.direct _ hur :) rfl (by simp)
  | closed hur hc => exact ⟨wf.paused, wf.kind, wf.direct, wf.waiting, wf.started, wf.flowing⟩
  | destroyed hur => exact .of_request_none wf.paused rfl
  | passed hreq => exact .of_request_none (by simp) hreq

end

/-! ## Steps -/

/-- As `Effect`, over a whole step: the downstream connection may have been closed. -/
structure Moved (cm : ConnectionManager σ α) (m : MsgId) (a : ActiveMessage σ α) (os : List (Out α))
    (cm' : ConnectionManager σ α) : Prop where
  messages : cm'.messages = Function.update cm.messages m a
  messageType : a.metadata.messageType = (cm.messages m).metadata.messageType
  out : cm'.out = cm.out ++ os
  nextMessage : cm'.nextMessage = cm.nextMessage
  handlers : cm'.handlers = cm.handlers
  streams : a.metadata.messageType = .request → cm'.activeStreamMap = cm.activeStreamMap

section

variable {cm cm₁ cm' : ConnectionManager σ α} {m : MsgId} {a a₁ : ActiveMessage σ α} {os os₁ : List (Out α)}

theorem Effect.moved (h : Effect cm m a os cm') : Moved cm m a os cm' :=
  ⟨h.messages, h.messageType, h.out, h.nextMessage, h.handlers, h.streams⟩

theorem Effect.trans_moved (h₁ : Effect cm m a₁ os₁ cm₁) (h : Moved cm₁ m a os cm') :
    Moved cm m a (os₁ ++ os) cm' := by
  have ht : a.metadata.messageType = a₁.metadata.messageType := by rw [h.messageType, h₁.self]
  refine ⟨?_, ht.trans h₁.messageType, ?_, h.nextMessage.trans h₁.nextMessage,
    h.handlers.trans h₁.handlers, fun hr => ?_⟩
  · rw [h.messages, h₁.messages, Function.update_idem]
  · rw [h.out, h₁.out, List.append_assoc]
  · exact (h.streams hr).trans (h₁.streams (ht ▸ hr))

theorem Moved.dispatchFailed (h : Moved cm m a os cm₁) (e : Failure) :
    Moved cm m a os (dispatchFailed cm₁ e) := by
  unfold MetaProtocolProxy.dispatchFailed
  split <;> exact ⟨h.messages, h.messageType, h.out, h.nextMessage, h.handlers, h.streams⟩

end

@[simps] def newRecord (cfg : Config σ α) (md : Metadata α) (encoders : List EncoderVerdict) :
    ActiveMessage σ α :=
  { metadata := md.putString applicationProtocol cfg.applicationProtocol, encoderFilters := encoders }

inductive Stepped (cfg : Config σ α) (cm : ConnectionManager σ α) : Event α → ConnectionManager σ α → Prop
  /-- A message there is makes a transition. -/
  | moved {e m os a' cm'} (hold : ¬e.IsNew) (hm : m < cm.nextMessage)
      (ht : Transition cfg cm.connectionOpen m (cm.messages m) e os a')
      (h : Moved cm m a' os cm') : Stepped cfg cm e cm'
  /-- A new message does. The stream it replaces gives its connection back. -/
  | new {md encoders filters env pre os a' cm'} (hpre : ∀ o ∈ pre, ∃ c, o = .released c)
      (hreq : md.messageType = .request → pre = [])
      (ht : Transition cfg cm.connectionOpen cm.nextMessage (newRecord cfg md encoders)
        (.decoded md encoders filters env) os a')
      (h : Moved (newMessage cm (md.putString applicationProtocol cfg.applicationProtocol) encoders)
        cm.nextMessage a' (pre ++ os) cm') : Stepped cfg cm (.decoded md encoders filters env) cm'
  /-- No message does. -/
  | still {e os cm'} (hmsg : cm'.messages = cm.messages) (hout : cm'.out = cm.out ++ os)
      (hos : ∀ o ∈ os, ∃ c, o = .released c) (hnone : cm.activeStreamMap = [] → os = [] ∧
        cm'.activeStreamMap = [])
      (hnext : cm'.nextMessage = cm.nextMessage) (hh : cm'.handlers = cm.handlers) : Stepped cfg cm e cm'
  /-- The process is gone. -/
  | crashed {e os cm'} (hcrash : cm'.crashed = true) (hout : cm'.out = cm.out ++ os)
      (hos : ∀ o ∈ os, ∃ m c, o = .assigned m c) : Stepped cfg cm e cm'

structure Wf (cm : ConnectionManager σ α) : Prop where
  msg : ∀ m, MsgWf (cm.messages m)
  fresh : ∀ m, cm.nextMessage ≤ m → cm.messages m = {}
  handlers : ∀ h, cm.handlers h = {}

section

variable {cfg : Config σ α} {cm : ConnectionManager σ α} {m : MsgId} {ur : UpstreamRequest} {c : ConnId}

theorem Wf.lt_of_request (wf : Wf cm) (h : (cm.messages m).upstreamRequest = some ur) :
    m < cm.nextMessage := by
  by_contra hm
  rw [wf.fresh m (Nat.le_of_not_lt hm)] at h
  cases h

theorem Wf.lt_of_pending (wf : Wf cm) (h : (cm.messages m).pendingStreamDecoded = true) :
    m < cm.nextMessage := by
  by_contra hm
  rw [wf.fresh m (Nat.le_of_not_lt hm)] at h
  cases h

variable {a : ActiveMessage σ α}

theorem MsgWf.receiving (wf : MsgWf a) (cfg : Config σ α) (hur : a.upstreamRequest = some ur)
    (hc : ur.conn = some c) : ∃ d, Receiving cfg a ur d := by
  unfold Receiving
  cases hs : ur.responseStarted with
  | false => exact ⟨_, rfl⟩
  | true => exact wf.started ur hur (by simp [hc]) hs

theorem stepped_upstreamData (wf : Wf cm) (hur : (cm.messages m).upstreamRequest = some ur)
    (hc : ur.conn = some c) (data : Bytes) (endStream : Bool) :
    Stepped cfg cm (.upstreamData m data endStream) (onUpstreamData cfg cm m data endStream).1 := by
  have hwf := wf.msg m
  have hm := wf.lt_of_request hur
  obtain ⟨d, hd⟩ := hwf.receiving cfg hur hc
  cases onUpstreamData_outcome rfl hur (hwf.direct ur hur) (hwf.kind ur hur) hc hd data endStream with
  | more hq hend he =>
    subst hend
    exact .moved id hm (.more hur hc hd hq) he.moved
  | ended hend hos he =>
    subst hend
    exact .moved id hm (.ended hur hc hd hos) he.moved
  | complete hdec hr he => exact .moved id hm (.complete hur hc hd hdec hr) he.moved
  | reset hwhy hr hos₁ hos₂ he => exact .moved id hm (.reset hur hc hd hwhy hr hos₁ hos₂) he.moved
  | crashed hcrash he => exact .crashed hcrash he.out (by simp)

theorem stepped_upstreamEvent (wf : Wf cm) (hur : (cm.messages m).upstreamRequest = some ur)
    (hc : ur.conn = some c)
    (event : ConnectionEvent) : Stepped cfg cm (.upstreamEvent m event) (upstreamClosed cfg cm m event) := by
  have h : Effect cm m (cm.messages m) [.upstreamClosed c] (cm.emit (.upstreamClosed c)) := Effect.emit rfl _
  obtain ⟨os, hos, he⟩ := onConnectionEvent_effect cfg h.self hur ((wf.msg m).kind ur hur) event
  simp only [upstreamClosed, hur, Option.bind_some, hc]
  exact .moved id (wf.lt_of_request hur) (.closed hur hc (h.connectionOpen ▸ hos)) (h.trans he).moved

theorem stepped_poolReady (wf : Wf cm) (hur : (cm.messages m).upstreamRequest = some ur)
    (hh : ur.handle = true)
    (host : String) : Stepped cfg cm (.poolReady m c host) (step cfg cm (.poolReady m c host)) := by
  have hask : Asking (cm.messages m) (.poolReady m c host) (cm.messages m) ur := .later hur hh
  have hout := onPoolReady_outcome cfg rfl hur c host
  simp only [step]
  rcases hon : onPoolReady cfg cm m c host with ⟨e | u, cm'⟩ <;> rw [hon] at hout
  · cases hout with
    | failed he => exact .crashed rfl he.out (by simp)
  · cases hout with
    | written hconn hb he =>
      exact .moved id (wf.lt_of_request hur) (.sent hask rfl hconn) (he.resumed (by simp [hh])).moved

theorem stepped_poolFailure (wf : Wf cm) (hur : (cm.messages m).upstreamRequest = some ur)
    (hh : ur.handle = true) (reason : PoolFailureReason) (host : String) :
    Stepped cfg cm (.poolFailure m reason host) (onPoolFailure cfg cm m reason host) := by
  obtain ⟨a', os, ha', hos, he⟩ := onPoolFailure_effect cfg rfl hur ((wf.msg m).kind ur hur) reason host
  exact .moved id (wf.lt_of_request hur) (.refused (.later hur hh) hos ha') he.moved

theorem stepped_destroy (wf : Wf cm) : Stepped cfg cm (.destroy m) (step cfg cm (.destroy m)) := by
  cases hur : (cm.messages m).upstreamRequest with
  | none =>
    have h : onDestroy cfg cm m = cm := by simp only [onDestroy, hur]
    simp only [step, h]
    exact .still rfl (List.append_nil _).symm (by simp) (fun h => ⟨rfl, h⟩) rfl rfl
  | some ur =>
    have he := onDestroy_effect cfg rfl hur ((wf.msg m).direct ur hur)
    refine .moved id (wf.lt_of_request hur) (.destroyed hur) ?_
    exact ⟨he.messages, he.messageType, he.out, he.nextMessage, he.handlers, he.streams⟩

theorem pause_effect (ha : cm.messages m = a) :
    Effect cm m (a.withPending true) [] (afterDecoderFilters cm m .pauseIteration) := by
  unfold afterDecoderFilters
  exact Effect.modify (by rw [ha]; rfl) (by rw [ha]; rfl)

theorem filters_new {e : Event α} {r : Except Failure FilterStatus × ConnectionManager σ α}
    (he : e.IsNew) (ht : a.metadata.messageType ≠ .oneway) (hreq : a.upstreamRequest = none)
    (hsent : a.localResponseSent = false) (hp : a.pendingStreamDecoded = false) {pool : PoolAnswer}
    (hoff : e.offers = pool.conn) (h : FilterOutcome cfg cm m a pool r) :
    ∃ os a', Transition cfg cm.connectionOpen m a e os a' ∧ Moved cm m a' os (afterNew m r) := by
  cases h with
  | replied mu hos heff =>
    exact ⟨_, _, .replied hreq (.inr he) hsent hos,
      (heff.trans_nil (maybeDeferredDeleteMessage_effect heff.self)).moved⟩
  | @stopped mu status cm' hst heff =>
    have hfil : ∀ pending, Transition cfg cm.connectionOpen m a e []
      ((a.withMutation mu).withPending pending) :=
      fun pending => .filtered mu pending ht hreq (.inr he) fun _ => hsent
    cases status with
    | continueIteration => exact absurd rfl hst
    | pauseIteration => exact ⟨_, _, hfil true, (heff.trans_nil (pause_effect heff.self)).moved⟩
    | abortIteration =>
      exact ⟨_, _, hfil a.pendingStreamDecoded,
        (heff.trans_nil (Effect.deferredDeleteMessage heff.self m)).moved⟩
    | retry => exact ⟨_, _, hfil a.pendingStreamDecoded, (heff.trans_nil (Effect.crash heff.self)).moved⟩
  | pending mu heff =>
    exact ⟨_, _, .waits ht hreq (.inr he) hsent, (heff.trans_nil (pause_effect heff.self)).moved⟩
  | refused mu hos ha' heff =>
    have hres := heff.trans_nil (maybeDeferredDeleteMessage_effect heff.self)
    exact ⟨_, _, .refused (.atOnce ht hreq (.inr he) hsent) hos
      (.inr (ha'.elim (congrArg _) (congrArg ActiveMessage.resumed))), hres.moved⟩
  | ready mu hpool hr =>
    subst hpool
    cases hr with
    | written hconn hb heff =>
      exact ⟨_, _, .sent (.atOnce ht hreq (.inr he) hsent) hoff hconn,
        (heff.trans_nil (maybeDeferredDeleteMessage_effect heff.self)).moved⟩
  | failed mu hpool hr =>
    subst hpool
    cases hr with
    | failed heff =>
      exact ⟨_, _, .unsent (.atOnce ht hreq (.inr he) hsent) hoff (by simp [hp]), heff.moved.dispatchFailed _⟩

theorem stepped_continueDecoding (hmux : cfg.multiplexing = false) (wf : Wf cm)
    (hp : (cm.messages m).pendingStreamDecoded = true) (hreq : (cm.messages m).upstreamRequest = none)
    (filters : List DecoderVerdict) (env : RouterEnv) :
    Stepped cfg cm (.continueDecoding m filters env) (resumeFilters cfg cm m filters env) := by
  have hm := wf.lt_of_pending hp
  have ht := (wf.msg m).paused hp
  unfold resumeFilters applyDecoderFilters
  by_cases hsent : (cm.messages m).localResponseSent = true
  · rw [if_pos hsent]
    exact .moved id hm (.filtered (cm.messages m).mutation false ht hreq (.inl hp) (by simp))
      (continueDecoding_effect rfl).moved
  · rw [if_neg hsent]
    rw [Bool.not_eq_true] at hsent
    have hout := decoderFilterLoop_outcome hmux rfl ht hsent env filters
    generalize decoderFilterLoop cfg cm m env filters = r at hout
    cases hout with
    | replied mu hos heff =>
      exact .moved id hm (.replied hreq (.inl hp) hsent hos)
        (heff.trans_nil (continueDecoding_effect heff.self)).moved
    | stopped mu hst heff =>
      simp only [hst, if_false]
      exact .moved id hm (.filtered mu (cm.messages m).pendingStreamDecoded ht hreq (.inl hp)
        fun _ => hsent) heff.moved
    | pending mu heff =>
      exact .moved id hm (.waits ht hreq (.inl hp) hsent) (heff.withPending (by simpa using hp)).moved
    | refused mu hos ha' heff =>
      have hres := heff.trans_nil (continueDecoding_effect heff.self)
      exact .moved id hm (.refused (.atOnce ht hreq (.inl hp) hsent) hos
        (.inr (ha'.elim (congrArg _) (congrArg ActiveMessage.resumed)))) hres.moved
    | ready mu hpool hr =>
      cases hr with
      | written hconn hb heff =>
        exact .moved id hm
          (.sent (.atOnce ht hreq (.inl hp) hsent) (by simp [Event.offers, hpool, PoolAnswer.conn])
            hconn) (heff.trans_nil (continueDecoding_effect heff.self)).moved
    | failed mu hpool hr =>
      cases hr with
      | failed heff => exact .crashed rfl heff.out (by simp)

theorem newActiveStream_effect (ha : cm.messages m = a) (ht : a.metadata.messageType ≠ .request)
    (streamId : Nat) :
    ∃ pre, (∀ o ∈ pre, ∃ c, o = .released c) ∧ Effect cm m a pre (newActiveStream cm streamId) := by
  have hset : ∀ {cm₁ : ConnectionManager σ α}, cm₁.messages m = a →
    Effect cm₁ m a [] (cm₁.setStream streamId {}) :=
    fun h => Effect.of_frame h rfl (by simp [ConnectionManager.setStream]) rfl rfl rfl fun hr => absurd hr ht
  unfold newActiveStream releaseStream
  cases cm.getActiveStream streamId with
  | none => exact ⟨[], by simp, hset ha⟩
  | some st =>
    have h := emit_released (Effect.refl ha) st.upstreamConn
    refine ⟨releasedOf st.upstreamConn, ?_, h.trans_nil (hset h.self)⟩
    cases st.upstreamConn <;> simp [releasedOf]

theorem forwardToStream_effect (ha : cm.messages m = a) (ht : a.metadata.messageType ≠ .request)
    (closesClient closesServer : Bool) :
    ∃ os metadata, (∀ o ∈ os, ∃ c bytes, o = .upstreamWrite c m bytes) ∧
      Effect cm m { a with metadata := metadata } os (forwardToStream cm m closesClient closesServer) := by
  simp only [forwardToStream]
  split
  · exact ⟨[], a.metadata, by simp, Effect.refl ha⟩
  next st _ =>
    have hset : ∀ st', Effect cm m a [] (cm.setStream (cm.messages m).metadata.streamId st') := fun st' =>
      Effect.of_frame ha rfl (by simp [ConnectionManager.setStream]) rfl rfl rfl fun hr => absurd hr ht
    split
    · exact ⟨[], a.metadata, by simp, hset _⟩
    next c _ =>
      refine ⟨[.upstreamWrite c m (cm.messages m).metadata.originMessage],
        { a.metadata with originMessage := [] }, by simp, ?_⟩
      generalize { st with clientClosed := _, serverClosed := _ : Stream } = st'
      have h := (hset st').trans
        (Effect.emit (hset st').self (.upstreamWrite c m (cm.messages m).metadata.originMessage))
      exact h.trans_nil (Effect.modify (by rw [h.self]) (by rw [h.self]))

theorem stepped_passed {md metadata : Metadata α} {encoders : List EncoderVerdict} {os : List (Out α)}
    {cm₁ : ConnectionManager σ α} (filters : List DecoderVerdict) (env : RouterEnv)
    (ht : md.messageType ≠ .request)
    (hos : ∀ o ∈ os, ∃ c bytes, o = .upstreamWrite c cm.nextMessage bytes)
    (he : Effect (newMessage cm (md.putString applicationProtocol cfg.applicationProtocol) encoders)
      cm.nextMessage
      { newRecord cfg md encoders with metadata := metadata } os cm₁) :
    Stepped cfg cm (.decoded md encoders filters env) (maybeDeferredDeleteMessage cm₁ cm.nextMessage) :=
  have h := (he.trans_nil (maybeDeferredDeleteMessage_effect he.self)).moved
  .new (List.forall_mem_nil _) (fun _ => rfl) (.passed rfl trivial ht hos) ((List.nil_append os).symm ▸ h)

theorem stepped_routed (hmux : cfg.multiplexing = false) {md : Metadata α} {encoders : List EncoderVerdict}
    {pre : List (Out α)} {cm₁ : ConnectionManager σ α} (filters : List DecoderVerdict) (env : RouterEnv)
    (ht : md.messageType ≠ .oneway) (hpre : ∀ o ∈ pre, ∃ c, o = .released c)
    (hreq : md.messageType = .request → pre = [])
    (he : Effect (newMessage cm (md.putString applicationProtocol cfg.applicationProtocol) encoders)
      cm.nextMessage
      (newRecord cfg md encoders) pre cm₁) :
    Stepped cfg cm (.decoded md encoders filters env)
      (afterNew cm.nextMessage (applyDecoderFilters cfg cm₁ cm.nextMessage filters env)) := by
  have happ : applyDecoderFilters cfg cm₁ cm.nextMessage filters env =
      decoderFilterLoop cfg cm₁ cm.nextMessage env filters := by
    unfold applyDecoderFilters
    rw [he.self]
    rfl
  have hout := decoderFilterLoop_outcome hmux he.self ht rfl env filters
  obtain ⟨os, a', htr, hmv⟩ :=
    filters_new (e := .decoded md encoders filters env) trivial ht rfl rfl rfl rfl hout
  rw [happ]
  exact .new hpre hreq (he.connectionOpen ▸ htr) (he.trans_moved hmv)

theorem stepped_decoded (hmux : cfg.multiplexing = false) (md : Metadata α) (encoders : List EncoderVerdict)
    (filters : List DecoderVerdict) (env : RouterEnv) :
    Stepped cfg cm (.decoded md encoders filters env) (step cfg cm (.decoded md encoders filters env)) := by
  have hself : (enlisted cfg cm md encoders).messages cm.nextMessage = newRecord cfg md encoders :=
    enlisted_self ..
  cases hft : md.messageType.isFiltered with
  | true =>
    rw [step_decoded_filtered cfg cm md encoders filters env hft, admitted]
    have hone : md.messageType ≠ .oneway := by
      intro heq
      rw [heq] at hft
      cases hft
    split
    next hinit =>
      obtain ⟨pre, hpre, he⟩ := newActiveStream_effect hself (by simp [hinit]) md.streamId
      exact stepped_routed hmux filters env hone hpre (by simp [hinit]) he
    · exact stepped_routed hmux filters env hone (List.forall_mem_nil _) (fun _ => rfl) (Effect.refl hself)
  | false =>
    have hne : md.messageType ≠ .request := by
      intro heq
      rw [heq] at hft
      cases hft
    have hstream : ∀ closesClient closesServer, Stepped cfg cm (.decoded md encoders filters env)
        (maybeDeferredDeleteMessage (forwardToStream (enlisted cfg cm md encoders) cm.nextMessage
          closesClient closesServer) cm.nextMessage) := by
      intro closesClient closesServer
      obtain ⟨os, metadata, hos, he⟩ := forwardToStream_effect hself hne closesClient closesServer
      exact stepped_passed filters env hne hos he
    rw [step_decoded_passed cfg cm md encoders filters env hft, passed]
    split
    · exact hstream false false
    · exact hstream true false
    · exact hstream true true
    · exact stepped_passed filters env hne (List.forall_mem_nil _) (Effect.refl hself)

theorem step_stepped (hmux : cfg.multiplexing = false) (wf : Wf cm) {e : Event α} (hen : Enabled cm e) :
    Stepped cfg cm e (step cfg cm e) := by
  obtain ⟨-, hen⟩ := hen
  cases e with
  | decoded md encoders filters env => exact stepped_decoded hmux md encoders filters env
  | continueDecoding m filters env => exact stepped_continueDecoding hmux wf hen.1 hen.2 filters env
  | poolReady m c host =>
    obtain ⟨ur, hur, hh⟩ := hen
    exact stepped_poolReady wf hur hh host
  | poolFailure m reason host =>
    obtain ⟨ur, hur, hh⟩ := hen
    exact stepped_poolFailure wf hur hh reason host
  | upstreamData m data endStream =>
    obtain ⟨-, ur, c, hur, hc, -⟩ := hen
    exact stepped_upstreamData wf hur hc data endStream
  | upstreamEvent m event =>
    obtain ⟨-, ur, c, hur, hc, -⟩ := hen
    exact stepped_upstreamEvent wf hur hc event
  -- without multiplexing there are no upstream handlers
  | handlerPoolReady h | handlerPoolFailure h | handlerData h | handlerEvent h => simp [wf.handlers] at hen
  | downstreamEvent =>
    exact .still rfl (List.append_nil _).symm (List.forall_mem_nil _) (fun h => ⟨rfl, h⟩) rfl rfl
  | downstreamEnd =>
    obtain ⟨os, hos, hnil, h⟩ := clearStream_eq cm.resetAllMessages
    simp only [step, h]
    exact .still rfl rfl hos (fun h => ⟨hnil h, rfl⟩) rfl rfl
  | idleTimeout =>
    obtain ⟨os, hos, hnil, h⟩ := clearStream_eq cm.resetAllMessages
    simp only [step, h]
    exact .still rfl rfl hos (fun h => ⟨hnil h, rfl⟩) rfl rfl
  | destroy m => exact stepped_destroy wf

theorem Moved.wf {os : List (Out α)} {cm' : ConnectionManager σ α} (h : Moved cm m a os cm')
    (hm : m < cm.nextMessage) (ha : MsgWf a) (wf : Wf cm) : Wf cm' := by
  refine ⟨fun i => ?_, fun i hi => ?_, fun i => ?_⟩
  · rw [h.messages]
    rcases eq_or_ne i m with rfl | hi
    · rwa [Function.update_self]
    · rw [Function.update_of_ne hi]
      exact wf.msg i
  · rw [h.nextMessage] at hi
    rw [h.messages, Function.update_of_ne (Nat.ne_of_gt (Nat.lt_of_lt_of_le hm hi))]
    exact wf.fresh i hi
  · rw [h.handlers]
    exact wf.handlers i

theorem newMessage_wf (wf : Wf cm) (md : Metadata α) (encoders : List EncoderVerdict) :
    Wf (newMessage cm md encoders) := by
  refine ⟨fun i => ?_, fun i hi => ?_, wf.handlers⟩
  · rcases eq_or_ne i cm.nextMessage with rfl | hi
    · simp only [newMessage, Function.update_self]
      exact .of_request_none (by simp) rfl
    · simp only [newMessage, Function.update_of_ne hi]
      exact wf.msg i
  · have hlt : cm.nextMessage < i := hi
    simp only [newMessage, Function.update_of_ne (Nat.ne_of_gt hlt)]
    exact wf.fresh i (Nat.le_of_lt hlt)

theorem Stepped.wf {e : Event α} {cm' : ConnectionManager σ α} (wf : Wf cm) (h : Stepped cfg cm e cm') :
    cm'.crashed = true ∨ Wf cm' := by
  cases h with
  | moved _ hm ht h => exact .inr (h.wf hm (ht.wf (wf.msg _)) wf)
  | new hpre hreq ht h =>
    exact .inr (h.wf (Nat.lt_succ_self _) (ht.wf (.of_request_none (by simp) rfl)) (newMessage_wf wf _ _))
  | still hmsg hout hos hnone hnext hh =>
    refine .inr ⟨fun i => ?_, fun i hi => ?_, fun i => ?_⟩
    · rw [hmsg]
      exact wf.msg i
    · rw [hmsg]
      exact wf.fresh i (hnext ▸ hi)
    · rw [hh]
      exact wf.handlers i
  | crashed hcrash => exact .inl hcrash

end

end MetaProtocolProxy
