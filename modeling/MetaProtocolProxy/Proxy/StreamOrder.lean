import MetaProtocolProxy.Lib.Runs
import MetaProtocolProxy.Proxy.Requests
import MetaProtocolProxy.Proxy.Settles
import MetaProtocolProxy.Trpc.Codec
/-
# The messages of a stream on its upstream connection
(active_message.cc, stream.cc, upstream_request.cc)

The init message of a stream is routed like a request, and its connection is attached to the stream
when the pool has one. A later message of the stream is written to that connection; while there is
none, `Stream::send2upstream` logs an error and the message is gone. So the upstream gets the init
message and every later one exactly if none of them comes before the pool is ready
(`stream_written_in_order_iff`).
-/
namespace MetaProtocolProxy

variable {σ α : Type}

/-- A decoded message, with the answers of the filters and of the router's environment. -/
structure Arrival (α : Type) where
  md : Metadata α
  encoders : List EncoderVerdict := []
  filters : List DecoderVerdict := []
  env : RouterEnv := {}

namespace Arrival

def event (x : Arrival α) : Event α := .decoded x.md x.encoders x.filters x.env

/-- A data or close message of stream `k`. -/
def ForStream (k : Nat) (x : Arrival α) : Prop :=
  x.md.streamId = k ∧
    (x.md.messageType = .streamData ∨ x.md.messageType = .streamCloseOneWay ∨
      x.md.messageType = .streamCloseTwoWay)

/-- The init message of stream `k`, routed to `host`. -/
structure Routed (k : Nat) (host : String) (x : Arrival α) : Prop where
  isInit : x.md.messageType = .streamInit
  stream : x.md.streamId = k
  filters : ∀ v ∈ x.filters, v.status = .continueIteration ∧ v.localReply = none
  route : ∃ entry, x.env.route = some entry ∧
    prepareUpstreamRequest entry.clusterName x.env.cluster = .ok host

end Arrival

/-- What has been written on connection `c`, in order. -/
def writesOn (c : ConnId) : List (Out α) → List Bytes
  | [] => []
  | .upstreamWrite i _ bytes :: os => if i = c then bytes :: writesOn c os else writesOn c os
  | _ :: os => writesOn c os

theorem writesOn_append (c : ConnId) (os os' : List (Out α)) :
    writesOn c (os ++ os') = writesOn c os ++ writesOn c os' := by
  induction os with
  | nil => rfl
  | cons o os ih =>
    cases o with
    | upstreamWrite i m bytes =>
      simp only [List.cons_append, writesOn]
      split
      · rw [ih, List.cons_append]
      · exact ih
    | _ => exact ih

section Messages

variable {cfg : Config σ α} {cm : ConnectionManager σ α} {m : MsgId} {k : Nat} {st : Stream} {x : Arrival α}

theorem getActiveStream_setStream (cm : ConnectionManager σ α) (k : Nat) (st : Stream) :
    (cm.setStream k st).getActiveStream k = some st := by
  simp [ConnectionManager.setStream, ConnectionManager.getActiveStream]

theorem deferredDeleteMessage_streams (cm : ConnectionManager σ α) (m : MsgId) :
    (cm.deferredDeleteMessage m).activeStreamMap = cm.activeStreamMap :=
  (Settles.deferredDeleteMessage cm m : Settles False True m cm _).streams

theorem maybeDeferredDeleteMessage_streams (cm : ConnectionManager σ α) (m : MsgId) :
    (maybeDeferredDeleteMessage cm m).activeStreamMap = cm.activeStreamMap :=
  (maybeDeferredDeleteMessage_settles cm m : Settles False True m cm _).streams

theorem continueDecoding_streams (cm : ConnectionManager σ α) (m : MsgId) :
    (continueDecoding cm m).activeStreamMap = cm.activeStreamMap :=
  (continueDecoding_settles cm m : Settles False True m cm _).streams

def streamWrite (conn : Option ConnId) (m : MsgId) (bytes : Bytes) : List (Out α) :=
  match conn with
  | none => []
  | some c => [.upstreamWrite c m bytes]

theorem forwardToStream_spec (cm : ConnectionManager σ α) (m : MsgId)
    (hst : cm.getActiveStream (cm.messages m).metadata.streamId = some st)
    (closesClient closesServer : Bool) :
    ∃ st' a, st'.upstreamConn = st.upstreamConn ∧
      (forwardToStream cm m closesClient closesServer).getActiveStream
        (cm.messages m).metadata.streamId = some st' ∧
      (forwardToStream cm m closesClient closesServer).messages = Function.update cm.messages m a ∧
      (forwardToStream cm m closesClient closesServer).nextMessage = cm.nextMessage ∧
      (forwardToStream cm m closesClient closesServer).out =
        cm.out ++ streamWrite st.upstreamConn m (cm.messages m).metadata.originMessage := by
  simp only [forwardToStream, hst, Stream.send2upstream]
  cases hc : st.upstreamConn with
  | none =>
    refine ⟨_, cm.messages m, rfl, getActiveStream_setStream .., (Function.update_eq_self ..).symm, rfl, ?_⟩
    simp [streamWrite, ConnectionManager.setStream]
  | some c => exact ⟨_, _, rfl, getActiveStream_setStream .., rfl, rfl, rfl⟩

/-- What a message of stream `k` changes: a write on the stream's connection, if it has one. -/
structure Forwarded (cm : ConnectionManager σ α) (k : Nat) (conn : Option ConnId) (bytes : Bytes)
    (cm' : ConnectionManager σ α) : Prop where
  stream : ∃ st, cm'.getActiveStream k = some st ∧ st.upstreamConn = conn
  messages : ∀ i, i < cm.nextMessage → cm'.messages i = cm.messages i
  nextMessage : cm'.nextMessage = cm.nextMessage + 1
  out : cm'.out = cm.out ++ streamWrite conn cm.nextMessage bytes

theorem forwarded_of_forwardToStream (hst : cm.getActiveStream x.md.streamId = some st)
    (closesClient closesServer : Bool) :
    Forwarded cm x.md.streamId st.upstreamConn x.md.originMessage
      (maybeDeferredDeleteMessage (forwardToStream
        (newMessage cm (x.md.putString applicationProtocol cfg.applicationProtocol) x.encoders) cm.nextMessage
        closesClient closesServer) cm.nextMessage) := by
  have hself : (newMessage cm (x.md.putString applicationProtocol cfg.applicationProtocol)
      x.encoders).messages cm.nextMessage =
      { metadata := x.md.putString applicationProtocol cfg.applicationProtocol,
        encoderFilters := x.encoders } :=
    Function.update_self ..
  have hspec :=
    forwardToStream_spec (newMessage cm (x.md.putString applicationProtocol cfg.applicationProtocol)
      x.encoders)
    cm.nextMessage (by rw [hself]; exact hst) closesClient closesServer
  rw [hself] at hspec
  obtain ⟨st', a, hconn, hst', hmsg, hnext, hout⟩ := hspec
  generalize forwardToStream _ cm.nextMessage closesClient closesServer = cm₁ at hst' hmsg hnext hout ⊢
  have heff : Effect cm₁ cm.nextMessage _ [] (maybeDeferredDeleteMessage cm₁ cm.nextMessage) :=
    maybeDeferredDeleteMessage_effect rfl
  refine ⟨⟨st', ?_, hconn⟩, fun i hi => ?_, heff.nextMessage.trans hnext, ?_⟩
  · unfold ConnectionManager.getActiveStream at hst' ⊢
    rw [maybeDeferredDeleteMessage_streams]
    exact hst'
  · have hne : i ≠ cm.nextMessage := Nat.ne_of_lt hi
    rw [heff.other hne, hmsg, Function.update_of_ne hne]
    exact Function.update_of_ne hne ..
  · rw [heff.out, hout, List.append_nil]
    rfl

theorem step_streamMessage (cfg : Config σ α) (hx : x.ForStream k) (hst : cm.getActiveStream k = some st) :
    Forwarded cm k st.upstreamConn x.md.originMessage (step cfg cm x.event) := by
  obtain ⟨rfl, ht⟩ := hx
  simp only [Arrival.event, step, onMessageDecoded]
  rcases ht with ht | ht | ht
  · simp only [ht]
    exact forwarded_of_forwardToStream hst false false
  · simp only [ht]
    exact forwarded_of_forwardToStream hst true false
  · simp only [ht]
    exact forwarded_of_forwardToStream hst true true

theorem run_streamMessages (cfg : Config σ α) {conn : Option ConnId} (xs : List (Arrival α))
    (hxs : ∀ x ∈ xs, x.ForStream k)
    (hst : ∃ st, cm.getActiveStream k = some st ∧ st.upstreamConn = conn) :
    ∃ os, (∃ st, (Runs.run (step cfg) cm (xs.map Arrival.event)).getActiveStream k = some st ∧
      st.upstreamConn = conn) ∧
      (∀ i, i < cm.nextMessage → (Runs.run (step cfg) cm (xs.map Arrival.event)).messages i = cm.messages i) ∧
      (Runs.run (step cfg) cm (xs.map Arrival.event)).out = cm.out ++ os ∧
      ∀ c, writesOn c os = if conn = some c then xs.map (·.md.originMessage) else [] := by
  induction xs generalizing cm with
  | nil => exact ⟨[], hst, fun _ _ => rfl, (List.append_nil _).symm, by simp [writesOn]⟩
  | cons x xs ih =>
    obtain ⟨st, hst, rfl⟩ := hst
    have h := step_streamMessage cfg (hxs x List.mem_cons_self) hst
    obtain ⟨os, hst', hmsg, hout, hw⟩ := ih (fun y hy => hxs y (List.mem_cons_of_mem _ hy)) h.stream
    refine ⟨streamWrite st.upstreamConn cm.nextMessage x.md.originMessage ++ os, hst', fun i hi =>
      ?_, ?_, fun c => ?_⟩
    · rw [List.map_cons, Runs.run_cons, hmsg i (h.nextMessage ▸ Nat.lt_succ_of_lt hi), h.messages i hi]
    · rw [List.map_cons, Runs.run_cons, hout, h.out, List.append_assoc]
    · cases hc : st.upstreamConn with
      | none => simpa [streamWrite, hc] using hw c
      | some c' =>
        specialize hw c
        rw [hc] at hw
        by_cases hcc : c' = c
        · simp [streamWrite, writesOn, hcc, hw]
        · simp [streamWrite, writesOn, hcc, hw]

end Messages

/-! ## The init message -/

def KeepsInit (cd : Codec σ α) : Prop :=
  ∀ md mutation buffer, md.messageType = .streamInit → cd.encode md mutation buffer = .ok buffer

section Init

variable {cfg : Config σ α} {cm : ConnectionManager σ α} {m : MsgId} {a : ActiveMessage σ α}
  {ur : UpstreamRequest} {k : Nat} {st : Stream} {x : Arrival α} {c : ConnId} {host : String}

theorem attach_streams (cm : ConnectionManager σ α) (m : MsgId) (ur : UpstreamRequest) (c : ConnId)
    (host : String) : (attach cm m ur c host).activeStreamMap = cm.activeStreamMap := by
  unfold attach
  split
  · exact continueDecoding_streams _ m
  · rfl

/-- The pool has a connection for the init message: the message is written, and the stream has the
connection from now on. -/
theorem onPoolReady_init (c : ConnId) (host : String) (hkeep : KeepsInit cfg.codec) (ha : cm.messages m = a)
    (hur : a.upstreamRequest = some ur) (ht : a.metadata.messageType = .streamInit)
    (hst : cm.getActiveStream a.metadata.streamId = some st) :
    ∃ cm', onPoolReady cfg cm m c host = (.ok (), cm') ∧
      cm'.out = cm.out ++ [.assigned m c, .upstreamWrite c m ur.buffer] ∧
      cm'.nextMessage = cm.nextMessage ∧
      ∃ st', cm'.getActiveStream a.metadata.streamId = some st' ∧ st'.upstreamConn = some c := by
  have h := attach_effect ha hur c host
  have henc : cfg.codec.encode (a.attached ur c host).metadata a.mutation ur.buffer =
    .ok ur.buffer := hkeep _ _ _ ht
  have h₁ : Effect cm m ((a.attached ur c host).withRequest
        (some { ur with host := host, conn := some c, handle := false, buffer := [] }))
      [.assigned m c, .upstreamWrite c m ur.buffer]
      (((attach cm m ur c host).modifyRequest m fun ur => { ur with buffer := [] }).emit
          (.upstreamWrite c m ur.buffer)) := by
    have h' := h.trans_nil (Effect.modifyRequest (f := fun ur => { ur with buffer := [] }) h.self rfl rfl)
    exact h'.trans (Effect.emit h'.self _)
  have h₂ := h₁.trans_nil (Effect.deferredDeleteMessage h₁.self m)
  have hst₂ : ((((attach cm m ur c host).modifyRequest m fun ur => { ur with buffer := [] }).emit
      (.upstreamWrite c m ur.buffer)).deferredDeleteMessage m).getActiveStream a.metadata.streamId =
          some st := by
    unfold ConnectionManager.getActiveStream
    rw [deferredDeleteMessage_streams]
    exact (congrArg _ (attach_streams cm m ur c host)).trans hst
  have hid : ((a.attached ur c host).withRequest
      (some { ur with host := host, conn := some c, handle := false, buffer := [] })).metadata.streamId =
        a.metadata.streamId := rfl
  rw [onPoolReady_eq cfg ha hur]
  simp only [encodeData, h.self, ActiveMessage.attached_upstreamRequest,
    ActiveMessage.attached_mutation, henc, h₁.self]
  have ht₁ : ((a.attached ur c host).withRequest
      (some { ur with host := host, conn := some c, handle := false, buffer := [] })).metadata.messageType =
        .streamInit := ht
  simp only [ht₁, if_true, setUpstreamConnection, h₂.self, hid, hst₂]
  -- what `h₂` and `hst₂` say of this state is all that is needed
  generalize ((((attach cm m ur c host).modifyRequest m fun ur => { ur with buffer := [] }).emit
    (.upstreamWrite c m ur.buffer)).deferredDeleteMessage m) = cm₂ at h₂
  refine ⟨_, rfl, ?_, ?_, { st with upstreamConn := some c }, ?_, rfl⟩
  · exact h₂.out
  · exact h₂.nextMessage
  · exact getActiveStream_setStream ..

theorem decoderFilterLoop_routed (hmux : cfg.multiplexing = false) (hr : x.Routed k host)
    (ha : cm.messages m = a) (hsent : a.localResponseSent = false) (filters : List DecoderVerdict)
    (hfilters : ∀ v ∈ filters, v.status = .continueIteration ∧ v.localReply = none) :
    ∃ mutation cm₁, Effect cm m (a.withMutation mutation) [] cm₁ ∧ cm₁.activeStreamMap = cm.activeStreamMap ∧
      decoderFilterLoop cfg cm m x.env filters =
        match startRequest cfg (newUpstreamRequest cm₁ m none) m host x.env.pool with
        | (.error e, cm) => (.error e, cm)
        | (.ok status, cm) =>
          if (cm.messages m).localResponseSent then (.ok .continueIteration, cm) else (.ok status, cm) := by
  induction filters generalizing cm a with
  | nil =>
    obtain ⟨entry, hroute, hhost⟩ := hr.route
    refine ⟨_, cm.modify m fun a => { a with mutation := a.mutation.set entry.requestMutation },
      Effect.modify (by rw [ha]; rfl) (by rw [ha]; rfl), rfl, ?_⟩
    have hrouter : routerDecoded cfg cm m x.env = startRequest cfg (newUpstreamRequest
        (cm.modify m fun a => { a with mutation := a.mutation.set entry.requestMutation }) m none) m
            host x.env.pool := by
      simp only [routerDecoded, hroute, hmux, hhost, Bool.false_eq_true, if_false]
    rw [← hrouter]
    rfl
  | cons v vs ih =>
    have h : Effect cm m (a.withMutation (a.mutation.set v.mutation)) []
        (cm.modify m fun a => { a with mutation := a.mutation.set v.mutation }) :=
      Effect.modify (by rw [ha]; rfl) (by rw [ha]; rfl)
    obtain ⟨hstatus, hreply⟩ := hfilters v List.mem_cons_self
    obtain ⟨mutation, cm₁, he, hstreams, heq⟩ :=
      ih h.self (by simpa using hsent) fun v' hv => hfilters v' (List.mem_cons_of_mem _ hv)
    refine ⟨mutation, cm₁, by simpa using h.trans he, hstreams, ?_⟩
    simp only [decoderFilterLoop, hreply, h.self, ActiveMessage.withMutation_localResponseSent,
      hsent, Bool.false_eq_true, if_false, hstatus, if_true]
    exact heq

def streamOpened (cfg : Config σ α) (cm : ConnectionManager σ α) (x : Arrival α) : ConnectionManager σ α :=
  newActiveStream (newMessage cm (x.md.putString applicationProtocol cfg.applicationProtocol)
    x.encoders) x.md.streamId

theorem streamOpened_spec (cfg : Config σ α) (cm : ConnectionManager σ α) (x : Arrival α) :
    ∃ os, (streamOpened cfg cm x).out = cm.out ++ os ∧ (∀ c, writesOn c os = []) ∧
      (streamOpened cfg cm x).nextMessage = cm.nextMessage + 1 ∧
      (streamOpened cfg cm x).getActiveStream x.md.streamId = some {} ∧
      (streamOpened cfg cm x).messages cm.nextMessage =
        { metadata := x.md.putString applicationProtocol cfg.applicationProtocol,
          encoderFilters := x.encoders } := by
  unfold streamOpened newActiveStream releaseStream
  split
  · exact ⟨[], (List.append_nil _).symm, fun _ => rfl, rfl, getActiveStream_setStream ..,
      Function.update_self ..⟩
  next st _ =>
    cases st.upstreamConn with
    | none =>
      exact ⟨[], (List.append_nil _).symm, fun _ => rfl, rfl, getActiveStream_setStream ..,
        Function.update_self ..⟩
    | some c =>
      exact ⟨[.released c], rfl, fun _ => rfl, rfl, getActiveStream_setStream .., Function.update_self ..⟩

theorem step_init (cfg : Config σ α) (cm : ConnectionManager σ α) (hinit : x.md.messageType = .streamInit) :
    step cfg cm x.event = match decoderFilterLoop cfg (streamOpened cfg cm x) cm.nextMessage x.env
      x.filters with
      | (.error e, cm) => dispatchFailed cm e
      | (.ok status, cm') => afterDecoderFilters cm' cm.nextMessage status := by
  obtain ⟨_, _, _, _, _, hself⟩ := streamOpened_spec cfg cm x
  unfold streamOpened at hself
  simp only [Arrival.event, step, onMessageDecoded, hinit, applyDecoderFilters, hself,
    Bool.false_eq_true, if_false]
  unfold streamOpened
  rcases decoderFilterLoop cfg _ cm.nextMessage x.env x.filters with ⟨e | status, cm'⟩ <;> rfl

/-- The pool makes the init message wait: the stream has no connection, and nothing is written. -/
theorem step_init_pending (cm : ConnectionManager σ α) (hmux : cfg.multiplexing = false)
    (hr : x.Routed k host) (hpool : x.env.pool = .pending) :
    ∃ os, (step cfg cm x.event).out = cm.out ++ os ∧ (∀ c, writesOn c os = []) ∧
      (step cfg cm x.event).nextMessage = cm.nextMessage + 1 ∧
      (∃ st, (step cfg cm x.event).getActiveStream k = some st ∧ st.upstreamConn = none) ∧
      ∃ a ur, (step cfg cm x.event).messages cm.nextMessage = a ∧ a.upstreamRequest = some ur ∧
        ur.buffer = x.md.originMessage ∧ a.metadata.messageType = .streamInit ∧ a.metadata.streamId = k := by
  obtain ⟨os, hout, hw, hnext, hst, hself⟩ := streamOpened_spec cfg cm x
  obtain ⟨mutation, cm₁, he, hstreams, hloop⟩ :=
    decoderFilterLoop_routed hmux hr hself rfl x.filters hr.filters
  have h₁ := he.trans_nil (newUpstreamRequest_effect he.self)
  have h₂ := h₁.trans_nil (Effect.modifyRequest (f := fun ur => { ur with handle := true }) h₁.self rfl rfl)
  have h₃ := h₂.trans_nil (Effect.modify (f := fun a => { a with pendingStreamDecoded := true })
    (by rw [h₂.self]) (by rw [h₂.self]))
  rw [step_init cfg cm hr.isInit, hloop]
  simp only [hpool, startRequest, h₂.self]
  refine ⟨os, ?_, hw, ?_, ⟨{}, ?_, rfl⟩, _, _, h₃.self, rfl, rfl, hr.isInit, hr.stream⟩
  · exact h₃.out.trans (by rw [hout, List.append_nil])
  · exact h₃.nextMessage.trans hnext
  · rw [← hr.stream]
    exact (congrArg _ hstreams).trans hst

/-- The pool has a connection at once: the init message is written to it, and the stream has it. -/
theorem step_init_ready (cm : ConnectionManager σ α) (hkeep : KeepsInit cfg.codec)
    (hmux : cfg.multiplexing = false) (hr : x.Routed k host) (hpool : x.env.pool = .ready c) :
    ∃ os, (step cfg cm x.event).out = cm.out ++ os ∧ writesOn c os = [x.md.originMessage] ∧
      ∃ st, (step cfg cm x.event).getActiveStream k = some st ∧ st.upstreamConn = some c := by
  obtain ⟨os, hout, hw, hnext, hst, hself⟩ := streamOpened_spec cfg cm x
  obtain ⟨mutation, cm₁, he, hstreams, hloop⟩ :=
    decoderFilterLoop_routed hmux hr hself rfl x.filters hr.filters
  have h₁ := he.trans_nil (newUpstreamRequest_effect he.self)
  have hst₁ : (newUpstreamRequest cm₁ cm.nextMessage none).getActiveStream x.md.streamId = some {} :=
    (congrArg _ hstreams).trans hst
  obtain ⟨cm₂, hready, hout₂, -, hst₂⟩ := onPoolReady_init c host hkeep h₁.self rfl hr.isInit hst₁
  rw [step_init cfg cm hr.isInit, hloop]
  simp only [hpool, startRequest, hready, ite_self, afterDecoderFilters]
  obtain ⟨st', hst', hconn⟩ := hst₂
  have hdel : Effect cm₂ cm.nextMessage _ [] (maybeDeferredDeleteMessage cm₂ cm.nextMessage) :=
    maybeDeferredDeleteMessage_effect rfl
  refine ⟨os ++ [.assigned cm.nextMessage c, .upstreamWrite c cm.nextMessage x.md.originMessage],
    ?_, ?_, st', ?_, hconn⟩
  · rw [hdel.out, hout₂, h₁.out, hout, List.append_nil, List.append_nil, List.append_assoc]
    rfl
  · rw [writesOn_append, hw]
    simp [writesOn]
  · rw [← hr.stream]
    exact (congrArg _ (maybeDeferredDeleteMessage_streams cm₂ cm.nextMessage)).trans hst'

end Init

/-! ## The whole stream -/

theorem trpcCodec_keepsInit (α : Type) (pb : Trpc.Protobuf) : KeepsInit (Trpc.trpcCodec α pb) := by
  intro md mutation buffer ht
  simp only [Trpc.trpcCodec, Trpc.encode, ht, ite_self]

/-- The events of a stream: the init message, the messages before the pool's answer, that answer if
it does not come at once, and the messages after it. -/
def streamEvents (init : Arrival α) (early late : List (Arrival α)) (m : MsgId) (c : ConnId) (host : String) :
    List (Event α) :=
  init.event :: (early.map Arrival.event ++
    ((if init.env.pool = .pending then [.poolReady m c host] else []) ++ late.map Arrival.event))

section Whole

variable {cfg : Config σ α} {k : Nat} {host : String} {init : Arrival α} {early late : List (Arrival α)}

theorem run_pending (cfg : Config σ α) (hkeep : KeepsInit cfg.codec) (hmux : cfg.multiplexing = false)
    (hr : init.Routed k host) (hpool : init.env.pool = .pending)
    (hearly : ∀ x ∈ early, x.ForStream k) (hlate : ∀ x ∈ late, x.ForStream k)
    (cm : ConnectionManager σ α) (c : ConnId) (host' : String) :
    ∃ os, (Runs.run (step cfg) cm (streamEvents init early late cm.nextMessage c host')).out = cm.out ++ os ∧
      writesOn c os = init.md.originMessage :: late.map (·.md.originMessage) := by
  obtain ⟨os₁, hout₁, hw₁, hnext₁, hst₁, a, ur, ha, hur, hbuf, ht, hk⟩ := step_init_pending cm hmux hr hpool
  obtain ⟨os₂, ⟨st₂, hst₂, -⟩, hmsg₂, hout₂, hw₂⟩ := run_streamMessages cfg early hearly hst₁
  have ha₂ := (hmsg₂ cm.nextMessage (by rw [hnext₁]; exact Nat.lt_succ_self _)).trans ha
  obtain ⟨cm₃, hready, hout₃, -, hst₃⟩ := onPoolReady_init c host' hkeep ha₂ hur ht (by rw [hk]; exact hst₂)
  rw [hk] at hst₃
  obtain ⟨os₄, -, -, hout₄, hw₄⟩ := run_streamMessages cfg late hlate hst₃
  refine ⟨os₁ ++ os₂ ++ [.assigned cm.nextMessage c, .upstreamWrite c cm.nextMessage ur.buffer] ++
    os₄, ?_, ?_⟩
  · rw [streamEvents, if_pos hpool, Runs.run_cons, Runs.run_append, List.singleton_append,
      Runs.run_cons, step, hready]
    dsimp only
    rw [hout₄, hout₃, hout₂, hout₁]
    simp only [List.append_assoc]
  · simp [writesOn_append, writesOn, hw₁, hw₂, hw₄, hbuf]

theorem run_ready (cfg : Config σ α) (hkeep : KeepsInit cfg.codec) (hmux : cfg.multiplexing = false)
    (hr : init.Routed k host) {c : ConnId}
    (hpool : init.env.pool = .ready c) (hearly : ∀ x ∈ early, x.ForStream k)
    (hlate : ∀ x ∈ late, x.ForStream k) (cm : ConnectionManager σ α) (host' : String) :
    ∃ os, (Runs.run (step cfg) cm (streamEvents init early late cm.nextMessage c host')).out = cm.out ++ os ∧
      writesOn c os = init.md.originMessage :: (early ++ late).map (·.md.originMessage) := by
  obtain ⟨os₁, hout₁, hw₁, hst₁⟩ := step_init_ready cm hkeep hmux hr hpool
  obtain ⟨os₂, hst₂, -, hout₂, hw₂⟩ := run_streamMessages cfg early hearly hst₁
  obtain ⟨os₃, -, -, hout₃, hw₃⟩ := run_streamMessages cfg late hlate hst₂
  refine ⟨os₁ ++ os₂ ++ os₃, ?_, ?_⟩
  · rw [streamEvents, if_neg (by simp [hpool]), Runs.run_cons, Runs.run_append, List.nil_append,
      hout₃, hout₂, hout₁]
    simp only [List.append_assoc]
  · simp [writesOn_append, hw₁, hw₂, hw₃]

end Whole

/-- The upstream connection gets the init message and every later message of the stream, in order,
exactly if no message comes between an init message that waits for the pool and the pool's
answer. -/
theorem stream_written_in_order_iff (pb : Trpc.Protobuf) (protocol : String)
    (cm : ConnectionManager Trpc.TrpcCodec α)
    (k : Nat) (init : Arrival α) (early late : List (Arrival α)) (c : ConnId) (host host' : String)
    (hinit : init.Routed k host) (hpool : init.env.pool = .pending ∨ init.env.pool = .ready c)
    (hlater : ∀ x ∈ early ++ late, x.ForStream k) :
    writesOn c ((Runs.run (step ⟨Trpc.trpcCodec α pb, protocol, false⟩) cm
        (streamEvents init early late cm.nextMessage c host')).out.drop cm.out.length) =
        init.md.originMessage :: (early ++ late).map (·.md.originMessage) ↔
      (init.env.pool = .pending → early = []) := by
  have hearly : ∀ x ∈ early, x.ForStream k := fun x hx => hlater x (List.mem_append_left _ hx)
  have hlate : ∀ x ∈ late, x.ForStream k := fun x hx => hlater x (List.mem_append_right _ hx)
  rcases hpool with hpool | hpool
  · obtain ⟨os, hout, hw⟩ := run_pending ⟨Trpc.trpcCodec α pb, protocol, false⟩ (trpcCodec_keepsInit α pb) rfl
      hinit hpool hearly hlate cm c host'
    rw [hout, List.drop_left, hw]
    constructor
    · intro h _
      -- as many messages written as there are
      have hlen := congrArg List.length h
      simp only [List.length_cons, List.length_map, List.length_append] at hlen
      exact List.eq_nil_of_length_eq_zero (by omega)
    · intro h
      rw [h hpool, List.nil_append]
  · obtain ⟨os, hout, hw⟩ := run_ready ⟨Trpc.trpcCodec α pb, protocol, false⟩ (trpcCodec_keepsInit α pb) rfl
      hinit hpool hearly hlate cm host'
    rw [hout, List.drop_left, hw]
    simp [hpool]

section Concrete

open Trpc

/-- An init message of stream 1. -/
def streamInit (pool : PoolAnswer) : Arrival Unit where
  md := { messageType := .streamInit, streamId := 1, originMessage := [1] }
  env := { route := some { clusterName := "c" }, cluster := some { host := some "h" }, pool := pool }

def streamData : Arrival Unit where
  md := { messageType := .streamData, streamId := 1, originMessage := [2] }

theorem streamInit_routed (pool : PoolAnswer) : (streamInit pool).Routed 1 "h" where
  isInit := rfl
  stream := rfl
  filters := by simp [streamInit]
  route := ⟨{ clusterName := "c" }, rfl, rfl⟩

theorem streamData_forStream : streamData.ForStream 1 := ⟨rfl, .inl rfl⟩

theorem stream_written_after_ready :
    writesOn 3 ((Runs.run (step ⟨trpcCodec Unit wireProtobuf, "trpc", false⟩) {}
        (streamEvents (streamInit .pending) [] [streamData] 0 3 "h")).out.drop 0) = [[1], [2]] :=
  (stream_written_in_order_iff wireProtobuf "trpc" {} 1 (streamInit .pending) [] [streamData] 3 "h" "h"
    (streamInit_routed _) (.inl rfl) (by simpa using streamData_forStream)).2 fun _ => rfl

/-- A data message that comes before the pool's answer is lost. -/
theorem early_stream_data_lost :
    (streamInit .pending).Routed 1 "h" ∧ streamData.ForStream 1 ∧
      Runs.Guarded (step ⟨trpcCodec Unit wireProtobuf, "trpc", false⟩) Enabled {}
        (streamEvents (streamInit .pending) [streamData] [] 0 3 "h") ∧
      writesOn 3 (Runs.run (step ⟨trpcCodec Unit wireProtobuf, "trpc", false⟩) {}
        (streamEvents (streamInit .pending) [streamData] [] 0 3 "h")).out = [[1]] :=
  ⟨streamInit_routed _, streamData_forStream, ⟨⟨rfl, trivial⟩, ⟨rfl, trivial⟩, ⟨rfl, _, rfl, rfl⟩,
    trivial⟩, rfl⟩

end Concrete

end MetaProtocolProxy
