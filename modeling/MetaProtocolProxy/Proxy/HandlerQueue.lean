import MetaProtocolProxy.Lib.Parking
import MetaProtocolProxy.Proxy.SharedConnections
/-
# Requests on their way to a shared connection (upstream_handler_impl.cc, upstream_request.cc)

A multiplexed request that comes before the pool has answered waits in
`upstream_request_callbacks_`, and is written by `UpstreamHandlerImpl::onPoolReady`; a later one is
written by `start`. Here the functions of one handler are run in any order, from any state in which
the handler is new: `handlerStep` is the code, `Parking` the queue it is meant to be, and
`parkingLog` what the code's events mean for that queue. What is written is told apart by the
message and by its bytes.

The encoder may throw. A request for which `start` throws has not been accepted; an exception in
`onPoolReady` has no `catch` above it and ends the process.
-/
namespace MetaProtocolProxy

variable {σ α : Type}

abbrev WireRequest := MsgId × Except Failure Bytes

/-- What happens to the requests of an upstream handler. -/
inductive HandlerEvent
  /-- The router has got the handler for the request of a message. -/
  | start (m : MsgId)
  /-- The request of a message is released. -/
  | release (m : MsgId)
  | poolReady (host : String)

def HandlerEvent.isPoolReady : HandlerEvent → Bool
  | .poolReady _ => true
  | _ => false

/-- A write on an upstream connection. -/
def Out.request : Out α → Option (ConnId × WireRequest)
  | .upstreamWrite c m bytes => some (c, m, .ok bytes)
  | _ => none

/-- The requests written so far, in order. -/
def requestsWritten (cm : ConnectionManager σ α) : List (ConnId × WireRequest) := cm.out.filterMap Out.request

section Handler

variable (cfg : Config σ α) (h : HandlerId) (c : ConnId)

/-- The functions of handler `h`, to which the pool gives the connection `c`. -/
def handlerStep (cm : ConnectionManager σ α) : HandlerEvent → ConnectionManager σ α
  | .start m => (startOnHandler cfg h cm m).2
  | .release m => releaseUpStreamConnection cfg cm m false
  | .poolReady host => handlerPoolReady cfg cm h c host

/-- A request is started once, it is released if it is the handler's, and the pool answers once. -/
def Feasible (cm : ConnectionManager σ α) : HandlerEvent → Prop
  | .start m => (cm.messages m).upstreamRequest = none
  | .release m => (cm.messages m).upstreamRequest.bind (·.handler) = some h
  | .poolReady _ => (cm.handlers h).poolReady = false

def encodedRequest (a : ActiveMessage σ α) : Except Failure Bytes :=
  cfg.codec.encode { a.metadata with originMessage := [] } a.mutation a.metadata.originMessage

/-- A request is accepted if `start` returns. -/
def parkingEvents (cm : ConnectionManager σ α) : HandlerEvent → List (Parking.Event WireRequest MsgId)
  | .start m =>
    if (startOnHandler cfg h cm m).1.isOk then [.accept (m, encodedRequest cfg (cm.messages m))] else []
  | .release m => [.remove m]
  | .poolReady _ => [.ready]

def parkingLog (cm : ConnectionManager σ α) : List HandlerEvent → List (Parking.Event WireRequest MsgId)
  | [] => []
  | e :: es => parkingEvents cfg h cm e ++ parkingLog (handlerStep cfg h c cm e) es

end Handler

variable {cfg : Config σ α} {h : HandlerId} {c : ConnId} {cm cm₁ : ConnectionManager σ α}
  {m : MsgId} {a : ActiveMessage σ α} {ur : UpstreamRequest} {bytes : Bytes} {host : String}

/-- With multiplexing the router hands every request it has a handler for to the handler. -/
theorem routerDecoded_startOnHandler {env : RouterEnv} {entry : RouteEntry} (hmux : cfg.multiplexing = true)
    (hroute : env.route = some entry)
    (hget : getUpstreamHandler cfg
      (cm.modify m fun a => { a with mutation := a.mutation.set entry.requestMutation })
      entry.clusterName env = .ok (h, cm₁)) :
    routerDecoded cfg cm m env = startOnHandler cfg h cm₁ m := by
  simp only [routerDecoded, hroute, hmux, if_true, hget]

theorem Effect.requestsWritten {os : List (Out α)} (he : Effect cm m a os cm₁) :
    requestsWritten cm₁ = requestsWritten cm ++ os.filterMap Out.request := by
  rw [MetaProtocolProxy.requestsWritten, he.out, List.filterMap_append]
  rfl

/-! ## The functions -/

theorem continueDecoding_crashed (cm : ConnectionManager σ α) (m : MsgId) :
    (continueDecoding cm m).crashed = cm.crashed := by
  unfold continueDecoding maybeDeferredDeleteMessage ConnectionManager.deferredDeleteMessage
  split
  · dsimp only
    split
    · split <;> rfl
    · rfl
  · rfl

theorem encodeDataByHandler_ok (hur : (cm.messages m).upstreamRequest = some ur)
    (hconn : (cm.handlers h).conn = some c)
    (henc : cfg.codec.encode (cm.messages m).metadata (cm.messages m).mutation ur.buffer = .ok bytes) :
    encodeDataByHandler cfg cm h m =
      (.ok (), (cm.modifyRequest m fun ur => { ur with buffer := [] }).emit (.upstreamWrite c m bytes)) := by
  simp only [encodeDataByHandler, hur, henc, hconn]

theorem encodeDataByHandler_error (hur : (cm.messages m).upstreamRequest = some ur) {e : Failure}
    (henc : cfg.codec.encode (cm.messages m).metadata (cm.messages m).mutation ur.buffer = .error e) :
    encodeDataByHandler cfg cm h m = (.error e, cm) := by
  simp only [encodeDataByHandler, hur, henc]

theorem onPoolReadyByHandler_resumed (host : String) (ha : cm.messages m = a)
    (hur : a.upstreamRequest = some ur) :
    Effect cm m (a.withRequest (some { ur with host := host })).resumed []
      (continueDecoding (cm.modifyRequest m fun ur => { ur with host := host }) m) := by
  have he : Effect cm m (a.withRequest (some { ur with host := host })) []
    (cm.modifyRequest m fun ur => { ur with host := host }) :=
    Effect.modifyRequest ha hur rfl
  exact he.trans_nil (continueDecoding_effect he.self)

theorem onPoolReadyByHandler_ok (host : String) (ha : cm.messages m = a)
    (hur : a.upstreamRequest = some ur) (hconn : (cm.handlers h).conn = some c)
    (henc : cfg.codec.encode a.metadata a.mutation ur.buffer = .ok bytes) :
    (onPoolReadyByHandler cfg cm h host m).crashed = cm.crashed ∧
      ∃ a', a'.upstreamRequest.isSome = true ∧
        Effect cm m a' [.upstreamWrite c m bytes] (onPoolReadyByHandler cfg cm h host m) := by
  have he := onPoolReadyByHandler_resumed host ha hur
  have hcr := continueDecoding_crashed (cm.modifyRequest m fun ur => { ur with host := host }) m
  simp only [onPoolReadyByHandler]
  generalize continueDecoding (cm.modifyRequest m fun ur => { ur with host := host }) m = cm₁ at he hcr ⊢
  rw [encodeDataByHandler_ok (by rw [he.self]; rfl) (by rw [he.handlers]; exact hconn)
    (by rw [he.self]; exact henc)]
  have hdrained :=
    he.trans_nil (Effect.modifyRequest (f := fun ur => { ur with buffer := [] }) he.self rfl rfl)
  have hwritten := hdrained.trans (Effect.emit hdrained.self (.upstreamWrite c m bytes))
  exact ⟨hcr, _, rfl,
    hwritten.trans_nil (Effect.modifyRequest (f := fun ur => { ur with requestComplete := true })
      hwritten.self rfl rfl)⟩

theorem onPoolReadyByHandler_error (ha : cm.messages m = a) (hur : a.upstreamRequest = some ur) {e : Failure}
    (henc : cfg.codec.encode a.metadata a.mutation ur.buffer = .error e) :
    (onPoolReadyByHandler cfg cm h host m).crashed = true := by
  have he := onPoolReadyByHandler_resumed host ha hur
  simp only [onPoolReadyByHandler]
  rw [encodeDataByHandler_error (by rw [he.self]; rfl) (by rw [he.self]; exact henc)]
  rfl

/-! ## The loop of `onPoolReady` -/

/-- The request has been made, and is encoded as `r` says. -/
def Encodes (cfg : Config σ α) (cm : ConnectionManager σ α) (r : WireRequest) : Prop :=
  ∃ ur, (cm.messages r.1).upstreamRequest = some ur ∧
    cfg.codec.encode (cm.messages r.1).metadata (cm.messages r.1).mutation ur.buffer = r.2

theorem Encodes.of_same {r : WireRequest} (hr : Encodes cfg cm r)
    (hsame : cm₁.messages r.1 = cm.messages r.1) : Encodes cfg cm₁ r := by
  rw [Encodes, hsame]
  exact hr

/-- The loop of `UpstreamHandlerImpl::onPoolReady` (upstream_handler_impl.cc:73-77). -/
def flush (cfg : Config σ α) (h : HandlerId) (host : String) (cm : ConnectionManager σ α)
    (waiting : List MsgId) : ConnectionManager σ α :=
  waiting.foldl (fun cm m => if cm.crashed then cm else onPoolReadyByHandler cfg cm h host m) cm

theorem flush_crashed (waiting : List MsgId) (hcr : cm.crashed = true) :
    (flush cfg h host cm waiting).crashed = true := by
  induction waiting with
  | nil => exact hcr
  | cons m waiting ih =>
    simp only [flush, List.foldl_cons, hcr, if_true]
    exact ih

structure Flushed (c : ConnId) (cm : ConnectionManager σ α) (w : List WireRequest)
    (cm' : ConnectionManager σ α) : Prop where
  crashed : cm'.crashed = false
  handlers : cm'.handlers = cm.handlers
  written : requestsWritten cm' = requestsWritten cm ++ w.map (c, ·)
  requested : ∀ i, (cm.messages i).upstreamRequest.isSome = true →
    (cm'.messages i).upstreamRequest.isSome = true

theorem flush_cons (host : String) {r : WireRequest} {w : List WireRequest}
    (halive : cm.crashed = false) (hconn : (cm.handlers h).conn = some c)
    (hw : ∀ r' ∈ r :: w, Encodes cfg cm r') (hnd : ((r :: w).map Prod.fst).Nodup) (hok : r.2 = .ok bytes) :
    ∃ cm₁, flush cfg h host cm ((r :: w).map Prod.fst) = flush cfg h host cm₁ (w.map Prod.fst) ∧
      Flushed c cm [r] cm₁ ∧ (cm₁.handlers h).conn = some c ∧ ∀ r' ∈ w, Encodes cfg cm₁ r' := by
  obtain ⟨ur, hur, henc⟩ := hw r List.mem_cons_self
  obtain ⟨hcr, a', hsome, he⟩ := onPoolReadyByHandler_ok host rfl hur hconn (henc.trans hok)
  refine ⟨onPoolReadyByHandler cfg cm h host r.1, ?_,
    ⟨hcr.trans halive, he.handlers, ?_, fun i hi => ?_⟩, ?_, fun r' hr' => ?_⟩
  · simp [flush, halive]
  · have hr : r = (r.1, .ok bytes) := Prod.ext rfl hok
    rw [he.requestsWritten, hr]
    rfl
  · by_cases hm : i = r.1
    · rw [hm, he.self, hsome]
    · rw [he.other hm, hi]
  · rw [he.handlers, hconn]
  · -- the requests behind it are those of other messages
    have hne : r'.1 ≠ r.1 := fun hid => (List.nodup_cons.1 hnd).1 (hid ▸ List.mem_map_of_mem hr')
    exact (hw r' (List.mem_cons_of_mem r hr')).of_same (he.other hne)

theorem flush_flushed {w : List WireRequest} (halive : cm.crashed = false)
    (hconn : (cm.handlers h).conn = some c)
    (hw : ∀ r ∈ w, Encodes cfg cm r) (hnd : (w.map Prod.fst).Nodup)
    (hok : ∀ r ∈ w, ∃ bytes, r.2 = .ok bytes) :
    Flushed c cm w (flush cfg h host cm (w.map Prod.fst)) := by
  induction w generalizing cm with
  | nil => exact ⟨halive, rfl, (List.append_nil _).symm, fun _ hi => hi⟩
  | cons r w ih =>
    obtain ⟨bytes, hbytes⟩ := hok r List.mem_cons_self
    obtain ⟨cm₁, heq, hone, hconn₁, hw₁⟩ := flush_cons host halive hconn hw hnd hbytes
    have hrest := ih hone.crashed hconn₁ hw₁ (List.nodup_cons.1 hnd).2 fun r' hr' =>
      hok r' (List.mem_cons_of_mem r hr')
    rw [heq]
    refine ⟨hrest.crashed, hrest.handlers.trans hone.handlers, ?_, fun i hi =>
      hrest.requested i (hone.requested i hi)⟩
    rw [hrest.written, hone.written, List.append_assoc]
    rfl

theorem flush_error {w : List WireRequest} (halive : cm.crashed = false)
    (hconn : (cm.handlers h).conn = some c)
    (hw : ∀ r ∈ w, Encodes cfg cm r) (hnd : (w.map Prod.fst).Nodup) (herr : ∃ r ∈ w, ∃ e, r.2 = .error e) :
    (flush cfg h host cm (w.map Prod.fst)).crashed = true := by
  induction w generalizing cm with
  | nil =>
    obtain ⟨r, hr, -⟩ := herr
    cases hr
  | cons r w ih =>
    cases hr : r.2 with
    | error e =>
      obtain ⟨ur, hur, henc⟩ := hw r List.mem_cons_self
      simp only [List.map_cons, flush, List.foldl_cons, halive, Bool.false_eq_true, if_false]
      exact flush_crashed _ (onPoolReadyByHandler_error rfl hur (henc.trans hr))
    | ok bytes =>
      obtain ⟨cm₁, heq, hone, hconn₁, hw₁⟩ := flush_cons host halive hconn hw hnd hr
      obtain ⟨r', hr', e, he⟩ := herr
      have hmem : r' ∈ w := (List.mem_cons.1 hr').resolve_left fun heq => by simp [heq, hr] at he
      rw [heq]
      exact ih hone.crashed hconn₁ hw₁ (List.nodup_cons.1 hnd).2 ⟨r', hmem, e, he⟩

/-! ## One event -/

structure Parked (cfg : Config σ α) (h : HandlerId) (c : ConnId)
    (base : List (ConnId × WireRequest)) (s : Parking.State WireRequest)
    (cm : ConnectionManager σ α) : Prop where
  ready : (cm.handlers h).poolReady = s.ready
  conn : s.ready = true → (cm.handlers h).conn = some c
  queue : (cm.handlers h).upstreamRequestCallbacks = s.waiting.map Prod.fst
  encodes : ∀ r ∈ s.waiting, Encodes cfg cm r
  requested : ∀ r ∈ s.waiting ++ s.passed, (cm.messages r.1).upstreamRequest.isSome = true
  nodup : ((s.waiting ++ s.passed).map Prod.fst).Nodup
  written : requestsWritten cm = base ++ s.passed.map (c, ·)

variable {base : List (ConnId × WireRequest)} {s : Parking.State WireRequest}

/-- `cm'` is `cm` with a request for message `m` on the handler, not started yet. -/
structure Registered (h : HandlerId) (cm : ConnectionManager σ α) (m : MsgId)
    (cm' : ConnectionManager σ α) : Prop where
  self : cm'.messages m = { cm.messages m with
    upstreamRequest := some { handler := some h, buffer := (cm.messages m).metadata.originMessage }
    metadata := { (cm.messages m).metadata with originMessage := [] } }
  other : ∀ i ≠ m, cm'.messages i = cm.messages i
  handler : ∃ callbacks, cm'.handlers h = { cm.handlers h with responseCallbacks := callbacks }
  out : cm'.out = cm.out
  crashed : cm'.crashed = cm.crashed

theorem newUpstreamRequest_registered (h : HandlerId) (cm : ConnectionManager σ α) (m : MsgId) :
    Registered h cm m
      (newUpstreamRequest (addResponseCallback cm h (cm.messages m).metadata.requestId m) m (some h)) where
  self := ConnectionManager.messages_modify_self ..
  other i hi := Function.update_of_ne hi ..
  handler := by
    obtain ⟨callbacks, heq, -⟩ := addResponseCallback_eq cm h (cm.messages m).metadata.requestId m
    refine ⟨callbacks, ?_⟩
    rw [heq]
    exact cm.handlers_modifyHandler_self h fun hd => { hd with responseCallbacks := callbacks }
  out := rfl
  crashed := rfl

theorem Registered.encodes (cfg : Config σ α) (ha : Registered h cm m cm₁) :
    Encodes cfg cm₁ (m, encodedRequest cfg (cm.messages m)) := by
  rw [Encodes, ha.self]
  exact ⟨_, rfl, rfl⟩

theorem Parked.fresh (hp : Parked cfg h c base s cm)
    (hm : (cm.messages m).upstreamRequest = none) : m ∉ (s.waiting ++ s.passed).map Prod.fst := by
  intro hmem
  obtain ⟨r, hr, rfl⟩ := List.mem_map.1 hmem
  have hsome := hp.requested r hr
  rw [hm] at hsome
  cases hsome

theorem Registered.parked (ha : Registered h cm m cm₁)
    (hp : Parked cfg h c base s cm) (hm : (cm.messages m).upstreamRequest = none) :
    Parked cfg h c base s cm₁ := by
  obtain ⟨callbacks, hh⟩ := ha.handler
  have hother : ∀ r ∈ s.waiting ++ s.passed, cm₁.messages r.1 = cm.messages r.1 :=
    fun r hr => ha.other r.1 fun heq => hp.fresh hm (heq ▸ List.mem_map_of_mem hr)
  refine ⟨by rw [hh]; exact hp.ready, fun hr => by rw [hh]; exact hp.conn hr,
    by rw [hh]; exact hp.queue, fun r hr => ?_,
    fun r hr => ?_, hp.nodup, ?_⟩
  · exact (hp.encodes r hr).of_same (hother r (List.mem_append_left _ hr))
  · rw [hother r hr]
    exact hp.requested r hr
  · rw [requestsWritten, ha.out]
    exact hp.written

theorem startOnHandler_registered (hp : Parked cfg h c base s cm)
    (hm : (cm.messages m).upstreamRequest = none) :
    ∃ cm₁, Registered h cm m cm₁ ∧ Parked cfg h c base s cm₁ ∧
      startOnHandler cfg h cm m = startRequestByHandler cfg cm₁ m h := by
  have ha := newUpstreamRequest_registered h cm m
  exact ⟨_, ha, ha.parked hp hm, rfl⟩

theorem start_waits (hp : Parked cfg h c base s cm)
    (hm : (cm.messages m).upstreamRequest = none) (hready : s.ready = false) :
    (startOnHandler cfg h cm m).1.isOk = true ∧ (startOnHandler cfg h cm m).2.crashed = cm.crashed ∧
      Parked cfg h c base
        { s with waiting := s.waiting ++ [(m, encodedRequest cfg (cm.messages m))] }
          (startOnHandler cfg h cm m).2 := by
  obtain ⟨cm₁, ha, hp₁, hstart⟩ := startOnHandler_registered hp hm
  rw [hstart, startRequestByHandler]
  have hwait : (cm₁.handlers h).poolReady = false := hp₁.ready.trans hready
  simp only [hwait, Bool.false_eq_true, if_false]
  have hself :=
    cm₁.handlers_modifyHandler_self h fun hd =>
      { hd with upstreamRequestCallbacks := hd.upstreamRequestCallbacks ++ [m] }
  refine ⟨rfl, ha.crashed, ?_⟩
  refine ⟨?_, fun hr => ?_, ?_, fun r hr => ?_, fun r hr => ?_, ?_, hp₁.written⟩
  · exact (congrArg UpstreamHandler.poolReady hself).trans hp₁.ready
  · cases hready.symm.trans hr
  · refine (congrArg UpstreamHandler.upstreamRequestCallbacks hself).trans ?_
    rw [List.map_append, ← hp₁.queue]
    rfl
  · rcases List.mem_append.1 hr with hr | hr
    · exact hp₁.encodes r hr
    · exact List.mem_singleton.1 hr ▸ ha.encodes cfg
  · rw [List.append_assoc, List.singleton_append] at hr
    rcases List.mem_cons.1 (List.perm_middle.mem_iff.1 hr) with rfl | hr
    · exact congrArg (fun a => a.upstreamRequest.isSome) ha.self
    · exact hp₁.requested r hr
  · rw [List.append_assoc, List.singleton_append]
    exact (List.perm_middle.map Prod.fst).nodup_iff.2 (List.nodup_cons.2 ⟨hp.fresh hm, hp.nodup⟩)

theorem start_written (hp : Parked cfg h c base s cm)
    (hm : (cm.messages m).upstreamRequest = none) (hready : s.ready = true)
    (henc : encodedRequest cfg (cm.messages m) = .ok bytes) :
    (startOnHandler cfg h cm m).1.isOk = true ∧ (startOnHandler cfg h cm m).2.crashed = cm.crashed ∧
      Parked cfg h c base { s with passed := s.passed ++ [(m, .ok bytes)] }
        (startOnHandler cfg h cm m).2 := by
  obtain ⟨cm₁, ha, hp₁, hstart⟩ := startOnHandler_registered hp hm
  rw [hstart, startRequestByHandler]
  have hnow : (cm₁.handlers h).poolReady = true := hp₁.ready.trans hready
  obtain ⟨ur, hur, henc₁⟩ := ha.encodes cfg
  simp only [hnow, if_true, encodeDataByHandler_ok hur (hp₁.conn hready) (henc₁.trans henc)]
  have hdrained : Effect cm₁ m _ [] (cm₁.modifyRequest m fun ur => { ur with buffer := [] }) :=
    Effect.modifyRequest rfl hur rfl
  have he := hdrained.trans (Effect.emit hdrained.self (.upstreamWrite c m bytes))
  refine ⟨rfl, ha.crashed, ?_⟩
  have hother : ∀ r ∈ s.waiting ++ s.passed, r.1 ≠ m :=
    fun r hr heq => hp.fresh hm (heq ▸ List.mem_map_of_mem hr)
  refine ⟨hp₁.ready, hp₁.conn, hp₁.queue, fun r hr => ?_, fun r hr => ?_, ?_, ?_⟩
  · exact (hp₁.encodes r hr).of_same (he.other (hother r (List.mem_append_left _ hr)))
  · rw [← List.append_assoc] at hr
    rcases List.mem_append.1 hr with hr | hr
    · rw [he.other (hother r hr)]
      exact hp₁.requested r hr
    · cases List.mem_singleton.1 hr
      rw [he.self]
      rfl
  · rw [← List.append_assoc]
    exact ((List.perm_append_singleton _ _).map Prod.fst).nodup_iff.2
      (List.nodup_cons.2 ⟨hp.fresh hm, hp.nodup⟩)
  · rw [he.requestsWritten, hp₁.written, List.map_append, List.append_assoc]
    rfl

theorem start_thrown (hp : Parked cfg h c base s cm)
    (hm : (cm.messages m).upstreamRequest = none) (hready : s.ready = true) {e : Failure}
    (henc : encodedRequest cfg (cm.messages m) = .error e) :
    (startOnHandler cfg h cm m).1.isOk = false ∧ (startOnHandler cfg h cm m).2.crashed = cm.crashed ∧
      Parked cfg h c base s (startOnHandler cfg h cm m).2 := by
  obtain ⟨cm₁, ha, hp₁, hstart⟩ := startOnHandler_registered hp hm
  rw [hstart, startRequestByHandler]
  have hnow : (cm₁.handlers h).poolReady = true := hp₁.ready.trans hready
  obtain ⟨ur, hur, henc₁⟩ := ha.encodes cfg
  simp only [hnow, if_true, encodeDataByHandler_error hur (henc₁.trans henc)]
  exact ⟨rfl, ha.crashed, hp₁⟩

theorem release_parked (hp : Parked cfg h c base s cm)
    (hm : (cm.messages m).upstreamRequest.bind (·.handler) = some h) :
    (releaseUpStreamConnection cfg cm m false).crashed = cm.crashed ∧
      Parked cfg h c base { s with waiting := s.waiting.filter fun r => r.1 != m }
        (releaseUpStreamConnection cfg cm m false) := by
  obtain ⟨ur, hur, hh⟩ := Option.bind_eq_some_iff.1 hm
  simp only [releaseUpStreamConnection, hur, hh]
  have hself := cm.handlers_modifyHandler_self h fun hd =>
    { hd with upstreamRequestCallbacks := hd.upstreamRequestCallbacks.filter (· != m) }
  have hsub : (s.waiting.filter fun r => r.1 != m) ++ s.passed ⊆ s.waiting ++ s.passed :=
    List.append_subset.2 ⟨fun r hr => List.mem_append_left _ (List.mem_of_mem_filter hr),
      List.subset_append_right _ _⟩
  refine ⟨rfl, ?_, fun hr => ?_, ?_, fun r hr => ?_, fun r hr => hp.requested r (hsub hr), ?_, hp.written⟩
  · exact (congrArg UpstreamHandler.poolReady hself).trans hp.ready
  · exact (congrArg UpstreamHandler.conn hself).trans (hp.conn hr)
  · refine (congrArg UpstreamHandler.upstreamRequestCallbacks hself).trans ?_
    rw [hp.queue, List.filter_map]
    rfl
  · exact hp.encodes r (List.mem_of_mem_filter hr)
  · exact hp.nodup.sublist ((List.filter_sublist.append_right s.passed).map Prod.fst)

/-- The state in which the loop of `onPoolReady` starts. -/
def connected (h : HandlerId) (c : ConnId) (cm : ConnectionManager σ α) : ConnectionManager σ α :=
  cm.modifyHandler h fun hd => { hd with conn := some c, upstreamHandle := false, poolReady := true }

theorem handlerPoolReady_eq (cfg : Config σ α) (cm : ConnectionManager σ α) (h : HandlerId)
    (c : ConnId) (host : String) : handlerPoolReady cfg cm h c host =
      (flush cfg h host (connected h c cm) (cm.handlers h).upstreamRequestCallbacks).modifyHandler h fun hd =>
        { hd with upstreamRequestCallbacks := [] } := rfl

theorem connected_handler (cm : ConnectionManager σ α) :
    (connected h c cm).handlers h =
      { cm.handlers h with conn := some c, upstreamHandle := false, poolReady := true } :=
  cm.handlers_modifyHandler_self h fun hd =>
    { hd with conn := some c, upstreamHandle := false, poolReady := true }

theorem Parked.waiting_nodup (hp : Parked cfg h c base s cm) : (s.waiting.map Prod.fst).Nodup :=
  hp.nodup.sublist ((List.sublist_append_left _ _).map Prod.fst)

/-- The pool's answer: the waiting requests are written if all of them can be encoded. -/
theorem poolReady_parked (host : String) (hp : Parked cfg h c base s cm)
    (halive : cm.crashed = false) (hok : ∀ r ∈ s.waiting, ∃ bytes, r.2 = .ok bytes) :
    (handlerPoolReady cfg cm h c host).crashed = false ∧
      Parked cfg h c base { ready := true, waiting := [], passed := s.passed ++ s.waiting }
        (handlerPoolReady cfg cm h c host) := by
  have hf : Flushed c (connected h c cm) s.waiting
    (flush cfg h host (connected h c cm) (s.waiting.map Prod.fst)) :=
    flush_flushed halive (congrArg UpstreamHandler.conn (connected_handler cm)) hp.encodes
      hp.waiting_nodup hok
  have hperm : (s.waiting ++ s.passed).Perm (s.passed ++ s.waiting) := List.perm_append_comm
  rw [handlerPoolReady_eq, hp.queue]
  generalize flush cfg h host (connected h c cm) (s.waiting.map Prod.fst) = cm₁ at hf ⊢
  have hend := cm₁.handlers_modifyHandler_self h fun hd => { hd with upstreamRequestCallbacks := [] }
  rw [hf.handlers, connected_handler] at hend
  refine ⟨hf.crashed, congrArg UpstreamHandler.poolReady hend, fun _ => congrArg UpstreamHandler.conn hend,
    congrArg UpstreamHandler.upstreamRequestCallbacks hend, fun r hr => absurd hr List.not_mem_nil,
      fun r hr => ?_, ?_, ?_⟩
  · exact hf.requested r.1 (hp.requested r (hperm.mem_iff.2 hr))
  · exact (hperm.map Prod.fst).nodup_iff.1 hp.nodup
  · rw [List.map_append, ← List.append_assoc, ← hp.written]
    exact hf.written

theorem poolReady_error (host : String) (hp : Parked cfg h c base s cm)
    (halive : cm.crashed = false) (herr : ∃ r ∈ s.waiting, ∃ e, r.2 = .error e) :
    (handlerPoolReady cfg cm h c host).crashed = true := by
  have hf : (flush cfg h host (connected h c cm) (s.waiting.map Prod.fst)).crashed = true :=
    flush_error halive (congrArg UpstreamHandler.conn (connected_handler cm)) hp.encodes hp.waiting_nodup herr
  rw [handlerPoolReady_eq, hp.queue]
  exact hf

/-! ## Whole runs -/

theorem handlerStep_parked {e : HandlerEvent} (hp : Parked cfg h c base s cm) (hfeasible : Feasible h cm e)
    (he : e.isPoolReady = true → s.ready = true) :
    (handlerStep cfg h c cm e).crashed = cm.crashed ∧
      (Runs.run (Parking.step Prod.fst) s (parkingEvents cfg h cm e)).ready = s.ready ∧
      Parked cfg h c base (Runs.run (Parking.step Prod.fst) s (parkingEvents cfg h cm e))
        (handlerStep cfg h c cm e) := by
  cases e with
  | poolReady host =>
    -- the pool has answered already
    have hready : (cm.handlers h).poolReady = true := hp.ready.trans (he rfl)
    cases hready.symm.trans hfeasible
  | release m =>
    obtain ⟨hcr, hrel⟩ := release_parked hp hfeasible
    exact ⟨hcr, rfl, hrel⟩
  | start m =>
    cases hready : s.ready with
    | false =>
      obtain ⟨hok, hcr, hstart⟩ := start_waits hp hfeasible hready
      simp only [parkingEvents, hok, if_true, Runs.run_cons, Runs.run_nil, Parking.step, hready,
        Bool.false_eq_true, if_false]
      exact ⟨hcr, trivial, hready ▸ hstart⟩
    | true =>
      cases henc : encodedRequest cfg (cm.messages m) with
      | ok bytes =>
        obtain ⟨hok, hcr, hstart⟩ := start_written hp hfeasible hready henc
        simp only [parkingEvents, hok, if_true, Runs.run_cons, Runs.run_nil, Parking.step, hready, henc]
        exact ⟨hcr, trivial, hready ▸ hstart⟩
      | error e =>
        obtain ⟨hok, hcr, hstart⟩ := start_thrown hp hfeasible hready henc
        simp only [parkingEvents, hok, Bool.false_eq_true, if_false, Runs.run_nil]
        exact ⟨hcr, hready, hstart⟩

/-- The handler and the queue run side by side, before the pool's answer and after it. -/
theorem handlerRun_parked {es : List HandlerEvent} (hp : Parked cfg h c base s cm)
    (hrun : Runs.Guarded (handlerStep cfg h c) (Feasible h) cm es)
    (hes : s.ready = true ∨ ∀ e ∈ es, e.isPoolReady = false) :
    (Runs.run (handlerStep cfg h c) cm es).crashed = cm.crashed ∧
      Parked cfg h c base (Runs.run (Parking.step Prod.fst) s (parkingLog cfg h c cm es))
        (Runs.run (handlerStep cfg h c) cm es) := by
  induction es generalizing s cm with
  | nil => exact ⟨rfl, hp⟩
  | cons e es ih =>
    have he : e.isPoolReady = true → s.ready = true := by
      intro hpool
      refine hes.resolve_right fun hnone => ?_
      cases (hnone e List.mem_cons_self).symm.trans hpool
    obtain ⟨hcr, hready, hp₁⟩ := handlerStep_parked hp hrun.1 he
    obtain ⟨hcr₁, hp₂⟩ :=
      ih hp₁ hrun.2 (hes.imp hready.trans fun hnone f hf => hnone f (List.mem_cons_of_mem e hf))
    rw [parkingLog, Runs.run_append, Runs.run_cons]
    exact ⟨hcr₁.trans hcr, hp₂⟩

theorem ready_notMem_parkingLog {es : List HandlerEvent} (hes : ∀ e ∈ es, e.isPoolReady = false) :
    .ready ∉ parkingLog cfg h c cm es := by
  induction es generalizing cm with
  | nil => exact List.not_mem_nil
  | cons e es ih =>
    have hrest : .ready ∉ parkingLog cfg h c (handlerStep cfg h c cm e) es :=
      ih fun f hf => hes f (List.mem_cons_of_mem e hf)
    have hfirst : .ready ∉ parkingEvents cfg h cm e := by
      cases e with
      | poolReady host => cases hes _ List.mem_cons_self
      | release m => simp [parkingEvents]
      | start m =>
        simp only [parkingEvents]
        split <;> simp
    rw [parkingLog, List.mem_append, not_or]
    exact ⟨hfirst, hrest⟩

theorem handlerStep_crashed (e : HandlerEvent) (hcr : cm.crashed = true) :
    (handlerStep cfg h c cm e).crashed = true := by
  cases e with
  | start m =>
    have hasked := newUpstreamRequest_registered h cm m
    exact (startRequestByHandler_touches (B := False) cfg _ m h).crashed (hasked.crashed.trans hcr)
  | release m =>
    exact ((releaseUpStreamConnection_settles cfg cm m trivial false).touches (B := False)).crashed hcr
  | poolReady host => exact (handlerPoolReady_touches (B := False) cfg cm h c host).crashed hcr

/-- The requests owed to the connection: those accepted before the pool's answer and not released
before it, and then those accepted after it. -/
def owed (cfg : Config σ α) (h : HandlerId) (c : ConnId) (cm : ConnectionManager σ α)
    (before : List HandlerEvent) (host : String) (after : List HandlerEvent) : List WireRequest :=
  Parking.survivors Prod.fst (parkingLog cfg h c cm before) ++
    Parking.accepted
      (parkingLog cfg h c (Runs.run (handlerStep cfg h c) cm (before ++ [.poolReady host])) after)

/-- For a new handler and any interleaving of starts, releases and the pool's answer: nothing is
written before the answer; then the requests accepted before it and not released are written in the
order of acceptance, and the later ones behind them as they come, each once and each as its own
message encodes. The process ends only if a request that waits cannot be encoded. -/
theorem requests_written_in_order (cfg : Config σ α) (h : HandlerId) (c : ConnId) (cm : ConnectionManager σ α)
    (halive : cm.crashed = false) (hnew : (cm.handlers h).poolReady = false)
    (hempty : (cm.handlers h).upstreamRequestCallbacks = [])
    (before after : List HandlerEvent) (host : String) (hbefore : ∀ e ∈ before, e.isPoolReady = false)
    (hrun : Runs.Guarded (handlerStep cfg h c) (Feasible h) cm (before ++ .poolReady host :: after)) :
    requestsWritten (Runs.run (handlerStep cfg h c) cm before) = requestsWritten cm ∧
      ((Runs.run (handlerStep cfg h c) cm (before ++ .poolReady host :: after)).crashed = false ↔
        ∀ r ∈ Parking.survivors Prod.fst (parkingLog cfg h c cm before), ∃ bytes, r.2 = .ok bytes) ∧
      ((Runs.run (handlerStep cfg h c) cm (before ++ .poolReady host :: after)).crashed = false →
        requestsWritten (Runs.run (handlerStep cfg h c) cm (before ++ .poolReady host :: after)) =
            requestsWritten cm ++ (owed cfg h c cm before host after).map (c, ·) ∧
          ((owed cfg h c cm before host after).map Prod.fst).Nodup) := by
  obtain ⟨hrun₁, -, hrun₂⟩ := Runs.guarded_append.1 hrun
  have hp : Parked cfg h c (requestsWritten cm) {} cm :=
    ⟨hnew, fun hr => absurd hr Bool.false_ne_true, hempty, fun r hr => absurd hr List.not_mem_nil,
      fun r hr => absurd hr List.not_mem_nil, List.nodup_nil, (List.append_nil _).symm⟩
  obtain ⟨hcr₁, hp₁⟩ := handlerRun_parked hp hrun₁ (.inr hbefore)
  rw [Parking.run_waiting Prod.fst (ready_notMem_parkingLog hbefore) [], List.filter_nil,
    List.nil_append] at hp₁
  have hsplit : Runs.run (handlerStep cfg h c) cm (before ++ [.poolReady host]) =
      handlerPoolReady cfg (Runs.run (handlerStep cfg h c) cm before) h c host := Runs.run_append ..
  rw [owed, hsplit, Runs.run_append, Runs.run_cons]
  have hwritten₁ : requestsWritten (Runs.run (handlerStep cfg h c) cm before) = requestsWritten cm :=
    hp₁.written.trans (List.append_nil _)
  refine ⟨hwritten₁, ?_⟩
  generalize Parking.survivors Prod.fst (parkingLog cfg h c cm before) = waiting at hp₁ ⊢
  generalize Runs.run (handlerStep cfg h c) cm before = cm₁ at hcr₁ hp₁ hrun₂ ⊢
  have halive₁ : cm₁.crashed = false := hcr₁.trans halive
  by_cases hok : ∀ r ∈ waiting, ∃ bytes, r.2 = .ok bytes
  · obtain ⟨halive₂, hp₂⟩ := poolReady_parked host hp₁ halive₁ hok
    obtain ⟨hcr₃, hp₃⟩ := handlerRun_parked hp₂ hrun₂ (.inl rfl)
    rw [List.nil_append, Parking.run_passed] at hp₃
    exact ⟨⟨fun _ => hok, fun _ => hcr₃.trans halive₂⟩, fun _ => ⟨hp₃.written, hp₃.nodup⟩⟩
  · have herr : ∃ r ∈ waiting, ∃ e, r.2 = .error e := by
      by_contra hnone
      refine hok fun r hr => ?_
      cases hr₂ : r.2 with
      | ok bytes => exact ⟨bytes, rfl⟩
      | error e => exact absurd ⟨r, hr, e, hr₂⟩ hnone
    have hcrash :
        (Runs.run (handlerStep cfg h c) (handlerStep cfg h c cm₁ (.poolReady host)) after).crashed = true :=
      Runs.run_invariant (I := fun cm : ConnectionManager σ α => cm.crashed = true) (fun _ e hcr =>
        handlerStep_crashed e hcr) (poolReady_error host hp₁ halive₁ herr) after
    rw [hcrash]
    exact ⟨⟨fun hfalse => absurd hfalse (by decide), fun hall => absurd hall hok⟩, fun hfalse =>
      absurd hfalse (by decide)⟩

section Concrete

/-- Three decoded requests, and no handler yet. -/
def decodedRequests : ConnectionManager TrpcCodec Unit :=
  { messages := fun m => { metadata := { messageType := .request, requestId := m } } }

/-- Two requests wait and the first is released, then the pool answers and a third one comes. -/
theorem requests_written_in_order_released :
    (requestsWritten (Runs.run (handlerStep multiplexed 0 9) decodedRequests
        [.start 0, .start 1, .release 0, .poolReady "h", .start 2])).map (fun w => (w.1, w.2.1)) =
          [(9, 1), (9, 2)] := by
  have hrun : Runs.Guarded (handlerStep multiplexed 0 9) (Feasible 0) decodedRequests
      [.start 0, .start 1, .release 0, .poolReady "h", .start 2] := ⟨rfl, rfl, rfl, rfl, rfl, trivial⟩
  have hwritten :=
    (requests_written_in_order multiplexed 0 9 decodedRequests rfl rfl rfl
      [.start 0, .start 1, .release 0] [.start 2] "h" (by simp [HandlerEvent.isPoolReady])
      hrun).2.2 rfl
  exact congrArg (List.map fun w => (w.1, w.2.1)) hwritten.1

end Concrete

end MetaProtocolProxy
