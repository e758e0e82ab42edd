import MetaProtocolProxy.Proxy.Multiplexing
import MetaProtocolProxy.Proxy.Pipelining
/-
# Requests and the connections they share
(upstream_handler_impl.cc, conn_manager.cc, router_impl.cc)

Whole runs of the connection manager with multiplexing.

* `waiting_requests_are_pending` — the requests that wait on a handler wait for an answer of the
  pool, in every run in which the pool does not refuse a connection before `newConnection` returns.
  If it does, the handler is already forgotten when the request subscribes to it
  (`refused_request_waits_for_ever`).
* `live_requests_are_served` — a request with a response callback on a handler has a handler that
  has a connection or will get an answer, if moreover no connection is closed while a request
  expects a response on it. `onClose` does not look at `response_callbacks_`
  (`closed_connection_forgets_request`).
-/
namespace MetaProtocolProxy

variable {σ α : Type} {cfg : Config σ α} {cm : ConnectionManager σ α} {e : Event α}

structure LinksWf (cm : ConnectionManager σ α) : Prop where
  kept : Kept cm
  wf : cm.crashed = false → (links cm).Wf

/-- No request of a message on the list of messages expects a response on a connection that is
closed. -/
def ClosedUnused (cm : ConnectionManager σ α) : Event α → Prop
  | .handlerEvent h _ => ∀ entry ∈ (cm.handlers h).responseCallbacks, entry.2 ∉ cm.activeMessageList
  | _ => True

theorem linksWf_init : LinksWf ({} : ConnectionManager σ α) where
  kept := ⟨listed_init, nofun, nofun⟩
  wf _ := ⟨fun h => absurd h List.not_mem_nil, fun h =>
    ⟨rfl, fun hr => (by cases hr), fun hw => absurd hw (by simp [links])⟩⟩

theorem Kept.handlerClose (hk : Kept cm) (h : HandlerId) : Kept (handlerClose cm h) :=
  ⟨⟨hk.nodup, hk.known⟩, hk.shared, hk.pending⟩

theorem step_linksWf (hmux : cfg.multiplexing = true) (hI : LinksWf cm) (hen : Enabled cm e)
    (henv : NotRefusedAtOnce cm e) : LinksWf (step cfg cm e) := by
  have hwf := hI.wf hen.1
  by_cases hclose : ∃ h event, e = .handlerEvent h event
  · obtain ⟨h, event, rfl⟩ := hclose
    refine ⟨hI.kept.handlerClose h, fun _ => ?_⟩
    show (links (handlerClose cm h)).Wf
    rw [links_handlerClose]
    exact hwf.close hen.2
  · have hf := step_follows hmux hI.kept hen henv fun h event heq => hclose ⟨h, event, heq⟩
    exact ⟨hf.kept hI.kept, fun hc => Links.wf_of_moves (hf.moves hI.kept hc) hwf⟩

/-- In every run with multiplexing in which the pool refuses no new handler at once, a handler on
which requests wait is not ready, and the pool has yet to answer it. -/
theorem waiting_requests_are_pending (cfg : Config σ α) (hmux : cfg.multiplexing = true) (es : List (Event α))
    (hrun : Runs.Guarded (step cfg) (fun cm e => Enabled cm e ∧ NotRefusedAtOnce cm e) {} es) (n : Nat)
    (hc : (Runs.run (step cfg) {} (es.take n)).crashed = false) (h : HandlerId)
    (hwait : ((Runs.run (step cfg) {} (es.take n)).handlers h).upstreamRequestCallbacks ≠ []) :
    ((Runs.run (step cfg) {} (es.take n)).handlers h).poolReady = false ∧
      ((Runs.run (step cfg) {} (es.take n)).handlers h).upstreamHandle = true := by
  have hI : LinksWf (Runs.run (step cfg) {} (es.take n)) :=
    hrun.invariant_take (fun cm e hI hg => step_linksWf hmux hI hg.1 hg.2) linksWf_init n
  obtain ⟨m, hm⟩ := List.exists_mem_of_ne_nil _ hwait
  exact ((hI.wf hc).sound h).waits ⟨m, hm⟩

structure LinksServed (cm : ConnectionManager σ α) : Prop extends LinksWf cm where
  served : cm.crashed = false → (links cm).Served

theorem linksServed_init : LinksServed ({} : ConnectionManager σ α) where
  toLinksWf := linksWf_init
  served _ := ⟨fun _ he => absurd he List.not_mem_nil, fun he => absurd he List.not_mem_nil,
    fun he => absurd he List.not_mem_nil⟩

theorem step_linksServed (hmux : cfg.multiplexing = true) (hI : LinksServed cm) (hen : Enabled cm e)
    (henv : NotRefusedAtOnce cm e) (hunused : ClosedUnused cm e) : LinksServed (step cfg cm e) := by
  have hwf := hI.wf hen.1
  have hserved := hI.served hen.1
  refine ⟨step_linksWf hmux hI.toLinksWf hen henv, fun hc => ?_⟩
  by_cases hclose : ∃ h event, e = .handlerEvent h event
  · obtain ⟨h, event, rfl⟩ := hclose
    show (links (handlerClose cm h)).Served
    rw [links_handlerClose]
    exact hserved.close fun {id m} he => hunused (id, m) he
  · have hf := step_follows hmux hI.kept hen henv fun h event heq => hclose ⟨h, event, heq⟩
    exact Links.served_of_moves (hf.moves hI.kept hc) hwf hserved

/-- In every run with multiplexing in which the pool refuses no new handler at once and no
connection is closed under a request that expects a response on it, the handler of every entry of a
message on the list of messages is waiting for the pool or has its connection. -/
theorem live_requests_are_served (cfg : Config σ α) (hmux : cfg.multiplexing = true) (es : List (Event α))
    (hrun : Runs.Guarded (step cfg) (fun cm e => Enabled cm e ∧ NotRefusedAtOnce cm e ∧
      ClosedUnused cm e) {} es) (n : Nat)
    (hc : (Runs.run (step cfg) {} (es.take n)).crashed = false) (h : HandlerId) (id : Nat) (m : MsgId)
    (hentry : (id, m) ∈ ((Runs.run (step cfg) {} (es.take n)).handlers h).responseCallbacks)
    (hlive : m ∈ (Runs.run (step cfg) {} (es.take n)).activeMessageList) :
    ((Runs.run (step cfg) {} (es.take n)).handlers h).upstreamHandle = true ∨
      ((Runs.run (step cfg) {} (es.take n)).handlers h).conn.isSome = true := by
  have hI : LinksServed (Runs.run (step cfg) {} (es.take n)) :=
    hrun.invariant_take (fun cm e hI hg => step_linksServed hmux hI hg.1 hg.2.1 hg.2.2) linksServed_init n
  exact (hI.served hc).served hentry hlive

section Concrete

/-- A request with the given id, and the pool's answer if it needs a handler. -/
def requestTo (id : Nat) (pool : PoolAnswer) : Event Unit :=
  .decoded { messageType := .request, requestId := id } [] []
    { route := some { clusterName := "c" }, cluster := some { host := some "h" }, pool := pool }

theorem waiting_requests_are_pending_two :
    ((Runs.run (step multiplexed) {} [requestTo 5 .pending, requestTo 6 .pending]).handlers
      0).upstreamRequestCallbacks = [0, 1] ∧
      ((Runs.run (step multiplexed) {} [requestTo 5 .pending, requestTo 6 .pending]).handlers
        0).poolReady = false ∧
      ((Runs.run (step multiplexed) {} [requestTo 5 .pending, requestTo 6 .pending]).handlers
        0).upstreamHandle = true := by
  refine ⟨rfl, waiting_requests_are_pending multiplexed rfl [requestTo 5 .pending,
    requestTo 6 .pending] ?_ 2 rfl 0 ?_⟩
  · exact ⟨⟨⟨rfl, trivial⟩, by simp [requestTo, NotRefusedAtOnce, RouterEnv.NotRefused]⟩,
      ⟨⟨rfl, trivial⟩, by simp [requestTo, NotRefusedAtOnce, RouterEnv.NotRefused]⟩, trivial⟩
  · show ([0, 1] : List MsgId) ≠ []
    simp

/-- The pool is full: the handler is refused and forgotten before the request that made it waits on
it. -/
theorem refused_request_waits_for_ever :
    Runs.Guarded (step multiplexed) Enabled {} [requestTo 5 (.failure .overflow)] ∧
      ((Runs.run (step multiplexed) {} [requestTo 5 (.failure .overflow)]).handlers
        0).upstreamRequestCallbacks = [0] ∧
      ((Runs.run (step multiplexed) {} [requestTo 5 (.failure .overflow)]).handlers
        0).upstreamHandle = false ∧
      (Runs.run (step multiplexed) {} [requestTo 5 (.failure .overflow)]).handlerManager = [] :=
  ⟨⟨⟨rfl, trivial⟩, trivial⟩, rfl, rfl, rfl⟩

theorem live_requests_are_served_ready :
    ((Runs.run (step multiplexed) {} [requestTo 5 (.ready 3)]).handlers 0).upstreamHandle = true ∨
      ((Runs.run (step multiplexed) {} [requestTo 5 (.ready 3)]).handlers 0).conn.isSome = true := by
  refine live_requests_are_served multiplexed rfl [requestTo 5 (.ready 3)] ?_ 1 rfl 0 5 0 ?_ ?_
  · exact ⟨⟨⟨rfl, trivial⟩, by simp [requestTo, NotRefusedAtOnce, RouterEnv.NotRefused], trivial⟩, trivial⟩
  · show (5, 0) ∈ ([(5, 0)] : List (Nat × MsgId))
    simp
  · show (0 : MsgId) ∈ ([0] : List MsgId)
    simp

/-- The upstream closes the connection: the request is on the list and has its entry, but nobody
will answer it, and no reply has been written. -/
theorem closed_connection_forgets_request :
    Runs.Guarded (step multiplexed) Enabled {} [requestTo 5 (.ready 3), .handlerEvent 0 .remoteClose] ∧
      ((Runs.run (step multiplexed) {} [requestTo 5 (.ready 3),
        .handlerEvent 0 .remoteClose]).handlers 0).responseCallbacks =
        [(5, 0)] ∧
      (Runs.run (step multiplexed) {} [requestTo 5 (.ready 3),
        .handlerEvent 0 .remoteClose]).activeMessageList = [0] ∧
      ((Runs.run (step multiplexed) {} [requestTo 5 (.ready 3),
        .handlerEvent 0 .remoteClose]).handlers 0).upstreamHandle = false ∧
      ((Runs.run (step multiplexed) {} [requestTo 5 (.ready 3),
        .handlerEvent 0 .remoteClose]).handlers 0).conn = none ∧
      replies (Runs.run (step multiplexed) {} [requestTo 5 (.ready 3), .handlerEvent 0 .remoteClose]) 0 = 0 :=
  ⟨⟨⟨rfl, trivial⟩, ⟨rfl, rfl⟩, trivial⟩, rfl, rfl, rfl, rfl, rfl⟩

end Concrete

end MetaProtocolProxy
