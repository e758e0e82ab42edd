import MetaProtocolProxy.Proxy.Shadow
/-
# The list of mirrored requests (shadow_writer_impl.h, shadow_writer_impl.cc, upstream_request.cc)

Each worker thread keeps its shadow routers in `active_routers_`. A router is put on the list by
`submit`, after its request has been started, and taken off by `cleanup` only, when the response is
over or the connection is closed. A refused connection leads to `resetStream`, which is not
`cleanup`: the router stays on the list and nothing will ever call it again. `mirrors_kept_iff`
lists the events that break the list.

| here | there |
| --- | --- |
| `MirrorRouter` | a `ShadowRouterImpl` with its request's metadata and mutation |
| `listening` | `addUpstreamCallbacks` has been called with the router |
| `activeRouters`, `removals` | `active_routers_`; the calls of `ActiveRouters::remove`, in order |
| `release` | `releaseUpStreamConnection` without the event that a close raises |
| `threadExit` | `~ActiveRouters` |
-/
namespace MetaProtocolProxy

variable {σ α : Type}

structure MirrorRouter (σ α : Type) where
  router : ShadowRouterImpl σ
  metadata : Metadata α := {}
  mutation : Mutation := []
  listening : Bool := false

/-- A thread's part of the `ShadowWriterImpl`. -/
structure ShadowWriterImpl (σ α : Type) where
  routers : Nat → MirrorRouter σ α
  nextRouter : Nat := 0
  activeRouters : List Nat := []
  removals : List Nat := []
  exited : Bool := false
  crashed : Bool := false

/-- A new router (shadow_writer_impl.cc:30-36); its request takes the message
(upstream_request.cc:14-19). -/
def MirrorRouter.new (cd : Codec σ α) (metadata : Metadata α) (mutation : Mutation)
    (garbage : Bool) : MirrorRouter σ α where
  router := { upstreamRequest := { buffer := metadata.originMessage }, decoder := newResponse cd garbage }
  metadata := { metadata with originMessage := [] }
  mutation := mutation

/-- What `encodeData` makes of the request once the server is known (upstream_request.cc:87-95,
142-144). -/
def MirrorRouter.encoded (cd : Codec σ α) (s : MirrorRouter σ α) (host : String) : Except Failure Bytes :=
  cd.encode (s.metadata.putString realServerAddress host) s.mutation s.router.upstreamRequest.buffer

namespace ShadowWriterImpl

def new (cd : Codec σ α) : ShadowWriterImpl σ α where
  routers _ := .new cd {} [] false

variable (cd : Codec σ α) (w : ShadowWriterImpl σ α) (r : Nat)

def request : UpstreamRequest := (w.routers r).router.upstreamRequest

def live : Bool := (w.request r).conn.isSome && (w.routers r).listening

def modify (f : MirrorRouter σ α → MirrorRouter σ α) : ShadowWriterImpl σ α :=
  { w with routers := Function.update w.routers r (f (w.routers r)) }

def modifyRequest (f : UpstreamRequest → UpstreamRequest) : ShadowWriterImpl σ α :=
  w.modify r fun s => { s with router := { s.router with upstreamRequest := f s.router.upstreamRequest } }

/-- `ActiveRouters::remove`. -/
def remove : ShadowWriterImpl σ α :=
  { w with activeRouters := w.activeRouters.erase r, removals := w.removals ++ [r] }

/-- `ShadowRouterImpl::cleanup` (shadow_writer_impl.cc:51-59). -/
def cleanup : ShadowWriterImpl σ α :=
  if (w.routers r).router.removed then w
    else (w.modify r fun s => { s with router := s.router.cleanup }).remove r

/-- `releaseUpStreamConnection(true)` up to the close (upstream_request.cc:58-85). -/
def release : ShadowWriterImpl σ α :=
  w.modifyRequest r fun u => { u with streamReset := true, handle := false, conn := none }

/-- `onUpstreamConnectionReset` (upstream_request.cc:179-230) of a request whose connection is
closed already, or that has none: the reply is ignored, and `resetStream` raises no event. -/
def onUpstreamConnectionReset : ShadowWriterImpl σ α :=
  if (w.routers r).metadata.messageType = .oneway ∨ (w.request r).responseComplete =
    false then w.release r else w

/-- `ShadowRouterImpl::onEvent` (shadow_writer_impl.cc:96-99). -/
def onEvent : ShadowWriterImpl σ α := (w.onUpstreamConnectionReset r).cleanup r

/-- `ShadowRouterImpl::resetStream`: the close of a connection the router listens to comes back
before the call returns. -/
def resetStream : ShadowWriterImpl σ α :=
  if w.live r then (w.release r).onEvent r else w.release r

/-- `onPoolFailure` (upstream_request.cc:97-122). -/
def onPoolFailure (host : String) : ShadowWriterImpl σ α :=
  let w := w.modifyRequest r fun u => { u with handle := false, host := host }
  (w.onUpstreamConnectionReset r).modifyRequest r fun u => { u with buffer := [] }

/-- The connection is taken, and listened to if the message is a request
(upstream_request.cc:132-139). -/
def takeConnection (c : ConnId) (host : String) : ShadowWriterImpl σ α :=
  w.modify r fun s =>
    { s with
      listening := s.listening || s.metadata.messageType = .request
      router := { s.router with
        upstreamRequest :=
          { s.router.upstreamRequest with host := host, conn := some c, handle := false } } }

/-- After `encodeData` (upstream_request.cc:149-156); for a stream the connection is closed and not
handed on. -/
def completeRequest (host : String) : ShadowWriterImpl σ α :=
  let w := w.modify r fun s => { s with metadata := s.metadata.putString realServerAddress host }
  let w := if (w.routers r).metadata.messageType = .streamInit then w.resetStream r else w
  w.modifyRequest r fun u => { u with buffer := [], requestComplete := true }

/-- `onPoolReady` (upstream_request.cc:124-157). -/
def onPoolReady (c : ConnId) (host : String) : Except Failure Unit × ShadowWriterImpl σ α :=
  let w := w.takeConnection r c host
  match (w.routers r).encoded cd host with
  | .error e => (.error e, w)
  | .ok _ => (.ok (), w.completeRequest r host)

/-- `LinkedList::moveIntoList`. -/
def insert : ShadowWriterImpl σ α := { w with activeRouters := r :: w.activeRouters }

def create (s : MirrorRouter σ α) : ShadowWriterImpl σ α :=
  { w with nextRouter := w.nextRouter + 1, routers := Function.update w.routers w.nextRouter s }

/-- `submit` (shadow_writer_impl.cc:14-28): a router whose request was not created, or threw, is
gone when it returns. -/
def submit (clusterName : String) (metadata : Metadata α) (mutation : Mutation) (garbage : Bool)
    (cluster : Option Cluster) (pool : PoolAnswer) : Except Failure Unit × ShadowWriterImpl σ α :=
  match prepareUpstreamRequest clusterName cluster with
  | .error _ => (.ok (), w)
  | .ok host =>
    let r := w.nextRouter
    let w' := w.create (.new cd metadata mutation garbage)
    match pool with
    | .pending => (.ok (), (w'.modifyRequest r fun u => { u with handle := true }).insert r)
    | .failure _ => (.ok (), (w'.onPoolFailure r host).insert r)
    | .ready c =>
      match w'.onPoolReady cd r c host with
      | (.error e, _) => (.error e, w)
      | (.ok _, w') => (.ok (), w'.insert r)

/-- `ShadowRouterImpl::onUpstreamData` in its writer; nobody catches an exception, and a panic ends
the process. -/
def onUpstreamData (data : Bytes) (endStream : Bool) : ShadowWriterImpl σ α :=
  match (w.routers r).router.onUpstreamData cd data endStream with
  | (.returned, router, _) =>
    let w' := w.modify r fun s => { s with router := router }
    if router.removed && !(w.routers r).router.removed then w'.remove r else w'
  | _ => { w with crashed := true }

/-- One round of the loop in `~ActiveRouters`. -/
def exitRound : ShadowWriterImpl σ α := (w.resetStream r).remove r

/-- `~ActiveRouters` (shadow_writer_impl.h:156-163). -/
def threadExit : ShadowWriterImpl σ α := { w.activeRouters.foldl exitRound w with exited := true }

end ShadowWriterImpl

inductive MirrorEvent (α : Type)
  | submit (clusterName : String) (metadata : Metadata α) (mutation : Mutation) (garbage :
      Bool) (cluster : Option Cluster)
    (pool : PoolAnswer)
  | poolReady (r : Nat) (c : ConnId) (host : String)
  | poolFailure (r : Nat) (reason : PoolFailureReason) (host : String)
  | upstreamData (r : Nat) (data : Bytes) (endStream : Bool)
  | upstreamEvent (r : Nat) (event : ConnectionEvent)
  | threadExit

section Definitions

variable (cd : Codec σ α) (w : ShadowWriterImpl σ α)

def mirrorStep : MirrorEvent α → ShadowWriterImpl σ α
  | .submit clusterName metadata mutation garbage cluster pool =>
    (w.submit cd clusterName metadata mutation garbage cluster pool).2
  | .poolReady r c host =>
    match w.onPoolReady cd r c host with
    | (.error _, w) => { w with crashed := true }
    | (.ok _, w) => w
  | .poolFailure r _ host => w.onPoolFailure r host
  | .upstreamData r data endStream => w.onUpstreamData cd r data endStream
  | .upstreamEvent r _ => w.onEvent r
  | .threadExit => w.threadExit

/-- The pool answers a pending request, a connection calls the router that listens to it, and a
thread ends once. -/
def MirrorEnabled (e : MirrorEvent α) : Prop :=
  w.crashed = false ∧ w.exited = false ∧ match e with
    | .poolReady r _ _ | .poolFailure r _ _ => (w.request r).handle = true
    | .upstreamData r _ _ | .upstreamEvent r _ => w.live r = true
    | _ => True

def Attended (r : Nat) : Prop := (w.request r).handle = true ∨ w.live r = true

/-- The process goes on, every router on the list has a pending request or a connection that it
listens to, and no router has left the list twice. -/
structure MirrorsKept : Prop where
  running : w.crashed = false
  attended : ∀ r ∈ w.activeRouters, Attended w r
  once : ∀ r, w.removals.count r ≤ 1

/-- The events after which the list is broken: a refused connection; a connection for anything but a
request, which the router does not listen to; an exception out of a callback; and the end of the
thread while a mirror is connected. -/
def Breaks : MirrorEvent α → Prop
  | .submit clusterName metadata mutation garbage cluster pool =>
    ∃ host, prepareUpstreamRequest clusterName cluster = .ok host ∧
      match pool with
      | .pending => False
      | .failure _ => True
      | .ready _ => metadata.messageType ≠ .request ∧
          ∃ bytes, (MirrorRouter.new cd metadata mutation garbage).encoded cd host = .ok bytes
  | .poolReady r _ host =>
    (w.routers r).metadata.messageType ≠ .request ∨ ∃ e, (w.routers r).encoded cd host = .error e
  | .poolFailure _ _ _ => True
  | .upstreamData r data _ => ∃ e, codecAnswer cd (w.routers r).router.decoder.codec data = .throws e
  | .upstreamEvent _ _ => False
  | .threadExit => ∃ r ∈ w.activeRouters, w.live r = true

/-- What holds of the list besides: routers not on it are done, and those on it have not been
removed. -/
structure MirrorLedger : Prop where
  nodup : w.activeRouters.Nodup
  known : ∀ r ∈ w.activeRouters, r < w.nextRouter
  listed : ∀ r ∈ w.activeRouters, (w.routers r).router.removed = false ∧
    (w.request r).responseComplete = false ∧ w.removals.count r = 0
  unlisted : ∀ r ∉ w.activeRouters, (w.request r).handle = false ∧ (w.request r).conn = none
  waiting : ∀ r, (w.request r).handle = true → (w.routers r).listening = false
  fresh : ∀ r, w.nextRouter ≤ r → w.removals.count r = 0

/-- The writer changes in router `r` only. -/
structure Only (r : Nat) (w w' : ShadowWriterImpl σ α) : Prop where
  routers : ∀ i, i ≠ r → w'.routers i = w.routers i
  nextRouter : w'.nextRouter = w.nextRouter
  crashed : w'.crashed = w.crashed

/-- The router `r` changes and stays where it is. -/
structure Changes (r : Nat) (w w' : ShadowWriterImpl σ α) : Prop extends Only r w w' where
  activeRouters : w'.activeRouters = w.activeRouters
  removals : w'.removals = w.removals
  removed : (w'.routers r).router.removed = (w.routers r).router.removed
  responseComplete : (w'.request r).responseComplete = (w.request r).responseComplete

/-- The router `r` leaves the list, without a connection. -/
structure Removes (r : Nat) (w w' : ShadowWriterImpl σ α) : Prop extends Only r w w' where
  activeRouters : w'.activeRouters = w.activeRouters.erase r
  removals : w'.removals = w.removals ++ [r]
  handle : (w'.request r).handle = false
  conn : (w'.request r).conn = none

end Definitions

variable {cd : Codec σ α} {w w' w'' : ShadowWriterImpl σ α} {r : Nat}

/-! ## The operations -/

namespace ShadowWriterImpl

@[simp] theorem routers_modify_self (w : ShadowWriterImpl σ α) (r : Nat)
    (f : MirrorRouter σ α → MirrorRouter σ α) :
    (w.modify r f).routers r = f (w.routers r) := Function.update_self ..

@[simp] theorem upstreamRequest_eq (w : ShadowWriterImpl σ α) (r : Nat) :
    (w.routers r).router.upstreamRequest = w.request r := rfl

@[simp] theorem request_modify_self (w : ShadowWriterImpl σ α) (r : Nat)
    (f : MirrorRouter σ α → MirrorRouter σ α) :
    (w.modify r f).request r = (f (w.routers r)).router.upstreamRequest := by
  rw [request, routers_modify_self]

@[simp] theorem request_modifyRequest_self (w : ShadowWriterImpl σ α) (r : Nat)
    (f : UpstreamRequest → UpstreamRequest) :
    (w.modifyRequest r f).request r = f (w.request r) := by
  simp [modifyRequest]

@[simp] theorem listening_modifyRequest_self (w : ShadowWriterImpl σ α) (r : Nat)
    (f : UpstreamRequest → UpstreamRequest) :
    ((w.modifyRequest r f).routers r).listening = (w.routers r).listening := by
  simp [modifyRequest]

end ShadowWriterImpl

theorem Only.modify (w : ShadowWriterImpl σ α) (r : Nat) (f : MirrorRouter σ α → MirrorRouter σ α) :
    Only r w (w.modify r f) :=
  ⟨fun _ hi => Function.update_of_ne hi .., rfl, rfl⟩

theorem Only.trans (h : Only r w w') (h' : Only r w' w'') : Only r w w'' :=
  ⟨fun i hi => (h'.routers i hi).trans (h.routers i hi), h'.nextRouter.trans h.nextRouter,
    h'.crashed.trans h.crashed⟩

theorem Only.request (h : Only r w w') {i : Nat} (hi : i ≠ r) : w'.request i = w.request i := by
  rw [ShadowWriterImpl.request, h.routers i hi, ShadowWriterImpl.request]

theorem Only.attended (h : Only r w w') {i : Nat} (hi : i ≠ r) (ha : Attended w i) : Attended w' i := by
  simpa only [Attended, ShadowWriterImpl.live, h.request hi, h.routers i hi] using ha

theorem Changes.refl (r : Nat) (w : ShadowWriterImpl σ α) : Changes r w w :=
  ⟨⟨fun _ _ => rfl, rfl, rfl⟩, rfl, rfl, rfl, rfl⟩

theorem Changes.trans (h : Changes r w w') (h' : Changes r w' w'') : Changes r w w'' :=
  ⟨h.toOnly.trans h'.toOnly, h'.activeRouters.trans h.activeRouters, h'.removals.trans h.removals,
    h'.removed.trans h.removed, h'.responseComplete.trans h.responseComplete⟩

theorem Changes.modify (w : ShadowWriterImpl σ α) (r : Nat) {f : MirrorRouter σ α → MirrorRouter σ α}
    (hremoved : ∀ s, (f s).router.removed = s.router.removed)
    (hcomplete : ∀ s, (f s).router.upstreamRequest.responseComplete =
      s.router.upstreamRequest.responseComplete) :
    Changes r w (w.modify r f) :=
  ⟨.modify w r f, rfl, rfl, by simp [hremoved], by simpa using hcomplete (w.routers r)⟩

theorem Changes.modifyRequest (w : ShadowWriterImpl σ α) (r : Nat) {f : UpstreamRequest → UpstreamRequest}
    (hcomplete : ∀ u, (f u).responseComplete = u.responseComplete) : Changes r w (w.modifyRequest r f) :=
  .modify w r (fun _ => rfl) fun _ => hcomplete _

theorem release_changes (w : ShadowWriterImpl σ α) (r : Nat) : Changes r w (w.release r) :=
  .modifyRequest w r fun _ => rfl

theorem onUpstreamConnectionReset_changes (w : ShadowWriterImpl σ α) (r : Nat) :
    Changes r w (w.onUpstreamConnectionReset r) := by
  unfold ShadowWriterImpl.onUpstreamConnectionReset
  split
  · exact release_changes w r
  · exact .refl r w

theorem Removes.of_changes (h : Changes r w w') (h' : Removes r w' w'') : Removes r w w'' :=
  ⟨h.toOnly.trans h'.toOnly, h'.activeRouters.trans (by rw [h.activeRouters]),
    h'.removals.trans (by rw [h.removals]), h'.handle, h'.conn⟩

theorem Removes.modify {f : MirrorRouter σ α → MirrorRouter σ α}
    (hhandle : (f (w.routers r)).router.upstreamRequest.handle = false)
    (hconn : (f (w.routers r)).router.upstreamRequest.conn = none) :
    Removes r w ((w.modify r f).remove r) := by
  have hrequest : ((w.modify r f).remove r).request r = (f (w.routers r)).router.upstreamRequest :=
    ShadowWriterImpl.request_modify_self w r f
  exact ⟨⟨(Only.modify w r f).routers, rfl, rfl⟩, rfl, rfl, hrequest ▸ hhandle, hrequest ▸ hconn⟩

theorem cleanup_removes (hremoved : (w.routers r).router.removed = false) : Removes r w (w.cleanup r) := by
  rw [ShadowWriterImpl.cleanup, if_neg (by simp [hremoved])]
  apply Removes.modify
  · simp [ShadowRouterImpl.cleanup, hremoved]
  · simp [ShadowRouterImpl.cleanup, hremoved]

theorem onEvent_removes (hremoved : (w.routers r).router.removed = false) : Removes r w (w.onEvent r) := by
  have hreset := onUpstreamConnectionReset_changes w r
  exact .of_changes hreset (cleanup_removes (hreset.removed.trans hremoved))

theorem cleanup_only (w : ShadowWriterImpl σ α) (r : Nat) : Only r w (w.cleanup r) := by
  by_cases hremoved : (w.routers r).router.removed = true
  · rw [ShadowWriterImpl.cleanup, if_pos hremoved]
    exact (Changes.refl r w).toOnly
  · exact (cleanup_removes (by simpa using hremoved)).toOnly

theorem resetStream_only (w : ShadowWriterImpl σ α) (r : Nat) : Only r w (w.resetStream r) := by
  have hrelease := (release_changes w r).toOnly
  unfold ShadowWriterImpl.resetStream
  split
  · exact (hrelease.trans (onUpstreamConnectionReset_changes _ r).toOnly).trans (cleanup_only _ r)
  · exact hrelease

theorem resetStream_of_not_live (h : w.live r = false) : w.resetStream r = w.release r := by
  simp [ShadowWriterImpl.resetStream, h]

theorem resetStream_of_live (h : w.live r = true)
    (hremoved : (w.routers r).router.removed = false) : Removes r w (w.resetStream r) := by
  have hrelease := release_changes w r
  rw [ShadowWriterImpl.resetStream, if_pos h]
  exact .of_changes hrelease (onEvent_removes (hrelease.removed.trans hremoved))

theorem not_attended (hhandle : (w.request r).handle = false) (hconn : (w.request r).conn = none) :
    ¬ Attended w r := by
  simp [Attended, ShadowWriterImpl.live, hhandle, hconn]

/-- A refused connection: the router stays, and has neither a request nor a connection. -/
theorem onPoolFailure_changes (hcomplete : (w.request r).responseComplete = false) (host : String) :
    Changes r w (w.onPoolFailure r host) ∧ ¬ Attended (w.onPoolFailure r host) r := by
  have hhandle : Changes r w (w.modifyRequest r fun u => { u with handle := false, host := host }) :=
    .modifyRequest w r fun _ => rfl
  have hreset := hhandle.trans (onUpstreamConnectionReset_changes _ r)
  constructor
  · apply hreset.trans
    exact .modifyRequest _ r (f := fun u => { u with buffer := [] }) fun _ => rfl
  · apply not_attended
    · simp [ShadowWriterImpl.onPoolFailure, ShadowWriterImpl.onUpstreamConnectionReset,
        ShadowWriterImpl.release, hcomplete]
    · simp [ShadowWriterImpl.onPoolFailure, ShadowWriterImpl.onUpstreamConnectionReset,
        ShadowWriterImpl.release, hcomplete]

theorem takeConnection_changes (w : ShadowWriterImpl σ α) (r : Nat) (c : ConnId) (host : String) :
    Changes r w (w.takeConnection r c host) :=
  .modify w r (fun _ => rfl) fun _ => rfl

theorem encoded_takeConnection (w : ShadowWriterImpl σ α) (r : Nat) (c : ConnId) (host : String) :
    ((w.takeConnection r c host).routers r).encoded cd host = (w.routers r).encoded cd host := by
  simp [ShadowWriterImpl.takeConnection, MirrorRouter.encoded]

theorem live_takeConnection (hlistening : (w.routers r).listening = false) (c : ConnId) (host : String) :
    (w.takeConnection r c host).live r = true ↔ (w.routers r).metadata.messageType = .request := by
  simp [ShadowWriterImpl.takeConnection, ShadowWriterImpl.live, hlistening]

/-- The connection is kept for everything but a stream, whose router must not listen to it. -/
theorem completeRequest_changes (host : String) (hhandle : (w.request r).handle = false)
    (hlive : w.live r = true ↔ (w.routers r).metadata.messageType = .request) :
    Changes r w (w.completeRequest r host) ∧ ((w.completeRequest r host).request r).handle = false ∧
      ((w.completeRequest r host).live r = true ↔ (w.routers r).metadata.messageType = .request) := by
  have hput : Changes r w (w.modify r fun s =>
    { s with metadata := s.metadata.putString realServerAddress host }) :=
    .modify w r (fun _ => rfl) fun _ => rfl
  have hlive' :
      (w.modify r fun s => { s with metadata := s.metadata.putString realServerAddress host }).live
          r = w.live r := by
    simp [ShadowWriterImpl.live]
  unfold ShadowWriterImpl.completeRequest
  by_cases hinit : (w.routers r).metadata.messageType = .streamInit
  · have hquiet : w.live r = false := by
      rw [Bool.eq_false_iff, ne_eq, hlive, hinit]
      decide
    simp only [ShadowWriterImpl.routers_modify_self, Metadata.putString_messageType, hinit, if_true]
    rw [resetStream_of_not_live (hlive'.trans hquiet)]
    refine ⟨(hput.trans (release_changes _ r)).trans (.modifyRequest _ r fun _ => rfl), ?_, ?_⟩
    · simp [ShadowWriterImpl.release]
    · simp [ShadowWriterImpl.release, ShadowWriterImpl.live]
  · simp only [ShadowWriterImpl.routers_modify_self, Metadata.putString_messageType, hinit, if_false]
    refine ⟨hput.trans (.modifyRequest _ r fun _ => rfl), ?_, ?_⟩
    · simpa using hhandle
    · rw [← hlive]
      simp [ShadowWriterImpl.live]

/-- An accepted connection, if the request can be encoded: the router listens to it just for a
request. -/
theorem onPoolReady_changes {host : String} {bytes : Bytes} (henc : (w.routers r).encoded cd host = .ok bytes)
    (hlistening : (w.routers r).listening = false) (c : ConnId) :
    ∃ w', w.onPoolReady cd r c host = (.ok (), w') ∧ Changes r w w' ∧ (w'.request r).handle = false ∧
      (Attended w' r ↔ (w.routers r).metadata.messageType = .request) := by
  have htype : ((w.takeConnection r c host).routers r).metadata.messageType =
      (w.routers r).metadata.messageType := by
    simp [ShadowWriterImpl.takeConnection]
  have hhandle : ((w.takeConnection r c host).request r).handle = false := by
    simp [ShadowWriterImpl.takeConnection]
  obtain ⟨hchanges, hhandle', hlive⟩ :=
    completeRequest_changes host hhandle (htype ▸ live_takeConnection hlistening c host)
  refine ⟨_, ?_, (takeConnection_changes w r c host).trans hchanges, hhandle', ?_⟩
  · simp only [ShadowWriterImpl.onPoolReady, encoded_takeConnection, henc]
  · rw [Attended, hhandle', hlive, htype]
    simp

theorem onPoolReady_throws {host : String} {e : Failure}
    (henc : (w.routers r).encoded cd host = .error e) (c : ConnId) :
    w.onPoolReady cd r c host = (.error e, w.takeConnection r c host) := by
  simp only [ShadowWriterImpl.onPoolReady, encoded_takeConnection, henc]

/-- A call the codec does not throw in: the router is done with, or waits for more with the
connection it had. -/
theorem ShadowRouterImpl.onUpstreamData_returned {s : ShadowRouterImpl σ} {data : Bytes}
    (hanswer : ∀ e, codecAnswer cd s.decoder.codec data ≠ .throws e) (hremoved : s.removed = false)
    (endStream : Bool) : ∃ s' rest, s.onUpstreamData cd data endStream = (.returned, s', rest) ∧
      (s'.removed = true ∧ s'.upstreamRequest.handle = false ∧ s'.upstreamRequest.conn = none ∨
        s'.removed = false ∧ s'.upstreamRequest = { s.upstreamRequest with responseStarted := true }) := by
  have hr := decodeResponse_decodes cd NullResponseDecoder.onMessageDecoded s.decoder () data
  have hreturned :
      (decodeResponse cd NullResponseDecoder.onMessageDecoded s.decoder () data).threw = false := by
    cases hread : codecAnswer cd s.decoder.codec data with
    | waits => exact hr.waits hread
    | message => exact null_returns hread
    | throws e => exact absurd hread (hanswer e)
  have hstatus := hr.returned hreturned
  cases hcomplete :
    (decodeResponse cd NullResponseDecoder.onMessageDecoded s.decoder () data).response.complete with
  | true =>
    rw [hcomplete, if_pos rfl] at hstatus
    refine ⟨_, _, by simp only [ShadowRouterImpl.onUpstreamData, hstatus]; rfl, .inl ?_⟩
    simp [cleanup, onResponseComplete, hremoved]
  | false =>
    rw [hcomplete, if_neg (by decide)] at hstatus
    refine ⟨_, _, by simp only [ShadowRouterImpl.onUpstreamData, hstatus]; rfl, ?_⟩
    cases endStream with
    | true =>
      left
      simp [cleanup, hremoved]
    | false =>
      right
      simp [hremoved]

theorem onUpstreamData_returns {data : Bytes}
    (hanswer : ∀ e, codecAnswer cd (w.routers r).router.decoder.codec data ≠ .throws e)
    (hremoved : (w.routers r).router.removed = false) (endStream : Bool) :
    Removes r w (w.onUpstreamData cd r data endStream) ∨
      Changes r w (w.onUpstreamData cd r data endStream) ∧
        ((w.onUpstreamData cd r data endStream).request r).handle = (w.request r).handle ∧
        (w.onUpstreamData cd r data endStream).live r = w.live r := by
  obtain ⟨s', rest, hcall, ⟨hdone, hhandle, hconn⟩ | ⟨hwaits, hrequest⟩⟩ :=
    ShadowRouterImpl.onUpstreamData_returned hanswer hremoved endStream
  · left
    simp only [ShadowWriterImpl.onUpstreamData, hcall, hdone, hremoved]
    exact .modify hhandle hconn
  · right
    simp only [ShadowWriterImpl.onUpstreamData, hcall, hwaits, Bool.false_and, Bool.false_eq_true, if_false]
    refine ⟨⟨.modify w r _, rfl, rfl, ?_, ?_⟩, ?_, ?_⟩
    · simp [hwaits, hremoved]
    · simp [hrequest]
    · simp [hrequest]
    · simp [ShadowWriterImpl.live, hrequest]

theorem onUpstreamData_throws {data : Bytes} {e : Failure}
    (hanswer : codecAnswer cd (w.routers r).router.decoder.codec data = .throws e)
    (endStream : Bool) : (w.onUpstreamData cd r data endStream).crashed = true := by
  have hr := (decodeResponse_decodes cd NullResponseDecoder.onMessageDecoded
    (w.routers r).router.decoder () data).throws e hanswer
  simp only [ShadowWriterImpl.onUpstreamData, ShadowRouterImpl.onUpstreamData, hr.2]
  cases e.isEnvoyException <;> rfl

/-! ## The list -/

theorem MirrorLedger.mem_of_attended (h : MirrorLedger w) (ha : Attended w r) : r ∈ w.activeRouters := by
  by_contra hr
  obtain ⟨hhandle, hconn⟩ := h.unlisted r hr
  exact not_attended hhandle hconn ha

theorem MirrorLedger.changes (h : MirrorLedger w) (hr : r ∈ w.activeRouters) (hc : Changes r w w')
    (hwaiting : (w'.request r).handle = true → (w'.routers r).listening = false) : MirrorLedger w' where
  nodup := hc.activeRouters ▸ h.nodup
  known := by
    rw [hc.activeRouters, hc.nextRouter]
    exact h.known
  listed := by
    intro i hi
    rw [hc.activeRouters] at hi
    by_cases hir : i = r
    · subst hir
      rw [hc.removed, hc.responseComplete, hc.removals]
      exact h.listed i hi
    · rw [hc.routers i hir, hc.request hir, hc.removals]
      exact h.listed i hi
  unlisted := by
    intro i hi
    rw [hc.activeRouters] at hi
    have hir : i ≠ r := fun h => hi (h ▸ hr)
    rw [hc.request hir]
    exact h.unlisted i hi
  waiting := by
    intro i
    by_cases hir : i = r
    · subst hir
      exact hwaiting
    · rw [hc.request hir, hc.routers i hir]
      exact h.waiting i
  fresh := by
    rw [hc.nextRouter, hc.removals]
    exact h.fresh

theorem MirrorsKept.changes (h : MirrorsKept w) (hc : Changes r w w') (ha : Attended w' r) :
    MirrorsKept w' where
  running := hc.crashed.trans h.running
  attended := by
    intro i hi
    by_cases hir : i = r
    · exact hir ▸ ha
    · exact hc.attended hir (h.attended i (hc.activeRouters ▸ hi))
  once := hc.removals ▸ h.once

theorem MirrorLedger.removes (h : MirrorLedger w) (hr : r ∈ w.activeRouters) (hc : Removes r w w') :
    MirrorLedger w' where
  nodup := hc.activeRouters ▸ h.nodup.erase r
  known := by
    intro i hi
    rw [hc.activeRouters] at hi
    rw [hc.nextRouter]
    exact h.known i (List.mem_of_mem_erase hi)
  listed := by
    intro i hi
    rw [hc.activeRouters, h.nodup.mem_erase_iff] at hi
    obtain ⟨hir, hi⟩ := hi
    rw [hc.routers i hir, hc.request hir, hc.removals, List.count_append, List.count_singleton]
    simpa [Ne.symm hir] using h.listed i hi
  unlisted := by
    intro i hi
    by_cases hir : i = r
    · subst hir
      exact ⟨hc.handle, hc.conn⟩
    · rw [hc.activeRouters, h.nodup.mem_erase_iff] at hi
      rw [hc.request hir]
      exact h.unlisted i fun hmem => hi ⟨hir, hmem⟩
  waiting := by
    intro i hhandle
    by_cases hir : i = r
    · subst hir
      rw [hc.handle] at hhandle
      cases hhandle
    · rw [hc.request hir] at hhandle
      rw [hc.routers i hir]
      exact h.waiting i hhandle
  fresh := by
    intro i hi
    rw [hc.nextRouter] at hi
    have hir : r ≠ i := (Nat.lt_of_lt_of_le (h.known r hr) hi).ne
    rw [hc.removals, List.count_append, h.fresh i hi]
    simp [hir]

theorem MirrorsKept.removes (h : MirrorsKept w) (hl : MirrorLedger w) (hr : r ∈ w.activeRouters)
    (hc : Removes r w w') : MirrorsKept w' where
  running := hc.crashed.trans h.running
  attended := by
    intro i hi
    rw [hc.activeRouters, hl.nodup.mem_erase_iff] at hi
    exact hc.attended hi.1 (h.attended i hi.2)
  once := by
    intro i
    rw [hc.removals, List.count_append]
    by_cases hir : i = r
    · subst hir
      simp [(hl.listed i hr).2.2]
    · simpa [Ne.symm hir] using h.once i

section Insert

variable {s : MirrorRouter σ α}

theorem routers_create_self (w : ShadowWriterImpl σ α) (s : MirrorRouter σ α) :
    (w.create s).routers w.nextRouter = s :=
  Function.update_self ..

theorem Changes.routers_create (hc : Changes w.nextRouter (w.create s) w') {i : Nat} (hi : i ≠ w.nextRouter) :
    w'.routers i = w.routers i :=
  (hc.routers i hi).trans (Function.update_of_ne hi ..)

theorem MirrorLedger.insert (h : MirrorLedger w) (hremoved : s.router.removed = false)
    (hcomplete : s.router.upstreamRequest.responseComplete = false)
    (hc : Changes w.nextRouter (w.create s) w')
    (hwaiting : (w'.request w.nextRouter).handle = true → (w'.routers w.nextRouter).listening = false) :
    MirrorLedger (w'.insert w.nextRouter) := by
  have hlist : (w'.insert w.nextRouter).activeRouters = w.nextRouter :: w.activeRouters :=
    congrArg _ hc.activeRouters
  have hnext : (w'.insert w.nextRouter).nextRouter = w.nextRouter + 1 := hc.nextRouter
  have hremovals : (w'.insert w.nextRouter).removals = w.removals := hc.removals
  have hold : ∀ i, i ≠ w.nextRouter → (w'.insert w.nextRouter).routers i = w.routers i :=
    fun i hi => hc.routers_create hi
  have hrequest : ∀ i, i ≠ w.nextRouter → (w'.insert w.nextRouter).request i = w.request i := fun i hi =>
    congrArg (·.router.upstreamRequest) (hold i hi)
  constructor
  case nodup =>
    rw [hlist]
    exact List.nodup_cons.2 ⟨fun hmem => (h.known _ hmem).false, h.nodup⟩
  case known =>
    intro i hi
    rw [hlist, List.mem_cons] at hi
    rw [hnext]
    rcases hi with rfl | hi
    · exact Nat.lt_succ_self _
    · exact Nat.lt_succ_of_lt (h.known i hi)
  case listed =>
    intro i hi
    rw [hremovals]
    by_cases hin : i = w.nextRouter
    · subst hin
      refine ⟨hc.removed.trans ?_, hc.responseComplete.trans ?_, h.fresh _ le_rfl⟩
      · rw [routers_create_self, hremoved]
      · rw [ShadowWriterImpl.request, routers_create_self, hcomplete]
    · rw [hold i hin, hrequest i hin]
      rw [hlist] at hi
      exact h.listed i (List.mem_of_ne_of_mem hin hi)
  case unlisted =>
    intro i hi
    rw [hlist, List.mem_cons, not_or] at hi
    rw [hrequest i hi.1]
    exact h.unlisted i hi.2
  case waiting =>
    intro i
    by_cases hin : i = w.nextRouter
    · subst hin
      exact hwaiting
    · rw [hold i hin, hrequest i hin]
      exact h.waiting i
  case fresh =>
    intro i hi
    rw [hnext] at hi
    rw [hremovals]
    exact h.fresh i (Nat.le_of_succ_le hi)

theorem MirrorsKept.insert (h : MirrorsKept w) (hl : MirrorLedger w)
    (hc : Changes w.nextRouter (w.create s) w')
    (ha : Attended w' w.nextRouter) : MirrorsKept (w'.insert w.nextRouter) where
  running := hc.crashed.trans h.running
  attended := by
    intro i hi
    have hlist : (w'.insert w.nextRouter).activeRouters = w.nextRouter :: w.activeRouters :=
      congrArg _ hc.activeRouters
    rw [hlist, List.mem_cons] at hi
    rcases hi with rfl | hi
    · exact ha
    · have hin : i ≠ w.nextRouter := (hl.known i hi).ne
      have hi := h.attended i hi
      simpa only [Attended, ShadowWriterImpl.live, ShadowWriterImpl.request,
        ShadowWriterImpl.insert, hc.routers_create hin] using hi
  once := by
    have hremovals : (w'.insert w.nextRouter).removals = w.removals := hc.removals
    exact hremovals ▸ h.once

end Insert

/-! ## The end of a thread -/

theorem exitRound_only (w : ShadowWriterImpl σ α) (r : Nat) : Only r w (w.exitRound r) :=
  (resetStream_only w r).trans ⟨fun _ _ => rfl, rfl, rfl⟩

theorem exitRound_removes (hlive : w.live r = false) : Removes r w (w.exitRound r) := by
  rw [ShadowWriterImpl.exitRound, resetStream_of_not_live hlive]
  exact .modify rfl rfl

theorem exitRound_count (w : ShadowWriterImpl σ α) (r i : Nat) :
    w.removals.count i ≤ (w.exitRound r).removals.count i := by
  have hreset : w.removals.count i ≤ (w.resetStream r).removals.count i := by
    unfold ShadowWriterImpl.resetStream
    split
    · have hkept := ((release_changes w r).trans (onUpstreamConnectionReset_changes _ r)).removals
      by_cases hremoved : (((w.release r).onUpstreamConnectionReset r).routers r).router.removed = true
      · rw [ShadowWriterImpl.onEvent, ShadowWriterImpl.cleanup, if_pos hremoved, hkept]
      · rw [ShadowWriterImpl.onEvent, (cleanup_removes (by simpa using hremoved)).removals, hkept,
          List.count_append]
        exact Nat.le_add_right ..
    · rw [(release_changes w r).removals]
  have hremove : (w.exitRound r).removals = (w.resetStream r).removals ++ [r] := rfl
  rw [hremove, List.count_append]
  exact Nat.le_add_right_of_le hreset

theorem Only.live (h : Only r w w') {i : Nat} (hi : i ≠ r) : w'.live i = w.live i := by
  rw [ShadowWriterImpl.live, h.request hi, h.routers i hi, ShadowWriterImpl.live]

theorem exit_kept {l : List Nat} (hlist : w.activeRouters = l) (hl : MirrorLedger w) (hk : MirrorsKept w)
    (hlive : ∀ r ∈ l, w.live r = false) :
    MirrorLedger (l.foldl ShadowWriterImpl.exitRound w) ∧
      MirrorsKept (l.foldl ShadowWriterImpl.exitRound w) := by
  induction l generalizing w with
  | nil => exact ⟨hl, hk⟩
  | cons r l ih =>
    have hr : r ∈ w.activeRouters := hlist ▸ List.mem_cons_self
    have hc := exitRound_removes (hlive r List.mem_cons_self)
    have hlist' : (w.exitRound r).activeRouters = l := by rw [hc.activeRouters, hlist, List.erase_cons_head]
    have hnot : r ∉ l := (List.nodup_cons.1 (hlist ▸ hl.nodup)).1
    refine ih hlist' (hl.removes hr hc) (hk.removes hl hr hc) fun i hi => ?_
    have hir : i ≠ r := fun h => hnot (h ▸ hi)
    rw [hc.live hir]
    exact hlive i (List.mem_cons_of_mem r hi)

theorem exit_twice {l : List Nat} (hr : r ∈ l) (hlive : w.live r = true)
    (hremoved : (w.routers r).router.removed = false) :
    2 ≤ (l.foldl ShadowWriterImpl.exitRound w).removals.count r := by
  have hgrows : ∀ (l : List Nat) (w : ShadowWriterImpl σ α),
      w.removals.count r ≤ (l.foldl ShadowWriterImpl.exitRound w).removals.count r := by
    intro l
    induction l with
    | nil => exact fun _ => le_rfl
    | cons i l ih => exact fun w => (exitRound_count w i r).trans (ih _)
  induction l generalizing w with
  | nil => cases hr
  | cons i l ih =>
    by_cases hir : r = i
    · subst hir
      have htwice : (w.exitRound r).removals = w.removals ++ [r] ++ [r] :=
        congrArg (· ++ [r]) (resetStream_of_live hlive hremoved).removals
      refine le_trans ?_ (hgrows l _)
      rw [htwice]
      simp
    · have hc := exitRound_only w i
      refine ih (List.mem_of_ne_of_mem hir hr) ?_ ?_
      · rw [hc.live hir, hlive]
      · rw [hc.routers r hir, hremoved]

/-! ## Every event -/

section Submit

variable {clusterName : String} {metadata : Metadata α} {mutation : Mutation} {garbage : Bool}
  {cluster : Option Cluster} {pool : PoolAnswer}

theorem submit_kept (hl : MirrorLedger w) (hk : MirrorsKept w)
    (hb : ¬ Breaks cd w (.submit clusterName metadata mutation garbage cluster pool)) :
    MirrorLedger (w.submit cd clusterName metadata mutation garbage cluster pool).2 ∧
      MirrorsKept (w.submit cd clusterName metadata mutation garbage cluster pool).2 := by
  unfold ShadowWriterImpl.submit
  cases hp : prepareUpstreamRequest clusterName cluster with
  | error e => exact ⟨hl, hk⟩
  | ok host =>
    have hself := routers_create_self w (.new cd metadata mutation garbage)
    cases pool with
    | pending =>
      have hc : Changes w.nextRouter (w.create (.new cd metadata mutation garbage)) _ :=
        .modifyRequest _ _ (f := fun u => { u with handle := true }) fun _ => rfl
      refine ⟨hl.insert rfl rfl hc fun _ => ?_, hk.insert hl hc (.inl ?_)⟩
      · rw [ShadowWriterImpl.listening_modifyRequest_self, hself]
        rfl
      · rw [ShadowWriterImpl.request_modifyRequest_self]
    | failure reason => exact absurd ⟨host, hp, trivial⟩ hb
    | ready c =>
      cases henc : (MirrorRouter.new cd metadata mutation garbage).encoded cd host with
      | error e =>
        simp only [onPoolReady_throws (hself.symm ▸ henc)]
        exact ⟨hl, hk⟩
      | ok bytes =>
        obtain ⟨w', hready, hc, hhandle, hattended⟩ :=
          onPoolReady_changes (hself.symm ▸ henc) (by rw [hself]; rfl) c
        have htype : metadata.messageType = .request := by
          by_contra htype
          exact hb ⟨host, hp, htype, bytes, henc⟩
        simp only [hready]
        refine ⟨hl.insert rfl rfl hc fun h => ?_, hk.insert hl hc (hattended.2 ?_)⟩
        · rw [hhandle] at h
          cases h
        · rw [hself]
          exact htype

theorem submit_broken (hb : Breaks cd w (.submit clusterName metadata mutation garbage cluster pool)) :
    ¬ MirrorsKept (w.submit cd clusterName metadata mutation garbage cluster pool).2 := by
  obtain ⟨host, hp, hpool⟩ := hb
  have hself := routers_create_self w (.new cd metadata mutation garbage)
  unfold ShadowWriterImpl.submit
  rw [hp]
  intro hk
  have ha := hk.attended w.nextRouter
  cases pool with
  | pending => exact hpool
  | failure reason =>
    refine (onPoolFailure_changes ?_ host).2 (ha List.mem_cons_self)
    rw [ShadowWriterImpl.request, hself]
    rfl
  | ready c =>
    obtain ⟨htype, bytes, henc⟩ := hpool
    obtain ⟨w', hready, hc, hhandle, hattended⟩ :=
      onPoolReady_changes (hself.symm ▸ henc) (by rw [hself]; rfl) c
    simp only [hready] at ha
    have hrequest := hattended.1 (ha List.mem_cons_self)
    rw [hself] at hrequest
    exact htype hrequest

end Submit

theorem mirrorStep_kept {e : MirrorEvent α} (hl : MirrorLedger w) (hk : MirrorsKept w)
    (hen : MirrorEnabled w e) (hb : ¬ Breaks cd w e) :
    MirrorLedger (mirrorStep cd w e) ∧ MirrorsKept (mirrorStep cd w e) := by
  obtain ⟨-, -, hen⟩ := hen
  cases e with
  | submit clusterName metadata mutation garbage cluster pool => exact submit_kept hl hk hb
  | poolReady r c host =>
    have hr := hl.mem_of_attended (.inl hen)
    simp only [Breaks, not_or, not_exists, ne_eq, not_not] at hb
    obtain ⟨htype, hencodes⟩ := hb
    cases henc : (w.routers r).encoded cd host with
    | error e => exact absurd henc (hencodes e)
    | ok bytes =>
      obtain ⟨w', hready, hc, hhandle, hattended⟩ := onPoolReady_changes henc (hl.waiting r hen) c
      simp only [mirrorStep, hready]
      refine ⟨hl.changes hr hc fun h => ?_, hk.changes hc (hattended.2 htype)⟩
      rw [hhandle] at h
      cases h
  | poolFailure r reason host => exact absurd trivial hb
  | upstreamData r data endStream =>
    have hr := hl.mem_of_attended (.inr hen)
    have hlistening : (w.routers r).listening = true := (Bool.and_eq_true_iff.1 hen).2
    rcases onUpstreamData_returns (fun e he => hb ⟨e, he⟩) (hl.listed r hr).1
      endStream with hc | ⟨hc, hhandle, hlive⟩
    · exact ⟨hl.removes hr hc, hk.removes hl hr hc⟩
    · refine ⟨hl.changes hr hc fun h => ?_, hk.changes hc (.inr (hlive.trans hen))⟩
      -- a router that listens is not waiting for a connection
      rw [hl.waiting r (hhandle.symm.trans h)] at hlistening
      cases hlistening
  | upstreamEvent r event =>
    have hr := hl.mem_of_attended (.inr hen)
    have hc := onEvent_removes (hl.listed r hr).1
    exact ⟨hl.removes hr hc, hk.removes hl hr hc⟩
  | threadExit =>
    have hquiet : ∀ r ∈ w.activeRouters, w.live r = false :=
      fun r hr => Bool.eq_false_iff.2 fun h => hb ⟨r, hr, h⟩
    obtain ⟨hl', hk'⟩ := exit_kept rfl hl hk hquiet
    exact ⟨⟨hl'.nodup, hl'.known, hl'.listed, hl'.unlisted, hl'.waiting, hl'.fresh⟩,
      ⟨hk'.running, hk'.attended, hk'.once⟩⟩

theorem mirrorStep_broken {e : MirrorEvent α} (hl : MirrorLedger w) (hen : MirrorEnabled w e)
    (hb : Breaks cd w e) : ¬ MirrorsKept (mirrorStep cd w e) := by
  obtain ⟨-, -, hen⟩ := hen
  intro hk
  cases e with
  | submit clusterName metadata mutation garbage cluster pool => exact submit_broken hb hk
  | poolReady r c host =>
    have hr := hl.mem_of_attended (.inl hen)
    cases henc : (w.routers r).encoded cd host with
    | error e =>
      have hrunning := hk.running
      simp only [mirrorStep, onPoolReady_throws henc] at hrunning
      cases hrunning
    | ok bytes =>
      obtain ⟨w', hready, hc, hhandle, hattended⟩ := onPoolReady_changes henc (hl.waiting r hen) c
      have htype : (w.routers r).metadata.messageType ≠ .request := by
        rcases hb with htype | ⟨e, he⟩
        · exact htype
        · rw [henc] at he
          cases he
      simp only [mirrorStep, hready] at hk
      exact htype (hattended.1 (hk.attended r (hc.activeRouters ▸ hr)))
  | poolFailure r reason host =>
    have hr := hl.mem_of_attended (.inl hen)
    obtain ⟨hc, hnot⟩ := onPoolFailure_changes (hl.listed r hr).2.1 host
    exact hnot (hk.attended r (hc.activeRouters ▸ hr))
  | upstreamData r data endStream =>
    obtain ⟨e, he⟩ := hb
    have hcrashed : (mirrorStep cd w (.upstreamData r data endStream)).crashed = true :=
      onUpstreamData_throws he endStream
    rw [hk.running] at hcrashed
    cases hcrashed
  | upstreamEvent r event => exact hb
  | threadExit =>
    obtain ⟨r, hr, hlive⟩ := hb
    have htwice := exit_twice hr hlive (hl.listed r hr).1
    have honce := hk.once r
    exact absurd (htwice.trans honce) (by decide)

theorem MirrorLedger.new (cd : Codec σ α) : MirrorLedger (.new cd) where
  nodup := .nil
  known _ h := by cases h
  listed _ h := by cases h
  unlisted _ _ := ⟨rfl, rfl⟩
  waiting _ h := by cases h
  fresh _ _ := rfl

theorem MirrorsKept.new (cd : Codec σ α) : MirrorsKept (.new cd) where
  running := rfl
  attended _ h := by cases h
  once _ := Nat.zero_le 1

/-- In every run the routers on the list have a request pending or a connection they listen to, and
leave it once at most, exactly if none of its events breaks the list. -/
theorem mirrors_kept_iff (cd : Codec σ α) (es : List (MirrorEvent α))
    (hrun : Runs.Guarded (mirrorStep cd) MirrorEnabled (.new cd) es) :
    (∀ n, MirrorsKept (Runs.run (mirrorStep cd) (.new cd) (es.take n))) ↔
      Runs.Guarded (mirrorStep cd) (fun w e => ¬ Breaks cd w e) (.new cd) es := by
  refine Runs.Guarded.always_iff (J := MirrorLedger) ?_ ?_ (.new cd) (.new cd) hrun
  · intro w e hl hk hen
    constructor
    · intro hk' hb
      exact mirrorStep_broken hl hen hb hk'
    · intro hb
      exact (mirrorStep_kept hl hk hen hb).2
  · intro w e hl hk hen hk'
    exact (mirrorStep_kept hl hk hen fun hb => mirrorStep_broken hl hen hb hk').1

def mirrorCodec : Codec Trpc.TrpcCodec Unit := Trpc.trpcCodec Unit Trpc.wireProtobuf

def mirrored (pool : PoolAnswer) : MirrorEvent Unit :=
  .submit "mirror" { messageType := .request } [] false (some { host := some "h" }) pool

/-- A mirror that gets its connection, and whose server closes it. -/
theorem mirrors_kept_until_close :
    let es := [mirrored .pending, .poolReady 0 1 "h", .upstreamEvent 0 .remoteClose]
    Runs.Guarded (mirrorStep mirrorCodec) MirrorEnabled (.new mirrorCodec) es ∧
      (Runs.run (mirrorStep mirrorCodec) (.new mirrorCodec) es).removals = [0] ∧
      ∀ n, MirrorsKept (Runs.run (mirrorStep mirrorCodec) (.new mirrorCodec) (es.take n)) := by
  intro es
  have hrun : Runs.Guarded (mirrorStep mirrorCodec) MirrorEnabled (.new mirrorCodec) es :=
    ⟨⟨rfl, rfl, trivial⟩, ⟨rfl, rfl, rfl⟩, ⟨rfl, rfl, rfl⟩, trivial⟩
  refine ⟨hrun, rfl, (mirrors_kept_iff mirrorCodec es hrun).2 ⟨?_, ?_, fun h => h, trivial⟩⟩
  · rintro ⟨host, -, h⟩
    exact h
  · rintro (h | ⟨e, h⟩)
    · exact h rfl
    · cases h

/-- A router whose connection is refused, at once or later, stays on the list without a request or a
connection; and one that is connected when its thread ends is removed twice. -/
theorem refused_mirror_stays :
    (let es := [mirrored (.failure .overflow)]
     let w := Runs.run (mirrorStep mirrorCodec) (.new mirrorCodec) es
     Runs.Guarded (mirrorStep mirrorCodec) MirrorEnabled (.new mirrorCodec) es ∧
       w.activeRouters = [0] ∧ (w.request 0).handle = false ∧ (w.request 0).conn = none ∧ ¬ MirrorsKept w) ∧
    (let es := [mirrored .pending, .poolFailure 0 .timeout "h"]
     let w := Runs.run (mirrorStep mirrorCodec) (.new mirrorCodec) es
     Runs.Guarded (mirrorStep mirrorCodec) MirrorEnabled (.new mirrorCodec) es ∧
       w.activeRouters = [0] ∧ (w.request 0).handle = false ∧ (w.request 0).conn = none ∧ ¬ MirrorsKept w) ∧
    (let es := [mirrored (.ready 1), .threadExit]
     let w := Runs.run (mirrorStep mirrorCodec) (.new mirrorCodec) es
     Runs.Guarded (mirrorStep mirrorCodec) MirrorEnabled (.new mirrorCodec) es ∧
         w.removals = [0, 0] ∧ ¬ MirrorsKept w) := by
  refine ⟨?_, ?_, ?_⟩
  · refine ⟨⟨⟨rfl, rfl, trivial⟩, trivial⟩, rfl, rfl, rfl, fun h => ?_⟩
    exact not_attended rfl rfl (h.attended 0 (List.mem_singleton.2 rfl))
  · refine ⟨⟨⟨rfl, rfl, trivial⟩, ⟨rfl, rfl, rfl⟩, trivial⟩, rfl, rfl, rfl, fun h => ?_⟩
    exact not_attended rfl rfl (h.attended 0 (List.mem_singleton.2 rfl))
  · refine ⟨⟨⟨rfl, rfl, trivial⟩, ⟨rfl, rfl, trivial⟩, trivial⟩, rfl, fun h => ?_⟩
    exact absurd (h.once 0) (by decide)

end MetaProtocolProxy
