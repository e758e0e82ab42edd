import MetaProtocolProxy.Proxy.Router
/-
# Upstream handlers (upstream_handler_impl.cc, upstream_response.h, upstream_response.cc)

In multiplexing mode the requests of a downstream connection to one upstream host share one
connection, held by an `UpstreamHandlerImpl`. Requests that come before the pool has answered wait
in `upstream_request_callbacks_`; the callback that ends a request waits in `response_callbacks_`
under the request's id.

`UpstreamHandlerResponseDecoder::complete_` has no initialiser: the value a fresh one starts with
is an argument of `handlerUpstreamData`.
-/
namespace MetaProtocolProxy

variable {σ α : Type} (cfg : Config σ α) (cm : ConnectionManager σ α) (h : HandlerId)

/-- `UpstreamRequestByHandler::encodeData` over `UpstreamHandlerImpl::onData`
(upstream_request.cc:286-291, upstream_handler_impl.cc:81-87). -/
def encodeDataByHandler (m : MsgId) : Except Failure Unit × ConnectionManager σ α :=
  match (cm.messages m).upstreamRequest with
  | none => (.error (.nullDereference "upstream_request_"), cm)
  | some ur =>
    match cfg.codec.encode (cm.messages m).metadata (cm.messages m).mutation ur.buffer with
    | .error e => (.error e, cm)
    | .ok bytes =>
      match (cm.handlers h).conn with
      | none => (.error (.nullDereference "conn_data_"), cm)
      | some c =>
        (.ok (), (cm.modifyRequest m fun ur => { ur with buffer := [] }).emit (.upstreamWrite c m bytes))

/-- `UpstreamRequestByHandler::onPoolReady` (upstream_request.cc:260-270); an exception ends the
process. -/
def onPoolReadyByHandler (host : String) (m : MsgId) : ConnectionManager σ α :=
  let cm := continueDecoding (cm.modifyRequest m fun ur => { ur with host := host }) m
  match encodeDataByHandler cfg cm h m with
  | (.error _, cm) => cm.crash
  | (.ok _, cm) => cm.modifyRequest m fun ur => { ur with requestComplete := true }

/-- `UpstreamHandlerImpl::onPoolFailure` (upstream_handler_impl.cc:46-61). -/
def handlerPoolFailure (reason : PoolFailureReason) (host : String) : ConnectionManager σ α :=
  let hd := cm.handlers h
  let cm := (cm.modifyHandler h fun hd => { hd with upstreamHandle := false }).delHandler hd.key
  let cm := hd.upstreamRequestCallbacks.foldl (fun cm m => onPoolFailure cfg cm m reason host) cm
  cm.modifyHandler h fun hd => { hd with upstreamRequestCallbacks := [] }

/-- `UpstreamHandlerImpl::onPoolReady` (upstream_handler_impl.cc:63-79). -/
def handlerPoolReady (c : ConnId) (host : String) : ConnectionManager σ α :=
  let hd := cm.handlers h
  let cm := cm.modifyHandler h fun hd =>
    { hd with conn := some c, upstreamHandle := false, poolReady := true }
  let cm := hd.upstreamRequestCallbacks.foldl
    (fun cm m => if cm.crashed then cm else onPoolReadyByHandler cfg cm h host m) cm
  cm.modifyHandler h fun hd => { hd with upstreamRequestCallbacks := [] }

/-- What the pool does with `newConnection`: it returns a handle, or calls back before it returns
null. -/
inductive PoolAnswer
  | pending
  | ready (c : ConnId)
  | failure (reason : PoolFailureReason)
  deriving DecidableEq, Repr

/-- `UpstreamHandlerImpl::start` (upstream_handler_impl.cc:36-44). -/
def handlerStart (host : String) (pool : PoolAnswer) : ConnectionManager σ α :=
  let cm := cm.modifyHandler h fun hd => { hd with poolReady := false }
  match pool with
  | .pending => cm.modifyHandler h fun hd => { hd with upstreamHandle := true }
  | .ready c => handlerPoolReady cfg cm h c host
  | .failure reason => handlerPoolFailure cfg cm h reason host

/-- `UpstreamHandlerImpl::addResponseCallback` (upstream_handler_impl.cc:89-97): an id that is
already there keeps its callback. -/
def addResponseCallback (requestId : Nat) (m : MsgId) : ConnectionManager σ α :=
  cm.modifyHandler h fun hd =>
    if (hd.responseCallbacks.lookup requestId).isSome then hd
    else { hd with responseCallbacks := (requestId, m) :: hd.responseCallbacks }

/-- `UpstreamHandlerImpl::onClose` (upstream_handler_impl.cc:17-34). -/
def handlerClose : ConnectionManager σ α :=
  let key := (cm.handlers h).key
  (cm.delHandler key).modifyHandler h fun hd =>
    { hd with poolReady := false, upstreamHandle := false, conn := none }

/-- `Router::onUpstreamResponseCallback` (router_impl.cc:263-267), called through the pointer the
callback captured. -/
def onUpstreamResponseCallback (m : MsgId) : ConnectionManager σ α :=
  if cm.destroyed m then cm.crash
  else match (cm.messages m).upstreamRequest with
    | none => cm.crash
    | some _ => (cleanUpstreamRequest (onResponseComplete cm m) m).deferredDeleteMessage m

/-- `UpstreamHandlerImpl::onMessageDecoded` (upstream_handler_impl.cc:159-181). -/
def handlerMessageDecoded (md : Metadata α) : ConnectionManager σ α :=
  let cm := cm.emit (.handlerResponse h md)
  match (cm.handlers h).responseCallbacks.lookup md.requestId with
  | none => cm
  | some m =>
    let cm := onUpstreamResponseCallback (cm.emit (.callback h md.requestId m)) m
    cm.modifyHandler h fun hd =>
      { hd with responseCallbacks := hd.responseCallbacks.filter fun e => e.1 != md.requestId }

/-- `UpstreamHandlerResponseDecoder::onMessageDecoded` (upstream_response.cc:12-24). -/
def handlerResponseDecoded (md : Metadata α) (mutation : Mutation) :
    Except Failure Unit × ConnectionManager σ α :=
  let cm := cm.modifyHandler h fun hd =>
    { hd with upstreamResponse := hd.upstreamResponse.map fun r => { r with complete := true } }
  match cfg.codec.encode md mutation md.originMessage with
  | .error e => (.error e, cm)
  | .ok bytes => (.ok (), handlerMessageDecoded cm h { md with originMessage := bytes })

def handlerDelegate : Delegate (ConnectionManager σ α) α where
  onHeartbeat _ cm := (.ok true, cm)
  newStream md mutation cm := handlerResponseDecoded cfg cm h md mutation

/-- `UpstreamHandlerImpl::onUpstreamData` over `UpstreamHandlerResponseDecoder::decode`
(upstream_handler_impl.cc:111-140, upstream_response.h:24-44); also the bytes left unread. -/
def handlerUpstreamData (data : Bytes) (garbage : Bool) : ConnectionManager σ α × Bytes :=
  let response := ((cm.handlers h).upstreamResponse).getD { codec := cfg.codec.init, complete := garbage }
  let cm := cm.modifyHandler h fun hd => { hd with upstreamResponse := some response }
  let r := response.decoder.onData cfg.codec .response (handlerDelegate cfg h) response.codec cm data
  let cm := r.world.modifyHandler h fun hd =>
    { hd with
      upstreamResponse := hd.upstreamResponse.map fun u =>
        { u with codec := r.codec, decoder := r.decoder } }
  let drop := fun (cm : ConnectionManager σ α) => cm.modifyHandler h fun hd =>
    { hd with upstreamResponse := none }
  match r.result with
  | .ok _ =>
    -- `complete_ ? Complete : MoreData`
    if ((cm.handlers h).upstreamResponse.map (·.complete)).getD false then (drop cm, r.buffer)
      else (cm, r.buffer)
  | .error e => if e.isEnvoyException then (drop cm, r.buffer) else (cm.crash, r.buffer)

variable {cm}

/-- All that bytes do: the decoder is changed, responses are handled, or the process ends. -/
theorem handlerUpstreamData_preserves {P : ConnectionManager σ α → Prop}
    (hdecoder : ∀ (cm) (f : Option (UpstreamResponse σ) → Option (UpstreamResponse σ)), P cm →
      P (cm.modifyHandler h fun hd => { hd with upstreamResponse := f hd.upstreamResponse }))
    (hmessage : ∀ cm md, P cm → P (handlerMessageDecoded cm h md)) (hcrash :
      ∀ cm, P cm → P cm.crash) (hcm : P cm)
    (data : Bytes) (garbage : Bool) : P (handlerUpstreamData cfg cm h data garbage).1 := by
  simp only [handlerUpstreamData]
  generalize ((cm.handlers h).upstreamResponse).getD
    { codec := cfg.codec.init, complete := garbage } = response
  have hset := hdecoder cm (fun _ => some response) hcm
  have hrun : P (response.decoder.onData cfg.codec .response (handlerDelegate cfg h) response.codec
      (cm.modifyHandler h fun hd => { hd with upstreamResponse := some response }) data).world := by
    refine DecoderBase.onData_world hset (fun _ => hset) fun md => ?_
    have hflag := hdecoder _ (Option.map fun r => { r with complete := true }) hset
    simp only [handlerDelegate, handlerResponseDecoded]
    cases cfg.codec.encode md [] md.originMessage with
    | error e => exact hflag
    | ok bytes => exact hmessage _ _ hflag
  generalize response.decoder.onData _ _ _ _ _ data = r at hrun ⊢
  have hstored :=
    hdecoder r.world (Option.map fun u => { u with codec := r.codec, decoder := r.decoder }) hrun
  split
  · split
    · exact hdecoder _ (fun _ => none) hstored
    · exact hstored
  · split
    · exact hdecoder _ (fun _ => none) hstored
    · exact hcrash _ hstored

end MetaProtocolProxy
