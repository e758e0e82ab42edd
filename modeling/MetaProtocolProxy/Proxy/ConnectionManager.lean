import MetaProtocolProxy.Proxy.UpstreamHandler
/-
# The connection manager as a state machine (conn_manager.cc, active_message.cc, router_impl.cc)

One `step` per event of the environment: a decoded downstream message, an answer of the connection
pool, bytes or a close event of an upstream connection, the end of the downstream connection, and
the deletion of a message the dispatcher had deferred. The answers of the other filters, of the
route table, of the cluster manager and of the pool are part of the events.
-/
namespace MetaProtocolProxy

variable {σ α : Type} (cfg : Config σ α)

/-- A matched route entry: its cluster, and what it, the tracing and the request id extension set
in the mutation. -/
structure RouteEntry where
  clusterName : String
  requestMutation : Mutation := []
  deriving DecidableEq, Repr

/-- A cluster: its maintenance mode, and the host its connection pool is for, if any is healthy. -/
structure Cluster where
  maintenanceMode : Bool := false
  host : Option String := none
  deriving DecidableEq, Repr

structure RouterEnv where
  route : Option RouteEntry := none
  cluster : Option Cluster := none
  pool : PoolAnswer := .pending
  deriving DecidableEq, Repr

/-- What a decoder filter before the router answers. -/
structure DecoderVerdict where
  status : FilterStatus := .continueIteration
  localReply : Option Error := none
  mutation : Mutation := []
  deriving DecidableEq, Repr

def unknownCluster (name : String) : Error :=
  ⟨.clusterNotFound, "meta protocol router: unknown cluster '" ++ name ++ "'"⟩

def noHealthyUpstream (name : String) : Error :=
  ⟨.noHealthyUpstream, "meta protocol router: no healthy upstream for '" ++ name ++ "'"⟩

/-- `prepareUpstreamRequest` (router.h:45-80): the host to connect to. -/
def prepareUpstreamRequest (clusterName : String) (cluster : Option Cluster) : Except Error String :=
  match cluster with
  | none => .error (unknownCluster clusterName)
  | some c =>
    if c.maintenanceMode then
      .error ⟨.unspecified, "meta protocol router: maintenance mode for cluster '" ++ clusterName ++ "'"⟩
    else match c.host with
      | none => .error (noHealthyUpstream clusterName)
      | some host => .ok host

variable (cm : ConnectionManager σ α)

/-- `ConnectionManager::getUpstreamHandler` (conn_manager.cc:242-283): the handler of the host,
created, registered and started if there is none. The maintenance mode is not looked at. -/
def getUpstreamHandler (clusterName : String) (env : RouterEnv) :
    Except Error (HandlerId × ConnectionManager σ α) :=
  match env.cluster with
  | none => .error (unknownCluster clusterName)
  | some c =>
    match c.host with
    | none => .error (noHealthyUpstream clusterName)
    | some host =>
      let key := clusterName ++ "_" ++ host
      match cm.handlerManager.lookup key with
      | some h => .ok (h, cm)
      | none =>
        let h := cm.nextHandler
        let cm := { cm with
          nextHandler := h + 1
          handlers := Function.update cm.handlers h { key := key }
          handlerManager := (key, h) :: cm.handlerManager }
        .ok (h, handlerStart cfg cm h host env.pool)

/-- The constructor of `UpstreamRequestBase`: it takes the original message. -/
def newUpstreamRequest (m : MsgId) (handler : Option HandlerId) :
    ConnectionManager σ α :=
  cm.modify m fun a =>
    { a with
      upstreamRequest := some { handler := handler, buffer := a.metadata.originMessage }
      metadata := { a.metadata with originMessage := [] } }

/-- `UpstreamRequest::start` (upstream_request.cc:25-34). -/
def startRequest (m : MsgId) (host : String) (pool : PoolAnswer) :
    Except Failure FilterStatus × ConnectionManager σ α :=
  match pool with
  | .pending => (.ok .pauseIteration, cm.modifyRequest m fun ur => { ur with handle := true })
  | .failure reason => (.ok .continueIteration, onPoolFailure cfg cm m reason host)
  | .ready c =>
    match onPoolReady cfg cm m c host with
    | (.error e, cm) => (.error e, cm)
    | (.ok _, cm) => (.ok .continueIteration, cm)

/-- `UpstreamRequestByHandler::start` (upstream_request.cc:272-280). -/
def startRequestByHandler (m : MsgId) (h : HandlerId) :
    Except Failure FilterStatus × ConnectionManager σ α :=
  if (cm.handlers h).poolReady then
    match encodeDataByHandler cfg cm h m with
    | (.error e, cm) => (.error e, cm)
    | (.ok _, cm) => (.ok .continueIteration, cm)
  else
    (.ok .pauseIteration,
      cm.modifyHandler h fun hd => { hd with upstreamRequestCallbacks := hd.upstreamRequestCallbacks ++ [m] })

/-- `Router::onMessageDecoded` from the handler on (router_impl.cc:84-109). -/
def startOnHandler (h : HandlerId) (cm : ConnectionManager σ α) (m : MsgId) :
    Except Failure FilterStatus × ConnectionManager σ α :=
  let cm := addResponseCallback cm h (cm.messages m).metadata.requestId m
  startRequestByHandler cfg (newUpstreamRequest cm m (some h)) m h

def noMatchedRoute (requestId : Nat) : Error :=
  ⟨.routeNotFound, "meta protocol router: no matched route for request '" ++ toString requestId ++ "'"⟩

/-- `Router::onMessageDecoded` (router_impl.cc:34-127). -/
def routerDecoded (m : MsgId) (env : RouterEnv) :
    Except Failure FilterStatus × ConnectionManager σ α :=
  match env.route with
  | none =>
    (.ok .abortIteration, sendLocalReply cfg cm m (noMatchedRoute (cm.messages m).metadata.requestId))
  | some entry =>
    let cm := cm.modify m fun a => { a with mutation := a.mutation.set entry.requestMutation }
    if cfg.multiplexing then
      match getUpstreamHandler cfg cm entry.clusterName env with
      | .error e => (.ok .abortIteration, sendLocalReply cfg cm m e)
      | .ok (h, cm) => startOnHandler cfg h cm m
    else
      match prepareUpstreamRequest entry.clusterName env.cluster with
      | .error e => (.ok .abortIteration, sendLocalReply cfg cm m e)
      | .ok host => startRequest cfg (newUpstreamRequest cm m none) m host env.pool

/-- The loop of `ActiveMessage::applyDecoderFilters` (active_message.cc:494-520); the router is the
last filter. -/
def decoderFilterLoop (cm : ConnectionManager σ α) (m : MsgId) (env : RouterEnv) :
    List DecoderVerdict → Except Failure FilterStatus × ConnectionManager σ α
  | [] =>
    match routerDecoded cfg cm m env with
    | (.error e, cm) => (.error e, cm)
    | (.ok status, cm) =>
      if (cm.messages m).localResponseSent then (.ok .continueIteration, cm) else (.ok status, cm)
  | v :: vs =>
    let cm := cm.modify m fun a => { a with mutation := a.mutation.set v.mutation }
    let cm := match v.localReply with
      | none => cm
      | some e => sendLocalReply cfg cm m e
    if (cm.messages m).localResponseSent then (.ok .continueIteration, cm)
    else if v.status = .continueIteration then decoderFilterLoop cm m env vs
    else (.ok v.status, cm)

/-- `ActiveMessage::applyDecoderFilters`. -/
def applyDecoderFilters (m : MsgId) (filters : List DecoderVerdict)
    (env : RouterEnv) : Except Failure FilterStatus × ConnectionManager σ α :=
  if (cm.messages m).localResponseSent then (.ok .continueIteration, cm) else decoderFilterLoop cfg
    cm m env filters

/-- What `ActiveMessage::onMessageDecoded` does with the filters' answer
(active_message.cc:380-399). -/
def afterDecoderFilters (m : MsgId) : FilterStatus → ConnectionManager σ α
  | .pauseIteration => cm.modify m fun a => { a with pendingStreamDecoded := true }
  | .abortIteration => cm.deferredDeleteMessage m
  | .continueIteration => maybeDeferredDeleteMessage cm m
  | .retry => cm.crash

/-- A connection held by a stream goes back to the pool with the stream. -/
def releaseStream (st : Stream) : ConnectionManager σ α :=
  match st.upstreamConn with
  | none => cm
  | some c => cm.emit (.released c)

/-- `ConnectionManager::newActiveStream` (conn_manager.cc:171-176); a stream of the same id is
replaced. -/
def newActiveStream (streamId : Nat) : ConnectionManager σ α :=
  let cm := match cm.getActiveStream streamId with
    | none => cm
    | some st => releaseStream cm st
  cm.setStream streamId {}

/-- `ConnectionManager::clearStream`. -/
def clearStream : ConnectionManager σ α :=
  { cm.activeStreamMap.foldl (fun cm e => releaseStream cm e.2) cm with activeStreamMap := [] }

/-- A message of an existing stream (active_message.cc:318-368): the sides it closes are marked,
then the stream sends it to its upstream connection, if it has one. -/
def forwardToStream (m : MsgId) (closesClient closesServer : Bool) :
    ConnectionManager σ α :=
  let md := (cm.messages m).metadata
  match cm.getActiveStream md.streamId with
  | none => cm
  | some st =>
    let st := { st with
      clientClosed := st.clientClosed || closesClient
      serverClosed := st.serverClosed || closesServer }
    let cm := cm.setStream md.streamId st
    match st.send2upstream with
    | none => cm
    | some c =>
      (cm.emit (.upstreamWrite c m md.originMessage)).modify m fun a =>
        { a with metadata := { a.metadata with originMessage := [] } }

/-- `newMessageHandler`: a fresh `ActiveMessage` at the front of the list. -/
def newMessage (md : Metadata α) (encoders : List EncoderVerdict) :
    ConnectionManager σ α :=
  { cm with
    nextMessage := cm.nextMessage + 1
    activeMessageList := cm.nextMessage :: cm.activeMessageList
    messages := Function.update cm.messages cm.nextMessage { metadata := md, encoderFilters := encoders } }

/-- `ActiveMessage::onMessageDecoded` on a fresh message (active_message.cc:296-409). -/
def onMessageDecoded (md : Metadata α) (encoders : List EncoderVerdict)
    (filters : List DecoderVerdict) (env : RouterEnv) : Except Failure Unit × ConnectionManager σ α :=
  let m := cm.nextMessage
  let cm := newMessage cm (md.putString applicationProtocol cfg.applicationProtocol) encoders
  let applyFilters := fun (cm : ConnectionManager σ α) =>
    match applyDecoderFilters cfg cm m filters env with
    | (.error e, cm) => (.error e, cm)
    | (.ok status, cm) => (.ok (), afterDecoderFilters cm m status)
  match md.messageType with
  | .request => applyFilters cm
  | .streamInit => applyFilters (newActiveStream cm md.streamId)
  | .streamData => (.ok (), maybeDeferredDeleteMessage (forwardToStream cm m false false) m)
  | .streamCloseOneWay => (.ok (), maybeDeferredDeleteMessage (forwardToStream cm m true false) m)
  | .streamCloseTwoWay => (.ok (), maybeDeferredDeleteMessage (forwardToStream cm m true true) m)
  | _ => (.ok (), maybeDeferredDeleteMessage cm m)

/-- `ConnectionManager::onEvent` for a close event (conn_manager.cc:55-66). -/
def onDownstreamClose : ConnectionManager σ α :=
  { cm.resetAllMessages with connectionOpen := false, handlerManager := [] }

inductive Event (α : Type)
  /-- A message decoded from the downstream connection. -/
  | decoded (md : Metadata α) (encoders : List EncoderVerdict) (filters :
      List DecoderVerdict) (env : RouterEnv)
  /-- A paused filter resumes; the answers of the filters from it on. -/
  | continueDecoding (m : MsgId) (filters : List DecoderVerdict) (env : RouterEnv)
  | poolReady (m : MsgId) (c : ConnId) (host : String)
  | poolFailure (m : MsgId) (reason : PoolFailureReason) (host : String)
  | upstreamData (m : MsgId) (data : Bytes) (endStream : Bool)
  | upstreamEvent (m : MsgId) (event : ConnectionEvent)
  | handlerPoolReady (h : HandlerId) (c : ConnId) (host : String)
  | handlerPoolFailure (h : HandlerId) (reason : PoolFailureReason) (host : String)
  | handlerData (h : HandlerId) (data : Bytes) (garbage : Bool)
  | handlerEvent (h : HandlerId) (event : ConnectionEvent)
  /-- The downstream connection is closed. -/
  | downstreamEvent (event : ConnectionEvent)
  /-- The end of the downstream's data (conn_manager.cc:33-41). -/
  | downstreamEnd
  | idleTimeout
  /-- The dispatcher deletes a message. -/
  | destroy (m : MsgId)

/-- `dispatch`'s `catch` clause: the connection is closed, which resets every message. -/
def dispatchFailed (e : Failure) : ConnectionManager σ α :=
  if e.isEnvoyException then onDownstreamClose cm else cm.crash

/-- A filter's `continueDecoding` (active_message.cc:151-173). -/
def resumeFilters (m : MsgId) (filters : List DecoderVerdict) (env : RouterEnv) :
    ConnectionManager σ α :=
  match applyDecoderFilters cfg cm m filters env with
  | (.error _, cm) => cm.crash
  | (.ok status, cm) => if status = .continueIteration then continueDecoding cm m else cm

def upstreamClosed (m : MsgId) (event : ConnectionEvent) :
    ConnectionManager σ α :=
  match (cm.messages m).upstreamRequest.bind (·.conn) with
  | none => cm
  | some c => onConnectionEvent cfg (cm.emit (.upstreamClosed c)) m event

def step : Event α → ConnectionManager σ α
  | .decoded md encoders filters env =>
    match onMessageDecoded cfg cm md encoders filters env with
    | (.error e, cm) => dispatchFailed cm e
    | (.ok _, cm) => cm
  | .continueDecoding m filters env => resumeFilters cfg cm m filters env
  | .poolReady m c host =>
    match onPoolReady cfg cm m c host with
    | (.error _, cm) => cm.crash
    | (.ok _, cm) => cm
  | .poolFailure m reason host => onPoolFailure cfg cm m reason host
  | .upstreamData m data endStream => (onUpstreamData cfg cm m data endStream).1
  | .upstreamEvent m event => upstreamClosed cfg cm m event
  | .handlerPoolReady h c host => handlerPoolReady cfg cm h c host
  | .handlerPoolFailure h reason host => handlerPoolFailure cfg cm h reason host
  | .handlerData h data garbage => (handlerUpstreamData cfg cm h data garbage).1
  | .handlerEvent h _ => handlerClose cm h
  | .downstreamEvent _ => onDownstreamClose cm
  | .downstreamEnd => { clearStream cm.resetAllMessages with connectionOpen := false }
  | .idleTimeout => onDownstreamClose (clearStream cm.resetAllMessages)
  | .destroy m => { onDestroy cfg cm m with deferred := (onDestroy cfg cm m).deferred.erase m }

/-- What the environment can do: the pool answers a pending request once, bytes and close events
arrive on the connection a request holds while it is open (the router listens only for requests),
the dispatcher deletes what was handed to it, and nothing happens after a crash. -/
def Enabled (e : Event α) : Prop :=
  cm.crashed = false ∧
    match e with
    | .continueDecoding m _ _ =>
      (cm.messages m).pendingStreamDecoded = true ∧ (cm.messages m).upstreamRequest = none
    | .poolReady m _ _ => ∃ ur, (cm.messages m).upstreamRequest = some ur ∧ ur.handle = true
    | .poolFailure m _ _ => ∃ ur, (cm.messages m).upstreamRequest = some ur ∧ ur.handle = true
    | .upstreamData m _ _ => (cm.messages m).metadata.messageType = .request ∧ ∃ ur c,
        (cm.messages m).upstreamRequest = some ur ∧ ur.conn = some c ∧ .upstreamClosed c ∉ cm.out
    | .upstreamEvent m _ => (cm.messages m).metadata.messageType = .request ∧ ∃ ur c,
        (cm.messages m).upstreamRequest = some ur ∧ ur.conn = some c ∧ .upstreamClosed c ∉ cm.out
    | .handlerPoolReady h _ _ => (cm.handlers h).upstreamHandle = true
    | .handlerPoolFailure h _ _ => (cm.handlers h).upstreamHandle = true
    | .handlerData h _ _ => (cm.handlers h).conn.isSome = true
    | .handlerEvent h _ => (cm.handlers h).conn.isSome = true
    | .destroy m => m ∈ cm.deferred
    | _ => True

end MetaProtocolProxy
