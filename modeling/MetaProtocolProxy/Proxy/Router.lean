import MetaProtocolProxy.Proxy.ActiveMessage
/-
# The router and its upstream requests (router_impl.cc, upstream_request.cc)

`UpstreamRequest` takes a connection of its own from the pool, `UpstreamRequestByHandler` shares
the connection of an upstream handler; both are the `UpstreamRequest` of a message here, told apart
by `handler`. The pool's answers are arguments. `releaseUpStreamConnection` with `close` set closes
the connection, and the close event comes back to the router before the call returns.
-/
namespace MetaProtocolProxy

variable {σ α : Type} (cfg : Config σ α) (cm : ConnectionManager σ α) (m : MsgId)

/-- The reply for a lost or refused connection (upstream_request.cc:191-226). -/
def resetError (reason : PoolFailureReason) (host : String) : Error :=
  match reason with
  | .overflow => ⟨.unspecified, "meta protocol upstream request: too many connections"⟩
  | .localConnectionFailure =>
    ⟨.unspecified, "meta protocol upstream request: local connection failure '" ++ host ++ "'"⟩
  | .remoteConnectionFailure =>
    ⟨.unspecified, "meta protocol upstream request: remote connection failure '" ++ host ++ "'"⟩
  | .timeout =>
    ⟨.unspecified, "meta protocol upstream request: connection failure '" ++ host ++ "' due to timeout"⟩

/-- `UpstreamRequestBase::onUpstreamConnectionReset` (upstream_request.cc:179-230). -/
def onUpstreamConnectionReset (reason : PoolFailureReason) : ConnectionManager σ α :=
  match (cm.messages m).upstreamRequest with
  | none => cm.crash
  | some ur =>
    if (cm.messages m).metadata.messageType = .oneway then cm.deferredDeleteMessage m
    else
      let cm := sendLocalReply cfg cm m (resetError reason ur.host)
      if ur.responseComplete then cm else cm.deferredDeleteMessage m

/-- `Router::onEvent` and `UpstreamRequestBase::onUpstreamConnectionEvent`. -/
def onConnectionEvent (event : ConnectionEvent) : ConnectionManager σ α :=
  match event with
  | .remoteClose => onUpstreamConnectionReset cfg cm m .remoteConnectionFailure
  | .localClose => onUpstreamConnectionReset cfg cm m .localConnectionFailure

/-- `releaseUpStreamConnection` of both kinds of request (upstream_request.cc:58-85, 282-284). -/
def releaseUpStreamConnection (close : Bool) : ConnectionManager σ α :=
  match (cm.messages m).upstreamRequest with
  | none => cm.crash
  | some ur =>
    match ur.handler with
    | some h =>
      cm.modifyHandler h fun hd =>
        { hd with upstreamRequestCallbacks := hd.upstreamRequestCallbacks.filter (· != m) }
    | none =>
      let cm := cm.modifyRequest m fun ur => { ur with streamReset := true, handle := false, conn := none }
      match ur.conn with
      | none => cm
      | some c =>
        if close then onConnectionEvent cfg (cm.emit (.upstreamClosed c)) m .localClose
          else cm.emit (.released c)

/-- `Router::cleanUpstreamRequest`: with the request goes its `ConnectionData`. -/
def cleanUpstreamRequest : ConnectionManager σ α :=
  match (cm.messages m).upstreamRequest with
  | none => cm
  | some ur =>
    let cm := cm.modify m fun a => { a with upstreamRequest := none }
    match ur.conn with
    | none => cm
    | some c => cm.emit (.released c)

/-- `Router::onDestroy` (router_impl.cc:20-28), called by `~ActiveMessage`. -/
def onDestroy : ConnectionManager σ α :=
  match (cm.messages m).upstreamRequest with
  | none => cm
  | some _ => cleanUpstreamRequest (releaseUpStreamConnection cfg cm m false) m

/-- `onResponseComplete` of both kinds of request: an `UpstreamRequest` drops its connection. -/
def onResponseComplete : ConnectionManager σ α :=
  match (cm.messages m).upstreamRequest with
  | none => cm.crash
  | some ur =>
    let cm := cm.modifyRequest m fun ur => { ur with responseComplete := true, conn := none }
    match ur.conn with
    | none => cm
    | some c => cm.emit (.released c)

/-- `Router::onUpstreamData` after `upstreamData` (router_impl.cc:184-239). -/
def onUpstreamStatus (endStream : Bool) : Option UpstreamResponseStatus → ConnectionManager σ α
  | some .complete => cleanUpstreamRequest (onResponseComplete cm m) m
  | some .reset => releaseUpStreamConnection cfg cm m true
  | some .moreData =>
    if endStream then
      cleanUpstreamRequest
        (onResponseComplete (onUpstreamConnectionReset cfg cm m .remoteConnectionFailure) m) m
    else cm
  | some .retry => cm.crash
  | none => cm

/-- `Router::onUpstreamData` (router_impl.cc:171-239); also the bytes left unread. -/
def onUpstreamData (data : Bytes) (endStream : Bool) : ConnectionManager σ α × Bytes :=
  match (cm.messages m).upstreamRequest with
  | none => (cm.crash, data)
  | some ur =>
    let cm :=
      if ur.responseStarted then cm
      else (startUpstreamResponse cfg cm m).modifyRequest m fun ur => { ur with responseStarted := true }
    let r := upstreamData cfg cm m data
    (onUpstreamStatus cfg r.1.1 m endStream r.1.2, r.2)

/-- `continueDecoding` by the router, the last decoder filter: its request has taken the original
message, so the iteration resumes after it (active_message.cc:151-173). -/
def continueDecoding : ConnectionManager σ α :=
  if (cm.messages m).pendingStreamDecoded then maybeDeferredDeleteMessage cm m else cm

/-- The reasons the pool reports after `newConnection` has returned. -/
def PoolFailureReason.isConnectionError : PoolFailureReason → Bool
  | .overflow => false
  | _ => true

/-- `onPoolFailure` of both kinds of request (upstream_request.cc:97-122, 238-258). -/
def onPoolFailure (reason : PoolFailureReason) (host : String) : ConnectionManager σ α :=
  let cm := cm.modifyRequest m fun ur => { ur with handle := false, host := host }
  let cm := onUpstreamConnectionReset cfg cm m reason
  let cm := cm.modifyRequest m fun ur => { ur with buffer := [] }
  if reason.isConnectionError then continueDecoding cm m else cm

/-- `UpstreamRequest::encodeData` (upstream_request.cc:87-95): a fresh codec encodes the message,
which is then written. -/
def encodeData (c : ConnId) : Except Failure Unit × ConnectionManager σ α :=
  match (cm.messages m).upstreamRequest with
  | none => (.error (.nullDereference "upstream_request_"), cm)
  | some ur =>
    match cfg.codec.encode (cm.messages m).metadata (cm.messages m).mutation ur.buffer with
    | .error e => (.error e, cm)
    | .ok bytes =>
      (.ok (), (cm.modifyRequest m fun ur => { ur with buffer := [] }).emit (.upstreamWrite c m bytes))

/-- A stream takes over the connection of its init message (active_message.cc:411-413). -/
def setUpstreamConnection (c : ConnId) : ConnectionManager σ α :=
  let streamId := (cm.messages m).metadata.streamId
  match cm.getActiveStream streamId with
  | none => cm.crash
  | some st =>
    (cm.modifyRequest m fun ur => { ur with conn := none }).setStream streamId
      { st with upstreamConn := some c }

/-- `UpstreamRequest::onPoolReady` (upstream_request.cc:124-157). -/
def onPoolReady (c : ConnId) (host : String) : Except Failure Unit × ConnectionManager σ α :=
  match (cm.messages m).upstreamRequest with
  | none => (.error (.nullDereference "upstream_request_"), cm)
  | some ur =>
    let cm := cm.modifyRequest m fun ur => { ur with host := host, conn := some c, handle := false }
    let cm := cm.emit (.assigned m c)
    let cm := cm.modify m fun a => { a with metadata := a.metadata.putString realServerAddress host }
    -- only if the filter chain was stopped before
    let cm := if ur.handle then continueDecoding cm m else cm
    match encodeData cfg cm m c with
    | (.error e, cm) => (.error e, cm)
    | (.ok _, cm) =>
      let cm :=
        if (cm.messages m).metadata.messageType = .streamInit then
          setUpstreamConnection (cm.deferredDeleteMessage m) m c
        else cm
      (.ok (), cm.modifyRequest m fun ur => { ur with requestComplete := true })

end MetaProtocolProxy
