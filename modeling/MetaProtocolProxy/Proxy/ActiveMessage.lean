import MetaProtocolProxy.Proxy.State
/-
# Messages and their responses (active_message.cc)

The functions of `ActiveMessage` and of its `ActiveResponseDecoder` on the connection manager's
state: local replies, the end of a message, and the way of an upstream response from the bytes of
the upstream connection to the write on the downstream one.

`upstreamData` returns the status the router acts on; `none` when the process does not get there.
-/
namespace MetaProtocolProxy

variable {σ α : Type} (cfg : Config σ α) (cm : ConnectionManager σ α) (m : MsgId)

/-- `ActiveMessage::sendLocalReply` over `ConnectionManager::sendLocalReply`
(active_message.cc:535-545, conn_manager.cc:135-169); every caller passes `end_stream` false. -/
def sendLocalReply (error : Error) : ConnectionManager σ α :=
  let cm :=
    if cm.connectionOpen then
      match cfg.codec.onError (cm.messages m).metadata error with
      | .ok bytes => cm.emit (.localReply m error bytes)
      | .error e => if e.isEnvoyException then cm else cm.crash
    else cm
  cm.modify m fun a => { a with localResponseSent := true }

/-- The message types `maybeDeferredDeleteMessage` counts as one way. -/
def MessageType.isOneWay : MessageType → Bool
  | .oneway | .streamInit | .streamData | .streamCloseOneWay | .streamCloseTwoWay => true
  | _ => false

/-- `ActiveMessage::maybeDeferredDeleteMessage` (active_message.cc:437-470). -/
def maybeDeferredDeleteMessage : ConnectionManager σ α :=
  let cm := cm.modify m fun a => { a with pendingStreamDecoded := false }
  if (cm.messages m).localResponseSent || (cm.messages m).metadata.messageType.isOneWay then
    cm.deferredDeleteMessage m
  else cm

/-- `ActiveMessage::onError` (active_message.cc:648-660). -/
def onError (what : String) : ConnectionManager σ α :=
  (sendLocalReply cfg cm m ⟨.badResponse, what⟩).deferredDeleteMessage m

/-- `ActiveMessage::applyEncoderFilters` up to the router, which always continues. -/
def applyEncoderFilters : List EncoderVerdict → Mutation → FilterStatus × Mutation
  | [], mutation => (.continueIteration, mutation)
  | v :: vs, mutation =>
    let mutation := mutation.set v.mutation
    if v.status = .continueIteration then applyEncoderFilters vs mutation else (v.status, mutation)

/-- The encoder filters, skipped once a local reply has been sent. -/
def encoderFilters (a : ActiveMessage σ α) (mutation : Mutation) : FilterStatus × Mutation :=
  if a.localResponseSent then (.continueIteration, mutation) else applyEncoderFilters
    a.encoderFilters mutation

/-- `ActiveResponseDecoder::onMessageDecoded` (active_message.cc:43-96). -/
def responseDecoded (md : Metadata α) (mutation : Mutation) : Except Failure Unit × ConnectionManager σ α :=
  let a := cm.messages m
  let cm := cm.modifyDecoder m fun d => { d with metadata := some md }
  match encoderFilters a mutation with
  | (.continueIteration, mutation) =>
    if !cm.connectionOpen then (.error (.downstreamConnectionClose "Downstream has closed or closing"), cm)
    else match a.metadata.getString realServerAddress with
      | .error e => (.error e, cm)
      | .ok address =>
        let md := md.putString realServerAddress address
        match cfg.codec.encode md mutation md.originMessage with
        | .error e => (.error e, cm)
        | .ok bytes =>
          (.ok (), (cm.emit (.response m md bytes)).modifyDecoder m fun d =>
            { d with responseStatus := .complete })
  -- any other status, a retry included, ends the response without a write
  | (_, _) => (.ok (), cm.modifyDecoder m fun d => { d with responseStatus := .complete })

/-- The response decoder's callbacks; heartbeats of the upstream are ignored. -/
def responseDelegate : Delegate (ConnectionManager σ α) α where
  onHeartbeat _ cm := (.ok true, cm)
  newStream md mutation cm := responseDecoded cfg cm m md mutation

/-- `ActiveMessage::startUpstreamResponse`: a response decoder with a fresh codec. -/
def startUpstreamResponse : ConnectionManager σ α :=
  cm.modify m fun a => { a with responseDecoder := some { codec := cfg.codec.init } }

/-- What the `catch` clauses of `ActiveMessage::upstreamData` do. -/
def caught (e : Failure) : ConnectionManager σ α × Option UpstreamResponseStatus :=
  match e with
  | .downstreamConnectionClose _ => (cm.deferredDeleteMessage m, some .reset)
  | .envoyException what => (onError cfg cm m what, some .reset)
  | _ => (cm.crash, none)

/-- The text of the exception `upstreamData` throws on a mismatch. -/
def requestIdMismatch (requestId responseId : Nat) : String :=
  "meta protocol " ++ cfg.applicationProtocol ++ " response: request ID is not equal, " ++
    toString requestId ++ ":" ++ toString responseId

/-- `ActiveMessage::upstreamData` after the decoder returned (active_message.cc:565-580). -/
def afterDecode : ConnectionManager σ α × Option UpstreamResponseStatus :=
  match (cm.messages m).responseDecoder with
  | none => (cm.crash, none)
  | some d =>
    if d.responseStatus = .complete then
      -- the id is compared after the response has been written
      let responseId := (d.metadata.map (·.requestId)).getD 0
      if (cm.messages m).metadata.requestId ≠ responseId then
        caught cfg cm m
          (.envoyException (requestIdMismatch cfg (cm.messages m).metadata.requestId responseId))
      else (cm.deferredDeleteMessage m, some .complete)
    else (cm, some d.responseStatus)

/-- `ActiveMessage::upstreamData` (active_message.cc:560-596); also the bytes left unread. -/
def upstreamData (data : Bytes) : (ConnectionManager σ α × Option UpstreamResponseStatus) × Bytes :=
  match (cm.messages m).responseDecoder with
  | none => ((cm.crash, none), data)
  | some d =>
    let r := d.decoder.onData cfg.codec .response (responseDelegate cfg m) d.codec cm data
    let cm := r.world.modifyDecoder m fun d => { d with codec := r.codec, decoder := r.decoder }
    match r.result with
    | .ok _ => (afterDecode cfg cm m, r.buffer)
    | .error e => (caught cfg cm m e, r.buffer)

end MetaProtocolProxy
