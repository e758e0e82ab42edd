import MetaProtocolProxy.Decoder
import MetaProtocolProxy.Stream
import Mathlib.Logic.Function.Basic
/-
# The state of one downstream connection
(conn_manager.h, active_message.h, router_impl.h, upstream_request.h)

A `ConnectionManager` serves one downstream connection. Each decoded message is handled by an
`ActiveMessage`, whose last decoder filter is the router; the router owns the `UpstreamRequest`.
Here an `ActiveMessage` is a record in the heap `messages`, and carries the fields of its router,
its upstream request and its response decoder. C++ pointers between these objects are the
message's index, and objects live on in the heap after they are destroyed: what is alive is
said by `activeMessageList` (`active_message_list_`) and `deferred` (the dispatcher's
deferred-delete list).

What the connection manager does to the outside is appended to the trace `out`.

| here | there |
| --- | --- |
| `handle`, `conn` of `UpstreamRequest` | `conn_pool_handle_ != nullptr`, `conn_data_` |
| `handler` of `UpstreamRequest` | the `upstream_handler_` of an `UpstreamRequestByHandler`; `none` for an `UpstreamRequest` |
| `handlers`, `handlerManager` | the `UpstreamHandlerImpl` objects, `upstream_handler_manager_` |
| `crashed` | an uncaught exception, a null dereference or a `PANIC` |

Statistics, access logs, tracing spans, outlier detection, the idle timer and request mirroring
are not modelled.
-/
namespace MetaProtocolProxy

/-- An `ActiveMessage` of one connection, in order of creation. -/
abbrev MsgId := Nat

/-- An `UpstreamHandlerImpl` of one connection, in order of creation. -/
abbrev HandlerId := Nat

/-- `ConnectionPool::PoolFailureReason` (Envoy). -/
inductive PoolFailureReason
  | overflow
  | localConnectionFailure
  | remoteConnectionFailure
  | timeout
  deriving DecidableEq, Repr

/-- `Network::ConnectionEvent`, without `Connected`, which the pool consumes. -/
inductive ConnectionEvent
  | remoteClose
  | localClose
  deriving DecidableEq, Repr

/-- `FilterStatus` (filters/filter.h). -/
inductive FilterStatus
  | continueIteration
  | pauseIteration
  | abortIteration
  | retry
  deriving DecidableEq, Repr

/-- `UpstreamResponseStatus`. -/
inductive UpstreamResponseStatus
  | moreData
  | complete
  | reset
  | retry
  deriving DecidableEq, Repr

/-- `UpstreamRequestBase` and its two subclasses. -/
structure UpstreamRequest where
  handler : Option HandlerId := none
  buffer : Bytes := []
  host : String := ""
  requestComplete : Bool := false
  responseStarted : Bool := false
  responseComplete : Bool := false
  streamReset : Bool := false
  handle : Bool := false
  conn : Option ConnId := none
  deriving DecidableEq, Repr

/-- `ActiveResponseDecoder` with a codec of its own. -/
structure ActiveResponseDecoder (σ α : Type) where
  codec : σ
  decoder : DecoderBase := {}
  metadata : Option (Metadata α) := none
  responseStatus : UpstreamResponseStatus := .moreData

/-- What an encoder filter answers: a status, and the entries it sets in the mutation. -/
structure EncoderVerdict where
  status : FilterStatus := .continueIteration
  mutation : Mutation := []
  deriving DecidableEq, Repr

/-- `ActiveMessage` with its router. -/
structure ActiveMessage (σ α : Type) where
  metadata : Metadata α := {}
  mutation : Mutation := []
  /-- What the encoder filters before the router will answer. -/
  encoderFilters : List EncoderVerdict := []
  pendingStreamDecoded : Bool := false
  localResponseSent : Bool := false
  responseDecoder : Option (ActiveResponseDecoder σ α) := none
  /-- `upstream_request_` of the router. -/
  upstreamRequest : Option UpstreamRequest := none

/-- `UpstreamHandlerResponseDecoder`, inside the `UpstreamResponse` that owns it. -/
structure UpstreamResponse (σ : Type) where
  codec : σ
  decoder : DecoderBase := {}
  complete : Bool

/-- `UpstreamHandlerImpl`. -/
structure UpstreamHandler (σ : Type) where
  key : String := ""
  poolReady : Bool := false
  upstreamHandle : Bool := false
  conn : Option ConnId := none
  /-- `upstream_request_callbacks_`: the requests waiting for the connection. -/
  upstreamRequestCallbacks : List MsgId := []
  /-- `response_callbacks_`: request id to the router to call. -/
  responseCallbacks : List (Nat × MsgId) := []
  upstreamResponse : Option (UpstreamResponse σ) := none

/-- What happens outside the connection manager. -/
inductive Out (α : Type)
  /-- A response forwarded on behalf of a message. -/
  | response (m : MsgId) (md : Metadata α) (bytes : Bytes)
  /-- A reply the proxy made for a message. -/
  | localReply (m : MsgId) (error : Error) (bytes : Bytes)
  /-- A response forwarded by an upstream handler. -/
  | handlerResponse (h : HandlerId) (md : Metadata α)
  /-- The pool has given a connection to a message. -/
  | assigned (m : MsgId) (c : ConnId)
  /-- A write on an upstream connection. -/
  | upstreamWrite (c : ConnId) (m : MsgId) (bytes : Bytes)
  /-- A connection given back to the pool. -/
  | released (c : ConnId)
  /-- A connection closed, by the proxy or by the other side. -/
  | upstreamClosed (c : ConnId)
  /-- A response callback of an upstream handler has run. -/
  | callback (h : HandlerId) (requestId : Nat) (m : MsgId)

structure ConnectionManager (σ α : Type) where
  /-- The downstream connection is open. -/
  connectionOpen : Bool := true
  activeMessageList : List MsgId := []
  deferred : List MsgId := []
  nextMessage : MsgId := 0
  messages : MsgId → ActiveMessage σ α := fun _ => {}
  activeStreamMap : List (Nat × Stream) := []
  nextHandler : HandlerId := 0
  handlers : HandlerId → UpstreamHandler σ := fun _ => {}
  handlerManager : List (String × HandlerId) := []
  out : List (Out α) := []
  crashed : Bool := false

/-- `Config` (config.h), and the codec `createCodec` makes. -/
structure Config (σ α : Type) where
  codec : Codec σ α
  applicationProtocol : String
  multiplexing : Bool

/-- An exception a `catch (const EnvoyException&)` catches. -/
def Failure.isEnvoyException : Failure → Bool
  | .envoyException _ => true
  | .downstreamConnectionClose _ => true
  | _ => false

theorem mem_of_lookup {κ β : Type} [BEq κ] [LawfulBEq κ] {k : κ} {v : β} {table : List (κ × β)}
    (h : table.lookup k = some v) : (k, v) ∈ table := by
  obtain ⟨l₁, l₂, hsplit, -⟩ := List.lookup_eq_some_iff.1 h
  rw [hsplit]
  exact List.mem_append_right _ List.mem_cons_self

namespace ConnectionManager

variable {σ α : Type} (cm : ConnectionManager σ α)

def modify (m : MsgId) (f : ActiveMessage σ α → ActiveMessage σ α) : ConnectionManager σ α :=
  { cm with messages := Function.update cm.messages m (f (cm.messages m)) }

def modifyRequest (m : MsgId) (f : UpstreamRequest → UpstreamRequest) : ConnectionManager σ α :=
  cm.modify m fun a => { a with upstreamRequest := a.upstreamRequest.map f }

def modifyDecoder (m : MsgId) (f : ActiveResponseDecoder σ α → ActiveResponseDecoder σ α) :
    ConnectionManager σ α :=
  cm.modify m fun a => { a with responseDecoder := a.responseDecoder.map f }

def modifyHandler (h : HandlerId) (f : UpstreamHandler σ → UpstreamHandler σ) : ConnectionManager σ α :=
  { cm with handlers := Function.update cm.handlers h (f (cm.handlers h)) }

def emit (o : Out α) : ConnectionManager σ α := { cm with out := cm.out ++ [o] }

def crash : ConnectionManager σ α := { cm with crashed := true }

/-- The `ActiveMessage` has been destroyed. -/
def destroyed (m : MsgId) : Bool := !cm.activeMessageList.contains m && !cm.deferred.contains m

/-- `ConnectionManager::deferredDeleteMessage` (conn_manager.cc:194-202). -/
def deferredDeleteMessage (m : MsgId) : ConnectionManager σ α :=
  if m ∈ cm.activeMessageList then
    { cm with activeMessageList := cm.activeMessageList.erase m, deferred := cm.deferred ++ [m] }
  else cm

/-- `ConnectionManager::resetAllMessages` (conn_manager.cc:204-216): every message's `onReset`,
front first. -/
def resetAllMessages : ConnectionManager σ α :=
  { cm with activeMessageList := [], deferred := cm.deferred ++ cm.activeMessageList }

/-- `upstream_handler_manager_.del(key)`. -/
def delHandler (key : String) : ConnectionManager σ α :=
  { cm with handlerManager := cm.handlerManager.filter fun kh => kh.1 != key }

/-- `ConnectionManager::streamExisted` and `getActiveStream`. -/
def getActiveStream (streamId : Nat) : Option Stream := cm.activeStreamMap.lookup streamId

/-- `active_stream_map_[id] = stream`. -/
def setStream (streamId : Nat) (st : Stream) : ConnectionManager σ α :=
  { cm with activeStreamMap := (streamId, st) :: cm.activeStreamMap.filter fun e => e.1 != streamId }

end ConnectionManager

end MetaProtocolProxy
