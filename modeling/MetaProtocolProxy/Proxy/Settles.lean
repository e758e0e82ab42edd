import MetaProtocolProxy.Proxy.ConnectionManager
import Mathlib.Data.List.Perm.Basic
/-
# The functions that write nothing upstream (active_message.cc, router_impl.cc, upstream_request.cc)

Most functions on one message answer it, drop its upstream request or hand it to the dispatcher.
`Settles` says all that such a function can do: only the record of the message changes (`Subsides`),
only this message is taken off `active_message_list_`, the outputs are no writes to an upstream
connection, and no handler changes, except that the message may leave a queue. There is one lemma
per function; what the later modules need of these functions (`Touches`, `Recedes`, `Trimmed`)
follows from `Settles`.

A request whose bytes are dropped must not wait on a handler any more: `queued` says that it does.
`leaves` says that the function may take the message out of a handler's queue.
-/
namespace MetaProtocolProxy

variable {σ α : Type}

def Out.isSilent : Out α → Bool
  | .upstreamWrite .. => false
  | _ => true

/-! ## Records -/

/-- The request is as it was, or has given up waiting or its connection; nothing is said of its
bytes. -/
structure UpstreamRequest.Fades (ur ur' : UpstreamRequest) : Prop where
  handler : ur'.handler = ur.handler
  handle : ur'.handle = true → ur.handle = true
  conn : ur'.conn.isSome = true → ur.conn.isSome = true
  responseComplete : ur'.responseComplete = ur.responseComplete

theorem UpstreamRequest.Fades.refl (ur : UpstreamRequest) : ur.Fades ur := ⟨rfl, id, id, rfl⟩

theorem UpstreamRequest.Fades.trans {ur ur₁ ur₂ : UpstreamRequest} (h₁ : ur.Fades ur₁) (h₂ : ur₁.Fades ur₂) :
    ur.Fades ur₂ :=
  ⟨h₂.handler.trans h₁.handler, h₁.handle ∘ h₂.handle, h₁.conn ∘ h₂.conn,
    h₂.responseComplete.trans h₁.responseComplete⟩

inductive RequestFades (queued : Prop) : Option UpstreamRequest → Option UpstreamRequest → Prop
  | none : RequestFades queued none none
  | same {ur ur'} (h : ur.Fades ur') (hbuffer : ur'.buffer = ur.buffer) :
      RequestFades queued (some ur) (some ur')
  | dropped {ur ur'} (hq : ¬queued) (h : ur.Fades ur') (hhandle : ur'.handle = false) :
      RequestFades queued (some ur) (some ur')
  | gone {ur} (hq : ¬queued) : RequestFades queued (some ur) none

namespace RequestFades

variable {queued queued' : Prop} {r r₁ r₂ : Option UpstreamRequest} {ur' : UpstreamRequest}

theorem refl (queued : Prop) (r : Option UpstreamRequest) : RequestFades queued r r := by
  cases r with
  | none => exact .none
  | some ur => exact .same (.refl ur) rfl

theorem trans (hq : queued' → queued) (h₁ : RequestFades queued r r₁) (h₂ : RequestFades queued' r₁ r₂) :
    RequestFades queued' r r₂ := by
  cases h₁ with
  | none => exact h₂
  | gone hnot =>
    cases h₂
    exact .gone (hnot ∘ hq)
  | same hsame hbuffer =>
    cases h₂ with
    | same hsame' hbuffer' => exact .same (hsame.trans hsame') (hbuffer'.trans hbuffer)
    | dropped hnot hsame' hhandle => exact .dropped hnot (hsame.trans hsame') hhandle
    | gone hnot => exact .gone hnot
  | dropped hnot hsame hhandle =>
    cases h₂ with
    | same hsame' _ =>
      refine .dropped (hnot ∘ hq) (hsame.trans hsame') (Bool.eq_false_iff.2 fun hh => ?_)
      rw [hsame'.handle hh] at hhandle
      cases hhandle
    | dropped hnot' hsame' hhandle' => exact .dropped hnot' (hsame.trans hsame') hhandle'
    | gone hnot' => exact .gone hnot'

theorem of_some (h : RequestFades queued r (some ur')) : ∃ ur, r = some ur ∧ ur.Fades ur' := by
  cases h with
  | same hsame _ => exact ⟨_, rfl, hsame⟩
  | dropped _ hsame _ => exact ⟨_, rfl, hsame⟩

end RequestFades

structure Fades (queued : Prop) (a a' : ActiveMessage σ α) : Prop where
  metadata : a'.metadata = a.metadata
  mutation : a'.mutation = a.mutation
  request : RequestFades queued a.upstreamRequest a'.upstreamRequest

theorem Fades.refl (queued : Prop) (a : ActiveMessage σ α) : Fades queued a a := ⟨rfl, rfl, .refl ..⟩

theorem Fades.trans {queued queued' : Prop} {a a₁ a₂ : ActiveMessage σ α} (hq : queued' → queued)
    (h₁ : Fades queued a a₁) (h₂ : Fades queued' a₁ a₂) : Fades queued' a a₂ :=
  ⟨h₂.metadata.trans h₁.metadata, h₂.mutation.trans h₁.mutation, h₁.request.trans hq h₂.request⟩

/-- As `Fades`, for a message that is not paused either. -/
structure Subsides (queued : Prop) (a a' : ActiveMessage σ α) : Prop extends Fades queued a a' where
  replied : a.localResponseSent = true → a'.localResponseSent = true
  resumes : a'.pendingStreamDecoded = true → a.pendingStreamDecoded = true

theorem Subsides.of_request {queued : Prop} {a a' : ActiveMessage σ α} (hmeta : a'.metadata = a.metadata)
    (hmutation : a'.mutation = a.mutation) (hsent : a'.localResponseSent = a.localResponseSent)
    (hpending : a'.pendingStreamDecoded = a.pendingStreamDecoded)
    (hrequest : RequestFades queued a.upstreamRequest a'.upstreamRequest) : Subsides queued a a' :=
  ⟨⟨hmeta, hmutation, hrequest⟩, hsent.trans, hpending.symm.trans⟩

theorem Subsides.refl (queued : Prop) (a : ActiveMessage σ α) : Subsides queued a a :=
  .of_request rfl rfl rfl rfl (.refl ..)

theorem Subsides.trans {queued : Prop} {a a₁ a₂ : ActiveMessage σ α} (h₁ : Subsides queued a a₁)
    (h₂ : Subsides queued a₁ a₂) : Subsides queued a a₂ :=
  ⟨h₁.toFades.trans id h₂.toFades, h₂.replied ∘ h₁.replied, h₁.resumes ∘ h₂.resumes⟩

/-- The handler without the message in its queue. -/
def UpstreamHandler.without (hd : UpstreamHandler σ) (m : MsgId) : UpstreamHandler σ :=
  { hd with upstreamRequestCallbacks := hd.upstreamRequestCallbacks.filter (· != m) }

theorem UpstreamHandler.without_without (hd : UpstreamHandler σ) (m : MsgId) :
    (hd.without m).without m = hd.without m := by
  simp [without, List.filter_filter]

/-! ## States -/

/-- From `cm` to `cm'` nothing is written upstream, and only the message `m` has changed. -/
structure Settles (queued leaves : Prop) (m : MsgId) (cm cm' : ConnectionManager σ α) : Prop where
  record : Subsides queued (cm.messages m) (cm'.messages m)
  others : ∀ i ≠ m, cm'.messages i = cm.messages i
  out : ∃ os, cm'.out = cm.out ++ os ∧ ∀ o ∈ os, o.isSilent = true
  nextMessage : cm'.nextMessage = cm.nextMessage
  connectionOpen : cm'.connectionOpen = cm.connectionOpen
  streams : cm'.activeStreamMap = cm.activeStreamMap
  nextHandler : cm'.nextHandler = cm.nextHandler
  handlerManager : cm'.handlerManager = cm.handlerManager
  handlers : ∀ h, cm'.handlers h = cm.handlers h ∨ leaves ∧ cm'.handlers h = (cm.handlers h).without m
  active : cm'.activeMessageList ⊆ cm.activeMessageList
  stays : ∀ i ≠ m, i ∈ cm.activeMessageList → i ∈ cm'.activeMessageList
  /-- What is taken off the list is handed to the dispatcher. -/
  perm : (cm'.activeMessageList ++ cm'.deferred).Perm (cm.activeMessageList ++ cm.deferred)
  crashed : cm.crashed = true → cm'.crashed = true

variable (cm : ConnectionManager σ α)

theorem ConnectionManager.messages_modify_self (m : MsgId)
    (f : ActiveMessage σ α → ActiveMessage σ α) : (cm.modify m f).messages m = f (cm.messages m) :=
  Function.update_self ..

theorem ConnectionManager.messages_modify_of_ne {m i : MsgId}
    (f : ActiveMessage σ α → ActiveMessage σ α) (hi : i ≠ m) : (cm.modify m f).messages i = cm.messages i :=
  Function.update_of_ne hi ..

theorem ConnectionManager.handlers_modifyHandler_self (h : HandlerId)
    (f : UpstreamHandler σ → UpstreamHandler σ) : (cm.modifyHandler h f).handlers h = f (cm.handlers h) :=
  Function.update_self ..

theorem ConnectionManager.handlers_modifyHandler_of_ne {h k : HandlerId}
    (f : UpstreamHandler σ → UpstreamHandler σ) (hk : k ≠ h) :
    (cm.modifyHandler h f).handlers k = cm.handlers k :=
  Function.update_of_ne hk ..

/-- What `deferredDeleteMessage` does to the two lists. -/
theorem deferredDeleteMessage_perm {active deferred : List MsgId} {m : MsgId} (hm : m ∈ active) :
    (active.erase m ++ (deferred ++ [m])).Perm (active ++ deferred) := by
  refine List.Perm.trans ?_ ((List.perm_cons_erase hm).append_right deferred).symm
  rw [← List.append_assoc]
  exact List.perm_append_singleton m _

namespace Settles

variable {queued leaves : Prop} {cm cm₁ cm₂ : ConnectionManager σ α} {m : MsgId}

theorem refl (m : MsgId) (cm : ConnectionManager σ α) : Settles queued leaves m cm cm where
  record := .refl ..
  others _ _ := rfl
  out := ⟨[], (List.append_nil _).symm, by simp⟩
  nextMessage := rfl
  connectionOpen := rfl
  streams := rfl
  nextHandler := rfl
  handlerManager := rfl
  handlers _ := .inl rfl
  active := List.Subset.refl _
  stays _ _ hi := hi
  perm := .refl _
  crashed := id

theorem trans (h₁ : Settles queued leaves m cm cm₁) (h₂ : Settles queued leaves m cm₁ cm₂) :
    Settles queued leaves m cm cm₂ where
  record := h₁.record.trans h₂.record
  others i hi := (h₂.others i hi).trans (h₁.others i hi)
  out := by
    obtain ⟨os₁, hout₁, hsilent₁⟩ := h₁.out
    obtain ⟨os₂, hout₂, hsilent₂⟩ := h₂.out
    refine ⟨os₁ ++ os₂, by rw [hout₂, hout₁, List.append_assoc], fun o ho => ?_⟩
    exact (List.mem_append.1 ho).elim (hsilent₁ o) (hsilent₂ o)
  nextMessage := h₂.nextMessage.trans h₁.nextMessage
  connectionOpen := h₂.connectionOpen.trans h₁.connectionOpen
  streams := h₂.streams.trans h₁.streams
  nextHandler := h₂.nextHandler.trans h₁.nextHandler
  handlerManager := h₂.handlerManager.trans h₁.handlerManager
  handlers h := by
    rcases h₁.handlers h with hsame₁ | ⟨hl, hleft₁⟩
    · rw [← hsame₁]
      exact h₂.handlers h
    · rcases h₂.handlers h with hsame₂ | ⟨-, hleft₂⟩
      · exact .inr ⟨hl, hsame₂.trans hleft₁⟩
      · exact .inr ⟨hl, by rw [hleft₂, hleft₁, UpstreamHandler.without_without]⟩
  active := List.Subset.trans h₂.active h₁.active
  stays i hi hmem := h₂.stays i hi (h₁.stays i hi hmem)
  perm := h₂.perm.trans h₁.perm
  crashed := h₂.crashed ∘ h₁.crashed

theorem alive (h : Settles queued leaves m cm cm₁) (hc : cm₁.crashed = false) : cm.crashed = false :=
  Bool.eq_false_iff.2 fun hcr => by simp [h.crashed hcr] at hc

theorem emit (m : MsgId) (cm : ConnectionManager σ α) {o : Out α} (ho : o.isSilent = true) :
    Settles queued leaves m cm (cm.emit o) :=
  { refl m cm with out := ⟨[o], rfl, by simpa using ho⟩ }

theorem crash (m : MsgId) (cm : ConnectionManager σ α) : Settles queued leaves m cm cm.crash :=
  { refl m cm with crashed := fun _ => rfl }

theorem deferredDeleteMessage (cm : ConnectionManager σ α) (m : MsgId) :
    Settles queued leaves m cm (cm.deferredDeleteMessage m) := by
  unfold ConnectionManager.deferredDeleteMessage
  split
  next hm =>
    exact { refl m cm with
      active := List.erase_subset
      stays := fun i hi hmem => (List.mem_erase_of_ne hi).2 hmem
      perm := deferredDeleteMessage_perm hm }
  · exact refl m cm

theorem modify {f : ActiveMessage σ α → ActiveMessage σ α}
    (hf : Subsides queued (cm.messages m) (f (cm.messages m))) : Settles queued leaves m cm (cm.modify m f) :=
  { @refl _ _ queued leaves m cm with
    record := by rwa [cm.messages_modify_self]
    others := fun _ hi => cm.messages_modify_of_ne f hi }

theorem modifyRequest {f : UpstreamRequest → UpstreamRequest} (hf : ∀ ur, UpstreamRequest.Fades ur (f ur))
    (hbuffer : ∀ ur, (f ur).buffer = ur.buffer) : Settles queued leaves m cm (cm.modifyRequest m f) := by
  refine modify (.of_request rfl rfl rfl rfl ?_)
  cases (cm.messages m).upstreamRequest with
  | none => exact .none
  | some ur => exact .same (hf ur) (hbuffer ur)

theorem modifyDecoder {f : ActiveResponseDecoder σ α → ActiveResponseDecoder σ α} :
    Settles queued leaves m cm (cm.modifyDecoder m f) :=
  modify (.of_request rfl rfl rfl rfl (.refl ..))

/-- A request that is there afterwards was there before, and waits only if it waited. -/
theorem request_of_some (h : Settles queued leaves m cm cm₁) {ur' : UpstreamRequest}
    (hur : (cm₁.messages m).upstreamRequest = some ur') :
    ∃ ur, (cm.messages m).upstreamRequest = some ur ∧ ur.Fades ur' :=
  RequestFades.of_some (hur ▸ h.record.request)

end Settles

/-! ## The functions -/

section Functions

variable (cfg : Config σ α) (cm : ConnectionManager σ α) (m : MsgId) {queued leaves : Prop}

theorem sendLocalReply_settles (error : Error) :
    Settles queued leaves m cm (sendLocalReply cfg cm m error) := by
  have hmark : ∀ cm₁ : ConnectionManager σ α, Settles queued leaves m cm cm₁ →
      Settles queued leaves m cm (cm₁.modify m fun a => { a with localResponseSent := true }) :=
    fun _ h => h.trans (.modify ⟨⟨rfl, rfl, .refl ..⟩, fun _ => rfl, id⟩)
  unfold sendLocalReply
  refine hmark _ ?_
  split
  · split
    · exact .emit m cm rfl
    · split
      · exact .refl m cm
      · exact .crash m cm
  · exact .refl m cm

theorem maybeDeferredDeleteMessage_settles :
    Settles queued leaves m cm (maybeDeferredDeleteMessage cm m) := by
  have h : Settles queued leaves m cm (cm.modify m fun a => { a with pendingStreamDecoded := false }) :=
    .modify ⟨⟨rfl, rfl, .refl ..⟩, id, nofun⟩
  simp only [maybeDeferredDeleteMessage]
  split
  · exact h.trans (.deferredDeleteMessage ..)
  · exact h

theorem continueDecoding_settles : Settles queued leaves m cm (continueDecoding cm m) := by
  unfold continueDecoding
  split
  · exact maybeDeferredDeleteMessage_settles cm m
  · exact .refl m cm

theorem onError_settles (what : String) : Settles queued leaves m cm (onError cfg cm m what) :=
  (sendLocalReply_settles cfg cm m _).trans (.deferredDeleteMessage ..)

theorem onUpstreamConnectionReset_settles (reason : PoolFailureReason) :
    Settles queued leaves m cm (onUpstreamConnectionReset cfg cm m reason) := by
  unfold onUpstreamConnectionReset
  split
  · exact .crash m cm
  next ur _ =>
    have h : Settles queued leaves m cm (sendLocalReply cfg cm m (resetError reason ur.host)) :=
      sendLocalReply_settles ..
    split
    · exact .deferredDeleteMessage ..
    · dsimp only
      split
      · exact h
      · exact h.trans (.deferredDeleteMessage ..)

theorem onConnectionEvent_settles (event : ConnectionEvent) :
    Settles queued leaves m cm (onConnectionEvent cfg cm m event) := by
  cases event <;> exact onUpstreamConnectionReset_settles cfg cm m _

theorem upstreamClosed_settles (event : ConnectionEvent) :
    Settles queued leaves m cm (upstreamClosed cfg cm m event) := by
  unfold upstreamClosed
  split
  · exact .refl m cm
  · exact (Settles.emit m cm rfl).trans (onConnectionEvent_settles ..)

/-- With `close` or without, a request of its own lets go of its connection; one that shares a
connection leaves the handler's queue. -/
theorem releaseUpStreamConnection_settles (hl : leaves) (close : Bool) :
    Settles queued leaves m cm (releaseUpStreamConnection cfg cm m close) := by
  unfold releaseUpStreamConnection
  split
  · exact .crash m cm
  · split
    next h _ =>
      refine { @Settles.refl _ _ queued leaves m cm with handlers := fun k => ?_ }
      by_cases hk : k = h
      · subst hk
        exact .inr ⟨hl, cm.handlers_modifyHandler_self ..⟩
      · exact .inl (cm.handlers_modifyHandler_of_ne _ hk)
    · have h : Settles queued leaves m cm
          (cm.modifyRequest m fun ur => { ur with streamReset := true, handle := false, conn := none }) :=
        .modifyRequest (fun _ => ⟨rfl, nofun, nofun, rfl⟩) fun _ => rfl
      dsimp only
      split
      · exact h
      · split
        · exact (h.trans (.emit m _ rfl)).trans (onConnectionEvent_settles ..)
        · exact h.trans (.emit m _ rfl)

/-! ### Responses -/

theorem responseDecoded_settles (md : Metadata α) (mutation : Mutation) :
    Settles queued leaves m cm (responseDecoded cfg cm m md mutation).2 := by
  have h : Settles queued leaves m cm (cm.modifyDecoder m fun d =>
    { d with metadata := some md }) := .modifyDecoder
  simp only [responseDecoded]
  split
  · split
    · exact h
    · split
      · exact h
      · split
        · exact h
        · exact (h.trans (.emit m _ rfl)).trans .modifyDecoder
  · exact h.trans .modifyDecoder

theorem caught_settles (e : Failure) : Settles queued leaves m cm (caught cfg cm m e).1 := by
  unfold caught
  split
  · exact .deferredDeleteMessage ..
  · exact onError_settles cfg cm m _
  · exact .crash m cm

theorem afterDecode_settles : Settles queued leaves m cm (afterDecode cfg cm m).1 := by
  unfold afterDecode
  split
  · exact .crash m cm
  · split
    · dsimp only
      split
      · exact caught_settles cfg cm m _
      · exact .deferredDeleteMessage ..
    · exact .refl m cm

theorem upstreamData_settles (data : Bytes) :
    Settles queued leaves m cm (upstreamData cfg cm m data).1.1 := by
  unfold upstreamData
  split
  · exact .crash m cm
  next d _ =>
    have hworld : Settles queued leaves m cm
        (d.decoder.onData cfg.codec .response (responseDelegate cfg m) d.codec cm data).world :=
      DecoderBase.onData_world (.refl m cm) (fun _ => .refl m cm) fun md =>
        responseDecoded_settles cfg cm m md []
    dsimp only
    split
    · exact (hworld.trans .modifyDecoder).trans (afterDecode_settles ..)
    · exact (hworld.trans .modifyDecoder).trans (caught_settles ..)

/-! ### The end of a request -/

variable {cm m}

theorem cleanUpstreamRequest_settles (hq : ¬queued) :
    Settles queued leaves m cm (cleanUpstreamRequest cm m) := by
  unfold cleanUpstreamRequest
  split
  · exact .refl m cm
  next ur hur =>
    have h : Settles queued leaves m cm (cm.modify m fun a => { a with upstreamRequest := none }) :=
      .modify (.of_request rfl rfl rfl rfl (hur ▸ .gone hq))
    dsimp only
    split
    · exact h
    · exact h.trans (.emit m _ rfl)

theorem clean_onResponseComplete {ur : UpstreamRequest} (hur : (cm.messages m).upstreamRequest = some ur) :
    cleanUpstreamRequest (onResponseComplete cm m) m = cleanUpstreamRequest cm m := by
  cases hc : ur.conn <;>
    simp [onResponseComplete, cleanUpstreamRequest, hur, hc, ConnectionManager.modifyRequest,
      ConnectionManager.modify, ConnectionManager.emit]

/-- The end of a response: the connection goes back to the pool and nothing is left of the
request. -/
theorem complete_settles (hq : ¬queued) :
    Settles queued leaves m cm (cleanUpstreamRequest (onResponseComplete cm m) m) := by
  cases hur : (cm.messages m).upstreamRequest with
  | none =>
    simp only [onResponseComplete, hur]
    exact (Settles.crash m cm).trans (cleanUpstreamRequest_settles hq)
  | some ur =>
    rw [clean_onResponseComplete hur]
    exact cleanUpstreamRequest_settles hq

variable (cm m)

theorem onUpstreamResponseCallback_settles (hq : ¬queued) :
    Settles queued leaves m cm (onUpstreamResponseCallback cm m) := by
  unfold onUpstreamResponseCallback
  split
  · exact .crash m cm
  · split
    · exact .crash m cm
    · exact (complete_settles hq).trans (.deferredDeleteMessage ..)

theorem onDestroy_settles (hq : ¬queued) (hl : leaves) : Settles queued leaves m cm (onDestroy cfg cm m) := by
  unfold onDestroy
  split
  · exact .refl m cm
  · exact (releaseUpStreamConnection_settles cfg cm m hl false).trans (cleanUpstreamRequest_settles hq)

theorem onUpstreamStatus_settles (hq : ¬queued) (hl : leaves) (endStream : Bool)
    (status : Option UpstreamResponseStatus) :
    Settles queued leaves m cm (onUpstreamStatus cfg cm m endStream status) := by
  unfold onUpstreamStatus
  split
  · exact complete_settles hq
  · exact releaseUpStreamConnection_settles cfg cm m hl true
  · split
    · exact (onUpstreamConnectionReset_settles cfg cm m _).trans (complete_settles hq)
    · exact .refl m cm
  · exact .crash m cm
  · exact .refl m cm

theorem onUpstreamData_settles (hq : ¬queued) (hl : leaves) (data : Bytes) (endStream : Bool) :
    Settles queued leaves m cm (onUpstreamData cfg cm m data endStream).1 := by
  unfold onUpstreamData
  split
  · exact .crash m cm
  next ur _ =>
    have hstart : Settles queued leaves m cm (if ur.responseStarted then cm
        else (startUpstreamResponse cfg cm m).modifyRequest m fun ur =>
            { ur with responseStarted := true }) := by
      split
      · exact .refl m cm
      · have hdecoder : Settles queued leaves m cm (startUpstreamResponse cfg cm m) :=
          .modify (.of_request rfl rfl rfl rfl (.refl ..))
        exact hdecoder.trans (.modifyRequest (fun _ => ⟨rfl, id, id, rfl⟩) fun _ => rfl)
    exact (hstart.trans (upstreamData_settles ..)).trans (onUpstreamStatus_settles cfg _ m hq hl endStream _)

/-- The pool refuses a connection and the bytes of the request are dropped; nobody may wait for them
any more. -/
theorem onPoolFailure_settles (hq : ¬queued) (reason : PoolFailureReason) (host : String) :
    Settles queued leaves m cm (onPoolFailure cfg cm m reason host) := by
  have h₁ : Settles queued leaves m cm (cm.modifyRequest m fun ur =>
    { ur with handle := false, host := host }) :=
    .modifyRequest (fun _ => ⟨rfl, nofun, id, rfl⟩) fun _ => rfl
  have hgiven :
      ∀ ur, ((cm.modifyRequest m fun ur => { ur with handle := false, host := host }).messages
        m).upstreamRequest =
      some ur → ur.handle = false := by
    intro ur hur
    rw [ConnectionManager.modifyRequest, cm.messages_modify_self] at hur
    obtain ⟨ur₀, -, rfl⟩ := Option.map_eq_some_iff.1 hur
    rfl
  simp only [onPoolFailure]
  generalize (cm.modifyRequest m fun ur => { ur with handle := false, host := host }) = cm₁ at h₁ hgiven
  have h₂ : Settles queued leaves m cm₁ (onUpstreamConnectionReset cfg cm₁ m reason) :=
    onUpstreamConnectionReset_settles ..
  generalize onUpstreamConnectionReset cfg cm₁ m reason = cm₂ at h₂ ⊢
  have h₃ : Settles queued leaves m cm₂ (cm₂.modifyRequest m fun ur => { ur with buffer := [] }) := by
    refine .modify (.of_request rfl rfl rfl rfl ?_)
    cases hur : (cm₂.messages m).upstreamRequest with
    | none => exact .none
    | some ur =>
      obtain ⟨ur₁, hur₁, hfades⟩ := h₂.request_of_some hur
      refine .dropped hq ⟨rfl, id, id, rfl⟩ (Bool.eq_false_iff.2 fun hh => ?_)
      have hwaited := hfades.handle hh
      rw [hgiven ur₁ hur₁] at hwaited
      cases hwaited
  split
  · exact ((h₁.trans h₂).trans h₃).trans (continueDecoding_settles ..)
  · exact (h₁.trans h₂).trans h₃

/-! ### The filters -/

variable {cm m}

/-- What the mutations and the replies of the filters keep holds when the router is called; what the
router makes of it, or what it implies, holds at the end of the loop. The status is not the router's
if there has been a reply. -/
theorem applyDecoderFilters_preserves {P : ConnectionManager σ α → Prop}
    {Q : Except Failure FilterStatus × ConnectionManager σ α → Prop} {env : RouterEnv}
    {filters : List DecoderVerdict}
    (hmutate : ∀ v ∈ filters, ∀ cm, P cm →
      P (cm.modify m fun a => { a with mutation := a.mutation.set v.mutation }))
    (hreply : ∀ error cm, P cm → P (sendLocalReply cfg cm m error)) (hend :
      ∀ status cm, P cm → Q (.ok status, cm))
    (hrouter : ∀ cm, P cm → Q (routerDecoded cfg cm m env))
    (hreplied : ∀ status cm, Q (.ok status, cm) → Q (.ok .continueIteration, cm)) (h : P cm) :
    Q (applyDecoderFilters cfg cm m filters env) := by
  have hloop : ∀ cm, P cm → Q (decoderFilterLoop cfg cm m env filters) := by
    induction filters with
    | nil =>
      intro cm h
      have hr := hrouter cm h
      rw [decoderFilterLoop]
      generalize routerDecoded cfg cm m env = r at hr ⊢
      obtain ⟨e | status, cm₁⟩ := r
      · exact hr
      · dsimp only
        split
        · exact hreplied status cm₁ hr
        · exact hr
    | cons v vs ih =>
      intro cm h
      have hrest : ∀ cm₁, P cm₁ → Q (if (cm₁.messages m).localResponseSent then (.ok .continueIteration, cm₁)
          else if v.status = .continueIteration then decoderFilterLoop cfg cm₁ m env vs
              else (.ok v.status, cm₁)) := by
        intro cm₁ h₁
        split
        · exact hend _ cm₁ h₁
        · split
          · exact ih (fun v' hv' => hmutate v' (List.mem_cons_of_mem v hv')) cm₁ h₁
          · exact hend _ cm₁ h₁
      have h₁ := hmutate v List.mem_cons_self cm h
      simp only [decoderFilterLoop]
      cases v.localReply with
      | none => exact hrest _ h₁
      | some error => exact hrest _ (hreply error _ h₁)
  unfold applyDecoderFilters
  split
  · exact hend _ cm h
  · exact hloop cm h

end Functions

end MetaProtocolProxy
