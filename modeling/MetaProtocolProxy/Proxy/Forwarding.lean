import MetaProtocolProxy.Proxy.SharedConnections
/-
# The way of every request (active_message.cc, router_impl.cc, upstream_request.cc)

What becomes of a request that has been decoded, with the filters of the repository before the
router: it is written to an upstream connection, or rejected with a local reply, or it waits for a
connection the pool has been asked for, as long as the downstream connection is open
(`requests_are_forwarded`).

`onMessageDecoded` has no case for one-way messages, although `Router` and `UpstreamRequest` do:
such a message is deleted before a filter has seen it (`oneway_message_dropped`). A request waits
for ever on a handler that the pool refuses at once, and a reply that the codec throws an exception
for is not sent: these are the other conditions.
-/
namespace MetaProtocolProxy

variable {σ α : Type} {cfg : Config σ α} {cm cm₁ : ConnectionManager σ α} {m : MsgId}
    {S : Set MsgId} {B : Prop}

/-- The proxy has replied to the message itself. -/
def LocallyReplied (cm : ConnectionManager σ α) (m : MsgId) : Prop :=
  ∃ error bytes, Out.localReply m error bytes ∈ cm.out

def Answered (cm : ConnectionManager σ α) (m : MsgId) : Prop :=
  Written cm m ∨ LocallyReplied cm m ∨ cm.connectionOpen = false

/-- The pool has been asked for a connection, by the request or by the handler it waits on. -/
def Asked (cm : ConnectionManager σ α) (m : MsgId) : Prop :=
  ∃ ur, (cm.messages m).upstreamRequest = some ur ∧ ur.conn = none ∧
    (ur.handle = true ∨ ∃ h, ur.handler = some h ∧ h < cm.nextHandler ∧
      m ∈ (cm.handlers h).upstreamRequestCallbacks)

structure AwaitsPool (cm : ConnectionManager σ α) (m : MsgId) : Prop where
  listed : m ∈ cm.activeMessageList
  paused : (cm.messages m).pendingStreamDecoded = true
  asked : Asked cm m

/-- The codec encodes every local reply, or the exception is one that nobody catches. -/
def Config.CanReply (cfg : Config σ α) : Prop :=
  ∀ md error e, cfg.codec.onError md error = .error e → e.isEnvoyException = false

theorem Answered.mono (ha : Answered cm m) (h : Touches S B cm cm₁) : Answered cm₁ m := by
  refine ha.imp (Written.mono h.out) (Or.imp ?_ fun hclosed => ?_)
  · rintro ⟨error, bytes, hmem⟩
    exact ⟨error, bytes, h.out hmem⟩
  · exact Bool.eq_false_iff.2 fun hopen => by simp [h.connectionOpen hopen] at hclosed

theorem AwaitsPool.of_touches (hw : AwaitsPool cm m) (h : Touches S B cm cm₁) (hm : m ∉ S) :
    AwaitsPool cm₁ m := by
  obtain ⟨ur, hur, hconn, hasked⟩ := hw.asked
  refine ⟨h.stays m hm
    hw.listed, by rw [h.others m hm]; exact hw.paused, ur, by rw [h.others m hm]; exact hur, hconn, ?_⟩
  refine hasked.imp_right ?_
  rintro ⟨k, hk, hlt, hq⟩
  exact ⟨k, hk, Nat.lt_of_lt_of_le hlt h.nextHandler, h.queue k m hlt hm hq⟩

/-! ## Replies -/

theorem sendLocalReply_answered (hreply : cfg.CanReply) (error : Error)
    (hc : (sendLocalReply cfg cm m error).crashed = false) :
    Answered (sendLocalReply cfg cm m error) m := by
  simp only [sendLocalReply, ConnectionManager.modify] at hc ⊢
  cases hopen : cm.connectionOpen with
  | false => exact .inr (.inr (by simp [hopen]))
  | true =>
    simp only [hopen, if_true] at hc ⊢
    cases hr : cfg.codec.onError (cm.messages m).metadata error with
    | ok bytes => exact .inr (.inl ⟨error, bytes, List.mem_append_right _ List.mem_cons_self⟩)
    | error e => simp [hr, hreply _ _ _ hr, ConnectionManager.crash] at hc

theorem onUpstreamConnectionReset_answered (hreply : cfg.CanReply)
    (ht : (cm.messages m).metadata.messageType ≠ .oneway)
    (reason : PoolFailureReason) (hc : (onUpstreamConnectionReset cfg cm m reason).crashed = false) :
    Answered (onUpstreamConnectionReset cfg cm m reason) m := by
  simp only [onUpstreamConnectionReset] at hc ⊢
  split at hc
  · cases hc
  next ur _ =>
    simp only [ht, if_false] at hc ⊢
    split at hc
    next hcomplete =>
      rw [if_pos hcomplete]
      exact sendLocalReply_answered hreply _ hc
    next hcomplete =>
      rw [if_neg hcomplete]
      have hdel := (Settles.deferredDeleteMessage
        (sendLocalReply cfg cm m (resetError reason ur.host)) m).touches (B := False)
      exact (sendLocalReply_answered hreply _ (hdel.alive hc)).mono hdel

theorem onPoolFailure_answered (hreply : cfg.CanReply) (ht : (cm.messages m).metadata.messageType ≠ .oneway)
    (reason : PoolFailureReason) (host : String) (hc : (onPoolFailure cfg cm m reason host).crashed = false) :
    Answered (onPoolFailure cfg cm m reason host) m := by
  have h₁ := Touches.modifyRequest (B := False) cm m fun ur => { ur with handle := false, host := host }
  have hreset :=
    @onUpstreamConnectionReset_answered _ _ cfg (cm.modifyRequest m fun ur =>
      { ur with handle := false, host := host })
    m hreply (by rwa [h₁.messageType]) reason
  simp only [onPoolFailure] at hc ⊢
  generalize onUpstreamConnectionReset cfg _ m reason = cm₂ at hc hreset ⊢
  have h₂ : Touches {m} False cm₂ (if reason.isConnectionError then
      continueDecoding (cm₂.modifyRequest m fun ur => { ur with buffer := [] }) m
      else cm₂.modifyRequest m fun ur => { ur with buffer := [] }) := by
    have h := Touches.modifyRequest (B := False) cm₂ m fun ur => { ur with buffer := [] }
    split
    · exact h.trans (continueDecoding_settles _ m).touches
    · exact h
  exact (hreset (h₂.alive hc)).mono h₂

/-! ## The filters -/

structure NewRequest (cm : ConnectionManager σ α) (m : MsgId) : Prop where
  listed : m ∈ cm.activeMessageList
  kind : (cm.messages m).metadata.messageType = .request
  quiet : (cm.messages m).localResponseSent = false
  /-- No handler expects a response for it. -/
  fresh : ∀ h id, (id, m) ∉ (cm.handlers h).responseCallbacks

inductive RouteOutcome (m : MsgId) : Except Failure FilterStatus × ConnectionManager σ α → Prop
  | failed {e cm'} : RouteOutcome m (.error e, cm')
  | crashed {status cm'} (hc : cm'.crashed = true) : RouteOutcome m (.ok status, cm')
  | answered {status cm'} (ha : Answered cm' m) : RouteOutcome m (.ok status, cm')
  /-- The pool has yet to answer; if a handler expects a response, it is the one the request waits
on. -/
  | waits {cm'} (hlist : m ∈ cm'.activeMessageList) (hquiet :
      (cm'.messages m).localResponseSent = false) (hasked : Asked cm' m)
      (hentries : ∀ h id, (id, m) ∈ (cm'.handlers h).responseCallbacks →
        h < cm'.nextHandler ∧ m ∈ (cm'.handlers h).upstreamRequestCallbacks) :
          RouteOutcome m (.ok .pauseIteration, cm')

theorem RouteOutcome.of_answered {status : FilterStatus} (ha : cm.crashed = false → Answered cm m) :
    RouteOutcome m (.ok status, cm) := by
  cases hc : cm.crashed with
  | true => exact .crashed hc
  | false => exact .answered (ha hc)

theorem NewRequest.withMutation (hn : NewRequest cm m) (f : Mutation → Mutation) :
    NewRequest (cm.modify m fun a => { a with mutation := f a.mutation }) m := by
  refine ⟨hn.listed, ?_, ?_, hn.fresh⟩
  · rw [cm.messages_modify_self]
    exact hn.kind
  · rw [cm.messages_modify_self]
    exact hn.quiet

theorem startRequest_routeOutcome (hreply : cfg.CanReply) (hn : NewRequest cm m) (host : String)
    (pool : PoolAnswer) :
    RouteOutcome m (startRequest cfg (newUpstreamRequest cm m none) m host pool) := by
  have hreq : (newUpstreamRequest cm m none).messages m = { cm.messages m with
      upstreamRequest := some { buffer := (cm.messages m).metadata.originMessage }
      metadata := { (cm.messages m).metadata with originMessage := [] } } := cm.messages_modify_self m _
  unfold startRequest
  cases pool with
  | pending =>
    have hself : ((newUpstreamRequest cm m none).modifyRequest m fun ur =>
        { ur with handle := true }).messages m = { (newUpstreamRequest cm m none).messages m with
          upstreamRequest :=
            ((newUpstreamRequest cm m none).messages m).upstreamRequest.map fun ur =>
              { ur with handle := true } } :=
      ConnectionManager.messages_modify_self ..
    rw [hreq] at hself
    refine .waits hn.listed ?_ ⟨_, congrArg ActiveMessage.upstreamRequest hself, rfl, .inl rfl⟩
      fun h id he => absurd he (hn.fresh h id)
    rw [hself]
    exact hn.quiet
  | failure reason =>
    refine .of_answered (onPoolFailure_answered hreply ?_ reason host)
    rw [hreq]
    show (cm.messages m).metadata.messageType ≠ .oneway
    rw [hn.kind]
    decide
  | ready c =>
    dsimp only
    rcases hr : onPoolReady cfg (newUpstreamRequest cm m none) m c host with ⟨e | u, cm'⟩
    · exact .failed
    · exact .answered (.inl ((onPoolReady_touches cfg _ m c host fun _ => trivial).2 hr))

theorem startRequestByHandler_routeOutcome (hn : NewRequest cm m) {h : HandlerId}
    (hlt : h < cm.nextHandler) (id : Nat) :
    RouteOutcome m
      (startRequestByHandler cfg (newUpstreamRequest (addResponseCallback cm h id m) m (some h)) m h) := by
  unfold startRequestByHandler
  split
  · rcases hr : encodeDataByHandler cfg (newUpstreamRequest (addResponseCallback cm h id m) m
      (some h)) h m with ⟨e | u, cm'⟩
    · exact .failed
    · exact .answered (.inl (encodeDataByHandler_written cfg _ h hr))
  · have hself := (addResponseCallback cm h id m).messages_modify_self m fun a =>
      { a with
        upstreamRequest := some { handler := some h, buffer := a.metadata.originMessage }
        metadata := { a.metadata with originMessage := [] } }
    refine .waits hn.listed ?_ ⟨_, congrArg ActiveMessage.upstreamRequest hself, rfl,
      .inr ⟨h, rfl, hlt, ?_⟩⟩ fun k id' he => ?_
    · exact (congrArg ActiveMessage.localResponseSent hself).trans hn.quiet
    · rw [ConnectionManager.handlers_modifyHandler_self]
      exact List.mem_append_right _ List.mem_cons_self
    · -- the only entry of the request is the one it has just got
      have hk : k = h := by
        by_contra hk
        rw [ConnectionManager.handlers_modifyHandler_of_ne _ _ hk] at he
        have hother :=
          cm.handlers_modifyHandler_of_ne (fun hd => if (hd.responseCallbacks.lookup id).isSome then hd
          else { hd with responseCallbacks := (id, m) :: hd.responseCallbacks }) hk
        exact hn.fresh k id' (hother ▸ he)
      subst hk
      refine ⟨hlt, ?_⟩
      rw [ConnectionManager.handlers_modifyHandler_self]
      exact List.mem_append_right _ List.mem_cons_self

def Managed (cm : ConnectionManager σ α) : Prop :=
  ∀ {key h}, (key, h) ∈ cm.handlerManager → h < cm.nextHandler

theorem getUpstreamHandler_lt (hman : Managed cm) {clusterName : String} {env : RouterEnv} {h : HandlerId}
    (hok : getUpstreamHandler cfg cm clusterName env = .ok (h, cm₁)) : h < cm₁.nextHandler := by
  obtain ⟨cluster, host, -, -, ⟨hl, rfl⟩ | ⟨-, rfl, rfl⟩⟩ := getUpstreamHandler_cases cfg hok
  · exact hman (mem_of_lookup hl)
  · have hstart :=
      handlerStart_touches (B := False) cfg (withHandler cm { key := clusterName ++ "_" ++ host })
        cm.nextHandler
      (by simp [withHandler]) host env.pool
    exact hstart.nextHandler

theorem NewRequest.of_touches (hn : NewRequest cm m) (h : Touches ∅ B cm cm₁) : NewRequest cm₁ m where
  listed := h.stays m (Set.notMem_empty m) hn.listed
  kind := (h.messageType m).trans hn.kind
  quiet := by
    rw [h.others m (Set.notMem_empty m)]
    exact hn.quiet
  fresh k id he := (h.entries k id m he).elim (Set.notMem_empty m) (hn.fresh k id)

theorem routerDecoded_routeOutcome (hreply : cfg.CanReply)
    (hman : cfg.multiplexing = true → Managed cm) (hn : NewRequest cm m) (env : RouterEnv) :
    RouteOutcome m (routerDecoded cfg cm m env) := by
  unfold routerDecoded
  split
  · exact .of_answered (sendLocalReply_answered hreply _)
  next entry _ =>
    have hn₁ := hn.withMutation fun mutation => mutation.set entry.requestMutation
    simp only
    split
    next hmux =>
      split
      · exact .of_answered (sendLocalReply_answered hreply _)
      next h cm₂ hget =>
        have hman₁ : Managed (cm.modify m fun a =>
          { a with mutation := a.mutation.set entry.requestMutation }) := hman hmux
        exact startRequestByHandler_routeOutcome
          (hn₁.of_touches (getUpstreamHandler_touches (B := False) cfg hget))
            (getUpstreamHandler_lt hman₁ hget) _
    · split
      · exact .of_answered (sendLocalReply_answered hreply _)
      · exact startRequest_routeOutcome hreply hn₁ _ _

/-- What the filters of the repository answer: the rate limits continue, or reply and abort; the
others continue. -/
def DecoderVerdict.IsBuiltIn (v : DecoderVerdict) : Prop :=
  v.status = .continueIteration ∧ v.localReply = none ∨ v.status = .abortIteration ∧
    v.localReply.isSome = true

theorem decoderFilterLoop_routeOutcome (hreply : cfg.CanReply)
    (hman : cfg.multiplexing = true → Managed cm) (hn : NewRequest cm m)
    (env : RouterEnv) {filters : List DecoderVerdict} (hfilters : ∀ v ∈ filters, v.IsBuiltIn) :
    RouteOutcome m (decoderFilterLoop cfg cm m env filters) := by
  induction filters generalizing cm with
  | nil =>
    have h := routerDecoded_routeOutcome hreply hman hn env
    rw [decoderFilterLoop]
    generalize routerDecoded cfg cm m env = r at h ⊢
    cases h with
    | failed => exact .failed
    | crashed hc =>
      dsimp only
      split <;> exact .crashed hc
    | answered ha =>
      dsimp only
      split <;> exact .answered ha
    | waits hlist hquiet hasked hentries =>
      simp only [hquiet, Bool.false_eq_true, if_false]
      exact .waits hlist hquiet hasked hentries
  | cons v vs ih =>
    have hn₁ := hn.withMutation fun mutation => mutation.set v.mutation
    simp only [decoderFilterLoop]
    rcases hfilters v List.mem_cons_self with ⟨hst, hnone⟩ | ⟨-, hsome⟩
    · simp only [hnone, hn₁.quiet, Bool.false_eq_true, if_false, hst, if_true]
      exact ih hman hn₁ fun v' hv' => hfilters v' (List.mem_cons_of_mem v hv')
    · obtain ⟨error, herror⟩ := Option.isSome_iff_exists.1 hsome
      simp only [herror, sendLocalReply_sent, if_true]
      exact .of_answered (sendLocalReply_answered hreply _)

/-! ## The answers of the pool to a handler -/

/-- What a function makes true of each message it is applied to, and what later ones do not undo. -/
theorem Touches.foldl_all {P : ConnectionManager σ α → MsgId → Prop}
    {f : ConnectionManager σ α → MsgId → ConnectionManager σ α} {ms : List MsgId}
    (hmono : ∀ {S cm cm' i}, Touches S B cm cm' → P cm i → P cm' i)
    (hf : ∀ cm, ∀ i ∈ ms, Touches {i} B cm (f cm i))
    (hP : ∀ cm i, (f cm i).crashed = false → P (f cm i) i) (hc : (ms.foldl f cm).crashed = false) :
    ∀ i ∈ ms, P (ms.foldl f cm) i := by
  induction ms generalizing cm with
  | nil => exact fun i hi => absurd hi List.not_mem_nil
  | cons j ms ih =>
    intro i hi
    have hf' : ∀ cm, ∀ i ∈ ms, Touches {i} B cm (f cm i) := fun cm k hk => hf cm k (List.mem_cons_of_mem j hk)
    rcases List.mem_cons.1 hi with rfl | hi
    · have hrest := Touches.foldl hf' (f cm i)
      exact hmono hrest (hP cm i (hrest.alive hc))
    · exact ih hf' hc i hi

theorem handlerPoolReady_written {h : HandlerId} {c : ConnId} {host : String}
    (hc : (handlerPoolReady cfg cm h c host).crashed = false) :
    ∀ i ∈ (cm.handlers h).upstreamRequestCallbacks, Written (handlerPoolReady cfg cm h c host) i := by
  refine Touches.foldl_all (B := False)
    (P := Written) (fun ht hw => hw.mono ht.out) (fun cm i _ => ?_) (fun cm i hci => ?_) hc
  · split
    · exact .refl ..
    · exact (onPoolReadyByHandler_touches cfg cm h host i).1
  · split at hci
    next hcr => simp [hcr] at hci
    next hcr =>
      rw [if_neg hcr]
      exact (onPoolReadyByHandler_touches (B := False) cfg cm h host i).2 hci

theorem handlerPoolFailure_answered (hreply : cfg.CanReply) {h : HandlerId}
    {reason : PoolFailureReason} {host : String}
    (hc : (handlerPoolFailure cfg cm h reason host).crashed = false) :
    ∀ i ∈ (cm.handlers h).upstreamRequestCallbacks, (cm.messages i).metadata.messageType = .request →
      Answered (handlerPoolFailure cfg cm h reason host) i := by
  have hall := @Touches.foldl_all _ _
    ((cm.modifyHandler h fun hd => { hd with upstreamHandle := false }).delHandler (cm.handlers h).key)
    False (fun cm i => (cm.messages i).metadata.messageType = .request → Answered cm i)
    (fun cm m => onPoolFailure cfg cm m reason host) (cm.handlers h).upstreamRequestCallbacks
    (fun ht ha hreq => (ha ((ht.messageType _).symm.trans hreq)).mono ht)
    (fun cm i _ => (onPoolFailure_settles cfg cm i id reason host).touches) (fun cm i hci hreq => ?_) hc
  · intro i hi hreq
    have ht := (handlerPoolFailure_touches (B := False) cfg cm h reason host).messageType i
    exact hall i hi (ht.trans hreq)
  · refine onPoolFailure_answered hreply ?_ reason host hci
    rw [← ((onPoolFailure_settles cfg cm i id reason host).touches (B := False)).messageType, hreq]
    decide

/-! ## All requests -/

/-- Where the requests of a connection are, those in `X` apart. -/
structure Ledger (X : Set MsgId) (cm : ConnectionManager σ α) : Prop where
  listed : Listed cm
  served : ∀ m < cm.nextMessage, m ∉ X → (cm.messages m).metadata.messageType = .request →
    AwaitsPool cm m ∨ Answered cm m
  queued : ∀ {h i}, i ∈ (cm.handlers h).upstreamRequestCallbacks → i < cm.nextMessage
  expected : ∀ {h id i}, (id, i) ∈ (cm.handlers h).responseCallbacks → i < cm.nextMessage
  /-- The response a handler expects is for a request that has been written, or that waits on it. -/
  entries : ∀ {h id i}, (id, i) ∈ (cm.handlers h).responseCallbacks → i ∉ X →
    (cm.messages i).metadata.messageType = .request →
    Answered cm i ∨ h < cm.nextHandler ∧ i ∈ (cm.handlers h).upstreamRequestCallbacks

theorem ledger_init : Ledger ∅ ({} : ConnectionManager σ α) where
  listed := listed_init
  served m hm := absurd hm (Nat.not_lt_zero m)
  queued hi := absurd hi List.not_mem_nil
  expected hi := absurd hi List.not_mem_nil
  entries hi := absurd hi List.not_mem_nil

theorem Ledger.of_touches {X : Set MsgId} (hL : Ledger X cm) (h : Touches S B cm cm₁)
    (hlt : ∀ i ∈ S, i < cm.nextMessage)
    (hans : ∀ i ∈ S, i ∉ X → (cm.messages i).metadata.messageType = .request → Answered cm₁ i) :
    Ledger X cm₁ where
  listed := hL.listed.of_touches h
  served m hm hX hreq := by
    rw [h.nextMessage] at hm
    rw [h.messageType] at hreq
    by_cases hS : m ∈ S
    · exact .inr (hans m hS hX hreq)
    · exact (hL.served m hm hX hreq).imp (fun hw => hw.of_touches h hS) fun ha => ha.mono h
  queued {k i} hi := by
    rw [h.nextMessage]
    exact (h.queued k i hi).elim (hlt i) fun hi => hL.queued hi
  expected {k id i} he := by
    rw [h.nextMessage]
    exact (h.entries k id i he).elim (hlt i) fun he => hL.expected he
  entries {k id i} he hX hreq := by
    rw [h.messageType] at hreq
    by_cases hS : i ∈ S
    · exact .inl (hans i hS hX hreq)
    · refine (hL.entries ((h.entries k id i he).resolve_left hS) hX hreq).imp (fun ha => ha.mono h)
        fun hq => ?_
      exact ⟨Nat.lt_of_lt_of_le hq.1 h.nextHandler, h.queue k i hq.1 hS hq.2⟩

theorem Ledger.enlisted (hL : Ledger ∅ cm) (md : Metadata α) (encoders : List EncoderVerdict) :
    Ledger {cm.nextMessage} (enlisted cfg cm md encoders) where
  listed := hL.listed.enlisted cfg md encoders
  served i hi hne hreq := by
    have hsame := enlisted_other cfg cm md encoders hne
    have hlt : i < cm.nextMessage := Nat.lt_of_le_of_ne (Nat.le_of_lt_succ hi) hne
    rw [hsame] at hreq
    refine (hL.served i hlt (Set.notMem_empty i) hreq).imp_left fun hw => ?_
    obtain ⟨ur, hur, hasked⟩ := hw.asked
    exact ⟨List.mem_cons_of_mem _
      hw.listed, by rw [hsame]; exact hw.paused, ur, by rw [hsame]; exact hur, hasked⟩
  queued hi := Nat.lt_succ_of_lt (hL.queued hi)
  expected he := Nat.lt_succ_of_lt (hL.expected he)
  entries {h id i} he hne hreq := by
    rw [enlisted_other cfg cm md encoders hne] at hreq
    exact hL.entries he (Set.notMem_empty i) hreq

theorem Ledger.enter (hL : Ledger {m} cm) (hm : (cm.messages m).metadata.messageType = .request →
    (AwaitsPool cm m ∨ Answered cm m) ∧ ∀ h id, (id, m) ∈ (cm.handlers h).responseCallbacks →
      Answered cm m ∨ h < cm.nextHandler ∧ m ∈ (cm.handlers h).upstreamRequestCallbacks) : Ledger ∅ cm where
  listed := hL.listed
  served i hi _ hreq := by
    by_cases him : i = m
    · subst him
      exact (hm hreq).1
    · exact hL.served i hi him hreq
  queued := hL.queued
  expected := hL.expected
  entries {h id i} he _ hreq := by
    by_cases him : i = m
    · subst him
      exact (hm hreq).2 h id he
    · exact hL.entries he him hreq

structure Sound (cfg : Config σ α) (cm : ConnectionManager σ α) : Prop where
  shared : cfg.multiplexing = true → LinksWf cm
  direct : cfg.multiplexing = false → Wf cm

theorem sound_init : Sound cfg ({} : ConnectionManager σ α) where
  shared _ := linksWf_init
  direct _ := ⟨fun m => .of_request_none (fun h => by cases h) rfl, fun m _ => rfl, fun h => rfl⟩

theorem step_sound (hs : Sound cfg cm) {e : Event α} (hen : Enabled cm e)
    (henv : cfg.multiplexing = true → NotRefusedAtOnce cm e)
    (hc : (step cfg cm e).crashed = false) : Sound cfg (step cfg cm e) where
  shared hmux := step_linksWf hmux (hs.shared hmux) hen (henv hmux)
  direct hmux := ((step_stepped hmux (hs.direct hmux) hen).wf (hs.direct hmux)).resolve_left (by simp [hc])

/-- A request that the pool answers, or that has a connection of its own, is one of the messages. -/
theorem Sound.lt_of_request (hs : Sound cfg cm) {ur : UpstreamRequest}
    (hur : (cm.messages m).upstreamRequest = some ur)
    (hown : ur.handle = true ∨ ur.conn ≠ none) : m < cm.nextMessage := by
  cases hmux : cfg.multiplexing with
  | true =>
    have hshared := (hs.shared hmux).kept.shared hur
    rcases hown with hh | hconn
    · simp [hshared.handle] at hh
    · exact absurd hshared.conn hconn
  | false => exact (hs.direct hmux).lt_of_request hur

theorem Sound.managed (hs : Sound cfg cm) (hmux : cfg.multiplexing = true)
    (hc : cm.crashed = false) : Managed cm :=
  fun hkey => (((hs.shared hmux).wf hc).managed hkey).1

theorem Sound.queue_nil (hs : Sound cfg cm) (hc : cm.crashed = false) {h : HandlerId}
    (hconn : (cm.handlers h).conn.isSome = true) {i : MsgId} :
    i ∉ (cm.handlers h).upstreamRequestCallbacks := by
  intro hi
  cases hmux : cfg.multiplexing with
  | true =>
    have hsound := ((hs.shared hmux).wf hc).sound h
    have hready : (cm.handlers h).poolReady = false := (hsound.waits ⟨i, hi⟩).1
    have hconnected : (cm.handlers h).conn.isSome = (cm.handlers h).poolReady := hsound.connected
    simp [hconn, hready] at hconnected
  | false => simp [(hs.direct hmux).handlers h] at hi

theorem Ledger.answered_of_conn (hL : Ledger ∅ cm) (hm : m < cm.nextMessage) {ur : UpstreamRequest}
    (hur : (cm.messages m).upstreamRequest = some ur) (hconn : ur.conn ≠ none)
    (hreq : (cm.messages m).metadata.messageType = .request) : Answered cm m := by
  refine (hL.served m hm (Set.notMem_empty m) hreq).resolve_left fun hw => ?_
  obtain ⟨ur', hur', hnone, -⟩ := hw.asked
  obtain rfl := Option.some.inj (hur.symm.trans hur')
  exact hconn hnone

/-- The condition on the events: no message is one way, the filters are those of the repository, and
the pool does not refuse a handler before `newConnection` returns. -/
def Forwardable (cfg : Config σ α) (cm : ConnectionManager σ α) : Event α → Prop
  | .decoded md _ filters env =>
    md.messageType ≠ .oneway ∧ (∀ v ∈ filters, v.IsBuiltIn) ∧ (cfg.multiplexing = true → env.NotRefused cm)
  | .continueDecoding _ _ _ => False
  | _ => True

theorem served_answered (hreply : cfg.CanReply) (hL : Ledger ∅ cm) (hs : Sound cfg cm) {e : Event α}
    (hserv : e.IsService)
    (hen : Enabled cm e) (hfwd : Forwardable cfg cm e) (hc : (step cfg cm e).crashed = false) :
    ∀ i ∈ e.served cm, i < cm.nextMessage ∧
      ((cm.messages i).metadata.messageType = .request → Answered (step cfg cm e) i) := by
  have ht := step_touches cfg cm hserv
  obtain ⟨hcr, hen⟩ := hen
  intro i hi
  -- a request that has its connection was answered before, and stays so
  have hconnected : ∀ ur c, (cm.messages i).upstreamRequest = some ur → ur.conn = some c →
      i < cm.nextMessage ∧
          ((cm.messages i).metadata.messageType = .request → Answered (step cfg cm e) i) := by
    intro ur c hur hconn
    have hne : ur.conn ≠ none := by simp [hconn]
    have hlt := hs.lt_of_request hur (.inr hne)
    exact ⟨hlt, fun hreq => (hL.answered_of_conn hlt hur hne hreq).mono ht⟩
  cases e with
  | decoded md encoders filters env => exact hserv.elim
  | destroy m => exact hserv.elim
  | continueDecoding m filters env => exact hfwd.elim
  | poolReady m c host =>
    obtain rfl : i = m := hi
    obtain ⟨ur, hur, hh⟩ := hen
    refine ⟨hs.lt_of_request hur (.inl hh), fun _ => .inl ?_⟩
    simp only [step] at hc ⊢
    rcases hr : onPoolReady cfg cm i c host with ⟨e | u, cm'⟩
    · rw [hr] at hc
      cases hc
    · exact (onPoolReady_touches cfg cm i c host fun _ => trivial).2 hr
  | poolFailure m reason host =>
    obtain rfl : i = m := hi
    obtain ⟨ur, hur, hh⟩ := hen
    exact ⟨hs.lt_of_request hur (.inl hh), fun hreq =>
      onPoolFailure_answered hreply (by simp [hreq]) reason host hc⟩
  | upstreamData m data endStream =>
    obtain rfl : i = m := hi
    obtain ⟨-, ur, c, hur, hconn, -⟩ := hen
    exact hconnected ur c hur hconn
  | upstreamEvent m event =>
    obtain rfl : i = m := hi
    obtain ⟨-, ur, c, hur, hconn, -⟩ := hen
    exact hconnected ur c hur hconn
  | handlerPoolReady h c host => exact ⟨hL.queued hi, fun _ => .inl (handlerPoolReady_written hc i hi)⟩
  | handlerPoolFailure h reason host => exact ⟨hL.queued hi, handlerPoolFailure_answered hreply hc i hi⟩
  | handlerData h data garbage =>
    -- the handler has a connection, so the request does not wait on it
    obtain ⟨id, he⟩ := hi
    refine ⟨hL.expected he, fun hreq => Answered.mono ?_ ht⟩
    exact (hL.entries he (Set.notMem_empty i) hreq).resolve_right fun hq => hs.queue_nil hcr hen hq.2
  | handlerEvent h event => exact absurd hi (Set.notMem_empty i)
  | downstreamEvent event => exact ⟨hL.listed.known (List.mem_append_left _ hi), fun _ => .inr (.inr rfl)⟩
  | downstreamEnd => exact ⟨hL.listed.known (List.mem_append_left _ hi), fun _ => .inr (.inr rfl)⟩
  | idleTimeout => exact ⟨hL.listed.known (List.mem_append_left _ hi), fun _ => .inr (.inr rfl)⟩

/-! ## New messages -/

theorem decoded_request (hreply : cfg.CanReply) (hL : Ledger ∅ cm)
    (hman : cfg.multiplexing = true → Managed cm) {md : Metadata α}
    {encoders : List EncoderVerdict} {filters : List DecoderVerdict} {env : RouterEnv}
    (ht : md.messageType = .request)
    (hfilters : ∀ v ∈ filters, v.IsBuiltIn)
    (hc : (step cfg cm (.decoded md encoders filters env)).crashed = false) :
    Answered (step cfg cm (.decoded md encoders filters env)) cm.nextMessage ∨
      AwaitsPool (step cfg cm (.decoded md encoders filters env)) cm.nextMessage ∧
        ∀ h id, (id, cm.nextMessage) ∈ ((step cfg cm (.decoded md encoders filters env)).handlers
          h).responseCallbacks →
          h < (step cfg cm (.decoded md encoders filters env)).nextHandler ∧
            cm.nextMessage ∈ ((step cfg cm (.decoded md encoders filters env)).handlers
              h).upstreamRequestCallbacks := by
  have hself := enlisted_self cfg cm md encoders
  have hn : NewRequest (enlisted cfg cm md encoders) cm.nextMessage := by
    refine ⟨List.mem_cons_self, by rw [hself]; exact ht, by rw [hself], fun h id he => ?_⟩
    exact Nat.lt_irrefl _ (hL.expected he)
  have hman₁ : cfg.multiplexing = true → Managed (enlisted cfg cm md encoders) := hman
  have hrouted := decoderFilterLoop_routeOutcome hreply hman₁ hn env hfilters
  rw [step_decoded_filtered cfg cm md encoders filters env (by rw [ht]; rfl)] at hc ⊢
  have hadm : admitted cfg cm md encoders = enlisted cfg cm md encoders := if_neg (by simp [ht])
  rw [applyDecoderFilters, hadm, if_neg (by simp [hn.quiet])] at hc ⊢
  generalize decoderFilterLoop cfg _ cm.nextMessage env filters = r at hrouted hc ⊢
  cases hrouted with
  | @failed e cm₂ =>
    simp only [afterNew, dispatchFailed] at hc ⊢
    split at hc
    next he =>
      rw [if_pos he]
      exact .inl (.inr (.inr rfl))
    · cases hc
  | @crashed status cm₂ hcr =>
    have hafter := afterDecoderFilters_touches (B := False) cm₂ cm.nextMessage status
    simp [hafter.alive hc] at hcr
  | answered ha => exact .inl (ha.mono (afterDecoderFilters_touches (B := False) _ _ _))
  | @waits cm₂ hlist hquiet hasked hentries =>
    refine .inr ⟨⟨hlist, ?_, ?_⟩, hentries⟩
    · simp only [afterNew, afterDecoderFilters, cm₂.messages_modify_self]
    · obtain ⟨ur, hur, hrest⟩ := hasked
      refine ⟨ur, ?_, hrest⟩
      simp only [afterNew, afterDecoderFilters, cm₂.messages_modify_self]
      exact hur

theorem Ledger.decoded (hreply : cfg.CanReply) (hL : Ledger ∅ cm)
    (hman : cfg.multiplexing = true → Managed cm) {md : Metadata α}
    {encoders : List EncoderVerdict} {filters : List DecoderVerdict} {env : RouterEnv}
    (hfilters : ∀ v ∈ filters, v.IsBuiltIn)
    (hc : (step cfg cm (.decoded md encoders filters env)).crashed = false) :
    Ledger ∅ (step cfg cm (.decoded md encoders filters env)) := by
  obtain ⟨S, h, hS⟩ := decoded_touches cfg cm md encoders filters env
  have hnew := fun ht => @decoded_request _ _ cfg cm hreply hL hman md encoders filters env ht hfilters hc
  generalize step cfg cm (.decoded md encoders filters env) = cm' at h hS hnew ⊢
  refine ((hL.enlisted md encoders).of_touches h (fun i hi => ?_) fun i hi hne hreq => ?_).enter
    fun hreq => ?_
  · rcases hS with rfl | ⟨rfl, -, -⟩
    · exact (show i = cm.nextMessage from hi) ▸ Nat.lt_succ_self _
    · exact (hL.listed.enlisted cfg md encoders).known (List.mem_append_left _ hi)
  · rcases hS with rfl | ⟨-, hclosed, -⟩
    · exact absurd hi hne
    · exact .inr (.inr hclosed)
  · rw [h.messageType, enlisted_self] at hreq
    rcases hnew hreq with ha | ⟨hw, hentries⟩
    · exact ⟨.inr ha, fun _ _ _ => .inl ha⟩
    · exact ⟨.inl hw, fun k id he => .inr (hentries k id he)⟩

theorem Ledger.destroy (hL : Ledger ∅ cm) (hm : m ∈ cm.deferred) : Ledger ∅ (step cfg cm (.destroy m)) := by
  have h := onDestroy_touches (B := False) cfg cm m
  have hlt : m < cm.nextMessage := hL.listed.known (List.mem_append_right _ hm)
  have hL₁ : Ledger ∅ (onDestroy cfg cm m) := by
    refine hL.of_touches h (fun i hi => (show i = m from hi) ▸ hlt) fun i hi _ hreq => ?_
    obtain rfl : i = m := hi
    refine Answered.mono ((hL.served i hlt (Set.notMem_empty i) hreq).resolve_left fun hw => ?_) h
    exact (List.nodup_append.1 hL.listed.nodup).2.2 i hw.listed i hm rfl
  refine ⟨hL.listed.destroy cfg m, fun i hi hX hreq => ?_, hL₁.queued, hL₁.expected, hL₁.entries⟩
  exact (hL₁.served i hi hX hreq).imp_left fun hw => ⟨hw.listed, hw.paused, hw.asked⟩

theorem step_ledger (hreply : cfg.CanReply) (hL : Ledger ∅ cm) (hs : Sound cfg cm) {e : Event α}
    (hen : Enabled cm e)
    (hfwd : Forwardable cfg cm e) (hc : (step cfg cm e).crashed = false) : Ledger ∅ (step cfg cm e) := by
  obtain ⟨md, encoders, filters, env, rfl⟩ | ⟨m, rfl⟩ | hserv := e.new_or_destroy_or_service
  · exact hL.decoded hreply (fun hmux => hs.managed hmux hen.1) hfwd.2.1 hc
  · exact hL.destroy hen.2
  · have hans := served_answered hreply hL hs hserv hen hfwd hc
    exact hL.of_touches (step_touches cfg cm hserv) (fun i hi => (hans i hi).1) fun i hi _ hreq =>
      (hans i hi).2 hreq

/-! ## Runs -/

/-- The messages `applyDecoderFilters` is called for by an event: a new message of the right type,
and a message whose paused filter resumes. -/
def filtersApplied (cm : ConnectionManager σ α) : Event α → List MsgId
  | .decoded md _ _ _ => if md.messageType.isFiltered then [cm.nextMessage] else []
  | .continueDecoding m _ _ => [m]
  | _ => []

/-- What is logged is what the step does. For a message that is logged the state afterwards is what
one call of `applyDecoderFilters` leaves; for any other the step is the same whatever the filters
and the router would answer. -/
def LogsFilters (cfg : Config σ α) (cm : ConnectionManager σ α) : Event α → Prop
  | .decoded md encoders filters env =>
    filtersApplied cm (.decoded md encoders filters env) = [cm.nextMessage] ∧
        step cfg cm (.decoded md encoders filters env) =
          afterNew cm.nextMessage (applyDecoderFilters cfg (admitted cfg cm md encoders)
            cm.nextMessage filters env) ∨
      filtersApplied cm (.decoded md encoders filters env) = [] ∧
        ∀ filters' env', step cfg cm (.decoded md encoders filters' env') =
          step cfg cm (.decoded md encoders filters env)
  | .continueDecoding m filters env =>
    filtersApplied cm (.continueDecoding m filters env) = [m] ∧
      step cfg cm (.continueDecoding m filters env) = resumeFilters cfg cm m filters env
  | e => filtersApplied cm e = []

theorem step_logsFilters (cfg : Config σ α) (cm : ConnectionManager σ α) (e : Event α) :
    LogsFilters cfg cm e := by
  cases e with
  | decoded md encoders filters env =>
    cases ht : md.messageType.isFiltered with
    | true => exact .inl ⟨if_pos ht, step_decoded_filtered cfg cm md encoders filters env ht⟩
    | false =>
      refine .inr ⟨if_neg (by simp [ht]), fun filters' env' => ?_⟩
      rw [step_decoded_passed cfg cm md encoders filters' env' ht,
        step_decoded_passed cfg cm md encoders filters env ht]
  | continueDecoding m filters env => exact ⟨rfl, rfl⟩
  | _ => rfl

/-- The same for a run. -/
def filterRuns (cfg : Config σ α) : ConnectionManager σ α → List (Event α) → List MsgId
  | _, [] => []
  | cm, e :: es => filtersApplied cm e ++ filterRuns cfg (step cfg cm e) es

theorem filterRuns_concat (cfg : Config σ α) (cm : ConnectionManager σ α) (es : List (Event α))
    (e : Event α) :
    filterRuns cfg cm (es ++ [e]) = filterRuns cfg cm es ++ filtersApplied (Runs.run (step cfg) cm es) e := by
  induction es generalizing cm with
  | nil => simp [filterRuns]
  | cons e' es ih => simp only [List.cons_append, filterRuns, ih, Runs.run_cons, List.append_assoc]

structure Filtered (runs : List MsgId) (cm : ConnectionManager σ α) : Prop where
  known : ∀ m ∈ runs, m < cm.nextMessage
  once : ∀ m < cm.nextMessage, (cm.messages m).metadata.messageType.isFiltered = true → runs.count m = 1
  kind : ∀ m < cm.nextMessage, (cm.messages m).metadata.messageType ≠ .oneway

theorem Filtered.of_touches {runs : List MsgId} (hF : Filtered runs cm) (h : Touches S B cm cm₁) :
    Filtered runs cm₁ where
  known m hm := h.nextMessage ▸ hF.known m hm
  once m hm ht := hF.once m (h.nextMessage ▸ hm) (h.messageType m ▸ ht)
  kind m hm := h.messageType m ▸ hF.kind m (h.nextMessage ▸ hm)

theorem Filtered.enlisted {runs : List MsgId} (hF : Filtered runs cm) {md : Metadata α}
    (encoders : List EncoderVerdict) (hone : md.messageType ≠ .oneway) :
    Filtered (runs ++ if md.messageType.isFiltered then [cm.nextMessage] else [])
      (enlisted cfg cm md encoders) := by
  have hself : ((MetaProtocolProxy.enlisted cfg cm md encoders).messages
      cm.nextMessage).metadata.messageType = md.messageType := by
    rw [enlisted_self]
    rfl
  have hfresh : runs.count cm.nextMessage = 0 :=
    List.count_eq_zero.2 fun hm => Nat.lt_irrefl _ (hF.known _ hm)
  have hlt : ∀ m < cm.nextMessage + 1, m ≠ cm.nextMessage → m < cm.nextMessage :=
    fun m hm hne => Nat.lt_of_le_of_ne (Nat.le_of_lt_succ hm) hne
  refine ⟨fun m hm => ?_, fun m hm ht => ?_, fun m hm => ?_⟩
  · rcases List.mem_append.1 hm with hm | hm
    · exact Nat.lt_succ_of_lt (hF.known m hm)
    · split at hm
      · exact List.mem_singleton.1 hm ▸ Nat.lt_succ_self _
      · exact absurd hm List.not_mem_nil
  · rw [List.count_append]
    by_cases hm' : m = cm.nextMessage
    · subst hm'
      rw [hself] at ht
      rw [hfresh, if_pos ht, List.count_singleton_self]
    · rw [enlisted_other cfg cm md encoders hm'] at ht
      have hnone : (if md.messageType.isFiltered then [cm.nextMessage] else []).count m = 0 := by
        refine List.count_eq_zero.2 fun hmem => hm' ?_
        split at hmem
        · exact List.mem_singleton.1 hmem
        · exact absurd hmem List.not_mem_nil
      rw [hnone, hF.once m (hlt m hm hm') ht]
  · by_cases hm' : m = cm.nextMessage
    · subst hm'
      rwa [hself]
    · rw [enlisted_other cfg cm md encoders hm']
      exact hF.kind m (hlt m hm hm')

theorem step_filtered {runs : List MsgId} (hF : Filtered runs cm) {e : Event α}
    (hfwd : Forwardable cfg cm e) : Filtered (runs ++ filtersApplied cm e) (step cfg cm e) := by
  obtain ⟨md, encoders, filters, env, rfl⟩ | ⟨m, rfl⟩ | hserv := e.new_or_destroy_or_service
  · obtain ⟨S, h, -⟩ := decoded_touches cfg cm md encoders filters env
    exact (hF.enlisted encoders hfwd.1).of_touches h
  · have h := hF.of_touches (onDestroy_touches (B := False) cfg cm m)
    simp only [filtersApplied, List.append_nil]
    exact ⟨h.known, h.once, h.kind⟩
  · have hnone : filtersApplied cm e = [] := by
      cases e with
      | decoded => exact hserv.elim
      | continueDecoding => exact hfwd.elim
      | _ => rfl
    rw [hnone, List.append_nil]
    exact hF.of_touches (step_touches cfg cm hserv)

/-- The invariant of the runs, with the events so far. -/
structure Accounted (cfg : Config σ α) (past : List (Event α)) (cm : ConnectionManager σ α) : Prop where
  state : cm = Runs.run (step cfg) {} past
  filtered : Filtered (filterRuns cfg {} past) cm
  ledger : cm.crashed = false → Ledger ∅ cm
  sound : cm.crashed = false → Sound cfg cm

theorem accounted_init : Accounted cfg [] {} where
  state := rfl
  filtered := ⟨fun _ hm => absurd hm List.not_mem_nil, fun m hm => absurd hm (Nat.not_lt_zero m),
    fun m hm => absurd hm (Nat.not_lt_zero m)⟩
  ledger _ := ledger_init
  sound _ := sound_init

theorem step_accounted (hreply : cfg.CanReply) {past : List (Event α)} (hI : Accounted cfg past cm)
    {e : Event α} (hen : Enabled cm e)
    (hfwd : Forwardable cfg cm e) : Accounted cfg (past ++ [e]) (step cfg cm e) where
  state := by rw [Runs.run_append, ← hI.state, Runs.run_cons, Runs.run_nil]
  filtered := by
    rw [filterRuns_concat, ← hI.state]
    exact step_filtered hI.filtered hfwd
  ledger hc := step_ledger hreply (hI.ledger hen.1) (hI.sound hen.1) hen hfwd hc
  sound hc := by
    refine step_sound (hI.sound hen.1) hen (fun hmux => ?_) hc
    cases e with
    | decoded md encoders filters env => exact hfwd.2.2 hmux
    | continueDecoding m filters env => exact hfwd.elim
    | _ => trivial

/-- The pool has yet to answer, to the request itself or to the handler it waits on. -/
def PoolPending (cm : ConnectionManager σ α) (m : MsgId) : Prop :=
  m ∈ cm.activeMessageList ∧ (cm.messages m).pendingStreamDecoded = true ∧
    ∃ ur, (cm.messages m).upstreamRequest = some ur ∧
    (ur.handle = true ∨ ∃ h, ur.handler = some h ∧ m ∈ (cm.handlers h).upstreamRequestCallbacks ∧
      (cm.handlers h).upstreamHandle = true)

theorem AwaitsPool.pending (hw : AwaitsPool cm m) (hs : Sound cfg cm) (hc : cm.crashed = false) :
    PoolPending cm m := by
  obtain ⟨ur, hur, -, hasked⟩ := hw.asked
  refine ⟨hw.listed, hw.paused, ur, hur, hasked.imp_right ?_⟩
  rintro ⟨h, hh, -, hq⟩
  refine ⟨h, hh, hq, ?_⟩
  cases hmux : cfg.multiplexing with
  | true => exact ((((hs.shared hmux).wf hc).sound h).waits ⟨m, hq⟩).2
  | false => simp [(hs.direct hmux).handlers h] at hq

/-- In every run with the filters of the repository in which no message is one way and no handler is
refused at once, the filters run exactly once on every request, and in every state it has been
written to an upstream connection or rejected with a local reply, or it waits for the pool, as long
as the client is connected. -/
theorem requests_are_forwarded (cfg : Config σ α) (hreply : cfg.CanReply) (es : List (Event α))
    (hrun : Runs.Guarded (step cfg) (fun cm e => Enabled cm e ∧ Forwardable cfg cm e) {} es) (n : Nat)
    (hc : (Runs.run (step cfg) {} (es.take n)).crashed = false) (m : MsgId)
    (hm : m < (Runs.run (step cfg) {} (es.take n)).nextMessage)
    (ht : ((Runs.run (step cfg) {} (es.take n)).messages m).metadata.messageType = .request ∨
      ((Runs.run (step cfg) {} (es.take n)).messages m).metadata.messageType = .oneway) :
    (filterRuns cfg {} (es.take n)).count m = 1 ∧ (∀ cm e, LogsFilters cfg cm e) ∧
      (Written (Runs.run (step cfg) {} (es.take n)) m ∨
        LocallyReplied (Runs.run (step cfg) {} (es.take n)) m ∨
        PoolPending (Runs.run (step cfg) {} (es.take n)) m ∨
          (Runs.run (step cfg) {} (es.take n)).connectionOpen = false) := by
  have hI := hrun.history_take
    (I := Accounted cfg) (fun past cm e hI hg => step_accounted hreply hI hg.1 hg.2) accounted_init n
  generalize Runs.run (step cfg) {} (es.take n) = cm at hI hc hm ht ⊢
  have hreq := ht.resolve_right (hI.filtered.kind m hm)
  refine ⟨hI.filtered.once m hm (by rw [hreq]; rfl), step_logsFilters cfg, ?_⟩
  rcases (hI.ledger hc).served m hm (Set.notMem_empty m) hreq with hw | hw | hl | hclosed
  · exact .inr (.inr (.inl (hw.pending (hI.sound hc) hc)))
  · exact .inl hw
  · exact .inr (.inl hl)
  · exact .inr (.inr (.inr hclosed))

section Concrete

theorem trpcConfig_canReply : trpcConfig.CanReply := by
  intro md error e he
  simp only [trpcConfig, Trpc.trpcCodec, Trpc.onError] at he
  split at he <;> cases he

/-- A request for which the pool has a connection at once, behind a rate limit. -/
def limitedRequest (verdict : DecoderVerdict) : Event Unit :=
  .decoded { messageType := .request, requestId := 5 } [] [verdict]
    { route := some { clusterName := "c" }, cluster := some { host := some "h" }, pool := .ready 3 }

/-- One request passes the rate limit and one is rejected by it. -/
theorem requests_are_forwarded_limited :
    (filterRuns trpcConfig {} [limitedRequest {},
      limitedRequest ⟨.abortIteration, some ⟨.overLimit, ""⟩, []⟩]).count 1 = 1 ∧
      (∀ cm e, LogsFilters trpcConfig cm e) ∧
      (Written (Runs.run (step trpcConfig) {} [limitedRequest {},
        limitedRequest ⟨.abortIteration, some ⟨.overLimit, ""⟩, []⟩]) 1 ∨
        LocallyReplied (Runs.run (step trpcConfig) {}
          [limitedRequest {}, limitedRequest ⟨.abortIteration, some ⟨.overLimit, ""⟩, []⟩]) 1 ∨
        PoolPending (Runs.run (step trpcConfig) {}
          [limitedRequest {}, limitedRequest ⟨.abortIteration, some ⟨.overLimit, ""⟩, []⟩]) 1 ∨
        (Runs.run (step trpcConfig) {}
          [limitedRequest {}, limitedRequest ⟨.abortIteration, some ⟨.overLimit, ""⟩,
            []⟩]).connectionOpen = false) := by
  refine requests_are_forwarded trpcConfig trpcConfig_canReply
    [limitedRequest {}, limitedRequest ⟨.abortIteration, some ⟨.overLimit, ""⟩, []⟩] ?_ 2 rfl 1
      (by decide) (.inl rfl)
  have hmux : trpcConfig.multiplexing ≠ true := by decide
  refine ⟨⟨⟨rfl, trivial⟩, by decide, fun v hv => ?_, fun h => absurd h hmux⟩,
    ⟨⟨rfl, trivial⟩, by decide, fun v hv => ?_, fun h => absurd h hmux⟩, trivial⟩
  · exact List.mem_singleton.1 hv ▸ .inl ⟨rfl, rfl⟩
  · exact List.mem_singleton.1 hv ▸ .inr ⟨rfl, rfl⟩

/-- A one-way message for which the pool has a connection at once. -/
def onewayMessage : Event Unit :=
  .decoded { messageType := .oneway } [] []
    { route := some { clusterName := "c" }, cluster := some { host := some "h" }, pool := .ready 3 }

/-- A one-way message is deleted before any filter runs on it, although there is a route and a
connection: nothing is written upstream and nothing is replied. -/
theorem oneway_message_dropped :
    Runs.Guarded (step trpcConfig) Enabled {} [onewayMessage] ∧
      (Runs.run (step trpcConfig) {} [onewayMessage]).crashed = false ∧
      (Runs.run (step trpcConfig) {} [onewayMessage]).connectionOpen = true ∧
      0 < (Runs.run (step trpcConfig) {} [onewayMessage]).nextMessage ∧
      ((Runs.run (step trpcConfig) {} [onewayMessage]).messages 0).metadata.messageType = .oneway ∧
      (Runs.run (step trpcConfig) {} [onewayMessage]).deferred = [0] ∧
      (∀ filters env, step trpcConfig {} (.decoded { messageType := .oneway } [] filters env) =
        step trpcConfig {} onewayMessage) ∧
      ¬ ((filterRuns trpcConfig {} [onewayMessage]).count 0 = 1 ∧
        (Written (Runs.run (step trpcConfig) {} [onewayMessage]) 0 ∨
          LocallyReplied (Runs.run (step trpcConfig) {} [onewayMessage]) 0 ∨
          PoolPending (Runs.run (step trpcConfig) {} [onewayMessage]) 0 ∨
          (Runs.run (step trpcConfig) {} [onewayMessage]).connectionOpen = false)) := by
  refine ⟨⟨⟨rfl, trivial⟩, trivial⟩, rfl, rfl, by decide, rfl, rfl, fun _ _ => rfl, fun h => ?_⟩
  have hnone : filterRuns trpcConfig {} [onewayMessage] = [] := rfl
  simp [hnone] at h

end Concrete

end MetaProtocolProxy
