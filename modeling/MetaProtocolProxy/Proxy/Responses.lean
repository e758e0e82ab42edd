import MetaProtocolProxy.Proxy.Effects
/-
# What bytes of an upstream connection lead to (active_message.cc, router_impl.cc)

`Router::onUpstreamData` for a request that holds a connection of its own. The response is decoded
by the message's response decoder, forwarded, compared with the request's id, and the router acts on
the status. What one call of the response decoder does follows from how its drain ends: it waits, it
hands over a response, or the codec throws (`onData_quiet`, `onData_done`, `onData_threw`).
`DataOutcome` lists the ways this can go, and `onUpstreamData_outcome` says that there are no
others.

A caught exception leads to two local replies on an open downstream connection: one by
`ActiveMessage::onError`, one by the close event of the upstream connection.
-/
namespace MetaProtocolProxy

variable {σ α : Type}

/-- The response as it is written to an open downstream connection: nothing if an encoder filter
stops it, otherwise with the server's address and as the codec encodes it. -/
def forwarded (cfg : Config σ α) (a : ActiveMessage σ α) (md : Metadata α) :
    Except Failure (Option (Metadata α × Bytes)) :=
  match encoderFilters a [] with
  | (.continueIteration, mutation) =>
    match a.metadata.getString realServerAddress with
    | .error e => .error e
    | .ok address =>
      let md := md.putString realServerAddress address
      match cfg.codec.encode md mutation md.originMessage with
      | .error e => .error e
      | .ok bytes => .ok (some (md, bytes))
  | _ => .ok none

section Responses

variable (cfg : Config σ α) {cm : ConnectionManager σ α} {m : MsgId} {a : ActiveMessage σ α}
  {d : ActiveResponseDecoder σ α} {md : Metadata α}

/-- What becomes of the response: it is forwarded on an open connection, or it is dropped. -/
def Forwards (cfg : Config σ α) (connectionOpen : Bool) (a : ActiveMessage σ α) (md : Metadata α)
    (r : Option (Metadata α × Bytes)) : Prop :=
  r = none ∨ connectionOpen = true ∧ forwarded cfg a md = .ok r

def responseOuts (m : MsgId) : Option (Metadata α × Bytes) → List (Out α)
  | none => []
  | some (md, bytes) => [.response m md bytes]

theorem responseDecoded_open (ha : cm.messages m = a) (hd : a.responseDecoder = some d)
    (hopen : cm.connectionOpen = true) (md : Metadata α) :
    match forwarded cfg a md with
    | .error e => (responseDecoded cfg cm m md []).1 = .error e ∧
        Effect cm m (a.withDecoder (some { d with metadata := some md })) []
          (responseDecoded cfg cm m md []).2
    | .ok r => (responseDecoded cfg cm m md []).1 = .ok () ∧
        Effect cm m (a.withDecoder (some { d with metadata := some md, responseStatus := .complete }))
          (responseOuts m r) (responseDecoded cfg cm m md []).2 := by
  have h : Effect cm m (a.withDecoder (some { d with metadata := some md })) []
      (cm.modifyDecoder m fun d => { d with metadata := some md }) :=
    Effect.modifyDecoder ha hd rfl
  have hopen₁ : (cm.modifyDecoder m fun d => { d with metadata := some md }).connectionOpen = true :=
    h.connectionOpen.trans hopen
  have hdone : ∀ {cm₁ : ConnectionManager σ α} {os : List (Out α)},
      Effect cm m (a.withDecoder (some { d with metadata := some md })) os cm₁ →
      Effect cm m (a.withDecoder (some { d with metadata := some md, responseStatus := .complete })) os
        (cm₁.modifyDecoder m fun d => { d with responseStatus := .complete }) :=
    fun he => he.trans_nil (Effect.modifyDecoder he.self rfl rfl)
  unfold forwarded responseDecoded
  simp only [ha]
  rcases hf : encoderFilters a [] with ⟨status, mutation⟩
  cases status with
  | continueIteration =>
    simp only [hopen₁, Bool.not_true, Bool.false_eq_true, if_false]
    cases a.metadata.getString realServerAddress with
    | error e => exact ⟨rfl, h⟩
    | ok address =>
      simp only
      cases cfg.codec.encode (md.putString realServerAddress address) mutation
          (md.putString realServerAddress address).originMessage with
      | error e => exact ⟨rfl, h⟩
      | ok bytes => exact ⟨rfl, hdone (h.trans (Effect.emit h.self _))⟩
  | pauseIteration => exact ⟨rfl, hdone h⟩
  | abortIteration => exact ⟨rfl, hdone h⟩
  | retry => exact ⟨rfl, hdone h⟩

theorem responseDecoded_closed (ha : cm.messages m = a) (hd : a.responseDecoder = some d)
    (hopen : cm.connectionOpen = false) (md : Metadata α) :
    ((responseDecoded cfg cm m md []).1 =
      .error (.downstreamConnectionClose "Downstream has closed or closing") ∧
        Effect cm m (a.withDecoder (some { d with metadata := some md })) []
      (responseDecoded cfg cm m md []).2) ∨ ((responseDecoded cfg cm m md []).1 = .ok () ∧
        Effect cm m (a.withDecoder (some { d with metadata := some md, responseStatus := .complete })) []
          (responseDecoded cfg cm m md []).2) := by
  have h : Effect cm m (a.withDecoder (some { d with metadata := some md })) []
      (cm.modifyDecoder m fun d => { d with metadata := some md }) :=
    Effect.modifyDecoder ha hd rfl
  have hopen₁ : (cm.modifyDecoder m fun d => { d with metadata := some md }).connectionOpen = false :=
    h.connectionOpen.trans hopen
  unfold responseDecoded
  simp only [ha]
  rcases hf : encoderFilters a [] with ⟨status, mutation⟩
  cases status with
  | continueIteration =>
    simp only [hopen₁, Bool.not_false, if_true]
    exact .inl ⟨trivial, h⟩
  | pauseIteration | abortIteration | retry =>
      exact .inr ⟨rfl, h.trans_nil (Effect.modifyDecoder h.self rfl rfl)⟩

/-- After a caught exception: at most one reply, and the upstream request is to be reset. -/
def ResetBy (cm : ConnectionManager σ α) (m : MsgId) (a : ActiveMessage σ α)
    (r : ConnectionManager σ α × Option UpstreamResponseStatus) : Prop :=
  ∃ a₁ os, (a₁ = a ∨ a₁ = a.replied) ∧ LocalReply cm.connectionOpen m os ∧
    r.2 = some .reset ∧ Effect cm m a₁ os r.1

def Thrown (cm : ConnectionManager σ α) (m : MsgId) (a : ActiveMessage σ α)
    (r : ConnectionManager σ α × Option UpstreamResponseStatus) : Prop :=
  ResetBy cm m a r ∨ (r.2 = none ∧ r.1.crashed = true ∧ Effect cm m a [] r.1)

theorem Effect.thrown {cm₁ : ConnectionManager σ α} {a' : ActiveMessage σ α}
    {r : ConnectionManager σ α × Option UpstreamResponseStatus} (h : Effect cm m a [] cm₁)
    (ht : Thrown cm₁ m a' r) : Thrown cm m a' r := by
  rcases ht with ⟨a₁, os, ha₁, hos, hst, he⟩ | ⟨hst, hcrash, he⟩
  · exact .inl ⟨a₁, os, ha₁, h.connectionOpen ▸ hos, hst, by simpa using h.trans he⟩
  · exact .inr ⟨hst, hcrash, h.trans_nil he⟩

theorem caught_envoyException (ha : cm.messages m = a) (what : String) :
    ResetBy cm m a (caught cfg cm m (.envoyException what)) := by
  obtain ⟨os, hos, he⟩ := onError_effect cfg ha what
  exact ⟨a.replied, os, .inr rfl, hos, rfl, he⟩

/-- An exception that is no `EnvoyException` ends the process. -/
theorem caught_of_not_envoyException {e : Failure} (he : e.isEnvoyException = false) :
    caught cfg cm m e = (cm.crash, none) := by
  cases e with
  | envoyException what | downstreamConnectionClose what => exact absurd he Bool.noConfusion
  | badAnyCast | nullDereference what | panicked what => rfl

theorem caught_effect (ha : cm.messages m = a) (e : Failure) : Thrown cm m a (caught cfg cm m e) := by
  cases e with
  | downstreamConnectionClose what =>
    exact .inl ⟨a, [], .inl rfl, .inl rfl, rfl, Effect.deferredDeleteMessage ha m⟩
  | envoyException what => exact .inl (caught_envoyException cfg ha what)
  | badAnyCast => exact .inr ⟨rfl, rfl, Effect.crash ha⟩
  | nullDereference what | panicked what => exact .inr ⟨rfl, rfl, Effect.crash ha⟩

def Quiet (cfg : Config σ α) (s : σ) (data : Bytes) (s' : σ) (rest : Bytes) : Prop :=
  cfg.codec.decodeAs .response s data = .wait s' rest ∨
    ∃ md, cfg.codec.decodeAs .response s data = .done s' md rest ∧ md.messageType = .heartbeat

variable {s' : σ} {data rest : Bytes}

def ActiveResponseDecoder.stored (d : ActiveResponseDecoder σ α) (s : σ) (dec : DecoderBase) :
    ActiveResponseDecoder σ α :=
  { d with codec := s, decoder := dec }

/-- `ActiveResponseDecoder::onData` (active_message.cc:25-41), with what it leaves unread. -/
def ActiveResponseDecoder.onData (cfg : Config σ α) (cm : ConnectionManager σ α) (m : MsgId)
    (d : ActiveResponseDecoder σ α)
    (data : Bytes) : Except Failure UpstreamResponseStatus × ConnectionManager σ α × Bytes :=
  let r := d.decoder.onData cfg.codec .response (responseDelegate cfg m) d.codec cm data
  let cm := r.world.modifyDecoder m fun d => { d with codec := r.codec, decoder := r.decoder }
  let status := ((cm.messages m).responseDecoder.map (·.responseStatus)).getD d.responseStatus
  (r.result.map fun _ => status, cm, r.buffer)

/-- `ActiveMessage::upstreamData` acts on what the decoder returned or threw. -/
theorem upstreamData_onData (hd : (cm.messages m).responseDecoder = some d) (data : Bytes) :
    upstreamData cfg cm m data =
      ((match (d.onData cfg cm m data).1 with
        | .ok _ => afterDecode cfg (d.onData cfg cm m data).2.1 m
        | .error e => caught cfg (d.onData cfg cm m data).2.1 m e), (d.onData cfg cm m data).2.2) := by
  simp only [upstreamData, hd, ActiveResponseDecoder.onData]
  generalize d.decoder.onData cfg.codec .response (responseDelegate cfg m) d.codec cm data = r
  cases r.result <;> rfl

theorem onData_of_ran {d₁ : ActiveResponseDecoder σ α} {os : List (Out α)} {u : Except Failure Bool}
    {dec : DecoderBase} {cm₀ : ConnectionManager σ α}
    (hran : d.decoder.onData cfg.codec .response (responseDelegate cfg m) d.codec cm data =
      ⟨u, dec, s', cm₀, rest⟩)
    (he : Effect cm m (a.withDecoder (some d₁)) os cm₀) :
    ∃ cm₁, d.onData cfg cm m data = (u.map fun _ => d₁.responseStatus, cm₁, rest) ∧
      Effect cm m (a.withDecoder (some (d₁.stored s' dec))) os cm₁ := by
  have he₁ : Effect cm m (a.withDecoder (some (d₁.stored s' dec))) os
      (cm₀.modifyDecoder m fun d => { d with codec := s', decoder := dec }) :=
    he.trans_nil (Effect.modifyDecoder he.self rfl rfl)
  refine ⟨_, ?_, he₁⟩
  simp only [ActiveResponseDecoder.onData, hran, he₁.self,
    ActiveMessage.withDecoder_responseDecoder, Option.map_some,
    Option.getD_some, ActiveResponseDecoder.stored]

theorem Effect.decoder_refl (ha : cm.messages m = a) (hd : a.responseDecoder = some d) :
    Effect cm m (a.withDecoder (some d)) [] cm :=
  Effect.refl (by rw [ha, ← hd]; rfl)

theorem onData_quiet (ha : cm.messages m = a) (hd : a.responseDecoder = some d)
    (hq : Quiet cfg d.codec data s' rest) :
    ∃ dec cm₁, d.onData cfg cm m data = (.ok d.responseStatus, cm₁, rest) ∧
      Effect cm m (a.withDecoder (some (d.stored s' dec))) [] cm₁ := by
  rcases hq with h | ⟨md, h, hb⟩
  · exact ⟨_, onData_of_ran cfg (DecoderBase.onData_wait h) (Effect.decoder_refl ha hd)⟩
  · exact ⟨_, onData_of_ran cfg (DecoderBase.onData_heartbeat h hb rfl) (Effect.decoder_refl ha hd)⟩

section Message

variable {d₁ : ActiveResponseDecoder σ α} {os : List (Out α)} {e : Failure}

theorem onData_done (h : cfg.codec.decodeAs .response d.codec data = .done s' md rest)
    (hb : md.messageType ≠ .heartbeat) (hr : (responseDecoded cfg cm m md []).1 = .ok ())
    (he : Effect cm m (a.withDecoder (some d₁)) os (responseDecoded cfg cm m md []).2) :
    ∃ cm₁, d.onData cfg cm m data = (.ok d₁.responseStatus, cm₁, rest) ∧
      Effect cm m (a.withDecoder (some (d₁.stored s' {}))) os cm₁ := by
  have hran : d.decoder.onData cfg.codec .response (responseDelegate cfg m) d.codec cm data =
      ⟨.ok rest.isEmpty, {}, s', (responseDecoded cfg cm m md []).2, rest⟩ := by
    rw [DecoderBase.onData_message h hb]
    simp only [responseDelegate]
    rw [show responseDecoded cfg cm m md [] = (.ok (), (responseDecoded cfg cm m md []).2)
      from Prod.ext hr rfl]
  exact onData_of_ran cfg hran he

theorem onData_threw (h : cfg.codec.decodeAs .response d.codec data = .done s' md rest)
    (hb : md.messageType ≠ .heartbeat) (hr : (responseDecoded cfg cm m md []).1 = .error e)
    (he : Effect cm m (a.withDecoder (some d₁)) os (responseDecoded cfg cm m md []).2) :
    ∃ cm₁, d.onData cfg cm m data = (.error e, cm₁, rest) ∧
      Effect cm m (a.withDecoder (some (d₁.stored s' d.decoder.started))) os cm₁ := by
  have hran : d.decoder.onData cfg.codec .response (responseDelegate cfg m) d.codec cm data =
      ⟨.error e, d.decoder.started, s', (responseDecoded cfg cm m md []).2, rest⟩ := by
    rw [DecoderBase.onData_message h hb]
    simp only [responseDelegate]
    rw [show responseDecoded cfg cm m md [] = (.error e, (responseDecoded cfg cm m md []).2)
      from Prod.ext hr rfl]
  exact onData_of_ran cfg hran he

theorem upstreamData_quiet (ha : cm.messages m = a) (hd : a.responseDecoder = some d)
    (hst : d.responseStatus = .moreData) (hq : Quiet cfg d.codec data s' rest) :
    ∃ dec, (upstreamData cfg cm m data).1.2 = some .moreData ∧ (upstreamData cfg cm m data).2 = rest ∧
      Effect cm m (a.withDecoder (some (d.stored s' dec))) [] (upstreamData cfg cm m data).1.1 := by
  obtain ⟨dec, cm₁, hon, he⟩ := onData_quiet cfg ha hd hq
  have hst' : (d.stored s' dec).responseStatus = .moreData := hst
  rw [upstreamData_onData cfg (by rw [ha, hd]), hon]
  refine ⟨dec, ?_⟩
  simp only [afterDecode, he.self, ActiveMessage.withDecoder_responseDecoder, hst', reduceCtorEq,
    if_false, true_and]
  exact he

theorem upstreamData_fail (ha : cm.messages m = a) (hd : a.responseDecoder = some d)
    (h : cfg.codec.decodeAs .response d.codec data = .fail s' rest e) :
    Thrown cm m (a.withDecoder (some (d.stored s' d.decoder.started))) (upstreamData cfg cm m data).1 := by
  obtain ⟨cm₁, hon, he⟩ := onData_of_ran cfg (DecoderBase.onData_fail h) (Effect.decoder_refl ha hd)
  rw [upstreamData_onData cfg (by rw [ha, hd]), hon]
  exact he.thrown (caught_effect cfg he.self e)

/-- An exception while the response is forwarded reaches the `catch` clauses. -/
theorem upstreamData_caught (ha : cm.messages m = a) (hd : a.responseDecoder = some d)
    (h : cfg.codec.decodeAs .response d.codec data = .done s' md rest)
    (hb : md.messageType ≠ .heartbeat) (hr : (responseDecoded cfg cm m md []).1 = .error e)
    (he : Effect cm m (a.withDecoder (some d₁)) [] (responseDecoded cfg cm m md []).2) :
    ∃ cm₁, Effect cm m (a.withDecoder (some (d₁.stored s' d.decoder.started))) [] cm₁ ∧
      (upstreamData cfg cm m data).1 = caught cfg cm₁ m e := by
  obtain ⟨cm₁, hon, he₁⟩ := onData_threw cfg h hb hr he
  refine ⟨cm₁, he₁, ?_⟩
  rw [upstreamData_onData cfg (by rw [ha, hd]), hon]

theorem upstreamData_throws (ha : cm.messages m = a) (hd : a.responseDecoder = some d)
    (h : cfg.codec.decodeAs .response d.codec data = .done s' md rest)
    (hb : md.messageType ≠ .heartbeat) (hr : (responseDecoded cfg cm m md []).1 = .error e)
    (he : Effect cm m (a.withDecoder (some d₁)) [] (responseDecoded cfg cm m md []).2) :
    Thrown cm m (a.withDecoder (some (d₁.stored s' d.decoder.started))) (upstreamData cfg cm m data).1 := by
  obtain ⟨cm₁, he₁, heq⟩ := upstreamData_caught cfg ha hd h hb hr he
  rw [heq]
  exact he₁.thrown (caught_effect cfg he₁.self e)

theorem upstreamData_answers (ha : cm.messages m = a) (hd : a.responseDecoder = some d)
    (h : cfg.codec.decodeAs .response d.codec data = .done s' md rest) (hb : md.messageType ≠ .heartbeat)
    (hr : (responseDecoded cfg cm m md []).1 = .ok ())
    (he : Effect cm m (a.withDecoder (some d₁)) os (responseDecoded cfg cm m md []).2)
    (hst : d₁.responseStatus = .complete) (hmd : d₁.metadata = some md) :
    if a.metadata.requestId = md.requestId then
      (upstreamData cfg cm m data).1.2 = some .complete ∧ (upstreamData cfg cm m data).2 = rest ∧
        Effect cm m (a.withDecoder (some (d₁.stored s' {}))) os (upstreamData cfg cm m data).1.1
    else
      ∃ cm₁, Effect cm m (a.withDecoder (some (d₁.stored s' {}))) os cm₁ ∧
        ResetBy cm₁ m (a.withDecoder (some (d₁.stored s' {}))) (upstreamData cfg cm m data).1 := by
  obtain ⟨cm₁, hon, he₁⟩ := onData_done cfg h hb hr he
  have hst' : (d₁.stored s' {}).responseStatus = .complete := hst
  have hmd' : (d₁.stored s' {}).metadata = some md := hmd
  rw [upstreamData_onData cfg (by rw [ha, hd]), hon]
  simp only [afterDecode, he₁.self, ActiveMessage.withDecoder_responseDecoder,
    ActiveMessage.withDecoder_metadata, hst', hmd', if_true, Option.map_some, Option.getD_some]
  by_cases hid : a.metadata.requestId = md.requestId
  · simp only [hid, if_true, ne_eq, not_true, if_false, true_and]
    exact he₁.trans_nil (Effect.deferredDeleteMessage he₁.self m)
  · simp only [hid, if_false, ne_eq, not_false_eq_true, if_true]
    exact ⟨_, he₁, caught_envoyException cfg he₁.self _⟩

end Message

end Responses

/-! ## Bytes of an upstream connection -/

section UpstreamBytes

variable {cfg : Config σ α} {cm : ConnectionManager σ α} {m : MsgId} {a : ActiveMessage σ α}
  {d : ActiveResponseDecoder σ α} {ur : UpstreamRequest} {c : ConnId} {data : Bytes} {endStream : Bool}

/-- Why a response is not the end of its request on an open connection: it cannot be decoded, it
cannot be forwarded, or it has the id of another request. -/
def Rejected (cfg : Config σ α) (a : ActiveMessage σ α) (s : σ) (data : Bytes) : Prop :=
  match cfg.codec.decodeAs .response s data with
  | .wait _ _ => False
  | .fail _ _ _ => True
  | .done _ md _ =>
    md.messageType ≠ .heartbeat ∧ ((∃ e, forwarded cfg a md = .error e) ∨ a.metadata.requestId ≠ md.requestId)

/-- What bytes of the upstream connection `c` lead to, for a request whose response decoder is
`d`. -/
inductive DataOutcome (cfg : Config σ α) (cm : ConnectionManager σ α) (m : MsgId) (a : ActiveMessage σ α)
    (d : ActiveResponseDecoder σ α) (ur : UpstreamRequest) (c : ConnId) (data : Bytes) (endStream : Bool) :
    ConnectionManager σ α → Bytes → Prop
  /-- No response yet. -/
  | more {s' rest dec cm'} (hq : Quiet cfg d.codec data s' rest) (hend : endStream = false)
      (he : Effect cm m (a.withDecoder (some (d.stored s' dec))) [] cm') :
      DataOutcome cfg cm m a d ur c data endStream cm' rest
  /-- No response, and none will come. -/
  | ended {s' rest dec os cm'} (hend : endStream = true) (hos : LocalReply cm.connectionOpen m os)
      (he : Effect cm m ((a.withDecoder (some (d.stored s' dec))).replied.withRequest none)
        (os ++ [.released c]) cm') :
      DataOutcome cfg cm m a d ur c data endStream cm' rest
  /-- The response ends the request. -/
  | complete {s' md rest r d' cm'} (hdec : cfg.codec.decodeAs .response d.codec data = .done s' md rest)
      (hr : Forwards cfg cm.connectionOpen a md r)
      (he : Effect cm m ((a.withDecoder (some d')).withRequest none)
        (responseOuts m r ++ [.released c]) cm') :
      DataOutcome cfg cm m a d ur c data endStream cm' rest
  /-- The connection is closed, possibly after the response has been written. -/
  | reset {rest r d' os₁ os₂ cm'} (hwhy : cm.connectionOpen = true → Rejected cfg a d.codec data)
      (hr : r = none ∨ ∃ s' md rest, cfg.codec.decodeAs .response d.codec data = .done s' md rest ∧
        Forwards cfg cm.connectionOpen a md r)
      (hos₁ : LocalReply cm.connectionOpen m os₁) (hos₂ : LocalReply cm.connectionOpen m os₂)
      (he : Effect cm m ((a.withDecoder (some d')).withRequest (some ur.dropped)).replied
        (responseOuts m r ++ os₁ ++ .upstreamClosed c :: os₂) cm') :
      DataOutcome cfg cm m a d ur c data endStream cm' rest
  /-- The process is gone. -/
  | crashed {rest d' cm'} (hcrash : cm'.crashed = true) (he : Effect cm m (a.withDecoder (some d')) [] cm') :
      DataOutcome cfg cm m a d ur c data endStream cm' rest

/-- A caught exception closes the connection, and the close event makes another reply. -/
theorem onUpstreamStatus_reset (cfg : Config σ α) (endStream : Bool)
    {r : ConnectionManager σ α × Option UpstreamResponseStatus} (hr : ResetBy cm m a r)
    (hur : a.upstreamRequest = some ur) (hh : ur.handler = none) (ht : a.metadata.messageType ≠ .oneway)
    (hc : ur.conn = some c) :
    ∃ os₁ os₂, LocalReply cm.connectionOpen m os₁ ∧ LocalReply cm.connectionOpen m os₂ ∧
      Effect cm m (a.withRequest (some ur.dropped)).replied (os₁ ++ .upstreamClosed c :: os₂)
        (onUpstreamStatus cfg r.1 m endStream r.2) := by
  obtain ⟨a₁, os₁, ha₁, hos₁, hst, he₁⟩ := hr
  have hur₁ : a₁.upstreamRequest = some ur := by rcases ha₁ with rfl | rfl <;> exact hur
  have ht₁ : a₁.metadata.messageType ≠ .oneway := by rcases ha₁ with rfl | rfl <;> exact ht
  have ha' : (a₁.withRequest (some ur.dropped)).replied = (a.withRequest (some ur.dropped)).replied := by
    rcases ha₁ with rfl | rfl <;> rfl
  obtain ⟨os₂, hos₂, he₂⟩ := release_close_effect cfg he₁.self hur₁ hh ht₁ hc
  refine ⟨os₁, os₂, hos₁, he₁.connectionOpen ▸ hos₂, ?_⟩
  rw [hst, ← ha']
  exact he₁.trans he₂

/-- A request that holds the connection `c` and whose response decoder `d` is waiting. -/
structure Waiting (cm : ConnectionManager σ α) (m : MsgId) (a : ActiveMessage σ α)
    (d : ActiveResponseDecoder σ α) (ur : UpstreamRequest) (c : ConnId) : Prop where
  self : cm.messages m = a
  request : a.upstreamRequest = some ur
  direct : ur.handler = none
  answerable : a.metadata.messageType ≠ .oneway
  conn : ur.conn = some c
  decoder : a.responseDecoder = some d
  status : d.responseStatus = .moreData

/-- `Router::onUpstreamData` once the response has started. -/
abbrev received (cfg : Config σ α) (cm : ConnectionManager σ α) (m : MsgId) (data : Bytes)
    (endStream : Bool) : ConnectionManager σ α :=
  onUpstreamStatus cfg (upstreamData cfg cm m data).1.1 m endStream (upstreamData cfg cm m data).1.2

namespace Waiting

theorem outcome_quiet (w : Waiting cm m a d ur c) {s' : σ} {rest : Bytes}
    (hq : Quiet cfg d.codec data s' rest) :
    DataOutcome cfg cm m a d ur c data endStream (received cfg cm m data endStream)
      (upstreamData cfg cm m data).2 := by
  obtain ⟨dec, hst, hrest, he⟩ := upstreamData_quiet cfg w.self w.decoder w.status hq
  rw [received, hst, hrest]
  cases endStream with
  | false => exact .more hq rfl he
  | true =>
    obtain ⟨os, hos, he₁⟩ :=
      onUpstreamConnectionReset_effect cfg he.self w.request w.answerable .remoteConnectionFailure
    have he₂ := complete_effect he₁.self w.request
    rw [w.conn] at he₂
    have he₃ := (he.trans he₁).trans he₂
    rw [List.nil_append] at he₃
    exact .ended rfl (he.connectionOpen ▸ hos) he₃

theorem outcome_thrown (w : Waiting cm m a d ur c) {d' : ActiveResponseDecoder σ α}
    (hwhy : cm.connectionOpen = true → Rejected cfg a d.codec data)
    (hth : Thrown cm m (a.withDecoder (some d')) (upstreamData cfg cm m data).1) :
    DataOutcome cfg cm m a d ur c data endStream (received cfg cm m data endStream)
      (upstreamData cfg cm m data).2 := by
  rcases hth with hreset | ⟨hnone, hcrash, he⟩
  · obtain ⟨os₁, os₂, hos₁, hos₂, he⟩ :=
      onUpstreamStatus_reset cfg endStream hreset w.request w.direct w.answerable w.conn
    exact .reset hwhy (.inl rfl) hos₁ hos₂ he
  · rw [received, hnone]
    exact .crashed hcrash he

/-- The response has been dealt with: it is the end of the request if it has the request's id. -/
theorem outcome_answered (w : Waiting cm m a d ur c) {s' : σ} {md : Metadata α} {rest : Bytes}
    {r : Option (Metadata α × Bytes)} (h : cfg.codec.decodeAs .response d.codec data = .done s' md rest)
    (hb : md.messageType ≠ .heartbeat) (hr : (responseDecoded cfg cm m md []).1 = .ok ())
    (he : Effect cm m
      (a.withDecoder (some { d with metadata := some md, responseStatus := .complete })) (responseOuts m r)
      (responseDecoded cfg cm m md []).2)
    (hfw : Forwards cfg cm.connectionOpen a md r) :
    DataOutcome cfg cm m a d ur c data endStream (received cfg cm m data endStream)
        (upstreamData cfg cm m data).2 := by
  have hans := upstreamData_answers cfg w.self w.decoder h hb hr he rfl rfl
  split at hans
  next hid =>
    obtain ⟨hst, hrest, he₁⟩ := hans
    rw [received, hst, hrest]
    have he₂ := complete_effect he₁.self w.request
    rw [w.conn] at he₂
    exact .complete h hfw (he₁.trans he₂)
  next hid =>
    obtain ⟨cm₁, he₁, hreset⟩ := hans
    obtain ⟨os₁, os₂, hos₁, hos₂, he₂⟩ :=
      onUpstreamStatus_reset cfg endStream hreset w.request w.direct w.answerable w.conn
    have he₃ := he₁.trans he₂
    rw [← List.append_assoc] at he₃
    rw [he₁.connectionOpen] at hos₁ hos₂
    refine .reset (fun _ => ?_) (.inr ⟨s', md, rest, h, hfw⟩) hos₁ hos₂ he₃
    simp only [Rejected, h]
    exact ⟨hb, .inr hid⟩

/-- Every call of `Router::onUpstreamData`, one case per answer of the codec. -/
theorem outcome (w : Waiting cm m a d ur c) :
    DataOutcome cfg cm m a d ur c data endStream (received cfg cm m data endStream)
      (upstreamData cfg cm m data).2 := by
  cases h : cfg.codec.decodeAs .response d.codec data with
  | wait s' rest => exact w.outcome_quiet (.inl h)
  | fail s' rest e =>
    refine w.outcome_thrown (fun _ => ?_) (upstreamData_fail cfg w.self w.decoder h)
    simp only [Rejected, h]
  | done s' md rest =>
    by_cases hb : md.messageType = .heartbeat
    · exact w.outcome_quiet (.inr ⟨md, h, hb⟩)
    · cases hopen : cm.connectionOpen with
      | true =>
        have hdec := responseDecoded_open cfg w.self w.decoder hopen md
        cases hfw : forwarded cfg a md with
        | error e =>
          rw [hfw] at hdec
          refine w.outcome_thrown (fun _ => ?_) (upstreamData_throws cfg w.self w.decoder h hb hdec.1 hdec.2)
          simp only [Rejected, h]
          exact ⟨hb, .inl ⟨e, hfw⟩⟩
        | ok r =>
          rw [hfw] at hdec
          exact w.outcome_answered h hb hdec.1 hdec.2 (.inr ⟨hopen, hfw⟩)
      | false =>
        rcases responseDecoded_closed cfg w.self w.decoder hopen md with ⟨hr, he⟩ | ⟨hr, he⟩
        · exact w.outcome_thrown (by simp [hopen]) (upstreamData_throws cfg w.self w.decoder h hb hr he)
        · exact w.outcome_answered (r := none) h hb hr he (.inl rfl)

end Waiting

/-- The message once its response has started with the decoder `d`. -/
@[simps] def ActiveMessage.begun (a : ActiveMessage σ α) (ur : UpstreamRequest)
    (d : ActiveResponseDecoder σ α) : ActiveMessage σ α :=
  { a with responseDecoder := some d, upstreamRequest := some { ur with responseStarted := true } }

def Receiving (cfg : Config σ α) (a : ActiveMessage σ α) (ur : UpstreamRequest)
    (d : ActiveResponseDecoder σ α) : Prop :=
  if ur.responseStarted then a.responseDecoder = some d ∧ d.responseStatus = .moreData
  else d = { codec := cfg.codec.init }

theorem DataOutcome.of_effect {cm₁ cm' : ConnectionManager σ α} {b : ActiveMessage σ α} {rest : Bytes}
    (h : Effect cm m b [] cm₁) (ho : DataOutcome cfg cm₁ m a d ur c data endStream cm' rest) :
    DataOutcome cfg cm m a d ur c data endStream cm' rest := by
  have hopen := h.connectionOpen
  have hcomp : ∀ {a' : ActiveMessage σ α} {os : List (Out α)}, Effect cm₁ m a' os cm' →
    Effect cm m a' os cm' :=
    fun he => by simpa using h.trans he
  cases ho with
  | more hq hend he => exact .more hq hend (hcomp he)
  | ended hend hos he => exact .ended hend (hopen ▸ hos) (hcomp he)
  | complete hdec hr he => exact .complete hdec (hopen ▸ hr) (hcomp he)
  | reset hwhy hr hos₁ hos₂ he =>
    exact .reset (hopen ▸ hwhy) (hopen ▸ hr) (hopen ▸ hos₁) (hopen ▸ hos₂) (hcomp he)
  | crashed hcrash he => exact .crashed hcrash (hcomp he)

theorem onUpstreamData_outcome (ha : cm.messages m = a) (hur : a.upstreamRequest = some ur)
    (hh : ur.handler = none)
    (ht : a.metadata.messageType ≠ .oneway) (hc : ur.conn = some c) (hd : Receiving cfg a ur d) (data : Bytes)
    (endStream : Bool) :
    DataOutcome cfg cm m (a.begun ur d) d { ur with responseStarted := true } c data endStream
      (onUpstreamData cfg cm m data endStream).1 (onUpstreamData cfg cm m data endStream).2 := by
  unfold Receiving at hd
  split at hd
  next hst =>
    have hb : a.begun ur d = a := by
      cases a; cases ur
      simp_all [ActiveMessage.begun]
    have hu : { ur with responseStarted := true } = ur := by
      cases ur
      simp_all
    have w : Waiting cm m a d ur c := ⟨ha, hur, hh, ht, hc, hd.1, hd.2⟩
    rw [hb, hu]
    simp only [onUpstreamData, ha, hur, hst, if_true]
    exact w.outcome
  next hst =>
    subst hd
    have h₁ : Effect cm m (a.withDecoder (some { codec := cfg.codec.init })) []
      (startUpstreamResponse cfg cm m) :=
      Effect.modify (by rw [ha]; rfl) (by rw [ha]; rfl)
    have h₂ : Effect cm m (a.begun ur { codec := cfg.codec.init }) []
        ((startUpstreamResponse cfg cm m).modifyRequest m fun ur => { ur with responseStarted := true }) :=
      h₁.trans_nil (Effect.modifyRequest h₁.self hur rfl)
    have w : Waiting ((startUpstreamResponse cfg cm m).modifyRequest m fun ur =>
        { ur with responseStarted := true }) m
        (a.begun ur { codec := cfg.codec.init }) { codec := cfg.codec.init }
          { ur with responseStarted := true } c :=
      ⟨h₂.self, rfl, hh, ht, hc, rfl, rfl⟩
    simp only [onUpstreamData, ha, hur, hst]
    exact w.outcome.of_effect h₂

end UpstreamBytes
end MetaProtocolProxy
