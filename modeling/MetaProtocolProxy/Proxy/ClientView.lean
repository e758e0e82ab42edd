import MetaProtocolProxy.Brpc.Codec
import MetaProtocolProxy.Dubbo.Attachments
import MetaProtocolProxy.Proxy.Pipelining
/-
# What the client sees with and without multiplexing
(active_message.cc, upstream_response.cc, upstream_handler_impl.cc)

A response has two ways to the client. Without multiplexing
`ActiveResponseDecoder::onMessageDecoded` runs the encoder filters, encodes the response with the
mutation they leave and writes it. With multiplexing
`UpstreamHandlerResponseDecoder::onMessageDecoded` encodes it with the empty mutation of the decoder
and `UpstreamHandlerImpl` writes it: no encoder filter sees the response. Metadata exchange is such
a filter (`exchanged_metadata_lost`).

The two ways agree, for every codec that encodes a response without mutations plainly and for every
response in any pieces, exactly for the filter chains that do nothing with a response, and if
`complete_`, which has no initialiser, starts as false (`same_for_client_iff`).
-/
namespace MetaProtocolProxy

variable {σ α : Type}

def Out.toClient : Out α → Bytes
  | .response _ _ bytes => bytes
  | .localReply _ _ bytes => bytes
  | .handlerResponse _ md => md.originMessage
  | _ => []

def clientStream (cm : ConnectionManager σ α) : Bytes := cm.out.flatMap Out.toClient

/-- The pieces are one response, which the codec `cd` reads as `md`; it has `left` in the buffer. -/
def Completes (cd : Codec σ α) (md : Metadata α) : σ → Bytes → List Bytes → Prop
  | _, _, [] => False
  | s, left, piece :: pieces =>
    match cd.decodeAs .response s (left ++ piece) with
    | .wait s' rest => Completes cd md s' rest pieces
    | .done _ md' rest => md' = md ∧ rest = [] ∧ pieces = []
    | .fail _ _ _ => False

theorem Completes.cases {cd : Codec σ α} {md : Metadata α} {s : σ} {left piece : Bytes} {pieces : List Bytes}
    (hcomp : Completes cd md s left (piece :: pieces)) :
    (∃ s' rest, cd.decodeAs .response s (left ++ piece) = .wait s' rest ∧ Completes cd md s' rest pieces) ∨
      ∃ s', cd.decodeAs .response s (left ++ piece) = .done s' md [] ∧ pieces = [] := by
  rw [Completes] at hcomp
  cases hd : cd.decodeAs .response s (left ++ piece) with
  | wait s' rest =>
    rw [hd] at hcomp
    exact .inl ⟨s', rest, rfl, hcomp⟩
  | done s' md' rest =>
    rw [hd] at hcomp
    obtain ⟨rfl, rfl, rfl⟩ := hcomp
    exact .inr ⟨s', rfl, rfl⟩
  | fail s' rest e =>
    rw [hd] at hcomp
    exact hcomp.elim

/-- Without a mutation the codec encodes a response the same way whatever server it is from, and
throws nothing the proxy would catch. -/
structure Codec.EncodesPlainly (cd : Codec σ α) (md : Metadata α) : Prop where
  addressed : ∀ address, cd.encode (md.putString realServerAddress address) [] md.originMessage =
    cd.encode md [] md.originMessage
  uncaught : ∀ e, cd.encode md [] md.originMessage = .error e → e.isEnvoyException = false

theorem Codec.EncodesPlainly.of_ok {cd : Codec σ α} {md : Metadata α} {bytes : Bytes}
    (hok : ∀ md', cd.encode md' [] md.originMessage = .ok bytes) : cd.EncodesPlainly md := by
  refine ⟨fun address => (hok _).trans (hok md).symm, ?_⟩
  intro e he
  rw [hok md] at he
  cases he

structure Awaits (cm : ConnectionManager σ α) (m : MsgId) : Prop where
  connectionOpen : cm.connectionOpen = true
  request : (cm.messages m).metadata.messageType = .request
  sent : ∃ ur c, (cm.messages m).upstreamRequest = some ur ∧ ur.handler = none ∧ ur.conn = some c ∧
    ur.responseStarted = false
  unanswered : (cm.messages m).localResponseSent = false
  /-- The pool's answer has put it there. -/
  address : ∃ address, (cm.messages m).metadata.getString realServerAddress = .ok address

/-- One call of `Router::onUpstreamData`: what the last one left unread is in front of the new
bytes. -/
def receiveAlone (cfg : Config σ α) (m : MsgId) (s : ConnectionManager σ α × Bytes) (piece : Bytes) :
    ConnectionManager σ α × Bytes :=
  onUpstreamData cfg s.1 m (s.2 ++ piece) false

variable (chain : List EncoderVerdict)

/-- With the encoder filters `chain`, and `complete_` of a new decoder at `garbage`, every complete
response to a request adds the same bytes to what the client sees with and without multiplexing. -/
def SameForClient (garbage : Bool) : Prop :=
  ∀ (σ α : Type) (alone shared : Config σ α) (cd : Codec σ α), alone.codec = cd → shared.codec = cd →
    ∀ (cm cm' : ConnectionManager σ α) (m : MsgId) (h : HandlerId) (md : Metadata α) (pieces : List Bytes),
    Awaits cm m → (cm.messages m).encoderFilters = chain → (cm'.handlers h).upstreamResponse = none →
    Completes cd md cd.init [] pieces → md.messageType ≠ .heartbeat →
      md.requestId = (cm.messages m).metadata.requestId →
    cd.EncodesPlainly md →
    ∃ bytes, clientStream (Runs.run (receiveAlone alone m) (cm, []) pieces).1 = clientStream cm ++ bytes ∧
      clientStream (Runs.run (receive shared h) (cm', []) (pieces.map (Chunk.mk · garbage))).1 =
        clientStream cm' ++ bytes

/-- The filters do nothing with a response. -/
def Transparent : Prop := ∀ v ∈ chain, v.status = .continueIteration ∧ v.mutation = []

instance (chain : List EncoderVerdict) : Decidable (Transparent chain) :=
  inferInstanceAs (Decidable (∀ v ∈ chain, _ ∧ _))

section Paths

variable {cfg : Config σ α} {cm : ConnectionManager σ α} {m : MsgId} {h : HandlerId} {a : ActiveMessage σ α}
  {d : ActiveResponseDecoder σ α} {ur : UpstreamRequest} {c : ConnId} {md : Metadata α}
  {data left rest : Bytes} {s' : σ}
  {pieces : List Bytes} {r : Except Failure (Option (Metadata α × Bytes))}

theorem Effect.clientStream {cm₁ : ConnectionManager σ α} {os : List (Out α)} (he : Effect cm m a os cm₁) :
    clientStream cm₁ = clientStream cm ++ os.flatMap Out.toClient := by
  rw [MetaProtocolProxy.clientStream, he.out, List.flatMap_append]
  rfl

/-! ## A connection of its own -/

def forwardedBytes : Except Failure (Option (Metadata α × Bytes)) → Bytes
  | .ok (some (_, bytes)) => bytes
  | _ => []

/-- `Router::onUpstreamData` on a response that has started. -/
theorem receiveAlone_started (w : Waiting cm m a d ur c) (hstarted : ur.responseStarted = true)
    (left piece : Bytes) : receiveAlone cfg m (cm, left) piece =
      (received cfg cm m (left ++ piece) false, (upstreamData cfg cm m (left ++ piece)).2) := by
  simp only [receiveAlone, onUpstreamData, w.self, w.request, hstarted, if_true]

theorem Waiting.received_wait (w : Waiting cm m a d ur c)
    (hd : cfg.codec.decodeAs .response d.codec data = .wait s' rest) :
    (upstreamData cfg cm m data).2 = rest ∧
      ∃ dec, Effect cm m (a.withDecoder (some (d.stored s' dec))) [] (received cfg cm m data false) := by
  obtain ⟨dec, hst, hrest, he⟩ := upstreamData_quiet cfg w.self w.decoder w.status (.inl hd)
  refine ⟨hrest, dec, ?_⟩
  rw [received, hst]
  exact he

theorem Waiting.received_done (w : Waiting cm m a d ur c) (hopen : cm.connectionOpen = true)
    (hd : cfg.codec.decodeAs .response d.codec data = .done s' md rest) (hb : md.messageType ≠ .heartbeat)
    (hid : md.requestId = a.metadata.requestId) (hfw : forwarded cfg a md = r)
    (huncaught : ∀ e, r = .error e → e.isEnvoyException = false) :
    clientStream (received cfg cm m data false) = clientStream cm ++ forwardedBytes r := by
  have hdec := responseDecoded_open cfg w.self w.decoder hopen md
  rw [hfw] at hdec
  cases r with
  | error e =>
    obtain ⟨cm₁, he, hcaught⟩ := upstreamData_caught cfg w.self w.decoder hd hb hdec.1 hdec.2
    rw [caught_of_not_envoyException cfg (huncaught e rfl)] at hcaught
    rw [received, hcaught]
    exact (he.trans_nil (Effect.crash he.self)).clientStream
  | ok r =>
    have hans := upstreamData_answers cfg w.self w.decoder hd hb hdec.1 hdec.2 rfl rfl
    rw [if_pos hid.symm] at hans
    obtain ⟨hst, -, he⟩ := hans
    have hend := he.trans (complete_effect he.self w.request)
    rw [received, hst]
    refine hend.clientStream.trans ?_
    rw [w.conn, List.flatMap_append]
    cases r with
    | none => rfl
    | some r => simp [responseOuts, forwardedBytes, Out.toClient, releasedOf]

theorem Waiting.run_alone (w : Waiting cm m a d ur c) (hstarted : ur.responseStarted = true)
    (hopen : cm.connectionOpen = true)
    (hcomp : Completes cfg.codec md d.codec left pieces) (hb : md.messageType ≠ .heartbeat)
    (hid : md.requestId = a.metadata.requestId) (hfw : forwarded cfg a md = r)
    (huncaught : ∀ e, r = .error e → e.isEnvoyException = false) :
    clientStream (Runs.run (receiveAlone cfg m) (cm, left) pieces).1 =
      clientStream cm ++ forwardedBytes r := by
  induction pieces generalizing cm a d left with
  | nil => exact hcomp.elim
  | cons piece pieces ih =>
    rw [Runs.run_cons, receiveAlone_started w hstarted]
    rcases hcomp.cases with ⟨s', rest, hd, hcomp⟩ | ⟨s', hd, rfl⟩
    · obtain ⟨hrest, dec, he⟩ := w.received_wait hd
      have w' : Waiting (received cfg cm m (left ++ piece) false) m
        (a.withDecoder (some (d.stored s' dec))) (d.stored s' dec) ur c :=
        ⟨he.self, w.request, w.direct, w.answerable, w.conn, rfl, w.status⟩
      have hnext := ih w' (he.connectionOpen.trans hopen) hcomp hid hfw
      rw [he.clientStream, List.flatMap_nil, List.append_nil] at hnext
      rw [hrest]
      exact hnext
    · exact w.received_done hopen hd hb hid hfw huncaught

theorem Awaits.run_alone (ha : Awaits cm m) (hcomp : Completes cfg.codec md cfg.codec.init [] pieces)
    (hb : md.messageType ≠ .heartbeat) (hid : md.requestId = (cm.messages m).metadata.requestId)
    (huncaught : ∀ e, forwarded cfg (cm.messages m) md = .error e → e.isEnvoyException = false) :
    clientStream (Runs.run (receiveAlone cfg m) (cm, []) pieces).1 =
      clientStream cm ++ forwardedBytes (forwarded cfg (cm.messages m) md) := by
  obtain ⟨ur, c, hur, hdirect, hconn, hstarted⟩ := ha.sent
  -- the first piece makes the decoder
  have he₁ : Effect cm m ((cm.messages m).withDecoder (some { codec := cfg.codec.init })) []
    (startUpstreamResponse cfg cm m) :=
    Effect.modify rfl rfl
  have he : Effect cm m ((cm.messages m).begun ur { codec := cfg.codec.init }) []
      ((startUpstreamResponse cfg cm m).modifyRequest m fun ur => { ur with responseStarted := true }) :=
    he₁.trans_nil (Effect.modifyRequest he₁.self hur rfl)
  have hfirst : ∀ piece, receiveAlone cfg m (cm, []) piece =
      receiveAlone cfg m ((startUpstreamResponse cfg cm m).modifyRequest m fun ur =>
          { ur with responseStarted := true }, []) piece := by
    intro piece
    simp only [receiveAlone, onUpstreamData, hur, hstarted, he.self,
      ActiveMessage.begun_upstreamRequest, Bool.false_eq_true, if_false, if_true]
  generalize (startUpstreamResponse cfg cm m).modifyRequest m
    (fun ur => { ur with responseStarted := true }) = cm₀ at he hfirst
  have w : Waiting cm₀ m ((cm.messages m).begun ur { codec := cfg.codec.init }) { codec := cfg.codec.init }
      { ur with responseStarted := true } c :=
    ⟨he.self, rfl, hdirect, by simp [ha.request], hconn, rfl, rfl⟩
  cases pieces with
  | nil => exact hcomp.elim
  | cons piece pieces =>
    have hrun := w.run_alone rfl (he.connectionOpen.trans ha.connectionOpen) hcomp hb hid rfl huncaught
    rw [he.clientStream, List.flatMap_nil, List.append_nil] at hrun
    rw [Runs.run_cons, hfirst]
    exact hrun

/-! ## A shared connection -/

theorem onUpstreamResponseCallback_client (cm : ConnectionManager σ α) (m : MsgId) :
    clientStream (onUpstreamResponseCallback cm m) = clientStream cm := by
  unfold onUpstreamResponseCallback
  split
  · rfl
  · cases hur : (cm.messages m).upstreamRequest with
    | none => rfl
    | some ur =>
      have he := complete_effect rfl hur
      have he' := he.trans_nil (Effect.deferredDeleteMessage he.self m)
      refine he'.clientStream.trans ?_
      cases ur.conn <;> simp [releasedOf, Out.toClient]

theorem handlerMessageDecoded_client (cm : ConnectionManager σ α) (h : HandlerId) (md : Metadata α) :
    clientStream (handlerMessageDecoded cm h md) = clientStream cm ++ md.originMessage := by
  have hemit : ∀ (cm : ConnectionManager σ α) (o : Out α), clientStream (cm.emit o) =
      clientStream cm ++ o.toClient := by
    intro cm o
    simp [clientStream, ConnectionManager.emit]
  unfold handlerMessageDecoded
  dsimp only
  split
  · exact hemit cm _
  · refine (onUpstreamResponseCallback_client _ _).trans ?_
    rw [hemit, hemit]
    exact List.append_nil _

def encodedBytes : Except Failure Bytes → Bytes
  | .ok bytes => bytes
  | .error _ => []

theorem handlerUpstreamData_client (garbage : Bool)
    (hd : cfg.codec.decodeAs .response (responseCodec cfg cm h) data = .done s' md rest)
    (hb : md.messageType ≠ .heartbeat) :
    clientStream (handlerUpstreamData cfg cm h data garbage).1 =
      clientStream cm ++ encodedBytes (cfg.codec.encode md [] md.originMessage) := by
  simp only [handlerUpstreamData, DecoderBase.onData_message (decoding_codec cm garbage ▸ hd) hb,
    handlerDelegate, handlerResponseDecoded]
  generalize ((cm.handlers h).upstreamResponse).getD
    { codec := cfg.codec.init, complete := garbage } = response
  cases cfg.codec.encode md [] md.originMessage with
  | error e =>
    rw [encodedBytes, List.append_nil]
    dsimp only
    split <;> rfl
  | ok bytes =>
    have hclient := handlerMessageDecoded_client
      ((cm.modifyHandler h fun hd => { hd with upstreamResponse := some response }).modifyHandler h
        fun hd => { hd with
          upstreamResponse := hd.upstreamResponse.map fun r => { r with complete := true } }) h
      { md with originMessage := bytes }
    refine Eq.trans ?_ hclient
    dsimp only
    split <;> rfl

/-- The pieces of a response with a `complete_` that starts as false. -/
theorem run_shared (hinc : Incomplete cm h)
    (hcomp : Completes cfg.codec md (responseCodec cfg cm h) left pieces)
    (hb : md.messageType ≠ .heartbeat) :
    clientStream (Runs.run (receive cfg h) (cm, left) (pieces.map (Chunk.mk · false))).1 =
      clientStream cm ++ encodedBytes (cfg.codec.encode md [] md.originMessage) := by
  induction pieces generalizing cm left with
  | nil => exact hcomp.elim
  | cons piece pieces ih =>
    rw [List.map_cons, Runs.run_cons, receive]
    rcases hcomp.cases with ⟨s', rest, hd, hcomp⟩ | ⟨s', hd, rfl⟩
    · obtain ⟨cm₁, heq, hout, -, hinc₁, hcodec⟩ := handlerUpstreamData_wait false hinc hd
      have hs : responseCodec cfg cm₁ h = s' :=
        (hcodec.resolve_right fun hflag => absurd hflag.1 Bool.false_ne_true).1
      rw [heq]
      refine (ih hinc₁ (hs ▸ hcomp)).trans ?_
      rw [clientStream, hout]
      rfl
    · exact handlerUpstreamData_client false hd hb

end Paths

/-! ## The filter chains -/

theorem Mutation.set_eq_nil (mutation entries : Mutation) : mutation.set entries = [] ↔
    mutation = [] ∧ entries = [] := by
  have hcons : ∀ (entries : Mutation) (kv : String × String) (mutation : Mutation),
      Mutation.set (kv :: mutation) entries ≠ [] := by
    intro entries
    induction entries with
    | nil => exact fun kv mutation => List.cons_ne_nil kv mutation
    | cons kv' entries ih => exact fun kv mutation => ih kv' _
  cases entries with
  | nil => exact (and_iff_left rfl).symm
  | cons kv entries =>
    constructor
    · intro hnil
      exact absurd hnil (hcons entries kv _)
    · intro hnil
      cases hnil.2

theorem applyEncoderFilters_eq_iff (mutation : Mutation) :
    applyEncoderFilters chain mutation = (.continueIteration, []) ↔ mutation = [] ∧ Transparent chain := by
  induction chain generalizing mutation with
  | nil => simp [applyEncoderFilters, Transparent]
  | cons v chain ih =>
    have hsplit : Transparent (v :: chain) ↔ (v.status = .continueIteration ∧ v.mutation = []) ∧
      Transparent chain :=
      List.forall_mem_cons
    rw [applyEncoderFilters, hsplit]
    split
    next hst =>
      rw [ih, Mutation.set_eq_nil]
      simp only [hst, true_and, and_assoc]
    next hst =>
      constructor
      · intro heq
        exact absurd (congrArg Prod.fst heq) hst
      · intro hall
        exact absurd hall.2.1.1 hst

theorem forwarded_of_transparent {cfg : Config σ α} {cm : ConnectionManager σ α} {m : MsgId}
    {md : Metadata α} (ha : Awaits cm m)
    (hchain : Transparent (cm.messages m).encoderFilters) (hcd : cfg.codec.EncodesPlainly md) :
    ∃ md', forwarded cfg (cm.messages m) md =
      (cfg.codec.encode md [] md.originMessage).map fun bytes => some (md', bytes) := by
  obtain ⟨address, haddress⟩ := ha.address
  have hfilters : encoderFilters (cm.messages m) [] = (.continueIteration, []) := by
    rw [encoderFilters, ha.unanswered]
    exact (applyEncoderFilters_eq_iff _ _).2 ⟨rfl, hchain⟩
  have henc : cfg.codec.encode (md.putString realServerAddress address) []
      (md.putString realServerAddress address).originMessage =
      cfg.codec.encode md [] md.originMessage := hcd.addressed address
  refine ⟨md.putString realServerAddress address, ?_⟩
  simp only [forwarded, hfilters, haddress, henc]
  cases cfg.codec.encode md [] md.originMessage <;> rfl

theorem Awaits.run_alone_transparent {cfg : Config σ α} {cm : ConnectionManager σ α} {m : MsgId}
    {md : Metadata α}
    {pieces : List Bytes} (ha : Awaits cm m) (hchain : Transparent (cm.messages m).encoderFilters)
    (hcomp : Completes cfg.codec md cfg.codec.init [] pieces) (hb : md.messageType ≠ .heartbeat)
    (hid : md.requestId = (cm.messages m).metadata.requestId) (hcd : cfg.codec.EncodesPlainly md) :
    clientStream (Runs.run (receiveAlone cfg m) (cm, []) pieces).1 =
      clientStream cm ++ encodedBytes (cfg.codec.encode md [] md.originMessage) := by
  obtain ⟨md', hfw⟩ := forwarded_of_transparent ha hchain hcd
  have huncaught : ∀ e, forwarded cfg (cm.messages m) md = .error e → e.isEnvoyException = false := by
    intro e he
    rw [hfw] at he
    cases henc : cfg.codec.encode md [] md.originMessage with
    | error e' =>
      rw [henc] at he
      cases he
      exact hcd.uncaught e henc
    | ok bytes =>
      rw [henc] at he
      cases he
  rw [ha.run_alone hcomp hb hid huncaught, hfw]
  cases cfg.codec.encode md [] md.originMessage <;> rfl

/-- Transparent filters and a `complete_` that starts as false. -/
theorem same_of_transparent {chain : List EncoderVerdict} (hchain : Transparent chain) :
    SameForClient chain false := by
  rintro σ α alone shared cd rfl hcd cm cm' m h md pieces ha rfl hnone hcomp hb hid hplain
  refine ⟨_, ha.run_alone_transparent hchain hcomp hb hid hplain, ?_⟩
  have hinc : Incomplete cm' h := by
    intro r hr
    rw [hnone] at hr
    cases hr
  have hinit : responseCodec shared cm' h = shared.codec.init := by
    rw [responseCodec, hnone]
    rfl
  rw [← hcd] at hcomp ⊢
  exact run_shared hinc (by rw [hinit]; exact hcomp) hb

/-! ## The converse -/

section Converse

/-- A codec of two-byte messages that takes the bytes of an incomplete one out of the buffer, and
writes a zero behind the message for every entry of the mutation. -/
def pairCodec : Codec Bytes Unit where
  init := []
  decode seen buffer md :=
    if (seen ++ buffer).length < 2 then .wait (seen ++ buffer) []
      else .done [] { md with originMessage := seen ++ buffer } []
  encode _ mutation buffer := .ok (buffer ++ mutation.map fun _ => 0)
  onError _ _ := .ok []

def pairConfig (multiplexing : Bool) : Config Bytes Unit :=
  { codec := pairCodec, applicationProtocol := "pairs", multiplexing := multiplexing }

variable (chain : List EncoderVerdict)

def allWaiting : ConnectionManager Bytes Unit :=
  { messages := fun _ => { encoderFilters := chain, upstreamRequest := some { conn := some 0 } } }

def pairResponse : Metadata Unit := { messageType := .response, originMessage := [1, 2] }

theorem pairResponse_response : pairResponse.messageType ≠ .heartbeat := by decide

theorem allWaiting_awaits : Awaits (allWaiting chain) 0 :=
  ⟨rfl, rfl, ⟨_, 0, rfl, rfl, rfl, rfl⟩, rfl, "", rfl⟩

theorem pairCodec_plain (md : Metadata Unit) : pairCodec.EncodesPlainly md :=
  .of_ok fun _ => rfl

/-- Without multiplexing the response is written as it came only behind transparent filters. -/
theorem pair_forwarded :
    ∃ r, forwarded (pairConfig false) ((allWaiting chain).messages 0) pairResponse = .ok r ∧
      (forwardedBytes (.ok r) = [1, 2] → applyEncoderFilters chain [] = (.continueIteration, [])) := by
  have hfilters : encoderFilters ((allWaiting chain).messages 0) [] = applyEncoderFilters chain [] := rfl
  have haddress : ((allWaiting chain).messages 0).metadata.getString realServerAddress = .ok "" := rfl
  simp only [forwarded, hfilters, haddress]
  rcases applyEncoderFilters chain [] with ⟨status, mutation⟩
  cases status with
  | continueIteration =>
    refine ⟨_, rfl, fun hbytes => ?_⟩
    have hmut : [1, 2] ++ mutation.map (fun _ => (0 : UInt8)) = [1, 2] := hbytes
    rw [List.append_right_eq_self, List.map_eq_nil_iff] at hmut
    rw [hmut]
  | pauseIteration | abortIteration | retry =>
      exact ⟨none, rfl, fun hbytes => absurd hbytes.symm (List.cons_ne_nil _ _)⟩

theorem pair_same {chain : List EncoderVerdict} {garbage : Bool}
    (hsame : SameForClient chain garbage) {pieces : List Bytes}
    (hcomp : Completes pairCodec pairResponse [] [] pieces) :
    clientStream (Runs.run (receiveAlone (pairConfig false) 0) (allWaiting chain, []) pieces).1 =
      clientStream (Runs.run (receive (pairConfig true) 0) ({}, []) (pieces.map (Chunk.mk · garbage))).1 := by
  obtain ⟨bytes, halone, hshared⟩ :=
    hsame Bytes Unit (pairConfig false) (pairConfig true) pairCodec rfl rfl (allWaiting chain) {} 0 0
      pairResponse pieces (allWaiting_awaits chain) rfl rfl hcomp pairResponse_response rfl (pairCodec_plain _)
  rw [halone, hshared]
  rfl

theorem transparent_of_same {chain : List EncoderVerdict} {garbage : Bool}
    (hsame : SameForClient chain garbage) : Transparent chain := by
  obtain ⟨r, hfw, htransparent⟩ := pair_forwarded chain
  have hcomp : Completes pairCodec pairResponse [] [] [[1, 2]] := ⟨rfl, rfl, rfl⟩
  have hforwarded :
      clientStream (Runs.run (receiveAlone (pairConfig false) 0) (allWaiting chain, []) [[1, 2]]).1 =
        clientStream (allWaiting chain) ++ forwardedBytes
          (forwarded (pairConfig false) ((allWaiting chain).messages 0) pairResponse) :=
    (allWaiting_awaits chain).run_alone hcomp pairResponse_response rfl (by simp [hfw])
  have hshared :
      clientStream (Runs.run (receive (pairConfig true) 0) ({}, []) [⟨[1, 2], garbage⟩]).1 = [1, 2] := by
    cases garbage <;> rfl
  rw [hfw, pair_same hsame hcomp] at hforwarded
  exact ((applyEncoderFilters_eq_iff chain []).1 (htransparent (hforwarded.symm.trans hshared))).2

/-- A first piece that the decoder drops: with `complete_` set, the response that comes in two
pieces is lost. -/
theorem initialised_of_same {chain : List EncoderVerdict} {garbage : Bool}
    (hsame : SameForClient chain garbage) : garbage = false := by
  cases garbage with
  | false => rfl
  | true =>
    have hcomp : Completes pairCodec pairResponse [] [] [[1], [2]] := ⟨rfl, rfl, rfl⟩
    have hforwarded :
      clientStream (Runs.run (receiveAlone (pairConfig false) 0) (allWaiting chain, [])
        [[1], [2]]).1 = [1, 2] :=
      (allWaiting_awaits chain).run_alone_transparent (transparent_of_same hsame) hcomp
        pairResponse_response rfl (pairCodec_plain _)
    rw [pair_same hsame hcomp] at hforwarded
    have hlost : ([] : Bytes) = [1, 2] := hforwarded
    cases hlost

end Converse

/-- Multiplexing does not change what the client sees exactly if no encoder filter does anything
with a response and `complete_` of a new decoder starts as false. -/
theorem same_for_client_iff (garbage : Bool) :
    SameForClient chain garbage ↔ Transparent chain ∧ garbage = false := by
  constructor
  · intro hsame
    exact ⟨transparent_of_same hsame, initialised_of_same hsame⟩
  · rintro ⟨hchain, rfl⟩
    exact same_of_transparent hchain

/-! ## The bundled codecs -/

theorem Trpc.trpcCodec_plain (pb : Protobuf) (md : Metadata α) : (trpcCodec α pb).EncodesPlainly md :=
  .of_ok fun _ => rfl

theorem Brpc.brpcCodec_plain (md : Metadata α) : (brpcCodec α).EncodesPlainly md :=
  .of_ok fun _ => rfl

namespace Dubbo

variable {md : Metadata DubboAny}

theorem toMsgMetadata_addressed (md : Metadata DubboAny) (address : String) :
    toMsgMetadata (md.putString realServerAddress address) = toMsgMetadata md := by
  simp (disch := decide) only [toMsgMetadata, Metadata.putString, optional_put_ne, required_put_ne,
    getBool_put_ne, Metadata.put_requestId]

theorem encode_response_plain (encodeMap : List (Object × Object) → Bytes)
    (ht : md.messageType = .response) {address : String}
    (haddress : md.getString realServerAddress = .ok address) (buffer : Bytes) :
    (encode encodeMap md [] buffer).map Prod.snd = (toMsgMetadata md).map fun _ => buffer := by
  simp only [encode, haddress, ht, encodeResponse, bind, Except.bind]
  cases toMsgMetadata md with
  | error e => rfl
  | ok msg =>
    dsimp only
    cases msg.rpcResultInfo <;> rfl

theorem dubboCodec_plain (hs : Hessian2) (encodeMap : List (Object × Object) → Bytes)
    (ht : md.messageType = .response)
    {address : String} (haddress : md.getString realServerAddress = .ok address) :
    (dubboCodec hs encodeMap).EncodesPlainly md := by
  have hplain : (dubboCodec hs encodeMap).encode md [] md.originMessage =
    (toMsgMetadata md).map fun _ => md.originMessage :=
    encode_response_plain encodeMap ht haddress md.originMessage
  constructor
  · intro server
    have hserver := md.getString_putString realServerAddress server
    have haddressed : (md.putString realServerAddress server).messageType = .response := ht
    rw [hplain, ← toMsgMetadata_addressed md server]
    exact encode_response_plain encodeMap haddressed hserver md.originMessage
  · intro e he
    rw [hplain] at he
    cases hmsg : toMsgMetadata md with
    | ok msg =>
      rw [hmsg] at he
      cases he
    | error e' =>
      rw [hmsg] at he
      cases he
      rcases toMsgMetadata_error hmsg with rfl | ⟨what, rfl⟩ <;> rfl

end Dubbo

/-! ## Metadata exchange -/

/-- `envoy::config::core::v3::TrafficDirection`. -/
inductive TrafficDirection
  | unspecified
  | inbound
  | outbound
  deriving DecidableEq, Repr

/-- `MetadataExchangeFilter::onMessageEncoded` (metadata_exchange.cc:27-35). -/
def metadataExchangeEncoded (direction : TrafficDirection)
    (localNodeMetadata localNodeMetadataId : String) : EncoderVerdict :=
  { status := .continueIteration
    mutation :=
      if direction =
        .inbound then [("x-envoy-peer-metadata", localNodeMetadata),
          ("x-envoy-peer-metadata-id", localNodeMetadataId)]
      else [] }

/-- Metadata exchange is lost with multiplexing on the inbound side, where it is to answer the
peer. -/
theorem metadataExchange_transparent_iff (direction : TrafficDirection) (node id : String) :
    Transparent [metadataExchangeEncoded direction node id] ↔ direction ≠ .inbound := by
  cases direction <;> simp [Transparent, metadataExchangeEncoded]

section Concrete

open Trpc

/-- The request 5 through the metadata exchange of an inbound listener; the pool has connection 3 at
once. -/
def exchangingRequest : Event Unit :=
  .decoded { messageType := .request, requestId := 5 } [metadataExchangeEncoded .inbound "m" "n"] []
    { route := some { clusterName := "c" }, cluster := some { host := some "h" }, pool := .ready 3 }

theorem exchanged_metadata_lost :
    let alone := Runs.run (step trpcConfig) {} [exchangingRequest, .upstreamData 0 (responseFrame 5) false]
    let shared :=
      Runs.run (step { trpcConfig with multiplexing := true }) {} [exchangingRequest,
        .handlerData 0 (responseFrame 5) false]
    clientStream alone = [0x09, 0x30, 0, 0, 0, 0, 0, 77, 0, 61, 0, 0, 0, 0, 0, 0, 0x18, 5] ++
        Wire.write [entryField 8 ("x-envoy-peer-metadata", "m"),
          entryField 8 ("x-envoy-peer-metadata-id", "n")] ∧
      clientStream shared = responseFrame 5 ∧ clientStream alone ≠ clientStream shared := by
  decide

end Concrete

end MetaProtocolProxy
