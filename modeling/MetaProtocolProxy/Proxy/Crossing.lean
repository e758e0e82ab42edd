import MetaProtocolProxy.Proxy.Network
import MetaProtocolProxy.Proxy.Replies
import MetaProtocolProxy.Trpc.Frames
/-
# Responses and the requests they answer

A connection goes back to the pool when the response is complete, and also when the `ActiveMessage`
is destroyed: `Router::onDestroy` releases it without a close, whatever its upstream has still to
send. The next request that gets the connection then receives the answer to the one before it
(`abandoned_answer_crosses`). As long as no message is destroyed while its request is sent and its
connection is open, every response that is forwarded is the answer to the request it is forwarded
for (`responses_do_not_cross`).
-/
namespace MetaProtocolProxy

variable {σ α : Type} {cfg : Config σ α}

/-- The response that the upstream's answer to `k` carries, as it is forwarded, and what the codec
makes of it. -/
def IsAnswerTo (up : Upstream cfg) (k : Asker) (md : Metadata α) (bytes : Bytes) : Prop :=
  (∃ host, md = (up.reply k).putString realServerAddress host) ∧
    ∃ mutation, cfg.codec.encode md mutation md.originMessage = .ok bytes

/-- Every response written to a downstream connection is the answer to the request of its
message. -/
def OwnAnswers (up : Upstream cfg) (net : Net σ α) : Prop :=
  ∀ d m md bytes, .response m md bytes ∈ (net.cms d).out → IsAnswerTo up (d, m) md bytes

/-- No message is destroyed while its request has been sent and its connection is open. -/
def NotAbandoned (net : Net σ α) : NetEvent α → Prop
  | .event d (.destroy m) => ∀ ur c, ((net.cms d).messages m).upstreamRequest = some ur → ur.conn = some c →
      ur.requestComplete = true → net.wires.closed c = true
  | _ => True

section Transitions

variable {up : Upstream cfg} {d : DownId} {w : Wires} {rec : Asker → ActiveMessage σ α}
    {isOpen : Bool} {m : MsgId}
  {a a' : ActiveMessage σ α} {e : Event α} {os : List (Out α)} {c : ConnId}

theorem LocalReply.observe (h : LocalReply isOpen m os) : os.foldl (observe up d) w = w := by
  rcases h with rfl | ⟨-, e, b, rfl⟩ <;> rfl

theorem observe_responseOuts (r : Option (Metadata α × Bytes)) :
    (responseOuts m r).foldl (observe up d) w = w := by
  rcases r with _ | ⟨md, b⟩ <;> rfl

theorem Asking.not_holds {b : ActiveMessage σ α} {ur : UpstreamRequest} (h : Asking a e b ur)
    (wf : MsgWf a) (c : ConnId) : ¬Holds a c := by
  rintro ⟨ur', hur', hc'⟩
  cases h with
  | atOnce _ hreq => rw [hreq] at hur'; cases hur'
  | later hur hh =>
    obtain rfl := Option.some.inj (hur.symm.trans hur')
    rw [(wf.waiting _ hur hh).1] at hc'
    cases hc'

theorem not_holds_of_none (h : a.upstreamRequest = none) (c : ConnId) : ¬Holds a c := by
  rintro ⟨ur, hur, -⟩
  rw [h] at hur
  cases hur

theorem Linked.given {k : Asker} {w' : Wires} {ur : UpstreamRequest} (h : Linked cfg up w rec)
    (hno : ∀ c, ¬Holds (rec k) c)
    (hidle : w.Idle c) (hur : a.upstreamRequest = some ur) (hc : ur.conn = some c)
    (hs : ur.responseStarted = false)
    (hw : SameBut w c w') (hholder : w'.holder c = some k) (hclosed : w'.closed c = w.closed c)
    (hbuf : w'.buffer c = w.buffer c)
    (hpipe : w'.pipe c = w.pipe c ++ if ur.requestComplete then up.answer k else []) :
    Linked cfg up w' (Function.update rec k a) := by
  obtain ⟨hp, hb⟩ := h.idle c hidle.2 hidle.1
  refine h.change hw (.inr (.inl hidle.1)) (fun i hi => absurd hi (hno i)) (fun i hi => hi.eq ⟨ur, hur, hc⟩)
    (fun hcl => hclosed.trans hcl)
      (.inr (.inr ⟨hholder, ur, { codec := cfg.codec.init }, [], hur, hc, ?_, ?_, ?_, ?_⟩))
  · simp [Receiving, hs]
  · rw [hbuf, hb]
    exact up.fresh
  · exact ((up.isFrame k).ne).symm
  · rw [hpipe, hp, hbuf, hb]
    split <;> simp

/-- Every transition but those by bytes of the upstream keeps records and connections in
agreement. -/
theorem Transition.linked (ht : Transition cfg isOpen m a e os a') (wf : MsgWf a)
    (htype : a.metadata.messageType = .request)
    (h : Linked cfg up w rec) (hrec : rec (d, m) = a) (hreq : e.IsRequestOnly)
    (hoff : ∀ c, e.offers = some c → w.Idle c)
    (hkept : e = .destroy m → ∀ ur c, a.upstreamRequest = some ur → ur.conn = some c →
      ur.requestComplete = true →
      w.closed c = true) :
    Linked cfg up (os.foldl (observe up d) w) (Function.update rec (d, m) a') := by
  subst hrec
  cases ht with
  | filtered _ _ _ hnone => exact h.unheld (not_holds_of_none hnone) (not_holds_of_none hnone)
  | replied hnone _ _ hos =>
    rw [hos.observe]
    exact h.unheld (not_holds_of_none hnone) (not_holds_of_none hnone)
  | waits _ hnone =>
    refine h.unheld (not_holds_of_none hnone) fun c => ?_
    rintro ⟨ur, hur, hc⟩
    obtain rfl := Option.some.inj hur
    cases hc
  | refused hask hos ha' =>
    rw [hos.observe]
    refine h.unheld (hask.not_holds wf) fun c => ?_
    have hconn := (hask.wf wf).2.2.1
    rintro ⟨ur, hur, hc⟩
    rcases ha' with rfl | rfl <;> obtain rfl :=
      Option.some.inj hur <;> rw [UpstreamRequest.refused_conn, hconn] at hc <;>
      cases hc
  | @sent _ _ ur c _ conn bytes hask hoffer hconn =>
    obtain rfl : conn = some c := hconn.resolve_right (by simp [htype])
    have hw := (sameBut_assigned up d w c m).trans (sameBut_upstreamWrite up d _ c m bytes)
    refine h.given (hask.not_holds wf) (hoff c hoffer) rfl rfl (hask.wf wf).2.2.2.1 hw ?_ rfl rfl ?_
    · exact Function.update_self ..
    · exact Function.update_self ..
  | @unsent _ _ ur c _ hask hoffer =>
    have hcomplete : ur.requestComplete = false := (hask.wf wf).2.2.2.2
    refine h.given (hask.not_holds wf) (hoff c hoffer) rfl rfl (hask.wf wf).2.2.2.1
      (sameBut_assigned up d w c m) ?_ rfl rfl ?_
    · exact Function.update_self ..
    · simp [hcomplete, observe]
  | more | ended | complete | reset => exact hreq.elim
  | @closed ur c _ _ hur hc hos =>
    have hholds : Holds (rec (d, m)) c := ⟨ur, hur, hc⟩
    rw [List.foldl_cons, hos.observe]
    exact h.closes hholds fun i hi => hi.eq (a := (rec (d, m)).replied) hholds
  | @destroyed ur hur =>
    cases hc : ur.conn with
    | none =>
      refine h.unheld (fun c => ?_) (not_holds_of_none rfl)
      rintro ⟨ur', hur', hc'⟩
      obtain rfl := Option.some.inj (hur.symm.trans hur')
      rw [hc] at hc'
      cases hc'
    | some c => exact h.releases (d := d) hur hc (not_holds_of_none rfl) (hkept rfl ur c hur hc)
  | passed _ _ hne => exact absurd htype hne

theorem LocalReply.no_response (h : LocalReply isOpen m os) {i : MsgId} {md : Metadata α} {bytes : Bytes} :
    .response i md bytes ∉ os := by
  rcases h with rfl | ⟨-, e, b, rfl⟩ <;> simp

theorem Transition.no_response (ht : Transition cfg isOpen m a e os a') (hreq : e.IsRequestOnly) (i : MsgId)
    (md : Metadata α) (bytes : Bytes) : .response i md bytes ∉ os := by
  cases ht with
  | replied _ _ _ hos | refused _ hos => exact hos.no_response
  | closed _ _ hos => simpa using hos.no_response
  | more | ended | complete | reset => exact hreq.elim
  | @destroyed ur => cases ur.conn <;> simp [releasedOf]
  | passed _ _ _ hos =>
    intro hmem
    obtain ⟨c, b, hb⟩ := hos _ hmem
    cases hb
  | filtered | waits | sent | unsent => simp

end Transitions

/-! ## The network -/

def Net.records (net : Net σ α) (k : Asker) : ActiveMessage σ α := (net.cms k.1).messages k.2

structure Net.Live (up : Upstream cfg) (net : Net σ α) : Prop where
  wf : ∀ d, Wf (net.cms d)
  requests : ∀ k, (net.records k).metadata.messageType = .request
  streams : ∀ d, (net.cms d).activeStreamMap = []
  linked : Linked cfg up net.wires net.records

structure NetInv (up : Upstream cfg) (net : Net σ α) : Prop where
  own : OwnAnswers up net
  live : (∀ d, (net.cms d).crashed = false) → net.Live up

section Network

variable {up : Upstream cfg} {net : Net σ α} {d : DownId} {m : MsgId} {a : ActiveMessage σ α}
  {os : List (Out α)} {cm : ConnectionManager σ α} {w : Wires}

theorem advance_eq (hout : cm.out = (net.cms d).out ++ os) :
    advance up net.cms w d cm =
      { cms := Function.update net.cms d cm, wires := os.foldl (observe up d) w } := by
  simp [MetaProtocolProxy.advance, hout]

theorem records_update (hmsg : cm.messages = Function.update (net.cms d).messages m a) :
    ({ cms := Function.update net.cms d cm, wires := w } : Net σ α).records =
      Function.update net.records (d, m) a := by
  funext ⟨d', m'⟩
  rcases eq_or_ne d' d with rfl | hd
  · rcases eq_or_ne m' m with rfl | hm
    · simp [Net.records, hmsg]
    · simp [Net.records, hmsg, hm]
  · simp [Net.records, hd]

theorem OwnAnswers.advance (h : OwnAnswers up net) (hout : cm.out = (net.cms d).out ++ os)
    (hos : ∀ m md bytes, .response m md bytes ∈ os → IsAnswerTo up (d, m) md bytes) :
    OwnAnswers up { cms := Function.update net.cms d cm, wires := w } := by
  intro d' m md bytes hmem
  rcases eq_or_ne d' d with rfl | hd
  · simp only [Function.update_self, hout, List.mem_append] at hmem
    exact hmem.elim (h d' m md bytes) (hos m md bytes)
  · simp only [Function.update_of_ne hd] at hmem
    exact h d' m md bytes hmem

theorem Net.Live.advance (h : net.Live up) (wf : Wf cm)
    (hmsg : cm.messages = Function.update (net.cms d).messages m a)
    (ht : a.metadata.messageType = .request) (hs : cm.activeStreamMap = [])
    (hl : Linked cfg up w (Function.update net.records (d, m) a)) :
    ({ cms := Function.update net.cms d cm, wires := w } : Net σ α).Live up := by
  refine ⟨fun d' => ?_, fun k => ?_, fun d' => ?_, ?_⟩
  · rcases eq_or_ne d' d with rfl | hd
    · simpa using wf
    · simpa [hd] using h.wf d'
  · rw [records_update hmsg]
    rcases eq_or_ne k (d, m) with rfl | hk
    · simpa using ht
    · simpa [hk] using h.requests k
  · rcases eq_or_ne d' d with rfl | hd
    · simpa using hs
    · simpa [hd] using h.streams d'
  · rw [records_update hmsg]
    exact hl

theorem NetInv.advance {w' : Wires} (h : NetInv up net) (live : net.Live up) (wf : cm.crashed = true ∨ Wf cm)
    (hmsg : cm.messages = Function.update (net.cms d).messages m a) (hout : cm.out = (net.cms d).out ++ os)
    (ht : a.metadata.messageType = .request) (hs : cm.activeStreamMap = [])
    (hos : ∀ i md bytes, .response i md bytes ∈ os → IsAnswerTo up (d, i) md bytes)
    (hl : Linked cfg up (os.foldl (observe up d) w') (Function.update net.records (d, m) a)) :
    NetInv up (advance up net.cms w' d cm) := by
  rw [advance_eq hout]
  refine ⟨h.own.advance hout hos, fun hall => live.advance (wf.resolve_left ?_) hmsg ht hs hl⟩
  have hd := hall d
  simp only [Function.update_self] at hd
  simp [hd]

theorem netInv_event (hmux : cfg.multiplexing = false) (h : NetInv up net) {e : Event α}
    (hen : NetEnabled net (.event d e)) (hkept : NotAbandoned net (.event d e)) :
    NetInv up (netStep up net (.event d e)) := by
  obtain ⟨halive, hen, hreq, hoff⟩ := hen
  have live := h.live halive
  have hst := step_stepped hmux (live.wf d) hen
  have wf' := hst.wf (live.wf d)
  simp only [netStep]
  generalize step cfg (net.cms d) e = cm' at hst wf' ⊢
  have hkept' : ∀ {i : MsgId}, e = .destroy i → ∀ ur c, (net.records (d, i)).upstreamRequest =
      some ur → ur.conn = some c → ur.requestComplete = true → net.wires.closed c = true := by
    rintro i rfl
    exact hkept
  cases hst with
  | @moved _ m os a' _ hold hm ht hmv =>
    have htype : a'.metadata.messageType = .request := hmv.messageType.trans (live.requests (d, m))
    exact h.advance live wf' hmv.messages hmv.out htype ((hmv.streams htype).trans (live.streams d))
      (fun i md b hmem => absurd hmem (ht.no_response hreq i md b))
      (ht.linked ((live.wf d).msg m) (live.requests (d, m)) live.linked rfl hreq hoff hkept')
  | @new md encoders filters env pre os a' _ hpre hnil ht hmv =>
    obtain rfl := hnil hreq
    rw [List.nil_append] at hmv
    have hmsg : cm'.messages = Function.update (net.cms d).messages (net.cms d).nextMessage a' := by
      rw [hmv.messages]
      exact Function.update_idem ..
    have htype : a'.metadata.messageType = .request := by
      rw [hmv.messageType]
      simpa [newMessage, Event.IsRequestOnly] using hreq
    -- the record was empty before, and the new one has no connection
    have hold : net.records (d, (net.cms d).nextMessage) = {} := (live.wf d).fresh _ (Nat.le_refl _)
    have hlinked :
      Linked cfg up net.wires (Function.update net.records (d, (net.cms d).nextMessage)
        (newRecord cfg md encoders)) :=
      live.linked.unheld (fun c => by rw [hold]; exact not_holds_of_none rfl c) (not_holds_of_none rfl)
    have hl := ht.linked (.of_request_none (by simp) rfl) hreq hlinked (Function.update_self ..)
      hreq hoff (by simp)
    rw [Function.update_idem] at hl
    exact h.advance live wf' hmsg hmv.out htype ((hmv.streams htype).trans (live.streams d))
      (fun i md b hmem => absurd hmem (ht.no_response hreq i md b)) hl
  | @still _ os _ hmsg hout hos hnone hnext hh =>
    obtain ⟨rfl, hs⟩ := hnone (live.streams d)
    have hmsg' : cm'.messages = Function.update (net.cms d).messages 0 (net.records (d, 0)) := by
      rw [hmsg]
      exact (Function.update_eq_self ..).symm
    refine h.advance live wf' hmsg' hout (live.requests (d, 0)) hs (by simp) ?_
    rw [Function.update_eq_self]
    exact live.linked
  | @crashed _ os _ hcrash hout hos =>
    rw [advance_eq hout]
    refine ⟨h.own.advance hout fun m md b hmem => ?_, fun hall => ?_⟩
    · obtain ⟨i, c, hic⟩ := hos _ hmem
      cases hic
    · have hd := hall d
      simp [hcrash] at hd

/-! ## Bytes of the upstream -/

/-- A forwarded response is the decoded one with the server's address, as the codec encodes it. -/
theorem forwarded_response {md : Metadata α} {r : Option (Metadata α × Bytes)}
    (h : forwarded cfg a md = .ok r)
    {i : MsgId} {md' : Metadata α} {bytes : Bytes} (hmem : .response i md' bytes ∈ responseOuts m r) :
    i = m ∧ (∃ host, md' = md.putString realServerAddress host) ∧
      ∃ mutation, cfg.codec.encode md' mutation md'.originMessage = .ok bytes := by
  unfold forwarded at h
  split at h
  · split at h
    · cases h
    · next address _ =>
      simp only at h
      split at h
      · cases h
      · next henc =>
        obtain rfl := Except.ok.inj h
        simp only [responseOuts, List.mem_singleton, Out.response.injEq] at hmem
        obtain ⟨rfl, rfl, rfl⟩ := hmem
        exact ⟨rfl, ⟨address, rfl⟩, _, henc⟩
  · obtain rfl := Except.ok.inj h
    simp [responseOuts] at hmem

/-- What the decoder in state `s` makes of the next `n` bytes of the answer to `k`: the answer, or a
longer part of it. -/
def Arrives (up : Upstream cfg) (w : Wires) (k : Asker) (c : ConnId) (n : Nat) (s : σ) : Prop :=
  (∃ s', cfg.codec.decodeAs .response s (w.arriving c n) = .done s' (up.reply k) [] ∧
    (w.pipe c).drop n = []) ∨
    ∃ s' rest p, cfg.codec.decodeAs .response s (w.arriving c n) = .wait s' rest ∧ up.R p s' rest ∧
      p ≠ up.answer k ∧ p ++ (w.pipe c).drop n = up.answer k

theorem InFlight.arrives {k : Asker} {c : ConnId} (h : InFlight cfg up w k a c)
    (hpipe : w.pipe c ≠ []) (n : Nat) :
    ∃ ur dd, a.upstreamRequest = some ur ∧ ur.conn = some c ∧ Receiving cfg a ur dd ∧
      ur.requestComplete = true ∧ Arrives up w k c n dd.codec := by
  obtain ⟨ur, dd, p, hur, hc, hd, hR, hne, hif⟩ := h
  have hcomplete : ur.requestComplete = true := by
    by_contra hno
    rw [if_neg hno] at hif
    exact hpipe hif.2.1
  rw [if_pos hcomplete] at hif
  refine ⟨ur, dd, hur, hc, hd, hcomplete, ?_⟩
  have hsplit : (p ++ (w.pipe c).take n) ++ (w.pipe c).drop n = up.answer k := by
    rw [List.append_assoc, List.take_append_drop, hif]
  by_cases hall : p ++ (w.pipe c).take n = up.answer k
  · have hdrop : (w.pipe c).drop n = [] := by
      rw [hall] at hsplit
      exact List.append_right_eq_self.1 hsplit
    have hend : p ++ (w.pipe c).take n = up.answer k ++ [] := by rw [hall, List.append_nil]
    obtain ⟨s', hdone, -⟩ := (up.isFrame k).done hR ⟨w.pipe c, hif⟩ hne hend
    exact .inl ⟨s', hdone, hdrop⟩
  · obtain ⟨s', rest, hwait, hR'⟩ := (up.isFrame k).waits hR ⟨(w.pipe c).drop n, hsplit⟩ hall
    exact .inr ⟨s', rest, _, hwait, hR', hall, hsplit⟩

section Arrives

variable {k : Asker} {c : ConnId} {n : Nat} {s s' : σ} {rest : Bytes} {md : Metadata α}

theorem Arrives.of_done (h : Arrives up w k c n s)
    (hdone : cfg.codec.decodeAs .response s (w.arriving c n) = .done s' md rest) :
    md = up.reply k ∧ rest = [] ∧ (w.pipe c).drop n = [] := by
  rcases h with ⟨s'', hdone', hdrop⟩ | ⟨s'', rest', p, hwait, -⟩
  · obtain ⟨-, rfl, rfl⟩ := Framing.Step.done.inj (hdone.symm.trans hdone')
    exact ⟨rfl, rfl, hdrop⟩
  · cases hdone.symm.trans hwait

theorem Arrives.of_quiet (h : Arrives up w k c n s) (hq : Quiet cfg s (w.arriving c n) s' rest) :
    ∃ p, up.R p s' rest ∧ p ≠ up.answer k ∧ p ++ (w.pipe c).drop n = up.answer k := by
  rcases hq with hq | ⟨md, hq, hb⟩
  · rcases h with ⟨s'', hdone, -⟩ | ⟨s'', rest', p, hwait, hR, hne, hsplit⟩
    · cases hq.symm.trans hdone
    · obtain ⟨rfl, rfl⟩ := Framing.Step.wait.inj (hq.symm.trans hwait)
      exact ⟨p, hR, hne, hsplit⟩
  · obtain ⟨rfl, -⟩ := h.of_done hq
    exact absurd hb (up.isResponse k)

theorem Arrives.isAnswer {isOpen : Bool} {r : Option (Metadata α × Bytes)} (h : Arrives up w (d, m) c n s)
    (hdone : cfg.codec.decodeAs .response s (w.arriving c n) = .done s' md rest)
    (hfw : Forwards cfg isOpen a md r)
    {i : MsgId} {md' : Metadata α} {bytes : Bytes} (hmem : .response i md' bytes ∈ responseOuts m r) :
    IsAnswerTo up (d, i) md' bytes := by
  obtain ⟨rfl, -⟩ := h.of_done hdone
  rcases hfw with rfl | ⟨-, hfw⟩
  · simp [responseOuts] at hmem
  · obtain ⟨rfl, hanswer⟩ := forwarded_response hfw hmem
    exact hanswer

end Arrives

theorem netInv_deliver (h : NetInv up net) {c : ConnId} {n : Nat} (hen : NetEnabled net (.deliver c n)) :
    NetInv up (netStep up net (.deliver c n)) := by
  obtain ⟨halive, -, hpipe, hopen, hheld⟩ := hen
  obtain ⟨⟨d, m⟩, hk⟩ := Option.ne_none_iff_exists'.1 hheld
  have live := h.live halive
  have wf := (live.wf d).msg m
  have hfl := live.linked.busy (d, m) c hopen hk
  obtain ⟨ur, dd, hur, hc, hd, hcomplete, harr⟩ := hfl.arrives hpipe n
  have hholds : ∀ i, Holds (net.records (d, m)) i → i = c := fun i hi => hi.eq hfl.holds
  have hout := onUpstreamData_outcome rfl hur (wf.direct ur hur) (wf.kind ur hur) hc hd
    (net.wires.arriving c n) false
  have wf' : _ ∨ Wf (onUpstreamData cfg (net.cms d) m (net.wires.arriving c n) false).1 :=
    (stepped_upstreamData (live.wf d) hur hc (net.wires.arriving c n) false).wf (live.wf d)
  simp only [netStep, hk]
  generalize onUpstreamData cfg (net.cms d) m (net.wires.arriving c n) false = r at hout wf' ⊢
  obtain ⟨cm', rest⟩ := r
  simp only at hout wf' ⊢
  have hsame := sameBut_taken net.wires c n rest
  have hadv : ∀ {a' : ActiveMessage σ α} {os : List (Out α)}, Effect (net.cms d) m a' os cm' →
      (∀ i md' b, .response i md' b ∈ os → IsAnswerTo up (d, i) md' b) →
      Linked cfg up (os.foldl (observe up d) (net.wires.taken c n rest))
        (Function.update net.records (d, m) a') →
      NetInv up (MetaProtocolProxy.advance up net.cms (net.wires.taken c n rest) d cm') := by
    intro a' os he hos hl
    have htype : a'.metadata.messageType = .request := he.messageType.trans (live.requests (d, m))
    exact h.advance live wf' he.messages he.out htype ((he.streams htype).trans (live.streams d)) hos hl
  cases hout with
  | more hq _ he =>
    obtain ⟨p, hR, hne, hsplit⟩ := harr.of_quiet hq
    refine hadv he (by simp) (live.linked.change hsame (.inr (.inr hk)) hholds (fun i hi => ?_) id
      (.inr (.inr ⟨hk, ?_⟩)))
    · obtain ⟨ur', hur', hc'⟩ := hi
      obtain rfl := Option.some.inj hur'
      exact Option.some.inj (hc'.symm.trans hc)
    · refine ⟨_, _, p, rfl, hc, ⟨rfl, hd.status⟩, ?_, hne, ?_⟩
      · simpa [Wires.taken, ActiveResponseDecoder.stored] using hR
      · simpa [Wires.taken, hcomplete] using hsplit
  | ended hend => cases hend
  | complete hdone hr he =>
    obtain ⟨-, rfl, hdrop⟩ := harr.of_done hdone
    refine hadv he (fun i md' b hmem => harr.isAnswer hdone hr (by simpa using hmem)) ?_
    rw [List.foldl_append, observe_responseOuts]
    refine live.linked.change (hsame.trans (sameBut_released up d _ c))
      (.inr (.inr hk)) hholds (fun i hi => absurd hi (not_holds_of_none rfl i)) id
      (.inr (.inl ⟨Function.update_self .., not_holds_of_none rfl c, ?_, Function.update_self ..⟩))
    exact (Function.update_self ..).trans hdrop
  | @reset _ r _ os₁ os₂ _ _ hr hos₁ hos₂ he =>
    refine hadv he (fun i md' b hmem => ?_) ?_
    · have hmem' : .response i md' b ∈ responseOuts m r := by
        simpa [hos₁.no_response, hos₂.no_response] using hmem
      rcases hr with rfl | ⟨s', md, rest', hdone, hfw⟩
      · simp [responseOuts] at hmem'
      · exact harr.isAnswer hdone hfw hmem'
    · rw [List.foldl_append, List.foldl_append, observe_responseOuts, hos₁.observe, List.foldl_cons,
        hos₂.observe]
      refine live.linked.change (hsame.trans (sameBut_upstreamClosed up d _ c))
        (.inr (.inr hk)) hholds (fun i hi => ?_) (fun _ => Function.update_self ..)
          (.inl (Function.update_self ..))
      obtain ⟨ur', hur', hc'⟩ := hi
      obtain rfl := Option.some.inj hur'
      cases hc'
  | crashed hcrash he =>
    rw [advance_eq he.out]
    refine ⟨h.own.advance he.out (by simp), fun hall => ?_⟩
    have hd := hall d
    simp [hcrash] at hd

theorem netInv_idleClosed (h : NetInv up net) {c : ConnId} (hen : NetEnabled net (.idleClosed c)) :
    NetInv up (netStep up net (.idleClosed c)) := by
  obtain ⟨halive, -⟩ := hen
  have live := h.live halive
  have hcl : ∀ i, Function.update net.wires.closed c true i = false → net.wires.closed i = false := by
    intro i hi
    rcases eq_or_ne i c with rfl | hne
    · simp at hi
    · rwa [Function.update_of_ne hne] at hi
  refine ⟨h.own, fun _ => ⟨live.wf, live.requests, live.streams, fun k i hi => ?_, fun i hi => ?_,
    fun k i hi hk => ?_⟩⟩
  · rcases live.linked.held k i hi with hi | hi
    · refine .inl ?_
      by_contra hno
      simp only [netStep, Bool.not_eq_true] at hno
      simp [hcl i hno] at hi
    · exact .inr hi
  · exact live.linked.idle i (hcl i hi)
  · exact live.linked.busy k i (hcl i hi) hk

theorem netInv_init : NetInv up ({} : Net σ α) := by
  refine ⟨fun d m md b hmem => absurd hmem (by simp), fun _ =>
    ⟨fun d => ?_, fun _ => rfl, fun _ => rfl, fun k c hh => ?_, ?_, ?_⟩⟩
  · exact ⟨fun _ => .of_request_none (by simp) rfl, fun _ _ => rfl, fun _ => rfl⟩
  · exact absurd hh (not_holds_of_none rfl c)
  · exact fun _ _ _ => ⟨rfl, rfl⟩
  · exact fun k c _ hk => absurd hk (by simp)

end Network

/-- In every run without multiplexing in which no message is destroyed while its request is sent and
its connection is open, every response written to a downstream connection is the upstream's answer
to the request of its message, in every state of the run. -/
theorem responses_do_not_cross (cfg : Config σ α) (hmux : cfg.multiplexing = false) (up : Upstream cfg)
    (es : List (NetEvent α))
    (hrun : Runs.Guarded (netStep up) (fun net e => NetEnabled net e ∧ NotAbandoned net e) {} es)
    (n : Nat) : OwnAnswers up (Runs.run (netStep up) {} (es.take n)) := by
  have hstep : ∀ net e, NetInv up net → NetEnabled net e ∧ NotAbandoned net e →
      NetInv up (netStep up net e) := by
    rintro net e hinv ⟨hen, hkept⟩
    cases e with
    | event d e => exact netInv_event hmux hinv hen hkept
    | deliver c n => exact netInv_deliver hinv hen
    | idleClosed c => exact netInv_idleClosed hinv hen
  exact (hrun.invariant_take hstep netInv_init n).own

section Concrete

open Trpc

def answerOf (k : Asker) : Bytes := responseFrame (if k.1 = 0 then 5 else 6)

theorem answerOf_wellFormed (k : Asker) :
    WellFormedFrame wireProtobuf .response (answerOf k) { dataFrameSize := 18, pbHeaderSize := 2 } := by
  unfold answerOf
  split <;> exact ⟨by decide, by decide, by decide, by decide⟩

def sampleUpstream : Upstream trpcConfig where
  answer := answerOf
  reply k := frameMetadata Unit wireProtobuf .response (answerOf k)
  R := Resumes wireProtobuf .response
  fresh := resumes_boundary rfl []
  isFrame k := isFrame (answerOf_wellFormed k)
  isResponse _ := frameMetadata_ne_heartbeat (by decide)

theorem alive_of_two {net : Net TrpcCodec Unit} (h₀ : (net.cms 0).crashed = false)
    (h₁ : (net.cms 1).crashed = false)
   (h : ∀ d, net.cms (d + 2) = {}) (d : DownId) : (net.cms d).crashed = false := by
  rcases d with _ | _ | d
  · exact h₀
  · exact h₁
  · rw [h]

/-- The first client waits for its answer; then the second one gets the connection. -/
def patient : List (NetEvent Unit) :=
  [.event 0 (requestWith 5), .deliver 3 7, .deliver 3 18, .event 0 (.destroy 0),
    .event 1 (requestWith 6), .deliver 3 18]

theorem responses_do_not_cross_patient :
    (∃ md bytes, .response 0 md bytes ∈ ((Runs.run (netStep sampleUpstream) {} (patient.take 6)).cms 1).out) ∧
      OwnAnswers sampleUpstream (Runs.run (netStep sampleUpstream) {} (patient.take 6)) := by
  refine ⟨⟨_, _, List.Mem.tail _ (List.Mem.tail _ (List.Mem.head _))⟩,
    responses_do_not_cross trpcConfig rfl sampleUpstream patient ?_ 6⟩
  refine ⟨⟨⟨fun _ => rfl, ⟨rfl, trivial⟩, rfl, fun c hc => ⟨rfl, rfl⟩⟩, trivial⟩,
    ⟨⟨alive_of_two rfl rfl fun _ =>
      rfl, by decide, List.cons_ne_nil _ _, rfl, Option.some_ne_none _⟩, trivial⟩,
    ⟨⟨alive_of_two rfl rfl fun _ =>
      rfl, by decide, List.cons_ne_nil _ _, rfl, Option.some_ne_none _⟩, trivial⟩,
    ⟨⟨alive_of_two rfl rfl fun _ => rfl, ⟨rfl, List.mem_singleton.2 rfl⟩,
      trivial, by simp [Event.offers]⟩, ?_⟩,
    ⟨⟨alive_of_two rfl rfl fun _ => rfl, ⟨rfl, trivial⟩, rfl, ?_⟩, trivial⟩,
    ⟨⟨alive_of_two rfl rfl fun _ =>
      rfl, by decide, List.cons_ne_nil _ _, rfl, Option.some_ne_none _⟩, trivial⟩, trivial⟩
  · intro ur c hur
    cases hur
  · rintro c hc
    obtain rfl := Option.some.inj hc
    exact ⟨rfl, rfl⟩

/-- The first client leaves before its answer has come, and the second one gets the connection. -/
def abandoned : List (NetEvent Unit) :=
  [.event 0 (requestWith 5), .event 0 (.downstreamEvent .remoteClose), .event 0 (.destroy 0),
    .event 1 (requestWith 6), .deliver 3 18]

/-- The second client is sent the answer to the first. -/
theorem abandoned_answer_crosses :
    Runs.Guarded (netStep sampleUpstream) NetEnabled {} abandoned ∧
      ¬OwnAnswers sampleUpstream (Runs.run (netStep sampleUpstream) {} abandoned) := by
  refine ⟨⟨⟨fun _ => rfl, ⟨rfl, trivial⟩, rfl, fun c hc => ⟨rfl, rfl⟩⟩,
    ⟨alive_of_two rfl rfl fun _ => rfl, ⟨rfl, trivial⟩, trivial, by simp [Event.offers]⟩,
    ⟨alive_of_two rfl rfl fun _ => rfl, ⟨rfl, List.mem_singleton.2 rfl⟩, trivial, by simp [Event.offers]⟩,
    ⟨alive_of_two rfl rfl fun _ => rfl, ⟨rfl, trivial⟩, rfl, ?_⟩,
    ⟨alive_of_two rfl rfl fun _ =>
      rfl, by decide, List.cons_ne_nil _ _, rfl, Option.some_ne_none _⟩, trivial⟩, ?_⟩
  · rintro c hc
    obtain rfl := Option.some.inj hc
    exact ⟨rfl, rfl⟩
  · intro h
    obtain ⟨⟨host, hmd⟩, -⟩ := h 1 0 _ _ (List.Mem.tail _ (List.Mem.tail _ (List.Mem.head _)))
    have hid : (5 : Nat) = 6 := congrArg Metadata.requestId hmd
    cases hid

end Concrete

end MetaProtocolProxy
