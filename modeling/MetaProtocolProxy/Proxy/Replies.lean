import MetaProtocolProxy.Lib.Runs
import MetaProtocolProxy.Proxy.Lifecycle
import MetaProtocolProxy.Trpc.Codec
/-
# One reply per request

Replies are written for a message from several places: the forwarded response, the filters, a
refused connection, a closed one, an incomplete response, and the two replies of a rejected one.
`Once` is what keeps them apart: once a reply has been written, the message's request neither waits
for the pool nor has a connection that can still deliver anything, and its filters do not run again.

A response that is rejected while the downstream connection is open is the exception. It is
answered by `ActiveMessage::onError`, and again when the close of the upstream connection comes
back as an event; a response with the id of another request has been forwarded before that
(`mismatched_response_written_thrice`).
-/
namespace MetaProtocolProxy

variable {σ α : Type}

/-- A message written to the downstream connection on behalf of `m`. -/
def Out.repliesTo (m : MsgId) : Out α → Bool
  | .response i _ _ => i = m
  | .localReply i _ _ => i = m
  | _ => false

def replies (cm : ConnectionManager σ α) (m : MsgId) : Nat := cm.out.countP (Out.repliesTo m)

def closedIn (out : List (Out α)) (c : ConnId) : Prop := .upstreamClosed c ∈ out

structure Settled (a : ActiveMessage σ α) (closed : ConnId → Prop) : Prop where
  request : ∀ ur, a.upstreamRequest = some ur → ur.handle = false ∧ ∀ c, ur.conn = some c → closed c
  filters : a.pendingStreamDecoded = true → a.localResponseSent = true

def Once (a : ActiveMessage σ α) (k : Nat) (closed : ConnId → Prop) : Prop := k = 0 ∨ k = 1 ∧ Settled a closed

/-- The event comes from the connection of `m`. -/
def Event.FromConnection (m : MsgId) : Event α → Prop
  | .upstreamData i _ _ => i = m
  | .upstreamEvent i _ => i = m
  | _ => False

/-- The bytes do not make the router reset a request whose downstream connection is open. -/
def Acceptable (cfg : Config σ α) (cm : ConnectionManager σ α) : Event α → Prop
  | .upstreamData m data _ => cm.connectionOpen = true → ∀ ur d, (cm.messages m).upstreamRequest = some ur →
      Receiving cfg (cm.messages m) ur d → ¬Rejected cfg (cm.messages m) d.codec data
  | _ => True

section

variable {cfg : Config σ α} {isOpen : Bool} {m : MsgId} {a a' : ActiveMessage σ α} {e : Event α}
  {os : List (Out α)} {k : Nat} {closed : ConnId → Prop}

theorem LocalReply.count (h : LocalReply isOpen m os) : os.countP (Out.repliesTo m) ≤ 1 := by
  rcases h with rfl | ⟨-, e, b, rfl⟩ <;> simp [Out.repliesTo]

theorem responseOuts_count (r : Option (Metadata α × Bytes)) :
    (responseOuts m r).countP (Out.repliesTo m) ≤ 1 := by
  rcases r with _ | ⟨md, b⟩ <;> simp [responseOuts, Out.repliesTo]

theorem LocalReply.nil_of_closed (h : LocalReply false m os) : os = [] := by
  rcases h with h | ⟨h, -⟩
  · exact h
  · cases h

theorem Forwards.none_of_closed {md : Metadata α} {r : Option (Metadata α × Bytes)}
    (h : Forwards cfg false a md r) : r = none := by
  rcases h with h | ⟨h, -⟩
  · exact h
  · cases h

theorem releasedOf_count (conn : Option ConnId) :
    (releasedOf conn).countP (Out.repliesTo (α := α) m) = 0 := by
  cases conn <;> simp [releasedOf, Out.repliesTo]

theorem Once.of_le (hk : k ≤ 1) (hs : Settled a closed) : Once a k closed := by
  unfold Once
  rcases Nat.le_one_iff_eq_zero_or_eq_one.1 hk with h | h
  · exact .inl h
  · exact .inr ⟨h, hs⟩

theorem Once.unfiltered (h : Once a k closed) (hnew : e.IsNew → k = 0)
    (hwhen : a.pendingStreamDecoded = true ∨ e.IsNew)
    (hsent : a.localResponseSent = false) : k = 0 := by
  rcases h with h | ⟨-, hs⟩
  · exact h
  · rcases hwhen with hp | hn
    · rw [hs.filters hp] at hsent
      cases hsent
    · exact hnew hn

theorem Once.unasked {b : ActiveMessage σ α} {ur : UpstreamRequest} (h : Once a k closed)
    (hnew : e.IsNew → k = 0) (hask : Asking a e b ur) : k = 0 := by
  cases hask with
  | atOnce _ _ hwhen hsent => exact h.unfiltered hnew hwhen hsent
  | later hur hh =>
    rcases h with h | ⟨-, hs⟩
    · exact h
    · rw [(hs.request _ hur).1] at hh
      cases hh

theorem Once.unanswered {ur : UpstreamRequest} {c : ConnId} (h : Once a k closed)
    (hur : a.upstreamRequest = some ur) (hc : ur.conn = some c) (hopen : ¬closed c) : k = 0 := by
  rcases h with h | ⟨-, hs⟩
  · exact h
  · exact absurd ((hs.request _ hur).2 c hc) hopen

theorem Transition.once (wf : MsgWf a) (h : Once a k closed) (ht : Transition cfg isOpen m a e os a')
    (hnew : e.IsNew → k = 0)
    (hopen : e.FromConnection m → ∀ ur c, a.upstreamRequest = some ur → ur.conn = some c → ¬closed c)
    (hacc : ∀ data endStream, e = .upstreamData m data endStream → isOpen = true →
      ∀ ur d, a.upstreamRequest = some ur → Receiving cfg a ur d → ¬Rejected cfg a d.codec data) :
    Once a' (k + os.countP (Out.repliesTo m)) fun c => closed c ∨ .upstreamClosed c ∈ os := by
  cases ht with
  | filtered _ _ _ hreq hwhen hp =>
    rcases h with rfl | ⟨rfl, hs⟩
    · exact .inl rfl
    · refine .inr ⟨rfl, fun ur hur => absurd (hreq.symm.trans hur) (by simp), fun hpend => ?_⟩
      rcases hwhen with hw | hn
      · exact hs.filters hw
      · exact absurd (hnew hn) (by simp)
  | replied hreq hwhen hsent hos =>
    obtain rfl := h.unfiltered hnew hwhen hsent
    rw [Nat.zero_add]
    exact .of_le hos.count ⟨fun ur hur => absurd (hreq.symm.trans hur) (by simp), fun _ => rfl⟩
  | waits _ _ hwhen hsent => exact .inl (by simp [h.unfiltered hnew hwhen hsent])
  | refused hask hos ha' =>
    have hconn := (hask.wf wf).2.2.1
    obtain rfl := h.unasked hnew hask
    rw [Nat.zero_add]
    refine .of_le hos.count ?_
    rcases ha' with rfl | rfl <;> refine ⟨?_, fun _ => rfl⟩ <;> rintro _ ⟨⟩ <;> exact ⟨rfl, by simp [hconn]⟩
  | sent hask => exact .inl (by simp [h.unasked hnew hask, Out.repliesTo])
  | unsent hask => exact .inl (by simp [h.unasked hnew hask, Out.repliesTo])
  | more hur hc => exact .inl (by simp [h.unanswered hur hc (hopen rfl _ _ hur hc)])
  | ended hur hc hd hos =>
    obtain rfl := h.unanswered hur hc (hopen rfl _ _ hur hc)
    refine .of_le ?_ ⟨by simp, fun _ => rfl⟩
    simpa [Out.repliesTo] using hos.count
  | complete hur hc hd hdec hr =>
    obtain rfl := h.unanswered hur hc (hopen rfl _ _ hur hc)
    have hflow := wf.flowing _ hur (by simp [hc])
    refine .of_le ?_ ⟨by simp, by simp [hflow]⟩
    simpa [Out.repliesTo] using responseOuts_count _
  | reset hur hc hd hwhy hr hos₁ hos₂ =>
    -- an acceptable response is rejected only when the downstream is gone, and then nothing is written
    have hclosed : isOpen = false := Bool.eq_false_iff.2 fun ho => hacc _ _ rfl ho _ _ hur hd (hwhy ho)
    subst hclosed
    obtain rfl := h.unanswered hur hc (hopen rfl _ _ hur hc)
    refine .inl ?_
    rw [hr.elim id fun ⟨_, _, _, _, hf⟩ => hf.none_of_closed, hos₁.nil_of_closed, hos₂.nil_of_closed]
    simp [responseOuts, Out.repliesTo]
  | @closed ur c _ _ hur hc hos =>
    obtain rfl := h.unanswered hur hc (hopen rfl _ _ hur hc)
    refine .of_le (by simpa [Out.repliesTo] using hos.count) ⟨fun ur' hur' => ?_, fun _ => rfl⟩
    obtain rfl := Option.some.inj (hur.symm.trans hur')
    have hw : ur.handle = false := Bool.eq_false_iff.2 fun hw => by simp [(wf.waiting _ hur hw).1] at hc
    exact ⟨hw, fun c' hc' => .inr (by simp [Option.some.inj (hc.symm.trans hc')])⟩
  | destroyed hur =>
    rw [releasedOf_count, Nat.add_zero]
    exact h.imp id fun ⟨hk, hs⟩ => ⟨hk, by simp, hs.filters⟩
  | passed _ hn _ hos =>
    refine .inl ?_
    rw [hnew hn, Nat.zero_add, List.countP_eq_zero]
    intro o ho
    obtain ⟨c, bytes, rfl⟩ := hos o ho
    simp [Out.repliesTo]

theorem Transition.replies_self (ht : Transition cfg isOpen m a e os a') {i : MsgId} (hi : i ≠ m) :
    os.countP (Out.repliesTo i) = 0 := by
  have hlocal : ∀ {os : List (Out α)}, LocalReply isOpen m os → os.countP (Out.repliesTo i) = 0 := by
    rintro os (rfl | ⟨-, e, b, rfl⟩) <;> simp [Out.repliesTo, hi.symm]
  have hresp : ∀ r : Option (Metadata α × Bytes), (responseOuts m r).countP (Out.repliesTo i) = 0 := by
    rintro (_ | ⟨md, b⟩) <;> simp [responseOuts, Out.repliesTo, hi.symm]
  cases ht with
  | replied _ _ _ hos | refused _ hos => exact hlocal hos
  | ended _ _ _ hos | closed _ _ hos => simp [hlocal hos, Out.repliesTo]
  | complete => simp [hresp, Out.repliesTo]
  | reset _ _ _ _ _ hos₁ hos₂ => simp [hresp, hlocal hos₁, hlocal hos₂, Out.repliesTo]
  | destroyed => exact releasedOf_count _
  | passed _ _ _ hos =>
    rw [List.countP_eq_zero]
    intro o ho
    obtain ⟨c, bytes, rfl⟩ := hos o ho
    simp [Out.repliesTo]
  | filtered | waits | sent | unsent | more => simp [Out.repliesTo]

end

/-! ## Runs -/

/-- The invariant: at most one reply per message, and as long as the process is there, none can
follow. -/
structure RepliesInv (cm : ConnectionManager σ α) : Prop where
  atMostOne : ∀ m, replies cm m ≤ 1
  wf : cm.crashed = false → Wf cm
  once : cm.crashed = false → ∀ m, Once (cm.messages m) (replies cm m) (closedIn cm.out)
  fresh : cm.crashed = false → ∀ m, cm.nextMessage ≤ m → replies cm m = 0

section

variable {cfg : Config σ α} {cm cm' : ConnectionManager σ α} {m : MsgId} {a a' : ActiveMessage σ α}
  {e : Event α} {os : List (Out α)} {k : Nat} {closed closed' : ConnId → Prop}

theorem Once.le (h : Once a k closed) : k ≤ 1 := by
  rcases h with rfl | ⟨rfl, -⟩ <;> omega

theorem Once.mono (h : Once a k closed) (hcl : ∀ c, closed c → closed' c) : Once a k closed' :=
  h.imp id fun ⟨hk, hs⟩ =>
    ⟨hk, fun ur hur => ⟨(hs.request ur hur).1, fun c hc => hcl c ((hs.request ur hur).2 c hc)⟩, hs.filters⟩

theorem replies_append (hout : cm'.out = cm.out ++ os) (i : MsgId) :
    replies cm' i = replies cm i + os.countP (Out.repliesTo i) := by
  unfold replies
  rw [hout, List.countP_append]

theorem repliesInv_init : RepliesInv ({} : ConnectionManager σ α) where
  atMostOne m := by simp [replies]
  wf _ := ⟨fun _ => .of_request_none (by simp) rfl, fun _ _ => rfl, fun _ => rfl⟩
  once _ m := .inl rfl
  fresh _ m _ := rfl

theorem Moved.once (h : Moved cm m a' os cm')
    (hself : Once a' (replies cm m + os.countP (Out.repliesTo m)) fun c => closedIn cm.out c ∨
      .upstreamClosed c ∈ os)
    (hos : ∀ i, i ≠ m → os.countP (Out.repliesTo i) = 0)
    (hother : ∀ i, i ≠ m → Once (cm.messages i) (replies cm i) (closedIn cm.out)) (i : MsgId) :
    Once (cm'.messages i) (replies cm' i) (closedIn cm'.out) := by
  have hcl : ∀ c, closedIn cm.out c ∨ .upstreamClosed c ∈ os → closedIn cm'.out c := by
    intro c hc
    unfold closedIn
    rw [h.out]
    exact List.mem_append.2 hc
  rw [h.messages, replies_append h.out]
  rcases eq_or_ne i m with rfl | hi
  · rw [Function.update_self]
    exact hself.mono hcl
  · rw [Function.update_of_ne hi, hos i hi, Nat.add_zero]
    exact (hother i hi).mono fun c hc => hcl c (.inl hc)

theorem RepliesInv.of_once (wf : cm'.crashed = true ∨ Wf cm')
    (hon : ∀ m, Once (cm'.messages m) (replies cm' m) (closedIn cm'.out))
    (hfresh : ∀ m, cm'.nextMessage ≤ m → replies cm' m = 0) : RepliesInv cm' :=
  ⟨fun m => (hon m).le, fun hc => wf.resolve_left (by simp [hc]), fun _ => hon, fun _ => hfresh⟩

/-- The connection an event comes from is that of the message's request, and has not been closed. -/
theorem Enabled.connection {e : Event α} (hen : Enabled cm e) (hfrom : e.FromConnection m) :
    ∃ ur c, (cm.messages m).upstreamRequest = some ur ∧ ur.conn = some c ∧ .upstreamClosed c ∉ cm.out := by
  obtain ⟨-, hen⟩ := hen
  cases e with
  | upstreamData i data endStream =>
    obtain rfl : i = m := hfrom
    exact hen.2
  | upstreamEvent i event =>
    obtain rfl : i = m := hfrom
    exact hen.2
  | _ => exact hfrom.elim

/-- What the events of an enabled and acceptable step mean for the message they are for. -/
theorem Transition.once_of_enabled (hinv : RepliesInv cm) (hen : Enabled cm e) (hacc : Acceptable cfg cm e)
    (ht : Transition cfg cm.connectionOpen m (cm.messages m) e os a') (hnew : ¬e.IsNew) :
    Once a' (replies cm m + os.countP (Out.repliesTo m)) fun c => closedIn cm.out c ∨
      .upstreamClosed c ∈ os := by
  refine ht.once ((hinv.wf hen.1).msg m) (hinv.once hen.1 m) (fun h => absurd h hnew) ?_ ?_
  · intro hfrom ur c hur hc
    obtain ⟨ur', c', hur', hc', hopen⟩ := hen.connection hfrom
    obtain rfl := Option.some.inj (hur.symm.trans hur')
    obtain rfl := Option.some.inj (hc.symm.trans hc')
    exact hopen
  · rintro data endStream rfl hopen
    exact hacc hopen

theorem count_released (h : ∀ o ∈ os, ∃ c, o = .released c) (i : MsgId) :
    os.countP (Out.repliesTo i) = 0 := by
  rw [List.countP_eq_zero]
  intro o ho
  obtain ⟨c, rfl⟩ := h o ho
  simp [Out.repliesTo]

theorem step_repliesInv (hmux : cfg.multiplexing = false) (hinv : RepliesInv cm) (hen : Enabled cm e)
    (hacc : Acceptable cfg cm e) : RepliesInv (step cfg cm e) := by
  have wf := hinv.wf hen.1
  have hst := step_stepped hmux wf hen
  have hfresh := hinv.fresh hen.1
  have hother := hinv.once hen.1
  have wf' := hst.wf wf
  generalize step cfg cm e = cm' at hst wf'
  cases hst with
  | moved hold hm ht h =>
    refine .of_once wf'
      (h.once (ht.once_of_enabled hinv hen hacc hold) (fun i hi => ht.replies_self hi) fun i _ => hother i)
      fun i hi => ?_
    rw [h.nextMessage] at hi
    rw [replies_append h.out, hfresh i hi, ht.replies_self (Nat.ne_of_gt (Nat.lt_of_lt_of_le hm hi))]
  | @new md encoders filters env pre os a' _ hpre hreq ht h =>
    have hzero : replies cm cm.nextMessage = 0 := hfresh _ (Nat.le_refl _)
    have hcount : ∀ i, (pre ++ os).countP (Out.repliesTo i) = os.countP (Out.repliesTo i) := by
      intro i
      rw [List.countP_append, count_released hpre, Nat.zero_add]
    have hone : Once a' (0 + os.countP (Out.repliesTo cm.nextMessage))
        fun c => closedIn cm.out c ∨ .upstreamClosed c ∈ os :=
      ht.once (.of_request_none (by simp) rfl) (.inl rfl) (fun _ => rfl) (fun hf => hf.elim) (by simp)
    refine .of_once wf' (h.once ?_ (fun i hi => ?_) fun i hi => ?_) fun i hi => ?_
    · rw [hcount]
      show Once a' (replies cm cm.nextMessage + _) _
      rw [hzero]
      exact hone.mono fun c hc => hc.imp id fun hc => List.mem_append_right _ hc
    · rw [hcount, ht.replies_self hi]
    · simp only [newMessage, Function.update_of_ne hi]
      exact hother i
    · rw [h.nextMessage] at hi
      have hlt : cm.nextMessage < i := hi
      rw [replies_append h.out, hcount, ht.replies_self (Nat.ne_of_gt hlt)]
      exact hfresh i (Nat.le_of_lt hlt)
  | still hmsg hout hos hnone hnext hh =>
    refine .of_once wf' (fun i => ?_) fun i hi => ?_
    · rw [hmsg, replies_append hout, count_released hos, Nat.add_zero]
      refine (hother i).mono fun c hc => ?_
      unfold closedIn
      rw [hout]
      exact List.mem_append_left _ hc
    · rw [replies_append hout, count_released hos]
      exact hfresh i (hnext ▸ hi)
  | crashed hcrash hout hos =>
    refine ⟨fun i => ?_, by simp [hcrash], by simp [hcrash], by simp [hcrash]⟩
    rw [replies_append hout, List.countP_eq_zero.2]
    · exact hinv.atMostOne i
    · intro o ho
      obtain ⟨m, c, rfl⟩ := hos o ho
      simp [Out.repliesTo]

end

/-- In every run without multiplexing in which no response is rejected while the downstream
connection is open, at most one message has been written to it on behalf of any request, in every
state of the run. -/
theorem at_most_one_reply (cfg : Config σ α) (hmux : cfg.multiplexing = false) (es : List (Event α))
    (hrun : Runs.Guarded (step cfg) (fun cm e => Enabled cm e ∧ Acceptable cfg cm e) {} es)
    (n : Nat) (m : MsgId) : replies (Runs.run (step cfg) {} (es.take n)) m ≤ 1 := by
  have hinv : RepliesInv (Runs.run (step cfg) {} (es.take n)) :=
    hrun.invariant_take (fun cm e hinv hg => step_repliesInv hmux hinv hg.1 hg.2) repliesInv_init n
  exact hinv.atMostOne m

section Concrete

open Trpc

/-- tRPC without multiplexing. -/
def trpcConfig : Config TrpcCodec Unit :=
  { codec := trpcCodec Unit wireProtobuf, applicationProtocol := "trpc", multiplexing := false }

/-- A request with the given id for which the pool has connection 3 at once. -/
def requestWith (id : Nat) : Event Unit :=
  .decoded { messageType := .request, requestId := id } [] []
    { route := some { clusterName := "c" }, cluster := some { host := some "h" }, pool := .ready 3 }

/-- A response with the given id. -/
def responseFrame (id : UInt8) : Bytes := [0x09, 0x30, 0, 0, 0, 0, 0, 18, 0, 2, 0, 0, 0, 0, 0, 0, 0x18, id]

theorem at_most_one_reply_answered :
    replies (Runs.run (step trpcConfig) {} [requestWith 5, .upstreamData 0 (responseFrame 5) false]) 0 = 1 ∧
      replies (Runs.run (step trpcConfig) {}
        ([requestWith 5, .upstreamData 0 (responseFrame 5) false].take 2)) 0 ≤ 1 := by
  refine ⟨rfl, at_most_one_reply trpcConfig rfl _ ?_ 2 0⟩
  refine ⟨⟨⟨rfl, trivial⟩, trivial⟩, ⟨⟨rfl, rfl, _, 3, rfl, rfl, ?_⟩, ?_⟩, trivial⟩
  · show (.upstreamClosed 3 : Out Unit) ∉ [.assigned 0 3, .upstreamWrite 3 0 _]
    simp
  · rintro - ur d hur hd
    obtain rfl := Option.some.inj hur
    obtain rfl : d = _ := hd
    rintro ⟨-, ⟨e, he⟩ | hid⟩
    · cases he
    · exact hid rfl

/-- A response with id 6 is forwarded, then answered with an error for the mismatch, then with one
for the closed connection. -/
theorem mismatched_response_written_thrice :
    Runs.Guarded (step trpcConfig) Enabled {} [requestWith 5, .upstreamData 0 (responseFrame 6) false] ∧
      ((Runs.run (step trpcConfig) {} [requestWith 5]).messages 0).metadata.messageType = .request ∧
      replies (Runs.run (step trpcConfig) {} [requestWith 5,
        .upstreamData 0 (responseFrame 6) false]) 0 = 3 := by
  refine ⟨⟨⟨rfl, trivial⟩, ⟨rfl, rfl, _, 3, rfl, rfl, ?_⟩, trivial⟩, rfl, rfl⟩
  show (.upstreamClosed 3 : Out Unit) ∉ [.assigned 0 3, .upstreamWrite 3 0 _]
  simp

end Concrete

end MetaProtocolProxy
