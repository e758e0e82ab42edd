import MetaProtocolProxy.Proxy.Lifecycle
/-
# Many downstream connections over one connection pool

Connection managers share the upstream connections of the pool. What they do to the connections is
read off their outputs: `observe` follows who holds a connection, what its upstream has still to
send, and which connections are closed. The upstream answers the requests written on a connection in
order; the pool hands out connections that nobody holds, and takes one back when its
`ConnectionData` is destroyed without a close.

| here | there |
| --- | --- |
| `holder c` | the request whose `ConnectionData` the connection is |
| `pipe c` | what the upstream answers and the proxy has not received yet |
| `buffer c` | the connection's read buffer between two calls of `onUpstreamData` |
-/
namespace MetaProtocolProxy

open Framing (IsFrame)

variable {σ α : Type}

abbrev DownId := Nat

abbrev Asker := DownId × MsgId

structure Wires where
  holder : ConnId → Option Asker := fun _ => none
  pipe : ConnId → Bytes := fun _ => []
  buffer : ConnId → Bytes := fun _ => []
  closed : ConnId → Bool := fun _ => false

structure Net (σ α : Type) where
  cms : DownId → ConnectionManager σ α := fun _ => {}
  wires : Wires := {}

/-- The upstream: its answer to every request is one response frame of the protocol, in the sense of
a resumption relation `R` of the codec, and carries the metadata `reply`. -/
structure Upstream (cfg : Config σ α) where
  answer : Asker → Bytes
  reply : Asker → Metadata α
  R : Bytes → σ → Bytes → Prop
  fresh : R [] cfg.codec.init []
  isFrame : ∀ k, IsFrame (cfg.codec.decodeAs .response) R (answer k) (reply k)
  isResponse : ∀ k, (reply k).messageType ≠ .heartbeat

section

variable {cfg : Config σ α} (up : Upstream cfg)

/-- What an output of downstream connection `d` means for the upstream connections. -/
def observe (d : DownId) (w : Wires) : Out α → Wires
  | .assigned m c => { w with holder := Function.update w.holder c (some (d, m)) }
  | .upstreamWrite c m _ => { w with pipe := Function.update w.pipe c (w.pipe c ++ up.answer (d, m)) }
  | .released c => { w with holder := Function.update w.holder c none }
  | .upstreamClosed c => { w with closed := Function.update w.closed c true }
  | _ => w

/-- Downstream connection `d` has gone on to `cm`. -/
def advance (cms : DownId → ConnectionManager σ α) (w : Wires) (d : DownId)
    (cm : ConnectionManager σ α) : Net σ α where
  cms := Function.update cms d cm
  wires := (cm.out.drop (cms d).out.length).foldl (observe up d) w

inductive NetEvent (α : Type)
  /-- An event of a downstream connection. -/
  | event (d : DownId) (e : Event α)
  /-- The next `n` bytes arrive on a connection. -/
  | deliver (c : ConnId) (n : Nat)
  /-- A connection that nobody holds is closed. -/
  | idleClosed (c : ConnId)

def Wires.arriving (w : Wires) (c : ConnId) (n : Nat) : Bytes := w.buffer c ++ (w.pipe c).take n

/-- The router has been called with them and has left `rest`. -/
def Wires.taken (w : Wires) (c : ConnId) (n : Nat) (rest : Bytes) : Wires :=
  { w with pipe := Function.update w.pipe c ((w.pipe c).drop n), buffer := Function.update w.buffer c rest }

def netStep (net : Net σ α) : NetEvent α → Net σ α
  | .event d e => advance up net.cms net.wires d (step cfg (net.cms d) e)
  | .deliver c n =>
    match net.wires.holder c with
    | none => net
    | some (d, m) =>
      let r := onUpstreamData cfg (net.cms d) m (net.wires.arriving c n) false
      advance up net.cms (net.wires.taken c n r.2) d r.1
  | .idleClosed c =>
    { net with wires := { net.wires with closed := Function.update net.wires.closed c true } }

/-- The pool may hand out the connection. -/
def Wires.Idle (w : Wires) (c : ConnId) : Prop := w.holder c = none ∧ w.closed c = false

/-- The downstreams only send requests, and bytes of the upstream come by `deliver`. -/
def Event.IsRequestOnly : Event α → Prop
  | .decoded md _ _ _ => md.messageType = .request
  | .upstreamData _ _ _ => False
  | _ => True

/-- What the environment can do while the process is there. -/
def NetEnabled (net : Net σ α) (e : NetEvent α) : Prop :=
  (∀ d, (net.cms d).crashed = false) ∧
    match e with
    | .event d e => Enabled (net.cms d) e ∧ e.IsRequestOnly ∧ ∀ c, e.offers = some c → net.wires.Idle c
    | .deliver c n => 0 < n ∧ net.wires.pipe c ≠ [] ∧ net.wires.closed c = false ∧ net.wires.holder c ≠ none
    | .idleClosed c => net.wires.holder c = none

end

/-! ## Requests and connections -/

/-- The record has the connection `c`. -/
def Holds (a : ActiveMessage σ α) (c : ConnId) : Prop := ∃ ur, a.upstreamRequest = some ur ∧ ur.conn = some c

/-- The connection `c` is busy with the request of the record: the response decoder has seen a part
of the answer, and the rest of it is all that is still to come. -/
def InFlight (cfg : Config σ α) (up : Upstream cfg) (w : Wires) (k : Asker) (a : ActiveMessage σ α)
    (c : ConnId) : Prop :=
  ∃ ur d p, a.upstreamRequest = some ur ∧ ur.conn = some c ∧ Receiving cfg a ur d ∧
    up.R p d.codec (w.buffer c) ∧ p ≠ up.answer k ∧
    if ur.requestComplete then p ++ w.pipe c = up.answer k else p = [] ∧ w.pipe c = [] ∧ w.buffer c = []

theorem InFlight.holds {cfg : Config σ α} {up : Upstream cfg} {w : Wires} {k : Asker}
    {a : ActiveMessage σ α} {c : ConnId} (h : InFlight cfg up w k a c) : Holds a c := by
  obtain ⟨ur, -, -, hur, hc, -⟩ := h
  exact ⟨ur, hur, hc⟩

theorem InFlight.congr {cfg : Config σ α} {up : Upstream cfg} {w w' : Wires} {k : Asker}
    {a : ActiveMessage σ α} {c : ConnId}
    (h : InFlight cfg up w k a c) (hp : w'.pipe c = w.pipe c) (hb : w'.buffer c = w.buffer c) :
    InFlight cfg up w' k a c := by
  unfold InFlight
  rw [hp, hb]
  exact h

theorem Holds.eq {a : ActiveMessage σ α} {c c' : ConnId} (h : Holds a c) (h' : Holds a c') : c = c' := by
  obtain ⟨ur, hur, hc⟩ := h
  obtain ⟨ur', hur', hc'⟩ := h'
  obtain rfl := Option.some.inj (hur.symm.trans hur')
  exact Option.some.inj (hc.symm.trans hc')

structure Linked (cfg : Config σ α) (up : Upstream cfg) (w : Wires)
    (rec : Asker → ActiveMessage σ α) : Prop where
  held : ∀ k c, Holds (rec k) c → w.closed c = true ∨ w.holder c = some k
  idle : ∀ c, w.closed c = false → w.holder c = none → w.pipe c = [] ∧ w.buffer c = []
  busy : ∀ k c, w.closed c = false → w.holder c = some k → InFlight cfg up w k (rec k) c

/-- Nothing but the connection `c` has changed. -/
structure SameBut (w : Wires) (c : ConnId) (w' : Wires) : Prop where
  holder : ∀ i, i ≠ c → w'.holder i = w.holder i
  pipe : ∀ i, i ≠ c → w'.pipe i = w.pipe i
  buffer : ∀ i, i ≠ c → w'.buffer i = w.buffer i
  closed : ∀ i, i ≠ c → w'.closed i = w.closed i

theorem sameBut_taken (w : Wires) (c : ConnId) (n : Nat) (rest : Bytes) : SameBut w c (w.taken c n rest) :=
  ⟨fun _ _ => rfl, fun _ hi => Function.update_of_ne hi .., fun _ hi => Function.update_of_ne hi ..,
    fun _ _ => rfl⟩

theorem SameBut.trans {w w' w'' : Wires} {c : ConnId} (h : SameBut w c w') (h' : SameBut w' c w'') :
    SameBut w c w'' where
  holder i hi := (h'.holder i hi).trans (h.holder i hi)
  pipe i hi := (h'.pipe i hi).trans (h.pipe i hi)
  buffer i hi := (h'.buffer i hi).trans (h.buffer i hi)
  closed i hi := (h'.closed i hi).trans (h.closed i hi)

section Observed

variable {cfg : Config σ α} (up : Upstream cfg) (d : DownId) (w : Wires) (c : ConnId) (m : MsgId)

theorem sameBut_assigned : SameBut w c (observe up d w (.assigned m c)) :=
  ⟨fun _ hi => Function.update_of_ne hi .., fun _ _ => rfl, fun _ _ => rfl, fun _ _ => rfl⟩

theorem sameBut_upstreamWrite (bytes : Bytes) : SameBut w c (observe up d w (.upstreamWrite c m bytes)) :=
  ⟨fun _ _ => rfl, fun _ hi => Function.update_of_ne hi .., fun _ _ => rfl, fun _ _ => rfl⟩

theorem sameBut_released : SameBut w c (observe up d w (.released c)) :=
  ⟨fun _ hi => Function.update_of_ne hi .., fun _ _ => rfl, fun _ _ => rfl, fun _ _ => rfl⟩

theorem sameBut_upstreamClosed : SameBut w c (observe up d w (.upstreamClosed c)) :=
  ⟨fun _ _ => rfl, fun _ _ => rfl, fun _ _ => rfl, fun _ hi => Function.update_of_ne hi ..⟩

end Observed

section

variable {cfg : Config σ α} {up : Upstream cfg} {w w' : Wires} {rec : Asker → ActiveMessage σ α} {k : Asker}
  {a : ActiveMessage σ α} {c : ConnId}

/-- The request `k`, which holds no connection, goes on without one. -/
theorem Linked.unheld (h : Linked cfg up w rec) (hno : ∀ c, ¬Holds (rec k) c) (hno' : ∀ c, ¬Holds a c) :
    Linked cfg up w (Function.update rec k a) := by
  refine ⟨fun k' c hh => ?_, h.idle, fun k' c hcl hk' => ?_⟩
  · rcases eq_or_ne k' k with rfl | hne
    · rw [Function.update_self] at hh
      exact absurd hh (hno' c)
    · rw [Function.update_of_ne hne] at hh
      exact h.held k' c hh
  · have hne : k' ≠ k := by
      rintro rfl
      exact hno c (h.busy k' c hcl hk').holds
    rw [Function.update_of_ne hne]
    exact h.busy k' c hcl hk'

/-- The request `k` and the connection `c` it holds, or is given, or gives up, go on together. -/
theorem Linked.change (h : Linked cfg up w rec) (hw : SameBut w c w')
    (hown : w.closed c = true ∨ w.holder c = none ∨ w.holder c = some k)
    (hbefore : ∀ i, Holds (rec k) i → i = c) (hafter : ∀ i, Holds a i → i = c)
    (hclosed : w.closed c = true → w'.closed c = true)
    (hc : w'.closed c = true ∨ w'.holder c = none ∧ ¬Holds a c ∧ w'.pipe c = [] ∧ w'.buffer c = [] ∨
      w'.holder c = some k ∧ InFlight cfg up w' k a c) :
    Linked cfg up w' (Function.update rec k a) := by
  refine ⟨fun k' i hh => ?_, fun i hcl hno => ?_, fun k' i hcl hk' => ?_⟩
  · rcases eq_or_ne k' k with rfl | hne
    · rw [Function.update_self] at hh
      obtain rfl := hafter i hh
      rcases hc with hc | ⟨-, hno, -⟩ | ⟨hc, -⟩
      · exact .inl hc
      · exact absurd hh hno
      · exact .inr hc
    · rw [Function.update_of_ne hne] at hh
      rcases eq_or_ne i c with rfl | hi
      · -- another request can only have had the connection before it was closed
        rcases h.held k' i hh with hcl | hk'
        · exact .inl (hclosed hcl)
        · rcases hown with hcl | hn | hk
          · exact .inl (hclosed hcl)
          · exact absurd (hn.symm.trans hk') (by simp)
          · exact absurd (Option.some.inj (hk'.symm.trans hk)) hne
      · rw [hw.closed i hi, hw.holder i hi]
        exact h.held k' i hh
  · rcases eq_or_ne i c with rfl | hi
    · rcases hc with hc | ⟨-, -, hc⟩ | ⟨hc, -⟩
      · exact absurd (hc.symm.trans hcl) (by simp)
      · exact hc
      · exact absurd (hno.symm.trans hc) (by simp)
    · rw [hw.closed i hi] at hcl
      rw [hw.holder i hi] at hno
      rw [hw.pipe i hi, hw.buffer i hi]
      exact h.idle i hcl hno
  · rcases eq_or_ne i c with rfl | hi
    · rcases hc with hc | ⟨hc, -⟩ | ⟨hc, hfl⟩
      · exact absurd (hc.symm.trans hcl) (by simp)
      · exact absurd (hc.symm.trans hk') (by simp)
      · obtain rfl := Option.some.inj (hc.symm.trans hk')
        rwa [Function.update_self]
    · rw [hw.closed i hi] at hcl
      rw [hw.holder i hi] at hk'
      have hfl := h.busy k' i hcl hk'
      have hne : k' ≠ k := by
        rintro rfl
        exact hi (hbefore i hfl.holds)
      rw [Function.update_of_ne hne]
      exact hfl.congr (hw.pipe i hi) (hw.buffer i hi)

variable {d : DownId}

/-- The connection that the request `k` holds is closed. -/
theorem Linked.closes (h : Linked cfg up w rec) (hholds : Holds (rec k) c) (hafter : ∀ i, Holds a i → i = c) :
    Linked cfg up (observe up d w (.upstreamClosed c)) (Function.update rec k a) := by
  refine h.change (sameBut_upstreamClosed up d w c) ((h.held _ _ hholds).imp id .inr) (fun i hi =>
    hi.eq hholds) hafter ?_ (.inl ?_)
  · exact fun _ => Function.update_self ..
  · exact Function.update_self ..

/-- The request `k` gives its connection back, closed or with nothing sent on it. -/
theorem Linked.releases {ur : UpstreamRequest} (h : Linked cfg up w rec)
    (hur : (rec k).upstreamRequest = some ur)
    (hc : ur.conn = some c) (hafter : ∀ i, ¬Holds a i)
    (hunsent : ur.requestComplete = true → w.closed c = true) :
    Linked cfg up (observe up d w (.released c)) (Function.update rec k a) := by
  have hholds : Holds (rec k) c := ⟨ur, hur, hc⟩
  refine h.change (sameBut_released up d w c) ((h.held _ _ hholds).imp id .inr) (fun i hi => hi.eq hholds)
    (fun i hi => absurd hi (hafter i)) id ?_
  cases hcl : w.closed c with
  | true => exact .inl hcl
  | false =>
    -- the connection is given back open, so nothing is under way on it
    obtain ⟨ur', dd, p, hur', hc', -, -, -, hif⟩ :=
      h.busy _ _ hcl ((h.held _ _ hholds).resolve_left (by simp [hcl]))
    obtain rfl := Option.some.inj (hur.symm.trans hur')
    have hnot : ur.requestComplete = false := by
      by_contra hsent
      rw [hunsent (by simpa using hsent)] at hcl
      cases hcl
    rw [hnot] at hif
    exact .inr (.inl ⟨Function.update_self .., hafter c, hif.2⟩)

end

end MetaProtocolProxy
