import Mathlib.Algebra.BigOperators.Group.List.Basic
import Mathlib.Algebra.Ring.Int.Defs
import Mathlib.Logic.Function.Basic
import MetaProtocolProxy.Lib.Runs
/-
# Loops around a weak compare-exchange

    expected = cell.load();
    do {
      // return false, or compute desired from expected
    } while (!cell.compare_exchange_weak(expected, desired));
    return true;

Any number of threads run such loops on any number of cells. A step of a run is one atomic access: a
load, or an exchange together with the loop's own work before it, which touches nothing shared. A
weak exchange may fail although the cell holds the expected value, and one that fails loads what it
found.

The loops are atomic: whatever the interleaving, the exchanges that succeeded are operations made
one after the other on the cells, in the order in which the calls returned (`run_sequential`), and
no call makes more than one (`run_numbered`).
-/
namespace Atomic

/-- The loops of a program: the cell an operation works on, and what it makes of the value it
expects there; `none` returns without an exchange. -/
structure Loops (ω κ ν : Type) where
  cell : ω → κ
  update : ω → ν → Option ν

/-- A call of an operation, by its number among all calls. -/
structure Call (ω : Type) where
  number : Nat
  op : ω

inductive Thread (ω ν : Type)
  | idle
  | loading (c : Call ω)
  | exchanging (c : Call ω) (expected : ν)

def Thread.call {ω ν : Type} : Thread ω ν → Option (Call ω)
  | .idle => none
  | .loading c => some c
  | .exchanging c _ => some c

/-- A call that has returned, with the old and the new value of its exchange if it made one. -/
structure Return (ω ν : Type) where
  call : Call ω
  exchanged : Option (ν × ν)

structure State (θ ω κ ν : Type) where
  cells : κ → ν
  threads : θ → Thread ω ν := fun _ => .idle
  /-- The operations called so far. -/
  calls : List ω := []
  returns : List (Return ω ν) := []

inductive Event (θ ω : Type)
  | call (t : θ) (op : ω)
  | load (t : θ)
  | exchange (t : θ) (spurious : Bool)

variable {θ ω κ ν : Type}

/-- What a loop does that nobody disturbs. -/
def modify (update : ν → Option ν) (v : ν) : Bool × ν :=
  match update v with
  | none => (false, v)
  | some new => (true, new)

section Steps

variable [DecidableEq θ] [DecidableEq κ] [DecidableEq ν]

def State.setThread (s : State θ ω κ ν) (t : θ) (th : Thread ω ν) : State θ ω κ ν :=
  { s with threads := Function.update s.threads t th }

/-- The call of a thread returns. -/
def State.finish (s : State θ ω κ ν) (t : θ) (c : Call ω) (exchanged : Option (ν × ν)) : State θ ω κ ν :=
  { s with threads := Function.update s.threads t .idle, returns := s.returns ++ [⟨c, exchanged⟩] }

/-- One atomic access; nothing happens if the thread is elsewhere. -/
def step (L : Loops ω κ ν) (s : State θ ω κ ν) : Event θ ω → State θ ω κ ν
  | .call t op =>
    match s.threads t with
    | .idle => { s.setThread t (.loading ⟨s.calls.length, op⟩) with calls := s.calls ++ [op] }
    | _ => s
  | .load t =>
    match s.threads t with
    | .loading c => s.setThread t (.exchanging c (s.cells (L.cell c.op)))
    | _ => s
  | .exchange t spurious =>
    match s.threads t with
    | .exchanging c expected =>
      match L.update c.op expected with
      | none => s.finish t c none
      | some desired =>
        if s.cells (L.cell c.op) = expected ∧ spurious = false then
          { s with cells := Function.update s.cells (L.cell c.op) desired }.finish t c
            (some (expected, desired))
        else s.setThread t (.exchanging c (s.cells (L.cell c.op)))
    | _ => s

/-- What a step can do. -/
inductive Stepped (L : Loops ω κ ν) (s : State θ ω κ ν) : State θ ω κ ν → Prop
  | nothing : Stepped L s s
  | called {t op} (hidle : s.threads t = .idle) :
    Stepped L s { s.setThread t (.loading ⟨s.calls.length, op⟩) with calls := s.calls ++ [op] }
  | loaded {t c} (hc : (s.threads t).call = some c) (v : ν) : Stepped L s (s.setThread t (.exchanging c v))
  | gaveUp {t c} (hc : (s.threads t).call = some c) : Stepped L s (s.finish t c none)
  | exchanged {t c new} (hc : (s.threads t).call = some c) (hnew :
      L.update c.op (s.cells (L.cell c.op)) = some new) :
    Stepped L s ({ s with cells := Function.update s.cells (L.cell c.op) new }.finish t c
      (some (s.cells (L.cell c.op), new)))

theorem step_stepped (L : Loops ω κ ν) (s : State θ ω κ ν) (e : Event θ ω) : Stepped L s (step L s e) := by
  cases e with
  | call t op =>
    simp only [step]
    split
    · next h => exact .called h
    · exact .nothing
  | load t =>
    simp only [step]
    split
    · next c h => exact .loaded (by rw [h]; rfl) _
    · exact .nothing
  | exchange t spurious =>
    simp only [step]
    split
    · next c expected h =>
      have hc : (s.threads t).call = some c := by rw [h]; rfl
      split
      · exact .gaveUp hc
      · next new hnew =>
        split
        · next hcell =>
          -- the cell still holds what the loop computed the new value from
          obtain ⟨rfl, -⟩ := hcell
          exact .exchanged hc hnew
        · exact .loaded hc _
    · exact .nothing

end Steps

/-! ## The exchanges as operations one after the other -/

section Sequential

variable [DecidableEq κ] {L : Loops ω κ ν}

/-- Operations made one after the other on the cells, and what they returned. -/
inductive Sequential (L : Loops ω κ ν) (cells₀ : κ → ν) : List (Return ω ν) → (κ → ν) → Prop
  | nil : Sequential L cells₀ [] cells₀
  | gaveUp {rs cells} (c : Call ω) (h : Sequential L cells₀ rs cells) :
      Sequential L cells₀ (rs ++ [⟨c, none⟩]) cells
  | exchanged {rs cells new} (c : Call ω) (h : Sequential L cells₀ rs cells)
    (hnew : L.update c.op (cells (L.cell c.op)) = some new) :
    Sequential L cells₀ (rs ++ [⟨c, some (cells (L.cell c.op), new)⟩])
      (Function.update cells (L.cell c.op) new)

/-- Every run is a sequence of operations. -/
theorem run_sequential [DecidableEq θ] [DecidableEq ν] (L : Loops ω κ ν) (cells₀ : κ → ν)
    (es : List (Event θ ω)) : Sequential L cells₀ (Runs.run (step L) { cells := cells₀ } es).returns
      (Runs.run (step L) { cells := cells₀ } es).cells := by
  refine @Runs.run_invariant (State θ ω κ ν) (Event θ ω) (step L)
    (fun s => Sequential L cells₀ s.returns s.cells) (fun s e h => ?_) { cells := cells₀ } .nil es
  have hstep := step_stepped L s e
  generalize step L s e = s' at hstep ⊢
  cases hstep with
  | nothing => exact h
  | called _ => exact h
  | loaded _ _ => exact h
  | gaveUp _ => exact .gaveUp _ h
  | exchanged _ hnew => exact .exchanged _ h hnew

namespace Sequential

variable {cells₀ cells : κ → ν} {rs : List (Return ω ν)}

/-- What every operation keeps of its cell holds of every cell. -/
theorem invariant (h : Sequential L cells₀ rs cells) {P : κ → ν → Prop} (h₀ : ∀ k, P k (cells₀ k))
    (hkeep : ∀ op v new, P (L.cell op) v → L.update op v = some new → P (L.cell op) new) :
    ∀ k, P k (cells k) := by
  induction h with
  | nil => exact h₀
  | gaveUp _ _ ih => exact ih
  | exchanged c _ hnew ih =>
    intro k
    rw [Function.update_apply]
    split
    · next hk =>
      subst hk
      exact hkeep _ _ _ (ih _) hnew
    · exact ih k

/-- An exchange stores what its operation makes of a value that keeps the cell's invariant. -/
theorem exchanged_of_mem (h : Sequential L cells₀ rs cells) {P : κ → ν → Prop} (h₀ : ∀ k, P k (cells₀ k))
    (hkeep : ∀ op v new, P (L.cell op) v → L.update op v = some new → P (L.cell op) new)
    {r : Return ω ν} (hr : r ∈ rs) {old new : ν} (hx : r.exchanged = some (old, new)) :
    P (L.cell r.call.op) old ∧ L.update r.call.op old = some new := by
  induction h with
  | nil => cases hr
  | gaveUp c _ ih =>
    rcases List.mem_append.1 hr with hr | hr
    · exact ih hr
    · rw [List.mem_singleton.1 hr] at hx
      cases hx
  | exchanged c hseq hnew ih =>
    rcases List.mem_append.1 hr with hr | hr
    · exact ih hr
    · rw [List.mem_singleton.1 hr] at hx ⊢
      cases hx
      exact ⟨hseq.invariant h₀ hkeep _, hnew⟩

end Sequential

/-- By how much the exchanges of the calls in `rs` on the cell `k` have changed its measure `m`. -/
def change (L : Loops ω κ ν) (m : ν → Int) (k : κ) (r : Return ω ν) : Int :=
  match r.exchanged with
  | some (old, new) => if L.cell r.call.op = k then m new - m old else 0
  | none => 0

/-- A cell holds what it held at first and what the exchanges have changed. -/
theorem Sequential.measure_eq {cells₀ cells : κ → ν} {rs : List (Return ω ν)}
    (h : Sequential L cells₀ rs cells)
    (m : ν → Int) (k : κ) : m (cells k) = m (cells₀ k) + (rs.map (change L m k)).sum := by
  induction h with
  | nil => simp
  | gaveUp c _ ih => simp [ih, change]
  | @exchanged rs cells new c hseq hnew ih =>
    rw [List.map_append, List.sum_append, Function.update_apply]
    by_cases hk : L.cell c.op = k
    · subst hk
      simp only [change, List.map_cons, List.map_nil, List.sum_cons, List.sum_nil, if_true]
      omega
    · rw [if_neg fun h => hk h.symm]
      simp only [change, List.map_cons, List.map_nil, List.sum_cons, List.sum_nil, if_neg hk]
      omega

end Sequential

/-! ## Calls return once -/

/-- Every call has a number of its own, and has returned at most once. -/
structure Numbered (s : State θ ω κ ν) : Prop where
  returned : ∀ r ∈ s.returns, s.calls[r.call.number]? = some r.call.op
  once : (s.returns.map fun r => r.call.number).Nodup
  running : ∀ t c, (s.threads t).call = some c →
    s.calls[c.number]? = some c.op ∧ c.number ∉ s.returns.map fun r => r.call.number
  apart : ∀ t t' c c', (s.threads t).call = some c → (s.threads t').call = some c' →
    c.number = c'.number → t = t'

namespace Numbered

variable [DecidableEq θ] {s : State θ ω κ ν} {t : θ}

/-- A thread goes on with its call. -/
theorem setThread (h : Numbered s) {c : Call ω} (hc : (s.threads t).call = some c) (v : ν) :
    Numbered (s.setThread t (.exchanging c v)) := by
  have hcall : ∀ t', ((s.setThread t (.exchanging c v)).threads t').call = (s.threads t').call := by
    intro t'
    simp only [State.setThread, Function.update_apply]
    split
    · next ht =>
      rw [ht, hc]
      rfl
    · rfl
  refine ⟨h.returned, h.once, fun t' c' => ?_, fun t₁ t₂ c₁ c₂ => ?_⟩
  · rw [hcall]
    exact h.running t' c'
  · rw [hcall, hcall]
    exact h.apart t₁ t₂ c₁ c₂

theorem called (h : Numbered s) (op : ω) :
    Numbered { s.setThread t (.loading ⟨s.calls.length, op⟩) with calls := s.calls ++ [op] } := by
  have hkept : ∀ {n : Nat} {op' : ω}, s.calls[n]? = some op' → (s.calls ++ [op])[n]? = some op' := by
    intro n op' hn
    rw [List.getElem?_append_left (List.getElem?_eq_some_iff.1 hn).1, hn]
  have hlt : ∀ {n : Nat} {op' : ω}, s.calls[n]? = some op' → n < s.calls.length := fun hn =>
    (List.getElem?_eq_some_iff.1 hn).1
  have hcall : ∀ t' c', ((s.setThread t (.loading ⟨s.calls.length, op⟩)).threads t').call = some c' →
      (t' = t ∧ c' = ⟨s.calls.length, op⟩) ∨ (t' ≠ t ∧ (s.threads t').call = some c') := by
    intro t' c' hc'
    simp only [State.setThread, Function.update_apply] at hc'
    split at hc'
    · next ht => exact .inl ⟨ht, (Option.some.inj hc').symm⟩
    · next ht => exact .inr ⟨ht, hc'⟩
  refine ⟨fun r hr => hkept (h.returned r hr), h.once, fun t' c' hc' => ?_, fun t₁ t₂ c₁ c₂ h₁ h₂ heq => ?_⟩
  · rcases hcall t' c' hc' with ⟨-, rfl⟩ | ⟨-, hold⟩
    · refine ⟨by simp, fun hmem => ?_⟩
      -- the number is new
      obtain ⟨r, hr, hn⟩ := List.mem_map.1 hmem
      have hn' : r.call.number = s.calls.length := hn
      have := hlt (h.returned r hr)
      omega
    · exact ⟨hkept (h.running t' c' hold).1, (h.running t' c' hold).2⟩
  · rcases hcall t₁ c₁ h₁ with ⟨rfl, rfl⟩ | ⟨hne₁, hold₁⟩
    · rcases hcall t₂ c₂ h₂ with ⟨rfl, rfl⟩ | ⟨-, hold₂⟩
      · rfl
      · have := hlt (h.running t₂ c₂ hold₂).1
        simp only at heq
        omega
    · rcases hcall t₂ c₂ h₂ with ⟨rfl, rfl⟩ | ⟨-, hold₂⟩
      · have := hlt (h.running t₁ c₁ hold₁).1
        simp only at heq
        omega
      · exact h.apart t₁ t₂ c₁ c₂ hold₁ hold₂ heq

theorem finish (h : Numbered s) {c : Call ω} (hc : (s.threads t).call = some c) (cells : κ → ν)
    (exchanged : Option (ν × ν)) : Numbered ({ s with cells := cells }.finish t c exchanged) := by
  obtain ⟨hop, hnew⟩ := h.running t c hc
  have hcall : ∀ t' c', (({ s with cells := cells }.finish t c exchanged).threads t').call = some c' →
      t' ≠ t ∧ (s.threads t').call = some c' := by
    intro t' c' hc'
    simp only [State.finish, Function.update_apply] at hc'
    split at hc'
    · cases hc'
    · next ht => exact ⟨ht, hc'⟩
  refine ⟨fun r hr => ?_, ?_, fun t' c' hc' => ?_, fun t₁ t₂ c₁ c₂ h₁ h₂ => ?_⟩
  · rcases List.mem_append.1 hr with hr | hr
    · exact h.returned r hr
    · rw [List.mem_singleton.1 hr]
      exact hop
  · simp only [State.finish, List.map_append, List.map_cons, List.map_nil]
    rw [List.nodup_append]
    refine ⟨h.once, by simp, fun a ha b hb => ?_⟩
    rw [List.mem_singleton.1 hb]
    rintro rfl
    exact hnew ha
  · obtain ⟨hne, hold⟩ := hcall t' c' hc'
    obtain ⟨hop', hnew'⟩ := h.running t' c' hold
    refine ⟨hop', fun hmem => ?_⟩
    simp only [State.finish, List.map_append, List.map_cons, List.map_nil, List.mem_append,
      List.mem_singleton] at hmem
    rcases hmem with hmem | hmem
    · exact hnew' hmem
    · exact hne (h.apart t' t c' c hold hc hmem)
  · exact h.apart t₁ t₂ c₁ c₂ (hcall t₁ c₁ h₁).2 (hcall t₂ c₂ h₂).2

theorem step [DecidableEq κ] [DecidableEq ν] (L : Loops ω κ ν) (h : Numbered s) (e : Event θ ω) :
    Numbered (step L s e) := by
  have hstep := step_stepped L s e
  generalize Atomic.step L s e = s' at hstep ⊢
  cases hstep with
  | nothing => exact h
  | called _ => exact h.called _
  | loaded hc v => exact h.setThread hc v
  | gaveUp hc => exact h.finish hc s.cells none
  | exchanged hc _ => exact h.finish hc _ _

end Numbered

theorem run_numbered [DecidableEq θ] [DecidableEq κ] [DecidableEq ν] (L : Loops ω κ ν) (cells₀ : κ → ν)
    (es : List (Event θ ω)) : Numbered (Runs.run (step L) { cells := cells₀ } es) := by
  refine Runs.run_invariant (fun s e h => h.step L e) ?_ es
  exact ⟨by simp, by simp, by simp [Thread.call], by simp [Thread.call]⟩

/-- The calls of a run are those of its events. -/
theorem mem_calls_run [DecidableEq θ] [DecidableEq κ] [DecidableEq ν] (L : Loops ω κ ν) (s : State θ ω κ ν)
    (es : List (Event θ ω)) {op : ω} (h : op ∈ (Runs.run (step L) s es).calls) :
    op ∈ s.calls ∨ ∃ t, .call t op ∈ es := by
  induction es generalizing s with
  | nil => exact .inl h
  | cons e es ih =>
    rcases ih (step L s e) h with hmem | ⟨t, ht⟩
    · cases e with
      | call t op' =>
        simp only [step] at hmem
        split at hmem
        · rcases List.mem_append.1 hmem with hmem | hmem
          · exact .inl hmem
          · exact .inr ⟨t, by simp [List.mem_singleton.1 hmem]⟩
        · exact .inl hmem
      | load t =>
        simp only [step] at hmem
        split at hmem <;> exact .inl hmem
      | exchange t spurious =>
        simp only [step] at hmem
        split at hmem
        · split at hmem
          · exact .inl hmem
          · split at hmem <;> exact .inl hmem
        · exact .inl hmem
    · exact .inr ⟨t, List.mem_cons_of_mem e ht⟩

end Atomic
