import MetaProtocolProxy.Lib.Runs
/-
# A queue in front of something that is not ready yet

Elements are accepted one by one. Before the other side is ready they are parked in order, and may
be removed by their key; when it gets ready the parked ones are passed on in order, and from then on
each one as it comes.

`run_waiting` says which elements wait when the other side gets ready, after any sequence of events:
those accepted that no later event has removed, in the order of acceptance. `run_passed` says that
afterwards all the accepted ones are passed on, in order, behind those passed on before.
-/
namespace Parking

structure State (ρ : Type) where
  ready : Bool := false
  waiting : List ρ := []
  passed : List ρ := []

inductive Event (ρ κ : Type)
  | accept (r : ρ)
  | remove (k : κ)
  | ready

variable {ρ κ : Type}

def Event.accepted : Event ρ κ → Option ρ
  | .accept r => some r
  | _ => none

def Event.removed : Event ρ κ → Option κ
  | .remove k => some k
  | _ => none

/-- The accepted elements, in order. -/
def accepted (es : List (Event ρ κ)) : List ρ := es.filterMap Event.accepted

/-- The keys removed. -/
def removed (es : List (Event ρ κ)) : List κ := es.filterMap Event.removed

@[simp] theorem removed_accept (r : ρ) (es : List (Event ρ κ)) : removed (.accept r :: es) = removed es := rfl

@[simp] theorem removed_remove (k : κ) (es : List (Event ρ κ)) :
    removed (.remove k :: es) = k :: removed es := rfl

@[simp] theorem accepted_accept (r : ρ) (es : List (Event ρ κ)) :
    accepted (.accept r :: es) = r :: accepted es := rfl

variable [DecidableEq κ] (key : ρ → κ)

def step (s : State ρ) : Event ρ κ → State ρ
  | .accept r =>
    if s.ready then { s with passed := s.passed ++ [r] } else { s with waiting := s.waiting ++ [r] }
  | .remove k => { s with waiting := s.waiting.filter fun r => key r != k }
  | .ready => { ready := true, waiting := [], passed := s.passed ++ s.waiting }

/-- The accepted elements that no later event removes. -/
def survivors : List (Event ρ κ) → List ρ
  | [] => []
  | .accept r :: es => if key r ∈ removed es then survivors es else r :: survivors es
  | .remove _ :: es => survivors es
  | .ready :: es => survivors es

/-- Before the other side is ready the survivors wait. -/
theorem run_waiting {es : List (Event ρ κ)} (hes : .ready ∉ es) (w : List ρ) :
    Runs.run (step key) { waiting := w } es =
      { waiting := w.filter (fun r => !decide (key r ∈ removed es)) ++ survivors key es } := by
  induction es generalizing w with
  | nil => simp [removed, survivors]
  | cons e es ih =>
    obtain ⟨hne, hrest⟩ := not_or.1 (mt List.mem_cons.2 hes)
    cases e with
    | ready => exact absurd rfl hne
    | accept r =>
      rw [Runs.run_cons]
      simp only [step, Bool.false_eq_true, if_false]
      rw [ih hrest, List.filter_append, removed_accept]
      by_cases hr : key r ∈ removed es
      · simp [survivors, hr]
      · simp [survivors, hr]
    | remove k =>
      rw [Runs.run_cons]
      simp only [step]
      rw [ih hrest, List.filter_filter, survivors]
      have hkeep : ∀ r, (!decide (key r ∈ removed es) && key r != k) =
          !decide (key r ∈ removed (.remove k :: es)) := by
        intro r
        by_cases hk : key r = k <;> simp [hk]
      simp only [hkeep]

/-- Afterwards every element is passed on as it comes. -/
theorem run_passed (es : List (Event ρ κ)) (p : List ρ) :
    Runs.run (step key) { ready := true, passed := p } es =
      { ready := true, passed := p ++ accepted es } := by
  induction es generalizing p with
  | nil => simp [accepted]
  | cons e es ih =>
    rw [Runs.run_cons]
    cases e with
    | accept r =>
      simp only [step, if_true]
      rw [ih, accepted_accept, List.append_assoc, List.singleton_append]
    | remove k => exact ih p
    | ready =>
      simp only [step, List.append_nil]
      exact ih p

end Parking
