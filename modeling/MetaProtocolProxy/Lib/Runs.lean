import Mathlib.Data.List.Basic
/-
# Runs of a deterministic machine driven by events

A machine is a step function `σ → ε → σ`; the choices of its environment are in the
events. `run` folds the step over an event list, `Guarded G` says that every step of
the run meets the guard `G` in the state it is taken from (the environment's contract,
or a condition under which a property is proved).

`Guarded.invariant` is the induction every safety result below is an instance of: what
holds initially and is kept by guarded steps holds in the last state of every guarded
run, and by `Guarded.take` in every state on the way.
-/
namespace Runs

variable {σ ε : Type}

def run (step : σ → ε → σ) (s : σ) (es : List ε) : σ := es.foldl step s

/-- Every step of the run from `s` meets `G` in the state it is taken from. -/
def Guarded (step : σ → ε → σ) (G : σ → ε → Prop) : σ → List ε → Prop
  | _, [] => True
  | s, e :: es => G s e ∧ Guarded step G (step s e) es

variable {step : σ → ε → σ} {G H : σ → ε → Prop} {I : σ → Prop}

@[simp] theorem run_nil (s : σ) : run step s [] = s := rfl

@[simp] theorem run_cons (s : σ) (e : ε) (es : List ε) :
    run step s (e :: es) = run step (step s e) es := rfl

theorem run_append (s : σ) (es fs : List ε) : run step s (es ++ fs) = run step (run step s es) fs :=
  List.foldl_append

theorem guarded_append {s : σ} {es fs : List ε} :
    Guarded step G s (es ++ fs) ↔ Guarded step G s es ∧ Guarded step G (run step s es) fs := by
  induction es generalizing s with
  | nil => simp [Guarded]
  | cons e es ih => simp [Guarded, ih, and_assoc]

/-- A prefix of a guarded run is guarded. -/
theorem Guarded.take {s : σ} {es : List ε} (n : Nat) (h : Guarded step G s es) :
    Guarded step G s (es.take n) := by
  rw [← List.take_append_drop n es] at h
  exact (guarded_append.1 h).1

theorem guarded_of_forall (h : ∀ s e, G s e) (s : σ) (es : List ε) : Guarded step G s es := by
  induction es generalizing s with
  | nil => trivial
  | cons e es ih => exact ⟨h s e, ih (step s e)⟩

/-- A guard on the events alone can be added. -/
theorem Guarded.and {P : ε → Prop} {s : σ} {es : List ε} (h : Guarded step G s es) (hP : ∀ e ∈ es, P e) :
    Guarded step (fun s e => G s e ∧ P e) s es := by
  induction es generalizing s with
  | nil => trivial
  | cons e es ih =>
    exact ⟨⟨h.1, hP e List.mem_cons_self⟩, ih h.2 fun e' he' => hP e' (List.mem_cons_of_mem e he')⟩

/-- What every step preserves holds at the end of every run. -/
theorem run_invariant (hstep : ∀ s e, I s → I (step s e)) {s : σ} (hI : I s) (es : List ε) :
    I (run step s es) := by
  induction es generalizing s with
  | nil => exact hI
  | cons e es ih => exact ih (hstep s e hI)

/-- What guarded steps preserve holds at the end of every guarded run. -/
theorem Guarded.invariant (hstep : ∀ s e, I s → G s e → I (step s e)) {s : σ} {es : List ε}
    (hI : I s) (h : Guarded step G s es) : I (run step s es) := by
  induction es generalizing s with
  | nil => exact hI
  | cons e es ih => exact ih (hstep s e hI h.1) h.2

/-- The same for every state the run passes through. -/
theorem Guarded.invariant_take (hstep : ∀ s e, I s → G s e → I (step s e)) {s : σ} {es : List ε}
    (hI : I s) (h : Guarded step G s es) (n : Nat) : I (run step s (es.take n)) :=
  Guarded.invariant hstep hI (h.take n)

/-- What holds of every guarded step under an invariant holds of every step of a guarded run. -/
theorem Guarded.ensures (hstep : ∀ s e, I s → G s e → I (step s e)) (hH : ∀ s e, I s → G s e → H s e)
    {s : σ} {es : List ε} (hI : I s) (h : Guarded step G s es) : Guarded step H s es := by
  induction es generalizing s with
  | nil => trivial
  | cons e es ih => exact ⟨hH s e hI h.1, ih (hstep s e hI h.1) h.2⟩

/-- Where a step keeps `I` just when it meets `H`, every state of a run has `I` just when every step
meets `H`. -/
theorem Guarded.always_iff {J : σ → Prop} (hstep : ∀ s e, J s → I s → G s e → (I (step s e) ↔ H s e))
    (hJ : ∀ s e, J s → I s → G s e → I (step s e) → J (step s e)) {s : σ} {es : List ε} (hs : J s) (hI : I s)
    (h : Guarded step G s es) : (∀ n, I (run step s (es.take n))) ↔ Guarded step H s es := by
  induction es generalizing s with
  | nil => simpa [Guarded] using hI
  | cons e es ih =>
    constructor
    · intro hall
      have hnext : I (step s e) := by simpa using hall 1
      refine ⟨(hstep s e hs hI h.1).1 hnext, (ih (hJ s e hs hI h.1 hnext) hnext h.2).1 fun n => ?_⟩
      simpa using hall (n + 1)
    · rintro ⟨he, hes⟩ n
      have hnext : I (step s e) := (hstep s e hs hI h.1).2 he
      cases n with
      | zero => simpa using hI
      | succ n => simpa using (ih (hJ s e hs hI h.1 hnext) hnext h.2).2 hes n

/-- An invariant that also speaks of the events so far. -/
theorem Guarded.history {I : List ε → σ → Prop}
    (hstep : ∀ past s e, I past s → G s e → I (past ++ [e]) (step s e))
    {s : σ} {es : List ε} (hI : I [] s) (h : Guarded step G s es) : I es (run step s es) := by
  -- the events of the run come behind those of the past
  have hrun : ∀ (past : List ε) (s : σ) (es : List ε), I past s → Guarded step G s es →
      I (past ++ es) (run step s es) := by
    intro past s es
    induction es generalizing past s with
    | nil => exact fun hI _ => (List.append_nil past).symm ▸ hI
    | cons e es ih =>
      intro hI h
      have hnext := ih (past ++ [e]) (step s e) (hstep past s e hI h.1) h.2
      rwa [List.append_assoc] at hnext
  exact hrun [] s es hI h

theorem Guarded.history_take {I : List ε → σ → Prop}
    (hstep : ∀ past s e, I past s → G s e → I (past ++ [e]) (step s e))
    {s : σ} {es : List ε} (hI : I [] s) (h : Guarded step G s es) (n : Nat) :
    I (es.take n) (run step s (es.take n)) :=
  Guarded.history hstep hI (h.take n)

end Runs
