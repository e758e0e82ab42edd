import MetaProtocolProxy.Lib.Runs
/-
# A machine whose steps are runs of another

The concrete machine takes one step where the abstract one takes any number, none included: a read
from a socket completes no message or several. If every guarded step of the concrete machine is
matched by a guarded run of the abstract one, every guarded run is, and what holds after every
guarded run of the abstract machine holds of the concrete one.

The relation `I` ties the events of both so far to the concrete state, so that the matching may
depend on the past and say something about it.
-/
namespace Runs

variable {σ τ ε φ : Type} {step : σ → ε → σ} {step' : τ → φ → τ} {G : σ → ε → Prop} {G' : τ → φ → Prop}

/-- The step of `s` on `e` is matched by the abstract run of `fs`. -/
structure Matched (step : σ → ε → σ) (step' : τ → φ → τ) (G' : τ → φ → Prop) (view : σ → τ) (s : σ)
    (e : ε) (fs : List φ) : Prop where
  guarded : Guarded step' G' (view s) fs
  view : view (step s e) = run step' (view s) fs

/-- Every guarded run is matched, with the relation `I` between the two pasts; a step may be matched
by what is known of the run it belongs to. -/
theorem Guarded.simulated (view : σ → τ) {I : List ε → List φ → σ → Prop} {s : σ} {es : List ε}
    (hstep : ∀ past past' s e, past ++ [e] <+: es → I past past' s → G s e →
      ∃ fs, Matched step step' G' view s e fs ∧ I (past ++ [e]) (past' ++ fs) (step s e))
    (hI : I [] [] s) (h : Guarded step G s es) :
    ∃ fs, Guarded step' G' (view s) fs ∧ view (run step s es) = run step' (view s) fs ∧
      I es fs (run step s es) := by
  have hrun : ∀ (past : List ε) (past' : List φ) (s : σ) (es' : List ε), past ++ es' = es → I past past' s →
      Guarded step G s es' → ∃ fs, Guarded step' G' (view s) fs ∧
        view (run step s es') = run step' (view s) fs ∧ I es (past' ++ fs) (run step s es') := by
    intro past past' s es'
    induction es' generalizing past past' s with
    | nil =>
      intro hes hI _
      rw [List.append_nil] at hes
      exact ⟨[], trivial, rfl, by simpa [hes] using hI⟩
    | cons e es' ih =>
      intro hes hI h
      rw [List.append_cons] at hes
      obtain ⟨fs, hmatch, hI'⟩ := hstep past past' s e ⟨es', hes⟩ hI h.1
      obtain ⟨gs, hgs, hview, hlast⟩ := ih (past ++ [e]) (past' ++ fs) (step s e) hes hI' h.2
      rw [hmatch.view] at hgs hview
      refine ⟨fs ++ gs, guarded_append.2 ⟨hmatch.guarded, hgs⟩, ?_, by simpa using hlast⟩
      rw [run_cons, hview, run_append]
  exact hrun [] [] s es rfl hI h

end Runs
