import Mathlib

/-!
# Refinement

A system takes labelled steps, and a label shows what can be seen of a step: what is asked for, and
what is answered.  A system refines another if the states of the two can be related so that every
step of the first is one of the second with the same label.  Then whatever is seen in a run of the
first can be seen in a run of the second.
-/

namespace MiniS3.Lib.Refinement

universe u v w

variable {σ : Type u} {τ : Type v} {α : Type w}

/-- A state takes a step with a label to a state. -/
abbrev LabelledStep (σ : Type u) (α : Type w) :=
  σ → α → σ → Prop

/-- A run, with the labels of its steps. -/
inductive Trace (step : LabelledStep σ α) : σ → List α → σ → Prop
  | nil (state : σ) : Trace step state [] state
  | cons {state middle after : σ} {label : α} {labels : List α} :
      step state label middle → Trace step middle labels after →
      Trace step state (label :: labels) after

namespace Trace

variable {step : LabelledStep σ α}

/-- A simulation carries over to runs: the same labels, and related states at the end. -/
theorem simulated {abstract : LabelledStep τ α} {related : σ → τ → Prop} {within : α → Prop}
    (simulates : ∀ ⦃state label after model⦄, within label → related state model →
      step state label after → ∃ next, abstract model label next ∧ related after next)
    {state after : σ} {labels : List α} (trace : Trace step state labels after)
    (allWithin : ∀ label ∈ labels, within label) {model : τ} (initial : related state model) :
    ∃ final, Trace abstract model labels final ∧ related after final := by
  induction trace generalizing model with
  | nil state => exact ⟨model, .nil model, initial⟩
  | cons taken _ inductionHypothesis =>
      rw [List.forall_mem_cons] at allWithin
      obtain ⟨next, seen, stillRelated⟩ := simulates allWithin.1 initial taken
      obtain ⟨final, rest, ended⟩ := inductionHypothesis allWithin.2 stillRelated
      exact ⟨final, .cons seen rest, ended⟩

end Trace

end MiniS3.Lib.Refinement
