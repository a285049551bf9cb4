import MiniS3.Lib.Transition

/-!
# Variants

A variant is a number that the steps of one kind make smaller and that no step makes larger,
until a goal is reached.  So a run has at most as many steps of this kind before the goal as the
variant is at its start, in whatever order the other steps come.
-/

namespace MiniS3.Lib.Transition

universe u v

variable {σ : Type u} {α : Type v}

/-- A variant for the runs that stay within an invariant and take allowed actions only. -/
structure Variant (next : Step σ α) (allowed : α → Prop) (invariant goal : σ → Prop)
    (counts : α → Bool) where
  measure : σ → Nat
  keeps : ∀ ⦃state action after⦄, invariant state → allowed action →
    next state action = some after → invariant after
  stays : ∀ ⦃state action after⦄, goal state → next state action = some after → goal after
  falls : ∀ ⦃state action after⦄, invariant state → allowed action →
    next state action = some after →
    goal after ∨ measure after + (counts action).toNat ≤ measure state

namespace Variant

variable {next : Step σ α} {allowed : α → Prop} {invariant goal : σ → Prop} {counts : α → Bool}

theorem stays_run (variant : Variant next allowed invariant goal counts) {source target : σ}
    {actions : List α} (reached : goal source) (performed : run next source actions = some target) :
    goal target := by
  induction actions generalizing source with
  | nil =>
      cases performed
      exact reached
  | cons action rest inductionHypothesis =>
      rw [run_cons, Option.bind_eq_some_iff] at performed
      obtain ⟨middle, step, performed⟩ := performed
      exact inductionHypothesis (variant.stays reached step) performed

theorem keeps_run (variant : Variant next allowed invariant goal counts) {source target : σ}
    {actions : List α} (initial : invariant source) (within : ∀ action ∈ actions, allowed action)
    (performed : run next source actions = some target) : invariant target := by
  induction actions generalizing source with
  | nil =>
      cases performed
      exact initial
  | cons action rest inductionHypothesis =>
      rw [run_cons, Option.bind_eq_some_iff] at performed
      obtain ⟨middle, step, performed⟩ := performed
      rw [List.forall_mem_cons] at within
      exact inductionHypothesis (variant.keeps initial within.1 step) within.2 performed

/-- The counted steps of a run are paid for by the variant. -/
theorem countP_le (variant : Variant next allowed invariant goal counts) {source target : σ}
    {actions : List α} (initial : invariant source) (within : ∀ action ∈ actions, allowed action)
    (performed : run next source actions = some target) :
    goal target ∨ actions.countP counts + variant.measure target ≤ variant.measure source := by
  induction actions generalizing source with
  | nil =>
      cases performed
      exact .inr (by simp)
  | cons action rest inductionHypothesis =>
      rw [run_cons, Option.bind_eq_some_iff] at performed
      obtain ⟨middle, step, performed⟩ := performed
      rw [List.forall_mem_cons] at within
      rcases variant.falls initial within.1 step with reached | falls
      · exact .inl (variant.stays_run reached performed)
      rcases inductionHypothesis (variant.keeps initial within.1 step) within.2 performed with
        reached | bounded
      · exact .inl reached
      · rw [List.countP_cons]
        cases counted : counts action with
        | false =>
            rw [counted] at falls
            simp only [Bool.toNat_false] at falls
            exact .inr (by simp; omega)
        | true =>
            rw [counted] at falls
            simp only [Bool.toNat_true] at falls
            exact .inr (by simp; omega)

end Variant

end MiniS3.Lib.Transition
