import Mathlib.Data.List.Induction

/-!
# Labelled partial transitions

A labelled partial transition sends a state and an action to the next state, or
to `none` when the action is not enabled.  Reachability is taken under a
side condition on the state before each action, so that a statement about all
runs and a statement about the runs that avoid one kind of step share one
induction principle.
-/

namespace MiniS3.Lib.Transition

universe u v

variable {σ : Type u} {α : Type v}

/-- A labelled partial transition; `none` means that the action is not enabled. -/
abbrev Step (σ : Type u) (α : Type v) :=
  σ → α → Option σ

/-- Perform a list of actions in order.  An action that is not enabled makes the
whole run undefined. -/
def run (next : Step σ α) : σ → List α → Option σ
  | state, [] => some state
  | state, action :: rest => (next state action).bind fun middle => run next middle rest

@[simp]
theorem run_nil (next : Step σ α) (state : σ) : run next state [] = some state :=
  rfl

theorem run_cons (next : Step σ α) (state : σ) (action : α) (rest : List α) :
    run next state (action :: rest) =
      (next state action).bind fun middle => run next middle rest :=
  rfl

/-- States reached from `source` by enabled actions, each of which satisfies
`allowed` in the state before it. -/
inductive ReachableUnder (next : Step σ α) (allowed : σ → α → Prop) (source : σ) :
    σ → Prop
  | refl : ReachableUnder next allowed source source
  | tail {middle target : σ} {action : α} :
      ReachableUnder next allowed source middle → allowed middle action →
      next middle action = some target → ReachableUnder next allowed source target

/-- States reached by arbitrary enabled actions. -/
def Reachable (next : Step σ α) (source : σ) : σ → Prop :=
  ReachableUnder next (fun _ _ => True) source

/-- The invariant rule: what holds initially and is kept by every allowed step
holds in every reached state. -/
theorem ReachableUnder.invariant {next : Step σ α} {allowed : σ → α → Prop}
    {source target : σ} (good : σ → Prop)
    (reachable : ReachableUnder next allowed source target) (initial : good source)
    (kept : ∀ ⦃state action after⦄, good state → allowed state action →
      next state action = some after → good after) :
    good target := by
  induction reachable with
  | refl => exact initial
  | tail _ allowedStep step inductionHypothesis =>
      exact kept inductionHypothesis allowedStep step

/-- Prepend one allowed step to a run. -/
theorem ReachableUnder.head {next : Step σ α} {allowed : σ → α → Prop}
    {source middle target : σ} {action : α} (allowedStep : allowed source action)
    (step : next source action = some middle)
    (rest : ReachableUnder next allowed middle target) :
    ReachableUnder next allowed source target := by
  induction rest with
  | refl => exact .tail .refl allowedStep step
  | tail _ lastAllowed lastStep inductionHypothesis =>
      exact .tail inductionHypothesis lastAllowed lastStep

/-- A run of the transition restricted by a Boolean check reaches its target
through steps that satisfy whatever the check implies. -/
theorem reachableUnder_of_run {next : Step σ α} {allowed : σ → α → Prop}
    (check : σ → α → Bool) (sound : ∀ state action, check state action = true →
      allowed state action) {source target : σ} {actions : List α}
    (performed : run (fun state action =>
      if check state action then next state action else none) source actions = some target) :
    ReachableUnder next allowed source target := by
  induction actions generalizing source with
  | nil =>
      simp only [run_nil, Option.some.injEq] at performed
      subst target
      exact .refl
  | cons action rest inductionHypothesis =>
      rw [run_cons, Option.bind_eq_some_iff] at performed
      obtain ⟨middle, step, performed⟩ := performed
      by_cases checked : check source action = true
      · rw [if_pos checked] at step
        exact .head (sound source action checked) step (inductionHypothesis performed)
      · rw [if_neg checked] at step
        contradiction

/-- Every run of enabled actions reaches its target. -/
theorem reachable_of_run {next : Step σ α} {source target : σ} {actions : List α}
    (performed : run next source actions = some target) : Reachable next source target := by
  apply reachableUnder_of_run (fun _ _ => true) (fun _ _ _ => trivial)
  simpa using performed

/-- A run that can be evaluated together with a property of its target. -/
theorem exists_reachable_of_run {next : Step σ α} {source : σ} {actions : List α}
    (property : σ → Bool) (performed : (run next source actions).any property = true) :
    ∃ target, Reachable next source target ∧ property target = true := by
  obtain ⟨target, performed, holds⟩ := (Option.any_eq_true _ _).mp performed
  exact ⟨target, reachable_of_run performed, holds⟩

/-- A run each of whose steps passes a check, with a property of its target. -/
theorem exists_reachableUnder_of_run {next : Step σ α} {allowed : σ → α → Prop}
    (check : σ → α → Bool) (sound : ∀ state action, check state action = true →
      allowed state action) {source : σ} {actions : List α} (property : σ → Bool)
    (performed : (run (fun state action =>
      if check state action then next state action else none) source actions).any property =
        true) :
    ∃ target, ReachableUnder next allowed source target ∧ property target = true := by
  obtain ⟨target, performed, holds⟩ := (Option.any_eq_true _ _).mp performed
  exact ⟨target, reachableUnder_of_run check sound performed, holds⟩

/-! ## The states and steps of one run -/

theorem run_append (next : Step σ α) (state : σ) (first second : List α) :
    run next state (first ++ second) =
      (run next state first).bind fun middle => run next middle second := by
  induction first generalizing state with
  | nil => rfl
  | cons action rest inductionHypothesis =>
      rw [List.cons_append, run_cons, run_cons, Option.bind_assoc]
      congr 1
      funext middle
      exact inductionHypothesis middle

/-- The run comes to the state, perhaps on its way. -/
def Visits (next : Step σ α) (source : σ) (actions : List α) (state : σ) : Prop :=
  ∃ before, before <+: actions ∧ run next source before = some state

/-- The run takes the action in the state. -/
def Takes (next : Step σ α) (source : σ) (actions : List α) (state : σ) (action : α) : Prop :=
  ∃ before, before ++ [action] <+: actions ∧ run next source before = some state

theorem Takes.visits {next : Step σ α} {source state : σ} {actions : List α} {action : α}
    (taken : Takes next source actions state action) : Visits next source actions state := by
  rcases taken with ⟨before, part, reached⟩
  exact ⟨before, (List.prefix_append before [action]).trans part, reached⟩

/-- In a run that is performed to its end, every step that is taken leads somewhere. -/
theorem Takes.target {next : Step σ α} {source state target : σ} {actions : List α} {action : α}
    (taken : Takes next source actions state action)
    (performed : run next source actions = some target) :
    ∃ after, next state action = some after ∧ Visits next source actions after := by
  rcases taken with ⟨before, part, reached⟩
  rcases part with ⟨rest, rfl⟩
  have whole := performed
  rw [List.append_assoc, run_append, reached, Option.bind_some, List.singleton_append, run_cons,
    Option.bind_eq_some_iff] at whole
  rcases whole with ⟨after, step, -⟩
  refine ⟨after, step, before ++ [action], List.prefix_append _ rest, ?_⟩
  rw [run_append, reached, Option.bind_some, run_cons, step]
  rfl

@[simp]
theorem takes_nil {next : Step σ α} {source state : σ} {action : α} :
    ¬Takes next source [] state action := by
  rintro ⟨before, part, -⟩
  simpa using part.length_le

theorem takes_cons {next : Step σ α} {source state : σ} {first action : α} {rest : List α} :
    Takes next source (first :: rest) state action ↔ (state = source ∧ action = first) ∨
      ∃ middle, next source first = some middle ∧ Takes next middle rest state action := by
  constructor
  · rintro ⟨before, part, reached⟩
    cases before with
    | nil =>
        cases reached
        exact .inl ⟨rfl, (List.cons_prefix_cons.mp part).1⟩
    | cons earliest before =>
        rcases List.cons_prefix_cons.mp part with ⟨rfl, shorter⟩
        rcases Option.bind_eq_some_iff.mp reached with ⟨middle, step, later⟩
        exact .inr ⟨middle, step, before, shorter, later⟩
  · rintro (⟨rfl, rfl⟩ | ⟨middle, step, before, part, reached⟩)
    · exact ⟨[], by simp, rfl⟩
    · refine ⟨first :: before, List.cons_prefix_cons.mpr ⟨rfl, part⟩, ?_⟩
      rw [run_cons, step]
      exact reached

/-- A run that can be evaluated with a check before each step is a run, and each step that it
takes passes the check. -/
theorem run_checked {next : Step σ α} {check : σ → α → Bool} {source target : σ}
    {actions : List α} (performed : run (fun state action =>
      if check state action then next state action else none) source actions = some target) :
    run next source actions = some target ∧
      ∀ state action, Takes next source actions state action → check state action = true := by
  induction actions generalizing source with
  | nil => exact ⟨performed, fun _ _ taken => absurd taken takes_nil⟩
  | cons first rest inductionHypothesis =>
      rw [run_cons, Option.bind_eq_some_iff] at performed
      rcases performed with ⟨middle, step, later⟩
      by_cases checked : check source first = true
      · rw [if_pos checked] at step
        rcases inductionHypothesis later with ⟨whole, taken⟩
        refine ⟨by rw [run_cons, step]; exact whole, fun state action takes => ?_⟩
        rcases takes_cons.mp takes with ⟨rfl, rfl⟩ | ⟨other, same, onward⟩
        · exact checked
        · cases step.symm.trans same
          exact taken state action onward
      · rw [if_neg checked] at step
        cases step

/-- The invariant rule for the states of one run. -/
theorem Visits.invariant {next : Step σ α} {source state : σ} {actions : List α}
    (good : σ → Prop) (visited : Visits next source actions state) (initial : good source)
    (kept : ∀ ⦃middle action after⦄, good middle → Takes next source actions middle action →
      next middle action = some after → good after) : good state := by
  rcases visited with ⟨before, part, reached⟩
  induction before using List.reverseRecOn generalizing state with
  | nil =>
      cases reached
      exact initial
  | append_singleton before action inductionHypothesis =>
      rw [run_append, Option.bind_eq_some_iff] at reached
      rcases reached with ⟨middle, earlier, last⟩
      rw [run_cons, Option.bind_eq_some_iff] at last
      rcases last with ⟨after, step, final⟩
      cases final
      have shorter := (List.prefix_append before [action]).trans part
      exact kept (inductionHypothesis shorter earlier) ⟨before, part, earlier⟩ step

/-- Where one kind of step breaks a property at once, and all others keep the invariant behind
it, the property holds throughout a run exactly if the run avoids that kind of step. -/
theorem good_iff_avoids {next : Step σ α} {source target : σ} {actions : List α}
    (performed : run next source actions = some target) (invariant good : σ → Prop)
    (bad : σ → α → Bool) (initial : invariant source)
    (sound : ∀ ⦃state⦄, invariant state → good state)
    (kept : ∀ ⦃state action after⦄, invariant state → next state action = some after →
      bad state action = false → invariant after)
    (broken : ∀ ⦃state action after⦄, invariant state → next state action = some after →
      bad state action = true → ¬ good after) :
    (∀ state, Visits next source actions state → good state) ↔
      ∀ state action, Takes next source actions state action → bad state action = false := by
  constructor
  · intro holds
    have avoids : ∀ state action, invariant state → Takes next source actions state action →
        bad state action = false := by
      intro state action before taken
      rcases taken.target performed with ⟨after, step, reached⟩
      cases breaks : bad state action with
      | false => rfl
      | true => exact absurd (holds after reached) (broken before step breaks)
    intro state action taken
    refine avoids state action (taken.visits.invariant invariant initial ?_) taken
    intro middle other after before takes step
    exact kept before step (avoids middle other before takes)
  · intro avoids state visited
    refine sound (visited.invariant invariant initial ?_)
    intro middle action after before taken step
    exact kept before step (avoids middle action taken)

end MiniS3.Lib.Transition
