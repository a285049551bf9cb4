import Mathlib.Logic.Basic

/-!
# Programs over a signature of calls

A signature lists the calls a program can make on its surroundings and the type
of answer each call gets.  A program is a tree: it is finished with a value, or
makes one call and continues with the answer.  The same tree is run alone, as a
state transformer, or advanced one call at a time beside other programs.

The surroundings answer a call from a shared state and a choice of their own (an
injected failure, a short count, a fresh name).  `Ensures` is the weakest
precondition of a program against every such choice, and `Runs` tells the calls of one run
with their answers, whatever the surroundings are.
-/

namespace MiniS3.Lib

/-- The calls a program can make, with the type of answer to each. -/
structure Signature where
  Op : Type
  Ans : Op → Type

/-- A program that makes calls of the signature `S` and finishes with a value. -/
inductive Program (S : Signature) (α : Type)
  | ret (value : α) : Program S α
  | call (op : S.Op) (next : S.Ans op → Program S α) : Program S α

namespace Program

variable {S : Signature} {α β γ σ χ : Type}

/-- Continue with the value of a finished program. -/
def bind : Program S α → (α → Program S β) → Program S β
  | ret value, rest => rest value
  | call op next, rest => call op fun answer => (next answer).bind rest

/-- Make one call and finish with its answer. -/
def perform (op : S.Op) : Program S (S.Ans op) :=
  call op ret

instance : Monad (Program S) where
  pure := ret
  bind := bind

@[simp]
theorem pure_eq (value : α) : (pure value : Program S α) = ret value :=
  rfl

@[simp]
theorem ret_bind (value : α) (rest : α → Program S β) :
    (ret value : Program S α) >>= rest = rest value :=
  rfl

@[simp]
theorem call_bind (op : S.Op) (next : S.Ans op → Program S α) (rest : α → Program S β) :
    call op next >>= rest = call op fun answer => next answer >>= rest :=
  rfl

@[simp]
theorem perform_bind (op : S.Op) (rest : S.Ans op → Program S β) :
    perform op >>= rest = call op rest :=
  rfl

theorem bind_assoc (program : Program S α) (first : α → Program S β)
    (second : β → Program S γ) :
    program >>= first >>= second = program >>= fun value => first value >>= second := by
  induction program with
  | ret value => rfl
  | call op next inductionHypothesis =>
      simp only [call_bind]
      congr 1
      funext answer
      exact inductionHypothesis answer

theorem bind_ret (program : Program S α) : program >>= ret = program := by
  induction program with
  | ret value => rfl
  | call op next inductionHypothesis =>
      simp only [call_bind]
      congr 1
      funext answer
      exact inductionHypothesis answer

/-- Replace every call by a program over another signature. -/
def interpret {T : Signature} (implementation : (op : S.Op) → Program T (S.Ans op)) :
    Program S α → Program T α
  | ret value => ret value
  | call op next => implementation op >>= fun answer => interpret implementation (next answer)

/-! ## Running alone -/

/-- Run a program whose calls are answered by a state transformer. -/
def run (answer : (op : S.Op) → σ → S.Ans op × σ) : Program S α → σ → α × σ
  | ret value, state => (value, state)
  | call op next, state => run answer (next (answer op state).1) (answer op state).2

@[simp]
theorem run_ret (answer : (op : S.Op) → σ → S.Ans op × σ) (value : α) (state : σ) :
    run answer (ret value) state = (value, state) :=
  rfl

@[simp]
theorem run_call (answer : (op : S.Op) → σ → S.Ans op × σ) (op : S.Op)
    (next : S.Ans op → Program S α) (state : σ) :
    run answer (call op next) state =
      run answer (next (answer op state).1) (answer op state).2 :=
  rfl

/-- The calls a run makes, in order. -/
def trace (answer : (op : S.Op) → σ → S.Ans op × σ) : Program S α → σ → List S.Op
  | ret _, _ => []
  | call op next, state => op :: trace answer (next (answer op state).1) (answer op state).2

/-! ## Running against the choices of the surroundings -/

/-- How a call is answered: from the choice of the surroundings and the shared
state, or not at all when it is not enabled. -/
abbrev Interface (S : Signature) (χ σ : Type) :=
  (op : S.Op) → χ → σ → Option (S.Ans op × σ)

/-- The interface, where a call turns out only as it is allowed to. -/
def Interface.restrict (answer : Interface S χ σ) (allowed : S.Op → χ → Bool) :
    Interface S χ σ :=
  fun op choice state => if allowed op choice then answer op choice state else none

/-- The interface, where only answers that are accepted are given. -/
def Interface.accept (answer : Interface S χ σ) (accepted : (op : S.Op) → S.Ans op → Bool) :
    Interface S χ σ :=
  fun op choice state => (answer op choice state).filter fun answered => accepted op answered.1

/-- A whole execution with one choice for each call it makes. -/
def execute (answer : Interface S χ σ) : Program S α → List χ → σ → Option (α × σ)
  | ret value, [], state => some (value, state)
  | ret _, _ :: _, _ => none
  | call _ _, [], _ => none
  | call op next, choice :: choices, state =>
      (answer op choice state).bind fun answered =>
        execute answer (next answered.1) choices answered.2

/-- An execution of a sequence is one of its first part and then one of its second. -/
theorem execute_bind {answer : Interface S χ σ} {program : Program S α}
    {rest : α → Program S β} {choices : List χ} {state : σ} {ended : β × σ}
    (executed : execute answer (program >>= rest) choices state = some ended) :
    ∃ front back value middle, choices = front ++ back ∧
      execute answer program front state = some (value, middle) ∧
      execute answer (rest value) back middle = some ended := by
  induction program generalizing choices state with
  | ret value => exact ⟨[], choices, value, state, rfl, rfl, executed⟩
  | call op next inductionHypothesis =>
      cases choices with
      | nil => cases executed
      | cons choice choices =>
          rcases Option.bind_eq_some_iff.mp executed with ⟨⟨answered, after⟩, step, later⟩
          rcases inductionHypothesis answered later with
            ⟨front, back, value, middle, rfl, first, second⟩
          refine ⟨choice :: front, back, value, middle, rfl, ?_, second⟩
          rw [execute, step]
          exact first

/-- What the program finishes with, when its choices stand at the front of the list. -/
def outcome (answer : Interface S χ σ) : Program S α → List χ → σ → Option α
  | ret value, _, _ => some value
  | call _ _, [], _ => none
  | call op next, choice :: choices, state =>
      (answer op choice state).bind fun answered =>
        outcome answer (next answered.1) choices answered.2

theorem outcome_of_execute {answer : Interface S χ σ} {program : Program S α} {front : List χ}
    {state after : σ} {value : α} (executed : execute answer program front state =
      some (value, after)) (back : List χ) :
    outcome answer program (front ++ back) state = some value := by
  induction program generalizing front state with
  | ret result =>
      cases front with
      | nil =>
          cases executed
          rfl
      | cons choice front => cases executed
  | call op next inductionHypothesis =>
      cases front with
      | nil => cases executed
      | cons choice front =>
          rcases Option.bind_eq_some_iff.mp executed with ⟨⟨answered, middle⟩, step, later⟩
          rw [List.cons_append, outcome, step]
          exact inductionHypothesis answered later

/-- Every execution against choices that `permitted` admits ends in `post`. -/
def Ensures (answer : Interface S χ σ) (permitted : χ → Prop) (post : α → σ → Prop) :
    Program S α → σ → Prop
  | ret value, state => post value state
  | call op next, state =>
      ∀ choice answered after, permitted choice →
        answer op choice state = some (answered, after) →
        Ensures answer permitted post (next answered) after

theorem Ensures.of_execute {answer : Interface S χ σ} {permitted : χ → Prop}
    {post : α → σ → Prop} {program : Program S α} {choices : List χ} {state after : σ}
    {value : α} (ensures : Ensures answer permitted post program state)
    (choicesPermitted : ∀ choice ∈ choices, permitted choice)
    (executed : execute answer program choices state = some (value, after)) :
    post value after := by
  induction program generalizing choices state with
  | ret result =>
      cases choices with
      | nil =>
          simp only [execute, Option.some.injEq, Prod.mk.injEq] at executed
          obtain ⟨rfl, rfl⟩ := executed
          exact ensures
      | cons choice rest => simp [execute] at executed
  | call op next inductionHypothesis =>
      cases choices with
      | nil => simp [execute] at executed
      | cons choice rest =>
          simp only [execute, Option.bind_eq_some_iff] at executed
          obtain ⟨⟨answered, middle⟩, step, executed⟩ := executed
          refine inductionHypothesis answered ?_ ?_ executed
          · exact ensures choice answered middle
              (choicesPermitted choice List.mem_cons_self) step
          · intro other member
            exact choicesPermitted other (List.mem_cons_of_mem _ member)

theorem Ensures.mono {answer : Interface S χ σ} {permitted : χ → Prop}
    {weak strong : α → σ → Prop} {program : Program S α} {state : σ}
    (ensures : Ensures answer permitted strong program state)
    (implies : ∀ value after, strong value after → weak value after) :
    Ensures answer permitted weak program state := by
  induction program generalizing state with
  | ret value => exact implies value state ensures
  | call op next inductionHypothesis =>
      intro choice answered after choicePermitted step
      exact inductionHypothesis answered (ensures choice answered after choicePermitted step)

/-- What holds against an interface holds against one that gives fewer answers. -/
theorem Ensures.narrow {answer narrower : Interface S χ σ} {permitted : χ → Prop}
    {post : α → σ → Prop} {program : Program S α} {state : σ}
    (ensures : Ensures answer permitted post program state)
    (fewer : ∀ op choice before answered after,
      narrower op choice before = some (answered, after) →
      answer op choice before = some (answered, after)) :
    Ensures narrower permitted post program state := by
  induction program generalizing state with
  | ret value => exact ensures
  | call op next inductionHypothesis =>
      intro choice answered after choicePermitted step
      exact inductionHypothesis answered
        (ensures choice answered after choicePermitted (fewer _ _ _ _ _ step))

/-- What holds where calls turn out only as they are allowed to holds against choices that are
all allowed. -/
theorem Ensures.of_restrict {answer : Interface S χ σ} {allowed : S.Op → χ → Bool}
    {permitted : χ → Prop} {post : α → σ → Prop} {program : Program S α} {state : σ}
    (ensures : Ensures (answer.restrict allowed) (fun _ => True) post program state)
    (admits : ∀ op choice, permitted choice → allowed op choice = true) :
    Ensures answer permitted post program state := by
  induction program generalizing state with
  | ret value => exact ensures
  | call op next inductionHypothesis =>
      intro choice answered after choicePermitted step
      apply inductionHypothesis answered
      apply ensures choice answered after trivial
      unfold Interface.restrict
      rw [if_pos (admits op choice choicePermitted)]
      exact step

theorem Ensures.and {answer : Interface S χ σ} {permitted : χ → Prop}
    {first second : α → σ → Prop} {program : Program S α} {state : σ}
    (one : Ensures answer permitted first program state)
    (two : Ensures answer permitted second program state) :
    Ensures answer permitted (fun value after => first value after ∧ second value after) program
      state := by
  induction program generalizing state with
  | ret value => exact ⟨one, two⟩
  | call op next inductionHypothesis =>
      intro choice answered after choicePermitted step
      exact inductionHypothesis answered (one choice answered after choicePermitted step)
        (two choice answered after choicePermitted step)

/-- Sequencing: the postcondition of the first part is the precondition of the
second. -/
theorem ensures_bind {answer : Interface S χ σ} {permitted : χ → Prop}
    {post : β → σ → Prop} {program : Program S α} {rest : α → Program S β} {state : σ} :
    Ensures answer permitted post (program >>= rest) state ↔
      Ensures answer permitted
        (fun value after => Ensures answer permitted post (rest value) after) program state := by
  induction program generalizing state with
  | ret value => rfl
  | call op next inductionHypothesis =>
      simp only [call_bind, Ensures]
      exact forall_congr' fun choice => forall_congr' fun answered => forall_congr' fun after =>
        forall_congr' fun _ => forall_congr' fun _ => inductionHypothesis answered

/-- Some execution against choices that `permitted` admits comes to an end. -/
def CanRun (answer : Interface S χ σ) (permitted : χ → Prop) : Program S α → σ → Prop
  | ret _, _ => True
  | call op next, state =>
      ∃ choice answered after, permitted choice ∧ answer op choice state = some (answered, after) ∧
        CanRun answer permitted (next answered) after

theorem CanRun.execute {answer : Interface S χ σ} {permitted : χ → Prop} {program : Program S α}
    {state : σ} (canRun : CanRun answer permitted program state) :
    ∃ choices value after, (∀ choice ∈ choices, permitted choice) ∧
      execute answer program choices state = some (value, after) := by
  induction program generalizing state with
  | ret value => exact ⟨[], value, state, by simp, rfl⟩
  | call op next inductionHypothesis =>
      rcases canRun with ⟨choice, answered, middle, choicePermitted, step, rest⟩
      rcases inductionHypothesis answered rest with ⟨choices, value, after, permitted, executed⟩
      refine ⟨choice :: choices, value, after, ?_, ?_⟩
      · exact List.forall_mem_cons.mpr ⟨choicePermitted, permitted⟩
      · rw [Program.execute, step]
        exact executed

/-! ## The calls of a program -/

/-- Every call the program can make is allowed, and every value it can finish with is a
`result`, whatever the answers are. -/
def Only (allowed : S.Op → Prop) (result : α → Prop) : Program S α → Prop
  | ret value => result value
  | call op next => allowed op ∧ ∀ answer, Only allowed result (next answer)

theorem only_bind {allowed : S.Op → Prop} {result : β → Prop} {program : Program S α}
    {rest : α → Program S β} :
    Only allowed result (program >>= rest) ↔
      Only allowed (fun value => Only allowed result (rest value)) program := by
  induction program with
  | ret value => rfl
  | call op next inductionHypothesis =>
      simp only [call_bind, Only]
      exact and_congr_right fun _ => forall_congr' fun answer => inductionHypothesis answer

theorem Only.mono {allowed wider : S.Op → Prop} {result weaker : α → Prop}
    {program : Program S α} (only : Only allowed result program)
    (widens : ∀ op, allowed op → wider op) (weakens : ∀ value, result value → weaker value) :
    Only wider weaker program := by
  induction program with
  | ret value => exact weakens value only
  | call op next inductionHypothesis =>
      exact ⟨widens op only.1, fun answer => inductionHypothesis answer (only.2 answer)⟩

/-- The rule of sequencing: what the first part returns is known to the second. -/
theorem Only.bind {allowed : S.Op → Prop} {middle : α → Prop} {result : β → Prop}
    {program : Program S α} {rest : α → Program S β} (only : Only allowed middle program)
    (restOnly : ∀ value, middle value → Only allowed result (rest value)) :
    Only allowed result (program >>= rest) :=
  only_bind.mpr (only.mono (fun _ holds => holds) restOnly)

/-- What the implementations of the calls do is all an interpreted program does. -/
theorem Only.interpret {T : Signature} {allowed : S.Op → Prop} {wider : T.Op → Prop}
    {result : α → Prop} {implementation : (op : S.Op) → Program T (S.Ans op)}
    {program : Program S α} (only : Only allowed result program)
    (implemented : ∀ op, allowed op → Only wider (fun _ => True) (implementation op)) :
    Only wider result (program.interpret implementation) := by
  induction program with
  | ret value => exact only
  | call op next inductionHypothesis =>
      exact (implemented op only.1).bind fun answer _ =>
        inductionHypothesis answer (only.2 answer)

/-- Calls that keep an assertion keep it through the whole program. -/
theorem Only.ensures {answer : Interface S χ σ} {permitted : χ → Prop} {good : σ → Prop}
    {allowed : S.Op → Prop} {result : α → Prop} {program : Program S α} {state : σ}
    (only : Only allowed result program)
    (kept : ∀ op choice before answered after, allowed op → permitted choice → good before →
      answer op choice before = some (answered, after) → good after)
    (initial : good state) :
    Ensures answer permitted (fun value after => result value ∧ good after) program state := by
  induction program generalizing state with
  | ret value => exact ⟨only, initial⟩
  | call op next inductionHypothesis =>
      intro choice answered after choicePermitted step
      exact inductionHypothesis answered (only.2 answered)
        (kept op choice state answered after only.1 choicePermitted initial step)

/-! ## What was asked and answered -/

/-- A call with its answer. -/
abbrev Event (S : Signature) :=
  (op : S.Op) × S.Ans op

/-- The program, answered as the events say, finishes with the value. -/
inductive Runs : Program S α → List (Event S) → α → Prop
  | ret (value : α) : Runs (ret value) [] value
  | call {op : S.Op} {next : S.Ans op → Program S α} {answer : S.Ans op}
      {events : List (Event S)} {value : α} (rest : Runs (next answer) events value) :
      Runs (call op next) (⟨op, answer⟩ :: events) value

@[simp]
theorem runs_ret {value result : α} {events : List (Event S)} :
    Runs (ret value : Program S α) events result ↔ events = [] ∧ result = value := by
  constructor
  · intro runs
    cases runs
    exact ⟨rfl, rfl⟩
  · rintro ⟨rfl, rfl⟩
    exact .ret result

theorem runs_call {op : S.Op} {next : S.Ans op → Program S α} {events : List (Event S)}
    {result : α} :
    Runs (call op next) events result ↔
      ∃ answer rest, events = ⟨op, answer⟩ :: rest ∧ Runs (next answer) rest result := by
  constructor
  · intro runs
    cases runs with
    | call rest => exact ⟨_, _, rfl, rest⟩
  · rintro ⟨answer, rest, rfl, runs⟩
    exact .call runs

/-- A run of a sequence is a run of its first part and then one of its second. -/
theorem runs_bind {program : Program S α} {rest : α → Program S β} {events : List (Event S)}
    {result : β} :
    Runs (program >>= rest) events result ↔
      ∃ before after value, events = before ++ after ∧ Runs program before value ∧
        Runs (rest value) after result := by
  constructor
  · intro runs
    induction program generalizing events with
    | ret value => exact ⟨[], events, value, rfl, .ret value, runs⟩
    | call op next inductionHypothesis =>
        obtain ⟨answer, tail, rfl, tailRuns⟩ := runs_call.mp runs
        obtain ⟨before, after, value, rfl, first, second⟩ := inductionHypothesis answer tailRuns
        exact ⟨_, after, value, rfl, .call first, second⟩
  · rintro ⟨before, after, value, rfl, first, second⟩
    induction first with
    | ret value => exact second
    | call _ inductionHypothesis => exact .call (inductionHypothesis second)

/-- A run that only makes allowed calls shows them, and ends in a `result`. -/
theorem Only.runs {allowed : S.Op → Prop} {result : α → Prop} {program : Program S α}
    {events : List (Event S)} {value : α} (only : Only allowed result program)
    (runs : Runs program events value) :
    (∀ event ∈ events, allowed event.1) ∧ result value := by
  induction runs with
  | ret value => exact ⟨by simp, only⟩
  | @call op next answer events value rest inductionHypothesis =>
      obtain ⟨others, ended⟩ := inductionHypothesis (only.2 answer)
      refine ⟨?_, ended⟩
      intro event member
      rcases List.mem_cons.mp member with rfl | member
      · exact only.1
      · exact others event member

/-- Every run of the program satisfies `post` of its events and its value. -/
def Always (post : List (Event S) → α → Prop) : Program S α → Prop
  | ret value => post [] value
  | call op next => ∀ answer, Always (fun events => post (⟨op, answer⟩ :: events)) (next answer)

theorem always_iff {post : List (Event S) → α → Prop} {program : Program S α} :
    Always post program ↔ ∀ events value, Runs program events value → post events value := by
  induction program generalizing post with
  | ret value =>
      constructor
      · rintro holds events result runs
        obtain ⟨rfl, rfl⟩ := runs_ret.mp runs
        exact holds
      · intro holds
        exact holds [] value (.ret value)
  | call op next inductionHypothesis =>
      simp only [Always, inductionHypothesis]
      constructor
      · intro holds events value runs
        obtain ⟨answer, rest, rfl, tail⟩ := runs_call.mp runs
        exact holds answer rest value tail
      · intro holds answer events value runs
        exact holds _ value (.call runs)

theorem Always.mono {weak strong : List (Event S) → α → Prop} {program : Program S α}
    (always : Always strong program)
    (implies : ∀ events value, strong events value → weak events value) :
    Always weak program :=
  always_iff.mpr fun events value runs =>
    implies events value (always_iff.mp always events value runs)

/-- The rule of sequencing, where the events of the first part are known to the second. -/
theorem Always.bind {middle : List (Event S) → α → Prop} {post : List (Event S) → β → Prop}
    {program : Program S α} {rest : α → Program S β} (always : Always middle program)
    (restAlways : ∀ before value, middle before value →
      Always (fun after => post (before ++ after)) (rest value)) :
    Always post (program >>= rest) := by
  refine always_iff.mpr fun events result runs => ?_
  obtain ⟨before, after, value, rfl, first, second⟩ := runs_bind.mp runs
  exact always_iff.mp (restAlways before value (always_iff.mp always before value first))
    after result second

/-- What is true of the calls and the value is true of every run. -/
theorem Only.always {allowed : S.Op → Prop} {result : α → Prop} {program : Program S α}
    (only : Only allowed result program) :
    Always (fun events value => (∀ event ∈ events, allowed event.1) ∧ result value) program :=
  always_iff.mpr fun _ _ runs => only.runs runs

/-- The calls of a run that a state transformer answers, with their answers. -/
def log (answer : (op : S.Op) → σ → S.Ans op × σ) : Program S α → σ → List (Event S)
  | ret _, _ => []
  | call op next, state =>
      ⟨op, (answer op state).1⟩ :: log answer (next (answer op state).1) (answer op state).2

theorem runs_log (answer : (op : S.Op) → σ → S.Ans op × σ) (program : Program S α)
    (state : σ) : Runs program (log answer program state) (run answer program state).1 := by
  induction program generalizing state with
  | ret value => exact .ret value
  | call op next inductionHypothesis => exact .call (inductionHypothesis _ _)

end Program

end MiniS3.Lib
