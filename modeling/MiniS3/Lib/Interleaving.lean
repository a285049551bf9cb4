import MiniS3.Lib.Program
import MiniS3.Lib.Table
import MiniS3.Lib.Transition

/-!
# Interleaved programs

A pool is a shared state together with the programs that are running on it.  An
action starts a program for a request, or lets one running program make its next
call; a program that is finished leaves the pool.  Calls are answered for the
process that makes them, so that the shared state can know who holds what.

The invariant rule asks for an assertion on the shared state and one on each
running program.  A step keeps the assertion of the program that moves, and must
not disturb those of the others.
-/

namespace MiniS3.Lib.Interleaving

open Transition

variable {S : Signature} {α σ χ ι : Type}

/-- A shared state with the programs that run on it. -/
structure Pool (S : Signature) (α σ : Type) where
  shared : σ
  running : Table Nat (Program S α)

/-- Start a program for a request, or let a running one make its next call. -/
inductive Action (ι χ : Type)
  | start (process : Nat) (request : ι)
  | advance (process : Nat) (choice : χ)

/-- Keep a program that still has a call to make; drop a finished one. -/
def settle (process : Nat) (program : Program S α) (running : Table Nat (Program S α)) :
    Table Nat (Program S α) :=
  match program with
  | .ret _ => running.erase process
  | .call _ _ => running.set process program

/-- One step of the pool. -/
def next (code : ι → Program S α) (answer : Nat → Program.Interface S χ σ) :
    Step (Pool S α σ) (Action ι χ)
  | pool, .start process request =>
      match pool.running.lookup process with
      | some _ => none
      | none => some { pool with running := settle process (code request) pool.running }
  | pool, .advance process choice =>
      match pool.running.lookup process with
      | some (.call op rest) =>
          (answer process op choice pool.shared).map fun answered =>
            ⟨answered.2, settle process (rest answered.1) pool.running⟩
      | _ => none

/-! ## Inversion of a step -/

theorem lookup_settle_ne {process other : Nat} (program : Program S α)
    (running : Table Nat (Program S α)) (different : other ≠ process) :
    (settle process program running).lookup other = running.lookup other := by
  cases program with
  | ret value => exact Table.lookup_erase_ne running different
  | call op rest => exact Table.lookup_set_ne _ running different

/-- What is left in the pool of a program: nothing once it is finished. -/
def unfinished : Program S α → Option (Program S α)
  | .ret _ => none
  | .call op rest => some (.call op rest)

@[simp]
theorem lookup_settle_self (process : Nat) (program : Program S α)
    (running : Table Nat (Program S α)) :
    (settle process program running).lookup process = unfinished program := by
  cases program with
  | ret value => exact Table.lookup_erase_self process running
  | call op rest => exact Table.lookup_set_self process _ running

theorem next_start {code : ι → Program S α} {answer : Nat → Program.Interface S χ σ}
    {pool after : Pool S α σ} {process : Nat} {request : ι}
    (step : next code answer pool (.start process request) = some after) :
    pool.running.lookup process = none ∧
      after = { pool with running := settle process (code request) pool.running } := by
  cases free : pool.running.lookup process with
  | some program => simp [next, free] at step
  | none =>
      simp only [next, free, Option.some.injEq] at step
      exact ⟨rfl, step.symm⟩

theorem next_advance {code : ι → Program S α} {answer : Nat → Program.Interface S χ σ}
    {pool after : Pool S α σ} {process : Nat} {choice : χ}
    (step : next code answer pool (.advance process choice) = some after) :
    ∃ op rest answered shared, pool.running.lookup process = some (.call op rest) ∧
      answer process op choice pool.shared = some (answered, shared) ∧
      after = ⟨shared, settle process (rest answered) pool.running⟩ := by
  cases stored : pool.running.lookup process with
  | none => simp [next, stored] at step
  | some program =>
      cases program with
      | ret value => simp [next, stored] at step
      | call op rest =>
          simp only [next, stored, Option.map_eq_some_iff] at step
          obtain ⟨⟨answered, shared⟩, answeredEq, rfl⟩ := step
          exact ⟨op, rest, answered, shared, rfl, answeredEq, rfl⟩

/-! ## The invariant rule -/

/-- The shared assertion holds, and every process is at a point where its own
assertion holds; `none` stands for a process that is not running. -/
structure Holds (shared : σ → Prop) (point : Nat → σ → Option (Program S α) → Prop)
    (pool : Pool S α σ) : Prop where
  shared : shared pool.shared
  point : ∀ process, point process pool.shared (pool.running.lookup process)

/-- What the programs of a pool have to satisfy for the rule below. -/
structure Respects (code : ι → Program S α) (answer : Nat → Program.Interface S χ σ)
    (allowed : Pool S α σ → Action ι χ → Prop) (shared : σ → Prop)
    (point : Nat → σ → Option (Program S α) → Prop) : Prop where
  started : ∀ pool process request, Holds shared point pool →
    allowed pool (.start process request) → pool.running.lookup process = none →
    point process pool.shared (unfinished (code request))
  performed : ∀ pool process choice op rest answered after, Holds shared point pool →
    allowed pool (.advance process choice) →
    pool.running.lookup process = some (.call op rest) →
    answer process op choice pool.shared = some (answered, after) →
    shared after ∧ point process after (unfinished (rest answered)) ∧
      ∀ other, other ≠ process → point other after (pool.running.lookup other)

theorem Respects.step {code : ι → Program S α} {answer : Nat → Program.Interface S χ σ}
    {allowed : Pool S α σ → Action ι χ → Prop} {shared : σ → Prop}
    {point : Nat → σ → Option (Program S α) → Prop}
    (respects : Respects code answer allowed shared point)
    {pool after : Pool S α σ} {action : Action ι χ} (holds : Holds shared point pool)
    (allowedStep : allowed pool action) (step : next code answer pool action = some after) :
    Holds shared point after := by
  cases action with
  | start process request =>
      obtain ⟨free, rfl⟩ := next_start step
      refine ⟨holds.shared, ?_⟩
      intro other
      by_cases same : other = process
      · subst other
        simp only [lookup_settle_self]
        exact respects.started pool process request holds allowedStep free
      · simp only [lookup_settle_ne _ _ same]
        exact holds.point other
  | advance process choice =>
      obtain ⟨op, rest, answered, shared, stored, answeredEq, rfl⟩ := next_advance step
      obtain ⟨sharedAfter, pointAfter, undisturbed⟩ := respects.performed pool process choice op
        rest answered shared holds allowedStep stored answeredEq
      refine ⟨sharedAfter, ?_⟩
      intro other
      by_cases same : other = process
      · subst other
        simp only [lookup_settle_self]
        exact pointAfter
      · simp only [lookup_settle_ne _ _ same]
        exact undisturbed other same

/-- The invariant rule for interleaved programs. -/
theorem Respects.invariant {code : ι → Program S α}
    {answer : Nat → Program.Interface S χ σ} {allowed : Pool S α σ → Action ι χ → Prop}
    {shared : σ → Prop} {point : Nat → σ → Option (Program S α) → Prop}
    (respects : Respects code answer allowed shared point) {source target : Pool S α σ}
    (initial : Holds shared point source)
    (reachable : ReachableUnder (next code answer) allowed source target) :
    Holds shared point target :=
  reachable.invariant (Holds shared point) initial
    fun _ _ _ holds allowedStep step => respects.step holds allowedStep step

end MiniS3.Lib.Interleaving
