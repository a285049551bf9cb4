import Mathlib
import MiniS3.Lib.Variant
import MiniS3.Storage.World

/-!
# The thread of the garbage collector

Handlers report blobs to a queue under a mutex and notify a condition variable, on which one
thread waits for some time; then it takes a batch and works through it.  `Start` and `Stop` are
called by the thread that owns the collector.  `Stop` clears the flag without the mutex, so that
it may come between the thread's look at the flag and its wait.

Locked sections are single steps here, apart from those of the thread itself, which holds the
mutex from its look at the queue to its wait.  A wait may end at any time, since a time limit is
reached or for no reason at all.
-/

namespace MiniS3.GarbageCollector

open Lib.Transition

universe u

/-- Where the thread is in `GCLoop`.  An `ended` thread is over, or was never started. -/
inductive Phase (κ : Type u)
  | ended
  /-- Before the condition of `while`. -/
  | checking
  /-- Before the mutex is taken for `wait_for`. -/
  | locking
  /-- Before the predicate of `wait_for`, with the mutex. -/
  | deciding
  /-- The predicate was false, and the mutex is still held. -/
  | blocking
  | asleep
  /-- The wait is over, and the mutex is to be taken again. -/
  | waking
  /-- Before the flag is read after the wait. -/
  | leaving
  /-- Before the locked section of `ProcessBatch`. -/
  | taking
  /-- In the loop of `ProcessBatch` over the rest of its batch. -/
  | working (batch : List κ)
  deriving DecidableEq

namespace Phase

variable {κ : Type u}

def holdsMutex : Phase κ → Bool
  | deciding => true
  | blocking => true
  | _ => false

/-- The thread sleeps, or has decided to. -/
def waits : Phase κ → Bool
  | blocking => true
  | asleep => true
  | _ => false

/-- What a notification does to the thread. -/
def notified : Phase κ → Phase κ
  | asleep => waking
  | phase => phase

@[simp]
theorem waits_notified_of_free {phase : Phase κ} (free : phase.holdsMutex = false) :
    phase.notified.waits = false := by
  cases phase <;> first | rfl | cases free

theorem waits_of_notified {phase : Phase κ} (waits : phase.notified.waits = true) :
    phase.waits = true := by
  cases phase <;> first | rfl | cases waits

theorem notified_eq_working {phase : Phase κ} {batch : List κ} :
    phase.notified = working batch ↔ phase = working batch := by
  cases phase <;> simp [notified]

theorem notified_eq_ended {phase : Phase κ} : phase.notified = ended ↔ phase = ended := by
  cases phase <;> simp [notified]

end Phase

/-- Where the owner of the collector is in `Stop`: outside, after the store of the flag, or after
`notify_all`. -/
inductive Owner
  | idle
  | notifying
  | joining
  deriving DecidableEq

/-- A `GarbageCollector` with its threads. -/
structure LoopState (κ : Type u) where
  running : Bool
  pendingDeletes : List κ
  phase : Phase κ
  owner : Owner
  /-- What was ever reported. -/
  reported : List κ
  /-- What was ever put in a batch. -/
  taken : List κ
  deriving DecidableEq

/-- A step of a thread. -/
inductive LoopAction (κ : Type u)
  /-- `AddPendingDeletes`, or `AddPendingDelete` for one key. -/
  | addPendingDeletes (casKeys : List κ)
  /-- The locked section of `ProcessBatch` in a call of `RunOnce`. -/
  | runOnce
  | start
  /-- `Stop` up to the store of the flag. -/
  | clear
  | notifyAll
  | join
  /-- The sleep of the thread ends without a notification. -/
  | wake
  /-- The thread has the mutex again, and the wait says whether its time was over. -/
  | resume (timedOut : Bool)
  /-- Any other step of the thread. -/
  | advance
  deriving DecidableEq

namespace LoopAction

variable {κ : Type u}

/-- The thread takes the step itself. -/
def own : LoopAction κ → Bool
  | wake => true
  | resume _ => true
  | advance => true
  | _ => false

def wakes : LoopAction κ → Bool
  | wake => true
  | _ => false

end LoopAction

namespace LoopState

variable {κ : Type u}

/-- A collector before `Start`. -/
def initial : LoopState κ where
  running := false
  pendingDeletes := []
  phase := .ended
  owner := .idle
  reported := []
  taken := []

/-- The locked section of `ProcessBatch`: `static_cast<int>(batch.size()) < batch_size_` is false
at once for a limit that is not positive. -/
def takeBatch (batchSize : Int) (state : LoopState κ) : LoopState κ :=
  { state with
    pendingDeletes := state.pendingDeletes.drop batchSize.toNat
    taken := state.taken ++ state.pendingDeletes.take batchSize.toNat }

/-- The batch is the one that the call of the collector is answered with in the world of the
server, and both queues keep the same rest. -/
theorem answer_takePendingDeletes {setup : Setup} {process : Nat} {world after : World}
    {state : LoopState Bytes} (same : state.pendingDeletes = world.pendingDeletes)
    {batchSize : Int} {batch : List Bytes}
    (step : MiniS3.answer setup process (.takePendingDeletes batchSize) .done world =
      some (batch, after)) :
    (state.takeBatch batchSize).pendingDeletes = after.pendingDeletes ∧
      (state.takeBatch batchSize).taken = state.taken ++ batch := by
  rw [MiniS3.answer] at step
  cases step
  rw [← same]
  exact ⟨rfl, rfl⟩

variable (batchSize : Int)

/-- A step of `GCLoop`. -/
def advance (state : LoopState κ) : Option (LoopState κ) :=
  match state.phase with
  | .ended => none
  | .checking => some { state with phase := if state.running then .locking else .ended }
  | .locking => some { state with phase := .deciding }
  | .deciding =>
      some { state with
        phase := if !state.running || !state.pendingDeletes.isEmpty then .leaving else .blocking }
  | .blocking => some { state with phase := .asleep }
  | .asleep => none
  | .waking => none
  | .leaving => some { state with phase := if state.running then .taking else .ended }
  | .taking =>
      some { state.takeBatch batchSize with
        phase := .working (state.pendingDeletes.take batchSize.toNat) }
  | .working [] => some { state with phase := .checking }
  | .working (_ :: batch) => some { state with phase := .working batch }

def next : Step (LoopState κ) (LoopAction κ) := fun state action =>
  match action with
  | .addPendingDeletes casKeys =>
      if state.phase.holdsMutex then none
      else
        some { state with
          pendingDeletes := state.pendingDeletes ++ casKeys
          phase := state.phase.notified
          reported := state.reported ++ casKeys }
  | .runOnce => if state.phase.holdsMutex then none else some (state.takeBatch batchSize)
  | .start =>
      if state.owner = .idle then
        some (if state.running then state else { state with running := true, phase := .checking })
      else none
  | .clear =>
      if state.owner = .idle then
        some (if state.running then { state with running := false, owner := .notifying } else state)
      else none
  | .notifyAll =>
      if state.owner = .notifying then
        some { state with owner := .joining, phase := state.phase.notified }
      else none
  | .join =>
      match state.owner, state.phase with
      | .joining, .ended => some { state with owner := .idle }
      | _, _ => none
  | .wake =>
      match state.phase with
      | .asleep => some { state with phase := .waking }
      | _ => none
  | .resume timedOut =>
      match state.phase with
      | .waking => some { state with phase := if timedOut then .leaving else .deciding }
      | _ => none
  | .advance => state.advance batchSize

/-! ## What is kept of the reports -/

variable {batchSize} {state : LoopState κ}

/-- Every report is in the queue or was put in one batch, in the order of the reports; the thread
sleeps on an empty queue only; there is a thread while the flag is set, and none when the flag is
clear and the owner is not in `Stop`. -/
structure Kept (batchSize : Int) (state : LoopState κ) : Prop where
  counted : state.taken ++ state.pendingDeletes = state.reported
  empty : state.phase.waits = true → state.pendingDeletes = []
  small : ∀ batch, state.phase = .working batch → batch.length ≤ batchSize.toNat
  single : state.owner = .idle → state.running = false → state.phase = .ended
  alive : state.running = true → state.phase ≠ .ended
  cleared : state.owner ≠ .idle → state.running = false

theorem kept_initial : (initial : LoopState κ).Kept batchSize where
  counted := rfl
  empty _ := rfl
  small _ working := by cases working
  single _ _ := rfl
  alive runs := by cases runs
  cleared inStop := absurd rfl inStop

/-- A step of the thread that leaves the queue alone. -/
theorem Kept.move (kept : state.Kept batchSize) {phase : Phase κ} (alive : state.phase ≠ .ended)
    (ends : phase = .ended → state.running = false)
    (empty : phase.waits = true → state.pendingDeletes = [])
    (small : ∀ batch, phase = .working batch → batch.length ≤ batchSize.toNat) :
    { state with phase := phase }.Kept batchSize where
  counted := kept.counted
  empty := empty
  small := small
  single outside clear := absurd (kept.single outside clear) alive
  alive runs finished := by
    rw [show state.running = false from ends finished] at runs
    cases runs
  cleared := kept.cleared

theorem Kept.advance (kept : state.Kept batchSize) {after : LoopState κ}
    (step : state.advance batchSize = some after) : after.Kept batchSize := by
  rw [LoopState.advance] at step
  split at step
  · cases step
  · rename_i checking
    cases step
    refine kept.move (by simp [checking]) ?_ ?_ ?_ <;> split <;> simp_all [Phase.waits]
  · rename_i locking
    cases step
    exact kept.move (by simp [locking]) (by simp) (by simp [Phase.waits]) (by simp)
  · rename_i deciding
    cases step
    refine kept.move (by simp [deciding]) ?_ ?_ ?_
    · split <;> simp
    · split
      · simp [Phase.waits]
      · rename_i nothing
        intro _
        simp only [Bool.or_eq_true, not_or] at nothing
        simpa using nothing.2
    · split <;> simp
  · rename_i blocking
    cases step
    exact kept.move (by simp [blocking]) (by simp)
      (fun _ => kept.empty (by simp [blocking, Phase.waits])) (by simp)
  · cases step
  · cases step
  · rename_i leaving
    cases step
    refine kept.move (by simp [leaving]) ?_ ?_ ?_ <;> split <;> simp_all [Phase.waits]
  · rename_i taking
    cases step
    refine ⟨?_, by simp [Phase.waits], ?_, ?_, by simp, kept.cleared⟩
    · rw [takeBatch, List.append_assoc, List.take_append_drop]
      exact kept.counted
    · rintro batch ⟨rfl⟩
      exact List.length_take_le _ _
    · intro outside clear
      rw [kept.single outside clear] at taking
      cases taking
  · rename_i working
    cases step
    exact kept.move (by simp [working]) (by simp) (by simp [Phase.waits]) (by simp)
  · rename_i casKey batch working
    cases step
    refine kept.move (by simp [working]) (by simp) (by simp [Phase.waits]) ?_
    rintro rest ⟨rfl⟩
    have whole := kept.small _ working
    rw [List.length_cons] at whole
    omega

theorem Kept.next (kept : state.Kept batchSize) {action : LoopAction κ} {after : LoopState κ}
    (step : LoopState.next batchSize state action = some after) : after.Kept batchSize := by
  cases action with
  | advance => exact kept.advance step
  | addPendingDeletes casKeys =>
      rw [LoopState.next] at step
      split at step
      · cases step
      · rename_i free
        cases step
        refine ⟨?_, ?_, ?_, ?_, ?_, kept.cleared⟩
        · rw [← kept.counted, List.append_assoc]
        · intro waits
          rw [Phase.waits_notified_of_free (by simpa using free)] at waits
          cases waits
        · intro batch working
          exact kept.small batch (Iff.mp Phase.notified_eq_working working)
        · intro outside clear
          exact Iff.mpr Phase.notified_eq_ended (kept.single outside clear)
        · exact fun runs finished => kept.alive runs (Iff.mp Phase.notified_eq_ended finished)
  | runOnce =>
      rw [LoopState.next] at step
      split at step
      · cases step
      · cases step
        refine ⟨?_, ?_, kept.small, kept.single, kept.alive, kept.cleared⟩
        · rw [takeBatch, List.append_assoc, List.take_append_drop]
          exact kept.counted
        · intro waits
          rw [takeBatch, kept.empty waits]
          exact List.drop_nil
  | start =>
      rw [LoopState.next] at step
      split at step
      · rename_i outside
        cases step
        split
        · exact kept
        · exact
            ⟨kept.counted, by simp [Phase.waits], by simp, by simp, by simp, by simp [outside]⟩
      · cases step
  | clear =>
      rw [LoopState.next] at step
      split at step
      · cases step
        split
        · exact ⟨kept.counted, kept.empty, kept.small, by simp, by simp, by simp⟩
        · exact kept
      · cases step
  | notifyAll =>
      rw [LoopState.next] at step
      split at step
      · rename_i notifying
        cases step
        refine ⟨kept.counted, ?_, ?_, by simp, ?_, fun _ => kept.cleared (by simp [notifying])⟩
        · exact fun waits => kept.empty (Phase.waits_of_notified waits)
        · exact fun batch working => kept.small batch (Iff.mp Phase.notified_eq_working working)
        · exact fun runs finished => kept.alive runs (Iff.mp Phase.notified_eq_ended finished)
      · cases step
  | join =>
      rw [LoopState.next] at step
      split at step
      · rename_i ended
        cases step
        exact ⟨kept.counted, kept.empty, kept.small, fun _ _ => ended, kept.alive, by simp⟩
      · cases step
  | wake =>
      rw [LoopState.next] at step
      split at step
      · rename_i asleep
        cases step
        exact kept.move (by simp [asleep]) (by simp) (by simp [Phase.waits]) (by simp)
      · cases step
  | resume timedOut =>
      rw [LoopState.next] at step
      split at step
      · rename_i waking
        cases step
        refine kept.move (by simp [waking]) ?_ ?_ ?_ <;> split <;> simp [Phase.waits]
      · cases step

theorem Kept.run (kept : state.Kept batchSize) {actions : List (LoopAction κ)}
    {after : LoopState κ} (performed : run (LoopState.next batchSize) state actions = some after) :
    after.Kept batchSize :=
  (reachable_of_run performed).invariant (LoopState.Kept batchSize) kept
    fun _ _ _ before _ step => before.next step

theorem kept_of_reachable (reachable : Reachable (next batchSize) initial state) :
    state.Kept batchSize :=
  reachable.invariant (Kept batchSize) kept_initial fun _ _ _ kept _ step => kept.next step

/-- A thread that is not over can take a step. -/
theorem exists_own_step (batchSize : Int) (alive : state.phase ≠ .ended) :
    ∃ action after, LoopAction.own action = true ∧
      (action.wakes = true → state.phase = .asleep) ∧
      LoopState.next batchSize state action = some after := by
  by_cases asleep : state.phase = .asleep
  · exact ⟨.wake, _, rfl, fun _ => asleep, by rw [LoopState.next, asleep]⟩
  by_cases waking : state.phase = .waking
  · exact ⟨.resume true, _, rfl, by simp [LoopAction.wakes], by rw [LoopState.next, waking]⟩
  have moves : ∃ after, state.advance batchSize = some after := by
    rw [LoopState.advance]
    split <;> simp_all
  obtain ⟨after, step⟩ := moves
  exact ⟨.advance, after, rfl, by simp [LoopAction.wakes], step⟩

/-- Nothing that was reported or taken is forgotten. -/
theorem grows {action : LoopAction κ} {after : LoopState κ}
    (step : LoopState.next batchSize state action = some after) :
    state.reported <+: after.reported ∧ state.taken <+: after.taken := by
  have same : state.reported <+: state.reported ∧ state.taken <+: state.taken :=
    ⟨List.prefix_refl _, List.prefix_refl _⟩
  cases action with
  | advance =>
      replace step : state.advance batchSize = some after := step
      rw [LoopState.advance] at step
      split at step <;> cases step
      case h_9 => exact ⟨List.prefix_refl _, List.prefix_append _ _⟩
      all_goals exact same
  | addPendingDeletes casKeys =>
      rw [LoopState.next] at step
      split at step <;> cases step
      exact ⟨List.prefix_append _ _, List.prefix_refl _⟩
  | runOnce =>
      rw [LoopState.next] at step
      split at step <;> cases step
      exact ⟨List.prefix_refl _, List.prefix_append _ _⟩
  | start | clear =>
      rw [LoopState.next] at step
      split at step <;> cases step
      split <;> exact same
  | notifyAll | join | wake | resume timedOut =>
      rw [LoopState.next] at step
      split at step <;> cases step
      exact same

/-- Only `Stop` clears the flag. -/
theorem running_of_next {action : LoopAction κ} {after : LoopState κ} (goes : action ≠ .clear)
    (runs : state.running = true) (step : LoopState.next batchSize state action = some after) :
    after.running = true := by
  cases action with
  | advance =>
      replace step : state.advance batchSize = some after := step
      rw [LoopState.advance] at step
      split at step <;> cases step <;> exact runs
  | clear => exact absurd rfl goes
  | start =>
      rw [LoopState.next, if_pos runs] at step
      split at step <;> cases step
      exact runs
  | addPendingDeletes _ | runOnce | notifyAll | join | wake | resume _ =>
      rw [LoopState.next] at step
      split at step <;> cases step
      exact runs

/-- Only `join` ends a call of `Stop`. -/
theorem owner_of_next {action : LoopAction κ} {after : LoopState κ} (stays : action ≠ .join)
    (inStop : state.owner ≠ .idle) (step : LoopState.next batchSize state action = some after) :
    after.owner ≠ .idle := by
  cases action with
  | advance =>
      replace step : state.advance batchSize = some after := step
      rw [LoopState.advance] at step
      split at step <;> cases step <;> exact inStop
  | join => exact absurd rfl stays
  | start | clear =>
      rw [LoopState.next, if_neg inStop] at step
      cases step
  | notifyAll =>
      rw [LoopState.next] at step
      split at step <;> cases step
      simp
  | addPendingDeletes _ | runOnce | wake | resume _ =>
      rw [LoopState.next] at step
      split at step <;> cases step
      exact inStop

/-! ## How soon a report is taken -/

/-- The steps of the thread up to its next batch, when there is something to take. -/
def toBatch : Phase κ → Nat
  | .ended => 0
  | .taking => 1
  | .leaving => 2
  | .deciding => 3
  | .locking => 4
  | .waking => 4
  | .checking => 5
  | .asleep => 5
  | .blocking => 6
  | .working batch => batch.length + 6

theorem toBatch_notified (phase : Phase κ) : toBatch phase.notified ≤ toBatch phase := by
  cases phase <;> simp [Phase.notified, toBatch]

theorem Kept.toBatch_le (kept : state.Kept batchSize) :
    toBatch state.phase ≤ batchSize.toNat + 6 := by
  cases phase : state.phase with
  | working batch =>
      have small := kept.small batch phase
      rw [toBatch]
      omega
  | _ => simp [toBatch]

/-- The steps of the thread until so many reports are taken: six for each batch and one for each
key at most, and a batch has a key. -/
def toTake (position : Nat) (state : LoopState κ) : Nat :=
  7 * (position - state.taken.length) + toBatch state.phase

/-- The running collector, with at least so many reports. -/
structure Taking (batchSize : Int) (position : Nat) (state : LoopState κ) : Prop where
  kept : state.Kept batchSize
  running : state.running = true
  reported : position ≤ state.reported.length

variable {position : Nat}

theorem Taking.next (taking : state.Taking batchSize position) {action : LoopAction κ}
    {after : LoopState κ} (goes : action ≠ .clear)
    (step : LoopState.next batchSize state action = some after) :
    after.Taking batchSize position where
  kept := taking.kept.next step
  running := running_of_next goes taking.running step
  reported := taking.reported.trans (grows step).1.length_le

theorem Taking.nonempty (taking : state.Taking batchSize position)
    (ahead : state.taken.length < position) : state.pendingDeletes ≠ [] := by
  intro empty
  have whole := congrArg List.length taking.kept.counted
  rw [empty, List.append_nil] at whole
  have reported := taking.reported
  omega

theorem Taking.awake (taking : state.Taking batchSize position)
    (ahead : state.taken.length < position) : state.phase.waits = false := by
  by_contra waits
  exact taking.nonempty ahead (taking.kept.empty (by simpa using waits))

/-- A step of the thread brings it nearer to its next batch, and a batch brings it nearer to the
reports behind. -/
theorem Taking.advance (taking : state.Taking batchSize position) (takes : 0 < batchSize)
    {after : LoopState κ} (step : state.advance batchSize = some after)
    (ahead : after.taken.length < position) :
    toTake position after + 1 ≤ toTake position state := by
  have moved : LoopState.next batchSize state .advance = some after := step
  have before : state.taken.length < position := (grows moved).2.length_le.trans_lt ahead
  have awake := taking.awake before
  have nonempty := taking.nonempty before
  rw [LoopState.advance] at step
  split at step
  case h_9 phase =>
    cases step
    simp only [takeBatch, List.length_append, List.length_take] at ahead
    simp only [toTake, takeBatch, phase, toBatch, List.length_append, List.length_take]
    have some_key := List.length_pos_iff.mpr nonempty
    omega
  all_goals rename_i phase
  all_goals cases step
  all_goals simp_all [toTake, toBatch, Phase.waits, taking.running]

/-- How far the thread is from having taken so many reports. -/
def taking (takes : 0 < batchSize) (position : Nat) :
    Variant (next (κ := κ) batchSize) (· ≠ .clear) (Taking batchSize position)
      (fun state => position ≤ state.taken.length) LoopAction.own where
  measure := toTake position
  keeps _ _ _ taking goes step := taking.next goes step
  stays _ _ _ taken step := taken.trans (grows step).2.length_le
  falls state action after taking goes step := by
    by_cases taken : position ≤ after.taken.length
    · exact .inl taken
    refine .inr ?_
    rw [not_le] at taken
    have before : state.taken.length < position := (grows step).2.length_le.trans_lt taken
    cases action with
    | advance => exact taking.advance takes step taken
    | clear => exact absurd rfl goes
    | start =>
        rw [LoopState.next] at step
        split at step <;> cases step
        simp [taking.running, LoopAction.own]
    | wake =>
        rw [LoopState.next] at step
        split at step <;> cases step
        rename_i asleep
        have awake := taking.awake before
        rw [asleep] at awake
        cases awake
    | resume timedOut =>
        rw [LoopState.next] at step
        split at step <;> cases step
        rename_i waking
        cases timedOut <;> simp [toTake, toBatch, waking, LoopAction.own]
    | addPendingDeletes casKeys =>
        rw [LoopState.next] at step
        split at step <;> cases step
        simp [toTake, toBatch_notified, LoopAction.own]
    | runOnce =>
        rw [LoopState.next] at step
        split at step <;> cases step
        simp only [toTake, takeBatch, List.length_append, LoopAction.own, Bool.toNat_false]
        omega
    | notifyAll =>
        rw [LoopState.next] at step
        split at step <;> cases step
        simp [toTake, toBatch_notified, LoopAction.own]
    | join =>
        rw [LoopState.next] at step
        split at step <;> cases step
        simp [toTake, LoopAction.own]

/-- Reports are put in batches in their order and each once, and none is missed by a thread that
sleeps.  As long as `Stop` is not called, a report with so many before it is taken after a bounded
number of steps of the thread, none of which waits for the time limit. -/
theorem reports_are_taken {source target : LoopState κ} {actions : List (LoopAction κ)}
    (reachable : Reachable (next batchSize) initial source)
    (performed : run (next batchSize) source actions = some target) :
    target.taken ++ target.pendingDeletes = target.reported ∧
      (target.phase = .asleep → target.pendingDeletes = []) ∧
      (0 < batchSize → source.running = true → (∀ action ∈ actions, action ≠ .clear) →
        ∀ position ≤ source.reported.length, position ≤ target.taken.length ∨
          (actions.countP LoopAction.own ≤
              7 * (position - source.taken.length) + batchSize.toNat + 6 ∧
            ∃ action after, LoopAction.own action = true ∧ action.wakes = false ∧
              next batchSize target action = some after)) := by
  have kept := kept_of_reachable reachable
  have keptAfter := kept.run performed
  refine ⟨keptAfter.counted, ?_, ?_⟩
  · intro asleep
    exact keptAfter.empty (by simp [asleep, Phase.waits])
  · intro takes runs goes position reported
    have start : source.Taking batchSize position := ⟨kept, runs, reported⟩
    rcases (taking takes position).countP_le start goes performed with taken | bounded
    · exact .inl taken
    by_cases taken : position ≤ target.taken.length
    · exact .inl taken
    refine .inr ⟨?_, ?_⟩
    · have first : (taking takes position).measure source =
          7 * (position - source.taken.length) + toBatch source.phase := rfl
      have near := kept.toBatch_le
      omega
    · have goal := (taking takes position).keeps_run start goes performed
      have awake := goal.awake (not_le.mp taken)
      obtain ⟨action, after, own, sleeps, step⟩ :=
        exists_own_step batchSize (goal.kept.alive goal.running)
      refine ⟨action, after, own, ?_, step⟩
      by_contra wakes
      rw [sleeps (by simpa using wakes)] at awake
      cases awake

/-- The first of two reports is taken in five steps. -/
theorem reports_are_taken_two : ∃ source target : LoopState Nat,
    Reachable (next 1) initial source ∧
    run (next 1) source (List.replicate 5 .advance) = some target ∧
    target.taken ++ target.pendingDeletes = [7, 8] ∧
    (1 ≤ target.taken.length ∨
      (List.replicate 5 (.advance : LoopAction Nat)).countP LoopAction.own ≤ 7 * 1 + 1 + 6 ∧
        ∃ action after, LoopAction.own action = true ∧ action.wakes = false ∧
          next 1 target action = some after) := by
  let source : LoopState Nat := ⟨true, [7, 8], .checking, .idle, [7, 8], []⟩
  let target : LoopState Nat := ⟨true, [8], .working [7], .idle, [7, 8], [7]⟩
  have reachable : Reachable (next 1) initial source :=
    reachable_of_run
      (rfl : run (next 1) initial [.start, .addPendingDeletes [7, 8]] = some source)
  have performed : run (next 1) source (List.replicate 5 .advance) = some target := rfl
  have taken := reports_are_taken reachable performed
  refine ⟨source, target, reachable, performed, taken.1, ?_⟩
  exact taken.2.2 (by decide) rfl (fun _ member => by simp [List.eq_of_mem_replicate member]) 1
    (by decide)

/-! ## How soon a call of `Stop` returns -/

/-- The steps of the thread up to its end, when the flag is clear. -/
def toEnd (batchSize : Int) : Phase κ → Nat
  | .ended => 0
  | .checking => 1
  | .leaving => 1
  | .deciding => 2
  | .waking => 3
  | .locking => 3
  | .asleep => 4
  | .blocking => 5
  | .working batch => batch.length + 2
  | .taking => batchSize.toNat + 3

theorem toEnd_notified (phase : Phase κ) :
    toEnd batchSize phase.notified ≤ toEnd batchSize phase := by
  cases phase <;> simp [Phase.notified, toEnd]

theorem Kept.toEnd_le (kept : state.Kept batchSize) :
    toEnd batchSize state.phase ≤ batchSize.toNat + 5 := by
  cases phase : state.phase with
  | working batch =>
      have small := kept.small batch phase
      rw [toEnd]
      omega
  | _ => simp [toEnd]

/-- The collector in a call of `Stop` that has cleared the flag. -/
structure Stopping (batchSize : Int) (state : LoopState κ) : Prop where
  kept : state.Kept batchSize
  inStop : state.owner ≠ .idle

theorem Stopping.next (stopping : state.Stopping batchSize) {action : LoopAction κ}
    {after : LoopState κ} (stays : action ≠ .join)
    (step : LoopState.next batchSize state action = some after) : after.Stopping batchSize where
  kept := stopping.kept.next step
  inStop := owner_of_next stays stopping.inStop step

theorem Stopping.clear (stopping : state.Stopping batchSize) : state.running = false :=
  stopping.kept.cleared stopping.inStop

/-- How far the thread is from its end. -/
def ending (batchSize : Int) :
    Variant (next (κ := κ) batchSize) (· ≠ .join) (Stopping batchSize) (fun _ => False)
      LoopAction.own where
  measure state := toEnd batchSize state.phase
  keeps _ _ _ stopping stays step := stopping.next stays step
  stays _ _ _ never _ := never
  falls state action after stopping stays step := by
    refine .inr ?_
    have clear := stopping.clear
    cases action with
    | advance =>
        replace step : state.advance batchSize = some after := step
        rw [LoopState.advance] at step
        split at step <;> cases step <;> simp_all [toEnd, LoopAction.own]
    | start | clear =>
        rw [LoopState.next, if_neg stopping.inStop] at step
        cases step
    | join => exact absurd rfl stays
    | resume timedOut =>
        rw [LoopState.next] at step
        split at step <;> cases step
        rename_i waking
        cases timedOut <;> simp [toEnd, waking, LoopAction.own]
    | wake =>
        rw [LoopState.next] at step
        split at step <;> cases step
        rename_i asleep
        simp [toEnd, asleep, LoopAction.own]
    | addPendingDeletes _ | notifyAll =>
        rw [LoopState.next] at step
        split at step <;> cases step
        exact toEnd_notified state.phase
    | runOnce =>
        rw [LoopState.next] at step
        split at step <;> cases step
        exact le_rfl

/-- Whether the thread may still sleep until its time is over. -/
def sleeping (batchSize : Int) :
    Variant (next (κ := κ) batchSize) (· ≠ .join) (Stopping batchSize) (fun _ => False)
      LoopAction.wakes where
  measure state := state.phase.waits.toNat
  keeps _ _ _ stopping stays step := stopping.next stays step
  stays _ _ _ never _ := never
  falls state action after stopping stays step := by
    refine .inr ?_
    have clear := stopping.clear
    have notified : state.phase.notified.waits.toNat ≤ state.phase.waits.toNat := by
      cases state.phase <;> simp [Phase.notified, Phase.waits]
    cases action with
    | advance =>
        replace step : state.advance batchSize = some after := step
        rw [LoopState.advance] at step
        split at step <;> cases step <;> simp_all [Phase.waits, LoopAction.wakes]
    | start | clear =>
        rw [LoopState.next, if_neg stopping.inStop] at step
        cases step
    | join => exact absurd rfl stays
    | resume timedOut =>
        rw [LoopState.next] at step
        split at step <;> cases step
        cases timedOut <;> simp [Phase.waits, LoopAction.wakes]
    | wake =>
        rw [LoopState.next] at step
        split at step <;> cases step
        rename_i asleep
        simp [Phase.waits, asleep, LoopAction.wakes]
    | addPendingDeletes _ | notifyAll =>
        rw [LoopState.next] at step
        split at step <;> cases step
        exact notified
    | runOnce =>
        rw [LoopState.next] at step
        split at step <;> cases step
        exact le_rfl

/-- Once a call of `Stop` has cleared the flag, the thread is over after a bounded number of its
steps, among them at most one sleep until the time limit, and none if it was not about to sleep.
Until then it can take a step, and after that `Stop` can return, with no thread left. -/
theorem stop_returns {source target : LoopState κ} {actions : List (LoopAction κ)}
    (reachable : Reachable (next batchSize) initial source) (inStop : source.owner ≠ .idle)
    (stays : ∀ action ∈ actions, action ≠ .join)
    (performed : run (next batchSize) source actions = some target) :
    actions.countP LoopAction.own ≤ batchSize.toNat + 5 ∧
      actions.countP LoopAction.wakes ≤ source.phase.waits.toNat ∧
      (target.phase ≠ .ended → ∃ action after, LoopAction.own action = true ∧
        next batchSize target action = some after) ∧
      (target.phase = .ended → target.owner = .joining →
        next batchSize target .join = some { target with owner := .idle }) := by
  have kept := kept_of_reachable reachable
  have start : source.Stopping batchSize := ⟨kept, inStop⟩
  refine ⟨?_, ?_, ?_, ?_⟩
  · rcases (ending batchSize).countP_le start stays performed with never | bounded
    · exact never.elim
    have first : (ending batchSize).measure source = toEnd batchSize source.phase := rfl
    have near := kept.toEnd_le
    omega
  · rcases (sleeping batchSize).countP_le start stays performed with never | bounded
    · exact never.elim
    exact (Nat.le_add_right _ _).trans bounded
  · intro alive
    obtain ⟨action, after, own, -, step⟩ := exists_own_step batchSize alive
    exact ⟨action, after, own, step⟩
  · intro finished joining
    rw [LoopState.next, joining, finished]

/-- `Stop` comes between the look at the flag and the sleep. -/
theorem stop_returns_late : ∃ source target : LoopState Nat,
    Reachable (next 1) initial source ∧
    run (next 1) source [.notifyAll, .advance, .wake, .resume true, .advance] = some target ∧
    4 ≤ 1 + 5 ∧ 1 ≤ source.phase.waits.toNat ∧
    next 1 target .join = some { target with owner := .idle } := by
  let source : LoopState Nat := ⟨false, [], .blocking, .notifying, [], []⟩
  let target : LoopState Nat := ⟨false, [], .ended, .joining, [], []⟩
  have reachable : Reachable (next 1) initial source :=
    reachable_of_run
      (rfl : run (next 1) initial [.start, .advance, .advance, .advance, .clear] = some source)
  have performed : run (next 1) source
      [.notifyAll, .advance, .wake, .resume true, .advance] = some target := rfl
  have returns := stop_returns reachable (by decide) (by simp) performed
  exact ⟨source, target, reachable, performed, returns.1, returns.2.1, returns.2.2.2 rfl rfl⟩

/-- The notification of `Stop` is lost on a thread that sleeps only afterwards. -/
example : (run (next 1) (initial : LoopState Unit)
    [.start, .advance, .advance, .advance, .clear, .notifyAll, .advance]).map
      (fun state => (state.phase, state.owner)) = some (.asleep, .joining) := by
  decide

end LoopState

end MiniS3.GarbageCollector
