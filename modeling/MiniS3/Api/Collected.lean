import MiniS3.Api.Garbage
import MiniS3.Storage.GcDrain

/-!
# No garbage is forgotten

Handlers and batches are executed one after the other, each as a whole, and no statement and no
operation on files fails.  Between two of them the tables are sound and each blob without
references is in the queue: a handler reports what it frees, and a batch takes from the queue only
what it clears away or what has a count again.  Once batches have emptied the queue, no blob
without references is left.
-/

namespace MiniS3.Api

open Lib Db Net Transition DataStore GarbageCollector

/-- What holds of the world between two executions. -/
structure Tended (world : World) : Prop where
  sound : Sound world.tables
  covered : Covered none world

/-- In sound tables a blob with the count 0 is not referred to. -/
theorem Sound.unreferenced {tables : Tables} (sound : Sound tables) : Unreferenced tables := by
  intro casKey row stored zero
  have counted := sound.exact.counted casKey
  simp only [references, Scope.all, if_true] at counted
  rw [Tables.refCount, stored, Option.elim_some, zero] at counted
  rw [Tables.reclaimable, decide_eq_true_eq]
  refine ⟨by rw [stored, Option.map_some, zero], ?_, ?_⟩ <;> omega

section Steps

variable {setup : Setup} {process : Nat} {world after : World} {choices : List Choice}

/-- A batch takes from the queue only what it settles. -/
theorem covered_of_drains (drains : Drains setup world after) (covered : Covered none world) :
    Covered none after := by
  intro casKey row stored zero
  left
  rcases drains.cleared.rows casKey with same | ⟨noRow, -⟩
  · have before := stored
    rw [same] at before
    rcases covered casKey row before zero with queued | ⟨⟨⟩⟩
    rw [← List.take_append_drop setup.gcBatchSize.toNat world.pendingDeletes] at queued
    rcases List.mem_append.mp queued with taken | left
    · exact absurd zero (drains.settled casKey taken row stored)
    · rw [drains.queue]
      exact left
  · rw [noRow] at stored
    cases stored

/-- Everything in the list turns out without a failure. -/
abbrev AllUntroubled (choices : List Choice) : Prop :=
  ∀ choice ∈ choices, choice.untroubled = true

theorem drains_of_executed (sound : Sound world.tables) (untroubled : AllUntroubled choices)
    (step : executed setup process (processBatch setup) choices world = some after) :
    Drains setup world after := by
  have leads : LeadsUntroubled setup process (fun _ after => Drains setup world after)
      (processBatch setup) world := untroubled_processBatch sound.unreferenced
  have ensures : Program.Ensures (answer setup process) (fun choice => choice.untroubled = true)
      (fun _ after => Drains setup world after) (processBatch setup) world :=
    leads.of_restrict fun _ _ isUntroubled => isUntroubled
  rcases Option.map_eq_some_iff.mp step with ⟨⟨value, reached⟩, performed, rfl⟩
  exact ensures.of_execute untroubled performed

theorem covered_of_executed {α : Type} {program : ServerM α} (fullIndex : setup.indexed = id)
    (reports : Reports none program) (covered : Covered none world)
    (untroubled : AllUntroubled choices)
    (step : executed setup process program choices world = some after) : Covered none after := by
  rcases Option.map_eq_some_iff.mp step with ⟨⟨value, reached⟩, performed, rfl⟩
  apply (ensures_of_reports fullIndex reports covered).of_execute _ performed
  exact fun choice member => Choice.faultless (untroubled choice member)

/-- Every execution leaves the world tended. -/
theorem tended_nextExecution (fullIndex : setup.indexed = id) (enabled : setup.gcEnabled = true)
    {execution : Execution} (tended : Tended world) (untroubled : AllUntroubled choices)
    (step : nextExecution setup process world (execution, choices) = some after) :
    Tended after := by
  constructor
  · apply sound_nextExecution fullIndex tended.sound _ step
    exact fun choice member => Choice.faultless (untroubled choice member)
  · cases execution with
    | putObject request =>
        exact covered_of_executed fullIndex (reports_putObject enabled request) tended.covered
          untroubled step
    | deleteObject request =>
        exact covered_of_executed fullIndex (reports_deleteObject enabled request) tended.covered
          untroubled step
    | initUpload request =>
        exact covered_of_executed fullIndex (reports_initUpload request) tended.covered untroubled
          step
    | uploadPart request =>
        exact covered_of_executed fullIndex (reports_uploadPart enabled request) tended.covered
          untroubled step
    | completeUpload request =>
        exact covered_of_executed fullIndex (reports_completeUpload enabled request)
          tended.covered untroubled step
    | abortUpload request =>
        exact covered_of_executed fullIndex (reports_abortUpload enabled request) tended.covered
          untroubled step
    | processBatch =>
        exact covered_of_drains (drains_of_executed tended.sound untroubled step) tended.covered

end Steps

/-! ## Emptying the queue -/

section Draining

variable (setup : Setup) (process : Nat)

/-- Batches, one after the other. -/
def runBatches (batches : List (List Choice)) (world : World) : Option World :=
  run (nextExecution setup process) world (batches.map fun choices => (.processBatch, choices))

variable {setup process}

theorem runBatches_cons {choices : List Choice} {batches : List (List Choice)} {world : World} :
    runBatches setup process (choices :: batches) world =
      (executed setup process (processBatch setup) choices world).bind
        fun middle => runBatches setup process batches middle :=
  rfl

/-- Each batch takes its share of the queue. -/
theorem drained_of_runBatches (fullIndex : setup.indexed = id) (enabled : setup.gcEnabled = true)
    {batches : List (List Choice)} {world final : World} (tended : Tended world)
    (untroubled : ∀ choices ∈ batches, AllUntroubled choices)
    (ran : runBatches setup process batches world = some final) :
    Tended final ∧ Cleared setup world final ∧
      final.pendingDeletes =
        world.pendingDeletes.drop (batches.length * setup.gcBatchSize.toNat) := by
  induction batches generalizing world with
  | nil =>
      cases ran
      exact ⟨tended, Cleared.refl setup final, by simp⟩
  | cons choices batches inductionHypothesis =>
      rw [List.forall_mem_cons] at untroubled
      rw [runBatches_cons, Option.bind_eq_some_iff] at ran
      rcases ran with ⟨middle, step, rest⟩
      have drains := drains_of_executed tended.sound untroubled.1 step
      have next : nextExecution setup process world (.processBatch, choices) = some middle := step
      have tendedAfter := tended_nextExecution fullIndex enabled tended untroubled.1 next
      rcases inductionHypothesis tendedAfter untroubled.2 rest with ⟨last, cleared, queue⟩
      refine ⟨last, drains.cleared.trans cleared, ?_⟩
      rw [queue, drains.queue, List.drop_drop, List.length_cons, Nat.succ_mul, Nat.add_comm]

/-- Any number of batches can be run. -/
theorem exists_runBatches (count : Nat) (world : World) :
    ∃ batches final, batches.length = count ∧ (∀ choices ∈ batches, AllUntroubled choices) ∧
      runBatches setup process batches world = some final := by
  induction count generalizing world with
  | zero => exact ⟨[], world, rfl, by simp, rfl⟩
  | succ count inductionHypothesis =>
      rcases (@canRun_processBatch setup process world).execute with
        ⟨choices, value, middle, untroubled, performed⟩
      rcases inductionHypothesis middle with ⟨batches, final, length, others, ran⟩
      refine ⟨choices :: batches, final, by rw [List.length_cons, length], ?_, ?_⟩
      · exact List.forall_mem_cons.mpr ⟨untroubled, others⟩
      · rw [runBatches_cons, executed, performed]
        exact ran

end Draining

/-- What emptying the queue leads to: no blob without references has a row, and a blob whose row
has gone has no file. -/
structure Collected (setup : Setup) (before after : World) : Prop where
  counted : ∀ casKey row, after.tables.casBlobs.lookup casKey = some row → row.refCount ≠ 0
  noFile : ∀ casKey, before.tables.casBlobs.lookup casKey ≠ none →
    after.tables.casBlobs.lookup casKey = none →
    after.files.lookup (setup.getCasPath casKey) = none

theorem collected_of_cleared {setup : Setup} {before after : World} (tended : Tended after)
    (cleared : Cleared setup before after) (empty : after.pendingDeletes = []) :
    Collected setup before after := by
  constructor
  · intro casKey row stored zero
    rcases tended.covered casKey row stored zero with queued | ⟨⟨⟩⟩
    rw [empty] at queued
    cases queued
  · intro casKey wasStored removed
    rcases cleared.rows casKey with same | ⟨-, noFile⟩
    · rw [removed] at same
      exact absurd same.symm wasStored
    · exact noFile

/-- Between any two executions of a run in which nothing fails, each blob without references is
in the queue.  Batches can be run until the queue is empty, and then no such blob is left. -/
theorem no_garbage_is_forgotten (setup : Setup) (process : Nat) (fullIndex : setup.indexed = id)
    (enabled : setup.gcEnabled = true) (someBatch : 1 ≤ setup.gcBatchSize)
    {source target : World} (onlyBuckets : OnlyBuckets source.tables)
    (reachable : ReachableUnder (nextExecution setup process)
      (fun _ action => AllUntroubled action.2) source target) :
    (∀ casKey row, target.tables.casBlobs.lookup casKey = some row → row.refCount = 0 →
      casKey ∈ target.pendingDeletes) ∧
    (∃ batches final, (∀ choices ∈ batches, AllUntroubled choices) ∧
      runBatches setup process batches target = some final ∧ final.pendingDeletes = []) ∧
    ∀ batches final, (∀ choices ∈ batches, AllUntroubled choices) →
      runBatches setup process batches target = some final →
      (target.pendingDeletes.length ≤ batches.length → final.pendingDeletes = []) ∧
        (final.pendingDeletes = [] → Collected setup target final) := by
  have initial : Tended source := by
    refine ⟨onlyBuckets.sound, ?_⟩
    intro casKey row stored
    simp [onlyBuckets.1] at stored
  have tended : Tended target := by
    apply reachable.invariant Tended initial
    rintro world ⟨execution, choices⟩ after before untroubled step
    exact tended_nextExecution fullIndex enabled before untroubled step
  have someTaken : 1 ≤ setup.gcBatchSize.toNat := by omega
  have enough : ∀ batches final, (∀ choices ∈ batches, AllUntroubled choices) →
      runBatches setup process batches target = some final →
      target.pendingDeletes.length ≤ batches.length → final.pendingDeletes = [] := by
    intro batches final untroubled ran long
    rcases drained_of_runBatches fullIndex enabled tended untroubled ran with ⟨-, -, queue⟩
    rw [queue]
    apply List.drop_of_length_le
    exact long.trans (Nat.le_mul_of_pos_right _ someTaken)
  refine ⟨?_, ?_, ?_⟩
  · intro casKey row stored zero
    rcases tended.covered casKey row stored zero with queued | ⟨⟨⟩⟩
    exact queued
  · rcases exists_runBatches target.pendingDeletes.length target with
      ⟨batches, final, length, untroubled, ran⟩
    exact ⟨batches, final, untroubled, ran, enough batches final untroubled ran (Nat.le_of_eq length.symm)⟩
  · intro batches final untroubled ran
    rcases drained_of_runBatches fullIndex enabled tended untroubled ran with
      ⟨last, cleared, -⟩
    exact ⟨enough batches final untroubled ran, collected_of_cleared last cleared⟩

/-! ## An object that is written and deleted -/

/-- The batch that collects its blob. -/
def byteBatch : List Choice :=
  [.done, .sql [] ⟨0, 0⟩, .uuid sampleUuid, .done, .done, .sql [] ⟨0, 0⟩, .done,
    .sql [] ⟨0, 0⟩, .sql [] ⟨0, 0⟩]

/-- The choices of an execution, checked. -/
def noTrouble (_ : World) (action : Execution × List Choice) : Bool :=
  action.2.all Choice.untroubled

theorem no_garbage_is_forgotten_sample :
    ∃ target final, runBatches sampleSetup 0 [byteBatch] target = some final ∧
      target.pendingDeletes = [sampleSetup.sha256Hex (ascii "a")] ∧ final.pendingDeletes = [] ∧
      Collected sampleSetup target final := by
  have onlyBuckets : OnlyBuckets bucketOnly.tables := ⟨rfl, rfl, rfl, rfl, rfl⟩
  have performed : (run (fun state action =>
      if noTrouble state action then nextExecution sampleSetup 0 state action else none)
        bucketOnly byteExecutions).any (fun target =>
          decide (target.pendingDeletes = [sampleSetup.sha256Hex (ascii "a")]) &&
            (runBatches sampleSetup 0 [byteBatch] target).any
              fun final => final.pendingDeletes.isEmpty) = true := by
    decide +kernel
  rcases exists_reachableUnder_of_run noTrouble
    (fun _ _ checked => List.all_eq_true.mp checked) _ performed with ⟨target, reachable, ran⟩
  rw [Bool.and_eq_true, decide_eq_true_eq, Option.any_eq_true] at ran
  rcases ran with ⟨queued, final, ran, empty⟩
  have untroubled : ∀ choices ∈ [byteBatch], AllUntroubled choices := by decide
  have collects := (no_garbage_is_forgotten sampleSetup 0 rfl rfl (by decide) onlyBuckets
    reachable).2.2 [byteBatch] final untroubled ran
  have noneLeft := List.isEmpty_iff.mp empty
  exact ⟨target, final, ran, queued, noneLeft, collects.2 noneLeft⟩

end MiniS3.Api
