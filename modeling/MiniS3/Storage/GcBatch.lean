import MiniS3.Storage.Merging
import MiniS3.Storage.Gc

/-!
# What a batch of the collector deletes

A blob is garbage when its row has the count 0 and nothing refers to it.  A batch touches the
files and the rows of such blobs only, whatever fails, and it removes a row only when the file of
the blob is no longer there.  Every step of a batch keeps what `Cleaning` says about the world in
which the batch was started; a blob that occurs twice is checked again, and is no garbage any more
once its row is gone.
-/

namespace MiniS3.GarbageCollector

open Lib Db

/-- The row of the blob has the count 0, and no object and no part refers to the blob. -/
structure Garbage (tables : Tables) (casKey : Bytes) : Prop where
  uncounted : ∃ row, tables.casBlobs.lookup casKey = some row ∧ row.refCount = 0
  noObject : ∀ entry row, tables.objects.lookup entry = some row → row.casKey ≠ casKey
  noPart : ∀ entry row, tables.multipartParts.lookup entry = some row → row.casKey ≠ casKey

theorem Garbage.of_reclaimable {tables : Tables} {casKey : Bytes}
    (reclaimable : tables.reclaimable casKey = true) : Garbage tables casKey := by
  simp only [Tables.reclaimable, decide_eq_true_eq] at reclaimable
  obtain ⟨zero, objects, parts⟩ := reclaimable
  obtain ⟨row, stored, uncounted⟩ := Option.map_eq_some_iff.mp zero
  constructor
  · exact ⟨row, stored, uncounted⟩
  · intro entry object found refers
    exact absurd objects (Nat.ne_of_gt (Table.count_pos_of_lookup found (by simpa using refers)))
  · intro entry part found refers
    exact absurd parts (Nat.ne_of_gt (Table.count_pos_of_lookup found (by simpa using refers)))

section

variable (setup : Setup)

/-- What the batch may have done to the world it was started in. -/
structure Cleaning (before now : World) : Prop where
  objects : now.tables.objects = before.tables.objects
  parts : now.tables.multipartParts = before.tables.multipartParts
  rows : ∀ casKey, now.tables.casBlobs.lookup casKey = before.tables.casBlobs.lookup casKey ∨
    now.tables.casBlobs.lookup casKey = none ∧ Garbage before.tables casKey ∧
      casKey.length = 64 ∧ now.files.lookup (setup.getCasPath casKey) = none
  files : ∀ casKey, casKey.length = 64 → ¬Garbage before.tables casKey →
    now.files.lookup (setup.getCasPath casKey) = before.files.lookup (setup.getCasPath casKey)
  queue : now.pendingDeletes = before.pendingDeletes

end

section Steps

variable {setup : Setup} {process : Nat} {allowed : IoOp → Choice → Bool} {α : Type}
variable {post : α → World → Prop} {before world : World} {casKey : Bytes}

theorem Cleaning.refl (setup : Setup) (world : World) : Cleaning setup world world :=
  ⟨rfl, rfl, fun _ => .inl rfl, fun _ _ _ => rfl, rfl⟩

/-- What is garbage during the batch was garbage when it was started. -/
theorem Cleaning.garbage (cleaning : Cleaning setup before world)
    (garbage : Garbage world.tables casKey) : Garbage before.tables casKey := by
  obtain ⟨⟨row, stored, uncounted⟩, noObject, noPart⟩ := garbage
  rw [cleaning.objects] at noObject
  rw [cleaning.parts] at noPart
  rcases cleaning.rows casKey with same | ⟨-, wasGarbage, -⟩
  · rw [same] at stored
    exact ⟨⟨row, stored, uncounted⟩, noObject, noPart⟩
  · exact wasGarbage

/-- A step that changes no row, and no file of a blob but that of a blob that is garbage. -/
theorem Cleaning.of_files {after : World} (cleaning : Cleaning setup before world)
    (length : casKey.length = 64) (garbage : Garbage world.tables casKey)
    (sameTables : after.tables = world.tables) (sameQueue : after.pendingDeletes = world.pendingDeletes)
    (sameFiles : ∀ other, setup.getCasPath other ≠ setup.getCasPath casKey →
      after.files.lookup (setup.getCasPath other) = world.files.lookup (setup.getCasPath other)) :
    Cleaning setup before after := by
  have apart : ∀ other, other.length = 64 → other ≠ casKey →
      setup.getCasPath other ≠ setup.getCasPath casKey := fun other otherLength different same =>
    different (setup.getCasPath_injective otherLength length same)
  constructor
  · rw [sameTables, cleaning.objects]
  · rw [sameTables, cleaning.parts]
  · intro other
    rw [sameTables]
    rcases cleaning.rows other with same | ⟨removed, wasGarbage, otherLength, noFile⟩
    · exact .inl same
    · refine .inr ⟨removed, wasGarbage, otherLength, ?_⟩
      rw [sameFiles other (apart other otherLength ?_), noFile]
      rintro rfl
      obtain ⟨row, stored, -⟩ := garbage.uncounted
      rw [removed] at stored
      contradiction
  · intro other otherLength notGarbage
    have different : other ≠ casKey := by
      rintro rfl
      exact notGarbage (cleaning.garbage garbage)
    rw [sameFiles other (apart other otherLength different)]
    exact cleaning.files other otherLength notGarbage
  · rw [sameQueue, cleaning.queue]

/-- Setting the file of a blob aside, and putting it back, touches no file of another blob. -/
theorem lookup_moveFile_blob {source target : Bytes} {other : Bytes}
    (notSource : setup.getCasPath other ≠ source) (notTarget : setup.getCasPath other ≠ target) :
    (world.moveFile source target).files.lookup (setup.getCasPath other) =
      world.files.lookup (setup.getCasPath other) := by
  cases present : world.files.lookup source with
  | none => simp [World.moveFile, present]
  | some content =>
      rw [World.lookup_moveFile present, if_neg notTarget, if_neg notSource]

theorem pendingDeletes_moveFile (source target : Bytes) (world : World) :
    (world.moveFile source target).pendingDeletes = world.pendingDeletes := by
  unfold World.moveFile
  split <;> rfl

/-- The row of a garbage blob is removed once its file is gone. -/
theorem Cleaning.removeRow (cleaning : Cleaning setup before world) (length : casKey.length = 64)
    (garbage : Garbage world.tables casKey)
    (noFile : world.files.lookup (setup.getCasPath casKey) = none) :
    Cleaning setup before { world with tables := world.tables.apply (.casBlob casKey none) } := by
  constructor
  · exact cleaning.objects
  · exact cleaning.parts
  · intro other
    by_cases isKey : other = casKey
    · subst isKey
      exact .inr ⟨lookup_put_self _ _ _, cleaning.garbage garbage, length, noFile⟩
    · have same : (world.tables.apply (.casBlob casKey none)).casBlobs.lookup other =
          world.tables.casBlobs.lookup other := lookup_put_ne _ _ isKey
      rcases cleaning.rows other with unchanged | ⟨removed, rest⟩
      · exact .inl (same.trans unchanged)
      · exact .inr ⟨same.trans removed, rest⟩
  · exact cleaning.files
  · exact cleaning.queue

/-! ## The calls of the metadata store -/

/-- A call of the metadata store, by its effect. -/
theorem leads_metaStore {call : MetaCall} {next : call.Ans → ServerM α}
    (continues : ∀ answered tables caches,
      call.Effect setup.indexed True world.tables world.caches answered tables caches →
      Leads setup process allowed post (next answered) { world with tables, caches }) :
    Leads setup process allowed post (.call (.metaStore call) next) world := by
  refine leads_call fun choice answered after _ step => ?_
  obtain ⟨faults, clock, -, same, effect⟩ := answer_metaStore step
  rw [same]
  exact continues answered _ _ (effect True (.inl trivial))

/-- The check answers what is so, unless it fails, and changes nothing. -/
theorem leads_canDeleteCasBlob {next : Result Bool → ServerM α}
    (checked : ∀ reclaimable, (reclaimable = true → Garbage world.tables casKey) →
      Leads setup process allowed post (next (.ok reclaimable)) world)
    (failed : ∀ status, Leads setup process allowed post (next (.error status)) world) :
    Leads setup process allowed post (.call (.metaStore (.canDeleteCasBlob casKey)) next)
      world := by
  refine leads_metaStore fun answered tables caches effect => ?_
  obtain ⟨rfl, rfl, ⟨-, message, rfl⟩ | rfl⟩ := effect
  · exact failed _
  · exact checked _ Garbage.of_reclaimable

theorem leads_deleteCasBlob {next : Result Unit → ServerM α}
    (deleted : Leads setup process allowed post (next (.ok ()))
      { world with tables := world.tables.apply (.casBlob casKey none) })
    (failed : ∀ status, Leads setup process allowed post (next (.error status)) world) :
    Leads setup process allowed post (.call (.metaStore (.deleteCasBlob casKey)) next) world := by
  refine leads_metaStore fun answered tables caches effect => ?_
  obtain ⟨rfl, effect⟩ := effect
  cases answered with
  | error status =>
      obtain rfl : tables = world.tables := effect
      exact failed status
  | ok =>
      obtain ⟨-, -, rfl⟩ := effect
      exact deleted

/-! ## One blob of a batch -/

variable {rest : ServerM Unit} {goal : Unit → World → Prop}

/-- The callback removes the row of a blob that is still garbage, and whose file is gone. -/
theorem leads_deleteCallback (cleaning : Cleaning setup before world) (length : casKey.length = 64)
    {success : Bool}
    (noFile : success = true → world.files.lookup (setup.getCasPath casKey) = none)
    (continues : ∀ after, Cleaning setup before after →
      Leads setup process allowed goal rest after) :
    Leads setup process allowed goal (deleteCallback casKey success rest) world := by
  unfold deleteCallback
  cases success with
  | false => exact continues world cleaning
  | true =>
      apply leads_canDeleteCasBlob
      · intro reclaimable isGarbage
        cases reclaimable with
        | false => exact continues world cleaning
        | true =>
            apply leads_deleteCasBlob
            · exact continues _ (cleaning.removeRow length (isGarbage rfl) (noFile rfl))
            · exact fun _ => continues world cleaning
      · exact fun _ => continues world cleaning

/-- The file was not there. -/
theorem leads_recheck_absent {uuid : Bytes} (cleaning : Cleaning setup before world)
    (length : casKey.length = 64)
    (noFile : world.files.lookup (setup.getCasPath casKey) = none)
    (continues : ∀ after, Cleaning setup before after →
      Leads setup process allowed goal rest after) :
    Leads setup process allowed goal (recheck setup casKey uuid false rest) world := by
  unfold recheck
  apply leads_canDeleteCasBlob
  · intro reclaimable isGarbage
    cases reclaimable with
    | false => exact continues world cleaning
    | true =>
        have removes : Leads setup process allowed goal (deleteCallback casKey true rest) world :=
          leads_deleteCallback cleaning length (fun _ => noFile) continues
        exact removes
  · exact fun _ => continues world cleaning

/-- The file was set aside: it is put back, or removed and then the row. -/
theorem leads_recheck_renamed {uuid : Bytes} (valid : isUuid uuid = true)
    (cleaning : Cleaning setup before world) (length : casKey.length = 64)
    (garbage : Garbage world.tables casKey)
    (noFile : world.files.lookup (setup.getCasPath casKey) = none)
    (continues : ∀ after, Cleaning setup before after →
      Leads setup process allowed goal rest after) :
    Leads setup process allowed goal (recheck setup casKey uuid true rest) world := by
  have aside : ∀ other, setup.getCasPath other ≠ setup.quarantinePath casKey uuid :=
    fun other => (setup.quarantinePath_ne_getCasPath valid).symm
  have restored : Cleaning setup before
      (world.moveFile (setup.quarantinePath casKey uuid) (setup.getCasPath casKey)) := by
    apply cleaning.of_files length garbage (World.tables_moveFile _ _ _)
      (pendingDeletes_moveFile _ _ _)
    intro other different
    exact lookup_moveFile_blob (aside other) different
  have restoring : Leads setup process allowed goal
      (.call (.atomicRename (setup.quarantinePath casKey uuid) (setup.getCasPath casKey))
        fun _ => rest) world := by
    apply leads_atomicRename
    · exact fun _ _ => continues _ restored
    · exact fun _ _ => continues world cleaning
  have dropped : Cleaning setup before (world.dropFile (setup.quarantinePath casKey uuid)) := by
    apply cleaning.of_files length garbage (World.tables_dropFile _ _) rfl
    intro other _
    exact world.elsewhere_dropFile _ _ (aside other)
  unfold recheck
  apply leads_canDeleteCasBlob
  · intro reclaimable isGarbage
    cases reclaimable with
    | false => exact restoring
    | true =>
        apply leads_removeFile
        · apply leads_deleteCallback dropped length _ continues
          intro _
          rw [world.elsewhere_dropFile _ _ (aside casKey), noFile]
        · intro text _
          apply leads_deleteCallback cleaning length _ continues
          rintro ⟨⟩
  · exact fun _ => restoring

theorem leads_quarantine (cleaning : Cleaning setup before world) (length : casKey.length = 64)
    (garbage : Garbage world.tables casKey)
    (continues : ∀ after, Cleaning setup before after →
      Leads setup process allowed goal rest after) :
    Leads setup process allowed goal (quarantine setup casKey rest) world := by
  unfold quarantine
  refine leads_generateUuid fun uuid valid => leads_fileExists ?_
  have aside : ∀ other, setup.getCasPath other ≠ setup.quarantinePath casKey uuid :=
    fun other => (setup.quarantinePath_ne_getCasPath valid).symm
  cases present : world.files.lookup (setup.getCasPath casKey) with
  | none => exact leads_recheck_absent cleaning length present continues
  | some content =>
      apply leads_atomicRename
      · intro moved isMoved
        have setAside : Cleaning setup before (world.moveFile (setup.getCasPath casKey)
            (setup.quarantinePath casKey uuid)) := by
          apply cleaning.of_files length garbage (World.tables_moveFile _ _ _)
            (pendingDeletes_moveFile _ _ _)
          intro other different
          exact lookup_moveFile_blob different (aside other)
        apply leads_recheck_renamed valid setAside length _ _ continues
        · rwa [World.tables_moveFile]
        · rw [World.lookup_moveFile isMoved, if_neg (aside casKey), if_pos rfl]
      · exact fun _ _ => continues world cleaning

end Steps

/-! ## Whole batches -/

section Batch

variable {setup : Setup} {process : Nat} {allowed : IoOp → Choice → Bool}

/-- The induction is on the blobs that are left; what the batch has done to the world it was
started in is `Cleaning` before each. -/
theorem leads_processKeys {before world : World} {casKeys : List Bytes}
    (lengths : ∀ casKey ∈ casKeys, casKey.length = 64) (cleaning : Cleaning setup before world) :
    Leads setup process allowed (fun _ after => Cleaning setup before after)
      (processKeys setup casKeys) world := by
  induction casKeys generalizing world with
  | nil => exact cleaning
  | cons casKey casKeys inductionHypothesis =>
      rw [List.forall_mem_cons] at lengths
      have continues : ∀ after, Cleaning setup before after →
          Leads setup process allowed (fun _ after => Cleaning setup before after)
            (processKeys setup casKeys) after := fun _ => inductionHypothesis lengths.2
      apply leads_canDeleteCasBlob
      · intro reclaimable isGarbage
        cases reclaimable with
        | false => exact continues world cleaning
        | true => exact leads_quarantine cleaning lengths.1 (isGarbage rfl) continues
      · exact fun _ => continues world cleaning

/-- What a batch leads to. -/
structure DeletesGarbage (setup : Setup) (before after : World) : Prop where
  files : ∀ casKey, casKey.length = 64 → ¬Garbage before.tables casKey →
    after.files.lookup (setup.getCasPath casKey) = before.files.lookup (setup.getCasPath casKey)
  objects : after.tables.objects = before.tables.objects
  parts : after.tables.multipartParts = before.tables.multipartParts
  rows : ∀ casKey, before.tables.casBlobs.lookup casKey ≠ none →
    after.tables.casBlobs.lookup casKey = none →
    Garbage before.tables casKey ∧ after.files.lookup (setup.getCasPath casKey) = none
  queue : after.pendingDeletes = before.pendingDeletes.drop setup.gcBatchSize.toNat

theorem leads_processBatch {world : World}
    (lengths : ∀ casKey ∈ world.pendingDeletes, casKey.length = 64) :
    Leads setup process allowed (fun _ after => DeletesGarbage setup world after)
      (processBatch setup) world := by
  refine leads_call fun choice answered after _ step => ?_
  cases choice <;> simp only [answer, reduceCtorEq, Option.some.injEq, Prod.mk.injEq] at step
  obtain ⟨rfl, rfl⟩ := step
  have taken : ∀ casKey ∈ world.pendingDeletes.take setup.gcBatchSize.toNat,
      casKey.length = 64 := fun casKey member => lengths casKey (List.mem_of_mem_take member)
  apply (leads_processKeys taken (Cleaning.refl setup _)).mono
  intro _ after cleaning
  constructor
  · exact cleaning.files
  · exact cleaning.objects
  · exact cleaning.parts
  · intro casKey stored removed
    rcases cleaning.rows casKey with same | ⟨-, garbage, -, noFile⟩
    · rw [removed] at same
      exact absurd same.symm stored
    · exact ⟨garbage, noFile⟩
  · exact cleaning.queue

end Batch

/-- A batch deletes only garbage, whatever fails. -/
theorem batch_deletes_only_garbage {setup : Setup} {process : Nat} {world after : World}
    {choices : List Choice} (lengths : ∀ casKey ∈ world.pendingDeletes, casKey.length = 64)
    (ran : Program.execute (answer setup process) (processBatch setup) choices world =
      some ((), after)) : DeletesGarbage setup world after := by
  have leads : Leads setup process anything _ (processBatch setup) world :=
    leads_processBatch lengths
  rw [Leads, restrict_anything] at leads
  exact leads.of_execute (fun _ _ => trivial) ran

/-- A blob of one byte without any reference, which was reported twice. -/
def sampleGarbage : World :=
  { DataStore.oneBlob with
    tables := Tables.empty.apply
      (.casBlob (DataStore.sampleSetup.sha256Hex (ascii "a")) (some ⟨1, 0⟩))
    pendingDeletes := List.replicate 2 (DataStore.sampleSetup.sha256Hex (ascii "a")) }

/-- The blob is deleted when it is met first, and its row is gone when it is met again. -/
def sampleCollection : List Choice :=
  [.done, .sql [] ⟨0, 0⟩, .uuid DataStore.sampleUuid, .done, .done, .sql [] ⟨0, 0⟩,
    .done, .sql [] ⟨0, 0⟩, .sql [] ⟨0, 0⟩, .sql [] ⟨0, 0⟩]

theorem batch_deletes_only_garbage_sample :
    ∃ after, Program.execute (answer DataStore.sampleSetup 0)
        (processBatch DataStore.sampleSetup) sampleCollection sampleGarbage = some ((), after) ∧
      DeletesGarbage DataStore.sampleSetup sampleGarbage after := by
  have lengths : ∀ casKey ∈ sampleGarbage.pendingDeletes, casKey.length = 64 := by
    intro casKey member
    obtain rfl := List.eq_of_mem_replicate member
    exact DataStore.sampleSetup.length_sha256Hex _
  have safe := fun after => @batch_deletes_only_garbage DataStore.sampleSetup 0 sampleGarbage
    after sampleCollection lengths
  exact ⟨_, rfl, safe _ rfl⟩

end MiniS3.GarbageCollector
