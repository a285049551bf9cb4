import MiniS3.Storage.GcBatch

/-!
# Batches in which nothing fails

The collector runs on tables in which a blob with the count 0 is not referred to.  Where no
statement and no operation on files fails, its checks find each such blob reclaimable three times
over, and the blob loses its file and its row.  A blob that is met again has no row any more, and
a blob with a count is left alone, so that after a batch none of its blobs has a row with the
count 0.
-/

namespace MiniS3

open Lib Db

/-- Neither a statement nor an operation on files fails. -/
def Choice.untroubled : Choice → Bool
  | .sql faults _ => faults.isEmpty
  | .failed _ => false
  | _ => true

theorem Choice.faultless {choice : Choice} (untroubled : choice.untroubled = true) :
    Faultless choice := by
  cases choice with
  | sql faults clock => exact List.isEmpty_iff.mp untroubled
  | _ => trivial

namespace GarbageCollector

/-- Every blob with the count 0 is reclaimable. -/
def Unreferenced (tables : Tables) : Prop :=
  ∀ casKey row, tables.casBlobs.lookup casKey = some row → row.refCount = 0 →
    tables.reclaimable casKey = true

/-- The rows of blobs have not changed, but for rows that are gone with their files, and no file
of a blob has appeared. -/
structure Cleared (setup : Setup) (before now : World) : Prop where
  rows : ∀ casKey, now.tables.casBlobs.lookup casKey = before.tables.casBlobs.lookup casKey ∨
    now.tables.casBlobs.lookup casKey = none ∧
      now.files.lookup (setup.getCasPath casKey) = none
  files : ∀ casKey, before.files.lookup (setup.getCasPath casKey) = none →
    now.files.lookup (setup.getCasPath casKey) = none

/-- The batch has come from one world to the other. -/
structure Sweeping (setup : Setup) (before now : World) : Prop where
  cleared : Cleared setup before now
  unreferenced : Unreferenced now.tables
  queue : now.pendingDeletes = before.pendingDeletes

section Steps

variable {setup : Setup} {process : Nat} {before middle now world : World} {casKey : Bytes}

theorem Cleared.refl (setup : Setup) (world : World) : Cleared setup world world :=
  ⟨fun _ => .inl rfl, fun _ absent => absent⟩

theorem Cleared.trans (first : Cleared setup before middle) (second : Cleared setup middle now) :
    Cleared setup before now := by
  constructor
  · intro casKey
    rcases second.rows casKey with same | gone
    · rcases first.rows casKey with unchanged | ⟨noRow, noFile⟩
      · exact .inl (same.trans unchanged)
      · exact .inr ⟨same.trans noRow, second.files casKey noFile⟩
    · exact .inr gone
  · intro casKey absent
    exact second.files casKey (first.files casKey absent)

/-- A row that has been cleared away does not come back. -/
theorem Cleared.stays (cleared : Cleared setup before now)
    (counted : ∀ row, before.tables.casBlobs.lookup casKey = some row → row.refCount ≠ 0) :
    ∀ row, now.tables.casBlobs.lookup casKey = some row → row.refCount ≠ 0 := by
  intro row stored
  rcases cleared.rows casKey with same | ⟨noRow, -⟩
  · rw [same] at stored
    exact counted row stored
  · rw [noRow] at stored
    cases stored

theorem Sweeping.refl (unreferenced : Unreferenced world.tables) : Sweeping setup world world :=
  ⟨Cleared.refl setup world, unreferenced, rfl⟩

theorem Sweeping.trans (first : Sweeping setup before middle)
    (second : Sweeping setup middle now) : Sweeping setup before now :=
  ⟨first.cleared.trans second.cleared, second.unreferenced, second.queue.trans first.queue⟩

theorem Unreferenced.removeRow {tables : Tables} (unreferenced : Unreferenced tables)
    (casKey : Bytes) : Unreferenced (tables.apply (.casBlob casKey none)) := by
  intro other row stored zero
  by_cases same : other = casKey
  · rw [same, Tables.apply, lookup_put_self] at stored
    cases stored
  · have kept : (tables.apply (.casBlob casKey none)).casBlobs.lookup other =
        tables.casBlobs.lookup other := lookup_put_ne _ _ same
    rw [kept] at stored
    have reclaimable := unreferenced other row stored zero
    unfold Tables.reclaimable at reclaimable ⊢
    rw [kept]
    exact reclaimable

/-! ## The calls -/

variable {α : Type} {post : α → World → Prop}

/-- Every execution of the program in which nothing fails ends in `post`. -/
abbrev LeadsUntroubled (setup : Setup) (process : Nat) {α : Type} (post : α → World → Prop)
    (program : ServerM α) (world : World) : Prop :=
  Leads setup process (fun _ choice => choice.untroubled) post program world

theorem untroubled_canDeleteCasBlob {next : Result Bool → ServerM α}
    (checked : LeadsUntroubled setup process post
      (next (.ok (world.tables.reclaimable casKey))) world) :
    LeadsUntroubled setup process post (.call (.metaStore (.canDeleteCasBlob casKey)) next)
      world := by
  apply leads_call
  intro choice answered after untroubled step
  rcases answer_metaStore step with ⟨faults, clock, rfl, same, effect⟩
  rcases effect False (.inr (List.isEmpty_iff.mp untroubled)) with
    ⟨sameTables, sameCaches, ⟨⟨⟩, -⟩ | answers⟩
  rw [same, sameTables, sameCaches, show answered = _ from answers]
  exact checked

/-- The row of a reclaimable blob can be deleted. -/
theorem perform_deleteCasBlob {indexed : Bytes → Bytes} {tables : Tables} {caches : Caches}
    {clock : Clock} (reclaimable : tables.reclaimable casKey = true) :
    (MetaCall.deleteCasBlob casKey).perform indexed [] clock tables caches =
      (.ok (), tables.apply (.casBlob casKey none), caches) := by
  rw [Tables.reclaimable, decide_eq_true_eq] at reclaimable
  rcases reclaimable with ⟨-, noObject, noPart⟩
  have evaluated : (Stmt.deleteCasBlob casKey).eval indexed tables =
      .ok ((), [.casBlob casKey none]) := by
    unfold Tables.objectRefs at noObject
    unfold Tables.partRefs at noPart
    simp only [Stmt.eval, noObject, noPart, ne_eq, not_true_eq_false, or_self, if_false]
  have performed : Alone.answer indexed (.exec (.deleteCasBlob casKey))
      ⟨tables, none, caches, [], clock⟩ =
        (.ok (), ⟨tables.apply (.casBlob casKey none), none, caches, [], clock⟩) := by
    simp [Alone.answer, Alone.view, evaluated, Alone.write, Alone.advance]
  have ran : Program.run (Alone.answer indexed) ((MetaCall.deleteCasBlob casKey).code indexed)
      ⟨tables, none, caches, [], clock⟩ =
        (.ok (), ⟨tables.apply (.casBlob casKey none), none, caches, [], clock⟩) := by
    refine (Program.run_call _ _ _ _).trans ?_
    rw [performed]
    rfl
  unfold MetaCall.perform
  rw [ran]

theorem untroubled_deleteCasBlob {next : Result Unit → ServerM α}
    (reclaimable : world.tables.reclaimable casKey = true)
    (deleted : LeadsUntroubled setup process post (next (.ok ()))
      { world with tables := world.tables.apply (.casBlob casKey none) }) :
    LeadsUntroubled setup process post (.call (.metaStore (.deleteCasBlob casKey)) next)
      world := by
  apply leads_call
  intro choice answered after untroubled step
  cases choice with
  | sql faults clock =>
      rw [List.isEmpty_iff.mp untroubled] at step
      simp only [answer, perform_deleteCasBlob reclaimable, Option.some.injEq,
        Prod.mk.injEq] at step
      rcases step with ⟨rfl, rfl⟩
      exact deleted
  | _ => simp [answer] at step

/-! ## One blob -/

variable {rest : ServerM Unit} {goal : Unit → World → Prop}

/-- The file of the blob is gone, and its row goes now. -/
theorem Sweeping.removeRow (unreferenced : Unreferenced world.tables)
    (noFile : world.files.lookup (setup.getCasPath casKey) = none) :
    Sweeping setup world { world with tables := world.tables.apply (.casBlob casKey none) } := by
  constructor
  · constructor
    · intro other
      by_cases same : other = casKey
      · rw [same]
        exact .inr ⟨lookup_put_self _ _ _, noFile⟩
      · exact .inl (lookup_put_ne _ _ same)
    · exact fun _ absent => absent
  · exact unreferenced.removeRow casKey
  · rfl

/-- A file that is set aside and removed clears nothing but itself. -/
theorem Sweeping.removeFile {uuid : Bytes} (valid : isUuid uuid = true)
    (unreferenced : Unreferenced world.tables) {content : Bytes}
    (present : world.files.lookup (setup.getCasPath casKey) = some content) :
    Sweeping setup world ((world.moveFile (setup.getCasPath casKey)
      (setup.quarantinePath casKey uuid)).dropFile (setup.quarantinePath casKey uuid)) ∧
    ((world.moveFile (setup.getCasPath casKey)
      (setup.quarantinePath casKey uuid)).dropFile (setup.quarantinePath casKey uuid)).files.lookup
        (setup.getCasPath casKey) = none := by
  have aside : ∀ other, setup.getCasPath other ≠ setup.quarantinePath casKey uuid :=
    fun other => (setup.quarantinePath_ne_getCasPath valid).symm
  have files : ∀ other, ((world.moveFile (setup.getCasPath casKey)
      (setup.quarantinePath casKey uuid)).dropFile
        (setup.quarantinePath casKey uuid)).files.lookup (setup.getCasPath other) =
      if setup.getCasPath other = setup.getCasPath casKey then none
      else world.files.lookup (setup.getCasPath other) := by
    intro other
    rw [World.elsewhere_dropFile _ _ _ (aside other), World.lookup_moveFile present,
      if_neg (aside other)]
  refine ⟨⟨⟨?_, ?_⟩, ?_, ?_⟩, ?_⟩
  · intro other
    rw [World.tables_dropFile, World.tables_moveFile]
    exact .inl rfl
  · intro other absent
    rw [files]
    split
    · rfl
    · exact absent
  · rw [World.tables_dropFile, World.tables_moveFile]
    exact unreferenced
  · exact pendingDeletes_moveFile _ _ _
  · rw [files, if_pos rfl]

theorem untroubled_deleteCallback (unreferenced : Unreferenced world.tables)
    (reclaimable : world.tables.reclaimable casKey = true)
    (noFile : world.files.lookup (setup.getCasPath casKey) = none)
    (continues : ∀ after, Sweeping setup world after →
      after.tables.casBlobs.lookup casKey = none →
      LeadsUntroubled setup process goal rest after) :
    LeadsUntroubled setup process goal (deleteCallback casKey true rest) world := by
  apply untroubled_canDeleteCasBlob
  rw [reclaimable]
  apply untroubled_deleteCasBlob reclaimable
  exact continues _ (Sweeping.removeRow unreferenced noFile) (lookup_put_self _ _ _)

/-- A reclaimable blob loses its file and its row. -/
theorem untroubled_quarantine (unreferenced : Unreferenced world.tables)
    (reclaimable : world.tables.reclaimable casKey = true)
    (continues : ∀ after, Sweeping setup world after →
      after.tables.casBlobs.lookup casKey = none →
      LeadsUntroubled setup process goal rest after) :
    LeadsUntroubled setup process goal (quarantine setup casKey rest) world := by
  unfold quarantine
  refine leads_generateUuid fun uuid valid => leads_fileExists ?_
  cases present : world.files.lookup (setup.getCasPath casKey) with
  | none =>
      apply untroubled_canDeleteCasBlob
      rw [reclaimable]
      exact untroubled_deleteCallback unreferenced reclaimable present continues
  | some content =>
      apply leads_atomicRename
      · intro moved isMoved
        apply untroubled_canDeleteCasBlob
        rw [World.tables_moveFile, reclaimable]
        rcases Sweeping.removeFile valid unreferenced present with ⟨sweeping, noFile⟩
        apply leads_removeFile
        · apply untroubled_deleteCallback sweeping.unreferenced _ noFile
          · intro after swept removed
            exact continues after (sweeping.trans swept) removed
          · rw [World.tables_dropFile, World.tables_moveFile]
            exact reclaimable
        · rintro text ⟨⟩
      · rintro text ⟨⟩

end Steps

/-! ## Whole batches -/

section Batch

variable {setup : Setup} {process : Nat} {world : World}

/-- None of the blobs has a row with the count 0. -/
def Settled (casKeys : List Bytes) (tables : Tables) : Prop :=
  ∀ casKey ∈ casKeys, ∀ row, tables.casBlobs.lookup casKey = some row → row.refCount ≠ 0

/-- The induction is on the blobs that are left, and each batch leaves the blobs it has met
settled. -/
theorem untroubled_processKeys (casKeys : List Bytes) (unreferenced : Unreferenced world.tables) :
    LeadsUntroubled setup process
      (fun _ after => Sweeping setup world after ∧ Settled casKeys after.tables)
      (processKeys setup casKeys) world := by
  induction casKeys generalizing world with
  | nil => exact ⟨Sweeping.refl unreferenced, fun _ member => absurd member (by simp)⟩
  | cons casKey casKeys inductionHypothesis =>
      have continues : ∀ after, Sweeping setup world after →
          (∀ row, after.tables.casBlobs.lookup casKey = some row → row.refCount ≠ 0) →
          LeadsUntroubled setup process
            (fun _ after => Sweeping setup world after ∧ Settled (casKey :: casKeys) after.tables)
            (processKeys setup casKeys) after := by
        intro after sweeping settled
        apply (inductionHypothesis sweeping.unreferenced).mono
        rintro _ final ⟨swept, others⟩
        refine ⟨sweeping.trans swept, ?_⟩
        rintro other member
        rcases List.mem_cons.mp member with rfl | member
        · exact swept.cleared.stays settled
        · exact others other member
      apply untroubled_canDeleteCasBlob
      cases reclaimable : world.tables.reclaimable casKey with
      | true =>
          apply untroubled_quarantine unreferenced reclaimable
          intro after sweeping removed
          apply continues after sweeping
          rw [removed]
          rintro row ⟨⟩
      | false =>
          apply continues world (Sweeping.refl unreferenced)
          intro row stored zero
          rw [unreferenced casKey row stored zero] at reclaimable
          cases reclaimable

/-- What a batch in which nothing fails leads to. -/
structure Drains (setup : Setup) (before after : World) : Prop where
  cleared : Cleared setup before after
  settled : Settled (before.pendingDeletes.take setup.gcBatchSize.toNat) after.tables
  queue : after.pendingDeletes = before.pendingDeletes.drop setup.gcBatchSize.toNat

theorem untroubled_processBatch (unreferenced : Unreferenced world.tables) :
    LeadsUntroubled setup process (fun _ after => Drains setup world after) (processBatch setup)
      world := by
  apply leads_call
  intro choice answered after _ step
  cases choice <;> simp only [answer, reduceCtorEq, Option.some.injEq, Prod.mk.injEq] at step
  rcases step with ⟨rfl, rfl⟩
  apply (untroubled_processKeys _ (by exact unreferenced)).mono
  rintro _ after ⟨sweeping, settled⟩
  exact ⟨⟨sweeping.cleared.rows, sweeping.cleared.files⟩, settled, sweeping.queue⟩

/-! ## Batches can be run -/

variable {casKey : Bytes} {rest : ServerM Unit}

/-- The program can be run to its end without a failure. -/
abbrev CanRunUntroubled (setup : Setup) (process : Nat) {α : Type} (program : ServerM α)
    (world : World) : Prop :=
  Program.CanRun (answer setup process) (fun choice => choice.untroubled = true) program world

/-- A call of the metadata store can always be made, and leaves the files alone. -/
theorem canRun_metaStore {α : Type} {call : MetaCall} {next : call.Ans → ServerM α}
    (continues : ∀ answered after, after.files = world.files →
      CanRunUntroubled setup process (next answered) after) :
    CanRunUntroubled setup process (.call (.metaStore call) next) world :=
  ⟨.sql [] ⟨0, 0⟩, _, _, rfl, rfl, continues _ _ rfl⟩

theorem canRun_deleteCallback {success : Bool}
    (continues : ∀ after, CanRunUntroubled setup process rest after) :
    CanRunUntroubled setup process (deleteCallback casKey success rest) world := by
  unfold deleteCallback
  cases success with
  | false => exact continues world
  | true =>
      apply canRun_metaStore
      intro answered after _
      match answered with
      | .error status => exact continues after
      | .ok false => exact continues after
      | .ok true => exact canRun_metaStore fun _ last _ => continues last

theorem canRun_recheck {uuid : Bytes} {renamed : Bool}
    (setAside : renamed = true →
      (world.files.lookup (setup.quarantinePath casKey uuid)).isSome = true)
    (continues : ∀ after, CanRunUntroubled setup process rest after) :
    CanRunUntroubled setup process (recheck setup casKey uuid renamed rest) world := by
  have putBack : ∀ after, after.files = world.files →
      CanRunUntroubled setup process (if renamed = true then (do
        let _ ← perform (.atomicRename (setup.quarantinePath casKey uuid)
          (setup.getCasPath casKey))
        rest) else rest) after := by
    intro after sameFiles
    split
    · rename_i isRenamed
      have present := setAside isRenamed
      rw [← sameFiles] at present
      refine ⟨.done, .ok (), after.moveFile (setup.quarantinePath casKey uuid)
        (setup.getCasPath casKey), rfl, ?_, continues _⟩
      rw [answer, if_pos present]
    · exact continues after
  unfold recheck
  apply canRun_metaStore
  intro answered after sameFiles
  rcases answered with status | _ | _
  · exact putBack after sameFiles
  · exact putBack after sameFiles
  · change CanRunUntroubled setup process (if renamed = true then _ else _) after
    split
    · exact ⟨.done, .ok (), _, rfl, rfl, canRun_deleteCallback continues⟩
    · exact canRun_deleteCallback continues

theorem canRun_quarantine (continues : ∀ after, CanRunUntroubled setup process rest after) :
    CanRunUntroubled setup process (quarantine setup casKey rest) world := by
  have valid : isUuid DataStore.sampleUuid = true := by decide
  refine ⟨.uuid DataStore.sampleUuid, DataStore.sampleUuid, world, rfl, by rw [answer, if_pos valid],
    .done, (world.files.lookup (setup.getCasPath casKey)).isSome, world, rfl, rfl, ?_⟩
  cases present : world.files.lookup (setup.getCasPath casKey) with
  | none =>
      apply canRun_recheck _ continues
      rintro ⟨⟩
  | some content =>
      have isThere : (world.files.lookup (setup.getCasPath casKey)).isSome = true := by
        rw [present]
        rfl
      refine ⟨.done, .ok (), world.moveFile (setup.getCasPath casKey)
        (setup.quarantinePath casKey DataStore.sampleUuid), rfl, by rw [answer, if_pos isThere], ?_⟩
      apply canRun_recheck _ continues
      intro _
      rw [World.lookup_moveFile present, if_pos rfl]
      rfl

theorem canRun_processKeys (casKeys : List Bytes) :
    CanRunUntroubled setup process (processKeys setup casKeys) world := by
  induction casKeys generalizing world with
  | nil => trivial
  | cons casKey casKeys inductionHypothesis =>
      apply canRun_metaStore
      intro answered after _
      match answered with
      | .error status => exact inductionHypothesis
      | .ok false => exact inductionHypothesis
      | .ok true => exact canRun_quarantine fun _ => inductionHypothesis

theorem canRun_processBatch : CanRunUntroubled setup process (processBatch setup) world :=
  ⟨.done, _, _, rfl, rfl, canRun_processKeys _⟩

end Batch

end GarbageCollector

end MiniS3
