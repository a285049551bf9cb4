import MiniS3.Db.Calls
import MiniS3.Db.RefCount

/-!
# What a call of the metadata store does

A call that runs alone either fails and leaves the tables as they were, or takes
full effect.  `Yields` is the weakest precondition of a store program against every
pattern of failing statements; with `faulty` false, only the errors that the tables
themselves give rise to are reported.  One lemma for each function says what it
returns and what the tables and the caches are afterwards.
-/

namespace MiniS3.Db

open Lib MetaStore

/-! ## Running alone against all failures -/

section Yields

variable {indexed : Bytes → Bytes} {α β : Type}

/-- Whatever fails, the program ends in `post`.  `work` is the copy of the tables that an
open transaction changes. -/
def Yields (faulty : Prop) (post : α → Tables → Caches → Prop) :
    MetaM indexed α → Tables → Option Tables → Caches → Prop
  | .ret value, tables, _, caches => post value tables caches
  | .call .begin next, tables, work, caches =>
      Yields faulty post (next ()) (work.getD tables) (some (work.getD tables)) caches
  | .call (.exec stmt) next, tables, work, caches =>
      (∀ err, faulty ∨ stmt.eval indexed (work.getD tables) = .error err →
        Yields faulty post (next (.error err)) tables work caches) ∧
      ∀ answered writes, stmt.eval indexed (work.getD tables) = .ok (answered, writes) →
        Yields faulty post (next (.ok answered))
          (if work.isSome then tables else tables.applyAll writes)
          (work.map fun copy => copy.applyAll writes) caches
  | .call .commit next, tables, work, caches =>
      (faulty → ∀ err, Yields faulty post (next (.error err)) tables none caches) ∧
      Yields faulty post (next (.ok ())) (work.getD tables) none caches
  | .call .rollback next, tables, _, caches => Yields faulty post (next ()) tables none caches
  | .call (.aux op) next, tables, work, caches =>
      ∀ clock, Yields faulty post (next (caches.answer clock op).1) tables work
        (caches.answer clock op).2

variable {faulty : Prop} {post : α → Tables → Caches → Prop}

/-- `Yields` speaks about every run. -/
theorem Yields.run {program : MetaM indexed α} (state : Alone)
    (yields : Yields faulty post program state.tables state.work state.caches)
    (faults : faulty ∨ state.faults = []) :
    post (program.run (Alone.answer indexed) state).1
      (program.run (Alone.answer indexed) state).2.tables
      (program.run (Alone.answer indexed) state).2.caches := by
  induction program generalizing state with
  | ret value => exact yields
  | call op next inductionHypothesis =>
      rw [Program.run_call]
      cases op with
      | begin => exact inductionHypothesis _ _ yields faults
      | rollback => exact inductionHypothesis _ _ yields faults
      | aux cacheOp => exact inductionHypothesis _ _ (yields state.clock) faults
      | exec stmt =>
          have faultsAfter : faulty ∨ state.faults.tail = [] := by
            rcases faults with faulty | none
            · exact .inl faulty
            · exact .inr (by rw [none]; rfl)
          simp only [Alone.answer]
          cases injected : state.faults.head?.join with
          | some err =>
              have mayFail : faulty := by
                rcases faults with faulty | none
                · exact faulty
                · rw [none] at injected
                  contradiction
              exact inductionHypothesis _ _ (yields.1 err (.inl mayFail)) faultsAfter
          | none =>
              cases evaluated : stmt.eval indexed state.view with
              | error err =>
                  exact inductionHypothesis _ _ (yields.1 err (.inr evaluated)) faultsAfter
              | ok done =>
                  obtain ⟨answered, writes⟩ := done
                  have after := yields.2 answered writes evaluated
                  apply inductionHypothesis
                  · cases opened : state.work with
                    | none => simpa [Alone.write, opened, Alone.advance] using after
                    | some copy => simpa [Alone.write, opened, Alone.advance] using after
                  · cases opened : state.work with
                    | none => simpa [Alone.write, opened, Alone.advance] using faultsAfter
                    | some copy => simpa [Alone.write, opened, Alone.advance] using faultsAfter
      | commit =>
          simp only [Alone.answer]
          cases injected : state.faults.head?.join with
          | some err =>
              rcases faults with faulty | none
              · exact inductionHypothesis _ _ (yields.1 faulty err) (.inl faulty)
              · rw [none] at injected
                contradiction
          | none =>
              refine inductionHypothesis _ _ yields.2 ?_
              rcases faults with faulty | none
              · exact .inl faulty
              · exact .inr (by simp [Alone.advance, none])

theorem Yields.mono {weak strong : α → Tables → Caches → Prop} {program : MetaM indexed α}
    {tables : Tables} {work : Option Tables} {caches : Caches}
    (yields : Yields faulty strong program tables work caches)
    (implies : ∀ value after cachesAfter, strong value after cachesAfter →
      weak value after cachesAfter) :
    Yields faulty weak program tables work caches := by
  induction program generalizing tables work caches with
  | ret value => exact implies _ _ _ yields
  | call op next inductionHypothesis =>
      cases op with
      | begin => exact inductionHypothesis _ yields
      | rollback => exact inductionHypothesis _ yields
      | aux cacheOp => exact fun clock => inductionHypothesis _ (yields clock)
      | exec stmt =>
          exact ⟨fun err failed => inductionHypothesis _ (yields.1 err failed),
            fun answered writes evaluated =>
              inductionHypothesis _ (yields.2 answered writes evaluated)⟩
      | commit =>
          exact ⟨fun faulty err => inductionHypothesis _ (yields.1 faulty err),
            inductionHypothesis _ yields.2⟩

end Yields

/-! ## Effects on the tables -/

namespace Tables

/-- A blob gains a reference. -/
def gain (casKey : Bytes) (size : Int) (tables : Tables) : Tables :=
  tables.apply (.casBlob casKey
    (some (CasBlobRow.incremented size (tables.casBlobs.lookup casKey))))

/-- A blob loses a reference, if it has a row. -/
def lose (casKey : Bytes) (tables : Tables) : Tables :=
  match tables.casBlobs.lookup casKey with
  | none => tables
  | some row => tables.apply (.casBlob casKey (some row.decremented))

/-- A reference moves from the blob `old`, which is empty when there was none, to the blob
`new`. -/
def move (old new : Bytes) (size : Int) (tables : Tables) : Tables :=
  if old.isEmpty then tables.gain new size
  else if old = new then tables
  else (tables.gain new size).lose old

/-- The blob that a reference which moved from `old` to `new` has left without any. -/
def freed (old new : Bytes) (tables : Tables) : Option Bytes :=
  if ¬old.isEmpty ∧ old ≠ new ∧
      (tables.casBlobs.lookup old).map CasBlobRow.refCount = some 0 then some old
  else none

/-- The blob of an object, empty when there is no such object. -/
def objectCas (indexed : Bytes → Bytes) (tables : Tables) (bucketId : Int) (key : Bytes) :
    Bytes :=
  ((tables.findObject indexed bucketId key).map ObjectRow.casKey).getD []

/-- The row that an upsert leaves at the index entry of `row`: it keeps the key of the row
that is there. -/
def upserted (tables : Tables) (entry : Int × Bytes) (row : ObjectRow) : ObjectRow :=
  { row with objectKey := (tables.objects.lookup entry).elim row.objectKey ObjectRow.objectKey }

/-- The tables after a successful `PutObjectWithRefCount`. -/
def putObject (indexed : Bytes → Bytes) (bucketId : Int) (row : ObjectRow) (tables : Tables) :
    Tables :=
  (tables.move (tables.objectCas indexed bucketId row.objectKey) row.casKey row.size).apply
    (.object (bucketId, indexed row.objectKey)
      (some (tables.upserted (bucketId, indexed row.objectKey) row)))

/-- The tables after a successful `DeleteObjectWithRefCount` of an object with the blob
`casKey`. -/
def removeObject (indexed : Bytes → Bytes) (bucketId : Int) (key casKey : Bytes)
    (tables : Tables) : Tables :=
  let removed := tables.apply (.object (bucketId, indexed key) none)
  if casKey.isEmpty then removed else removed.lose casKey

/-- The blob of a part, empty when there is no such part. -/
def partCas (tables : Tables) (uploadId : Bytes) (partNumber : Int) : Bytes :=
  ((tables.multipartParts.lookup (uploadId, partNumber)).map PartRow.casKey).getD []

/-- The tables after a successful `PutPartWithRefCount`. -/
def putPart (uploadId : Bytes) (partNumber : Int) (row : PartRow) (tables : Tables) : Tables :=
  (tables.move (tables.partCas uploadId partNumber) row.casKey row.size).apply
    (.part (uploadId, partNumber) (some row))

/-- The tables after a successful `DeleteMultipartUpload`. -/
def removeUpload (uploadId : Bytes) (tables : Tables) : Tables :=
  tables.applyAll (.upload uploadId none ::
    (tables.partsOf uploadId).map fun part => .part (uploadId, part.1) none)

theorem freed_of_ne {old new : Bytes} {tables : Tables} (nonempty : ¬old.isEmpty = true)
    (different : old ≠ new) :
    tables.freed old new =
      if (tables.casBlobs.lookup old).map CasBlobRow.refCount = some 0 then some old
      else none := by
  simp only [freed, nonempty, different, ne_eq, not_false_eq_true, true_and,
    Bool.false_eq_true]

@[simp]
theorem freed_nil (new : Bytes) (tables : Tables) : tables.freed [] new = none :=
  if_neg fun freed => freed.1 rfl

@[simp]
theorem objects_gain (casKey : Bytes) (size : Int) (tables : Tables) :
    (tables.gain casKey size).objects = tables.objects :=
  rfl

@[simp]
theorem multipartParts_gain (casKey : Bytes) (size : Int) (tables : Tables) :
    (tables.gain casKey size).multipartParts = tables.multipartParts :=
  rfl

@[simp]
theorem objects_lose (casKey : Bytes) (tables : Tables) :
    (tables.lose casKey).objects = tables.objects := by
  unfold lose
  split <;> rfl

@[simp]
theorem multipartParts_lose (casKey : Bytes) (tables : Tables) :
    (tables.lose casKey).multipartParts = tables.multipartParts := by
  unfold lose
  split <;> rfl

@[simp]
theorem objects_move (old new : Bytes) (size : Int) (tables : Tables) :
    (tables.move old new size).objects = tables.objects := by
  unfold move
  split_ifs <;> simp

theorem objects_putObject (indexed : Bytes → Bytes) (bucketId : Int) (row : ObjectRow)
    (tables : Tables) : (tables.putObject indexed bucketId row).objects =
      put (bucketId, indexed row.objectKey)
        (some (tables.upserted (bucketId, indexed row.objectKey) row)) tables.objects := by
  simp only [putObject, apply, objects_move]

@[simp]
theorem multipartUploads_lose (casKey : Bytes) (tables : Tables) :
    (tables.lose casKey).multipartUploads = tables.multipartUploads := by
  unfold lose
  split <;> rfl

@[simp]
theorem multipartUploads_move (old new : Bytes) (size : Int) (tables : Tables) :
    (tables.move old new size).multipartUploads = tables.multipartUploads := by
  unfold move
  split_ifs <;> simp [gain, apply]

@[simp]
theorem multipartParts_move (old new : Bytes) (size : Int) (tables : Tables) :
    (tables.move old new size).multipartParts = tables.multipartParts := by
  unfold move
  split_ifs <;> simp

end Tables

/-! ## The functions that move references -/

section Transactions

variable {indexed : Bytes → Bytes} {faulty : Prop} {caches : Caches}

theorem decrementRefCount_eval {sha256Hash : Bytes} {work : Tables} {answered : Unit}
    {writes : List Write}
    (evaluated : (Stmt.decrementRefCount sha256Hash).eval indexed work =
      .ok (answered, writes)) :
    work.applyAll writes = work.lose sha256Hash := by
  simp only [Stmt.eval] at evaluated
  cases stored : work.casBlobs.lookup sha256Hash <;> rw [stored] at evaluated <;>
    cases evaluated <;> simp [Tables.lose, stored]

theorem decrementRefCount_ne_error {sha256Hash : Bytes} {work : Tables} {err : SqlError} :
    (Stmt.decrementRefCount sha256Hash).eval indexed work ≠ .error err := by
  simp only [Stmt.eval]
  split <;> simp

/-- The old blob of a moved reference loses it. -/
theorem yields_dropOld {α : Type} {post : α → Tables → Caches → Prop} {oldCas newCas : Bytes}
    {tables work : Tables} {next : Except SqlError (Option Bytes) → MetaM indexed α}
    {lowered : Tables}
    (failed : faulty → ∀ err copy,
      Yields faulty post (next (.error err)) tables (some copy) caches)
    (loweredEq : (if ¬oldCas.isEmpty ∧ oldCas ≠ newCas then work.lose oldCas else work) = lowered)
    (done : Yields faulty post (next (.ok (lowered.freed oldCas newCas))) tables (some lowered)
      caches) :
    Yields faulty post (moveReference.dropOld oldCas newCas >>= next) tables (some work)
      caches := by
  unfold moveReference.dropOld
  by_cases dropped : ¬oldCas.isEmpty ∧ oldCas ≠ newCas
  · rw [if_pos dropped] at loweredEq ⊢
    refine ⟨fun err mayFail =>
      failed (mayFail.resolve_right decrementRefCount_ne_error) err work, ?_⟩
    intro answered writes evaluated
    have lost : work.applyAll writes = lowered :=
      (decrementRefCount_eval evaluated).trans loweredEq
    simp only [Option.map_some, lost]
    refine ⟨fun err mayFail => failed (mayFail.resolve_right (by simp [Stmt.eval])) err _, ?_⟩
    rintro refCount queried ⟨⟩
    rw [Tables.freed_of_ne dropped.1 dropped.2] at done
    exact done
  · rw [if_neg dropped] at loweredEq ⊢
    subst lowered
    have kept : work.freed oldCas newCas = none :=
      if_neg fun freed => dropped ⟨freed.1, freed.2.1⟩
    rw [kept] at done
    exact done

/-- The statement after a moved reference sees the tables with the reference moved. -/
theorem yields_moveReference {α : Type} {post : α → Tables → Caches → Prop}
    {oldCas newCas : Bytes} {size : Int} {tables work : Tables}
    {next : Except SqlError (Option Bytes) → MetaM indexed α}
    (failed : faulty → ∀ err copy,
      Yields faulty post (next (.error err)) tables (some copy) caches)
    (done : Yields faulty post
      (next (.ok ((work.move oldCas newCas size).freed oldCas newCas))) tables
      (some (work.move oldCas newCas size)) caches) :
    Yields faulty post (moveReference oldCas newCas size >>= next) tables (some work) caches := by
  unfold moveReference
  by_cases gains : oldCas.isEmpty = true ∨ oldCas ≠ newCas
  · simp only [if_pos gains]
    refine ⟨fun err mayFail => failed (mayFail.resolve_right (by simp [Stmt.eval])) err work, ?_⟩
    rintro answered writes ⟨⟩
    refine yields_dropOld failed ?_ done
    change (if ¬oldCas.isEmpty ∧ oldCas ≠ newCas then (work.gain newCas size).lose oldCas
      else work.gain newCas size) = work.move oldCas newCas size
    unfold Tables.move
    by_cases empty : oldCas.isEmpty = true <;> by_cases same : oldCas = newCas <;> grind
  · simp only [if_neg gains]
    refine yields_dropOld failed ?_ done
    unfold Tables.move
    grind

/-- What is left of a function that reports a failure or tries again: the tables are as
they were. -/
theorem yields_retryOrFail {α : Type} {post : Result α → Tables → Caches → Prop} {left : Nat}
    {again : MetaM indexed (Result α)} {err message : Bytes} {tables : Tables}
    (retried : Yields faulty post again tables none caches)
    (failed : ∀ status, post (.error status) tables caches) :
    Yields faulty post (retryOrFail left again err message) tables none caches := by
  unfold retryOrFail
  split
  · exact retried
  · exact failed _

/-- The cache after a successful overwrite. -/
def Caches.withObject (bucketId : Int) (row : ObjectRow) (caches : Caches) : Caches :=
  { caches with
    redis := caches.redis.map fun redis => redis.set (bucketId, row.objectKey)
      ⟨bucketId, row.objectKey, row.casKey, row.size, row.etag, row.contentType⟩ }

/-- A failed `PutObjectWithRefCount` changes nothing; a successful one stores the row and
moves the reference, reports the old blob when it is free, and writes the cache unless the
row is new. -/
def PutObjectPost (indexed : Bytes → Bytes) (bucketId : Int) (row : ObjectRow)
    (tables : Tables) (caches : Caches) :
    Result (Option Bytes) → Tables → Caches → Prop
  | .error _, after, cachesAfter => after = tables ∧ cachesAfter = caches
  | .ok candidate, after, cachesAfter =>
      after = tables.putObject indexed bucketId row ∧
        candidate = after.freed (tables.objectCas indexed bucketId row.objectKey) row.casKey ∧
        (cachesAfter = caches.withObject bucketId row ∨
          cachesAfter = caches ∧
            tables.objects.lookup (bucketId, indexed row.objectKey) = none)

theorem objectCas_of_free {bucketId : Int} {key : Bytes} {tables : Tables}
    (free : tables.objects.lookup (bucketId, indexed key) = none) :
    tables.objectCas indexed bucketId key = [] := by
  simp [Tables.objectCas, Tables.findObject, free]

theorem upsertObject_eval {bucketId : Int} {row : ObjectRow} {work : Tables}
    {answered : Unit} {writes : List Write}
    (evaluated : (Stmt.upsertObject bucketId row).eval indexed work = .ok (answered, writes)) :
    writes = [.object (bucketId, indexed row.objectKey)
      (some (work.upserted (bucketId, indexed row.objectKey) row))] := by
  simp only [Stmt.eval] at evaluated
  repeat' split at evaluated
  all_goals cases evaluated
  all_goals simp [Tables.upserted, *]

theorem insertObject_eval {bucketId : Int} {row : ObjectRow} {work : Tables}
    {answered : Unit} {writes : List Write}
    (evaluated : (Stmt.insertObject bucketId row).eval indexed work = .ok (answered, writes)) :
    work.objects.lookup (bucketId, indexed row.objectKey) = none ∧
      writes = [.object (bucketId, indexed row.objectKey) (some row)] := by
  simp only [Stmt.eval] at evaluated
  repeat' split at evaluated
  all_goals cases evaluated
  exact ⟨‹_›, rfl⟩

theorem yields_replaceObject {bucketId : Int} {row : ObjectRow} {left : Nat} {tables : Tables}
    {again : MetaM indexed (Result (Option Bytes))}
    (retried : Yields faulty (PutObjectPost indexed bucketId row tables caches) again tables
      none caches) :
    Yields faulty (PutObjectPost indexed bucketId row tables caches)
      (replaceObject bucketId row left again
        (tables.objectCas indexed bucketId row.objectKey)) tables (some tables) caches := by
  have failed : ∀ status, PutObjectPost indexed bucketId row tables caches (.error status)
      tables caches := fun _ => ⟨rfl, rfl⟩
  refine yields_moveReference (fun _ err copy => yields_retryOrFail retried failed) ?_
  refine ⟨fun err _ => yields_retryOrFail retried failed, ?_⟩
  intro answered writes evaluated
  have written := upsertObject_eval evaluated
  refine ⟨fun _ err => yields_retryOrFail retried failed, fun _ => ?_⟩
  subst written
  refine ⟨?_, rfl, .inl rfl⟩
  simp [Tables.putObject, Tables.upserted]

theorem yields_putObjectSlow {bucketId : Int} {row : ObjectRow} {left : Nat} {tables : Tables}
    {again : MetaM indexed (Result (Option Bytes))}
    (retried : Yields faulty (PutObjectPost indexed bucketId row tables caches) again tables
      none caches) :
    Yields faulty (PutObjectPost indexed bucketId row tables caches)
      (putObjectSlow bucketId row left again) tables none caches := by
  have failed : ∀ status, PutObjectPost indexed bucketId row tables caches (.error status)
      tables caches := fun _ => ⟨rfl, rfl⟩
  refine ⟨fun err _ => yields_retryOrFail retried failed, ?_⟩
  rintro found queried ⟨⟩
  exact yields_replaceObject retried

theorem yields_putObjectAttempt {bucketId : Int} {row : ObjectRow} {left : Nat}
    {tables : Tables} {again : MetaM indexed (Result (Option Bytes))}
    (retried : Yields faulty (PutObjectPost indexed bucketId row tables caches) again tables
      none caches) :
    Yields faulty (PutObjectPost indexed bucketId row tables caches)
      (putObjectAttempt bucketId row left again) tables none caches := by
  have failed : ∀ status, PutObjectPost indexed bucketId row tables caches (.error status)
      tables caches := fun _ => ⟨rfl, rfl⟩
  refine ⟨fun err _ => yields_retryOrFail retried failed, ?_⟩
  rintro answered writes ⟨⟩
  constructor
  · intro err _
    -- The row is there, or the engine says so: overwrite it in a second transaction.
    change Yields faulty _ (if isDuplicateKeyError err then putObjectSlow bucketId row left again
      else retryOrFail left again err err) tables none caches
    split
    · exact yields_putObjectSlow retried
    · exact yields_retryOrFail retried failed
  · intro answered writes evaluated
    obtain ⟨free, written⟩ := insertObject_eval evaluated
    refine ⟨fun _ err => yields_retryOrFail retried failed, ?_⟩
    subst written
    have fresh : tables.objects.lookup (bucketId, indexed row.objectKey) = none := free
    refine ⟨?_, ?_, .inr ⟨rfl, free⟩⟩
    · simp [Tables.putObject, Tables.upserted, Tables.move, Tables.gain, objectCas_of_free, fresh]
    · rw [objectCas_of_free fresh, Tables.freed_nil]

theorem yields_putObjectLoop (bucketId : Int) (row : ObjectRow) (tables : Tables)
    (attempts : Nat) :
    Yields faulty (PutObjectPost indexed bucketId row tables caches)
      (putObjectLoop bucketId row attempts : MetaM indexed _) tables none caches := by
  induction attempts with
  | zero => exact ⟨rfl, rfl⟩
  | succ left inductionHypothesis => exact yields_putObjectAttempt inductionHypothesis

/-- A failed `DeleteObjectWithRefCount` changes nothing; a successful one removes the row and
its reference, and reports the blob when it is free. -/
def DeleteObjectPost (indexed : Bytes → Bytes) (bucketId : Int) (key : Bytes)
    (tables : Tables) (caches : Caches) :
    Result (Option Bytes) → Tables → Caches → Prop
  | .error _, after, cachesAfter => after = tables ∧ cachesAfter = caches
  | .ok candidate, after, _ => ∃ row, tables.findObject indexed bucketId key = some row ∧
      after = tables.removeObject indexed bucketId key row.casKey ∧
      candidate = after.freed row.casKey []

theorem yields_dropReference {α : Type} {post : α → Tables → Caches → Prop} {casKey : Bytes}
    {tables work : Tables} {next : Except SqlError (Option Bytes) → MetaM indexed α}
    {lowered : Tables}
    (failed : ∀ err copy, Yields faulty post (next (.error err)) tables (some copy) caches)
    (loweredEq : (if casKey.isEmpty then work else work.lose casKey) = lowered)
    (done : Yields faulty post (next (.ok (lowered.freed casKey []))) tables (some lowered)
      caches) :
    Yields faulty post (dropReference casKey >>= next) tables (some work) caches := by
  unfold dropReference
  split
  · rename_i empty
    rw [if_pos empty] at loweredEq
    subst lowered
    simpa [Tables.freed, empty] using done
  · rename_i nonempty
    rw [if_neg nonempty] at loweredEq
    refine ⟨fun err _ => failed err work, ?_⟩
    intro answered writes evaluated
    have lost : work.applyAll writes = lowered :=
      (decrementRefCount_eval evaluated).trans loweredEq
    simp only [Option.map_some, lost]
    refine ⟨fun err _ => failed err _, ?_⟩
    rintro refCount queried ⟨⟩
    have named : casKey ≠ [] := by simpa using nonempty
    rw [Tables.freed_of_ne nonempty named] at done
    exact done

/-- `DeleteObjectWithRefCount`. -/
theorem yields_deleteObjectWithRefCount (bucketId : Int) (key : Bytes) (tables : Tables) :
    Yields faulty (DeleteObjectPost indexed bucketId key tables caches)
      ((MetaCall.deleteObjectWithRefCount bucketId key).code indexed) tables none caches := by
  refine ⟨fun err _ => ⟨rfl, rfl⟩, ?_⟩
  rintro found queried ⟨⟩
  simp only [Option.getD_none, Option.getD_some]
  cases stored : tables.findObject indexed bucketId key with
  | none => exact ⟨rfl, rfl⟩
  | some row =>
      refine ⟨fun err _ => ⟨rfl, rfl⟩, ?_⟩
      intro affected writes evaluated
      simp only [Stmt.eval, Option.getD_some, Option.map_some, Tables.applyAll_nil, stored] at evaluated
      cases evaluated
      refine yields_dropReference (fun err copy => ⟨rfl, rfl⟩) rfl ?_
      exact ⟨fun _ err => ⟨rfl, rfl⟩, fun _ => ⟨row, stored, rfl, rfl⟩⟩

/-- A failed `PutPartWithRefCount` changes nothing; a successful one stores the row, moves the
reference, and reports the old blob when it is free. -/
def PutPartPost (uploadId : Bytes) (partNumber : Int) (row : PartRow) (tables : Tables) :
    Result (Option Bytes) → Tables → Prop
  | .error _, after => after = tables
  | .ok candidate, after => after = tables.putPart uploadId partNumber row ∧
      candidate = after.freed (tables.partCas uploadId partNumber) row.casKey ∧
      (tables.multipartUploads.lookup uploadId).isSome

theorem upsertPart_eval {uploadId : Bytes} {partNumber : Int} {row : PartRow} {work : Tables}
    {answered : Unit} {writes : List Write}
    (evaluated : (Stmt.upsertPart uploadId partNumber row).eval indexed work =
      .ok (answered, writes)) :
    (work.multipartUploads.lookup uploadId).isSome ∧
      writes = [.part (uploadId, partNumber) (some row)] := by
  simp only [Stmt.eval] at evaluated
  split at evaluated
  · contradiction
  · rename_i parents
    cases evaluated
    rw [not_or, Bool.not_eq_true, Option.isNone_eq_false_iff] at parents
    exact ⟨parents.1, rfl⟩

theorem yields_replacePart {uploadId : Bytes} {partNumber : Int} {row : PartRow} {left : Nat}
    {tables : Tables} {again : MetaM indexed (Result (Option Bytes))}
    (retried : Yields faulty (fun answer after cachesAfter =>
      PutPartPost uploadId partNumber row tables answer after ∧ cachesAfter = caches) again tables
      none caches) :
    Yields faulty (fun answer after cachesAfter =>
      PutPartPost uploadId partNumber row tables answer after ∧ cachesAfter = caches)
      (replacePart uploadId partNumber row left again (tables.partCas uploadId partNumber))
      tables (some tables) caches := by
  have failed : ∀ status, PutPartPost uploadId partNumber row tables (.error status) tables ∧
      caches = caches := fun _ => ⟨rfl, rfl⟩
  refine yields_moveReference (fun _ err copy => yields_retryOrFail retried failed) ?_
  refine ⟨fun err _ => yields_retryOrFail retried failed, ?_⟩
  intro answered writes evaluated
  obtain ⟨parent, written⟩ := upsertPart_eval evaluated
  refine ⟨fun _ err => yields_retryOrFail retried failed, ?_⟩
  subst written
  exact ⟨⟨rfl, rfl, by simpa using parent⟩, rfl⟩

theorem yields_putPartAttempt {uploadId : Bytes} {partNumber : Int} {row : PartRow} {left : Nat}
    {tables : Tables} {again : MetaM indexed (Result (Option Bytes))}
    (retried : Yields faulty (fun answer after cachesAfter =>
      PutPartPost uploadId partNumber row tables answer after ∧ cachesAfter = caches) again tables
      none caches) :
    Yields faulty (fun answer after cachesAfter =>
      PutPartPost uploadId partNumber row tables answer after ∧ cachesAfter = caches)
      (putPartAttempt uploadId partNumber row left again) tables none caches := by
  have failed : ∀ status, PutPartPost uploadId partNumber row tables (.error status) tables ∧
      caches = caches := fun _ => ⟨rfl, rfl⟩
  refine ⟨fun err _ => yields_retryOrFail retried failed, ?_⟩
  rintro found queried ⟨⟩
  exact yields_replacePart retried

theorem yields_putPartLoop (uploadId : Bytes) (partNumber : Int) (row : PartRow)
    (tables : Tables) (attempts : Nat) :
    Yields faulty (fun answer after cachesAfter =>
      PutPartPost uploadId partNumber row tables answer after ∧ cachesAfter = caches)
      (putPartLoop uploadId partNumber row attempts : MetaM indexed _) tables none caches := by
  induction attempts with
  | zero => exact ⟨rfl, rfl⟩
  | succ left inductionHypothesis => exact yields_putPartAttempt inductionHypothesis

end Transactions

/-! ## All calls -/

namespace Tables

/-- What `CanDeleteCasBlob` checks. -/
def reclaimable (casKey : Bytes) (tables : Tables) : Bool :=
  decide ((tables.casBlobs.lookup casKey).map CasBlobRow.refCount = some 0 ∧
    tables.objectRefs casKey = 0 ∧ tables.partRefs casKey = 0)

/-- The part list that `ListParts` answers from. -/
def listedParts (uploadId : Bytes) (marker limit : Int) (tables : Tables) :
    List (Int × PartRow) :=
  (((tables.partsOf uploadId).filter fun part => marker < part.1).insertionSort
    fun one two => one.1 ≤ two.1).take limit.toNat

/-- What `GetObject` finds: a cached value with a blob, or the row. -/
def foundObject (indexed : Bytes → Bytes) (bucketId : Int) (key : Bytes) (tables : Tables)
    (caches : Caches) : Option ObjectInfo :=
  ((caches.redis.bind fun redis => redis.lookup (bucketId, key)).filter
    fun info => !info.sha256Hash.isEmpty) <|>
    (tables.findObject indexed bucketId key).map (ObjectRow.read bucketId)

/-- What `GetBucket` finds: a cached value, or the row. -/
def foundBucket (name : Bytes) (tables : Tables) (caches : Caches) : Option BucketInfo :=
  caches.bucketCache.lookup name <|>
    (tables.buckets.rows.find? fun entry => entry.2 = name).map fun entry =>
      ⟨entry.1, entry.2.cString, []⟩

end Tables

/-- The answer of a query that finds something or not, unless its statement fails. -/
def Answers {α : Type} (faulty : Prop) (found : Option α) (missing : ErrorCode)
    (answer : Result α) : Prop :=
  (faulty ∧ ∃ message, answer = .err .DatabaseError message) ∨
    match found with
    | some value => answer = .ok value
    | none => ∃ message, answer = .err missing message

namespace MetaCall

variable (indexed : Bytes → Bytes)

/-- What a call answers and leaves behind. -/
def Effect (faulty : Prop) (tables : Tables) (caches : Caches) :
    (call : MetaCall) → call.Ans → Tables → Caches → Prop
  | .createBucket name _, answer, after, _ =>
      match answer with
      | .error _ => after = tables
      | .ok id => after = tables.apply (.bucket id (some name))
  | .getBucket name, answer, after, cachesAfter =>
      after = tables ∧ cachesAfter.redis = caches.redis ∧
        Answers faulty (tables.foundBucket name caches) .NoSuchBucket answer ∧
        ∀ info, answer = .ok info → 0 ∉ name → cachesAfter.bucketCache.lookup name = some info
  | .getBucketById id, answer, after, cachesAfter =>
      after = tables ∧ cachesAfter = caches ∧
        Answers faulty ((tables.buckets.lookup id).map fun name => ⟨id, name.cString, []⟩)
          .NoSuchBucket answer
  | .listBuckets, _, after, cachesAfter => after = tables ∧ cachesAfter.redis = caches.redis
  | .deleteBucket name, answer, after, cachesAfter =>
      cachesAfter.redis = caches.redis ∧
        Answers faulty ((tables.bucketNamed name).map fun _ => ()) .NoSuchBucket answer ∧
        after = if answer.isOk then
          tables.applyAll ((tables.bucketNamed name).elim [] fun bucket =>
            tables.bucketCascade bucket.1) else tables
  | .isBucketEmpty bucketId, answer, after, cachesAfter =>
      after = tables ∧ cachesAfter = caches ∧
        Answers faulty (some (tables.objects.count (fun entry _ => entry.1 = bucketId) == 0))
          .DatabaseError answer
  | .putObjectWithRefCount bucketId key size etag contentType sha256Hash, answer, after,
      cachesAfter =>
      PutObjectPost indexed bucketId ⟨key, sha256Hash, size, contentType, etag⟩ tables caches
        answer after cachesAfter
  | .getObject bucketId key, answer, after, _ =>
      after = tables ∧
        Answers faulty (tables.foundObject indexed bucketId key caches) .NoSuchKey answer
  | .listObjects _ _ _ _, _, after, cachesAfter => after = tables ∧ cachesAfter = caches
  | .deleteObjectWithRefCount bucketId key, answer, after, cachesAfter =>
      DeleteObjectPost indexed bucketId key tables caches answer after cachesAfter
  | .getCasBlob sha256Hash, answer, after, cachesAfter =>
      after = tables ∧ cachesAfter = caches ∧
        Answers faulty (tables.casBlobs.lookup sha256Hash) .NoSuchKey answer
  | .decrementRefCountAndCheckZero sha256Hash, answer, after, cachesAfter =>
      cachesAfter = caches ∧
        ((faulty ∧ after = tables ∧ ∃ message, answer = .err .DatabaseError message) ∨
          after = tables.lose sha256Hash ∧
            Answers faulty (((tables.lose sha256Hash).casBlobs.lookup sha256Hash).map
              fun row => row.refCount == 0) .NoSuchKey answer)
  | .deleteCasBlob sha256Hash, answer, after, cachesAfter =>
      cachesAfter = caches ∧
        match answer with
        | .error _ => after = tables
        | .ok () => tables.objectRefs sha256Hash = 0 ∧ tables.partRefs sha256Hash = 0 ∧
            after = tables.apply (.casBlob sha256Hash none)
  | .canDeleteCasBlob sha256Hash, answer, after, cachesAfter =>
      after = tables ∧ cachesAfter = caches ∧
        Answers faulty (some (tables.reclaimable sha256Hash)) .DatabaseError answer
  | .createMultipartUpload uploadId bucketId key contentType expiresAt, answer, after,
      cachesAfter =>
      cachesAfter = caches ∧
        match answer with
        | .error _ => after = tables
        | .ok _ => after =
            tables.apply (.upload uploadId (some ⟨bucketId, key, contentType, expiresAt⟩))
  | .getMultipartUpload uploadId, answer, after, cachesAfter =>
      after = tables ∧ cachesAfter = caches ∧
        Answers faulty ((tables.multipartUploads.lookup uploadId).map (UploadRow.read uploadId))
          .NoSuchUpload answer
  | .deleteMultipartUpload uploadId, answer, after, cachesAfter =>
      cachesAfter = caches ∧
        Answers faulty ((tables.multipartUploads.lookup uploadId).map fun _ => ()) .NoSuchUpload
          answer ∧
        after = if answer.isOk then tables.removeUpload uploadId else tables
  | .putPartWithRefCount uploadId partNumber sha256Hash size etag, answer, after, _ =>
      PutPartPost uploadId partNumber ⟨sha256Hash, size, etag⟩ tables answer after
  | .listParts uploadId marker maxParts, answer, after, cachesAfter =>
      after = tables ∧ cachesAfter = caches ∧
        ((faulty ∧ ∃ message, answer = .err .DatabaseError message) ∨
          ∃ listed, answer = .ok listed ∧
            listed.parts = ((tables.listedParts uploadId marker (maxParts + 1)).take
              maxParts.toNat).map fun part =>
                ⟨uploadId, part.1, part.2.casKey, part.2.size, part.2.etag⟩)
  | .checkIdempotency _, _, after, cachesAfter => after = tables ∧ cachesAfter = caches
  | .recordIdempotency idempotencyKey _ _ _ _, answer, after, cachesAfter =>
      cachesAfter = caches ∧
        match answer with
        | .error _ => after = tables
        | .ok () => ∃ row, after = tables.apply (.idempotency idempotencyKey (some row))

variable {indexed}

section Calls

variable (faulty : Prop) (tables : Tables) (caches : Caches)

/-- A statement that only reads, and reports its own failure. -/
theorem answers_failed {α : Type} {found : Option α} {missing : ErrorCode} {err : SqlError}
    {failed : Prop} (noError : ¬failed) (mayFail : faulty ∨ failed) :
    Answers faulty found missing (.err .DatabaseError err) :=
  .inl ⟨mayFail.resolve_right noError, err, rfl⟩

theorem yields_createBucket (name ownerId : Bytes) :
    Yields faulty ((createBucket name ownerId).Effect indexed faulty tables caches)
      ((createBucket name ownerId).code indexed) tables none caches := by
  constructor
  · intro err _
    change Yields faulty _ (if Bytes.contains err (ascii "Duplicate") then _ else _) tables none
      caches
    split <;> exact rfl
  · intro id writes evaluated
    simp only [Stmt.eval, Option.getD_none] at evaluated
    split at evaluated
    · contradiction
    · cases evaluated
      exact fun _ => rfl

theorem yields_getBucket (name : Bytes) :
    Yields faulty ((getBucket name).Effect indexed faulty tables caches)
      ((getBucket name).code indexed) tables none caches := by
  intro clock
  simp only [Caches.answer]
  cases cached : caches.bucketCache.lookup name with
  | some info =>
      refine ⟨rfl, rfl, .inr ?_, ?_⟩
      · simp [Tables.foundBucket, cached]
      · rintro other ⟨⟩ -
        exact cached
  | none =>
      constructor
      · intro err failed
        refine ⟨rfl, rfl, answers_failed faulty (by simp [Stmt.eval]) failed, ?_⟩
        rintro info ⟨⟩
      · rintro found writes ⟨⟩
        simp only [Option.getD_none]
        cases stored : tables.buckets.rows.find? fun entry => entry.2 = name with
        | none =>
            refine ⟨rfl, rfl, .inr ?_, ?_⟩
            · simp only [Tables.foundBucket, cached, stored, Option.map_none]
              exact ⟨_, rfl⟩
            · rintro info ⟨⟩
        | some entry =>
            intro clock
            refine ⟨rfl, rfl, .inr ?_, ?_⟩
            · simp [Tables.foundBucket, cached, stored]
            · rintro info ⟨⟩ plain
              have sameName : entry.2 = name := by simpa using List.find?_some stored
              have whole : name.cString = name := Bytes.cString_eq_self_iff.mpr plain
              simp [Caches.answer, sameName, whole]

theorem yields_getBucketById (id : Int) :
    Yields faulty ((getBucketById id).Effect indexed faulty tables caches)
      ((getBucketById id).code indexed) tables none caches := by
  constructor
  · intro err failed
    exact ⟨rfl, rfl, answers_failed faulty (by simp [Stmt.eval]) failed⟩
  · rintro found writes ⟨⟩
    simp only [Option.getD_none]
    cases stored : tables.buckets.lookup id with
    | none => exact ⟨rfl, rfl, .inr (by rw [stored]; exact ⟨_, rfl⟩)⟩
    | some name => exact ⟨rfl, rfl, .inr (by rw [stored]; rfl)⟩

theorem yields_listBuckets :
    Yields faulty (listBuckets.Effect indexed faulty tables caches)
      (listBuckets.code indexed) tables none caches := by
  constructor
  · intro err failed
    exact ⟨rfl, rfl⟩
  · rintro rows writes ⟨⟩ clock
    exact ⟨rfl, rfl⟩

theorem yields_deleteBucket (name : Bytes) :
    Yields faulty ((deleteBucket name).Effect indexed faulty tables caches)
      ((deleteBucket name).code indexed) tables none caches := by
  constructor
  · intro err failed
    refine ⟨rfl, answers_failed faulty ?_ failed, rfl⟩
    simp only [Stmt.eval]
    split <;> simp
  · intro affected writes evaluated
    rcases Stmt.deleteBucket_writes indexed evaluated with
      ⟨rfl, rfl, missing⟩ | ⟨bucket, named, rfl, rfl⟩
    · refine ⟨rfl, .inr ?_, rfl⟩
      rw [Option.getD_none] at missing
      rw [missing]
      exact ⟨_, rfl⟩
    · rw [Option.getD_none] at named
      intro clock
      refine ⟨rfl, .inr ?_, ?_⟩
      · rw [named]
        rfl
      · simp only [named, Option.elim_some]
        rfl

theorem yields_isBucketEmpty (bucketId : Int) :
    Yields faulty ((isBucketEmpty bucketId).Effect indexed faulty tables caches)
      ((isBucketEmpty bucketId).code indexed) tables none caches := by
  constructor
  · intro err failed
    exact ⟨rfl, rfl, answers_failed faulty (by simp [Stmt.eval]) failed⟩
  · rintro count writes ⟨⟩
    exact ⟨rfl, rfl, .inr rfl⟩

theorem yields_listObjects (bucketId : Int) (keyPrefix startAfter : Bytes) (maxKeys : Int) :
    Yields faulty ((listObjects bucketId keyPrefix startAfter maxKeys).Effect indexed faulty
      tables caches)
      ((listObjects bucketId keyPrefix startAfter maxKeys).code indexed) tables none caches := by
  constructor
  · intro err failed
    exact ⟨rfl, rfl⟩
  · rintro rows writes ⟨⟩
    dsimp only [Program.bind]
    split <;> exact ⟨rfl, rfl⟩

theorem yields_getObject_fromDatabase (bucketId : Int) (key : Bytes) {tried : Caches}
    (missed : (caches.redis.bind fun redis => redis.lookup (bucketId, key)).filter
      (fun info => !info.sha256Hash.isEmpty) = none) :
    Yields faulty ((getObject bucketId key).Effect indexed faulty tables caches)
      (MetaStore.getObject.fromDatabase bucketId key : MetaM indexed _) tables none tried := by
  constructor
  · intro err failed
    exact ⟨rfl, answers_failed faulty (by simp [Stmt.eval]) failed⟩
  · rintro found writes ⟨⟩
    simp only [Option.getD_none]
    cases stored : tables.findObject indexed bucketId key with
    | none =>
        refine ⟨rfl, .inr ?_⟩
        simp only [Tables.foundObject, missed, stored, Option.map_none]
        exact ⟨_, rfl⟩
    | some row =>
        intro clock
        refine ⟨rfl, .inr ?_⟩
        simp only [Tables.foundObject, missed, stored, Option.map_some]
        rfl

theorem yields_getObject (bucketId : Int) (key : Bytes) :
    Yields faulty ((getObject bucketId key).Effect indexed faulty tables caches)
      ((getObject bucketId key).code indexed) tables none caches := by
  intro clock
  simp only [Caches.answer]
  cases cached : caches.redis.bind fun redis => redis.lookup (bucketId, key) with
  | none =>
      exact yields_getObject_fromDatabase faulty tables caches bucketId key
        (by rw [cached]; rfl)
  | some info =>
      by_cases empty : info.sha256Hash.isEmpty = true
      · change Yields faulty _ (if info.sha256Hash.isEmpty then _ else _) tables none caches
        rw [if_pos empty]
        intro clock
        exact yields_getObject_fromDatabase faulty tables caches bucketId key
          (by rw [cached]; simpa using empty)
      · change Yields faulty _ (if info.sha256Hash.isEmpty then _ else _) tables none caches
        rw [if_neg empty]
        refine ⟨rfl, .inr ?_⟩
        simp only [Tables.foundObject, cached, Option.filter_some, empty, Bool.not_false,
          if_true]
        rfl

theorem yields_getCasBlob (sha256Hash : Bytes) :
    Yields faulty ((getCasBlob sha256Hash).Effect indexed faulty tables caches)
      ((getCasBlob sha256Hash).code indexed) tables none caches := by
  constructor
  · intro err failed
    exact ⟨rfl, rfl, answers_failed faulty (by simp [Stmt.eval]) failed⟩
  · rintro found writes ⟨⟩
    simp only [Option.getD_none]
    cases stored : tables.casBlobs.lookup sha256Hash with
    | none => exact ⟨rfl, rfl, .inr (by rw [stored]; exact ⟨_, rfl⟩)⟩
    | some row => exact ⟨rfl, rfl, .inr (by rw [stored])⟩

theorem yields_decrementRefCountAndCheckZero (sha256Hash : Bytes) :
    Yields faulty ((decrementRefCountAndCheckZero sha256Hash).Effect indexed faulty tables caches)
      ((decrementRefCountAndCheckZero sha256Hash).code indexed) tables none caches := by
  constructor
  · intro err failed
    exact ⟨rfl, .inl ⟨failed.resolve_right decrementRefCount_ne_error, rfl, err, rfl⟩⟩
  · intro answered writes evaluated
    have lost := decrementRefCount_eval evaluated
    simp only [Option.getD_none] at lost
    simp only [Option.isSome_none, Option.map_none, lost, Bool.false_eq_true, if_false]
    constructor
    · intro err failed
      exact ⟨rfl, .inr ⟨rfl, answers_failed faulty (by simp [Stmt.eval]) failed⟩⟩
    · rintro found queried ⟨⟩
      simp only [Option.getD_none]
      cases stored : (tables.lose sha256Hash).casBlobs.lookup sha256Hash with
      | none => exact ⟨rfl, .inr ⟨rfl, .inr (by rw [stored]; exact ⟨_, rfl⟩)⟩⟩
      | some row => exact ⟨rfl, .inr ⟨rfl, .inr (by rw [stored]; rfl)⟩⟩

theorem yields_deleteCasBlob (sha256Hash : Bytes) :
    Yields faulty ((deleteCasBlob sha256Hash).Effect indexed faulty tables caches)
      ((deleteCasBlob sha256Hash).code indexed) tables none caches := by
  constructor
  · intro err _
    exact ⟨rfl, rfl⟩
  · intro answered writes evaluated
    simp only [Stmt.eval, Option.getD_none] at evaluated
    split at evaluated
    · contradiction
    · rename_i free
      cases evaluated
      rw [not_or, not_not, not_not] at free
      exact ⟨rfl, free.1, free.2, rfl⟩

theorem yields_commitWith (sha256Hash : Bytes) {reclaimable : Bool} {copy : Tables}
    (same : copy = tables) (checked : reclaimable = tables.reclaimable sha256Hash) :
    Yields faulty ((canDeleteCasBlob sha256Hash).Effect indexed faulty tables caches)
      (MetaStore.canDeleteCasBlob.commitWith reclaimable : MetaM indexed _) tables (some copy)
      caches := by
  subst same checked
  exact ⟨fun mayFail _ => ⟨rfl, rfl, .inl ⟨mayFail, _, rfl⟩⟩, rfl, rfl, .inr rfl⟩

theorem yields_canDeleteCasBlob (sha256Hash : Bytes) :
    Yields faulty ((canDeleteCasBlob sha256Hash).Effect indexed faulty tables caches)
      ((canDeleteCasBlob sha256Hash).code indexed) tables none caches := by
  have failed : ∀ err, faulty ∨ False → (canDeleteCasBlob sha256Hash).Effect indexed faulty
      tables caches (.err .DatabaseError err) tables caches :=
    fun err mayFail => ⟨rfl, rfl, .inl ⟨mayFail.resolve_right id, err, rfl⟩⟩
  refine ⟨fun err mayFail => failed err (by simpa [Stmt.eval] using mayFail), ?_⟩
  rintro found writes ⟨⟩
  simp only [Option.getD_none, Option.getD_some]
  cases stored : tables.casBlobs.lookup sha256Hash with
  | none => exact yields_commitWith faulty tables caches sha256Hash rfl (by simp [Tables.reclaimable, stored])
  | some row =>
      change Yields faulty _ (if row.refCount ≠ 0 then _ else _) tables (some tables) caches
      split
      · rename_i counted
        exact yields_commitWith faulty tables caches sha256Hash rfl
          (by simp [Tables.reclaimable, stored, counted])
      · rename_i uncounted
        refine ⟨fun err mayFail => failed err (by simpa [Stmt.eval] using mayFail), ?_⟩
        rintro objectCount objectWrites ⟨⟩
        change Yields faulty _ (if tables.objectRefs sha256Hash > 0 then _ else _) tables
          (some tables) caches
        split
        · rename_i referred
          exact yields_commitWith faulty tables caches sha256Hash rfl
            (by simp [Tables.reclaimable, Nat.ne_of_gt referred])
        · rename_i unreferred
          refine ⟨fun err mayFail => failed err (by simpa [Stmt.eval] using mayFail), ?_⟩
          rintro partCount partWrites ⟨⟩
          refine yields_commitWith faulty tables caches sha256Hash rfl ?_
          rw [not_not] at uncounted
          have free : tables.objectRefs sha256Hash = 0 := by omega
          simp only [Tables.reclaimable, stored, uncounted, free, Option.map_some, true_and]
          rfl

theorem yields_createMultipartUpload (uploadId : Bytes) (bucketId : Int) (key contentType : Bytes)
    (expiresAt : Int) :
    Yields faulty ((createMultipartUpload uploadId bucketId key contentType expiresAt).Effect
      indexed faulty tables caches)
      ((createMultipartUpload uploadId bucketId key contentType expiresAt).code indexed) tables
      none caches := by
  constructor
  · intro err _
    exact ⟨rfl, rfl⟩
  · intro answered writes evaluated
    simp only [Stmt.eval, Option.getD_none] at evaluated
    repeat' split at evaluated
    all_goals cases evaluated
    exact ⟨rfl, rfl⟩

theorem yields_getMultipartUpload (uploadId : Bytes) :
    Yields faulty ((getMultipartUpload uploadId).Effect indexed faulty tables caches)
      ((getMultipartUpload uploadId).code indexed) tables none caches := by
  constructor
  · intro err failed
    exact ⟨rfl, rfl, answers_failed faulty (by simp [Stmt.eval]) failed⟩
  · rintro found writes ⟨⟩
    simp only [Option.getD_none]
    cases stored : tables.multipartUploads.lookup uploadId with
    | none => exact ⟨rfl, rfl, .inr (by rw [stored]; exact ⟨_, rfl⟩)⟩
    | some row => exact ⟨rfl, rfl, .inr (by rw [stored]; rfl)⟩

theorem yields_deleteMultipartUpload (uploadId : Bytes) :
    Yields faulty ((deleteMultipartUpload uploadId).Effect indexed faulty tables caches)
      ((deleteMultipartUpload uploadId).code indexed) tables none caches := by
  constructor
  · intro err failed
    refine ⟨rfl, answers_failed faulty ?_ failed, rfl⟩
    simp only [Stmt.eval]
    split <;> simp
  · intro affected writes evaluated
    simp only [Stmt.eval, Option.getD_none] at evaluated
    cases stored : tables.multipartUploads.lookup uploadId with
    | none =>
        rw [stored] at evaluated
        cases evaluated
        exact ⟨rfl, .inr (by rw [stored]; exact ⟨_, rfl⟩), rfl⟩
    | some row =>
        rw [stored] at evaluated
        cases evaluated
        exact ⟨rfl, .inr (by rw [stored]; rfl), rfl⟩

theorem yields_listParts (uploadId : Bytes) (marker maxParts : Int) :
    Yields faulty ((listParts uploadId marker maxParts).Effect indexed faulty tables caches)
      ((listParts uploadId marker maxParts).code indexed) tables none caches := by
  constructor
  · intro err failed
    exact ⟨rfl, rfl, .inl ⟨failed.resolve_right (by simp [Stmt.eval]), err, rfl⟩⟩
  · rintro rows writes ⟨⟩
    simp only [Option.getD_none]
    dsimp only [Program.bind]
    split
    · exact ⟨rfl, rfl, .inr ⟨_, rfl, rfl⟩⟩
    · exact ⟨rfl, rfl, .inr ⟨_, rfl, rfl⟩⟩

theorem yields_checkIdempotency (idempotencyKey : Bytes) :
    Yields faulty ((checkIdempotency idempotencyKey).Effect indexed faulty tables caches)
      ((checkIdempotency idempotencyKey).code indexed) tables none caches := by
  constructor
  · intro err _
    exact ⟨rfl, rfl⟩
  · rintro found writes ⟨⟩
    simp only [Option.getD_none]
    cases stored : tables.idempotencyRecords.lookup idempotencyKey with
    | none => exact ⟨rfl, rfl⟩
    | some record =>
        intro shown now
        change Yields faulty _ (if _ ≤ _ then _ else _) tables none caches
        split <;> exact ⟨rfl, rfl⟩

theorem yields_recordIdempotency (idempotencyKey requestHash : Bytes) (responseStatus : Int)
    (responseBody : Bytes) (ttlSeconds : Int) :
    Yields faulty ((recordIdempotency idempotencyKey requestHash responseStatus responseBody
      ttlSeconds).Effect indexed faulty tables caches)
      ((recordIdempotency idempotencyKey requestHash responseStatus responseBody ttlSeconds).code
        indexed) tables none caches := by
  intro clock
  constructor
  · intro err _
    exact ⟨rfl, rfl⟩
  · rintro answered writes ⟨⟩
    exact ⟨rfl, _, rfl⟩

end Calls

/-- Every call has its effect, whatever fails. -/
theorem yields (call : MetaCall) (faulty : Prop) (tables : Tables) (caches : Caches) :
    Yields faulty (call.Effect indexed faulty tables caches) (call.code indexed) tables none
      caches := by
  cases call with
  | createBucket name ownerId => exact yields_createBucket ..
  | getBucket name => exact yields_getBucket faulty tables caches name
  | getBucketById id => exact yields_getBucketById ..
  | listBuckets => exact yields_listBuckets ..
  | deleteBucket name => exact yields_deleteBucket ..
  | isBucketEmpty bucketId => exact yields_isBucketEmpty ..
  | putObjectWithRefCount bucketId key size etag contentType sha256Hash =>
      exact yields_putObjectLoop bucketId _ tables kMaxRetries
  | getObject bucketId key => exact yields_getObject faulty tables caches bucketId key
  | listObjects bucketId keyPrefix startAfter maxKeys =>
      exact yields_listObjects faulty tables caches bucketId keyPrefix startAfter maxKeys
  | deleteObjectWithRefCount bucketId key =>
      exact yields_deleteObjectWithRefCount bucketId key tables
  | getCasBlob sha256Hash => exact yields_getCasBlob ..
  | decrementRefCountAndCheckZero sha256Hash =>
      exact yields_decrementRefCountAndCheckZero ..
  | deleteCasBlob sha256Hash => exact yields_deleteCasBlob ..
  | canDeleteCasBlob sha256Hash => exact yields_canDeleteCasBlob ..
  | createMultipartUpload uploadId bucketId key contentType expiresAt =>
      exact yields_createMultipartUpload ..
  | getMultipartUpload uploadId => exact yields_getMultipartUpload ..
  | deleteMultipartUpload uploadId => exact yields_deleteMultipartUpload ..
  | putPartWithRefCount uploadId partNumber sha256Hash size etag =>
      exact (yields_putPartLoop uploadId partNumber _ tables kMaxRetries).mono
        fun _ _ _ done => done.1
  | listParts uploadId marker maxParts => exact yields_listParts ..
  | checkIdempotency idempotencyKey => exact yields_checkIdempotency ..
  | recordIdempotency idempotencyKey requestHash responseStatus responseBody ttlSeconds =>
      exact yields_recordIdempotency faulty tables caches idempotencyKey requestHash
        responseStatus responseBody ttlSeconds

/-- What a call does when it runs alone. -/
theorem effect_perform (call : MetaCall) {faulty : Prop} {faults : List (Option SqlError)}
    (clock : Clock) (tables : Tables) (caches : Caches) (mayFail : faulty ∨ faults = []) :
    call.Effect indexed faulty tables caches (call.perform indexed faults clock tables caches).1
      (call.perform indexed faults clock tables caches).2.1
      (call.perform indexed faults clock tables caches).2.2 := by
  have alone : Yields faulty (call.Effect indexed faulty tables caches) (call.code indexed)
      (⟨tables, none, caches, faults, clock⟩ : Alone).tables none caches :=
    call.yields faulty tables caches
  exact Yields.run _ alone mayFail

/-! ## Idempotency records, when nothing fails -/

/-- A query in a call that runs alone, when nothing fails. -/
theorem run_query {α : Type} {stmt : Stmt} {answered : stmt.Ans} {state : Alone}
    (evaluated : stmt.eval indexed state.view = .ok (answered, []))
    (faultless : state.faults = []) (next : Except SqlError stmt.Ans → MetaM indexed α) :
    Program.run (Alone.answer indexed) (MetaM.exec stmt >>= next) state =
      Program.run (Alone.answer indexed) (next (.ok answered)) state := by
  have performed : Alone.answer indexed (.exec stmt) state = (.ok answered, state) := by
    simp only [Alone.answer, faultless, List.head?_nil, Option.join_none, evaluated]
    rcases state with ⟨tables, _ | work, caches, faults, clock⟩ <;> cases faultless <;> rfl
  change Program.run (Alone.answer indexed) (next _) _ = _
  rw [performed]

/-- The record of a key, unless its time has passed. -/
def liveRecord (clock : Clock) (tables : Tables) (key : Bytes) : Option IdempotencyRow :=
  (tables.idempotencyRecords.lookup key).bind fun record =>
    if record.expiresAt - clock.standardOffset ≤ clock.now then none
    else some { record with expiresAt := record.expiresAt - clock.standardOffset }

theorem perform_checkIdempotency (key : Bytes) (clock : Clock) (tables : Tables)
    (caches : Caches) :
    (checkIdempotency key).perform indexed [] clock tables caches =
      (.ok (liveRecord clock tables key), tables, caches) := by
  have queried : (Stmt.selectIdempotency key).eval indexed tables =
      .ok (tables.idempotencyRecords.lookup key, []) := rfl
  simp only [perform, code, MetaStore.checkIdempotency, liveRecord]
  rw [run_query queried rfl]
  cases tables.idempotencyRecords.lookup key with
  | none => rfl
  | some record =>
      change (fun done : Result (Option IdempotencyRow) × Alone =>
        (done.1, done.2.tables, done.2.caches)) (Program.run (Alone.answer indexed)
          (if record.expiresAt - clock.standardOffset ≤ clock.now then _ else _ :
            MetaM indexed (Result (Option IdempotencyRow))) _) = _
      by_cases expired : record.expiresAt - clock.standardOffset ≤ clock.now
      · simp only [Option.bind_some, if_pos expired]
        rfl
      · simp only [Option.bind_some, if_neg expired]
        rfl

theorem perform_recordIdempotency (key hash : Bytes) (status : Int) (body : Bytes)
    (ttlSeconds : Int) (clock : Clock) (tables : Tables) (caches : Caches) :
    (recordIdempotency key hash status body ttlSeconds).perform indexed [] clock tables caches =
      (.ok (), tables.apply (.idempotency key
        (some ⟨hash, status, body, clock.now + ttlSeconds⟩)), caches) :=
  rfl

end MetaCall

end MiniS3.Db
