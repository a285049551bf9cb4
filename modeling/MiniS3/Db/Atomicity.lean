import MiniS3.Db.Accounting

/-!
# Transactional writes are all or nothing

`PutObjectWithRefCount`, `DeleteObjectWithRefCount` and `PutPartWithRefCount` run
alone, with statements that fail in any pattern.  Each ends after at most three
attempts with no transaction open.  What it leaves behind is compared with a
specification in one step: the row is written, and its reference moves from the
old blob to the new one.

The comparison fails in one case.  `objects` is unique on a prefix of the key, so
the upsert of `PutObjectWithRefCount` can meet the row of another key.
-/

namespace MiniS3.Db

open Lib MetaStore

/-! ## Attempts and open transactions -/

section Discipline

variable {indexed : Bytes → Bytes} {α : Type}

/-- Where a connection stands between two operations. -/
inductive Phase
  | closed
  /-- `START TRANSACTION` was the last operation. -/
  | begun
  | opened
  deriving DecidableEq

/-- The phase after an operation. -/
def Phase.next : Phase → (engine indexed).Op → Phase
  | _, .begin => .begun
  | _, .commit => .closed
  | _, .rollback => .closed
  | .closed, _ => .closed
  | _, _ => .opened

/-- An attempt starts with `START TRANSACTION` and its first statement. -/
def Phase.starts (first : Stmt → Bool) : Phase → (engine indexed).Op → Bool
  | .begun, .exec stmt => first stmt
  | _, _ => false

/-- The number of attempts that are started. -/
def attempts (first : Stmt → Bool) : Phase → List (engine indexed).Op → Nat
  | _, [] => 0
  | phase, op :: rest => (phase.starts first op).toNat + attempts first (phase.next op) rest

/-- Whatever it is answered, the program starts at most `bound` attempts and leaves no
transaction open. -/
def Disciplined (first : Stmt → Bool) : Nat → Phase → MetaM indexed α → Prop
  | _, phase, .ret _ => phase = .closed
  | bound, phase, .call op next =>
      (phase.starts first op).toNat ≤ bound ∧
        ∀ answer, Disciplined first (bound - (phase.starts first op).toNat) (phase.next op)
          (next answer)

variable {first : Stmt → Bool} {bound : Nat}

/-- The phase tells whether a transaction is open. -/
theorem work_answer (op : (engine indexed).Op) {phase : Phase} {state : Alone}
    (tells : state.work = none ↔ phase = .closed) :
    (Alone.answer indexed op state).2.work = none ↔ phase.next op = .closed := by
  cases op with
  | begin => simp [Alone.answer, Phase.next]
  | rollback => simp [Alone.answer, Phase.next]
  | aux cacheOp => cases phase <;> simpa [Alone.answer, Phase.next] using tells
  | commit =>
      simp only [Alone.answer]
      split <;> simp [Phase.next]
  | exec stmt =>
      have same : (Alone.answer indexed (.exec stmt) state).2.work = none ↔
          state.work = none := by
        simp only [Alone.answer]
        repeat' split
        all_goals simp only [Alone.advance, Alone.write]
        split <;> simp_all
      rw [same, tells]
      cases phase <;> simp [Phase.next]

theorem Disciplined.run {program : MetaM indexed α} {phase : Phase} (state : Alone)
    (disciplined : Disciplined first bound phase program)
    (tells : state.work = none ↔ phase = .closed) :
    attempts first phase (program.trace (Alone.answer indexed) state) ≤ bound ∧
      (program.run (Alone.answer indexed) state).2.work = none := by
  induction program generalizing bound phase state with
  | ret value => exact ⟨Nat.zero_le _, tells.mpr disciplined⟩
  | call op next inductionHypothesis =>
      obtain ⟨within, continued⟩ := disciplined
      obtain ⟨counted, closed⟩ :=
        inductionHypothesis _ _ (continued _) (work_answer op tells)
      refine ⟨?_, closed⟩
      simp only [Program.trace, attempts]
      omega

theorem Disciplined.mono {wider : Nat} {program : MetaM indexed α} {phase : Phase}
    (disciplined : Disciplined first bound phase program) (widens : bound ≤ wider) :
    Disciplined first wider phase program := by
  induction program generalizing bound wider phase with
  | ret value => exact disciplined
  | call op next inductionHypothesis =>
      exact ⟨disciplined.1.trans widens, fun answer =>
        inductionHypothesis answer (disciplined.2 answer) (Nat.sub_le_sub_right widens _)⟩

/-! ### The functions of the metadata store -/

theorem disciplined_dropOld {oldCas newCas : Bytes}
    {next : Except SqlError (Option Bytes) → MetaM indexed α}
    (continued : ∀ result, Disciplined first bound .opened (next result)) :
    Disciplined first bound .opened (moveReference.dropOld oldCas newCas >>= next) := by
  unfold moveReference.dropOld
  split
  · refine ⟨Nat.zero_le _, fun decremented => ?_⟩
    cases decremented with
    | error err => exact continued (.error err)
    | ok =>
        refine ⟨Nat.zero_le _, fun queried => ?_⟩
        cases queried with
        | error err => exact continued (.error err)
        | ok refCount => exact continued _
  · exact continued (.ok none)

theorem disciplined_moveReference {oldCas newCas : Bytes} {size : Int}
    {next : Except SqlError (Option Bytes) → MetaM indexed α}
    (continued : ∀ result, Disciplined first bound .opened (next result)) :
    Disciplined first bound .opened (moveReference oldCas newCas size >>= next) := by
  unfold moveReference
  split
  · refine ⟨Nat.zero_le _, fun incremented => ?_⟩
    cases incremented with
    | error err => exact continued (.error err)
    | ok => exact disciplined_dropOld continued
  · exact disciplined_dropOld continued

theorem disciplined_retryOrFail {left : Nat} {again : MetaM indexed (Result α)}
    (retried : Disciplined first bound .closed again) (err message : Bytes) :
    Disciplined first bound .closed (retryOrFail left again err message) := by
  unfold retryOrFail
  split
  · exact retried
  · rfl

theorem disciplined_rollback_retryOrFail {phase : Phase} {left : Nat}
    {again : MetaM indexed (Result α)} (retried : Disciplined first bound .closed again)
    (err message : Bytes) :
    Disciplined first bound phase
      (MetaM.rollback >>= fun _ => retryOrFail left again err message) := by
  refine ⟨by cases phase <;> exact Nat.zero_le _, fun _ => ?_⟩
  cases phase <;> exact disciplined_retryOrFail retried err message

theorem disciplined_replaceObject {bucketId : Int} {row : ObjectRow} {left : Nat}
    {again : MetaM indexed (Result (Option Bytes))}
    (retried : Disciplined first bound .closed again) (oldCas : Bytes) :
    Disciplined first bound .opened (replaceObject bucketId row left again oldCas) := by
  refine disciplined_moveReference fun moved => ?_
  cases moved with
  | error err => exact disciplined_rollback_retryOrFail retried err err
  | ok candidate =>
      refine ⟨Nat.zero_le _, fun upserted => ?_⟩
      cases upserted with
      | error err => exact disciplined_rollback_retryOrFail retried err err
      | ok =>
          refine ⟨Nat.zero_le _, fun committed => ?_⟩
          cases committed with
          | error err => exact disciplined_retryOrFail retried err _
          | ok => exact ⟨Nat.zero_le _, fun _ => rfl⟩

theorem disciplined_putObjectSlow {bucketId : Int} {row : ObjectRow} {left : Nat}
    {again : MetaM indexed (Result (Option Bytes))}
    (uncounted : first (.selectObjectCasKeyForUpdate bucketId row.objectKey) = false)
    (retried : Disciplined first bound .closed again) :
    Disciplined first bound .closed (putObjectSlow bucketId row left again) := by
  refine ⟨Nat.zero_le _, fun _ => ⟨?_, fun found => ?_⟩⟩
  · simp [Phase.next, Phase.starts, uncounted]
  · simp only [Phase.next, Phase.starts, uncounted, Bool.toNat_false, Nat.sub_zero]
    cases found with
    | error err => exact disciplined_rollback_retryOrFail retried err err
    | ok found => exact disciplined_replaceObject retried _

theorem disciplined_putObjectAttempt {bucketId : Int} {row : ObjectRow} {left : Nat}
    {again : MetaM indexed (Result (Option Bytes))}
    (counted : first (.upsertCasBlob row.casKey row.size) = true)
    (uncounted : first (.selectObjectCasKeyForUpdate bucketId row.objectKey) = false)
    (retried : Disciplined first bound .closed again) :
    Disciplined first (bound + 1) .closed (putObjectAttempt bucketId row left again) := by
  refine ⟨Nat.zero_le _, fun _ => ⟨?_, fun incremented => ?_⟩⟩
  · simp [Phase.next, Phase.starts, counted]
  · simp only [Phase.next, Phase.starts, counted, Bool.toNat_false, Bool.toNat_true,
      Nat.sub_zero, Nat.add_sub_cancel]
    cases incremented with
    | error err => exact disciplined_rollback_retryOrFail retried err err
    | ok =>
        refine ⟨Nat.zero_le _, fun inserted => ?_⟩
        cases inserted with
        | ok =>
            refine ⟨Nat.zero_le _, fun committed => ?_⟩
            cases committed with
            | error err => exact disciplined_retryOrFail retried err _
            | ok => rfl
        | error err =>
            refine ⟨Nat.zero_le _, fun _ => ?_⟩
            change Disciplined first bound .closed (if isDuplicateKeyError err then _ else _)
            split
            · exact disciplined_putObjectSlow uncounted retried
            · exact disciplined_retryOrFail retried err err

theorem disciplined_putObjectLoop {bucketId : Int} {row : ObjectRow}
    (counted : first (.upsertCasBlob row.casKey row.size) = true)
    (uncounted : first (.selectObjectCasKeyForUpdate bucketId row.objectKey) = false)
    (attempts : Nat) :
    Disciplined first attempts .closed (putObjectLoop bucketId row attempts :
      MetaM indexed (Result (Option Bytes))) := by
  induction attempts with
  | zero => rfl
  | succ left inductionHypothesis =>
      exact disciplined_putObjectAttempt counted uncounted inductionHypothesis

theorem disciplined_dropReference {casKey : Bytes}
    {next : Except SqlError (Option Bytes) → MetaM indexed α}
    (continued : ∀ result, Disciplined first bound .opened (next result)) :
    Disciplined first bound .opened (dropReference casKey >>= next) := by
  unfold dropReference
  split
  · exact continued (.ok none)
  · refine ⟨Nat.zero_le _, fun decremented => ?_⟩
    cases decremented with
    | error err => exact continued (.error err)
    | ok =>
        refine ⟨Nat.zero_le _, fun queried => ?_⟩
        cases queried with
        | error err => exact continued (.error err)
        | ok refCount => exact continued _

theorem disciplined_deleteObjectWithRefCount {bucketId : Int} {key : Bytes}
    (counted : first (.selectObjectCasKeyForUpdate bucketId key) = true) :
    Disciplined first 1 .closed
      (deleteObjectWithRefCount bucketId key : MetaM indexed (Result (Option Bytes))) := by
  refine ⟨Nat.zero_le _, fun _ => ⟨?_, fun found => ?_⟩⟩
  · simp [Phase.next, Phase.starts, counted]
  · simp only [Phase.next, Phase.starts, counted, Bool.toNat_false, Bool.toNat_true,
      Nat.sub_zero, Nat.sub_self]
    match found with
    | .error err => exact ⟨Nat.zero_le _, fun _ => rfl⟩
    | .ok none => exact ⟨Nat.zero_le _, fun _ => rfl⟩
    | .ok (some casKey) =>
        refine ⟨Nat.zero_le _, fun deleted => ?_⟩
        cases deleted with
        | error err => exact ⟨Nat.zero_le _, fun _ => rfl⟩
        | ok affected =>
            refine disciplined_dropReference fun dropped => ?_
            cases dropped with
            | error err => exact ⟨Nat.zero_le _, fun _ => rfl⟩
            | ok candidate =>
                refine ⟨Nat.zero_le _, fun committed => ?_⟩
                cases committed with
                | error err => rfl
                | ok => exact ⟨Nat.zero_le _, fun _ => rfl⟩

theorem disciplined_replacePart {uploadId : Bytes} {partNumber : Int} {row : PartRow}
    {left : Nat} {again : MetaM indexed (Result (Option Bytes))}
    (retried : Disciplined first bound .closed again) (oldCas : Bytes) :
    Disciplined first bound .opened
      (replacePart uploadId partNumber row left again oldCas) := by
  refine disciplined_moveReference fun moved => ?_
  cases moved with
  | error err => exact disciplined_rollback_retryOrFail retried err err
  | ok candidate =>
      refine ⟨Nat.zero_le _, fun upserted => ?_⟩
      cases upserted with
      | error err => exact disciplined_rollback_retryOrFail retried err err
      | ok =>
          refine ⟨Nat.zero_le _, fun committed => ?_⟩
          cases committed with
          | error err => exact disciplined_retryOrFail retried err _
          | ok => rfl

theorem disciplined_putPartLoop {uploadId : Bytes} {partNumber : Int} {row : PartRow}
    (counted : first (.selectPartCasKeyForUpdate uploadId partNumber) = true)
    (attempts : Nat) :
    Disciplined first attempts .closed (putPartLoop uploadId partNumber row attempts :
      MetaM indexed (Result (Option Bytes))) := by
  induction attempts with
  | zero => rfl
  | succ left inductionHypothesis =>
      refine ⟨Nat.zero_le _, fun _ => ⟨?_, fun found => ?_⟩⟩
      · simp [Phase.next, Phase.starts, counted]
      · simp only [Phase.next, Phase.starts, counted, Bool.toNat_false, Bool.toNat_true,
          Nat.sub_zero, Nat.add_sub_cancel]
        cases found with
        | error err => exact disciplined_rollback_retryOrFail inductionHypothesis err err
        | ok found => exact disciplined_replacePart inductionHypothesis _

end Discipline

/-! ## The specification in one step -/

/-- The row of a blob after a reference has moved from `old` to `new`: nothing changes when
both are the same, and a blob without a row gets one with its first reference. -/
def transferred (old new : Option Bytes) (size : Int) (before : Tables) (casKey : Bytes) :
    Option CasBlobRow :=
  if old = new then before.casBlobs.lookup casKey
  else if new = some casKey then
    some ((before.casBlobs.lookup casKey).elim ⟨size, 1⟩ fun row =>
      { row with refCount := row.refCount + 1 })
  else if old = some casKey then
    (before.casBlobs.lookup casKey).map fun row => { row with refCount := row.refCount - 1 }
  else before.casBlobs.lookup casKey

/-- One row image is written and one reference moves; every other row is as it was. -/
structure OneStep (image : Write) (old new : Option Bytes) (size : Int)
    (before after : Tables) : Prop where
  blobs : ∀ casKey, after.casBlobs.lookup casKey = transferred old new size before casKey
  rows : ∀ row, (∀ casKey, row ≠ .casBlob casKey) → Tables.Same row (before.apply image) after
  nextBucketId : after.nextBucketId = before.nextBucketId

/-- The calls that move a reference in a transaction. -/
inductive RefCall
  | putObject (bucketId : Int) (key : Bytes) (size : Int) (etag contentType sha256Hash : Bytes)
  | deleteObject (bucketId : Int) (key : Bytes)
  | putPart (uploadId : Bytes) (partNumber : Int) (sha256Hash : Bytes) (size : Int)
      (etag : Bytes)

namespace RefCall

variable (indexed : Bytes → Bytes)

/-- The call as a call of the metadata store. -/
def code : RefCall → MetaM indexed (Result (Option Bytes))
  | .putObject bucketId key size etag contentType sha256Hash =>
      MetaStore.putObjectWithRefCount bucketId key size etag contentType sha256Hash
  | .deleteObject bucketId key => MetaStore.deleteObjectWithRefCount bucketId key
  | .putPart uploadId partNumber sha256Hash size etag =>
      MetaStore.putPartWithRefCount uploadId partNumber sha256Hash size etag

/-- The statement that an attempt starts with. -/
def first : RefCall → Stmt → Bool
  | .putObject .., .upsertCasBlob .. => true
  | .deleteObject .., .selectObjectCasKeyForUpdate .. => true
  | .putPart .., .selectPartCasKeyForUpdate .. => true
  | _, _ => false

/-- The row image that the call is to write. -/
def image : RefCall → Write
  | .putObject bucketId key size etag contentType sha256Hash =>
      .object (bucketId, indexed key) (some ⟨key, sha256Hash, size, contentType, etag⟩)
  | .deleteObject bucketId key => .object (bucketId, indexed key) none
  | .putPart uploadId partNumber sha256Hash size etag =>
      .part (uploadId, partNumber) (some ⟨sha256Hash, size, etag⟩)

/-- The blob that the row refers to before the call. -/
def oldCas (tables : Tables) : RefCall → Option Bytes
  | .putObject bucketId key .. | .deleteObject bucketId key =>
      (tables.findObject indexed bucketId key).map ObjectRow.casKey
  | .putPart uploadId partNumber .. =>
      (tables.multipartParts.lookup (uploadId, partNumber)).map PartRow.casKey

/-- The blob that the row is to refer to. -/
def newCas : RefCall → Option Bytes
  | .putObject _ _ _ _ _ sha256Hash => some sha256Hash
  | .deleteObject .. => none
  | .putPart _ _ sha256Hash _ _ => some sha256Hash

/-- The size of the new blob. -/
def size : RefCall → Int
  | .putObject _ _ size .. => size
  | .deleteObject .. => 0
  | .putPart _ _ _ size _ => size

/-- What a call is to return and to leave behind.  An error changes no table; a success is
one step, removes only a row that is there, and reports the old blob when it has lost its
last reference. -/
def Ends (call : RefCall) (tables : Tables) (answer : Result (Option Bytes)) (after : Tables) :
    Prop :=
  match answer with
  | .error _ => after = tables
  | .ok gcCandidate =>
      OneStep (call.image indexed) (call.oldCas indexed tables) call.newCas call.size tables
        after ∧
      (call.newCas = none → (call.oldCas indexed tables).isSome) ∧
      ∀ casKey, gcCandidate = some casKey ↔ call.oldCas indexed tables = some casKey ∧
        call.newCas ≠ some casKey ∧ after.refCount casKey = 0

/-- The call ends after at most three attempts, with no transaction open, as it is to end. -/
def AllOrNothing (call : RefCall) (tables : Tables) (caches : Caches)
    (faults : List (Option SqlError)) (clock : Clock) : Prop :=
  let start : Alone := ⟨tables, none, caches, faults, clock⟩
  let done := (call.code indexed).run (Alone.answer indexed) start
  attempts call.first .closed ((call.code indexed).trace (Alone.answer indexed) start) ≤ 3 ∧
    done.2.work = none ∧ call.Ends indexed tables done.1 done.2.tables

variable {indexed} in
/-- Every call keeps to three attempts and closes its transactions. -/
theorem disciplined_code (call : RefCall) :
    Disciplined call.first 3 .closed (call.code indexed) := by
  cases call with
  | putObject bucketId key size etag contentType sha256Hash =>
      exact disciplined_putObjectLoop rfl rfl kMaxRetries
  | deleteObject bucketId key => exact (disciplined_deleteObjectWithRefCount rfl).mono (by simp)
  | putPart uploadId partNumber sha256Hash size etag =>
      exact disciplined_putPartLoop rfl kMaxRetries

/-- The unique index has no other key in the place of the row that is written. -/
def MeetsOwnRow (tables : Tables) : RefCall → Prop
  | .putObject bucketId key .. => ∀ row,
      tables.objects.lookup (bucketId, indexed key) = some row → row.objectKey = key
  | _ => True

end RefCall

/-! ## The tables after a success -/

section Success

variable {indexed : Bytes → Bytes} {tables : Tables}

/-- A reference that the counters account for, under a key that is not empty. -/
def Counted (old : Option Bytes) (tables : Tables) : Prop :=
  ∀ casKey, old = some casKey → casKey ≠ [] ∧ 0 < tables.refCount casKey

theorem Counted.stored {old : Option Bytes} {casKey : Bytes} (counted : Counted old tables)
    (isOld : old = some casKey) :
    ∃ row, tables.casBlobs.lookup casKey = some row ∧ 0 < row.refCount := by
  have positive := (counted casKey isOld).2
  unfold Tables.refCount at positive
  cases stored : tables.casBlobs.lookup casKey with
  | none => simp [stored] at positive
  | some row => exact ⟨row, rfl, by simpa [stored] using positive⟩

theorem Counted.of_object (exact : Exact .all tables) (bucketId : Int) (key : Bytes) :
    Counted ((tables.findObject indexed bucketId key).map ObjectRow.casKey) tables := by
  intro casKey isOld
  obtain ⟨row, found, rfl⟩ := Option.map_eq_some_iff.mp isOld
  have stored := (Option.filter_eq_some_iff.mp found).1
  exact ⟨exact.objectNonempty rfl _ _ stored, exact.refCount_pos_of_object rfl stored⟩

theorem Counted.of_part (exact : Exact .all tables) (entry : Bytes × Int) :
    Counted ((tables.multipartParts.lookup entry).map PartRow.casKey) tables := by
  intro casKey isOld
  obtain ⟨row, stored, rfl⟩ := Option.map_eq_some_iff.mp isOld
  exact ⟨exact.partNonempty rfl _ _ stored, exact.refCount_pos_of_part rfl stored⟩

theorem lookup_gain (casKey other : Bytes) (size : Int) :
    (tables.gain casKey size).casBlobs.lookup other =
      if other = casKey then
        some (CasBlobRow.incremented size (tables.casBlobs.lookup casKey))
      else tables.casBlobs.lookup other := by
  by_cases same : other = casKey
  · subst same
    rw [if_pos rfl]
    exact lookup_put_self ..
  · rw [if_neg same]
    exact lookup_put_ne _ _ same

theorem lookup_lose (casKey other : Bytes) :
    (tables.lose casKey).casBlobs.lookup other =
      if other = casKey then (tables.casBlobs.lookup casKey).map CasBlobRow.decremented
      else tables.casBlobs.lookup other := by
  unfold Tables.lose
  cases stored : tables.casBlobs.lookup casKey with
  | none =>
      by_cases same : other = casKey
      · subst same
        simp [stored]
      · simp [same]
  | some row =>
      by_cases same : other = casKey
      · subst same
        simp [Tables.apply, lookup_put_self]
      · simp [Tables.apply, lookup_put_ne _ _ same, same]

theorem CasBlobRow.decremented_of_pos {row : CasBlobRow} (positive : 0 < row.refCount) :
    row.decremented = { row with refCount := row.refCount - 1 } := by
  simp [CasBlobRow.decremented, positive]

theorem lookup_move {old : Option Bytes} (counted : Counted old tables) (new : Bytes)
    (size : Int) (casKey : Bytes) :
    (tables.move (old.getD []) new size).casBlobs.lookup casKey =
      transferred old (some new) size tables casKey := by
  have gained : (CasBlobRow.incremented size (tables.casBlobs.lookup new)) =
      (tables.casBlobs.lookup new).elim ⟨size, 1⟩ fun row =>
        { row with refCount := row.refCount + 1 } := by
    cases tables.casBlobs.lookup new <;> rfl
  cases old with
  | none =>
      simp only [Option.getD_none, Tables.move, List.isEmpty_nil, if_true, lookup_gain, gained,
        transferred, reduceCtorEq, if_false, Option.some.injEq]
      by_cases same : casKey = new
      · subst same
        simp
      · simp [same, Ne.symm same]
  | some oldKey =>
      obtain ⟨row, stored, positive⟩ := counted.stored rfl
      have nonempty := (counted oldKey rfl).1
      simp only [Option.getD_some, Tables.move, List.isEmpty_iff, nonempty, if_false,
        transferred, Option.some.injEq]
      by_cases same : oldKey = new
      · simp [same]
      · simp only [if_neg same, lookup_lose, lookup_gain, gained]
        by_cases isOld : casKey = oldKey
        · subst isOld
          simp [Ne.symm same, stored, CasBlobRow.decremented_of_pos positive]
        · by_cases isNew : casKey = new
          · subst isNew
            simp [isOld]
          · simp [isOld, isNew, Ne.symm isOld, Ne.symm isNew]

theorem same_gain {row : Row} (other : ∀ casKey, row ≠ .casBlob casKey) (casKey : Bytes)
    (size : Int) : Tables.Same row tables (tables.gain casKey size) :=
  Tables.same_apply tables (other casKey)

theorem same_lose {row : Row} (other : ∀ casKey, row ≠ .casBlob casKey) (casKey : Bytes) :
    Tables.Same row tables (tables.lose casKey) := by
  unfold Tables.lose
  split
  · exact Tables.Same.refl row tables
  · exact Tables.same_apply tables (other casKey)

theorem same_move {row : Row} (other : ∀ casKey, row ≠ .casBlob casKey) (old new : Bytes)
    (size : Int) : Tables.Same row tables (tables.move old new size) := by
  unfold Tables.move
  split_ifs
  · exact same_gain other new size
  · exact Tables.Same.refl row tables
  · exact (same_gain other new size).trans (same_lose other old)

@[simp]
theorem nextBucketId_lose (casKey : Bytes) :
    (tables.lose casKey).nextBucketId = tables.nextBucketId := by
  unfold Tables.lose
  split <;> rfl

@[simp]
theorem nextBucketId_move (old new : Bytes) (size : Int) :
    (tables.move old new size).nextBucketId = tables.nextBucketId := by
  unfold Tables.move
  split_ifs
  · rfl
  · rfl
  · exact nextBucketId_lose old

/-- A reported blob is the old one, with no reference left. -/
theorem freed_eq_some_iff {old : Option Bytes} {new : Option Bytes} {after : Tables}
    (counted : Counted old tables) (size : Int)
    (blobs : ∀ casKey, after.casBlobs.lookup casKey = transferred old new size tables casKey)
    (casKey : Bytes) :
    after.freed (old.getD []) (new.getD []) = some casKey ↔
      old = some casKey ∧ new ≠ some casKey ∧ after.refCount casKey = 0 := by
  cases old with
  | none => simp
  | some oldKey =>
      obtain ⟨row, stored, positive⟩ := counted.stored rfl
      have nonempty := (counted oldKey rfl).1
      have kept : ∃ blob, after.casBlobs.lookup oldKey = some blob := by
        rw [blobs oldKey]
        unfold transferred
        split_ifs
        · exact ⟨row, stored⟩
        · exact ⟨_, rfl⟩
        · exact ⟨_, by rw [stored]; rfl⟩
        · contradiction
      obtain ⟨blob, blobEq⟩ := kept
      have different : oldKey = new.getD [] ↔ new = some oldKey := by
        cases new with
        | none => simp [nonempty]
        | some newKey => simp [eq_comm]
      simp only [Option.getD_some, Tables.freed, List.isEmpty_iff, nonempty, not_false_eq_true,
        true_and, blobEq, Option.map_some, Option.some.injEq, ne_eq, different]
      constructor
      · intro reported
        split_ifs at reported with free
        obtain rfl := Option.some.inj reported
        exact ⟨rfl, free.1, by simpa [Tables.refCount, blobEq] using free.2⟩
      · rintro ⟨rfl, moved, free⟩
        rw [if_pos ⟨moved, by simpa [Tables.refCount, blobEq] using free⟩]

/-! ### One step for each call -/

/-- An index entry without another key is where the object is found. -/
theorem findObject_eq_lookup {bucketId : Int} {key : Bytes}
    (own : ∀ row, tables.objects.lookup (bucketId, indexed key) = some row →
      row.objectKey = key) :
    tables.findObject indexed bucketId key = tables.objects.lookup (bucketId, indexed key) := by
  unfold Tables.findObject
  cases stored : tables.objects.lookup (bucketId, indexed key) with
  | none => rfl
  | some row => simp [own row stored]

theorem upserted_of_own {bucketId : Int} {row : ObjectRow}
    (own : ∀ old, tables.objects.lookup (bucketId, indexed row.objectKey) = some old →
      old.objectKey = row.objectKey) :
    tables.upserted (bucketId, indexed row.objectKey) row = row := by
  unfold Tables.upserted
  cases stored : tables.objects.lookup (bucketId, indexed row.objectKey) with
  | none => rfl
  | some old => simp [own old stored]

/-- A row is written after its reference has moved. -/
theorem oneStep_move {old : Option Bytes} (counted : Counted old tables) (new : Bytes)
    (size : Int) {image : Write} (target : ∀ casKey, image.target ≠ .casBlob casKey)
    (bucket : ∀ id, image.target ≠ .bucket id) :
    OneStep image old (some new) size tables
      ((tables.move (old.getD []) new size).apply image) := by
  refine ⟨?_, ?_, ?_⟩
  · intro casKey
    rw [← lookup_move counted]
    have same : Tables.Same (.casBlob casKey) _ _ :=
      Tables.same_apply (tables.move (old.getD []) new size) (target casKey).symm
    exact same.symm
  · intro row other
    exact (same_move other (old.getD []) new size).apply image
  · have sameId : (tables.move (old.getD []) new size).nextBucketId = tables.nextBucketId :=
      nextBucketId_move (old.getD []) new size
    rw [← sameId]
    cases image with
    | bucket id row => exact absurd rfl (bucket id)
    | _ => rfl

theorem oneStep_putObject (exact : Exact .all tables) {bucketId : Int} (row : ObjectRow)
    (own : ∀ old, tables.objects.lookup (bucketId, indexed row.objectKey) = some old →
      old.objectKey = row.objectKey) :
    OneStep (.object (bucketId, indexed row.objectKey) (some row))
      ((tables.findObject indexed bucketId row.objectKey).map ObjectRow.casKey)
      (some row.casKey) row.size tables (tables.putObject indexed bucketId row) := by
  unfold Tables.putObject
  rw [upserted_of_own own]
  exact oneStep_move (Counted.of_object exact bucketId row.objectKey) row.casKey row.size
    (by simp [Write.target]) (by simp [Write.target])

theorem oneStep_putPart (exact : Exact .all tables) (uploadId : Bytes) (partNumber : Int)
    (row : PartRow) :
    OneStep (.part (uploadId, partNumber) (some row))
      ((tables.multipartParts.lookup (uploadId, partNumber)).map PartRow.casKey)
      (some row.casKey) row.size tables (tables.putPart uploadId partNumber row) :=
  oneStep_move (Counted.of_part exact (uploadId, partNumber)) row.casKey row.size
    (by simp [Write.target]) (by simp [Write.target])

theorem oneStep_removeObject {bucketId : Int} {key casKey : Bytes} (size : Int)
    (counted : Counted (some casKey) tables) :
    OneStep (.object (bucketId, indexed key) none) (some casKey) none size tables
      (tables.removeObject indexed bucketId key casKey) := by
  obtain ⟨row, stored, positive⟩ := counted.stored rfl
  have removed : tables.removeObject indexed bucketId key casKey =
      (tables.apply (.object (bucketId, indexed key) none)).lose casKey := by
    simp [Tables.removeObject, (counted casKey rfl).1]
  rw [removed]
  refine ⟨?_, ?_, ?_⟩
  · intro other
    have blobs : (tables.apply (.object (bucketId, indexed key) none)).casBlobs =
        tables.casBlobs := rfl
    rw [lookup_lose, blobs]
    by_cases same : other = casKey
    · subst same
      simp [transferred, stored, CasBlobRow.decremented_of_pos positive]
    · simp [transferred, same, Ne.symm same]
  · intro other noBlob
    exact same_lose noBlob casKey
  · exact nextBucketId_lose casKey

end Success

/-! ## Calls without failing statements -/

section Faultless

variable {indexed : Bytes → Bytes} {tables : Tables} {caches : Caches} {bucketId : Int}
  {row : ObjectRow}

/-- The tables let an object be stored: its bucket or a row at its index entry is there, and
the blob of the object it replaces has a row. -/
structure Storable (indexed : Bytes → Bytes) (tables : Tables) (bucketId : Int) (key : Bytes) :
    Prop where
  parent : (tables.buckets.lookup bucketId).isSome ∨
    (tables.objects.lookup (bucketId, indexed key)).isSome
  blob : ∀ old, tables.findObject indexed bucketId key = some old →
    (tables.casBlobs.lookup old.casKey).isSome

theorem isSome_lookup_gain (casKey : Bytes) (size : Int) :
    ((tables.gain casKey size).casBlobs.lookup casKey).isSome := by
  simp [lookup_gain]

/-- After a reference has moved, its new blob has a row. -/
theorem isSome_lookup_move (old new : Bytes) (size : Int)
    (stored : old ≠ [] → (tables.casBlobs.lookup old).isSome) :
    ((tables.move old new size).casBlobs.lookup new).isSome := by
  unfold Tables.move
  split_ifs with empty same
  · exact isSome_lookup_gain new size
  · subst same
    exact stored (by simpa using empty)
  · rw [lookup_lose, if_neg (Ne.symm same)]
    exact isSome_lookup_gain new size

theorem yields_isOk_replaceObject {left : Nat} {again : MetaM indexed (Result (Option Bytes))}
    (storable : Storable indexed tables bucketId row.objectKey)
    (present : (tables.objects.lookup (bucketId, indexed row.objectKey)).isSome) :
    Yields False (fun answer _ _ => answer.isOk = true)
      (replaceObject bucketId row left again
        (tables.objectCas indexed bucketId row.objectKey)) tables (some tables) caches := by
  refine yields_moveReference (fun impossible => impossible.elim) ?_
  have oldStored : tables.objectCas indexed bucketId row.objectKey ≠ [] →
      (tables.casBlobs.lookup (tables.objectCas indexed bucketId row.objectKey)).isSome := by
    intro nonempty
    cases found : tables.findObject indexed bucketId row.objectKey with
    | none => simp [Tables.objectCas, found] at nonempty
    | some old => simpa [Tables.objectCas, found] using storable.blob old found
  have blobStored := isSome_lookup_move _ row.casKey row.size oldStored
  constructor
  · intro err failed
    rcases failed with impossible | failed
    · exact impossible.elim
    · rcases Option.isSome_iff_exists.mp present with ⟨old, stored⟩
      rcases Option.isSome_iff_exists.mp blobStored with ⟨blob, blobEq⟩
      simp [Stmt.eval, stored, blobEq] at failed
  · intro answered writes evaluated
    exact ⟨fun impossible => impossible.elim, fun _ => rfl⟩

/-- Without a failing statement, an object whose parents are there is stored. -/
theorem yields_isOk_putObjectLoop (row : ObjectRow)
    (storable : Storable indexed tables bucketId row.objectKey) (left : Nat) :
    Yields False (fun answer _ _ => answer.isOk = true)
      (putObjectLoop bucketId row (left + 1) : MetaM indexed _) tables none caches := by
  constructor
  · intro err failed
    simp [Stmt.eval] at failed
  · rintro answered writes ⟨⟩
    have blobStored : ((tables.gain row.casKey row.size).casBlobs.lookup row.casKey).isSome :=
      isSome_lookup_gain row.casKey row.size
    cases stored : tables.objects.lookup (bucketId, indexed row.objectKey) with
    | none =>
        have bucket : (tables.buckets.lookup bucketId).isSome := by
          simpa [stored] using storable.parent
        constructor
        · intro err failed
          rcases failed with impossible | failed
          · exact impossible.elim
          · rcases Option.isSome_iff_exists.mp bucket with ⟨name, bucketEq⟩
            rcases Option.isSome_iff_exists.mp blobStored with ⟨blob, blobEq⟩
            have evaluated : (Stmt.insertObject bucketId row).eval indexed
                (tables.gain row.casKey row.size) = .error err := failed
            have gained : (tables.gain row.casKey row.size).buckets.lookup bucketId =
              some name := bucketEq
            simp [Stmt.eval, stored, gained, blobEq] at evaluated
        · intro answered writes evaluated
          exact ⟨fun impossible => impossible.elim, rfl⟩
    | some old =>
        constructor
        · intro err failed
          rcases failed with impossible | failed
          · exact impossible.elim
          · have evaluated : (Stmt.insertObject bucketId row).eval indexed
                (tables.gain row.casKey row.size) = .error err := failed
            simp only [Stmt.eval, Tables.objects_gain, stored, Except.error.injEq] at evaluated
            -- The index entry is taken: the overwriting path runs in a second transaction.
            have duplicate : isDuplicateKeyError err = true := by
              subst evaluated
              exact Bytes.contains_iff.mpr ⟨[], _, by
                simp only [duplicateEntry, List.nil_append, List.append_assoc]
                rfl⟩
            change Yields False _ (if isDuplicateKeyError err then _ else _) tables none caches
            rw [if_pos duplicate]
            constructor
            · intro queryErr queryFailed
              simp [Stmt.eval] at queryFailed
            · rintro found queried ⟨⟩
              exact yields_isOk_replaceObject storable (by simp [stored])
        · intro answered writes evaluated
          obtain ⟨free, -⟩ := insertObject_eval evaluated
          have free : tables.objects.lookup (bucketId, indexed row.objectKey) = none := free
          simp [stored] at free

/-- A run of `PutObjectWithRefCount` without a failing statement. -/
theorem run_putObjectWithRefCount (row : ObjectRow)
    (storable : Storable indexed tables bucketId row.objectKey) (caches : Caches)
    (clock : Clock) :
    ∃ candidate after,
      (putObjectWithRefCount bucketId row.objectKey row.size row.etag row.contentType
        row.casKey : MetaM indexed _).run (Alone.answer indexed)
          (⟨tables, none, caches, [], clock⟩ : Alone) = (.ok candidate, after) ∧
      after.tables = tables.putObject indexed bucketId row := by
  have isOk : Yields False (fun answer _ _ => answer.isOk = true)
      (putObjectWithRefCount bucketId row.objectKey row.size row.etag row.contentType
        row.casKey : MetaM indexed _) tables none caches :=
    yields_isOk_putObjectLoop row storable 2
  have stores : Yields False (PutObjectPost indexed bucketId row tables caches)
      (putObjectWithRefCount bucketId row.objectKey row.size row.etag row.contentType
        row.casKey : MetaM indexed _) tables none caches :=
    yields_putObjectLoop bucketId row tables kMaxRetries
  have succeeds := isOk.run ⟨tables, none, caches, [], clock⟩ (.inr rfl)
  have effect := stores.run ⟨tables, none, caches, [], clock⟩ (.inr rfl)
  rcases Result.exists_of_isOk succeeds with ⟨candidate, after, performed⟩
  rw [performed] at effect
  exact ⟨candidate, after, performed, effect.1⟩

end Faultless

/-! ## All or nothing -/

namespace RefCall

variable {indexed : Bytes → Bytes} {tables : Tables} {caches : Caches}

theorem oldCas_counted (call : RefCall) (exact : Exact .all tables) :
    Counted (call.oldCas indexed tables) tables := by
  cases call with
  | putObject bucketId key => exact Counted.of_object exact bucketId key
  | deleteObject bucketId key => exact Counted.of_object exact bucketId key
  | putPart uploadId partNumber => exact Counted.of_part exact (uploadId, partNumber)

/-- A success that reports what the metadata store finds free. -/
theorem Ends.of_freed {call : RefCall} {candidate : Option Bytes} {after : Tables}
    (exact : Exact .all tables)
    (step : OneStep (call.image indexed) (call.oldCas indexed tables) call.newCas call.size
      tables after)
    (present : call.newCas = none → (call.oldCas indexed tables).isSome)
    (reported : candidate =
      after.freed ((call.oldCas indexed tables).getD []) (call.newCas.getD [])) :
    call.Ends indexed tables (.ok candidate) after := by
  refine ⟨step, present, ?_⟩
  rw [reported]
  exact freed_eq_some_iff (call.oldCas_counted exact) call.size step.blobs

theorem yields_ends (call : RefCall) (exact : Exact .all tables)
    (own : call.MeetsOwnRow indexed tables) :
    Yields True (fun answer after _ => call.Ends indexed tables answer after)
      (call.code indexed) tables none caches := by
  cases call with
  | putObject bucketId key size etag contentType sha256Hash =>
      refine (yields_putObjectLoop bucketId ⟨key, sha256Hash, size, contentType, etag⟩ tables
        kMaxRetries).mono ?_
      intro answer after cachesAfter post
      cases answer with
      | error status => exact post.1
      | ok candidate =>
          rcases post with ⟨rfl, reported, -⟩
          have step := oneStep_putObject exact ⟨key, sha256Hash, size, contentType, etag⟩ own
          exact .of_freed exact step (fun removal => by simp [newCas] at removal) reported
  | deleteObject bucketId key =>
      refine (yields_deleteObjectWithRefCount bucketId key tables).mono ?_
      intro answer after cachesAfter post
      cases answer with
      | error status => exact post.1
      | ok candidate =>
          rcases post with ⟨row, found, rfl, reported⟩
          have counted : Counted ((tables.findObject indexed bucketId key).map _) tables :=
            Counted.of_object exact bucketId key
          refine .of_freed exact ?_ (fun _ => by simp [oldCas, found]) ?_
          · rw [found] at counted
            simp only [oldCas, found, Option.map_some]
            exact oneStep_removeObject _ counted
          · simp only [oldCas, found, Option.map_some, Option.getD_some]
            exact reported
  | putPart uploadId partNumber sha256Hash size etag =>
      refine (yields_putPartLoop uploadId partNumber ⟨sha256Hash, size, etag⟩ tables
        kMaxRetries).mono ?_
      rintro answer after cachesAfter ⟨post, -⟩
      cases answer with
      | error status => exact post
      | ok candidate =>
          rcases post with ⟨rfl, reported, -⟩
          exact .of_freed exact (oneStep_putPart exact uploadId partNumber _)
            (fun removal => by simp [newCas] at removal) reported

theorem allOrNothing_of_meetsOwnRow (call : RefCall) (exact : Exact .all tables)
    (own : call.MeetsOwnRow indexed tables) (faults : List (Option SqlError)) (clock : Clock) :
    call.AllOrNothing indexed tables caches faults clock := by
  have phases : Disciplined call.first 3 .closed (call.code indexed) := call.disciplined_code
  have disciplined := phases.run ⟨tables, none, caches, faults, clock⟩ (by simp)
  have ends := (call.yields_ends exact own).run ⟨tables, none, caches, faults, clock⟩
    (.inl trivial)
  exact ⟨disciplined.1, disciplined.2, ends⟩

/-- An upsert that meets the row of another key leaves that key in place. -/
theorem not_allOrNothing_of_collision {bucketId : Int} {key : Bytes} {size : Int}
    {etag contentType sha256Hash : Bytes} (other : ObjectRow)
    (stored : tables.objects.lookup (bucketId, indexed key) = some other)
    (different : other.objectKey ≠ key) (clock : Clock) :
    ¬(RefCall.putObject bucketId key size etag contentType sha256Hash).AllOrNothing indexed
      tables caches [] clock := by
  have missing : tables.findObject indexed bucketId key = none := by
    simp [Tables.findObject, stored, different]
  have storable : Storable indexed tables bucketId key :=
    ⟨.inr (by simp [stored]), fun old found => by simp [missing] at found⟩
  rcases run_putObjectWithRefCount ⟨key, sha256Hash, size, contentType, etag⟩ storable caches
    clock with ⟨candidate, after, performed, written⟩
  rintro ⟨-, -, ends⟩
  simp only [code, performed] at ends
  have kept := ends.1.rows (.object (bucketId, indexed key)) (by simp)
  rw [written] at kept
  have asked : ∀ image : ObjectRow, Table.lookup (bucketId, indexed key)
      (put (bucketId, indexed key) (some image) tables.objects) = some image :=
    fun image => lookup_put_self ..
  simp only [Tables.Same, image, Tables.apply, Tables.putObject, Tables.objects_move, asked,
    Option.some.injEq] at kept
  have sameKey := congrArg ObjectRow.objectKey kept
  simp only [Tables.upserted, stored, Option.elim_some] at sameKey
  exact different sameKey.symm

end RefCall

/-- From exact counters, a transactional write is all or nothing under every pattern of
failing statements, exactly when the unique index has no other key in the place of the row
that is written. -/
theorem transactional_writes_are_all_or_nothing (indexed : Bytes → Bytes) (call : RefCall)
    (tables : Tables) (caches : Caches)
    (counted : ∀ casKey, tables.refCount casKey = tables.objectRefs casKey +
      tables.partRefs casKey)
    (objectNonempty : ∀ entry row, tables.objects.lookup entry = some row → row.casKey ≠ [])
    (partNonempty : ∀ entry row, tables.multipartParts.lookup entry = some row →
      row.casKey ≠ []) :
    (∀ faults clock, call.AllOrNothing indexed tables caches faults clock) ↔
      call.MeetsOwnRow indexed tables := by
  have exact : Exact .all tables := ⟨counted, fun _ => objectNonempty, fun _ => partNonempty⟩
  constructor
  · intro allOrNothing
    cases call with
    | putObject bucketId key size etag contentType sha256Hash =>
        intro row stored
        by_contra different
        exact RefCall.not_allOrNothing_of_collision row stored different ⟨0, 0⟩
          (allOrNothing [] ⟨0, 0⟩)
    | deleteObject bucketId key => trivial
    | putPart uploadId partNumber sha256Hash size etag => trivial
  · intro own faults clock
    exact call.allOrNothing_of_meetsOwnRow exact own faults clock

/-- The theorem for a second object beside the first one, where the third statement fails. -/
theorem transactional_writes_are_all_or_nothing_secondObject :
    (RefCall.putObject 1 (ascii "other") 7 (ascii "f") (ascii "text/plain")
      (blobKey 'b')).AllOrNothing ukBucketKey (.withObject ukBucketKey (ascii "key")) ⟨∅, none⟩
      [none, none, some (ascii "Lost connection")] ⟨0, 0⟩ := by
  refine (transactional_writes_are_all_or_nothing _ _ _ _
    (Tables.withObject_counted ukBucketKey (ascii "key")) ?_ ?_).mpr ?_ _ _
  · intro entry row stored
    rcases Tables.withObject_object _ _ entry row stored with ⟨rfl, rfl⟩
    decide
  · intro entry row stored
    contradiction
  · intro row stored
    rcases Tables.withObject_object _ _ _ row stored with ⟨same, rfl⟩
    exact absurd same (by decide)

/-- A key of 256 characters, of which the last one is given. -/
def longKey (last : Char) : Bytes :=
  List.replicate 255 120 ++ [UInt8.ofNat last.toNat]

/-- A write is not all or nothing when it meets the row of another key: the keys
`xx...xa` and `xx...xb` differ in their last character only, which the index does not see. -/
theorem transactional_write_meets_another_key :
    (∀ casKey, (Tables.withObject ukBucketKey (longKey 'a')).refCount casKey =
      (Tables.withObject ukBucketKey (longKey 'a')).objectRefs casKey +
        (Tables.withObject ukBucketKey (longKey 'a')).partRefs casKey) ∧
    ¬(RefCall.putObject 1 (longKey 'b') 7 (ascii "f") (ascii "text/plain")
      (blobKey 'b')).AllOrNothing ukBucketKey (.withObject ukBucketKey (longKey 'a')) ⟨∅, none⟩
      [] ⟨0, 0⟩ := by
  refine ⟨Tables.withObject_counted ukBucketKey (longKey 'a'), ?_⟩
  have sameEntry : ukBucketKey (longKey 'b') = ukBucketKey (longKey 'a') := by decide +kernel
  refine RefCall.not_allOrNothing_of_collision
    ⟨longKey 'a', blobKey 'a', 5, ascii "text/plain", ascii "e"⟩ ?_ ?_ ⟨0, 0⟩
  · rw [sameEntry]
    exact Table.lookup_set_self ..
  · decide +kernel

end MiniS3.Db
