import MiniS3.Db.Calls
import MiniS3.Db.Concurrent

/-!
# Deleting a bucket beside other sessions

`DELETE FROM buckets` removes the objects of the bucket, its uploads and their parts
with it, and none of the rows it removes gives its reference back.  So it keeps the
counters exact when the cascade meets no row that refers to a blob.

The second half of the file says that the program of every other call keeps the counters
exact as well, statement by statement beside any number of sessions.

The shared lock that a child row takes on its parent is left out: an insert waits for
nobody who deletes its bucket.  The sessions of the model can do everything that those of
the database can.
-/

namespace MiniS3.Db

open Lib RowLocks MetaStore

variable {indexed : Bytes → Bytes}

/-! ## Images that concern no reference -/

namespace Write

/-- An image of a row that neither refers to a blob nor counts references. -/
def Neutral : Write → Prop
  | .bucket _ _ | .upload _ _ | .idempotency _ _ => True
  | .casBlob _ _ | .object _ _ | .part _ _ => False

end Write

/-- Neutral images leave references and counters alone. -/
theorem applyAll_neutral {writes : List Write} (neutral : ∀ write ∈ writes, write.Neutral)
    (tables : Tables) :
    (tables.applyAll writes).casBlobs = tables.casBlobs ∧
      (tables.applyAll writes).objects = tables.objects ∧
      (tables.applyAll writes).multipartParts = tables.multipartParts := by
  induction writes generalizing tables with
  | nil => exact ⟨rfl, rfl, rfl⟩
  | cons write rest inductionHypothesis =>
      have own := neutral write List.mem_cons_self
      have others := inductionHypothesis (fun other member =>
        neutral other (List.mem_cons_of_mem _ member)) (tables.apply write)
      cases write with
      | casBlob casKey image => exact own.elim
      | object entry image => exact own.elim
      | part entry image => exact own.elim
      | bucket id image => exact others
      | upload uploadId image => exact others
      | idempotency key image => exact others

theorem Exact.applyAll_neutral {scope : Scope} {tables : Tables} (exact : Exact scope tables)
    {writes : List Write} (neutral : ∀ write ∈ writes, write.Neutral) :
    Exact scope (tables.applyAll writes) := by
  obtain ⟨casBlobs, objects, parts⟩ := Db.applyAll_neutral neutral tables
  exact exact.congr casBlobs objects parts

/-! ## The cascade -/

namespace Tables

/-- Number of objects in a bucket. -/
def objectsIn (tables : Tables) (bucketId : Int) : Nat :=
  tables.objects.count fun entry _ => entry.1 = bucketId

/-- Number of parts of the uploads of a bucket. -/
def partsIn (tables : Tables) (bucketId : Int) : Nat :=
  tables.multipartParts.count fun entry _ => entry.1 ∈ tables.uploadsOf bucketId

end Tables

/-- A deletion that meets no objects and no parts only writes neutral images. -/
theorem neutral_bucketCascade {tables : Tables} {bucketId : Int}
    (noObjects : tables.objectsIn bucketId = 0) (noParts : tables.partsIn bucketId = 0) :
    ∀ write ∈ tables.bucketCascade bucketId, write.Neutral := by
  intro write member
  simp only [Tables.bucketCascade, List.cons_append, List.mem_cons, List.mem_append,
    List.mem_map, List.mem_filter, List.mem_flatMap] at member
  rcases member with rfl | ⟨entry, ⟨stored, inBucket⟩, rfl⟩ | ⟨uploadId, upload, member⟩
  · exact trivial
  · have none := List.countP_eq_zero.mp noObjects entry stored
    exact absurd inBucket none
  · simp only [Tables.uploadCascade, Tables.partsOf, List.mem_cons, List.mem_map,
      List.mem_filter] at member
    rcases member with rfl | ⟨part, ⟨entry, ⟨stored, ofUpload⟩, rfl⟩, rfl⟩
    · exact trivial
    · have none := List.countP_eq_zero.mp noParts entry stored
      rw [decide_eq_true_eq] at ofUpload none
      exact absurd (ofUpload ▸ upload) none

/-- The deletion of a bucket takes no row with it that refers to a blob. -/
def CascadeTakesNoReference : Stmt → Tables → Prop
  | .deleteBucket name, tables => ∀ bucket, tables.bucketNamed name = some bucket →
      tables.objectsIn bucket.1 = 0 ∧ tables.partsIn bucket.1 = 0
  | _, _ => True

theorem neutral_deleteBucket {name : Bytes} {tables : Tables} {affected : Nat}
    {writes : List Write} (free : CascadeTakesNoReference (.deleteBucket name) tables)
    (evaluated : (Stmt.deleteBucket name).eval indexed tables = .ok (affected, writes)) :
    ∀ write ∈ writes, write.Neutral := by
  rcases Stmt.deleteBucket_writes indexed evaluated with
    ⟨-, rfl, -⟩ | ⟨bucket, named, -, rfl⟩
  · simp
  · obtain ⟨noObjects, noParts⟩ := free bucket named
    exact neutral_bucketCascade noObjects noParts

/-- What the statements of a run have to meet for the counters to stay exact. -/
def KeepsReferences (indexed : Bytes → Bytes) (stmt : Stmt) (held : Row → Prop)
    (tables : Tables) : Prop :=
  UpsertsMeetNoRow indexed stmt held tables ∧ CascadeTakesNoReference stmt tables

/-! ## Statements outside of transactions -/

/-- Statements that the metadata store sends in autocommit mode, but for those that give a
reference back. -/
def SentAlone : Stmt → Prop
  | .insertBucket _ | .selectBucketByName _ | .selectBucketById _ | .selectBuckets
  | .deleteBucket _ | .countObjectsInBucket _ | .selectCasBlob _ | .deleteCasBlob _
  | .selectObject _ _ | .selectObjects _ _ _ _ | .insertUpload _ _ | .selectUpload _
  | .selectParts _ _ _ | .selectIdempotency _ | .upsertIdempotency _ _ => True
  | _ => False

theorem exact_of_sentAlone {stmt : Stmt} (alone : SentAlone stmt) (held : Row → Prop)
    (tables : Tables) (answered : stmt.Ans) (writes : List Write)
    (exact : Exact .all tables) (keeps : KeepsReferences indexed stmt held tables)
    (evaluated : stmt.eval indexed tables = .ok (answered, writes)) :
    Exact .all (tables.applyAll writes) := by
  cases stmt with
  | deleteBucket name => exact exact.applyAll_neutral (neutral_deleteBucket keeps.2 evaluated)
  | deleteCasBlob casKey =>
      simp only [Stmt.eval] at evaluated
      split at evaluated
      · contradiction
      · rename_i free
        cases evaluated
        rw [not_or, not_not, not_not] at free
        exact exact.deleteCasBlob free.1 free.2
  | insertBucket name =>
      simp only [Stmt.eval] at evaluated
      split at evaluated
      · contradiction
      · cases evaluated
        exact exact.applyAll_neutral (by simp [Write.Neutral])
  | insertUpload uploadId row =>
      simp only [Stmt.eval] at evaluated
      repeat' split at evaluated
      all_goals cases evaluated
      exact exact.applyAll_neutral (by simp [Write.Neutral])
  | upsertIdempotency key row =>
      cases evaluated
      exact exact.applyAll_neutral (by simp [Write.Neutral])
  | selectBucketByName | selectBucketById | selectBuckets | countObjectsInBucket
  | selectCasBlob | selectObject | selectObjects | selectUpload | selectParts
  | selectIdempotency =>
      cases evaluated
      exact exact
  | _ => exact alone.elim

/-! ## The calls of the metadata store -/

/-- A call whose statements are all sent alone keeps the counters exact. -/
theorem safe_of_sentAlone {α : Type} {program : MetaM indexed α}
    (only : Program.Only (Autocommit (E := engine indexed) SentAlone) (fun _ => True) program)
    (known : Tables) :
    Safe (E := engine indexed) (Exact .all) (KeepsReferences indexed) program known
      (fun _ => False) none :=
  safe_of_autocommit only
    (fun _ alone rows tables answered writes exact keeps evaluated =>
      exact_of_sentAlone alone rows tables answered writes exact keeps evaluated) known

/-- The calls that run in autocommit mode, and give no reference back. -/
def MetaCall.RunsAlone : MetaCall → Prop
  | .putObjectWithRefCount _ _ _ _ _ _ | .deleteObjectWithRefCount _ _
  | .putPartWithRefCount _ _ _ _ _ | .canDeleteCasBlob _
  | .decrementRefCountAndCheckZero _ | .deleteMultipartUpload _ => False
  | _ => True

theorem only_of_runsAlone {call : MetaCall} (alone : call.RunsAlone) :
    Program.Only (Autocommit (E := engine indexed) SentAlone) (fun _ => True)
      (call.code indexed) := by
  cases call with
  | createBucket name ownerId =>
      refine ⟨trivial, fun answer => ?_⟩
      cases answer with
      | error err =>
          change Program.Only _ _ (if Bytes.contains err (ascii "Duplicate") then _ else _)
          split <;> trivial
      | ok id => exact ⟨trivial, fun _ => trivial⟩
  | getBucket name =>
      refine ⟨trivial, fun cached => ?_⟩
      cases cached with
      | some info => trivial
      | none =>
          refine ⟨trivial, fun answer => ?_⟩
          rcases answer with err | _ | ⟨id, storedName⟩
          · trivial
          · trivial
          · exact ⟨trivial, fun _ => trivial⟩
  | getBucketById id =>
      refine ⟨trivial, fun answer => ?_⟩
      rcases answer with err | _ | ⟨id, storedName⟩ <;> trivial
  | listBuckets =>
      refine ⟨trivial, fun answer => ?_⟩
      cases answer with
      | error err => trivial
      | ok rows => exact ⟨trivial, fun _ => trivial⟩
  | deleteBucket name =>
      refine ⟨trivial, fun answer => ?_⟩
      cases answer with
      | error err => trivial
      | ok affected =>
          change Program.Only _ _ (if (affected : Nat) = 0 then _ else _)
          split
          · trivial
          · exact ⟨trivial, fun _ => trivial⟩
  | getObject bucketId key =>
      have fromDatabase : Program.Only (Autocommit (E := engine indexed) SentAlone)
          (fun _ => True) (MetaStore.getObject.fromDatabase bucketId key) := by
        refine ⟨trivial, fun answer => ?_⟩
        rcases answer with err | _ | row
        · trivial
        · trivial
        · exact ⟨trivial, fun _ => trivial⟩
      refine ⟨trivial, fun cached => ?_⟩
      cases cached with
      | none => exact fromDatabase
      | some info =>
          change Program.Only _ _ (if info.sha256Hash.isEmpty then _ else _)
          split
          · exact ⟨trivial, fun _ => fromDatabase⟩
          · trivial
  | isBucketEmpty bucketId | createMultipartUpload uploadId bucketId key contentType expiresAt
  | deleteCasBlob sha256Hash =>
      refine ⟨trivial, fun answer => ?_⟩
      cases answer <;> trivial
  | getCasBlob sha256Hash | getMultipartUpload uploadId =>
      refine ⟨trivial, fun answer => ?_⟩
      rcases answer with err | _ | row <;> trivial
  | listObjects bucketId keyPrefix startAfter maxKeys =>
      refine ⟨trivial, fun answer => ?_⟩
      cases answer with
      | error err => trivial
      | ok rows =>
          dsimp only [Program.bind]
          split <;> trivial
  | listParts uploadId partNumberMarker maxParts =>
      refine ⟨trivial, fun answer => ?_⟩
      cases answer with
      | error err => trivial
      | ok rows =>
          dsimp only [Program.bind]
          split <;> trivial
  | checkIdempotency idempotencyKey =>
      refine ⟨trivial, fun answer => ?_⟩
      rcases answer with err | _ | record
      · trivial
      · trivial
      · refine ⟨trivial, fun expiresAt => ⟨trivial, fun now => ?_⟩⟩
        change Program.Only _ _ (if (expiresAt : Int) ≤ now then _ else _)
        split <;> trivial
  | recordIdempotency idempotencyKey requestHash responseStatus responseBody ttlSeconds =>
      refine ⟨trivial, fun now => ⟨trivial, fun answer => ?_⟩⟩
      cases answer <;> trivial
  | _ => exact alone.elim

/-- `CanDeleteCasBlob` writes nothing in its transaction. -/
theorem safe_canDeleteCasBlob (sha256Hash : Bytes) (known : Tables) :
    Safe (E := engine indexed) (Exact .all) (KeepsReferences indexed)
      (MetaStore.canDeleteCasBlob sha256Hash) known (fun _ => False) none := by
  have committed : ∀ reclaimable data held, Safe (E := engine indexed) (Exact .all)
      (KeepsReferences indexed) (MetaStore.canDeleteCasBlob.commitWith reclaimable) data held
      (some []) := by
    intro reclaimable data held
    refine safeThen_commit (fun data exact _ => exact) ?_
    intro data answered exact
    cases answered <;> exact ⟨rfl, fun _ => not_false⟩
  have failed : ∀ (err : SqlError) data held transaction, Safe (E := engine indexed)
      (Exact .all) (KeepsReferences indexed)
      (MetaM.rollback >>= fun _ => (pure (.err .DatabaseError err) :
        MetaM indexed (Result Bool))) data held transaction := fun _ _ _ _ =>
    safeThen_rollback fun _ _ => ⟨rfl, fun _ => not_false⟩
  refine safeThen_begin fun start _ _ => safeThen_exec (fun data err _ _ _ =>
    failed err data _ _) ?_
  intro data exact _ _ found writes evaluated
  obtain rfl : writes = [] := by
    cases evaluated
    rfl
  cases found with
  | none => exact committed false _ _
  | some refCount =>
      change SafeThen _ _ _ (if refCount ≠ 0 then _ else _) _ _ _
      split
      · exact committed false _ _
      · refine safeThen_exec (fun data err _ _ _ => failed err data _ _) ?_
        intro data exact _ _ objectCount writes evaluated
        obtain rfl : writes = [] := by
          cases evaluated
          rfl
        change SafeThen _ _ _ (if (objectCount : Nat) > 0 then _ else _) _ _ _
        split
        · exact committed false _ _
        · refine safeThen_exec (fun data err _ _ _ => failed err data _ _) ?_
          intro data exact _ _ partCount writes evaluated
          obtain rfl : writes = [] := by
            cases evaluated
            rfl
          exact committed _ _ _

/-- Calls that store no empty blob key and give no reference back outside a transaction. -/
def MetaCall.KeepsCounters : MetaCall → Prop
  | .putObjectWithRefCount _ _ _ _ _ sha256Hash => sha256Hash ≠ []
  | .putPartWithRefCount _ _ sha256Hash _ _ => sha256Hash ≠ []
  | .decrementRefCountAndCheckZero _ | .deleteMultipartUpload _ => False
  | _ => True

/-- The program of such a call keeps the counters exact beside any number of other
sessions. -/
theorem safe_call {call : MetaCall} (keeps : call.KeepsCounters) (known : Tables)
    (exact : Exact .all known) :
    Safe (E := engine indexed) (Exact .all) (KeepsReferences indexed) (call.code indexed) known
      (fun _ => False) none := by
  have upserts : ∀ {α : Type} {program : MetaM indexed α},
      KeepsExact indexed .all program known (fun _ => False) none →
      Safe (E := engine indexed) (Exact .all) (KeepsReferences indexed) program known
        (fun _ => False) none :=
    fun safe => safe.mono (fun _ _ _ keeps => keeps.1) fun _ _ _ _ ended => ended
  cases call with
  | putObjectWithRefCount bucketId key size etag contentType sha256Hash =>
      apply upserts
      exact safe_putObjectLoop rfl (by exact keeps) kMaxRetries known exact
  | deleteObjectWithRefCount bucketId key =>
      exact upserts (safe_deleteObjectWithRefCount rfl bucketId key known)
  | putPartWithRefCount uploadId partNumber sha256Hash size etag =>
      apply upserts
      exact safe_putPartLoop rfl (by exact keeps) kMaxRetries known exact
  | canDeleteCasBlob sha256Hash => exact safe_canDeleteCasBlob sha256Hash known
  | decrementRefCountAndCheckZero sha256Hash => exact keeps.elim
  | deleteMultipartUpload uploadId => exact keeps.elim
  | _ =>
      refine safe_of_sentAlone (only_of_runsAlone ?_) known
      exact trivial

end MiniS3.Db
