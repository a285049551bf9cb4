import MiniS3.Db.Calls

/-!
# Collations

The schema declares `utf8mb4_unicode_ci`, under which texts compare as equal that differ
only in case.  A collation is left open here: it gives each text a sort key, by which `=`,
`>` and `ORDER BY` compare, and each character a weight, by which `LIKE` compares.  The
statements are those of `Stmt.eval`, which is the case of a binary collation.
-/

namespace MiniS3.Db

open Lib

/-- How the database compares texts. -/
structure Collation where
  sortKey : Bytes → Bytes
  weight : Bytes → Bytes

namespace Collation

/-- Texts are compared byte by byte. -/
def binary : Collation :=
  ⟨id, id⟩

/-- Texts are compared without the case of ASCII letters. -/
def caseless : Collation :=
  ⟨List.map fun byte => if 65 ≤ byte ∧ byte ≤ 90 then byte + 32 else byte,
    List.map fun byte => if 65 ≤ byte ∧ byte ≤ 90 then byte + 32 else byte⟩

variable (collation : Collation)

/-- `one <= two` of the database. -/
def Le (one two : Bytes) : Prop :=
  collation.sortKey one ≤ collation.sortKey two

instance : DecidableRel collation.Le :=
  fun one two => inferInstanceAs (Decidable (collation.sortKey one ≤ collation.sortKey two))

/-- `object_key LIKE 'prefix%'`, unless the prefix is empty. -/
def matchesPrefix (keyPrefix : Bytes) (row : ObjectRow) : Bool :=
  keyPrefix.isEmpty || like collation.weight (keyPrefix ++ [37]) row.objectKey

/-- `object_key > 'marker'`, unless the marker is empty. -/
def beyond (marker : Bytes) (row : ObjectRow) : Bool :=
  marker.isEmpty || decide (collation.sortKey marker < collation.sortKey row.objectKey)

end Collation

namespace Tables

variable (collation : Collation)

/-- The row of a bucket, found by a name that compares as equal. -/
def bucketEqual (tables : Tables) (name : Bytes) : Option (Int × Bytes) :=
  (tables.buckets.rows.find? fun entry => collation.sortKey entry.2 = collation.sortKey name).map
    fun entry => (entry.1, entry.2)

/-- The row of an object, found by a key that compares as equal. -/
def objectEqual (indexed : Bytes → Bytes) (tables : Tables) (bucketId : Int) (key : Bytes) :
    Option ObjectRow :=
  (tables.objects.lookup (bucketId, indexed key)).filter
    fun row => collation.sortKey row.objectKey = collation.sortKey key

end Tables

section

variable (indexed : Bytes → Bytes) (collation : Collation)

/-- The answer of a statement and the images it writes, under a collation. -/
def Stmt.evalUnder : (stmt : Stmt) → Tables → Except SqlError (stmt.Ans × List Write)
  | .insertBucket name, tables =>
      if tables.buckets.rows.any fun entry =>
          collation.sortKey entry.2 = collation.sortKey name then
        .error (duplicateEntry name (ascii "buckets.name"))
      else .ok (tables.nextBucketId, [.bucket tables.nextBucketId (some name)])
  | .selectBucketByName name, tables => .ok (tables.bucketEqual collation name, [])
  | .selectBuckets, tables =>
      .ok ((tables.buckets.rows.map fun entry => (entry.1, entry.2)).insertionSort
        fun one two => collation.Le one.2 two.2, [])
  | .deleteBucket name, tables =>
      match tables.bucketEqual collation name with
      | none => .ok ((0 : Nat), [])
      | some bucket => .ok ((1 : Nat), tables.bucketCascade bucket.1)
  | .selectObjectCasKeyForUpdate bucketId key, tables =>
      .ok ((tables.objectEqual collation indexed bucketId key).map ObjectRow.casKey, [])
  | .selectObject bucketId key, tables =>
      .ok (tables.objectEqual collation indexed bucketId key, [])
  | .deleteObject bucketId key, tables =>
      match tables.objectEqual collation indexed bucketId key with
      | none => .ok ((0 : Nat), [])
      | some _ => .ok ((1 : Nat), [.object (bucketId, indexed key) none])
  | .selectObjects bucketId keyPrefix startAfter limit, tables =>
      let listed := (tables.objects.rows.filter fun entry => entry.1.1 = bucketId).map
        fun entry => entry.2
      let matching := listed.filter fun row =>
        collation.matchesPrefix keyPrefix row && collation.beyond startAfter row
      .ok ((matching.insertionSort fun one two => collation.Le one.objectKey two.objectKey).take
        limit.toNat, [])
  | stmt, tables => stmt.eval indexed tables

/-- Under a binary collation these are the statements of the metadata store. -/
theorem Stmt.evalUnder_binary (stmt : Stmt) (tables : Tables) :
    stmt.evalUnder indexed .binary tables = stmt.eval indexed tables := by
  cases stmt <;> rfl

/-- The answer to a call that runs alone, under a collation. -/
def Alone.answerUnder : (op : (engine indexed).Op) → Alone → (engine indexed).OpAns op × Alone
  | .exec stmt, state =>
      match state.faults.head?.join with
      | some error => (.error error, state.advance)
      | none =>
          match stmt.evalUnder indexed collation state.view with
          | .error error => (.error error, state.advance)
          | .ok (answered, writes) => (.ok answered, (state.write writes).advance)
  | op, state => Alone.answer indexed op state

theorem Alone.answerUnder_binary : Alone.answerUnder indexed .binary = Alone.answer indexed := by
  funext op state
  cases op with
  | exec stmt =>
      simp only [Alone.answerUnder, Stmt.evalUnder_binary]
      rfl
  | begin => rfl
  | commit => rfl
  | rollback => rfl
  | aux op => rfl

/-- Run a call alone, under a collation. -/
def MetaCall.performUnder (call : MetaCall) (faults : List (Option SqlError)) (clock : Clock)
    (tables : Tables) (caches : Caches) : call.Ans × Tables × Caches :=
  let done := Program.run (Alone.answerUnder indexed collation) (call.code indexed)
    ⟨tables, none, caches, faults, clock⟩
  (done.1, done.2.tables, done.2.caches)

/-- Under a binary collation a call does what it does in the rest of the model. -/
theorem MetaCall.performUnder_binary (call : MetaCall) (faults : List (Option SqlError))
    (clock : Clock) (tables : Tables) (caches : Caches) :
    call.performUnder indexed .binary faults clock tables caches =
      call.perform indexed faults clock tables caches := by
  rw [performUnder, perform, Alone.answerUnder_binary]

end

end MiniS3.Db
