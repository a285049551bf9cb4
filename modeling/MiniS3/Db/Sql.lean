import MiniS3.Db.Schema
import MiniS3.Lib.RowLocks
import MiniS3.Util.Utf8
import Mathlib.Data.List.Sort

/-!
# SQL statements

One constructor for each statement text the metadata store sends, with the values
that are spliced into it.  `eval` gives the answer of a statement and the row
images it writes, on the tables it sees; the errors it reports by itself are the
duplicate key and the foreign key errors of the schema.  Every other error is
left to the engine, which may report one at any statement.
-/

namespace MiniS3.Db

open Lib

/-- The text of `mysql_error`. -/
abbrev SqlError :=
  Bytes

/-- `Duplicate entry` with the value that is there already. -/
def duplicateEntry (value keyName : Bytes) : SqlError :=
  ascii "Duplicate entry '" ++ value ++ ascii "' for key '" ++ keyName ++ ascii "'"

/-- A child row without its parent. -/
def noParentRow : SqlError :=
  ascii "Cannot add or update a child row: a foreign key constraint fails"

/-- A parent row that still has children. -/
def hasChildRow : SqlError :=
  ascii "Cannot delete or update a parent row: a foreign key constraint fails"

/-- The statements of the metadata store. -/
inductive Stmt
  | insertBucket (name : Bytes)
  | selectBucketByName (name : Bytes)
  | selectBucketById (id : Int)
  /-- `SELECT ... FROM buckets ORDER BY name` -/
  | selectBuckets
  /-- `DELETE FROM buckets WHERE name`, cascading to objects, uploads and parts -/
  | deleteBucket (name : Bytes)
  | countObjectsInBucket (bucketId : Int)
  /-- `INSERT INTO cas_blobs ... VALUES(k, size, 1) ON DUPLICATE KEY UPDATE ref_count = ref_count + 1` -/
  | upsertCasBlob (casKey : Bytes) (size : Int)
  /-- `UPDATE cas_blobs SET ref_count = IF(ref_count>0, ref_count-1, 0)` -/
  | decrementRefCount (casKey : Bytes)
  | selectRefCount (casKey : Bytes)
  | selectRefCountForUpdate (casKey : Bytes)
  | selectCasBlob (casKey : Bytes)
  | deleteCasBlob (casKey : Bytes)
  | insertObject (bucketId : Int) (row : ObjectRow)
  /-- `INSERT INTO objects ... ON DUPLICATE KEY UPDATE` of all columns but `object_key` -/
  | upsertObject (bucketId : Int) (row : ObjectRow)
  | selectObjectCasKeyForUpdate (bucketId : Int) (key : Bytes)
  | selectObject (bucketId : Int) (key : Bytes)
  | deleteObject (bucketId : Int) (key : Bytes)
  /-- `WHERE bucket_id = b [AND object_key LIKE 'p%'] [AND object_key > 'a'] ORDER BY
  object_key LIMIT limit`; an empty text leaves its condition out -/
  | selectObjects (bucketId : Int) (keyPrefix startAfter : Bytes) (limit : Int)
  | countObjectsWithCasKey (casKey : Bytes)
  | insertUpload (uploadId : Bytes) (row : UploadRow)
  | selectUpload (uploadId : Bytes)
  /-- `DELETE FROM multipart_uploads`, cascading to the parts -/
  | deleteUpload (uploadId : Bytes)
  | upsertPart (uploadId : Bytes) (partNumber : Int) (row : PartRow)
  | selectPartCasKeyForUpdate (uploadId : Bytes) (partNumber : Int)
  /-- `WHERE upload_id = u AND part_number > marker ORDER BY part_number LIMIT limit` -/
  | selectParts (uploadId : Bytes) (marker limit : Int)
  | countPartsWithCasKey (casKey : Bytes)
  | selectIdempotency (key : Bytes)
  | upsertIdempotency (key : Bytes) (row : IdempotencyRow)

/-- The answer to each statement: the rows of a query, `mysql_insert_id` or
`mysql_affected_rows` where the program asks for it. -/
@[reducible]
def Stmt.Ans : Stmt → Type
  | .insertBucket _ => Int
  | .selectBucketByName _ | .selectBucketById _ => Option (Int × Bytes)
  | .selectBuckets => List (Int × Bytes)
  | .deleteBucket _ | .countObjectsInBucket _ => Nat
  | .upsertCasBlob _ _ | .decrementRefCount _ | .deleteCasBlob _ => Unit
  | .selectRefCount _ | .selectRefCountForUpdate _ => Option Nat
  | .selectCasBlob _ => Option CasBlobRow
  | .insertObject _ _ | .upsertObject _ _ => Unit
  | .selectObjectCasKeyForUpdate _ _ => Option Bytes
  | .selectObject _ _ => Option ObjectRow
  | .deleteObject _ _ => Nat
  | .selectObjects _ _ _ _ => List ObjectRow
  | .countObjectsWithCasKey _ => Nat
  | .insertUpload _ _ => Unit
  | .selectUpload _ => Option UploadRow
  | .deleteUpload _ => Nat
  | .upsertPart _ _ _ => Unit
  | .selectPartCasKeyForUpdate _ _ => Option Bytes
  | .selectParts _ _ _ => List (Int × PartRow)
  | .countPartsWithCasKey _ => Nat
  | .selectIdempotency _ => Option IdempotencyRow
  | .upsertIdempotency _ _ => Unit

/-- What a character of a pattern stands for. -/
inductive Symbol
  /-- `%` -/
  | any
  /-- `_` -/
  | one
  | exactly (character : Bytes)
  deriving DecidableEq

/-- The symbols of a pattern; a character after a backslash is taken as it is. -/
def readPattern : Bool → List Bytes → List Symbol
  | false, [] => []
  | true, [] => [.exactly [92]]
  | true, literal :: pattern => .exactly literal :: readPattern false pattern
  | false, character :: pattern =>
      if character = [37] then .any :: readPattern false pattern
      else if character = [95] then .one :: readPattern false pattern
      else if character = [92] then readPattern true pattern
      else .exactly character :: readPattern false pattern

/-- Match a text, character by character.  Two characters are the same if they have the same
weight. -/
def matchSymbols (weight : Bytes → Bytes) : List Symbol → List Bytes → Bool
  | [], text => text.isEmpty
  | .any :: symbols, text => text.tails.any (matchSymbols weight symbols)
  | .one :: _, [] => false
  | .one :: symbols, _ :: text => matchSymbols weight symbols text
  | .exactly _ :: _, [] => false
  | .exactly literal :: symbols, character :: text =>
      weight literal == weight character && matchSymbols weight symbols text

/-- `text LIKE pattern`. -/
def like (weight : Bytes → Bytes) (pattern text : Bytes) : Bool :=
  matchSymbols weight (readPattern false pattern.characters) text.characters

section

variable (indexed : Bytes → Bytes)

namespace Tables

/-- The `objects` row with exactly this key. -/
def findObject (tables : Tables) (bucketId : Int) (key : Bytes) : Option ObjectRow :=
  (tables.objects.lookup (bucketId, indexed key)).filter fun row => row.objectKey = key

/-- The parts of an upload, in no particular order. -/
def partsOf (tables : Tables) (uploadId : Bytes) : List (Int × PartRow) :=
  (tables.multipartParts.rows.filter fun entry => entry.1.1 = uploadId).map
    fun entry => (entry.1.2, entry.2)

/-- The row of a bucket, found by its name. -/
def bucketNamed (tables : Tables) (name : Bytes) : Option (Int × Bytes) :=
  (tables.buckets.rows.find? fun entry => entry.2 = name).map fun entry => (entry.1, entry.2)

/-- The uploads of a bucket, in no particular order. -/
def uploadsOf (tables : Tables) (bucketId : Int) : List Bytes :=
  (tables.multipartUploads.rows.filter fun entry => entry.2.bucketId = bucketId).map
    fun entry => entry.1

/-- The images that the deletion of an upload writes: its row and its parts are gone. -/
def uploadCascade (tables : Tables) (uploadId : Bytes) : List Write :=
  .upload uploadId none ::
    (tables.partsOf uploadId).map fun part => .part (uploadId, part.1) none

/-- The images that the deletion of a bucket writes: its row, its objects, its uploads and
their parts are gone. -/
def bucketCascade (tables : Tables) (bucketId : Int) : List Write :=
  .bucket bucketId none ::
    ((tables.objects.rows.filter fun entry => entry.1.1 = bucketId).map fun entry =>
      .object entry.1 none) ++
    (tables.uploadsOf bucketId).flatMap tables.uploadCascade

end Tables

/-- The answer of a statement and the images it writes.  Texts are compared byte by byte, as
under a binary collation. -/
def Stmt.eval : (stmt : Stmt) → Tables → Except SqlError (stmt.Ans × List Write)
  | .insertBucket name, tables =>
      if tables.buckets.rows.any fun entry => entry.2 = name then
        .error (duplicateEntry name (ascii "buckets.name"))
      else .ok (tables.nextBucketId, [.bucket tables.nextBucketId (some name)])
  | .selectBucketByName name, tables =>
      .ok ((tables.buckets.rows.find? fun entry => entry.2 = name).map
        fun entry => (entry.1, entry.2), [])
  | .selectBucketById id, tables =>
      .ok ((tables.buckets.lookup id).map fun name => (id, name), [])
  | .selectBuckets, tables =>
      .ok ((tables.buckets.rows.map fun entry => (entry.1, entry.2)).insertionSort
        fun one two => one.2 ≤ two.2, [])
  | .deleteBucket name, tables =>
      match tables.bucketNamed name with
      | none => .ok ((0 : Nat), [])
      | some bucket => .ok ((1 : Nat), tables.bucketCascade bucket.1)
  | .countObjectsInBucket bucketId, tables =>
      .ok (tables.objects.count (fun entry _ => entry.1 = bucketId), [])
  | .upsertCasBlob casKey size, tables =>
      .ok ((), [.casBlob casKey
        (some (CasBlobRow.incremented size (tables.casBlobs.lookup casKey)))])
  | .decrementRefCount casKey, tables =>
      match tables.casBlobs.lookup casKey with
      | none => .ok ((), [])
      | some row => .ok ((), [.casBlob casKey (some row.decremented)])
  | .selectRefCount casKey, tables =>
      .ok ((tables.casBlobs.lookup casKey).map CasBlobRow.refCount, [])
  | .selectRefCountForUpdate casKey, tables =>
      .ok ((tables.casBlobs.lookup casKey).map CasBlobRow.refCount, [])
  | .selectCasBlob casKey, tables => .ok (tables.casBlobs.lookup casKey, [])
  | .deleteCasBlob casKey, tables =>
      if tables.objects.count (fun _ row => row.casKey = casKey) ≠ 0 ∨
          tables.multipartParts.count (fun _ row => row.casKey = casKey) ≠ 0 then
        .error hasChildRow
      else .ok ((), [.casBlob casKey none])
  | .insertObject bucketId row, tables =>
      match tables.objects.lookup (bucketId, indexed row.objectKey) with
      | some _ =>
          .error (duplicateEntry (Bytes.ofInt bucketId ++ ascii "-" ++ indexed row.objectKey)
            (ascii "objects.uk_bucket_key"))
      | none =>
          if (tables.buckets.lookup bucketId).isNone ∨
              (tables.casBlobs.lookup row.casKey).isNone then
            .error noParentRow
          else .ok ((), [.object (bucketId, indexed row.objectKey) (some row)])
  | .upsertObject bucketId row, tables =>
      match tables.objects.lookup (bucketId, indexed row.objectKey) with
      | some old =>
          if (tables.casBlobs.lookup row.casKey).isNone then .error noParentRow
          else .ok ((), [.object (bucketId, indexed row.objectKey)
            (some { row with objectKey := old.objectKey })])
      | none =>
          if (tables.buckets.lookup bucketId).isNone ∨
              (tables.casBlobs.lookup row.casKey).isNone then
            .error noParentRow
          else .ok ((), [.object (bucketId, indexed row.objectKey) (some row)])
  | .selectObjectCasKeyForUpdate bucketId key, tables =>
      .ok ((tables.findObject indexed bucketId key).map ObjectRow.casKey, [])
  | .selectObject bucketId key, tables => .ok (tables.findObject indexed bucketId key, [])
  | .deleteObject bucketId key, tables =>
      match tables.findObject indexed bucketId key with
      | none => .ok ((0 : Nat), [])
      | some _ => .ok ((1 : Nat), [.object (bucketId, indexed key) none])
  | .selectObjects bucketId keyPrefix startAfter limit, tables =>
      let listed := (tables.objects.rows.filter fun entry => entry.1.1 = bucketId).map
        fun entry => entry.2
      let matching := listed.filter fun row =>
        (keyPrefix.isEmpty || like id (keyPrefix ++ [37]) row.objectKey) &&
          (startAfter.isEmpty || decide (startAfter < row.objectKey))
      .ok ((matching.insertionSort fun one two => one.objectKey ≤ two.objectKey).take
        limit.toNat, [])
  | .countObjectsWithCasKey casKey, tables =>
      .ok (tables.objects.count (fun _ row => row.casKey = casKey), [])
  | .insertUpload uploadId row, tables =>
      match tables.multipartUploads.lookup uploadId with
      | some _ => .error (duplicateEntry uploadId (ascii "multipart_uploads.PRIMARY"))
      | none =>
          if (tables.buckets.lookup row.bucketId).isNone then .error noParentRow
          else .ok ((), [.upload uploadId (some row)])
  | .selectUpload uploadId, tables => .ok (tables.multipartUploads.lookup uploadId, [])
  | .deleteUpload uploadId, tables =>
      match tables.multipartUploads.lookup uploadId with
      | none => .ok ((0 : Nat), [])
      | some _ =>
          .ok ((1 : Nat), .upload uploadId none ::
            (tables.partsOf uploadId).map fun part => .part (uploadId, part.1) none)
  | .upsertPart uploadId partNumber row, tables =>
      if (tables.multipartUploads.lookup uploadId).isNone ∨
          (tables.casBlobs.lookup row.casKey).isNone then
        .error noParentRow
      else .ok ((), [.part (uploadId, partNumber) (some row)])
  | .selectPartCasKeyForUpdate uploadId partNumber, tables =>
      .ok ((tables.multipartParts.lookup (uploadId, partNumber)).map PartRow.casKey, [])
  | .selectParts uploadId marker limit, tables =>
      .ok ((((tables.partsOf uploadId).filter fun part => marker < part.1).insertionSort
        fun one two => one.1 ≤ two.1).take limit.toNat, [])
  | .countPartsWithCasKey casKey, tables =>
      .ok (tables.multipartParts.count (fun _ row => row.casKey = casKey), [])
  | .selectIdempotency key, tables => .ok (tables.idempotencyRecords.lookup key, [])
  | .upsertIdempotency key row, _ => .ok ((), [.idempotency key (some row)])

/-- Rows a statement waits for while another session holds them.  A plain query
waits for nothing. -/
def Stmt.waits : Stmt → Tables → List Row
  | .insertBucket _, tables => [.bucket tables.nextBucketId]
  | .deleteBucket name, tables =>
      match tables.bucketNamed name with
      | none => []
      | some bucket => (tables.bucketCascade bucket.1).map Write.target
  | .upsertCasBlob casKey _, _ | .decrementRefCount casKey, _
  | .selectRefCountForUpdate casKey, _ | .deleteCasBlob casKey, _ => [.casBlob casKey]
  | .insertObject bucketId row, _ | .upsertObject bucketId row, _ =>
      [.object (bucketId, indexed row.objectKey)]
  | .selectObjectCasKeyForUpdate bucketId key, _ | .deleteObject bucketId key, _ =>
      [.object (bucketId, indexed key)]
  | .insertUpload uploadId _, _ => [.upload uploadId]
  | .deleteUpload uploadId, tables =>
      .upload uploadId :: (tables.partsOf uploadId).map fun part => .part (uploadId, part.1)
  | .upsertPart uploadId partNumber _, _ | .selectPartCasKeyForUpdate uploadId partNumber, _ =>
      [.part (uploadId, partNumber)]
  | .upsertIdempotency key _, _ => [.idempotency key]
  | .selectBucketByName _, _ | .selectBucketById _, _ | .selectBuckets, _
  | .countObjectsInBucket _, _ | .selectObjects _ _ _ _, _ | .selectRefCount _, _
  | .selectCasBlob _, _ | .selectObject _ _, _ | .countObjectsWithCasKey _, _
  | .selectUpload _, _ | .selectParts _ _ _, _ | .countPartsWithCasKey _, _
  | .selectIdempotency _, _ => []

/-- Rows a `SELECT ... FOR UPDATE` finds. -/
def Stmt.selected : Stmt → Tables → List Row
  | .selectRefCountForUpdate casKey, tables =>
      if (tables.casBlobs.lookup casKey).isSome then [.casBlob casKey] else []
  | .selectObjectCasKeyForUpdate bucketId key, tables =>
      if (tables.findObject indexed bucketId key).isSome then [.object (bucketId, indexed key)]
      else []
  | .selectPartCasKeyForUpdate uploadId partNumber, tables =>
      if (tables.multipartParts.lookup (uploadId, partNumber)).isSome then
        [.part (uploadId, partNumber)]
      else []
  | _, _ => []

/-- Rows a successful statement holds until its transaction ends: those it writes
and those a locking query finds. -/
def Stmt.locks (stmt : Stmt) (tables : Tables) : List Row :=
  match stmt.eval indexed tables with
  | .error _ => []
  | .ok (_, writes) => writes.map Write.target ++ stmt.selected indexed tables

end

end MiniS3.Db
