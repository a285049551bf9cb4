import MiniS3.Lib.Table
import MiniS3.Util.Bytes

/-!
# The metadata schema

The tables of `mysql_init.sql` that the server reads and writes.  A table is
keyed by its primary or unique key, so that two rows with one key cannot be
stored.  Row ids of `objects` and the columns `created_at` and `updated_at` are
left out: no modelled function decides anything by them.

`objects` is unique on `(bucket_id, object_key(255))`.  What the unique index
sees of an object key is a parameter `indexed` of the statements: the identity
for an index on the full key, a prefix for the declared one.  The stored row keeps
the whole key.
-/

namespace MiniS3.Db

open Lib

/-- The first characters of a UTF-8 text: a byte `10xxxxxx` belongs to the character
before it. -/
def takeCharacters : Nat → Bytes → Bytes
  | _, [] => []
  | count, byte :: rest =>
      if byte &&& 0xC0 = 0x80 then byte :: takeCharacters count rest
      else
        match count with
        | 0 => []
        | left + 1 => byte :: takeCharacters left rest

/-- What `uk_bucket_key (bucket_id, object_key(255))` sees of an object key. -/
def ukBucketKey : Bytes → Bytes :=
  takeCharacters 255

/-- A row of `cas_blobs`. -/
structure CasBlobRow where
  size : Int
  refCount : Nat
  deriving DecidableEq

namespace CasBlobRow

/-- `VALUES(cas_key, size, 1) ON DUPLICATE KEY UPDATE ref_count = ref_count + 1`. -/
def incremented (size : Int) : Option CasBlobRow → CasBlobRow
  | none => ⟨size, 1⟩
  | some row => { row with refCount := row.refCount + 1 }

/-- `ref_count = IF(ref_count>0, ref_count-1, 0)`. -/
def decremented (row : CasBlobRow) : CasBlobRow :=
  { row with refCount := if row.refCount > 0 then row.refCount - 1 else 0 }

end CasBlobRow

/-- A row of `objects`. -/
structure ObjectRow where
  objectKey : Bytes
  casKey : Bytes
  size : Int
  contentType : Bytes
  etag : Bytes
  deriving DecidableEq

/-- A row of `multipart_uploads`. -/
structure UploadRow where
  bucketId : Int
  objectKey : Bytes
  contentType : Bytes
  expiresAt : Int
  deriving DecidableEq

/-- A row of `multipart_parts`. -/
structure PartRow where
  casKey : Bytes
  size : Int
  etag : Bytes
  deriving DecidableEq

/-- A row of `idempotency_records`. -/
structure IdempotencyRow where
  requestHash : Bytes
  responseStatus : Int
  responseBody : Bytes
  expiresAt : Int
  deriving DecidableEq

/-- The content of all tables. -/
structure Tables where
  /-- `id ↦ name`. -/
  buckets : Table Int Bytes
  /-- `cas_key ↦ row`. -/
  casBlobs : Table Bytes CasBlobRow
  /-- `(bucket_id, indexed object_key) ↦ row`. -/
  objects : Table (Int × Bytes) ObjectRow
  /-- `upload_id ↦ row`. -/
  multipartUploads : Table Bytes UploadRow
  /-- `(upload_id, part_number) ↦ row`. -/
  multipartParts : Table (Bytes × Int) PartRow
  /-- `idempotency_key ↦ row`. -/
  idempotencyRecords : Table Bytes IdempotencyRow
  /-- The next `AUTO_INCREMENT` value of `buckets`. -/
  nextBucketId : Int
  deriving DecidableEq

/-- Which row of which table. -/
inductive Row
  | bucket (id : Int)
  | casBlob (casKey : Bytes)
  | object (entry : Int × Bytes)
  | upload (uploadId : Bytes)
  | part (entry : Bytes × Int)
  | idempotency (key : Bytes)
  deriving DecidableEq

/-- A row image: the row as it is written, or `none` for a row that is deleted. -/
inductive Write
  | bucket (id : Int) (image : Option Bytes)
  | casBlob (casKey : Bytes) (image : Option CasBlobRow)
  | object (entry : Int × Bytes) (image : Option ObjectRow)
  | upload (uploadId : Bytes) (image : Option UploadRow)
  | part (entry : Bytes × Int) (image : Option PartRow)
  | idempotency (key : Bytes) (image : Option IdempotencyRow)
  deriving DecidableEq

namespace Write

/-- The row an image belongs to. -/
def target : Write → Row
  | .bucket id _ => .bucket id
  | .casBlob casKey _ => .casBlob casKey
  | .object entry _ => .object entry
  | .upload uploadId _ => .upload uploadId
  | .part entry _ => .part entry
  | .idempotency key _ => .idempotency key

end Write

/-- Put a row image into a table. -/
def put {κ ν : Type} [DecidableEq κ] (key : κ) (image : Option ν) (table : Table κ ν) :
    Table κ ν :=
  match image with
  | some row => table.set key row
  | none => table.erase key

theorem lookup_put_self {κ ν : Type} [DecidableEq κ] (key : κ) (image : Option ν)
    (table : Table κ ν) : (put key image table).lookup key = image := by
  cases image with
  | none => exact Table.lookup_erase_self key table
  | some row => exact Table.lookup_set_self key row table

theorem lookup_put_ne {κ ν : Type} [DecidableEq κ] {key other : κ} (image : Option ν)
    (table : Table κ ν) (different : other ≠ key) :
    (put key image table).lookup other = table.lookup other := by
  cases image with
  | none => exact Table.lookup_erase_ne table different
  | some row => exact Table.lookup_set_ne row table different

namespace Tables

/-- Tables that hold nothing. -/
def empty : Tables :=
  ⟨∅, ∅, ∅, ∅, ∅, ∅, 1⟩

/-- Put a row image into its table.  The counter of `buckets` moves past every id
that is stored. -/
def apply (tables : Tables) : Write → Tables
  | .bucket id image =>
      { tables with
        buckets := put id image tables.buckets
        nextBucketId := max tables.nextBucketId (id + 1) }
  | .casBlob casKey image => { tables with casBlobs := put casKey image tables.casBlobs }
  | .object entry image => { tables with objects := put entry image tables.objects }
  | .upload uploadId image =>
      { tables with multipartUploads := put uploadId image tables.multipartUploads }
  | .part entry image => { tables with multipartParts := put entry image tables.multipartParts }
  | .idempotency key image =>
      { tables with idempotencyRecords := put key image tables.idempotencyRecords }

/-- Put a list of row images into their tables, in order. -/
def applyAll (tables : Tables) (writes : List Write) : Tables :=
  writes.foldl apply tables

@[simp]
theorem applyAll_nil (tables : Tables) : tables.applyAll [] = tables :=
  rfl

@[simp]
theorem applyAll_cons (tables : Tables) (write : Write) (rest : List Write) :
    tables.applyAll (write :: rest) = (tables.apply write).applyAll rest :=
  rfl

@[simp]
theorem applyAll_append (tables : Tables) (first second : List Write) :
    tables.applyAll (first ++ second) = (tables.applyAll first).applyAll second :=
  List.foldl_append

/-- Two contents agree on a row. -/
def Same (row : Row) (first second : Tables) : Prop :=
  match row with
  | .bucket id => first.buckets.lookup id = second.buckets.lookup id
  | .casBlob casKey => first.casBlobs.lookup casKey = second.casBlobs.lookup casKey
  | .object entry => first.objects.lookup entry = second.objects.lookup entry
  | .upload uploadId =>
      first.multipartUploads.lookup uploadId = second.multipartUploads.lookup uploadId
  | .part entry => first.multipartParts.lookup entry = second.multipartParts.lookup entry
  | .idempotency key =>
      first.idempotencyRecords.lookup key = second.idempotencyRecords.lookup key

theorem Same.refl (row : Row) (tables : Tables) : Same row tables tables := by
  cases row <;> rfl

theorem Same.trans {row : Row} {first second third : Tables} (one : Same row first second)
    (two : Same row second third) : Same row first third := by
  cases row <;> exact Eq.trans one two

/-- An image changes no row but its own. -/
theorem same_apply {row : Row} (tables : Tables) {write : Write} (apart : row ≠ write.target) :
    Same row tables (tables.apply write) := by
  cases write <;> cases row <;>
    first
    | exact rfl
    | exact (lookup_put_ne _ _ (by rintro rfl; exact apart rfl)).symm

/-- Two contents that agree on a row agree on it after the same image. -/
theorem Same.apply {row : Row} {first second : Tables} (same : Same row first second)
    (write : Write) : Same row (first.apply write) (second.apply write) := by
  by_cases own : row = write.target
  · subst own
    cases write <;> simp only [Same, Tables.apply, Write.target, lookup_put_self]
  · have firstKept := same_apply first own
    have secondKept := same_apply second own
    cases row <;> exact firstKept.symm.trans (same.trans secondKept)

end Tables

end MiniS3.Db
