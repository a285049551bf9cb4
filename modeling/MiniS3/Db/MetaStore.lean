import MiniS3.Db.Session

/-!
# The metadata store

The functions of `MetaStore` as programs over SQL statements.  A `Transaction`
value of the source rolls back in its destructor when it was not committed; the
programs say `rollback` at the places where such a value goes out of scope.  The
two retried functions recurse on the attempts that are left after the current
one.

A `MYSQL_ROW` holds C strings: the name of a bucket, the key and the content type of an
object that are read back end at their first NUL.  The other columns of text have digests
and identifiers that the server makes itself.
-/

namespace MiniS3.Db

open Lib

variable {indexed : Bytes → Bytes}

/-- `IsRetryableTxnError`. -/
def isRetryableTxnError (err : SqlError) : Bool :=
  Bytes.contains err (ascii "Deadlock found") ||
    Bytes.contains err (ascii "Lock wait timeout exceeded")

/-- `IsDuplicateKeyError`. -/
def isDuplicateKeyError (err : SqlError) : Bool :=
  Bytes.contains err (ascii "Duplicate entry")

/-- `kMaxRetries`. -/
def kMaxRetries : Nat :=
  3

/-- What is read of a row of `objects`. -/
def ObjectRow.read (bucketId : Int) (row : ObjectRow) : ObjectInfo :=
  ⟨bucketId, row.objectKey.cString, row.casKey, row.size, row.etag, row.contentType.cString⟩

/-- What the metadata store tells of an upload. -/
structure MetaStore.MultipartUploadInfo where
  uploadId : Bytes
  bucketId : Int
  key : Bytes
  contentType : Bytes
  deriving DecidableEq

/-- What is read of a row of `multipart_uploads`. -/
def UploadRow.read (uploadId : Bytes) (row : UploadRow) : MetaStore.MultipartUploadInfo :=
  ⟨uploadId, row.bucketId, row.objectKey.cString, row.contentType.cString⟩

@[simp]
theorem UploadRow.read_uploadId (uploadId : Bytes) (row : UploadRow) :
    (row.read uploadId).uploadId = uploadId :=
  rfl

@[simp]
theorem UploadRow.read_bucketId (uploadId : Bytes) (row : UploadRow) :
    (row.read uploadId).bucketId = row.bucketId :=
  rfl

@[simp]
theorem UploadRow.read_key (uploadId : Bytes) (row : UploadRow) :
    (row.read uploadId).key = row.objectKey.cString :=
  rfl

namespace MetaStore

open MetaM

/-! ## Buckets -/

/-- `MetaStore::CreateBucket`. -/
def createBucket (name ownerId : Bytes) : MetaM indexed (Result Int) := do
  match ← exec (.insertBucket name) with
  | .error err =>
      if Bytes.contains err (ascii "Duplicate") then return .err .BucketAlreadyExists err
      else return .err .DatabaseError err
  | .ok id =>
      cache (.bucketCacheStore [⟨id, name, ownerId⟩])
      return .ok id

/-- `MetaStore::GetBucket`. -/
def getBucket (name : Bytes) : MetaM indexed (Result BucketInfo) := do
  match ← cache (.bucketCacheFind name) with
  | some info => return .ok info
  | none =>
      match ← exec (.selectBucketByName name) with
      | .error err => return .err .DatabaseError err
      | .ok none => return .err .NoSuchBucket (ascii "Bucket not found")
      | .ok (some (id, storedName)) =>
          cache (.bucketCacheStore [⟨id, storedName.cString, []⟩])
          return .ok ⟨id, storedName.cString, []⟩

/-- `MetaStore::GetBucketById`. -/
def getBucketById (id : Int) : MetaM indexed (Result BucketInfo) := do
  match ← exec (.selectBucketById id) with
  | .error err => return .err .DatabaseError err
  | .ok none => return .err .NoSuchBucket (ascii "Bucket not found")
  | .ok (some (storedId, name)) => return .ok ⟨storedId, name.cString, []⟩

/-- `MetaStore::ListBuckets`. -/
def listBuckets : MetaM indexed (Result (List BucketInfo)) := do
  match ← exec .selectBuckets with
  | .error err => return .err .DatabaseError err
  | .ok rows =>
      let buckets := rows.map fun row => ⟨row.1, row.2.cString, []⟩
      cache (.bucketCacheStore buckets)
      return .ok buckets

/-- `MetaStore::DeleteBucket`. -/
def deleteBucket (name : Bytes) : MetaM indexed (Result Unit) := do
  match ← exec (.deleteBucket name) with
  | .error err => return .err .DatabaseError err
  | .ok affectedRows =>
      if affectedRows = 0 then return .err .NoSuchBucket (ascii "Bucket not found")
      else
        cache (.bucketCacheErase name)
        return .ok ()

/-- `MetaStore::IsBucketEmpty`. -/
def isBucketEmpty (bucketId : Int) : MetaM indexed (Result Bool) := do
  match ← exec (.countObjectsInBucket bucketId) with
  | .error err => return .err .DatabaseError err
  | .ok count => return .ok (count == 0)

/-! ## Retried transactions -/

/-- What a retried function does with a failed statement: go on with the next
attempt when one is left and the error is retryable, and return it otherwise. -/
def retryOrFail {α : Type} (left : Nat) (again : MetaM indexed (Result α)) (err : SqlError)
    (message : Bytes) : MetaM indexed (Result α) :=
  if left ≠ 0 ∧ isRetryableTxnError err then again
  else pure (.err .DatabaseError message)

/-- The message of a failed `COMMIT`. -/
def commitMessage (err : SqlError) : Bytes :=
  if err.isEmpty then ascii "Failed to commit transaction" else err

/-- Move one reference from the blob `oldCas`, which is empty when there was none, to
the blob `newCas`, and report the old blob when nothing refers to it any more. -/
def moveReference (oldCas newCas : Bytes) (size : Int) :
    MetaM indexed (Except SqlError (Option Bytes)) := do
  if oldCas.isEmpty ∨ oldCas ≠ newCas then
    match ← exec (.upsertCasBlob newCas size) with
    | .error err => return .error err
    | .ok () => dropOld
  else dropOld
where
  /-- The old blob loses its reference unless it is the new blob. -/
  dropOld : MetaM indexed (Except SqlError (Option Bytes)) := do
    if ¬oldCas.isEmpty ∧ oldCas ≠ newCas then
      match ← exec (.decrementRefCount oldCas) with
      | .error err => return .error err
      | .ok () =>
          match ← exec (.selectRefCount oldCas) with
          | .error err => return .error err
          | .ok refCount => return .ok (if refCount = some 0 then some oldCas else none)
    else return .ok none

/-- The overwriting path of `PutObjectWithRefCount` once the old row is read. -/
def replaceObject (bucketId : Int) (row : ObjectRow) (left : Nat)
    (again : MetaM indexed (Result (Option Bytes))) (oldCas : Bytes) :
    MetaM indexed (Result (Option Bytes)) := do
  match ← moveReference oldCas row.casKey row.size with
  | .error err =>
      rollback
      retryOrFail left again err err
  | .ok gcCandidate =>
      match ← exec (.upsertObject bucketId row) with
      | .error err =>
          rollback
          retryOrFail left again err err
      | .ok () =>
          match ← commit with
          | .error err => retryOrFail left again err (commitMessage err)
          | .ok () =>
              cache (.redisSetEx bucketId row.objectKey
                ⟨bucketId, row.objectKey, row.casKey, row.size, row.etag, row.contentType⟩)
              return .ok gcCandidate

/-- The overwriting path of `PutObjectWithRefCount`. -/
def putObjectSlow (bucketId : Int) (row : ObjectRow) (left : Nat)
    (again : MetaM indexed (Result (Option Bytes))) :
    MetaM indexed (Result (Option Bytes)) := do
  begin
  match ← exec (.selectObjectCasKeyForUpdate bucketId row.objectKey) with
  | .error err =>
      rollback
      retryOrFail left again err err
  | .ok found => replaceObject bucketId row left again (found.getD [])

/-- One attempt of `PutObjectWithRefCount`: insert the row as a new one, and take the
overwriting path when its key is there already. -/
def putObjectAttempt (bucketId : Int) (row : ObjectRow) (left : Nat)
    (again : MetaM indexed (Result (Option Bytes))) :
    MetaM indexed (Result (Option Bytes)) := do
  begin
  match ← exec (.upsertCasBlob row.casKey row.size) with
  | .error err =>
      rollback
      retryOrFail left again err err
  | .ok () =>
      match ← exec (.insertObject bucketId row) with
      | .ok () =>
          match ← commit with
          | .error err => retryOrFail left again err (commitMessage err)
          | .ok () => return .ok none
      | .error err =>
          rollback
          if isDuplicateKeyError err then putObjectSlow bucketId row left again
          else retryOrFail left again err err

/-- The retry loop of `PutObjectWithRefCount`. -/
def putObjectLoop (bucketId : Int) (row : ObjectRow) :
    Nat → MetaM indexed (Result (Option Bytes))
  | 0 => pure (.err .DatabaseError (ascii "Transaction retry exhausted"))
  | left + 1 => putObjectAttempt bucketId row left (putObjectLoop bucketId row left)

/-- `MetaStore::PutObjectWithRefCount`. -/
def putObjectWithRefCount (bucketId : Int) (key : Bytes) (size : Int) (etag contentType
    sha256Hash : Bytes) : MetaM indexed (Result (Option Bytes)) :=
  putObjectLoop bucketId ⟨key, sha256Hash, size, contentType, etag⟩ kMaxRetries

/-! ## Objects -/

/-- `MetaStore::GetObject`.  A cached value without a blob is dropped. -/
def getObject (bucketId : Int) (key : Bytes) : MetaM indexed (Result ObjectInfo) := do
  match ← cache (.redisGet bucketId key) with
  | some info =>
      if info.sha256Hash.isEmpty then
        cache (.redisDel bucketId key)
        fromDatabase
      else return .ok info
  | none => fromDatabase
where
  /-- The lookup in the database, which fills the cache. -/
  fromDatabase : MetaM indexed (Result ObjectInfo) := do
    match ← exec (.selectObject bucketId key) with
    | .error err => return .err .DatabaseError err
    | .ok none => return .err .NoSuchKey (ascii "Object not found")
    | .ok (some row) =>
        cache (.redisSetEx bucketId key (row.read bucketId))
        return .ok (row.read bucketId)

/-- A page of objects; its list of common prefixes is always empty. -/
structure ListObjectsResult where
  objects : List ObjectInfo
  isTruncated : Bool
  nextContinuationToken : Bytes
  deriving DecidableEq

/-- `MetaStore::ListObjects`.  One row more than asked for is fetched; its key is the next
token.  The delimiter is not used. -/
def listObjects (bucketId : Int) (keyPrefix startAfter : Bytes) (maxKeys : Int) :
    MetaM indexed (Result ListObjectsResult) := do
  match ← exec (.selectObjects bucketId keyPrefix startAfter (maxKeys + 1)) with
  | .error err => return .err .DatabaseError err
  | .ok rows =>
      let objects := (rows.take maxKeys.toNat).map (ObjectRow.read bucketId)
      match rows.drop maxKeys.toNat with
      | [] => return .ok ⟨objects, false, []⟩
      | overflow :: _ => return .ok ⟨objects, true, overflow.objectKey.cString⟩

/-- The blob of a deleted row loses its reference, and is reported when nothing refers
to it any more. -/
def dropReference (casKey : Bytes) : MetaM indexed (Except SqlError (Option Bytes)) := do
  if casKey.isEmpty then return .ok none
  else
    match ← exec (.decrementRefCount casKey) with
    | .error err => return .error err
    | .ok () =>
        match ← exec (.selectRefCount casKey) with
        | .error err => return .error err
        | .ok refCount => return .ok (if refCount = some 0 then some casKey else none)

/-- `DeleteObjectWithRefCount` once the row is read. -/
def removeObject (bucketId : Int) (key casKey : Bytes) :
    MetaM indexed (Result (Option Bytes)) := do
  match ← exec (.deleteObject bucketId key) with
  | .error err =>
      rollback
      return .err .DatabaseError err
  | .ok _ =>
      match ← dropReference casKey with
      | .error err =>
          rollback
          return .err .DatabaseError err
      | .ok gcCandidate =>
          match ← commit with
          | .error _ => return .err .DatabaseError (ascii "Failed to commit transaction")
          | .ok () =>
              cache (.redisDel bucketId key)
              return .ok gcCandidate

/-- `MetaStore::DeleteObjectWithRefCount`. -/
def deleteObjectWithRefCount (bucketId : Int) (key : Bytes) :
    MetaM indexed (Result (Option Bytes)) := do
  begin
  match ← exec (.selectObjectCasKeyForUpdate bucketId key) with
  | .error err =>
      rollback
      return .err .DatabaseError err
  | .ok none =>
      rollback
      return .err .NoSuchKey (ascii "Object not found")
  | .ok (some casKey) => removeObject bucketId key casKey

/-! ## Blobs -/

/-- `MetaStore::GetCasBlob`. -/
def getCasBlob (sha256Hash : Bytes) : MetaM indexed (Result CasBlobRow) := do
  match ← exec (.selectCasBlob sha256Hash) with
  | .error err => return .err .DatabaseError err
  | .ok none => return .err .NoSuchKey (ascii "CAS blob not found")
  | .ok (some row) => return .ok row

/-- `MetaStore::DecrementRefCountAndCheckZero`. -/
def decrementRefCountAndCheckZero (sha256Hash : Bytes) : MetaM indexed (Result Bool) := do
  match ← exec (.decrementRefCount sha256Hash) with
  | .error err => return .err .DatabaseError err
  | .ok () =>
      match ← exec (.selectRefCount sha256Hash) with
      | .error err => return .err .DatabaseError err
      | .ok none => return .err .NoSuchKey (ascii "CAS blob not found")
      | .ok (some refCount) => return .ok (refCount == 0)

/-- `MetaStore::DeleteCasBlob`. -/
def deleteCasBlob (sha256Hash : Bytes) : MetaM indexed (Result Unit) := do
  match ← exec (.deleteCasBlob sha256Hash) with
  | .error err => return .err .DatabaseError err
  | .ok () => return .ok ()

/-- `MetaStore::CanDeleteCasBlob`. -/
def canDeleteCasBlob (sha256Hash : Bytes) : MetaM indexed (Result Bool) := do
  begin
  match ← exec (.selectRefCountForUpdate sha256Hash) with
  | .error err =>
      rollback
      return .err .DatabaseError err
  | .ok none => commitWith false
  | .ok (some refCount) =>
      if refCount ≠ 0 then commitWith false
      else
        match ← exec (.countObjectsWithCasKey sha256Hash) with
        | .error err =>
            rollback
            return .err .DatabaseError err
        | .ok objectCount =>
            if objectCount > 0 then commitWith false
            else
              match ← exec (.countPartsWithCasKey sha256Hash) with
              | .error err =>
                  rollback
                  return .err .DatabaseError err
              | .ok partCount => commitWith (partCount == 0)
where
  /-- Commit and answer. -/
  commitWith (reclaimable : Bool) : MetaM indexed (Result Bool) := do
    match ← commit with
    | .error _ => return .err .DatabaseError (ascii "Failed to commit transaction")
    | .ok () => return .ok reclaimable

/-! ## Multipart uploads -/

/-- What the metadata store tells of a part. -/
structure MultipartPartInfo where
  uploadId : Bytes
  partNumber : Int
  sha256Hash : Bytes
  size : Int
  etag : Bytes
  deriving DecidableEq

/-- A page of parts. -/
structure ListPartsResult where
  parts : List MultipartPartInfo
  isTruncated : Bool
  nextPartNumberMarker : Int
  deriving DecidableEq

/-- `MetaStore::CreateMultipartUpload`. -/
def createMultipartUpload (uploadId : Bytes) (bucketId : Int) (key contentType : Bytes)
    (expiresAt : Int) : MetaM indexed (Result Bytes) := do
  match ← exec (.insertUpload uploadId ⟨bucketId, key, contentType, expiresAt⟩) with
  | .error err => return .err .DatabaseError err
  | .ok () => return .ok uploadId

/-- `MetaStore::GetMultipartUpload`. -/
def getMultipartUpload (uploadId : Bytes) : MetaM indexed (Result MultipartUploadInfo) := do
  match ← exec (.selectUpload uploadId) with
  | .error err => return .err .DatabaseError err
  | .ok none => return .err .NoSuchUpload (ascii "Upload not found")
  | .ok (some row) => return .ok (row.read uploadId)

/-- `MetaStore::DeleteMultipartUpload`. -/
def deleteMultipartUpload (uploadId : Bytes) : MetaM indexed (Result Unit) := do
  match ← exec (.deleteUpload uploadId) with
  | .error err => return .err .DatabaseError err
  | .ok affectedRows =>
      if affectedRows = 0 then return .err .NoSuchUpload (ascii "Upload not found")
      else return .ok ()

/-- One attempt of `PutPartWithRefCount` once the old row is read. -/
def replacePart (uploadId : Bytes) (partNumber : Int) (row : PartRow) (left : Nat)
    (again : MetaM indexed (Result (Option Bytes))) (oldCas : Bytes) :
    MetaM indexed (Result (Option Bytes)) := do
  match ← moveReference oldCas row.casKey row.size with
  | .error err =>
      rollback
      retryOrFail left again err err
  | .ok gcCandidate =>
      match ← exec (.upsertPart uploadId partNumber row) with
      | .error err =>
          rollback
          retryOrFail left again err err
      | .ok () =>
          match ← commit with
          | .error err => retryOrFail left again err (commitMessage err)
          | .ok () => return .ok gcCandidate

/-- One attempt of `PutPartWithRefCount`. -/
def putPartAttempt (uploadId : Bytes) (partNumber : Int) (row : PartRow) (left : Nat)
    (again : MetaM indexed (Result (Option Bytes))) :
    MetaM indexed (Result (Option Bytes)) := do
  begin
  match ← exec (.selectPartCasKeyForUpdate uploadId partNumber) with
  | .error err =>
      rollback
      retryOrFail left again err err
  | .ok found => replacePart uploadId partNumber row left again (found.getD [])

/-- The retry loop of `PutPartWithRefCount`. -/
def putPartLoop (uploadId : Bytes) (partNumber : Int) (row : PartRow) :
    Nat → MetaM indexed (Result (Option Bytes))
  | 0 => pure (.err .DatabaseError (ascii "Transaction retry exhausted"))
  | left + 1 =>
      putPartAttempt uploadId partNumber row left (putPartLoop uploadId partNumber row left)

/-- `MetaStore::PutPartWithRefCount`. -/
def putPartWithRefCount (uploadId : Bytes) (partNumber : Int) (sha256Hash : Bytes) (size : Int)
    (etag : Bytes) : MetaM indexed (Result (Option Bytes)) :=
  putPartLoop uploadId partNumber ⟨sha256Hash, size, etag⟩ kMaxRetries

/-- `MetaStore::ListParts`.  One row more than asked for is fetched; its number is the
next marker. -/
def listParts (uploadId : Bytes) (partNumberMarker maxParts : Int) :
    MetaM indexed (Result ListPartsResult) := do
  match ← exec (.selectParts uploadId partNumberMarker (maxParts + 1)) with
  | .error err => return .err .DatabaseError err
  | .ok rows =>
      let parts := (rows.take maxParts.toNat).map fun part =>
        ⟨uploadId, part.1, part.2.casKey, part.2.size, part.2.etag⟩
      match rows.drop maxParts.toNat with
      | [] => return .ok ⟨parts, false, 0⟩
      | overflow :: _ => return .ok ⟨parts, true, overflow.1⟩

/-! ## Idempotency records -/

/-- `MetaStore::CheckIdempotency`.  A record whose time has passed is not found. -/
def checkIdempotency (idempotencyKey : Bytes) :
    MetaM indexed (Result (Option IdempotencyRow)) := do
  match ← exec (.selectIdempotency idempotencyKey) with
  | .error err => return .err .DatabaseError err
  | .ok none => return .ok none
  | .ok (some record) =>
      let expiresAt ← cache (.mktime record.expiresAt)
      let now ← cache .now
      if expiresAt ≤ now then return .ok none
      else return .ok (some { record with expiresAt := expiresAt })

/-- The default `ttl_seconds` of `RecordIdempotency`. -/
def defaultTtlSeconds : Int :=
  86400

/-- `MetaStore::RecordIdempotency`. -/
def recordIdempotency (idempotencyKey requestHash : Bytes) (responseStatus : Int)
    (responseBody : Bytes) (ttlSeconds : Int) : MetaM indexed (Result Unit) := do
  let now ← cache .now
  match ← exec (.upsertIdempotency idempotencyKey
    ⟨requestHash, responseStatus, responseBody, now + ttlSeconds⟩) with
  | .error err => return .err .DatabaseError err
  | .ok () => return .ok ()

end MetaStore

end MiniS3.Db
