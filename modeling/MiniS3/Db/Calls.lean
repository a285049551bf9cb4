import MiniS3.Db.MetaStore

/-!
# Calls of the metadata store

The server uses the metadata store through its functions, each of which runs as a
whole: a committed transaction, or a single statement.  A call is a function with
its arguments; `perform` runs its program alone, with a pattern of statements that
fail.
-/

namespace MiniS3.Db

open Lib MetaStore

/-- The functions of the metadata store, with their arguments. -/
inductive MetaCall
  | createBucket (name ownerId : Bytes)
  | getBucket (name : Bytes)
  | getBucketById (id : Int)
  | listBuckets
  | deleteBucket (name : Bytes)
  | isBucketEmpty (bucketId : Int)
  | putObjectWithRefCount (bucketId : Int) (key : Bytes) (size : Int)
      (etag contentType sha256Hash : Bytes)
  | getObject (bucketId : Int) (key : Bytes)
  | listObjects (bucketId : Int) (keyPrefix startAfter : Bytes) (maxKeys : Int)
  | deleteObjectWithRefCount (bucketId : Int) (key : Bytes)
  | getCasBlob (sha256Hash : Bytes)
  | decrementRefCountAndCheckZero (sha256Hash : Bytes)
  | deleteCasBlob (sha256Hash : Bytes)
  | canDeleteCasBlob (sha256Hash : Bytes)
  | createMultipartUpload (uploadId : Bytes) (bucketId : Int) (key contentType : Bytes)
      (expiresAt : Int)
  | getMultipartUpload (uploadId : Bytes)
  | deleteMultipartUpload (uploadId : Bytes)
  | putPartWithRefCount (uploadId : Bytes) (partNumber : Int) (sha256Hash : Bytes) (size : Int)
      (etag : Bytes)
  | listParts (uploadId : Bytes) (partNumberMarker maxParts : Int)
  | checkIdempotency (idempotencyKey : Bytes)
  | recordIdempotency (idempotencyKey requestHash : Bytes) (responseStatus : Int)
      (responseBody : Bytes) (ttlSeconds : Int)

namespace MetaCall

/-- What each function returns. -/
@[reducible]
def Ans : MetaCall → Type
  | .createBucket _ _ => Result Int
  | .getBucket _ | .getBucketById _ => Result BucketInfo
  | .listBuckets => Result (List BucketInfo)
  | .deleteBucket _ => Result Unit
  | .isBucketEmpty _ => Result Bool
  | .putObjectWithRefCount _ _ _ _ _ _ => Result (Option Bytes)
  | .getObject _ _ => Result ObjectInfo
  | .listObjects _ _ _ _ => Result ListObjectsResult
  | .deleteObjectWithRefCount _ _ => Result (Option Bytes)
  | .getCasBlob _ => Result CasBlobRow
  | .decrementRefCountAndCheckZero _ => Result Bool
  | .deleteCasBlob _ => Result Unit
  | .canDeleteCasBlob _ => Result Bool
  | .createMultipartUpload _ _ _ _ _ => Result Bytes
  | .getMultipartUpload _ => Result MultipartUploadInfo
  | .deleteMultipartUpload _ => Result Unit
  | .putPartWithRefCount _ _ _ _ _ => Result (Option Bytes)
  | .listParts _ _ _ => Result ListPartsResult
  | .checkIdempotency _ => Result (Option IdempotencyRow)
  | .recordIdempotency _ _ _ _ _ => Result Unit

variable (indexed : Bytes → Bytes)

/-- The program of each function. -/
def code : (call : MetaCall) → MetaM indexed call.Ans
  | .createBucket name ownerId => MetaStore.createBucket name ownerId
  | .getBucket name => MetaStore.getBucket name
  | .getBucketById id => MetaStore.getBucketById id
  | .listBuckets => MetaStore.listBuckets
  | .deleteBucket name => MetaStore.deleteBucket name
  | .isBucketEmpty bucketId => MetaStore.isBucketEmpty bucketId
  | .putObjectWithRefCount bucketId key size etag contentType sha256Hash =>
      MetaStore.putObjectWithRefCount bucketId key size etag contentType sha256Hash
  | .getObject bucketId key => MetaStore.getObject bucketId key
  | .listObjects bucketId keyPrefix startAfter maxKeys =>
      MetaStore.listObjects bucketId keyPrefix startAfter maxKeys
  | .deleteObjectWithRefCount bucketId key => MetaStore.deleteObjectWithRefCount bucketId key
  | .getCasBlob sha256Hash => MetaStore.getCasBlob sha256Hash
  | .decrementRefCountAndCheckZero sha256Hash =>
      MetaStore.decrementRefCountAndCheckZero sha256Hash
  | .deleteCasBlob sha256Hash => MetaStore.deleteCasBlob sha256Hash
  | .canDeleteCasBlob sha256Hash => MetaStore.canDeleteCasBlob sha256Hash
  | .createMultipartUpload uploadId bucketId key contentType expiresAt =>
      MetaStore.createMultipartUpload uploadId bucketId key contentType expiresAt
  | .getMultipartUpload uploadId => MetaStore.getMultipartUpload uploadId
  | .deleteMultipartUpload uploadId => MetaStore.deleteMultipartUpload uploadId
  | .putPartWithRefCount uploadId partNumber sha256Hash size etag =>
      MetaStore.putPartWithRefCount uploadId partNumber sha256Hash size etag
  | .listParts uploadId partNumberMarker maxParts =>
      MetaStore.listParts uploadId partNumberMarker maxParts
  | .checkIdempotency idempotencyKey => MetaStore.checkIdempotency idempotencyKey
  | .recordIdempotency idempotencyKey requestHash responseStatus responseBody ttlSeconds =>
      MetaStore.recordIdempotency idempotencyKey requestHash responseStatus responseBody
        ttlSeconds

/-- Run a call alone. -/
def perform (call : MetaCall) (faults : List (Option SqlError)) (clock : Clock)
    (tables : Tables) (caches : Caches) : call.Ans × Tables × Caches :=
  let done := Program.run (Alone.answer indexed) (call.code indexed)
    ⟨tables, none, caches, faults, clock⟩
  (done.1, done.2.tables, done.2.caches)

end MetaCall

end MiniS3.Db
