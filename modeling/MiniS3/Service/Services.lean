import MiniS3.Api.ObjectHandlers
import MiniS3.Lib.Transition

/-!
# The service layer

`ObjectService` and `MultipartService` do with single calls of the metadata store what the handlers
do in transactions: each statement of these calls is a transaction of its own.  The programs of
this file make the calls of the handlers, and they send the statements of the functions that only
the services use.

What the services are given as the owner of an object or an upload is not stored, and is left out
here; so are the ids of rows that `RegisterCasBlob`, `PutObject` and `CreateOrUpdatePart` return.
-/

namespace MiniS3

open Lib Db

/-- The statements of the functions that only the services use. -/
inductive PlainStmt
  /-- A statement that is sent in transactions too. -/
  | sent (stmt : Stmt)
  /-- The upsert of an object, answered with `mysql_insert_id`. -/
  | upsertObject (bucketId : Int) (row : ObjectRow)
  /-- `UPDATE cas_blobs SET ref_count = ref_count + 1`, answered with the affected rows. -/
  | incrementRefCount (casKey : Bytes)
  /-- `UPDATE cas_blobs SET ref_count = IF(ref_count>0, ref_count-1, 0)`, answered with the
  affected rows. -/
  | decrementRefCount (casKey : Bytes)

/-- The answer to each statement. -/
@[reducible]
def PlainStmt.Ans : PlainStmt → Type
  | .sent stmt => stmt.Ans
  | .upsertObject _ _ | .incrementRefCount _ | .decrementRefCount _ => Nat

/-- The answer of a statement and the images it writes.  A new row has an id; what
`mysql_insert_id` returns for a row that was there is `shownId`, which can be 0. -/
def PlainStmt.eval (indexed : Bytes → Bytes) (shownId : Nat) :
    (stmt : PlainStmt) → Tables → Except SqlError (stmt.Ans × List Write)
  | .sent stmt, tables => stmt.eval indexed tables
  | .upsertObject bucketId row, tables =>
      let insertId :=
        if (tables.objects.lookup (bucketId, indexed row.objectKey)).isSome then shownId
        else shownId + 1
      ((Stmt.upsertObject bucketId row).eval indexed tables).map fun done => (insertId, done.2)
  | .incrementRefCount casKey, tables =>
      match tables.casBlobs.lookup casKey with
      | none => .ok ((0 : Nat), [])
      | some row =>
          .ok ((1 : Nat), [.casBlob casKey (some { row with refCount := row.refCount + 1 })])
  | .decrementRefCount casKey, tables =>
      match tables.casBlobs.lookup casKey with
      | none => .ok ((0 : Nat), [])
      | some row => .ok ((1 : Nat), [.casBlob casKey (some row.decremented)])

/-- The calls of the services. -/
inductive ServiceOp
  | io (op : IoOp)
  | exec (stmt : PlainStmt)

/-- The answers to the calls. -/
@[reducible]
def ServiceOp.Ans : ServiceOp → Type
  | .io op => op.Ans
  | .exec stmt => Except SqlError stmt.Ans

/-- The signature of the calls of the services. -/
abbrev serviceSig : Signature where
  Op := ServiceOp
  Ans := ServiceOp.Ans

/-- A function of a service. -/
abbrev ServiceM :=
  Program serviceSig

/-- Make the calls of a part that handlers make too. -/
def io {α : Type} (program : ServerM α) : ServiceM α :=
  program.interpret fun op => Program.perform (S := serviceSig) (.io op)

/-- Call a function of the metadata store. -/
def metaCall (call : MetaCall) : ServiceM call.Ans :=
  Program.perform (S := serviceSig) (.io (.metaStore call))

/-- Send one statement. -/
def send (stmt : PlainStmt) : ServiceM (Except SqlError stmt.Ans) :=
  Program.perform (S := serviceSig) (.exec stmt)

/-- `Status::IsNotFound`. -/
def Status.isNotFound (status : Status) : Bool :=
  status.code = .NoSuchKey || status.code = .NoSuchBucket || status.code = .NoSuchUpload

/-- The entity tag of a blob in quotes. -/
def wholeEtag (sha256Hash : Bytes) : Bytes :=
  ascii "\"" ++ sha256Hash ++ ascii "\""

/-! ## Functions of the metadata store -/

namespace Service

/-- `MetaStore::RegisterCasBlob`. -/
def registerCasBlob (sha256Hash : Bytes) (size : Int) : ServiceM (Result Unit) := do
  match ← send (.sent (.upsertCasBlob sha256Hash size)) with
  | .error err => return .err .DatabaseError err
  | .ok () => return .ok ()

/-- `MetaStore::PutObject`. -/
def putObject (bucketId : Int) (key : Bytes) (size : Int) (etag contentType sha256Hash : Bytes) :
    ServiceM (Result Unit) := do
  match ← send (.upsertObject bucketId ⟨key, sha256Hash, size, contentType, etag⟩) with
  | .error err => return .err .DatabaseError err
  | .ok insertId =>
      if insertId ≠ 0 then return .ok ()
      else
        match ← send (.sent (.selectObject bucketId key)) with
        | .error err => return .err .DatabaseError err
        | .ok none => return .err .DatabaseError (ascii "Failed to fetch object id")
        | .ok (some _) => return .ok ()

/-- `MetaStore::DeleteObject`. -/
def deleteObject (bucketId : Int) (key : Bytes) : ServiceM (Result Unit) := do
  match ← send (.sent (.deleteObject bucketId key)) with
  | .error err => return .err .DatabaseError err
  | .ok affected =>
      if affected = (0 : Nat) then return .err .NoSuchKey (ascii "Object not found")
      else return .ok ()

/-- The status of a statement that changes a row of `cas_blobs`. -/
def statusOfBlob : Except SqlError Nat → Result Unit
  | .error err => .err .DatabaseError err
  | .ok affected =>
      if affected = 0 then .err .NoSuchKey (ascii "CAS blob not found") else .ok ()

/-- `MetaStore::IncrementRefCount`. -/
def incrementRefCount (sha256Hash : Bytes) : ServiceM (Result Unit) := do
  return statusOfBlob (← send (.incrementRefCount sha256Hash))

/-- `MetaStore::DecrementRefCount`. -/
def decrementRefCount (sha256Hash : Bytes) : ServiceM (Result Unit) := do
  return statusOfBlob (← send (.decrementRefCount sha256Hash))

/-- `MetaStore::CreateOrUpdatePart`. -/
def createOrUpdatePart (uploadId : Bytes) (partNumber : Int) (sha256Hash : Bytes) (size : Int)
    (etag : Bytes) : ServiceM (Result Unit) := do
  match ← send (.sent (.upsertPart uploadId partNumber ⟨sha256Hash, size, etag⟩)) with
  | .error err => return .err .DatabaseError err
  | .ok () => return .ok ()

/-- Store a content that is not there yet. -/
def storeContent (setup : Setup) (content : Bytes) : ServerM (Result Unit) := do
  if ← DataStore.blobExists setup (setup.sha256Hex content) then return .ok ()
  else
    match ← DataStore.write setup content with
    | .error status => return .error status
    | .ok _ => return .ok ()

end Service

/-! ## `ObjectService` -/

namespace ObjectService

open Service

variable (setup : Setup)

/-- `ObjectService::HeadObject`. -/
def headObject (bucketId : Int) (key : Bytes) : ServiceM (Result ObjectInfo) :=
  metaCall (.getObject bucketId key)

/-- `ObjectService::ObjectExists`. -/
def objectExists (bucketId : Int) (key : Bytes) : ServiceM (Result Bool) := do
  match ← metaCall (.getObject bucketId key) with
  | .ok _ => return .ok true
  | .error status => if status.isNotFound then return .ok false else return .error status

/-- The blob of the object that is overwritten loses a reference, unless it is the new one. -/
def dropReplaced (bucketId : Int) (key sha256 : Bytes) : ServiceM (Result Unit) := do
  match ← objectExists bucketId key with
  | .error status => return .error status
  | .ok false => return .ok ()
  | .ok true =>
      match ← headObject bucketId key with
      | .error _ => return .ok ()
      | .ok old =>
          if old.sha256Hash ≠ sha256 then
            let _ ← decrementRefCount old.sha256Hash
            return .ok ()
          else return .ok ()

/-- `ObjectService::PutObject`. -/
def putObject (bucketId : Int) (key content contentType : Bytes) : ServiceM (Result Bytes) := do
  let sha256 := setup.sha256Hex content
  let size := Api.toInt64 content.length
  match ← io (storeContent setup content) with
  | .error status => return .error status
  | .ok () =>
      match ← registerCasBlob sha256 size with
      | .error status => return .error status
      | .ok () =>
          match ← dropReplaced bucketId key sha256 with
          | .error status => return .error status
          | .ok () =>
              match ← Service.putObject bucketId key size (wholeEtag sha256) contentType
                sha256 with
              | .error status => return .error status
              | .ok () => return .ok sha256

/-- `ObjectService::DeleteObject`. -/
def deleteObject (bucketId : Int) (key : Bytes) : ServiceM (Result Unit) := do
  match ← headObject bucketId key with
  | .error status => return .error status
  | .ok info =>
      match ← Service.deleteObject bucketId key with
      | .error status => return .error status
      | .ok () => decrementRefCount info.sha256Hash

/-- `ObjectService::CopyObject`. -/
def copyObject (srcBucketId : Int) (srcKey : Bytes) (dstBucketId : Int) (dstKey : Bytes) :
    ServiceM (Result Bytes) := do
  match ← headObject srcBucketId srcKey with
  | .error status => return .error status
  | .ok srcInfo =>
      match ← dropReplaced dstBucketId dstKey srcInfo.sha256Hash with
      | .error status => return .error status
      | .ok () =>
          match ← Service.putObject dstBucketId dstKey srcInfo.size srcInfo.etag
            srcInfo.contentType srcInfo.sha256Hash with
          | .error status => return .error status
          | .ok () =>
              match ← incrementRefCount srcInfo.sha256Hash with
              | .error status => return .error status
              | .ok () => return .ok srcInfo.sha256Hash

end ObjectService

/-! ## `MultipartService` -/

namespace MultipartService

open Service MetaStore

variable (setup : Setup)

/-- `MultipartService::InitiateMultipartUpload`. -/
def initiateMultipartUpload (bucketId : Int) (key contentType : Bytes) :
    ServiceM (Result Bytes) := do
  let uploadId ← io (perform .generateUuid)
  let now ← io (perform .now)
  metaCall (.createMultipartUpload uploadId bucketId key contentType (now + 7 * 24 * 3600))

/-- `MultipartService::UploadPart`. -/
def uploadPart (uploadId : Bytes) (partNumber : Int) (content : Bytes) :
    ServiceM (Result Bytes) := do
  match ← metaCall (.getMultipartUpload uploadId) with
  | .error status => return .error status
  | .ok _ =>
      if partNumber < 1 ∨ partNumber > 10000 then
        return .err .InvalidArgument (ascii "Part number must be between 1 and 10000")
      else
        let sha256 := setup.sha256Hex content
        let size := Api.toInt64 content.length
        match ← io (storeContent setup content) with
        | .error status => return .error status
        | .ok () =>
            match ← registerCasBlob sha256 size with
            | .error status => return .error status
            | .ok () =>
                match ← createOrUpdatePart uploadId partNumber sha256 size (wholeEtag sha256) with
                | .error status => return .error status
                | .ok () => return .ok (wholeEtag sha256)

/-- The blobs of the parts that the client names, in its order. -/
def partBlobs (stored : List MultipartPartInfo) : List (Int × Bytes) → Result (List Bytes)
  | [] => .ok []
  | (partNumber, etag) :: parts =>
      match stored.find? fun part => part.partNumber = partNumber with
      | none => .err .NoSuchKey (ascii "Part not found: " ++ Bytes.ofInt partNumber)
      | some part =>
          if part.etag ≠ etag then
            .err .InvalidArgument (ascii "ETag mismatch for part " ++ Bytes.ofInt partNumber)
          else (partBlobs stored parts).map (part.sha256Hash :: ·)

/-- `CompleteMultipartUpload` once the parts are merged. -/
def completeWith (uploadId : Bytes) (upload : MultipartUploadInfo) (totalSize : Int)
    (sha256 : Bytes) : ServiceM (Result Bytes) := do
  match ← registerCasBlob sha256 totalSize with
  | .error status => return .error status
  | .ok () =>
      match ← Service.putObject upload.bucketId upload.key totalSize (wholeEtag sha256)
        upload.contentType sha256 with
      | .error status => return .error status
      | .ok () =>
          let _ ← metaCall (.deleteMultipartUpload uploadId)
          return .ok sha256

/-- `MultipartService::CompleteMultipartUpload`. -/
def completeMultipartUpload (uploadId : Bytes) (parts : List (Int × Bytes)) :
    ServiceM (Result Bytes) := do
  match ← metaCall (.getMultipartUpload uploadId) with
  | .error status => return .error status
  | .ok upload =>
      match ← metaCall (.listParts uploadId 0 1000) with
      | .error status => return .error status
      | .ok listed =>
          if parts.length ≠ listed.parts.length then
            return .err .InvalidArgument (ascii "Part count mismatch")
          else
            match partBlobs listed.parts parts with
            | .error status => return .error status
            | .ok casKeys =>
                match ← io (DataStore.merge setup casKeys) with
                | .error status => return .error status
                | .ok sha256 =>
                    completeWith uploadId upload (listed.parts.map MultipartPartInfo.size).sum
                      sha256

/-- Give back the references of parts, whatever comes of it. -/
def dropParts : List Bytes → ServiceM Unit
  | [] => pure ()
  | casKey :: casKeys => do
      let _ ← decrementRefCount casKey
      dropParts casKeys

/-- `MultipartService::AbortMultipartUpload`. -/
def abortMultipartUpload (uploadId : Bytes) : ServiceM (Result Unit) := do
  match ← metaCall (.listParts uploadId 0 1000) with
  | .error _ => metaCall (.deleteMultipartUpload uploadId)
  | .ok listed =>
      dropParts (listed.parts.map MultipartPartInfo.sha256Hash)
      metaCall (.deleteMultipartUpload uploadId)

end MultipartService

/-! ## Executions -/

/-- No statement fails by a fault of the engine. -/
def Choice.noFault : Choice → Bool
  | .sql faults _ => faults.isEmpty
  | _ => true

/-- How the calls of a service are answered when every statement succeeds; a run that comes to a
statement which would fail is not one of these. -/
def serviceAnswer (setup : Setup) (process shownId : Nat) :
    Program.Interface serviceSig Choice World
  | .io op, choice, world => if choice.noFault then answer setup process op choice world else none
  | .exec stmt, .done, world =>
      match stmt.eval setup.indexed shownId world.tables with
      | .error _ => none
      | .ok (answered, writes) =>
          some (.ok answered, { world with tables := world.tables.applyAll writes })
  | .exec _, _, _ => none

/-- A call of a service. -/
inductive ServiceCall
  | putObject (bucketId : Int) (key content contentType : Bytes)
  | deleteObject (bucketId : Int) (key : Bytes)
  | copyObject (srcBucketId : Int) (srcKey : Bytes) (dstBucketId : Int) (dstKey : Bytes)
  | initiateMultipartUpload (bucketId : Int) (key contentType : Bytes)
  | uploadPart (uploadId : Bytes) (partNumber : Int) (content : Bytes)
  | completeMultipartUpload (uploadId : Bytes) (parts : List (Int × Bytes))
  | abortMultipartUpload (uploadId : Bytes)

/-- What happens as a whole: a call of a service, with what `mysql_insert_id` returns for a row
that was there and how its calls turn out, or the end of the time to live of a Redis entry. -/
inductive ServiceStep
  | call (call : ServiceCall) (shownId : Nat) (choices : List Choice)
  | expire (bucketId : Int) (key : Bytes)

section

variable (setup : Setup) (process : Nat)

/-- The world after a whole execution of a call. -/
def served {α : Type} (program : ServiceM α) (shownId : Nat) (choices : List Choice)
    (world : World) : Option World :=
  (Program.execute (serviceAnswer setup process shownId) program choices world).map Prod.snd

/-- The world after one step. -/
def nextServed : Transition.Step World ServiceStep
  | world, .call (.putObject bucketId key content contentType) shownId choices =>
      served setup process (ObjectService.putObject setup bucketId key content contentType)
        shownId choices world
  | world, .call (.deleteObject bucketId key) shownId choices =>
      served setup process (ObjectService.deleteObject bucketId key) shownId choices world
  | world, .call (.copyObject srcBucketId srcKey dstBucketId dstKey) shownId choices =>
      served setup process (ObjectService.copyObject srcBucketId srcKey dstBucketId dstKey)
        shownId choices world
  | world, .call (.initiateMultipartUpload bucketId key contentType) shownId choices =>
      served setup process
        (MultipartService.initiateMultipartUpload bucketId key contentType) shownId choices world
  | world, .call (.uploadPart uploadId partNumber content) shownId choices =>
      served setup process (MultipartService.uploadPart setup uploadId partNumber content)
        shownId choices world
  | world, .call (.completeMultipartUpload uploadId parts) shownId choices =>
      served setup process (MultipartService.completeMultipartUpload setup uploadId parts)
        shownId choices world
  | world, .call (.abortMultipartUpload uploadId) shownId choices =>
      served setup process (MultipartService.abortMultipartUpload uploadId) shownId choices world
  | world, .expire bucketId key =>
      some { world with
        caches := { world.caches with
          redis := world.caches.redis.map fun redis => redis.erase (bucketId, key) } }

end

end MiniS3
