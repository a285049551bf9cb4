import MiniS3.Api.ObjectHandlers
import Mathlib.Data.List.Sort

/-!
# Multipart handlers

`InitUpload`, `UploadPart`, `CompleteUpload` and `AbortUpload`.  Completing an upload
checks the list of the client against the stored parts, merges their blobs, writes
the object, and then releases the parts one blob at a time before it deletes the
upload.
-/

namespace MiniS3.Api.MultipartHandlers

open Lib Db Net MetaStore

/-- `NormalizeEtagValue`: an entity tag without its quotes. -/
def normalizeEtagValue (etag : Bytes) : Bytes :=
  if 2 ≤ etag.length ∧ etag.head? = some 34 ∧ etag.getLast? = some 34 then
    (etag.drop 1).take (etag.length - 2)
  else etag

variable (setup : Setup)

/-- `MultipartHandlers::InitUpload`. -/
def initUpload (request : HttpRequest) : Handler := do
  let bucketName := request.getPathParam (ascii "bucket")
  let objectKey := request.getPathParam (ascii "object")
  if bucketName.isEmpty ∨ objectKey.isEmpty then
    return HttpResponse.badRequest setup.json (ascii "Bucket and object key are required") []
  else
    match ← callMeta (.getBucket bucketName) with
    | .error status =>
        if status.code = .NoSuchBucket then
          return HttpResponse.notFound setup.json (ascii "Bucket not found") []
        else return HttpResponse.internalError setup.json (ascii "Failed to get bucket") []
    | .ok bucket =>
        let uploadId ← perform .generateUuid
        let contentType :=
          headerOr request (ascii "Content-Type") (ascii "application/octet-stream")
        let now ← perform .now
        let expiresAt := now + 24 * 3600
        match ← callMeta (.createMultipartUpload uploadId bucket.id objectKey contentType
          expiresAt) with
        | .error _ =>
            return HttpResponse.internalError setup.json (ascii "Failed to initiate upload") []
        | .ok _ =>
            return (setup.json.dump (.object [(ascii "upload_id", .string uploadId),
              (ascii "bucket", .string bucketName), (ascii "key", .string objectKey),
              (ascii "expires_at", .integer expiresAt)])).map HttpResponse.ok

/-! ## Uploading a part -/

/-- `UploadPart` once its content is stored: write the row and answer. -/
def storePart (uploadId : Bytes) (partNumber : Int) (content : Content) : Handler := do
  match ← callMeta (.putPartWithRefCount uploadId partNumber content.casKey
    (toInt64 content.size) (quotedEtag content.casKey)) with
  | .error _ =>
      cleanupContent setup content
      return HttpResponse.internalError setup.json (ascii "Failed to create part") []
  | .ok candidate =>
      reportFree setup candidate
      return (setup.json.dump (.object [(ascii "etag", .string (etagValue content.casKey)),
        (ascii "part_number", .integer partNumber),
        (ascii "size", .integer content.size)])).map fun body =>
          (HttpResponse.ok body).setHeader (ascii "ETag") (quotedEtag content.casKey)

/-- `UploadPart` once the upload is found: check that it is the one the path names, and
store the content. -/
def uploadPartOf (request : HttpRequest) (bucketName objectKey : Bytes) (partNumber : Int)
    (upload : MultipartUploadInfo) : Handler := do
  let bucket ← callMeta (.getBucketById upload.bucketId)
  if bucket.toOption.map BucketInfo.name ≠ some bucketName then
    return HttpResponse.badRequest setup.json (ascii "Upload ID does not match bucket") []
  else if upload.key ≠ objectKey then
    return HttpResponse.badRequest setup.json (ascii "Upload ID does not match object key") []
  else if request.body.isEmpty ∧ (request.getHeader (ascii "X-Internal-CAS-Key")).isEmpty then
    return HttpResponse.badRequest setup.json (ascii "Request body is empty") []
  else
    match ← uploadContent setup request with
    | .error _ =>
        return HttpResponse.internalError setup.json (ascii "Failed to write part data") []
    | .ok content => storePart setup upload.uploadId partNumber content

/-- `MultipartHandlers::UploadPart`. -/
def uploadPart (request : HttpRequest) : Handler := do
  let bucketName := request.getPathParam (ascii "bucket")
  let objectKey := request.getPathParam (ascii "object")
  let uploadId := request.getPathParam (ascii "upload_id")
  let partNumberText := request.getPathParam (ascii "part_number")
  if bucketName.isEmpty ∨ objectKey.isEmpty ∨ uploadId.isEmpty ∨ partNumberText.isEmpty then
    return HttpResponse.badRequest setup.json (ascii "Missing required parameters") []
  else
    match Bytes.stoi partNumberText with
    | none => return HttpResponse.badRequest setup.json (ascii "Invalid part number") []
    | some partNumber =>
        if partNumber < 1 ∨ 10000 < partNumber then
          return HttpResponse.badRequest setup.json
            (ascii "Part number must be between 1 and 10000") []
        else
          match ← callMeta (.getMultipartUpload uploadId) with
          | .error status =>
              if status.code = .NoSuchUpload then
                return HttpResponse.notFound setup.json (ascii "Upload not found") []
              else return HttpResponse.internalError setup.json (ascii "Failed to get upload") []
          | .ok upload => uploadPartOf setup request bucketName objectKey partNumber upload

/-! ## Completing and aborting -/

/-- One entry of the client's part list: its number and its entity tag.  The outer `none`
is an exception, the inner one an entry without these fields. -/
def clientPart (part : Json) : Option (Option (Int × Bytes)) :=
  match part.field? (ascii "part_number"), part.field? (ascii "etag") with
  | some partNumber, some etag =>
      partNumber.getInt.bind fun number =>
        etag.getString.map fun text => some (number, normalizeEtagValue text)
  | _, _ => some none

/-- The client's part list, read entry by entry. -/
def clientParts : List Json → Option (Option (List (Int × Bytes)))
  | [] => some (some [])
  | part :: rest =>
      match clientPart part with
      | none => none
      | some none => some none
      | some (some entry) => (clientParts rest).map fun entries => entries.map (entry :: ·)

/-- The first difference between the client's list and the stored parts. -/
def partMismatch : List (Int × Bytes) → List MultipartPartInfo → Option Bytes
  | (number, etag) :: client, part :: server =>
      if number ≠ part.partNumber then some (ascii "Part number mismatch")
      else if etag ≠ normalizeEtagValue part.etag then
        some (ascii "Part ETag mismatch for part " ++ Bytes.ofInt number)
      else partMismatch client server
  | _, _ => none

/-- Release the blobs of parts, one at a time. -/
def releaseParts : List Bytes → ServerM Unit
  | [] => pure ()
  | casKey :: casKeys => do
      match ← callMeta (.decrementRefCountAndCheckZero casKey) with
      | .ok true =>
          reportFree setup (some casKey)
          releaseParts casKeys
      | _ => releaseParts casKeys

/-- `CompleteUpload` once the parts are merged: write the object, release the parts, and
delete the upload. -/
def completeWith (bucketName objectKey : Bytes) (upload : MultipartUploadInfo)
    (casKeys : List Bytes) (totalSize : Nat) (finalCasKey : Bytes) : Handler := do
  match ← callMeta (.putObjectWithRefCount upload.bucketId upload.key (toInt64 totalSize)
    (quotedEtag finalCasKey) upload.contentType finalCasKey) with
  | .error _ =>
      cleanupUnreferencedCas setup finalCasKey
      return HttpResponse.internalError setup.json (ascii "Failed to create object") []
  | .ok candidate =>
      reportFree setup candidate
      releaseParts setup casKeys
      let _ ← callMeta (.deleteMultipartUpload upload.uploadId)
      return (setup.json.dump (.object [(ascii "bucket", .string bucketName),
        (ascii "key", .string objectKey), (ascii "etag", .string (etagValue finalCasKey)),
        (ascii "size", .integer totalSize)])).map fun body =>
          (HttpResponse.ok body).setHeader (ascii "ETag") (quotedEtag finalCasKey)

/-- `CompleteUpload` once the stored parts are listed: compare and merge. -/
def completeParts (bucketName objectKey : Bytes) (upload : MultipartUploadInfo)
    (client : List (Int × Bytes)) (server : List MultipartPartInfo) : Handler := do
  if client.length ≠ server.length then
    return HttpResponse.badRequest setup.json (ascii "Part count mismatch") []
  else
    match partMismatch client server with
    | some message => return HttpResponse.badRequest setup.json message []
    | none =>
        let casKeys := server.map MultipartPartInfo.sha256Hash
        let totalSize := toSizeT (server.map MultipartPartInfo.size).sum
        match ← DataStore.merge setup casKeys with
        | .error _ =>
            return HttpResponse.internalError setup.json (ascii "Failed to merge parts") []
        | .ok finalCasKey =>
            completeWith setup bucketName objectKey upload casKeys totalSize finalCasKey

/-- `CompleteUpload` once the upload is found: read the client's list and the stored one. -/
def completeUploadOf (request : HttpRequest) (bucketName objectKey : Bytes)
    (upload : MultipartUploadInfo) : Handler := do
  match setup.json.parse request.body with
  | none => return HttpResponse.badRequest setup.json (ascii "Invalid JSON body") []
  | some body =>
      match body.field? (ascii "parts") with
      | some (.array items) =>
          match clientParts items with
          | none => return none
          | some none => return HttpResponse.badRequest setup.json (ascii "Invalid part format") []
          | some (some entries) =>
              let client := entries.insertionSort fun one two => one.1 ≤ two.1
              match ← callMeta (.listParts upload.uploadId 0 10000) with
              | .error _ =>
                  return HttpResponse.internalError setup.json (ascii "Failed to list parts") []
              | .ok listed =>
                  completeParts setup bucketName objectKey upload client listed.parts
      | _ => return HttpResponse.badRequest setup.json (ascii "Missing parts array") []

/-- `MultipartHandlers::CompleteUpload`. -/
def completeUpload (request : HttpRequest) : Handler := do
  let bucketName := request.getPathParam (ascii "bucket")
  let objectKey := request.getPathParam (ascii "object")
  let uploadId := request.getPathParam (ascii "upload_id")
  if bucketName.isEmpty ∨ objectKey.isEmpty ∨ uploadId.isEmpty then
    return HttpResponse.badRequest setup.json (ascii "Missing required parameters") []
  else
    match ← callMeta (.getMultipartUpload uploadId) with
    | .error status =>
        if status.code = .NoSuchUpload then
          return HttpResponse.notFound setup.json (ascii "Upload not found") []
        else return HttpResponse.internalError setup.json (ascii "Failed to get upload") []
    | .ok upload => completeUploadOf setup request bucketName objectKey upload

/-- `AbortUpload` once the upload is found. -/
def abortUploadOf (uploadId : Bytes) : Handler := do
  match ← callMeta (.listParts uploadId 0 10000) with
  | .ok listed =>
      releaseParts setup (listed.parts.map MultipartPartInfo.sha256Hash)
      finish
  | .error _ => finish
where
  /-- Delete the upload and answer. -/
  finish : Handler := do
    match ← callMeta (.deleteMultipartUpload uploadId) with
    | .error _ => return HttpResponse.internalError setup.json (ascii "Failed to abort upload") []
    | .ok () => return some (HttpResponse.ofStatus 204)

/-- `MultipartHandlers::AbortUpload`. -/
def abortUpload (request : HttpRequest) : Handler := do
  let bucketName := request.getPathParam (ascii "bucket")
  let objectKey := request.getPathParam (ascii "object")
  let uploadId := request.getPathParam (ascii "upload_id")
  if bucketName.isEmpty ∨ objectKey.isEmpty ∨ uploadId.isEmpty then
    return HttpResponse.badRequest setup.json (ascii "Missing required parameters") []
  else
    match ← callMeta (.getMultipartUpload uploadId) with
    | .error status =>
        if status.code = .NoSuchUpload then
          return HttpResponse.notFound setup.json (ascii "Upload not found") []
        else return HttpResponse.internalError setup.json (ascii "Failed to get upload") []
    | .ok _ => abortUploadOf setup uploadId

end MiniS3.Api.MultipartHandlers
