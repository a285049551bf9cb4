import MiniS3.Api.ObjectHandlers

/-!
# Bucket handlers

`CreateBucket`, `GetBucket`, `DeleteBucket` and `ListBuckets`.  A bucket is deleted after
its objects were counted; uploads of the bucket are not looked at.
-/

namespace MiniS3.Api.BucketHandlers

open Lib Db Net

variable (setup : Setup)

/-- The owner a request names, `anonymous` without one. -/
def ownerId (request : HttpRequest) : Bytes :=
  headerOr request (ascii "X-User-Id") (ascii "anonymous")

/-- `BucketHandlers::CreateBucket`. -/
def createBucket (request : HttpRequest) : Handler := do
  let bucketName := request.getPathParam (ascii "bucket")
  if bucketName.isEmpty then
    return HttpResponse.badRequest setup.json (ascii "Bucket name is required") []
  else if bucketName.length < 3 ∨ 63 < bucketName.length then
    return HttpResponse.badRequest setup.json
      (ascii "Bucket name must be between 3 and 63 characters") []
  else
    match ← callMeta (.createBucket bucketName (ownerId request)) with
    | .error status =>
        if status.code = .BucketAlreadyExists then
          return HttpResponse.conflict setup.json (ascii "Bucket already exists") []
        else return HttpResponse.internalError setup.json (ascii "Failed to create bucket") []
    | .ok _ =>
        return (setup.json.dump (.object [(ascii "bucket", .string bucketName),
          (ascii "created", .bool true)])).map HttpResponse.created

/-- `BucketHandlers::GetBucket`. -/
def getBucket (request : HttpRequest) : Handler := do
  let bucketName := request.getPathParam (ascii "bucket")
  if bucketName.isEmpty then
    return HttpResponse.badRequest setup.json (ascii "Bucket name is required") []
  else
    match ← callMeta (.getBucket bucketName) with
    | .error status =>
        if status.code = .NoSuchBucket then
          return HttpResponse.notFound setup.json (ascii "Bucket not found") []
        else return HttpResponse.internalError setup.json (ascii "Failed to get bucket") []
    | .ok bucket =>
        let createdAt ← perform .createdAt
        return (setup.json.dump (.object [(ascii "name", .string bucket.name),
          (ascii "owner_id", .string bucket.ownerId),
          (ascii "region", .string (ascii "default")),
          (ascii "created_at", .integer createdAt)])).map HttpResponse.ok

/-- `BucketHandlers::DeleteBucket`. -/
def deleteBucket (request : HttpRequest) : Handler := do
  let bucketName := request.getPathParam (ascii "bucket")
  if bucketName.isEmpty then
    return HttpResponse.badRequest setup.json (ascii "Bucket name is required") []
  else
    match ← callMeta (.getBucket bucketName) with
    | .error status =>
        if status.code = .NoSuchBucket then
          return HttpResponse.notFound setup.json (ascii "Bucket not found") []
        else return HttpResponse.internalError setup.json (ascii "Failed to get bucket") []
    | .ok bucket =>
        match ← callMeta (.isBucketEmpty bucket.id) with
        | .error _ =>
            return HttpResponse.internalError setup.json (ascii "Failed to check bucket") []
        | .ok isEmpty =>
            if isEmpty then
              match ← callMeta (.deleteBucket bucketName) with
              | .error _ =>
                  return HttpResponse.internalError setup.json
                    (ascii "Failed to delete bucket") []
              | .ok () => return some (HttpResponse.ofStatus 204)
            else return HttpResponse.conflict setup.json (ascii "Bucket is not empty") []

/-- The entries of the bucket list, each with its time. -/
def bucketEntries : List BucketInfo → ServerM (List Json)
  | [] => pure []
  | bucket :: rest => do
      let createdAt ← perform .createdAt
      let entries ← bucketEntries rest
      return .object [(ascii "name", .string bucket.name),
        (ascii "created_at", .integer createdAt)] :: entries

/-- `BucketHandlers::ListBuckets`; the owner of the request is not used. -/
def listBuckets : Handler := do
  match ← callMeta .listBuckets with
  | .error _ => return HttpResponse.internalError setup.json (ascii "Failed to list buckets") []
  | .ok buckets =>
      let entries ← bucketEntries buckets
      return (setup.json.dump (.object [(ascii "buckets", .array entries)])).map HttpResponse.ok

end MiniS3.Api.BucketHandlers
