import MiniS3.Net.HttpRequest
import MiniS3.Net.HttpResponse
import MiniS3.Storage.DataStore
import MiniS3.Util.Numeric

/-!
# Object handlers

`PutObject`, `GetObject`, `HeadObject`, `DeleteObject` and `ListObjects`.  A handler is a program that ends with
its response, or with `none` where an exception escapes from it.
-/

namespace MiniS3.Api

open Lib Db Net

/-- A handler: a program that ends with a response, or with an exception. -/
abbrev Handler :=
  ServerM (Option HttpResponse)

/-- `static_cast<int64_t>` of a `size_t`. -/
def toInt64 (size : Nat) : Int :=
  (size : Int).bmod (2 ^ 64)

/-- `static_cast<size_t>` of an `int64_t`. -/
def toSizeT (size : Int) : Nat :=
  (size % 2 ^ 64).toNat

/-- Call a function of the metadata store. -/
def callMeta (call : MetaCall) : ServerM call.Ans :=
  perform (.metaStore call)

/-- The entity tag of a blob, without and with its quotes. -/
def etagValue (casKey : Bytes) : Bytes :=
  casKey.take 32

/-- The entity tag as it is stored and sent. -/
def quotedEtag (casKey : Bytes) : Bytes :=
  ascii "\"" ++ etagValue casKey ++ ascii "\""

/-- A header with a default for the empty value. -/
def headerOr (request : HttpRequest) (name default : Bytes) : Bytes :=
  if (request.getHeader name).isEmpty then default else request.getHeader name

section

variable (setup : Setup)

/-- `CleanupUnreferencedCas`. -/
def cleanupUnreferencedCas (casKey : Bytes) : ServerM Unit := do
  match ← callMeta (.getCasBlob casKey) with
  | .error status =>
      if status.code = .NoSuchKey then
        let _ ← DataStore.delete setup casKey
        return ()
      else return ()
  | .ok row =>
      if row.refCount = 0 then
        let _ ← DataStore.delete setup casKey
        return ()
      else return ()

/-- `gc->AddPendingDelete`, when there is a collector and a blob to report. -/
def reportFree (candidate : Option Bytes) : ServerM Unit :=
  match candidate with
  | some casKey => if setup.gcEnabled then perform (.addPendingDelete casKey) else pure ()
  | none => pure ()

/-- Where the content of an upload is: its blob key, its size, and whether the handler
has just stored it. -/
structure Content where
  casKey : Bytes
  size : Nat
  mayNeedCleanup : Bool

/-- The content of an upload: what the streaming layer has left in the headers, or the
body, which is stored now. -/
def uploadContent (request : HttpRequest) : ServerM (Result Content) := do
  let internalCas := request.getHeader (ascii "X-Internal-CAS-Key")
  if internalCas.isEmpty then
    let predictedCas := setup.sha256Hex request.body
    let existedBefore ← DataStore.blobExists setup predictedCas
    match ← DataStore.write setup request.body with
    | .error status => return .error status
    | .ok casKey =>
        return .ok ⟨casKey, request.body.length,
          !existedBefore && decide (casKey = predictedCas)⟩
  else
    let size :=
      (Bytes.stoull (request.getHeader (ascii "X-Internal-Size"))).getD request.body.length
    return .ok ⟨internalCas, size, false⟩

/-- The cleanup after a failure, when the handler has stored the content itself. -/
def cleanupContent (content : Content) : ServerM Unit :=
  if content.mayNeedCleanup then cleanupUnreferencedCas setup content.casKey else pure ()

end

namespace ObjectHandlers

variable (setup : Setup)

/-- The body of the response to `PutObject`. -/
def putObjectBody (bucketName objectKey : Bytes) (content : Content) : Json :=
  .object [(ascii "bucket", .string bucketName), (ascii "key", .string objectKey),
    (ascii "etag", .string (etagValue content.casKey)),
    (ascii "size", .integer content.size)]

/-- The request hash of an idempotent upload. -/
def requestHash (request : HttpRequest) (size : Nat) (expectedSha256 : Bytes) : Bytes :=
  setup.sha256Hex (httpMethodToString request.method ++ ascii "\n" ++ request.path ++
    ascii "\n" ++ Bytes.ofNat size ++ ascii "\n" ++ expectedSha256)

/-- `PutObject` once its content is stored and checked: write the row and answer. -/
def storeObject (request : HttpRequest) (bucketName objectKey : Bytes) (bucketId : Int)
    (content : Content) (idempotencyKey hash : Bytes) : Handler := do
  let contentType :=
    headerOr request (ascii "Content-Type") (ascii "application/octet-stream")
  match ← callMeta (.putObjectWithRefCount bucketId objectKey (toInt64 content.size)
    (quotedEtag content.casKey) contentType content.casKey) with
  | .error _ =>
      cleanupContent setup content
      return HttpResponse.internalError setup.json (ascii "Failed to create object") []
  | .ok candidate =>
      reportFree setup candidate
      match setup.json.dump (putObjectBody bucketName objectKey content) with
      | none => return none
      | some body =>
          let response := { (((HttpResponse.ofStatus 200).setHeader (ascii "ETag")
            (quotedEtag content.casKey)).setHeader (ascii "Content-Type")
            (ascii "application/json")) with body }
          if idempotencyKey.isEmpty then return some response
          else
            let _ ← callMeta (.recordIdempotency idempotencyKey hash response.statusCode body
              MetaStore.defaultTtlSeconds)
            return some response

/-- The idempotency check of `PutObject`. -/
def putIdempotently (request : HttpRequest) (bucketName objectKey : Bytes) (bucketId : Int)
    (content : Content) : Handler := do
  let expectedSha256 := request.getHeader (ascii "X-Content-SHA256")
  let idempotencyKey := request.getHeader (ascii "Idempotency-Key")
  if idempotencyKey.isEmpty then
    storeObject setup request bucketName objectKey bucketId content [] []
  else
    let hash := requestHash setup request content.size expectedSha256
    match ← callMeta (.checkIdempotency idempotencyKey) with
    | .error _ =>
        return HttpResponse.internalError setup.json (ascii "Failed to check idempotency") []
    | .ok (some record) =>
        if record.requestHash ≠ hash then
          return HttpResponse.conflict setup.json (ascii "Idempotency conflict") []
        else
          return some { (HttpResponse.empty.setHeader (ascii "Content-Type")
            (ascii "application/json")) with
              statusCode := record.responseStatus.toNat, body := record.responseBody }
    | .ok none =>
        storeObject setup request bucketName objectKey bucketId content idempotencyKey hash

/-- `ObjectHandlers::PutObject`. -/
def putObject (request : HttpRequest) : Handler := do
  let bucketName := request.getPathParam (ascii "bucket")
  let objectKey := request.getPathParam (ascii "object")
  if bucketName.isEmpty ∨ objectKey.isEmpty then
    return HttpResponse.badRequest setup.json (ascii "Bucket and object key are required") []
  else
    match ← callMeta (.getBucket bucketName) with
    | .error status =>
        if status.code = .NoSuchBucket then
          return HttpResponse.notFound setup.json (ascii "Bucket not found") []
        else return HttpResponse.internalError setup.json (ascii "Failed to get bucket") []
    | .ok bucket =>
        if request.body.isEmpty ∧ (request.getHeader (ascii "X-Internal-CAS-Key")).isEmpty then
          return HttpResponse.badRequest setup.json (ascii "Request body is empty") []
        else
          match ← uploadContent setup request with
          | .error _ =>
              return HttpResponse.internalError setup.json
                (ascii "Failed to write object data") []
          | .ok content =>
              let expectedSha256 := request.getHeader (ascii "X-Content-SHA256")
              if ¬expectedSha256.isEmpty ∧ expectedSha256 ≠ content.casKey then
                cleanupContent setup content
                return HttpResponse.badRequest setup.json (ascii "Checksum mismatch") []
              else putIdempotently setup request bucketName objectKey bucket.id content

/-- A run of decimal digits at the front of a text, and the rest. -/
def spanDigits (text : Bytes) : Bytes × Bytes :=
  text.span fun byte => (Bytes.digit? byte).isSome

/-- The two numbers of `bytes=(\d*)-(\d*)`. -/
def rangeTexts (rangeHeader : Bytes) : Option (Bytes × Bytes) :=
  let unit := ascii "bytes="
  if unit.isPrefixOf rangeHeader then
    match spanDigits (rangeHeader.drop unit.length) with
    | (startText, 45 :: rest) =>
        match spanDigits rest with
        | (endText, []) => some (startText, endText)
        | _ => none
    | _ => none
  else none

/-- `ObjectHandlers::ParseRange`; the outer `none` is an exception of `std::stoull`. -/
def parseRange (rangeHeader : Bytes) (fileSize : Nat) : Option (Option (Nat × Nat)) :=
  if fileSize = 0 then some none
  else
    match rangeTexts rangeHeader with
    | none => some none
    | some (startText, endText) =>
        if startText.isEmpty ∧ endText.isEmpty then some none
        else if startText.isEmpty then
          (Bytes.stoull endText).map fun suffix =>
            some (fileSize - min suffix fileSize, fileSize - 1)
        else if endText.isEmpty then
          (Bytes.stoull startText).map fun start =>
            if fileSize ≤ start then none else some (start, fileSize - 1)
        else
          (Bytes.stoull startText).bind fun start =>
            (Bytes.stoull endText).map fun last =>
              if last < start ∨ fileSize ≤ start then none
              else some (start, min last (fileSize - 1))

/-- The headers that describe an object. -/
def objectHeaders (info : ObjectInfo) (createdAt : Int) (contentLength : Bytes)
    (response : HttpResponse) : HttpResponse :=
  ((((response.setHeader (ascii "Content-Type") info.contentType).setHeader
    (ascii "Content-Length") contentLength).setHeader (ascii "ETag") info.etag).setHeader
    (ascii "Accept-Ranges") (ascii "bytes")).setHeader (ascii "Last-Modified")
    (Bytes.ofInt createdAt)

/-- `HttpResponse::RangeNotSatisfiable`. -/
def rangeNotSatisfiable (fileSize : Nat) : HttpResponse :=
  (HttpResponse.ofStatus 416).setHeader (ascii "Content-Range")
    (ascii "bytes */" ++ Bytes.ofNat fileSize)

/-- The `Content-Range` of a part of a file. -/
def contentRange (first last fileSize : Nat) : Bytes :=
  ascii "bytes " ++ Bytes.ofNat first ++ ascii "-" ++ Bytes.ofNat last ++ ascii "/" ++
    Bytes.ofNat fileSize

/-- The response of `GetObject` once the object is found; `none` is an exception of
`ParseRange`.  The length of a range is computed in `size_t`, where a range of no bytes,
whose end is before its start, has the length 0. -/
def sendObject (request : HttpRequest) (info : ObjectInfo) (createdAt : Int) :
    Option HttpResponse :=
  let fileSize := toSizeT info.size
  let rangeHeader := request.getHeader (ascii "Range")
  let filePath := setup.getCasPath info.sha256Hash
  if rangeHeader.isEmpty then
    some ((objectHeaders info createdAt (Bytes.ofNat fileSize) (HttpResponse.ofStatus 200)).setFile
      filePath fileSize 0 fileSize)
  else
    (parseRange rangeHeader fileSize).map fun range =>
      match range with
      | none => rangeNotSatisfiable fileSize
      | some (first, last) =>
          ((objectHeaders info createdAt (Bytes.ofNat (last + 1 - first))
            (HttpResponse.ofStatus 206)).setHeader (ascii "Content-Range")
            (contentRange first last fileSize)).setFile filePath fileSize first (last + 1 - first)

/-- `ObjectHandlers::GetObject`. -/
def getObject (request : HttpRequest) : Handler := do
  let bucketName := request.getPathParam (ascii "bucket")
  let objectKey := request.getPathParam (ascii "object")
  if bucketName.isEmpty ∨ objectKey.isEmpty then
    return HttpResponse.badRequest setup.json (ascii "Bucket and object key are required") []
  else
    match ← callMeta (.getBucket bucketName) with
    | .error status =>
        if status.code = .NoSuchBucket then
          return HttpResponse.notFound setup.json (ascii "Bucket not found") []
        else return HttpResponse.internalError setup.json (ascii "Failed to get bucket") []
    | .ok bucket =>
        match ← callMeta (.getObject bucket.id objectKey) with
        | .error status =>
            if status.code = .NoSuchKey then
              return HttpResponse.notFound setup.json (ascii "Object not found") []
            else return HttpResponse.internalError setup.json (ascii "Failed to get object") []
        | .ok info =>
            if ← DataStore.blobExists setup info.sha256Hash then
              let createdAt ← perform .createdAt
              return sendObject setup request info createdAt
            else
              return HttpResponse.internalError setup.json (ascii "Object data not found") []

/-- `ObjectHandlers::HeadObject`. -/
def headObject (request : HttpRequest) : Handler := do
  let bucketName := request.getPathParam (ascii "bucket")
  let objectKey := request.getPathParam (ascii "object")
  if bucketName.isEmpty ∨ objectKey.isEmpty then
    return HttpResponse.badRequest setup.json (ascii "Bucket and object key are required") []
  else
    match ← callMeta (.getBucket bucketName) with
    | .error status =>
        if status.code = .NoSuchBucket then
          return HttpResponse.notFound setup.json (ascii "Bucket not found") []
        else return HttpResponse.internalError setup.json (ascii "Failed to get bucket") []
    | .ok bucket =>
        match ← callMeta (.getObject bucket.id objectKey) with
        | .error status =>
            if status.code = .NoSuchKey then
              return HttpResponse.notFound setup.json (ascii "Object not found") []
            else return HttpResponse.internalError setup.json (ascii "Failed to get object") []
        | .ok info =>
            let createdAt ← perform .createdAt
            return some (objectHeaders info createdAt (Bytes.ofInt info.size)
              (HttpResponse.ofStatus 200))

/-- `ObjectHandlers::DeleteObject`. -/
def deleteObject (request : HttpRequest) : Handler := do
  let bucketName := request.getPathParam (ascii "bucket")
  let objectKey := request.getPathParam (ascii "object")
  if bucketName.isEmpty ∨ objectKey.isEmpty then
    return HttpResponse.badRequest setup.json (ascii "Bucket and object key are required") []
  else
    match ← callMeta (.getBucket bucketName) with
    | .error status =>
        if status.code = .NoSuchBucket then
          return HttpResponse.notFound setup.json (ascii "Bucket not found") []
        else return HttpResponse.internalError setup.json (ascii "Failed to get bucket") []
    | .ok bucket =>
        match ← callMeta (.getObject bucket.id objectKey) with
        | .error status =>
            if status.code = .NoSuchKey then
              return HttpResponse.notFound setup.json (ascii "Object not found") []
            else return HttpResponse.internalError setup.json (ascii "Failed to get object") []
        | .ok _ =>
            match ← callMeta (.deleteObjectWithRefCount bucket.id objectKey) with
            | .error _ =>
                return HttpResponse.internalError setup.json
                  (ascii "Failed to delete object") []
            | .ok candidate =>
                reportFree setup candidate
                return some (HttpResponse.ofStatus 204)

/-- The number of keys a request asks for, 1000 when it does not say. -/
def maxKeys (request : HttpRequest) : Int :=
  match Bytes.stoi (request.getQueryParam (ascii "max-keys")) with
  | some count => if count < 1 ∨ 1000 < count then 1000 else count
  | none => 1000

/-- The entries of an object list, each with its time. -/
def objectEntries : List ObjectInfo → ServerM (List Json)
  | [] => pure []
  | info :: rest => do
      let createdAt ← perform .createdAt
      let entries ← objectEntries rest
      return .object [(ascii "key", .string info.key), (ascii "size", .integer info.size),
        (ascii "etag", .string info.etag), (ascii "last_modified", .integer createdAt)] :: entries

/-- The body of the response to `ListObjects`.  The metadata store never returns common
prefixes. -/
def listObjectsBody (request : HttpRequest) (bucketName : Bytes)
    (listed : MetaStore.ListObjectsResult) (entries : List Json) : Json :=
  .object ([(ascii "name", .string bucketName),
    (ascii "prefix", .string (request.getQueryParam (ascii "prefix"))),
    (ascii "delimiter", .string (request.getQueryParam (ascii "delimiter"))),
    (ascii "max_keys", .integer (maxKeys request)),
    (ascii "is_truncated", .bool listed.isTruncated),
    (ascii "contents", .array entries), (ascii "common_prefixes", .array [])] ++
    if listed.nextContinuationToken.isEmpty then []
    else [(ascii "next_continuation_token", .string listed.nextContinuationToken)])

/-- `ObjectHandlers::ListObjects`. -/
def listObjects (request : HttpRequest) : Handler := do
  let bucketName := request.getPathParam (ascii "bucket")
  if bucketName.isEmpty then
    return HttpResponse.badRequest setup.json (ascii "Bucket name is required") []
  else
    match ← callMeta (.getBucket bucketName) with
    | .error status =>
        if status.code = .NoSuchBucket then
          return HttpResponse.notFound setup.json (ascii "Bucket not found") []
        else return HttpResponse.internalError setup.json (ascii "Failed to get bucket") []
    | .ok bucket =>
        match ← callMeta (.listObjects bucket.id (request.getQueryParam (ascii "prefix"))
          (request.getQueryParam (ascii "start-after")) (maxKeys request)) with
        | .error _ =>
            return HttpResponse.internalError setup.json (ascii "Failed to list objects") []
        | .ok listed =>
            let entries ← objectEntries listed.objects
            return (setup.json.dump
              (listObjectsBody request bucketName listed entries)).map HttpResponse.ok

end ObjectHandlers

end MiniS3.Api
