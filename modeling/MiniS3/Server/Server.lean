import MiniS3.Api.BucketHandlers
import MiniS3.Api.Middleware
import MiniS3.Api.MultipartHandlers
import MiniS3.Net.HttpConnection

/-!
# The server

The route table with its middlewares, and the callbacks of a connection.  The body of an
upload is written to a session of the blob store while it arrives; once the request is
complete, the session is committed, the key and the size of the blob are put into the
headers of the request, and the router takes over.
-/

namespace MiniS3.Api

open Lib Net

/-! ## Health handlers -/

namespace HealthHandlers

variable (setup : Setup)

/-- `HealthHandlers::HealthCheck`. -/
def healthCheck : Handler :=
  return (setup.json.dump (.object [(ascii "status", .string (ascii "healthy")),
    (ascii "service", .string (ascii "minis3")),
    (ascii "version", .string (ascii "1.0.0"))])).map HttpResponse.ok

/-- `HealthHandlers::ReadyCheck`, which takes the server to be ready. -/
def readyCheck : Handler :=
  return (setup.json.dump (.object [(ascii "status", .string (ascii "ready"))])).map
    HttpResponse.ok

/-- `HealthHandlers::Metrics`. -/
def metrics : Handler := do
  let text ← perform .exportMetrics
  return some { (HttpResponse.ofStatus 200).setHeader (ascii "Content-Type")
    (ascii "text/plain; version=0.0.4; charset=utf-8") with body := text }

end HealthHandlers

/-! ## Routes -/

/-- The handlers that have a route. -/
inductive Endpoint
  | healthCheck
  | readyCheck
  | metrics
  | createBucket
  | getBucket
  | deleteBucket
  | listBuckets
  | putObject
  | getObject
  | headObject
  | deleteObject
  | listObjects
  | initUpload
  | uploadPart
  | completeUpload
  | abortUpload
  | createPresignUrl
  deriving DecidableEq

/-- The handler of an endpoint. -/
def Endpoint.handler (setup : Setup) : Endpoint → HttpRequest → Handler
  | .healthCheck, _ => HealthHandlers.healthCheck setup
  | .readyCheck, _ => HealthHandlers.readyCheck setup
  | .metrics, _ => HealthHandlers.metrics
  | .createBucket, request => BucketHandlers.createBucket setup request
  | .getBucket, request => BucketHandlers.getBucket setup request
  | .deleteBucket, request => BucketHandlers.deleteBucket setup request
  | .listBuckets, _ => BucketHandlers.listBuckets setup
  | .putObject, request => ObjectHandlers.putObject setup request
  | .getObject, request => ObjectHandlers.getObject setup request
  | .headObject, request => ObjectHandlers.headObject setup request
  | .deleteObject, request => ObjectHandlers.deleteObject setup request
  | .listObjects, request => ObjectHandlers.listObjects setup request
  | .initUpload, request => MultipartHandlers.initUpload setup request
  | .uploadPart, request => MultipartHandlers.uploadPart setup request
  | .completeUpload, request => MultipartHandlers.completeUpload setup request
  | .abortUpload, request => MultipartHandlers.abortUpload setup request
  | .createPresignUrl, request => PresignHandlers.createPresignUrl setup request

namespace Server

/-- The routes of `Server::SetupRoutes`, in the order in which they are registered. -/
def routes : List (RouteEntry Endpoint) :=
  [⟨.GET, ascii "/healthz", .healthCheck⟩,
    ⟨.GET, ascii "/readyz", .readyCheck⟩,
    ⟨.GET, ascii "/metrics", .metrics⟩,
    ⟨.PUT, ascii "/buckets/\x7bbucket\x7d", .createBucket⟩,
    ⟨.GET, ascii "/buckets/\x7bbucket\x7d", .getBucket⟩,
    ⟨.DELETE, ascii "/buckets/\x7bbucket\x7d", .deleteBucket⟩,
    ⟨.GET, ascii "/buckets", .listBuckets⟩,
    ⟨.PUT, ascii "/buckets/\x7bbucket\x7d/objects/\x7bobject\x7d", .putObject⟩,
    ⟨.GET, ascii "/buckets/\x7bbucket\x7d/objects/\x7bobject\x7d", .getObject⟩,
    ⟨.HEAD, ascii "/buckets/\x7bbucket\x7d/objects/\x7bobject\x7d", .headObject⟩,
    ⟨.DELETE, ascii "/buckets/\x7bbucket\x7d/objects/\x7bobject\x7d", .deleteObject⟩,
    ⟨.GET, ascii "/buckets/\x7bbucket\x7d/objects", .listObjects⟩,
    ⟨.POST, ascii "/buckets/\x7bbucket\x7d/multipart/\x7bobject\x7d", .initUpload⟩,
    ⟨.PUT, ascii ("/buckets/\x7bbucket\x7d/multipart/\x7bobject\x7d/\x7bupload_id\x7d" ++
      "/parts/\x7bpart_number\x7d"), .uploadPart⟩,
    ⟨.POST, ascii ("/buckets/\x7bbucket\x7d/multipart/\x7bobject\x7d/\x7bupload_id\x7d" ++
      "/complete"), .completeUpload⟩,
    ⟨.DELETE, ascii "/buckets/\x7bbucket\x7d/multipart/\x7bobject\x7d/\x7bupload_id\x7d",
      .abortUpload⟩,
    ⟨.POST, ascii "/presign", .createPresignUrl⟩]

variable (setup : Setup)

/-- A handler that leaves the request as it is. -/
def serve (handler : HttpRequest → Handler) : HttpHandler ServerM := fun request => do
  let response ← handler request
  return (response, request)

/-- The middlewares of `Server::SetupRoutes`, in the order in which they are registered. -/
def middlewares : List (Middleware ServerM) :=
  TraceMiddleware.handle :: if setup.authEnabled then [AuthMiddleware.handle setup] else []

/-- The router that `Server::SetupRoutes` builds. -/
def router : HttpRouter ServerM where
  routes := routes.map fun route => ⟨route.method, route.pattern,
    serve (route.handler.handler setup)⟩
  middlewares := middlewares setup
  notFoundHandler := some fun request => pure (HttpResponse.notFound setup.json
    (ascii "Resource not found: " ++ request.path) [], request)

/-! ## Requests -/

/-- The entry of the access log, without the times it shows. -/
def logEntry (request : HttpRequest) (response : HttpResponse) : Json :=
  let internalSize := request.getHeader (ascii "X-Internal-Size")
  let bytesIn := if internalSize.isEmpty then request.body.length
    else (Bytes.stoull internalSize).getD request.body.length
  let bytesOut := if response.hasFile then response.sentLength else response.body.length
  .object [(ascii "trace_id", .string request.traceId),
    (ascii "client_ip", .string request.clientIp),
    (ascii "method", .string (httpMethodToString request.method)),
    (ascii "path", .string request.path), (ascii "status", .integer response.statusCode),
    (ascii "bytes_in", .integer bytesIn), (ascii "bytes_out", .integer bytesOut)]

/-- `Logging::AccessLog`; `false` is an exception. -/
def accessLog (request : HttpRequest) (response : HttpResponse) : Bool :=
  !setup.jsonFormat || (setup.json.dump (logEntry request response)).isSome

/-- Route a request, and log it. -/
def respond (request : HttpRequest) : ServerM Handled := do
  let (response, request) ← (router setup).handle setup.json request
  return (response.filter fun response => accessLog setup request response, request)

/-- The request with the key and the size of the blob that its body was streamed to. -/
def withContent (casKey : Bytes) (size : Nat) (request : HttpRequest) : HttpRequest :=
  (request.setHeader (ascii "X-Internal-CAS-Key") casKey).setHeader (ascii "X-Internal-Size")
    (Bytes.ofNat size)

/-- `Server::OnRequest`: the response that is sent, and the request as it is then.  A
session that is not committed is dropped. -/
def onRequest (request : HttpRequest) : ServerM Handled := do
  match ← perform .findUpload with
  | none => respond setup request
  | some context =>
      perform .eraseUpload
      match context.session with
      | none => respond setup request
      | some session =>
          if context.streaming then
            match ← DataStore.commitWrite setup session context.expectedSha256 with
            | .error status =>
                return (HttpResponse.badRequest setup.json status.message request.traceId, request)
            | .ok casKey => respond setup (withContent casKey context.bytesWritten request)
          else
            let _ ← perform (.removeFile session.tmpPath)
            respond setup request

/-- `Server::ShouldStreamUpload`. -/
def shouldStreamUpload (request : HttpRequest) : Bool :=
  decide (request.method = .PUT) &&
    (Bytes.contains request.path (ascii "/objects/") ||
      Bytes.contains request.path (ascii "/multipart/"))

/-- Write a piece of a body to the session of the upload.  The result is `none` where an
exception escapes; a context without a session is not met, since the connection is closed
once a session could not be opened. -/
def writeUpload (request : HttpRequest) (context : UploadContext) (data : Bytes) :
    ServerM (Option BodyOutcome) := do
  match context.session with
  | none => return none
  | some session =>
      match ← session.write data with
      | .error _ =>
          return (HttpResponse.internalError setup.json (ascii "Failed to write upload")
            request.traceId).map .failed
      | .ok session =>
          perform (.storeUpload { context with
            session := some session, bytesWritten := context.bytesWritten + data.length })
          return some .kept

/-- `Server::OnBodyData`. -/
def onBodyData (request : HttpRequest) (data : Bytes) : ServerM (Option BodyOutcome) := do
  if !shouldStreamUpload request then return some .appended
  else
    match (← perform .findUpload).filter UploadContext.streaming with
    | some context => writeUpload setup request context data
    | none =>
        let expectedSha256 := request.getHeader (ascii "X-Content-SHA256")
        match ← DataStore.beginWrite setup with
        | .error _ =>
            perform (.storeUpload ⟨none, expectedSha256, 0, true⟩)
            return (HttpResponse.internalError setup.json (ascii "Failed to start upload")
              request.traceId).map .failed
        | .ok session =>
            let context : UploadContext := ⟨some session, expectedSha256, 0, true⟩
            perform (.storeUpload context)
            writeUpload setup request context data

/-- `Server::OnConnectionClose`, as far as it concerns the upload: a session that is dropped
unfinished removes its temporary file. -/
def onConnectionClose : ServerM Unit := do
  match ← perform .findUpload with
  | none => pure ()
  | some context =>
      perform .eraseUpload
      match context.session with
      | none => pure ()
      | some session =>
          let _ ← perform (.removeFile session.tmpPath)
          pure ()

end Server

end MiniS3.Api
