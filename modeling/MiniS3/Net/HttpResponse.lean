import MiniS3.Lib.Table
import MiniS3.Util.Json

/-!
# HTTP responses

A response with its status, headers and body, or with the file whose contents
follow the head.  An error response carries a JSON body; printing it throws when
the message is not valid UTF-8, so the constructors of error responses are
partial.
-/

namespace MiniS3.Net

open Lib

/-- An HTTP response. -/
structure HttpResponse where
  statusCode : Nat
  statusMessage : Bytes
  headers : Table Bytes Bytes
  body : Bytes
  filePath : Bytes
  fileSize : Nat
  fileOffset : Nat
  fileLength : Nat
  keepAlive : Bool

namespace HttpResponse

/-- `HttpResponse()`. -/
def empty : HttpResponse where
  statusCode := 200
  statusMessage := ascii "OK"
  headers := ∅
  body := []
  filePath := []
  fileSize := 0
  fileOffset := 0
  fileLength := 0
  keepAlive := true

/-- `GetStatusMessage`. -/
def getStatusMessage : Nat → Bytes
  | 200 => ascii "OK"
  | 201 => ascii "Created"
  | 204 => ascii "No Content"
  | 206 => ascii "Partial Content"
  | 301 => ascii "Moved Permanently"
  | 302 => ascii "Found"
  | 304 => ascii "Not Modified"
  | 400 => ascii "Bad Request"
  | 401 => ascii "Unauthorized"
  | 403 => ascii "Forbidden"
  | 404 => ascii "Not Found"
  | 405 => ascii "Method Not Allowed"
  | 409 => ascii "Conflict"
  | 413 => ascii "Payload Too Large"
  | 416 => ascii "Range Not Satisfiable"
  | 500 => ascii "Internal Server Error"
  | 503 => ascii "Service Unavailable"
  | _ => ascii "Unknown"

/-- `SetHeader`. -/
def setHeader (key value : Bytes) (response : HttpResponse) : HttpResponse :=
  { response with headers := response.headers.set key value }

/-- `SetJsonBody`. -/
def setJsonBody (json : Bytes) (response : HttpResponse) : HttpResponse :=
  { response with body := json }.setHeader (ascii "Content-Type")
    (ascii "application/json; charset=utf-8")

/-- A response with a status code and its standard message. -/
def ofStatus (statusCode : Nat) : HttpResponse :=
  { empty with statusCode, statusMessage := getStatusMessage statusCode }

/-- `HttpResponse::Ok`. -/
def ok (body : Bytes) : HttpResponse :=
  { ofStatus 200 with body }

/-- `HttpResponse::Created`. -/
def created (body : Bytes) : HttpResponse :=
  if body.isEmpty then ofStatus 201 else (ofStatus 201).setJsonBody body

/-- `HttpResponse::Json`. -/
def json (text : Bytes) (statusCode : Nat) : HttpResponse :=
  (ofStatus statusCode).setJsonBody text

/-- `SetFile`: send a file after the head. -/
def setFile (filePath : Bytes) (fileSize fileOffset length : Nat) (response : HttpResponse) :
    HttpResponse :=
  { response with
    filePath, fileSize, fileOffset, fileLength := if 0 < length then length else fileSize }

/-- `HasFile()`. -/
def hasFile (response : HttpResponse) : Bool :=
  !response.filePath.isEmpty

/-- `FileLength()`. -/
def sentLength (response : HttpResponse) : Nat :=
  if 0 < response.fileLength then response.fileLength else response.fileSize

/-- The status is in the 200 family. -/
def isSuccess (response : HttpResponse) : Bool :=
  decide (200 ≤ response.statusCode ∧ response.statusCode < 300)

/-- The head, and the body of a response without a file, as `AppendToBuffer` writes
them. -/
def toBytes (response : HttpResponse) : Bytes :=
  ascii "HTTP/1.1 " ++ Bytes.ofNat response.statusCode ++ ascii " " ++
    response.statusMessage ++ ascii "\r\n" ++
  (response.headers.rows.flatMap fun header =>
    header.1 ++ ascii ": " ++ header.2 ++ ascii "\r\n") ++
  (if !response.body.isEmpty && (response.headers.lookup (ascii "Content-Length")).isNone then
    ascii "Content-Length: " ++ Bytes.ofNat response.body.length ++ ascii "\r\n"
  else []) ++
  (if (response.headers.lookup (ascii "Connection")).isNone then
    ascii "Connection: " ++ ascii (if response.keepAlive then "keep-alive" else "close") ++
      ascii "\r\n"
  else []) ++
  ascii "\r\n" ++
  (if !response.hasFile && !response.body.isEmpty then response.body else [])

section Errors

variable (library : JsonLibrary)

/-- The body of an error response. -/
def errorBody (code message traceId : Bytes) : Json :=
  .object [(ascii "error", .object
    ([(ascii "code", .string code), (ascii "message", .string message)] ++
      if traceId.isEmpty then [] else [(ascii "trace_id", .string traceId)]))]

/-- `HttpResponse::Error`. -/
def error (statusCode : Nat) (code message traceId : Bytes) : Option HttpResponse :=
  (library.dump (errorBody code message traceId)).map fun body =>
    (ofStatus statusCode).setJsonBody body

theorem statusCode_of_error {statusCode : Nat} {code message traceId : Bytes}
    {response : HttpResponse}
    (built : error library statusCode code message traceId = some response) :
    response.statusCode = statusCode := by
  obtain ⟨body, -, rfl⟩ := Option.map_eq_some_iff.mp built
  rfl

/-- `HttpResponse::NotFound`. -/
def notFound (message traceId : Bytes) : Option HttpResponse :=
  error library 404 (ascii "NotFound") message traceId

/-- `HttpResponse::BadRequest`. -/
def badRequest (message traceId : Bytes) : Option HttpResponse :=
  error library 400 (ascii "BadRequest") message traceId

/-- `HttpResponse::Unauthorized`. -/
def unauthorized (message traceId : Bytes) : Option HttpResponse :=
  error library 401 (ascii "Unauthorized") message traceId

/-- `HttpResponse::Forbidden`. -/
def forbidden (message traceId : Bytes) : Option HttpResponse :=
  error library 403 (ascii "Forbidden") message traceId

/-- `HttpResponse::Conflict`. -/
def conflict (message traceId : Bytes) : Option HttpResponse :=
  error library 409 (ascii "Conflict") message traceId

/-- `HttpResponse::InternalError`. -/
def internalError (message traceId : Bytes) : Option HttpResponse :=
  error library 500 (ascii "InternalError") message traceId

end Errors

end HttpResponse

end MiniS3.Net
