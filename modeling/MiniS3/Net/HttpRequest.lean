import MiniS3.Lib.Table
import MiniS3.Util.Bytes

/-!
# HTTP requests

The request the parser fills in, the router completes with path parameters, and
the handlers read.  Header names are stored in lower case, and a header that is
sent twice keeps the last value.
-/

namespace MiniS3.Net

open Lib

/-- The methods of the source, with `UNKNOWN` for everything else. -/
inductive HttpMethod
  | UNKNOWN
  | GET
  | POST
  | PUT
  | DELETE
  | HEAD
  | OPTIONS
  | PATCH
  deriving DecidableEq

/-- `StringToMethod`. -/
def stringToMethod (method : Bytes) : HttpMethod :=
  if method = ascii "GET" then .GET
  else if method = ascii "POST" then .POST
  else if method = ascii "PUT" then .PUT
  else if method = ascii "DELETE" then .DELETE
  else if method = ascii "HEAD" then .HEAD
  else if method = ascii "OPTIONS" then .OPTIONS
  else if method = ascii "PATCH" then .PATCH
  else .UNKNOWN

/-- `HttpMethodToString`. -/
def httpMethodToString : HttpMethod → Bytes
  | .GET => ascii "GET"
  | .POST => ascii "POST"
  | .PUT => ascii "PUT"
  | .DELETE => ascii "DELETE"
  | .HEAD => ascii "HEAD"
  | .OPTIONS => ascii "OPTIONS"
  | .PATCH => ascii "PATCH"
  | .UNKNOWN => ascii "UNKNOWN"

/-- An HTTP request. -/
structure HttpRequest where
  method : HttpMethod
  path : Bytes
  query : Bytes
  version : Bytes
  headers : Table Bytes Bytes
  body : Bytes
  pathParams : Table Bytes Bytes
  traceId : Bytes
  clientIp : Bytes

namespace HttpRequest

/-- `HttpRequest()`. -/
def empty : HttpRequest where
  method := .UNKNOWN
  path := []
  query := []
  version := ascii "HTTP/1.1"
  headers := ∅
  body := []
  pathParams := ∅
  traceId := []
  clientIp := []

/-- `AddHeader` and `SetHeader`, which have one body. -/
def setHeader (key value : Bytes) (request : HttpRequest) : HttpRequest :=
  { request with headers := request.headers.set (Bytes.toLower key) value }

/-- `GetHeader`: the empty string when the header is absent. -/
def getHeader (request : HttpRequest) (key : Bytes) : Bytes :=
  (request.headers.lookup (Bytes.toLower key)).getD []

/-- `IsKeepAlive`. -/
def isKeepAlive (request : HttpRequest) : Bool :=
  let connection := Bytes.toLower (request.getHeader (ascii "connection"))
  if connection = ascii "close" then false
  else if connection = ascii "keep-alive" then true
  else request.version = ascii "HTTP/1.1"

/-- `AppendBody`. -/
def appendBody (data : Bytes) (request : HttpRequest) : HttpRequest :=
  { request with body := request.body ++ data }

/-- `SetPathParam`. -/
def setPathParam (key value : Bytes) (request : HttpRequest) : HttpRequest :=
  { request with pathParams := request.pathParams.set key value }

/-- `GetPathParam`. -/
def getPathParam (request : HttpRequest) (key : Bytes) : Bytes :=
  (request.pathParams.lookup key).getD []

/-- One `key=value` pair of a query string; without `=` the whole pair is a key. -/
def queryPair (pair : Bytes) : Bytes × Bytes :=
  match Bytes.find (ascii "=") pair with
  | some position => (pair.take position, pair.drop (position + 1))
  | none => (pair, [])

/-- The pairs that `std::getline` finds: none is behind a `&` at the end. -/
def queryPairs (query : Bytes) : List Bytes :=
  let pairs := query.splitOn 38
  if pairs.getLast? = some [] then pairs.dropLast else pairs

/-- `GetQueryParam`, through `ParseQueryString`: the last pair with the key wins. -/
def getQueryParam (request : HttpRequest) (key : Bytes) : Bytes :=
  let pairs := (queryPairs request.query).map queryPair
  ((pairs.reverse.find? fun pair => pair.1 = key).map Prod.snd).getD []

/-- `Reset`: everything but the trace id and the client address. -/
def reset (request : HttpRequest) : HttpRequest :=
  { empty with traceId := request.traceId, clientIp := request.clientIp }

/-! ## Headers after an update -/

@[simp]
theorem getHeader_setHeader_self (key value : Bytes) (request : HttpRequest) :
    (request.setHeader key value).getHeader key = value := by
  simp [getHeader, setHeader]

theorem getHeader_setHeader_ne {key other : Bytes} (value : Bytes) (request : HttpRequest)
    (different : Bytes.toLower other ≠ Bytes.toLower key) :
    (request.setHeader key value).getHeader other = request.getHeader other := by
  simp [getHeader, setHeader, Table.lookup_set_ne _ _ different]

end HttpRequest

end MiniS3.Net
