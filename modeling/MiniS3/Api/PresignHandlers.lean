import MiniS3.Api.ObjectHandlers

/-!
# Presigned URLs

`CreatePresignUrl` signs method, path and expiry of a download with the first token, and
`VerifyPresignUrl` signs what a request says of itself with every token and compares.  The
name of a bucket or an object goes into the path and into the URL as it is.
-/

namespace MiniS3.Api.PresignHandlers

open Lib Net

/-- The text a signature is computed of. -/
def stringToSign (method path : Bytes) (expires : Int) : Bytes :=
  method ++ ascii "\n" ++ path ++ ascii "\n" ++ Bytes.ofInt expires

/-- The path of an object. -/
def objectPath (bucket object : Bytes) : Bytes :=
  ascii "/buckets/" ++ bucket ++ ascii "/objects/" ++ object

variable (setup : Setup)

/-- `PresignHandlers::GenerateSignature`. -/
def generateSignature (secret method path : Bytes) (expires : Int) : Bytes :=
  toHexString (setup.hmacSha256 secret (stringToSign method path expires)).toList

/-- A presigned URL. -/
def presignedUrl (secret bucket object : Bytes) (expires : Int) : Bytes :=
  objectPath bucket object ++ ascii "?expires=" ++ Bytes.ofInt expires ++ ascii "&sig=" ++
    generateSignature setup secret (ascii "GET") (objectPath bucket object) expires ++
    ascii "&method=" ++ ascii "GET"

/-- The body of the response to `CreatePresignUrl`. -/
def presignBody (secret bucket object : Bytes) (expires : Int) : Json :=
  .object [(ascii "url", .string (presignedUrl setup secret bucket object expires)),
    (ascii "expires_at", .integer expires), (ascii "bucket", .string bucket),
    (ascii "object", .string object), (ascii "method", .string (ascii "GET"))]

/-- What a presign request asks for: the names, and for how many seconds; or the message it
is refused with.  The outer `none` is an exception. -/
def readPresignRequest (body : Json) : Option (Except Bytes (Bytes × Bytes × Int)) :=
  match body.field? (ascii "bucket"), body.field? (ascii "object") with
  | some bucketField, some objectField =>
      bucketField.getString.bind fun bucket =>
        objectField.getString.bind fun object =>
          (readMethod body).bind fun method =>
            if method ≠ ascii "GET" then
              some (.error (ascii "Only GET method is supported for presigned URLs"))
            else
              (readTtl body).map fun ttlSeconds =>
                if ttlSeconds < 1 ∨ 7 * 24 * 3600 < ttlSeconds then
                  .error (ascii "TTL must be between 1 and 604800 seconds")
                else .ok (bucket, object, ttlSeconds)
  | _, _ => some (.error (ascii "Missing bucket or object"))
where
  /-- The method, `GET` when there is none. -/
  readMethod (body : Json) : Option Bytes :=
    match body.field? (ascii "method") with
    | some method => method.getString
    | none => some (ascii "GET")
  /-- The lifetime, ten minutes when there is none. -/
  readTtl (body : Json) : Option Int :=
    match body.field? (ascii "ttl_seconds") with
    | some ttlSeconds => ttlSeconds.getInt
    | none => some 600

/-- `PresignHandlers::CreatePresignUrl`. -/
def createPresignUrl (request : HttpRequest) : Handler := do
  match setup.json.parse request.body with
  | none => return HttpResponse.badRequest setup.json (ascii "Invalid JSON body") []
  | some body =>
      match readPresignRequest body with
      | none => return none
      | some (.error message) => return HttpResponse.badRequest setup.json message []
      | some (.ok (bucket, object, ttlSeconds)) =>
          let now ← perform .now
          match setup.staticTokens with
          | [] =>
              return HttpResponse.internalError setup.json (ascii "No signing key configured") []
          | secret :: _ =>
              return (setup.json.dump
                (presignBody setup secret bucket object (now + ttlSeconds))).map HttpResponse.ok

/-- The method a presigned request names, `GET` when it names none. -/
def presignedMethod (request : HttpRequest) : Bytes :=
  if (request.getQueryParam (ascii "method")).isEmpty then ascii "GET"
  else request.getQueryParam (ascii "method")

/-- The expiry a presigned request names, if it can be read. -/
def presignedExpiry (request : HttpRequest) : Option Int :=
  if (request.getQueryParam (ascii "expires")).isEmpty then none
  else Bytes.stoll (request.getQueryParam (ascii "expires"))

/-- The check of a signature with the tokens, one after the other. -/
def validSignature (request : HttpRequest) (expires : Int) : Bool :=
  setup.staticTokens.any fun secret =>
    generateSignature setup secret (presignedMethod request) request.path expires ==
      request.getQueryParam (ascii "sig")

/-- `PresignHandlers::VerifyPresignUrl`. -/
def verifyPresignUrl (request : HttpRequest) : ServerM Bool := do
  if (request.getQueryParam (ascii "sig")).isEmpty then return false
  else
    match presignedExpiry request with
    | none => return false
    | some expires =>
        let now ← perform .now
        return !decide (expires < now) &&
          decide (httpMethodToString request.method = presignedMethod request) &&
          validSignature setup request expires

/-! ## What is signed -/

theorem newline_not_mem_method (method : HttpMethod) :
    (10 : UInt8) ∉ httpMethodToString method := by
  cases method <;> decide

theorem newline_not_mem_ofInt (value : Int) : (10 : UInt8) ∉ Bytes.ofInt value :=
  Bytes.not_mem_ofInt (by decide) (by decide)

/-- Nothing but method, path and expiry themselves give the signed text. -/
theorem stringToSign_injective {one two : HttpMethod} {path other : Bytes} {first second : Int}
    (same : stringToSign (httpMethodToString one) path first =
      stringToSign (httpMethodToString two) other second) :
    httpMethodToString one = httpMethodToString two ∧ path = other ∧ first = second := by
  have newline : ascii "\n" = [10] := rfl
  simp only [stringToSign, newline, List.append_assoc, List.cons_append, List.nil_append]
    at same
  -- the method ends at the first newline, and the expiry starts after the last one
  obtain ⟨methods, rest⟩ := Bytes.eq_of_append_cons (newline_not_mem_method one)
    (newline_not_mem_method two) same
  obtain ⟨paths, expiries⟩ := Bytes.eq_of_append_cons_last (newline_not_mem_ofInt first)
    (newline_not_mem_ofInt second) rest
  exact ⟨methods, paths, Bytes.ofInt_injective expiries⟩

end MiniS3.Api.PresignHandlers
