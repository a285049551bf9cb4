import MiniS3.Api.PresignHandlers
import MiniS3.Net.HttpRouter

/-!
# Middlewares

`TraceMiddleware` gives every request an id and repeats it in the response, and
`AuthMiddleware` lets a request pass to its handler or answers for it.
-/

namespace MiniS3.Api

open Lib Net

namespace TraceMiddleware

/-- `TraceMiddleware::Handle`. -/
def handle (request : HttpRequest) (next : HttpHandler ServerM) : ServerM Handled := do
  let requestId := request.getHeader (ascii "X-Request-Id")
  if requestId.isEmpty then
    let traceId ← perform .generateUuid
    proceed traceId (request.setHeader (ascii "X-Request-Id") traceId)
  else proceed requestId request
where
  /-- Call the handler with the trace id in place, and send the id back. -/
  proceed (traceId : Bytes) (request : HttpRequest) : ServerM Handled := do
    let (response, request) ← next { request with traceId }
    return (response.map fun response => response.setHeader (ascii "X-Request-Id") traceId,
      request)

end TraceMiddleware

namespace AuthMiddleware

variable (setup : Setup)

/-- `AuthMiddleware::RequiresAuth`. -/
def requiresAuth (path : Bytes) : Bool :=
  !([ascii "/healthz", ascii "/readyz", ascii "/metrics"].contains path)

/-- `AuthMiddleware::ValidateBearerToken`. -/
def validateBearerToken (authHeader : Bytes) : Bool :=
  let scheme := ascii "Bearer "
  if authHeader.length ≤ scheme.length then false
  else if authHeader.take scheme.length ≠ scheme then false
  else setup.staticTokens.contains (authHeader.drop scheme.length)

/-- `AuthMiddleware::ValidateApiKey`. -/
def validateApiKey (apiKey : Bytes) : Bool :=
  setup.staticTokens.contains apiKey

/-- The header by which a request without a signature shows a token, if it does. -/
def tokenMethod (request : HttpRequest) : Option Bytes :=
  let authHeader := request.getHeader (ascii "Authorization")
  let apiKey := request.getHeader (ascii "X-API-Key")
  if !authHeader.isEmpty && validateBearerToken setup authHeader then some (ascii "bearer")
  else if !apiKey.isEmpty && validateApiKey setup apiKey then some (ascii "apikey")
  else none

/-- `AuthMiddleware::Handle`. -/
def handle (request : HttpRequest) (next : HttpHandler ServerM) : ServerM Handled := do
  if !requiresAuth request.path then next request
  else if !(request.getQueryParam (ascii "sig")).isEmpty then
    if ← PresignHandlers.verifyPresignUrl setup request then
      next (request.setHeader (ascii "X-Auth-Method") (ascii "presign"))
    else
      return (HttpResponse.forbidden setup.json (ascii "Invalid or expired signature") [],
        request)
  else
    match tokenMethod setup request with
    | some method => next (request.setHeader (ascii "X-Auth-Method") method)
    | none =>
        return (HttpResponse.unauthorized setup.json (ascii "Authentication required") [],
          request)

end AuthMiddleware

end MiniS3.Api
