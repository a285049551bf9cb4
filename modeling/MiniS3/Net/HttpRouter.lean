import MiniS3.Lib.Pattern
import MiniS3.Net.HttpRequest
import MiniS3.Net.HttpResponse

/-!
# The router

Routes are tried in the order in which they were registered, and the first one with the
method and the path of the request is taken.  Its handler is wrapped into the middlewares,
the first of them outermost; a request without a route goes to the not-found handler, which
no middleware sees.

A pattern has literal bytes, `{name}` for a part of a path without a slash, and `*` for
anything on one line.  The model knows no other use of the characters of a regular
expression; the patterns of the server have none.

A handler may change the request it is given, and what it does besides is up to the monad
`m`.  A response is `none` where an exception escapes.
-/

namespace MiniS3.Net

open Lib

/-- What is left of a handler once it has run: its response, and the request as it is
now. -/
abbrev Handled :=
  Option HttpResponse × HttpRequest

section

variable (m : Type → Type)

/-- `HttpHandler`. -/
abbrev HttpHandler :=
  HttpRequest → m Handled

/-- `Middleware`. -/
abbrev Middleware :=
  HttpRequest → HttpHandler m → m Handled

end

/-- The bytes of a path parameter. -/
def notSlash (byte : UInt8) : Bool :=
  byte ≠ 47

/-- The bytes that `.` stands for. -/
def onLine (byte : UInt8) : Bool :=
  byte ≠ 10 && byte ≠ 13

/-- `CompilePattern`, with the name that is being read when the position is inside braces.
`none` is the exception for a brace that is not closed. -/
def compileFrom : Option Bytes → Bytes → Option (List (Piece UInt8) × List Bytes)
  | none, [] => some ([], [])
  | some _, [] => none
  | none, byte :: rest =>
      if byte = 123 then compileFrom (some []) rest
      else
        (compileFrom none rest).map fun compiled =>
          if byte = 42 then (.capture onLine 0 :: compiled.1, compiled.2)
          else (.literal byte :: compiled.1, compiled.2)
  | some name, byte :: rest =>
      if byte = 125 then
        (compileFrom none rest).map fun compiled =>
          (.capture notSlash 1 :: compiled.1, name :: compiled.2)
      else compileFrom (some (name ++ [byte])) rest

/-- `CompilePattern`: the pieces of a pattern, and the names of its parameters. -/
def compilePattern (pattern : Bytes) : Option (List (Piece UInt8) × List Bytes) :=
  compileFrom none pattern

/-- The path parameters with which a pattern matches a path. -/
def matchPattern (pattern path : Bytes) : Option (List (Bytes × Bytes)) :=
  (compilePattern pattern).bind fun compiled =>
    (Piece.matchAll compiled.1 path).map fun captures => compiled.2.zip captures

/-- `RouteEntry`. -/
structure RouteEntry (η : Type) where
  method : HttpMethod
  pattern : Bytes
  handler : η

/-- The path parameters with which a route takes a request. -/
def RouteEntry.takes {η : Type} (route : RouteEntry η) (method : HttpMethod) (path : Bytes) :
    Option (List (Bytes × Bytes)) :=
  if route.method = method then matchPattern route.pattern path else none

/-- The first route that takes a request, with the path parameters. -/
def findRoute {η : Type} (routes : List (RouteEntry η)) (method : HttpMethod) (path : Bytes) :
    Option (η × List (Bytes × Bytes)) :=
  routes.findSome? fun route => (route.takes method path).map (route.handler, ·)

/-- The request with its path parameters. -/
def HttpRequest.setPathParams (params : List (Bytes × Bytes)) (request : HttpRequest) :
    HttpRequest :=
  params.foldl (fun request param => request.setPathParam param.1 param.2) request

/-- `HttpRouter`. -/
structure HttpRouter (m : Type → Type) where
  routes : List (RouteEntry (HttpHandler m))
  middlewares : List (Middleware m)
  notFoundHandler : Option (HttpHandler m)

namespace HttpRouter

variable {m : Type → Type}

/-- A handler inside the middlewares, the first of which is outermost. -/
def wrap (middlewares : List (Middleware m)) (handler : HttpHandler m) : HttpHandler m :=
  middlewares.foldr (fun middleware handler request => middleware request handler) handler

/-- `HttpRouter::Handle`. -/
def handle [Monad m] (library : JsonLibrary) (router : HttpRouter m) (request : HttpRequest) :
    m Handled :=
  match findRoute router.routes request.method request.path with
  | some (handler, params) => wrap router.middlewares handler (request.setPathParams params)
  | none =>
      match router.notFoundHandler with
      | some handler => handler request
      | none =>
          pure (HttpResponse.notFound library (ascii "Route not found: " ++ request.path)
            request.traceId, request)

end HttpRouter

end MiniS3.Net
