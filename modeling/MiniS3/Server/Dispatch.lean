import MiniS3.Server.Server

/-!
# What becomes of a request

`HttpRouter::Handle` wraps the handler of a route into closures.  Here the same is written
in the order in which it happens: a route is looked up, the request gets its trace id, the
authentication lets it pass or answers for it, and then the handler runs.  `handle_eq` says
that this is what the router does, so that a run of the router can be taken apart at the
point where a handler starts.
-/

namespace MiniS3.Api.Server

open Lib Net

/-- What is decided about a request before a handler runs. -/
inductive Decision
  | notFound
  | refused (response : Option HttpResponse)
  | admitted (endpoint : Endpoint)

variable (setup : Setup)

/-- The part of `TraceMiddleware` before the handler. -/
def traced (request : HttpRequest) : ServerM HttpRequest := do
  let requestId := request.getHeader (ascii "X-Request-Id")
  if requestId.isEmpty then
    let traceId ← perform .generateUuid
    return { request.setHeader (ascii "X-Request-Id") traceId with traceId }
  else return { request with traceId := requestId }

/-- The part of `AuthMiddleware` before the handler. -/
def authenticated (endpoint : Endpoint) (request : HttpRequest) :
    ServerM (Decision × HttpRequest) := do
  if !setup.authEnabled || !AuthMiddleware.requiresAuth request.path then
    return (.admitted endpoint, request)
  else if !(request.getQueryParam (ascii "sig")).isEmpty then
    if ← PresignHandlers.verifyPresignUrl setup request then
      return (.admitted endpoint,
        request.setHeader (ascii "X-Auth-Method") (ascii "presign"))
    else
      return (.refused (HttpResponse.forbidden setup.json
        (ascii "Invalid or expired signature") []), request)
  else
    match AuthMiddleware.tokenMethod setup request with
    | some method =>
        return (.admitted endpoint, request.setHeader (ascii "X-Auth-Method") method)
    | none =>
        return (.refused (HttpResponse.unauthorized setup.json
          (ascii "Authentication required") []), request)

/-- Everything before the handler. -/
def dispatch (request : HttpRequest) : ServerM (Decision × HttpRequest) :=
  match findRoute routes request.method request.path with
  | none => return (.notFound, request)
  | some (endpoint, params) => do
      let request ← traced (request.setPathParams params)
      authenticated setup endpoint request

/-- Repeat the trace id of a request in its response. -/
def withTraceId (request : HttpRequest) (response : Option HttpResponse) : Option HttpResponse :=
  response.map fun response => response.setHeader (ascii "X-Request-Id") request.traceId

/-- Carry out a decision. -/
def complete (decided : Decision × HttpRequest) : ServerM Handled :=
  match decided with
  | (.notFound, request) =>
      return (HttpResponse.notFound setup.json
        (ascii "Resource not found: " ++ request.path) [], request)
  | (.refused response, request) => return (withTraceId request response, request)
  | (.admitted endpoint, request) => do
      let response ← endpoint.handler setup request
      return (withTraceId request response, request)

/-- The route of a request does not depend on what its handler does. -/
theorem findRoute_map {η θ : Type} (convert : η → θ) (table : List (RouteEntry η))
    (method : HttpMethod) (path : Bytes) :
    findRoute (table.map fun route => ⟨route.method, route.pattern, convert route.handler⟩)
        method path =
      (findRoute table method path).map fun found => (convert found.1, found.2) := by
  induction table with
  | nil => rfl
  | cons route table inductionHypothesis =>
      unfold findRoute at inductionHypothesis ⊢
      rw [List.map_cons, List.findSome?_cons, List.findSome?_cons, inductionHypothesis]
      have same : RouteEntry.takes ⟨route.method, route.pattern, convert route.handler⟩ method
          path = route.takes method path := rfl
      rw [same]
      cases route.takes method path <;> rfl

/-- Authentication, and then the handler. -/
theorem authenticated_complete (endpoint : Endpoint) (request : HttpRequest) :
    (HttpRouter.wrap (if setup.authEnabled then [AuthMiddleware.handle setup] else [])
        (serve (endpoint.handler setup)) request >>= fun handled =>
      (pure (withTraceId request handled.1, handled.2) : ServerM Handled)) =
      authenticated setup endpoint request >>= complete setup := by
  have served (passed : HttpRequest) (same : passed.traceId = request.traceId) :
      (serve (endpoint.handler setup) passed >>= fun handled =>
        (pure (withTraceId request handled.1, handled.2) : ServerM Handled)) =
        complete setup (.admitted endpoint, passed) := by
    unfold serve complete
    rw [Program.bind_assoc]
    simp only [Program.pure_eq, Program.ret_bind, withTraceId, same]
  unfold authenticated
  by_cases enabled : setup.authEnabled = true
  · simp only [enabled, if_true, HttpRouter.wrap, List.foldr, AuthMiddleware.handle,
      Bool.not_true, Bool.false_or]
    by_cases required : AuthMiddleware.requiresAuth request.path = true
    · simp only [required, Bool.not_true, Bool.false_eq_true, if_false]
      by_cases signed : (request.getQueryParam (ascii "sig")).isEmpty = true
      · simp only [signed, Bool.not_true, Bool.false_eq_true, if_false]
        cases AuthMiddleware.tokenMethod setup request with
        | some method => exact served _ rfl
        | none => rfl
      · simp only [signed, Bool.not_false, if_true]
        rw [Program.bind_assoc, Program.bind_assoc]
        congr 1
        funext valid
        cases valid with
        | true => exact served _ rfl
        | false => rfl
    · simp only [required, Bool.not_false, if_true]
      exact served request rfl
  · simp only [enabled, HttpRouter.wrap, Bool.not_false, Bool.true_or, if_true]
    exact served request rfl

/-- What the router does with a request, in the order in which it happens. -/
theorem handle_eq (request : HttpRequest) :
    (router setup).handle setup.json request = dispatch setup request >>= complete setup := by
  unfold HttpRouter.handle dispatch
  simp only [router]
  rw [findRoute_map (fun endpoint : Endpoint => serve (endpoint.handler setup))]
  cases findRoute routes request.method request.path with
  | none => rfl
  | some found =>
      obtain ⟨endpoint, params⟩ := found
      simp only [Option.map_some]
      rw [Program.bind_assoc]
      simp only [middlewares, HttpRouter.wrap, List.foldr, TraceMiddleware.handle, traced]
      by_cases empty : ((request.setPathParams params).getHeader
          (ascii "X-Request-Id")).isEmpty = true
      · simp only [empty, if_true]
        rw [Program.bind_assoc]
        congr 1
        funext traceId
        exact authenticated_complete setup endpoint _
      · simp only [empty]
        exact authenticated_complete setup endpoint _

/-! ## Requests that reach a handler -/

/-- The headers that middlewares set. -/
def ownHeaders : List Bytes :=
  [ascii "x-request-id", ascii "x-auth-method"]

/-- What the middlewares leave as it is. -/
structure SameMessage (request served : HttpRequest) : Prop where
  method : served.method = request.method
  path : served.path = request.path
  query : served.query = request.query
  body : served.body = request.body
  clientIp : served.clientIp = request.clientIp
  headers : ∀ name, Bytes.toLower name ∉ ownHeaders →
    served.getHeader name = request.getHeader name

theorem SameMessage.refl (request : HttpRequest) : SameMessage request request :=
  ⟨rfl, rfl, rfl, rfl, rfl, fun _ _ => rfl⟩

theorem SameMessage.trans {first second third : HttpRequest} (one : SameMessage first second)
    (two : SameMessage second third) : SameMessage first third where
  method := two.method.trans one.method
  path := two.path.trans one.path
  query := two.query.trans one.query
  body := two.body.trans one.body
  clientIp := two.clientIp.trans one.clientIp
  headers name notOwn := (two.headers name notOwn).trans (one.headers name notOwn)

theorem sameMessage_setHeader {name value : Bytes} {request : HttpRequest}
    (own : Bytes.toLower name ∈ ownHeaders) :
    SameMessage request (request.setHeader name value) where
  method := rfl
  path := rfl
  query := rfl
  body := rfl
  clientIp := rfl
  headers _ notOwn := HttpRequest.getHeader_setHeader_ne value request
    fun same => notOwn (same ▸ own)

theorem headers_setPathParams (params : List (Bytes × Bytes)) (request : HttpRequest) :
    (request.setPathParams params).headers = request.headers := by
  unfold HttpRequest.setPathParams
  induction params generalizing request with
  | nil => rfl
  | cons param params inductionHypothesis =>
      exact inductionHypothesis (request.setPathParam param.1 param.2)

theorem sameMessage_setPathParams (params : List (Bytes × Bytes)) (request : HttpRequest) :
    SameMessage request (request.setPathParams params) := by
  unfold HttpRequest.setPathParams
  induction params generalizing request with
  | nil => exact .refl request
  | cons param params inductionHypothesis =>
      refine SameMessage.trans ?_ (inductionHypothesis (request.setPathParam param.1 param.2))
      exact ⟨rfl, rfl, rfl, rfl, rfl, fun _ _ => rfl⟩

theorem SameMessage.getQueryParam {request served : HttpRequest}
    (same : SameMessage request served) (key : Bytes) :
    served.getQueryParam key = request.getQueryParam key := by
  unfold HttpRequest.getQueryParam
  rw [same.query]

/-- `VerifyPresignUrl` reads the method, the path and the query. -/
theorem SameMessage.verifyPresignUrl {request served : HttpRequest}
    (same : SameMessage request served) :
    PresignHandlers.verifyPresignUrl setup served =
      PresignHandlers.verifyPresignUrl setup request := by
  unfold PresignHandlers.verifyPresignUrl PresignHandlers.presignedExpiry
    PresignHandlers.presignedMethod PresignHandlers.validSignature
    PresignHandlers.presignedMethod
  simp only [same.getQueryParam, same.method, same.path]

theorem SameMessage.tokenMethod {request served : HttpRequest}
    (same : SameMessage request served) :
    AuthMiddleware.tokenMethod setup served = AuthMiddleware.tokenMethod setup request := by
  unfold AuthMiddleware.tokenMethod
  rw [same.headers (ascii "Authorization") (by decide), same.headers (ascii "X-API-Key") (by decide)]

/-- The trace id of a request: its own, or a new one. -/
theorem runs_traced {request served : HttpRequest} {events : List (Program.Event ioSig)}
    (runs : Program.Runs (traced request) events served) :
    SameMessage request served ∧ served.pathParams = request.pathParams ∧
      ((request.getHeader (ascii "X-Request-Id") = [] ∧
          events = [⟨.generateUuid, served.traceId⟩]) ∨
        (request.getHeader (ascii "X-Request-Id") ≠ [] ∧ events = [] ∧
          served.traceId = request.getHeader (ascii "X-Request-Id"))) := by
  unfold traced at runs
  dsimp only at runs
  split at runs
  · rename_i empty
    obtain ⟨traceId, rest, rfl, tail⟩ := Program.runs_call.mp runs
    obtain ⟨rfl, rfl⟩ := Program.runs_ret.mp tail
    refine ⟨?_, rfl, .inl ⟨by simpa using empty, rfl⟩⟩
    exact (sameMessage_setHeader (by decide)).trans ⟨rfl, rfl, rfl, rfl, rfl, fun _ _ => rfl⟩
  · rename_i nonempty
    obtain ⟨rfl, rfl⟩ := Program.runs_ret.mp runs
    refine ⟨⟨rfl, rfl, rfl, rfl, rfl, fun _ _ => rfl⟩, rfl, .inr ⟨?_, rfl, rfl⟩⟩
    simpa using nonempty

/-- `VerifyPresignUrl` accepts at the time it reads. -/
theorem now_of_runs_verify {request : HttpRequest} {events : List (Program.Event ioSig)}
    (runs : Program.Runs (PresignHandlers.verifyPresignUrl setup request) events true) :
    ∃ now : Int, events = [⟨.now, now⟩] := by
  unfold PresignHandlers.verifyPresignUrl at runs
  split at runs
  · exact absurd (Program.runs_ret.mp runs).2 (by decide)
  · split at runs
    · exact absurd (Program.runs_ret.mp runs).2 (by decide)
    · obtain ⟨now, rest, rfl, tail⟩ := Program.runs_call.mp runs
      exact ⟨now, by rw [(Program.runs_ret.mp tail).1]⟩

/-- Why a request was let through to its handler. -/
inductive Passed (request : HttpRequest) : List (Program.Event ioSig) → Prop
  | unguarded (isOpen : setup.authEnabled = false ∨
      AuthMiddleware.requiresAuth request.path = false) : Passed request []
  | token (unsigned : request.getQueryParam (ascii "sig") = [])
      (shown : (AuthMiddleware.tokenMethod setup request).isSome) : Passed request []
  | signature (now : Int) (signed : request.getQueryParam (ascii "sig") ≠ [])
      (valid : Program.Runs (PresignHandlers.verifyPresignUrl setup request)
        [⟨.now, now⟩] true) : Passed request [⟨.now, now⟩]

theorem runs_authenticated {endpoint admitted : Endpoint} {request served : HttpRequest}
    {events : List (Program.Event ioSig)}
    (runs : Program.Runs (authenticated setup endpoint request) events
      (.admitted admitted, served)) :
    admitted = endpoint ∧ SameMessage request served ∧ served.pathParams = request.pathParams ∧
      served.traceId = request.traceId ∧ Passed setup request events := by
  unfold authenticated at runs
  split at runs
  · rename_i isOpen
    obtain ⟨rfl, same⟩ := Program.runs_ret.mp runs
    cases same
    exact ⟨rfl, .refl request, rfl, rfl, .unguarded (by simpa using isOpen)⟩
  · split at runs
    · rename_i signed
      obtain ⟨before, after, valid, rfl, verified, tail⟩ := Program.runs_bind.mp runs
      cases valid with
      | false => cases (Program.runs_ret.mp tail).2
      | true =>
          obtain ⟨now, rfl⟩ := now_of_runs_verify setup verified
          obtain ⟨rfl, same⟩ := Program.runs_ret.mp tail
          cases same
          exact ⟨rfl, sameMessage_setHeader (by decide), rfl, rfl,
            .signature now (by simpa using signed) verified⟩
    · rename_i unsigned
      split at runs
      · rename_i method shown
        obtain ⟨rfl, same⟩ := Program.runs_ret.mp runs
        cases same
        exact ⟨rfl, sameMessage_setHeader (by decide), rfl, rfl,
          .token (by simpa using unsigned) (by rw [shown]; rfl)⟩
      · cases (Program.runs_ret.mp runs).2

theorem Passed.congr {request served : HttpRequest} {events : List (Program.Event ioSig)}
    (passed : Passed setup served events) (same : SameMessage request served) :
    Passed setup request events := by
  cases passed with
  | unguarded isOpen => exact .unguarded (by rw [← same.path]; exact isOpen)
  | token unsigned shown =>
      refine .token ?_ ?_
      · rw [← same.getQueryParam]
        exact unsigned
      · rw [← same.tokenMethod setup]
        exact shown
  | signature now signed valid =>
      refine .signature now ?_ ?_
      · rw [← same.getQueryParam]
        exact signed
      · rw [← same.verifyPresignUrl setup]
        exact valid

/-- A request that reaches a handler has its route, is what came in but for the parameters
and the headers of the middlewares, and was let through. -/
theorem runs_dispatch {endpoint : Endpoint} {request served : HttpRequest}
    {events : List (Program.Event ioSig)}
    (runs : Program.Runs (dispatch setup request) events (.admitted endpoint, served)) :
    ∃ params tracing passing, findRoute routes request.method request.path =
        some (endpoint, params) ∧
      served.pathParams = (request.setPathParams params).pathParams ∧
      SameMessage request served ∧ events = tracing ++ passing ∧
      ((request.getHeader (ascii "X-Request-Id") = [] ∧
          tracing = [⟨.generateUuid, served.traceId⟩]) ∨
        (request.getHeader (ascii "X-Request-Id") ≠ [] ∧ tracing = [] ∧
          served.traceId = request.getHeader (ascii "X-Request-Id"))) ∧
      Passed setup request passing := by
  unfold dispatch at runs
  cases found : findRoute routes request.method request.path with
  | none =>
      rw [found] at runs
      cases (Program.runs_ret.mp runs).2
  | some routed =>
      obtain ⟨route, params⟩ := routed
      rw [found] at runs
      obtain ⟨tracing, passing, middle, rfl, first, second⟩ := Program.runs_bind.mp runs
      have withParams := sameMessage_setPathParams params request
      obtain ⟨sameTraced, paramsTraced, ids⟩ := runs_traced first
      obtain ⟨rfl, sameServed, paramsServed, traceId, passed⟩ := runs_authenticated setup second
      have requestId : (request.setPathParams params).getHeader (ascii "X-Request-Id") =
          request.getHeader (ascii "X-Request-Id") := by
        rw [HttpRequest.getHeader, headers_setPathParams]
        rfl
      rw [requestId, ← traceId] at ids
      exact ⟨params, tracing, passing, rfl, paramsServed.trans paramsTraced,
        withParams.trans (sameTraced.trans sameServed), rfl, ids,
        passed.congr setup (withParams.trans sameTraced)⟩

end MiniS3.Api.Server
