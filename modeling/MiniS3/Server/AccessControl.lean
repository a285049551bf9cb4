import MiniS3.Api.BucketDeletion
import MiniS3.Server.Routes

/-!
# Access control

A run of the server is a list of exchanges, each with a request, what the router asked its
surroundings and what they answered, and what came of it.  With authentication enabled, a
handler runs for a request that shows a token, or that has a valid signature.

A client knows a signature only from a URL that the server has issued to it: where a request
shows the signature of the text that it is checked against, some earlier exchange signed that
text.  The signed text tells the method, the path and the expiry apart, and the number of slashes
in the path tells the bucket from the object.
-/

namespace MiniS3.Api.Server

open Lib Net

/-- A request with what the router asked and was answered while it handled it. -/
structure Exchange (setup : Setup) where
  request : HttpRequest
  events : List (Program.Event ioSig)
  handled : Handled
  runs : Program.Runs ((router setup).handle setup.json request) events handled

section

variable {setup : Setup}

namespace Exchange

/-- A handler ran, with the request as the middlewares have left it. -/
structure Serves (exchange : Exchange setup) (endpoint : Endpoint) (served : HttpRequest)
    (before during : List (Program.Event ioSig)) (response : Option HttpResponse) : Prop where
  events : exchange.events = before ++ during
  dispatched : Program.Runs (dispatch setup exchange.request) before (.admitted endpoint, served)
  handler : Program.Runs (endpoint.handler setup served) during response
  handled : exchange.handled = (withTraceId served response, served)

/-- The request shows a token. -/
def ShowsToken (exchange : Exchange setup) : Prop :=
  ∃ token ∈ setup.staticTokens, token ≠ [] ∧
    (exchange.request.getHeader (ascii "Authorization") = ascii "Bearer " ++ token ∨
      exchange.request.getHeader (ascii "X-API-Key") = token)

/-- The authentication called `VerifyPresignUrl`, which read the time `now` and accepted. -/
structure VerifiedAt (exchange : Exchange setup) (now : Int) : Prop where
  guarded : AuthMiddleware.requiresAuth exchange.request.path
  signed : exchange.request.getQueryParam (ascii "sig") ≠ []
  routed : (findRoute routes exchange.request.method exchange.request.path).isSome
  accepted : Program.Runs (PresignHandlers.verifyPresignUrl setup exchange.request)
    [⟨.now, now⟩] true
  /-- It is the first thing that was asked, but for a trace id. -/
  asked : ∃ tracing rest, exchange.events = tracing ++ ⟨.now, now⟩ :: rest ∧
    ∀ event ∈ tracing, event.1 = .generateUuid

/-- `CreatePresignUrl` ran and signed a text. -/
def Signs (exchange : Exchange setup) (text : Bytes) : Prop :=
  ∃ served before response body bucket object,
    ∃ ttlSeconds now : Int,
      exchange.Serves .createPresignUrl served before [⟨.now, now⟩] (some response) ∧
      setup.json.parse served.body = some body ∧
      PresignHandlers.readPresignRequest body = some (.ok (bucket, object, ttlSeconds)) ∧
      setup.staticTokens ≠ [] ∧
      text = PresignHandlers.stringToSign (ascii "GET")
        (PresignHandlers.objectPath bucket object) (now + ttlSeconds)

/-- `CreatePresignUrl` ran and answered with a URL. -/
def Issues (exchange : Exchange setup) (bucket object : Bytes) (expires : Int) : Prop :=
  ∃ served before during response secret,
    exchange.Serves .createPresignUrl served before during (some response) ∧
    setup.staticTokens.head? = some secret ∧ response.statusCode = 200 ∧
    setup.json.dump (PresignHandlers.presignBody setup secret bucket object expires) =
      some response.body

end Exchange

/-- The text that `VerifyPresignUrl` builds of what a request says of itself. -/
def presignedText (request : HttpRequest) : Option Bytes :=
  (PresignHandlers.presignedExpiry request).map fun expires =>
    PresignHandlers.stringToSign (PresignHandlers.presignedMethod request) request.path expires

/-- A client shows a valid signature of its request only if its text was signed before. -/
def Unforgeable (run : List (Exchange setup)) : Prop :=
  ∀ before exchange after, run = before ++ exchange :: after →
    ∀ token ∈ setup.staticTokens, ∀ text, presignedText exchange.request = some text →
      exchange.request.getQueryParam (ascii "sig") =
        toHexString (setup.hmacSha256 token text).toList →
      ∃ earlier ∈ before, Exchange.Signs earlier text

/-! ## Tokens -/

theorem exists_token_of_bearer {authHeader : Bytes}
    (valid : AuthMiddleware.validateBearerToken setup authHeader = true) :
    ∃ token ∈ setup.staticTokens, token ≠ [] ∧ authHeader = ascii "Bearer " ++ token := by
  unfold AuthMiddleware.validateBearerToken at valid
  dsimp only at valid
  split at valid
  · contradiction
  · rename_i long
    split at valid
    · contradiction
    · rename_i scheme
      refine ⟨authHeader.drop (ascii "Bearer ").length, by simpa using valid, ?_, ?_⟩
      · rw [ne_eq, List.drop_eq_nil_iff]
        exact long
      · have split := List.take_append_drop (ascii "Bearer ").length authHeader
        rw [not_not.mp scheme] at split
        exact split.symm

/-- A request is let through without a signature only if it shows a token. -/
theorem Exchange.showsToken {exchange : Exchange setup}
    (shown : (AuthMiddleware.tokenMethod setup exchange.request).isSome) :
    exchange.ShowsToken := by
  unfold AuthMiddleware.tokenMethod at shown
  dsimp only at shown
  split at shown
  · rename_i bearer
    rw [Bool.and_eq_true] at bearer
    obtain ⟨token, member, nonempty, shows⟩ := exists_token_of_bearer bearer.2
    exact ⟨token, member, nonempty, .inl shows⟩
  · split at shown
    · rename_i apiKey
      rw [Bool.and_eq_true] at apiKey
      exact ⟨_, by simpa [AuthMiddleware.validateApiKey] using apiKey.2,
        by simpa using apiKey.1, .inr rfl⟩
    · contradiction

/-! ## Signatures -/

theorem get_of_httpMethodToString {method : HttpMethod}
    (get : httpMethodToString method = ascii "GET") : method = .GET := by
  cases method with
  | GET => rfl
  | _ => exact absurd get (by decide)

/-- An accepted signature is the signature of what the request says of itself. -/
theorem exists_signature {request : HttpRequest} {now : Int}
    (accepted : Program.Runs (PresignHandlers.verifyPresignUrl setup request)
      [⟨.now, now⟩] true) :
    ∃ expires, now ≤ expires ∧
      presignedText request = some (PresignHandlers.stringToSign
        (httpMethodToString request.method) request.path expires) ∧
      ∃ token ∈ setup.staticTokens, request.getQueryParam (ascii "sig") =
        toHexString (setup.hmacSha256 token (PresignHandlers.stringToSign
          (httpMethodToString request.method) request.path expires)).toList := by
  unfold PresignHandlers.verifyPresignUrl at accepted
  split at accepted
  · cases (Program.runs_ret.mp accepted).2
  · split at accepted
    · cases (Program.runs_ret.mp accepted).2
    · rename_i expires read
      obtain ⟨time, rest, same, tail⟩ := Program.runs_call.mp accepted
      cases same
      have valid := (Program.runs_ret.mp tail).2.symm
      simp only [Bool.and_eq_true, Bool.not_eq_true', decide_eq_false_iff_not,
        decide_eq_true_eq] at valid
      obtain ⟨⟨alive, method⟩, signature⟩ := valid
      simp only [PresignHandlers.validSignature, List.any_eq_true, beq_iff_eq] at signature
      obtain ⟨token, member, same⟩ := signature
      refine ⟨expires, by omega, by rw [presignedText, read, method]; rfl, token, member, ?_⟩
      rw [method, ← same]
      rfl

/-- The exchange that signed a text has issued the URL with that signature. -/
theorem Exchange.issues {exchange : Exchange setup} {text : Bytes}
    (signs : exchange.Signs text) :
    ∃ bucket object expires, exchange.Issues bucket object expires ∧
      text = PresignHandlers.stringToSign (ascii "GET")
        (PresignHandlers.objectPath bucket object) expires := by
  obtain ⟨served, before, response, body, bucket, object, ttlSeconds, now, serves, parsed, read,
    tokens, rfl⟩ := signs
  obtain ⟨secret, others, tokensEq⟩ := List.exists_cons_of_ne_nil tokens
  have handler := serves.handler
  simp only [Endpoint.handler, PresignHandlers.createPresignUrl, parsed, read, tokensEq]
    at handler
  obtain ⟨time, rest, same, tail⟩ := Program.runs_call.mp handler
  cases same
  have built := (Program.runs_ret.mp tail).2.symm
  obtain ⟨printed, dumped, rfl⟩ := Option.map_eq_some_iff.mp built
  exact ⟨bucket, object, now + ttlSeconds, ⟨served, before, _, _, secret, serves,
    by rw [tokensEq]; rfl, rfl, dumped⟩, rfl⟩

/-- At the time at which it accepts, `VerifyPresignUrl` always accepts. -/
theorem accepted_of_runs_verify {request : HttpRequest} {now : Int}
    (accepted : Program.Runs (PresignHandlers.verifyPresignUrl setup request)
      [⟨.now, now⟩] true) {events : List (Program.Event ioSig)} {valid : Bool}
    (runs : Program.Runs (PresignHandlers.verifyPresignUrl setup request) events valid) :
    ∃ time : Int, events = [⟨.now, time⟩] ∧ (time = now → valid = true) := by
  unfold PresignHandlers.verifyPresignUrl at accepted runs
  split at accepted
  · cases (Program.runs_ret.mp accepted).2
  · rename_i signed
    rw [if_neg signed] at runs
    split at accepted
    · cases (Program.runs_ret.mp accepted).2
    · rename_i expires read
      rw [read] at runs
      obtain ⟨one, rest, same, tail⟩ := Program.runs_call.mp accepted
      cases same
      obtain ⟨time, others, rfl, tailRuns⟩ := Program.runs_call.mp runs
      obtain ⟨rfl, result⟩ := Program.runs_ret.mp tailRuns
      refine ⟨time, rfl, ?_⟩
      rintro rfl
      exact result.trans (Program.runs_ret.mp tail).2.symm

/-- The first question that is not for a trace id is the same in both views of a run. -/
theorem time_eq {tracing others rest more : List (Program.Event ioSig)} {time now : Int}
    (ids : ∀ event ∈ tracing, event.1 = .generateUuid)
    (otherIds : ∀ event ∈ others, event.1 = .generateUuid)
    (same : tracing ++ ⟨.now, time⟩ :: rest = others ++ ⟨.now, now⟩ :: more) : time = now := by
  induction tracing generalizing others with
  | nil =>
      cases others with
      | nil =>
          cases (List.cons.inj same).1
          rfl
      | cons event others =>
          have isId := otherIds event List.mem_cons_self
          rw [← (List.cons.inj same).1] at isId
          cases isId
  | cons event tracing inductionHypothesis =>
      cases others with
      | nil =>
          have isId := ids event List.mem_cons_self
          rw [(List.cons.inj same).1] at isId
          cases isId
      | cons other others =>
          exact inductionHypothesis (fun event member => ids event (List.mem_cons_of_mem _ member))
            (fun event member => otherIds event (List.mem_cons_of_mem _ member))
            (List.cons.inj same).2

/-- A request that `VerifyPresignUrl` accepts reaches the handler of its route. -/
theorem Exchange.VerifiedAt.serves (enabled : setup.authEnabled = true)
    {exchange : Exchange setup} {now : Int} (verified : exchange.VerifiedAt now) :
    ∃ endpoint served before during response,
      exchange.Serves endpoint served before during response := by
  have runs := exchange.runs
  rw [handle_eq] at runs
  obtain ⟨before, during, ⟨decision, served⟩, events, dispatched, completed⟩ :=
    Program.runs_bind.mp runs
  obtain ⟨⟨endpoint, params⟩, found⟩ := Option.isSome_iff_exists.mp verified.routed
  have whole := dispatched
  unfold dispatch at dispatched
  rw [found] at dispatched
  obtain ⟨tracing, passing, middle, rfl, first, second⟩ := Program.runs_bind.mp dispatched
  obtain ⟨sameTraced, -, ids⟩ := runs_traced first
  have same := (sameMessage_setPathParams params exchange.request).trans sameTraced
  unfold authenticated at second
  rw [if_neg, if_pos] at second
  · obtain ⟨checking, rest, valid, rfl, checked, decided⟩ := Program.runs_bind.mp second
    rw [same.verifyPresignUrl setup] at checked
    obtain ⟨time, rfl, accepts⟩ := accepted_of_runs_verify verified.accepted checked
    obtain ⟨others, more, asked, otherIds⟩ := verified.asked
    have isId : ∀ event ∈ tracing, event.1 = .generateUuid := by
      rcases ids with ⟨-, rfl⟩ | ⟨-, rfl, -⟩
      · simp
      · simp
    have sameEvents : tracing ++ ⟨.now, time⟩ :: (rest ++ during) =
        others ++ ⟨.now, now⟩ :: more := by
      rw [← asked, events]
      simp
    rw [accepts (time_eq isId otherIds sameEvents)] at decided
    obtain ⟨rfl, decidedEq⟩ := Program.runs_ret.mp decided
    cases decidedEq
    obtain ⟨during, last, response, rfl, handler, ended⟩ := Program.runs_bind.mp completed
    obtain ⟨rfl, handled⟩ := Program.runs_ret.mp ended
    exact ⟨endpoint, _, _, during, response, by simpa using events, whole, handler, handled⟩
  · rw [same.getQueryParam]
    simpa using verified.signed
  · rw [same.path]
    simp [enabled, verified.guarded]

/-- A request that reaches a handler shows a token or was verified, unless its path is
public. -/
theorem Exchange.Serves.passed (enabled : setup.authEnabled = true) {exchange : Exchange setup}
    {endpoint : Endpoint} {served : HttpRequest} {before during : List (Program.Event ioSig)}
    {response : Option HttpResponse}
    (serves : exchange.Serves endpoint served before during response) :
    AuthMiddleware.requiresAuth exchange.request.path = false ∨ exchange.ShowsToken ∨
      ∃ now, exchange.VerifiedAt now := by
  obtain ⟨params, tracing, passing, found, -, -, rfl, ids, passed⟩ :=
    runs_dispatch setup serves.dispatched
  by_cases guarded : AuthMiddleware.requiresAuth exchange.request.path = true
  · refine .inr ?_
    cases passed with
    | unguarded isOpen =>
        rcases isOpen with disabled | isPublic
        · rw [enabled] at disabled
          contradiction
        · rw [guarded] at isPublic
          contradiction
    | token unsigned shown => exact .inl (showsToken shown)
    | signature now signed valid =>
        refine .inr ⟨now, guarded, signed, by rw [found]; rfl, valid, tracing, during, ?_, ?_⟩
        · rw [serves.events]
          simp
        · rcases ids with ⟨-, rfl⟩ | ⟨-, rfl, -⟩
          · simp
          · simp
  · exact .inl (by simpa using guarded)

/-- The handlers on public paths. -/
theorem endpoint_of_public {request : HttpRequest} {endpoint : Endpoint}
    {params : List (Bytes × Bytes)}
    (isPublic : AuthMiddleware.requiresAuth request.path = false)
    (found : findRoute routes request.method request.path = some (endpoint, params)) :
    endpoint ∈ [.healthCheck, .readyCheck, .metrics] := by
  obtain ⟨-, values, length, isPart, spelled, -⟩ := routed_of_findRoute found
  have counted := Template.count_spell length isPart
  rw [← spelled] at counted
  have listed : request.path ∈ [ascii "/healthz", ascii "/readyz", ascii "/metrics"] := by
    rw [AuthMiddleware.requiresAuth, Bool.not_eq_false', List.contains_iff_mem] at isPublic
    exact isPublic
  have one : request.path.count 47 = 1 := by
    revert listed
    generalize request.path = path
    revert path
    decide
  rw [one] at counted
  cases endpoint with
  | healthCheck | readyCheck | metrics => decide
  | listBuckets | createPresignUrl =>
      have literal : request.path = Template.tail _ := spelled
      rw [literal] at isPublic
      exact absurd isPublic (by decide)
  | _ => exact absurd counted (by decide)

/-- The parameters of a path with a bucket and an object. -/
theorem getPathParam_object {request served : HttpRequest} {bucket object : Bytes}
    (pathParams : served.pathParams = (request.setPathParams
      [(ascii "bucket", bucket), (ascii "object", object)]).pathParams) :
    served.getPathParam (ascii "bucket") = bucket ∧
      served.getPathParam (ascii "object") = object := by
  have different : ascii "bucket" ≠ ascii "object" := by decide
  simp [HttpRequest.getPathParam, pathParams, HttpRequest.setPathParams,
    HttpRequest.setPathParam, Table.lookup_set_ne _ _ different]

/-- Access control.  A handler other than those for the health of the server runs for a
request that shows a token, or that `VerifyPresignUrl` has accepted.  If signatures cannot be
forged, what it accepts is a `GET` that runs `GetObject`, for a bucket and an object for which a
URL was issued earlier that has not expired. -/
theorem access_control (enabled : setup.authEnabled = true) :
    (∀ (exchange : Exchange setup) endpoint served asked during response,
      exchange.Serves endpoint served asked during response →
      endpoint ∉ [.healthCheck, .readyCheck, .metrics] →
      exchange.ShowsToken ∨ ∃ now, exchange.VerifiedAt now) ∧
    ∀ run : List (Exchange setup), Unforgeable run →
      ∀ before exchange after, run = before ++ exchange :: after →
        ∀ now, exchange.VerifiedAt now → exchange.request.method = .GET ∧
          ∃ served asked during response,
            exchange.Serves .getObject served asked during response ∧
            ∃ earlier ∈ before, ∃ expires,
              earlier.Issues (served.getPathParam (ascii "bucket"))
                (served.getPathParam (ascii "object")) expires ∧ now ≤ expires := by
  constructor
  · intro exchange endpoint served asked during response serves guarded
    rcases serves.passed enabled with isPublic | passed
    · obtain ⟨params, -, -, found, -⟩ := runs_dispatch setup serves.dispatched
      exact absurd (endpoint_of_public isPublic found) guarded
    · exact passed
  · intro run unforgeable before exchange after within now verified
    obtain ⟨expires, alive, text, token, member, shown⟩ := exists_signature verified.accepted
    obtain ⟨earlier, wasEarlier, signs⟩ :=
      unforgeable before exchange after within token member _ text shown
    obtain ⟨bucket, object, issuedExpires, issues, same⟩ := earlier.issues signs
    have sameText : PresignHandlers.stringToSign (httpMethodToString exchange.request.method)
        exchange.request.path expires = PresignHandlers.stringToSign (httpMethodToString .GET)
          (PresignHandlers.objectPath bucket object) issuedExpires := same
    obtain ⟨method, path, rfl⟩ := PresignHandlers.stringToSign_injective sameText
    have isGet := get_of_httpMethodToString method
    obtain ⟨endpoint, served, asked, during, response, serves⟩ := verified.serves enabled
    obtain ⟨params, -, -, found, pathParams, -⟩ := runs_dispatch setup serves.dispatched
    rw [isGet, path] at found
    obtain ⟨rfl, -, -, rfl⟩ := route_of_objectPath found
    refine ⟨isGet, served, asked, during, response, serves, earlier, wasEarlier, expires, ?_,
      alive⟩
    obtain ⟨bucketEq, objectEq⟩ := getPathParam_object pathParams
    rw [bucketEq, objectEq]
    exact issues

end

/-! ### A URL that is issued and used -/

section Download

/-- What the signed text of the run is. -/
def downloadText : Bytes :=
  ascii "GET\n/buckets/b/objects/o\n600"

/-- The body of the presign request. -/
def presignRequest : Bytes :=
  ascii "\x7b\"bucket\":\"b\",\"object\":\"o\"\x7d"

/-- What the presign request says. -/
def presignFields : Json :=
  .object [(ascii "bucket", .string (ascii "b")), (ascii "object", .string (ascii "o"))]

/-- A configuration with the token `t`, in which one text has a signature of its own. -/
def tokenSetup : Setup :=
  { Setup.sample [] [(presignRequest, presignFields)] with
    hmacSha256 := fun _ text =>
      if text = downloadText then Vector.replicate 32 17 else Vector.replicate 32 0
    authEnabled := true
    staticTokens := [ascii "t"] }

/-- Surroundings at the time 0 in which nothing is stored. -/
def emptyStores (op : IoOp) (state : Unit) : op.Ans × Unit :=
  (calm (.inr op), state)

/-- `POST /presign` with the token. -/
def presigningRequest : HttpRequest :=
  { (HttpRequest.empty.setHeader (ascii "X-API-Key") (ascii "t")).setHeader
      (ascii "X-Request-Id") (ascii "1") with
    method := .POST
    path := ascii "/presign"
    body := presignRequest }

/-- The part of `dispatch` after the route is found, with empty stores. -/
def passes (endpoint : Endpoint) (params : List (Bytes × Bytes)) (request : HttpRequest) :
    (Decision × HttpRequest) :=
  (Program.run (S := ioSig) emptyStores
    (traced (request.setPathParams params) >>= authenticated tokenSetup endpoint) ()).1

theorem dispatched_presigning :
    Program.Runs (dispatch tokenSetup presigningRequest) []
      (.admitted .createPresignUrl, (passes .createPresignUrl [] presigningRequest).2) := by
  have found : findRoute routes .POST (ascii "/presign") = some (.createPresignUrl, []) := by
    decide +kernel
  unfold dispatch
  rw [show findRoute routes presigningRequest.method presigningRequest.path = _ from found]
  exact Program.runs_log (S := ioSig) emptyStores
    (traced (presigningRequest.setPathParams []) >>= authenticated tokenSetup .createPresignUrl) ()

/-- An exchange, from the run before a handler and the run of the handler. -/
def exchangeOf {setup : Setup} {request served : HttpRequest} {endpoint : Endpoint}
    {before during : List (Program.Event ioSig)} {response : Option HttpResponse}
    (dispatched : Program.Runs (dispatch setup request) before (.admitted endpoint, served))
    (handler : Program.Runs (endpoint.handler setup served) during response) :
    Exchange setup where
  request := request
  events := before ++ during
  handled := (withTraceId served response, served)
  runs := by
    rw [handle_eq]
    refine Program.runs_bind.mpr ⟨before, during, _, rfl, dispatched, ?_⟩
    exact Program.runs_bind.mpr ⟨during, [], response, by simp, handler, .ret _⟩

/-- The exchange in which the URL is issued. -/
def presigning : Exchange tokenSetup :=
  exchangeOf dispatched_presigning (Program.runs_log (S := ioSig) emptyStores
    (PresignHandlers.createPresignUrl tokenSetup
      (passes .createPresignUrl [] presigningRequest).2) ())

theorem presigning_signs : presigning.Signs downloadText := by
  refine ⟨(passes .createPresignUrl [] presigningRequest).2, [], _, presignFields, ascii "b",
    ascii "o", 600, 0, ⟨rfl, dispatched_presigning, ?_, rfl⟩, rfl, rfl, by decide, rfl⟩
  exact Program.runs_log (S := ioSig) emptyStores (PresignHandlers.createPresignUrl tokenSetup
    (passes .createPresignUrl [] presigningRequest).2) ()

/-- `GET` with the URL. -/
def downloadRequest : HttpRequest :=
  { HttpRequest.empty.setHeader (ascii "X-Request-Id") (ascii "2") with
    method := .GET
    path := ascii "/buckets/b/objects/o"
    query := ascii ("expires=600&sig=1111111111111111111111111111111111111111111111111111" ++
      "111111111111&method=GET") }

/-- The parameters of the path. -/
def downloadParams : List (Bytes × Bytes) :=
  [(ascii "bucket", ascii "b"), (ascii "object", ascii "o")]

theorem dispatched_downloading :
    Program.Runs (dispatch tokenSetup downloadRequest) [⟨.now, (0 : Int)⟩]
      (.admitted .getObject, (passes .getObject downloadParams downloadRequest).2) := by
  have found : findRoute routes .GET (ascii "/buckets/b/objects/o") =
      some (.getObject, downloadParams) := by
    decide +kernel
  unfold dispatch
  rw [show findRoute routes downloadRequest.method downloadRequest.path = _ from found]
  exact Program.runs_log (S := ioSig) emptyStores
    (traced (downloadRequest.setPathParams downloadParams) >>=
      authenticated tokenSetup .getObject) ()

/-- The exchange in which the URL is used. -/
def downloading : Exchange tokenSetup :=
  exchangeOf dispatched_downloading (Program.runs_log (S := ioSig) emptyStores
    (ObjectHandlers.getObject tokenSetup (passes .getObject downloadParams downloadRequest).2) ())

theorem downloading_verified : downloading.VerifiedAt 0 where
  guarded := by decide
  signed := by decide
  routed := by decide +kernel
  accepted := Program.runs_log (S := ioSig) emptyStores
    (PresignHandlers.verifyPresignUrl tokenSetup downloadRequest) ()
  asked := ⟨[], _, rfl, by simp⟩

theorem unforgeable_download : Unforgeable [presigning, downloading] := by
  intro before exchange after within token _ text _ shown
  cases before with
  | nil =>
      obtain rfl : exchange = presigning := (List.cons.inj within).1.symm
      have length := congrArg List.length shown
      rw [length_toHexString, Vector.length_toList] at length
      exact absurd length (by decide)
  | cons first before =>
      obtain ⟨rfl, others⟩ := List.cons.inj within
      cases before with
      | nil =>
          obtain rfl : exchange = downloading := (List.cons.inj others).1.symm
          have isText : text = downloadText := by
            by_contra other
            have zeros : tokenSetup.hmacSha256 token text = Vector.replicate 32 0 := if_neg other
            rw [zeros] at shown
            exact absurd shown (by decide)
          exact ⟨presigning, List.mem_cons_self, isText ▸ presigning_signs⟩
      | cons second before =>
          have length := congrArg List.length (List.cons.inj others).2
          simp at length

/-- The URL is used at the time 0, and expires at 600. -/
theorem access_control_download :
    downloading.request.method = .GET ∧ ∃ served asked during response,
      downloading.Serves .getObject served asked during response ∧
      ∃ earlier ∈ [presigning], ∃ expires,
        earlier.Issues (served.getPathParam (ascii "bucket"))
          (served.getPathParam (ascii "object")) expires ∧ 0 ≤ expires :=
  (access_control rfl).2 [presigning, downloading] unforgeable_download [presigning] downloading []
    rfl 0 downloading_verified

end Download

end MiniS3.Api.Server
