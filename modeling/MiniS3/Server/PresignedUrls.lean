import MiniS3.Net.RequestTarget
import MiniS3.Server.AccessControl

/-!
# Presigned URLs that are used

`CreatePresignUrl` writes names, expiry and signature into a URL without escaping anything,
and `VerifyPresignUrl` signs what the parser, the query and the route make of it.  For names
that a request line can carry, both sign the same text: the path ends at the question mark,
the three parameters have no `&` and no `=` in them, and the expiry is read back as it was
printed.
-/

namespace MiniS3.Api.Server

open Lib Net

/-- A name that a request line can carry, and a route can take from a path. -/
structure IsName (name : Bytes) : Prop extends IsPart name where
  noBlank : (32 : UInt8) ∉ name
  noMark : (63 : UInt8) ∉ name
  isLine : HttpParser.IsLine name

variable {setup : Setup}

/-! ## The URL -/

/-- The query of a presigned URL. -/
def presignedQuery (expires : Int) (signature : Bytes) : Bytes :=
  ascii "expires" ++ 61 :: Bytes.ofInt expires ++ 38 :: (ascii "sig" ++ 61 :: signature ++
    38 :: (ascii "method" ++ 61 :: ascii "GET"))

theorem presignedUrl_eq (secret bucket object : Bytes) (expires : Int) :
    PresignHandlers.presignedUrl setup secret bucket object expires =
      PresignHandlers.objectPath bucket object ++ 63 :: presignedQuery expires
        (PresignHandlers.generateSignature setup secret (ascii "GET")
          (PresignHandlers.objectPath bucket object) expires) := by
  simp [PresignHandlers.presignedUrl, presignedQuery, ascii]

/-- The bytes of the query of a presigned URL. -/
theorem not_mem_presignedQuery {byte : UInt8} {expires : Int} {data : List UInt8}
    (noSign : byte ≠ 45) (noDigit : Bytes.digit? byte = none)
    (noHex : ¬((48 ≤ byte ∧ byte ≤ 57) ∨ (97 ≤ byte ∧ byte ≤ 102)))
    (noText : byte ∉ ascii "expires=&sig=&method=GET") :
    byte ∉ presignedQuery expires (toHexString data) := by
  have number : byte ∉ Bytes.ofInt expires := Bytes.not_mem_ofInt noSign noDigit
  have hex : byte ∉ toHexString data := fun member => noHex (mem_toHexString member)
  simp only [ascii] at noText
  simp [presignedQuery, ascii] at noText ⊢
  tauto

theorem isTarget_presigned {bucket object : Bytes} (isBucket : IsName bucket)
    (isObject : IsName object) (expires : Int) (data : List UInt8) :
    HttpParser.IsTarget (PresignHandlers.objectPath bucket object)
      (presignedQuery expires (toHexString data)) where
  isLine := by
    have first : HttpParser.IsLine (ascii "/buckets/" ++ bucket) :=
      (HttpParser.isLine_of_no_newline (by decide)).append isBucket.isLine (.inl (by decide))
    have between : HttpParser.IsLine (ascii "/objects/") :=
      HttpParser.isLine_of_no_newline (by decide)
    have second := first.append between (.inr (by decide))
    have path : HttpParser.IsLine (PresignHandlers.objectPath bucket object) := by
      refine second.append isObject.isLine (.inl ?_)
      rw [List.getLast?_append, show (ascii "/objects/").getLast? = some 47 from rfl,
        Option.some_or]
      decide
    refine path.append (HttpParser.isLine_of_no_newline ?_) (.inr (by simp))
    rw [List.mem_cons, not_or]
    exact ⟨by decide, not_mem_presignedQuery (by decide) (by decide) (by decide) (by decide)⟩
  noMark := by
    have literals : (63 : UInt8) ∉ ascii "/buckets/" ∧ (63 : UInt8) ∉ ascii "/objects/" := by
      decide
    simp [PresignHandlers.objectPath, literals, isBucket.noMark, isObject.noMark]
  noBlank := by
    have literals : (32 : UInt8) ∉ ascii "/buckets/" ∧ (32 : UInt8) ∉ ascii "/objects/" := by
      decide
    have query : (32 : UInt8) ∉ presignedQuery expires (toHexString data) :=
      not_mem_presignedQuery (by decide) (by decide) (by decide) (by decide)
    simp [PresignHandlers.objectPath, literals, isBucket.noBlank, isObject.noBlank, query]

theorem queryPair_append {key : Bytes} (noEquals : (61 : UInt8) ∉ key) (value : Bytes) :
    HttpRequest.queryPair (key ++ 61 :: value) = (key, value) := by
  have equals : ascii "=" = [61] := rfl
  rw [HttpRequest.queryPair, equals, Bytes.find_singleton noEquals]
  simp

/-- The parameters of a presigned URL. -/
theorem getQueryParam_presigned {request : HttpRequest} {expires : Int} {data : List UInt8}
    (query : request.query = presignedQuery expires (toHexString data)) :
    request.getQueryParam (ascii "expires") = Bytes.ofInt expires ∧
      request.getQueryParam (ascii "sig") = toHexString data ∧
      request.getQueryParam (ascii "method") = ascii "GET" := by
  have number : (38 : UInt8) ∉ ascii "expires" ++ 61 :: Bytes.ofInt expires := by
    have digits : (38 : UInt8) ∉ Bytes.ofInt expires :=
      Bytes.not_mem_ofInt (by decide) (by decide)
    simp [digits, ascii]
  have hex : (38 : UInt8) ∉ ascii "sig" ++ 61 :: toHexString data := by
    have digits : (38 : UInt8) ∉ toHexString data := fun member =>
      absurd (mem_toHexString member) (by decide)
    simp [digits, ascii]
  have split : request.query.splitOn 38 = [ascii "expires" ++ 61 :: Bytes.ofInt expires,
      ascii "sig" ++ 61 :: toHexString data, ascii "method" ++ 61 :: ascii "GET"] := by
    rw [query, presignedQuery, List.splitOn_append_cons_self_of_not_mem number,
      List.splitOn_append_cons_self_of_not_mem hex, List.splitOn_eq_singleton (by decide)]
  have pairs : HttpRequest.queryPairs request.query = request.query.splitOn 38 := by
    rw [HttpRequest.queryPairs, split]
    exact if_neg (by simp)
  simp only [HttpRequest.getQueryParam, pairs, split, List.map_cons, List.map_nil]
  rw [queryPair_append (by decide), queryPair_append (by decide), queryPair_append (by decide)]
  refine ⟨?_, ?_, ?_⟩
  · simp [show ascii "method" ≠ ascii "expires" by decide,
      show ascii "sig" ≠ ascii "expires" by decide]
  · simp [show ascii "method" ≠ ascii "sig" by decide]
  · simp

/-! ## The verification of a URL -/

/-- The time that a presigned URL names is read back. -/
theorem presignedExpiry_presigned {request : HttpRequest} {expires : Int} {data : List UInt8}
    (query : request.query = presignedQuery expires (toHexString data))
    (low : -2 ^ 63 ≤ expires) (high : expires < 2 ^ 63) :
    PresignHandlers.presignedExpiry request = some expires := by
  rw [PresignHandlers.presignedExpiry, (getQueryParam_presigned query).1, if_neg,
    Bytes.stoll_ofInt low high]
  rw [List.isEmpty_iff]
  exact Bytes.ofInt_ne_nil expires

/-- A request with a presigned URL. -/
structure Carries (setup : Setup) (bucket object : Bytes) (expires : Int)
    (request : HttpRequest) : Prop where
  method : request.method = .GET
  path : request.path = PresignHandlers.objectPath bucket object
  query : ∃ secret ∈ setup.staticTokens, request.query = presignedQuery expires
    (PresignHandlers.generateSignature setup secret (ascii "GET")
      (PresignHandlers.objectPath bucket object) expires)

theorem Carries.signed {request : HttpRequest} {bucket object : Bytes} {expires : Int}
    (carries : Carries setup bucket object expires request) :
    (request.getQueryParam (ascii "sig")).isEmpty = false := by
  obtain ⟨secret, -, query⟩ := carries.query
  rw [(getQueryParam_presigned query).2.1, List.isEmpty_eq_false_iff, ← List.length_pos_iff,
    length_toHexString, Vector.length_toList]
  decide

theorem Carries.guarded {request : HttpRequest} {bucket object : Bytes} {expires : Int}
    (carries : Carries setup bucket object expires request) :
    AuthMiddleware.requiresAuth request.path = true := by
  rw [carries.path]
  simp [AuthMiddleware.requiresAuth, PresignHandlers.objectPath, ascii]

/-- `VerifyPresignUrl` accepts a presigned URL up to its expiry. -/
theorem runs_verify_presigned {request : HttpRequest} {bucket object : Bytes} {expires : Int}
    (carries : Carries setup bucket object expires request)
    (low : -2 ^ 63 ≤ expires) (high : expires < 2 ^ 63) {events : List (Program.Event ioSig)}
    {valid : Bool} :
    Program.Runs (PresignHandlers.verifyPresignUrl setup request) events valid ↔
      ∃ time : Int, events = [⟨.now, time⟩] ∧ valid = decide (time ≤ expires) := by
  obtain ⟨secret, member, query⟩ := carries.query
  obtain ⟨-, signature, method⟩ := getQueryParam_presigned query
  have isGet : PresignHandlers.presignedMethod request = ascii "GET" := by
    rw [PresignHandlers.presignedMethod, method]
    rfl
  have isValid : PresignHandlers.validSignature setup request expires = true := by
    rw [PresignHandlers.validSignature, List.any_eq_true]
    refine ⟨secret, member, ?_⟩
    rw [isGet, carries.path, signature]
    exact beq_self_eq_true _
  unfold PresignHandlers.verifyPresignUrl
  rw [carries.signed, presignedExpiry_presigned query low high]
  simp only [Bool.false_eq_true, if_false, isGet, isValid, carries.method]
  have sameMethod : httpMethodToString .GET = ascii "GET" := rfl
  have inTime (time : Int) : (!decide (expires < time)) = decide (time ≤ expires) := by
    rw [← decide_not, decide_eq_decide, not_lt]
  constructor
  · intro runs
    obtain ⟨time, rest, rfl, tail⟩ := Program.runs_call.mp runs
    obtain ⟨rfl, rfl⟩ := Program.runs_ret.mp tail
    exact ⟨time, rfl, by simp [sameMethod, inTime]⟩
  · rintro ⟨time, rfl, rfl⟩
    refine Program.runs_call.mpr ⟨time, [], rfl, Program.runs_ret.mpr ⟨rfl, ?_⟩⟩
    simp [sameMethod, inTime]

theorem Carries.congr {request served : HttpRequest} {bucket object : Bytes} {expires : Int}
    (carries : Carries setup bucket object expires request) (same : SameMessage request served) :
    Carries setup bucket object expires served where
  method := same.method.trans carries.method
  path := same.path.trans carries.path
  query := by
    rw [same.query]
    exact carries.query

/-- The authentication refuses a presigned URL after its expiry, and else lets it pass. -/
theorem runs_authenticated_presigned (enabled : setup.authEnabled = true) {endpoint : Endpoint}
    {request served : HttpRequest} {bucket object : Bytes} {expires : Int}
    (carries : Carries setup bucket object expires request)
    (low : -2 ^ 63 ≤ expires) (high : expires < 2 ^ 63) {events : List (Program.Event ioSig)}
    {decision : Decision}
    (runs : Program.Runs (authenticated setup endpoint request) events (decision, served)) :
    ∃ time : Int, events = [⟨.now, time⟩] ∧ served.pathParams = request.pathParams ∧
      (time ≤ expires → decision = .admitted endpoint) ∧
      (expires < time → decision = .refused (HttpResponse.forbidden setup.json
        (ascii "Invalid or expired signature") [])) := by
  unfold authenticated at runs
  simp only [enabled, carries.guarded, carries.signed, Bool.not_true, Bool.or_self, Bool.false_eq_true,
    if_false, Bool.not_false, if_true] at runs
  obtain ⟨before, after, valid, rfl, verified, tail⟩ := Program.runs_bind.mp runs
  obtain ⟨time, rfl, rfl⟩ := (runs_verify_presigned carries low high).mp verified
  by_cases alive : time ≤ expires
  · simp only [alive, decide_true, if_true] at tail
    obtain ⟨rfl, decided⟩ := Program.runs_ret.mp tail
    cases decided
    exact ⟨time, rfl, rfl, fun _ => rfl, fun late => absurd alive (by omega)⟩
  · simp only [alive, decide_false, Bool.false_eq_true, if_false] at tail
    obtain ⟨rfl, decided⟩ := Program.runs_ret.mp tail
    cases decided
    exact ⟨time, rfl, rfl, fun early => absurd early alive, fun _ => rfl⟩

/-! ## Exchanges with a URL -/

namespace Exchange

/-- The request came in with this request line. -/
def CameWith (exchange : Exchange setup) (line : Bytes) : Prop :=
  ∃ parser, HttpParser.Received line parser ∧
    exchange.request.method = parser.request.method ∧
    exchange.request.path = parser.request.path ∧
    exchange.request.query = parser.request.query

/-- The authentication answered for the handler. -/
structure Refused (exchange : Exchange setup) (served : HttpRequest)
    (response : Option HttpResponse) : Prop where
  dispatched : Program.Runs (dispatch setup exchange.request) exchange.events
    (.refused response, served)
  handled : exchange.handled = (withTraceId served response, served)

/-- What becomes of a request for an object at `time`: until the expiry it runs `GetObject`,
let through by `VerifyPresignUrl`, and later it is refused. -/
structure Expires (exchange : Exchange setup) (bucket object : Bytes) (expires : Int)
    (asked : List (Program.Event ioSig)) (time : Int) : Prop where
  inTime : time ≤ expires → exchange.VerifiedAt time ∧ ∃ served during response,
    exchange.Serves .getObject served asked during response ∧
    served.getPathParam (ascii "bucket") = bucket ∧
    served.getPathParam (ascii "object") = object
  late : expires < time → ∃ served, exchange.Refused served
    (HttpResponse.forbidden setup.json (ascii "Invalid or expired signature") [])

theorem expires_of_carries (enabled : setup.authEnabled = true) {exchange : Exchange setup}
    {bucket object : Bytes} {expires : Int} (isBucket : IsPart bucket) (isObject : IsPart object)
    (carries : Carries setup bucket object expires exchange.request)
    (low : -2 ^ 63 ≤ expires) (high : expires < 2 ^ 63) :
    ∃ tracing time rest, exchange.events = tracing ++ ⟨.now, time⟩ :: rest ∧
      (∀ event ∈ tracing, event.1 = .generateUuid) ∧
      exchange.Expires bucket object expires (tracing ++ [⟨.now, time⟩]) time := by
  have runs := exchange.runs
  rw [handle_eq] at runs
  obtain ⟨before, during, ⟨decision, served⟩, events, dispatched, completed⟩ :=
    Program.runs_bind.mp runs
  have found := findRoute_objectPath isBucket isObject
  rw [← carries.method, ← carries.path] at found
  have whole := dispatched
  unfold dispatch at dispatched
  rw [found] at dispatched
  obtain ⟨tracing, passing, middle, rfl, first, second⟩ := Program.runs_bind.mp dispatched
  obtain ⟨sameTraced, pathParams, ids⟩ := runs_traced first
  have same := (sameMessage_setPathParams _ exchange.request).trans sameTraced
  obtain ⟨time, rfl, servedParams, admits, refuses⟩ :=
    runs_authenticated_presigned enabled (carries.congr same) low high second
  have isId : ∀ event ∈ tracing, event.1 = .generateUuid := by
    rcases ids with ⟨-, rfl⟩ | ⟨-, rfl, -⟩
    · simp
    · simp
  have asked : exchange.events = tracing ++ ⟨.now, time⟩ :: during := by
    rw [events, List.append_assoc, List.singleton_append]
  refine ⟨tracing, time, during, asked, isId, ?_, ?_⟩
  · intro inTime
    obtain rfl := admits inTime
    obtain ⟨handling, last, response, rfl, handler, ended⟩ := Program.runs_bind.mp completed
    obtain ⟨rfl, handled⟩ := Program.runs_ret.mp ended
    obtain ⟨bucketEq, objectEq⟩ := getPathParam_object (servedParams.trans pathParams)
    have accepted := (runs_verify_presigned carries low high).mpr
      ⟨time, rfl, (decide_eq_true inTime).symm⟩
    refine ⟨⟨carries.guarded, ?_, ?_, accepted, tracing, _, asked, isId⟩, served, handling,
      response, ⟨by simpa using events, whole, handler, handled⟩, bucketEq, objectEq⟩
    · simpa using carries.signed
    · rw [found]
      rfl
  · intro late
    obtain rfl := refuses late
    obtain ⟨rfl, handled⟩ := Program.runs_ret.mp completed
    refine ⟨served, ?_, handled⟩
    rw [events, List.append_nil]
    exact whole

end Exchange

/-! ## The URL that was issued -/

/-- A presign request: the names, how long the URL is to be valid, and no method but `GET`. -/
structure Asks (body : Json) (bucket object : Bytes) (ttlSeconds : Int) : Prop where
  hasBucket : body.field? (ascii "bucket") = some (.string bucket)
  hasObject : body.field? (ascii "object") = some (.string object)
  isGet : body.field? (ascii "method") = none ∨
    body.field? (ascii "method") = some (.string (ascii "GET"))
  lasts : body.field? (ascii "ttl_seconds") = some (.integer ttlSeconds) ∨
    body.field? (ascii "ttl_seconds") = none ∧ ttlSeconds = 600
  range : 1 ≤ ttlSeconds ∧ ttlSeconds ≤ 604800

theorem Asks.readPresignRequest {body : Json} {bucket object : Bytes} {ttlSeconds : Int}
    (asks : Asks body bucket object ttlSeconds) :
    PresignHandlers.readPresignRequest body = some (.ok (bucket, object, ttlSeconds)) := by
  have method : PresignHandlers.readPresignRequest.readMethod body = some (ascii "GET") := by
    unfold PresignHandlers.readPresignRequest.readMethod
    rcases asks.isGet with absent | get
    · rw [absent]
    · rw [get]
      rfl
  have ttl : PresignHandlers.readPresignRequest.readTtl body = some ttlSeconds := by
    unfold PresignHandlers.readPresignRequest.readTtl
    rcases asks.lasts with given | ⟨absent, rfl⟩
    · rw [given]
      have range := asks.range
      simp only [Json.getInt, Option.some.injEq]
      exact Int.bmod_eq_of_le (by omega) (by omega)
    · rw [absent]
  unfold PresignHandlers.readPresignRequest
  rw [asks.hasBucket, asks.hasObject, method, ttl]
  simpa [Json.getString] using asks.range

/-- The response has the URL in its body. -/
def TellsUrl (setup : Setup) (response : HttpResponse) (url : Bytes) : Prop :=
  response.statusCode = 200 ∧ ∃ answer, setup.json.dump answer = some response.body ∧
    answer.field? (ascii "url") = some (.string url)

/-- What a request line with the URL leads to. -/
structure Works (setup : Setup) (bucket object url : Bytes) (expires : Int) : Prop where
  /-- Until the line is there as a whole, the parser waits, -/
  waits : ∀ version ∈ HttpParser.versions, ∀ parser : HttpParser, parser.state = .REQUEST_LINE →
    ∀ arrived, arrived <+: HttpParser.requestLine .GET url version ++ crlf →
      arrived ≠ HttpParser.requestLine .GET url version ++ crlf →
      arrived.length ≤ HttpParser.kMaxRequestLineSize →
      parser.parse arrived = (.NEED_MORE_DATA, parser, arrived)
  /-- and then it goes on with the header lines. -/
  parsed : ∀ version ∈ HttpParser.versions, ∀ parser : HttpParser, parser.state = .REQUEST_LINE →
    ∃ query, ∀ rest,
      parser.parse (HttpParser.requestLine .GET url version ++ crlf ++ rest) =
        HttpParser.parse { parser with
          request := { parser.request with
            method := .GET
            path := PresignHandlers.objectPath bucket object
            query
            version }
          state := .HEADERS } rest
  /-- `AuthMiddleware` asks for the time, and that decides. -/
  decided : ∀ version ∈ HttpParser.versions, ∀ exchange : Exchange setup,
    exchange.CameWith (HttpParser.requestLine .GET url version) →
    ∃ tracing time rest, exchange.events = tracing ++ ⟨.now, time⟩ :: rest ∧
      (∀ event ∈ tracing, event.1 = .generateUuid) ∧
      exchange.Expires bucket object expires (tracing ++ [⟨.now, time⟩]) time

theorem works_presignedUrl (enabled : setup.authEnabled = true) {bucket object : Bytes}
    (isBucket : IsName bucket) (isObject : IsName object) {secret : Bytes}
    (isToken : secret ∈ setup.staticTokens) {expires : Int} (low : -2 ^ 63 ≤ expires)
    (high : expires < 2 ^ 63) :
    Works setup bucket object (PresignHandlers.presignedUrl setup secret bucket object expires)
      expires := by
  have isTarget : HttpParser.IsTarget (PresignHandlers.objectPath bucket object)
      (presignedQuery expires (PresignHandlers.generateSignature setup secret (ascii "GET")
        (PresignHandlers.objectPath bucket object) expires)) :=
    isTarget_presigned isBucket isObject expires _
  rw [presignedUrl_eq]
  constructor
  · intro version supported parser state arrived part notWhole short
    exact HttpParser.parse_part state (HttpParser.isLine_requestLine isTarget supported) part
      notWhole short
  · intro version supported parser state
    exact ⟨_, HttpParser.parse_target state (by decide) isTarget supported⟩
  · rintro version supported exchange ⟨parser, received, method, path, query⟩
    have aimed := received.aimed (by decide) isTarget supported
    exact Exchange.expires_of_carries enabled isBucket.toIsPart isObject.toIsPart
      ⟨method.trans aimed.method, path.trans aimed.path, secret, isToken,
        query.trans aimed.query⟩ low high

/-- A presigned URL works until it expires.  The URL that `CreatePresignUrl` has issued, in
the request line of a `GET`, is parsed and goes to `GetObject` with the bucket and the object
it was issued for, let through by `VerifyPresignUrl` until the expiry and refused later. -/
theorem issued_url_works_until_expiry (enabled : setup.authEnabled = true)
    {bucket object : Bytes} (isBucket : IsName bucket) (isObject : IsName object)
    {body : Json} {ttlSeconds : Int} (asks : Asks body bucket object ttlSeconds)
    {issuing : HttpRequest} (parsed : setup.json.parse issuing.body = some body)
    (hasToken : setup.staticTokens ≠ []) {events : List (Program.Event ioSig)}
    {response : HttpResponse}
    (issued : Program.Runs (PresignHandlers.createPresignUrl setup issuing) events
      (some response)) :
    ∃ now : Int, events = [⟨.now, now⟩] ∧
      (-2 ^ 63 ≤ now + ttlSeconds → now + ttlSeconds < 2 ^ 63 →
        ∃ url, TellsUrl setup response url ∧
          Works setup bucket object url (now + ttlSeconds)) := by
  obtain ⟨secret, others, tokens⟩ := List.exists_cons_of_ne_nil hasToken
  unfold PresignHandlers.createPresignUrl at issued
  simp only [parsed, asks.readPresignRequest, tokens] at issued
  obtain ⟨now, rest, rfl, tail⟩ := Program.runs_call.mp issued
  obtain ⟨rfl, built⟩ := Program.runs_ret.mp tail
  obtain ⟨printed, dumped, rfl⟩ := Option.map_eq_some_iff.mp built.symm
  refine ⟨now, rfl, fun low high =>
    ⟨PresignHandlers.presignedUrl setup secret bucket object (now + ttlSeconds),
      ⟨rfl, _, dumped, rfl⟩, ?_⟩⟩
  exact works_presignedUrl enabled isBucket isObject (by simp [tokens]) low high

/-- A name of one letter. -/
theorem isName_letter {letter : UInt8} (isLetter : 97 ≤ letter ∧ letter ≤ 122) :
    IsName [letter] := by
  have different {byte : UInt8} (other : ¬(97 ≤ byte ∧ byte ≤ 122)) : byte ∉ [letter] := by
    rw [List.mem_singleton]
    rintro rfl
    exact other isLetter
  exact ⟨⟨by simp, different (by decide)⟩, different (by decide), different (by decide),
    HttpParser.isLine_of_no_newline (different (by decide))⟩

theorem issued_url_works_until_expiry_sample :
    ∃ response url, Program.Runs (PresignHandlers.createPresignUrl tokenSetup presigningRequest)
        [⟨.now, (0 : Int)⟩] (some response) ∧
      TellsUrl tokenSetup response url ∧
      Works tokenSetup (ascii "b") (ascii "o") url 600 := by
  have issued := Program.runs_log (S := ioSig) emptyStores
    (PresignHandlers.createPresignUrl tokenSetup presigningRequest) ()
  have asks : Asks presignFields (ascii "b") (ascii "o") 600 :=
    ⟨rfl, rfl, .inl rfl, .inr ⟨rfl, rfl⟩, by decide⟩
  have parsed : tokenSetup.json.parse presigningRequest.body = some presignFields := rfl
  have isBucket : IsName (ascii "b") := isName_letter (by decide)
  have isObject : IsName (ascii "o") := isName_letter (by decide)
  obtain ⟨now, events, works⟩ :=
    issued_url_works_until_expiry rfl isBucket isObject asks parsed (by decide) issued
  cases (List.cons.inj events).1
  obtain ⟨url, tells, works⟩ := works (by decide) (by decide)
  exact ⟨_, url, issued, tells, works⟩

end MiniS3.Api.Server
