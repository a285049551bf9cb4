import MiniS3.Net.HttpRequest

/-!
# The HTTP parser

The state machine that reads a request line and header lines off the front of the
input buffer.  One turn of its loop either returns to the caller or consumes a
line and goes on; `parse` iterates turns, and the loop rule `parse_rule` is the
only way later proofs look inside it.

The second half says what the parser is for.  A request head is a request line, a
sequence of non-empty header lines and a blank line, and its declared length is the
value of the last `Content-Length` among the header lines.
-/

namespace MiniS3.Net

open Lib

/-- The line terminator. -/
def crlf : Bytes :=
  [13, 10]

/-- `HttpParser::ParseState`. -/
inductive ParseState
  | REQUEST_LINE
  | HEADERS
  | BODY
  | DONE
  | ERROR
  deriving DecidableEq

/-- `HttpParser::ParseResult`. -/
inductive ParseResult
  | NEED_MORE_DATA
  | HEADERS_COMPLETE
  | BODY_DATA
  | MESSAGE_COMPLETE
  | ERROR
  deriving DecidableEq

/-- The fields of `HttpParser`. -/
structure HttpParser where
  state : ParseState
  request : HttpRequest
  errorMessage : Bytes
  contentLength : Nat
  remainingBodyLength : Nat
  chunked : Bool

namespace HttpParser

/-- `kMaxHeaderSize`. -/
def kMaxHeaderSize : Nat :=
  8 * 1024

/-- `kMaxRequestLineSize`. -/
def kMaxRequestLineSize : Nat :=
  4 * 1024

/-- `HttpParser()`. -/
def initial : HttpParser where
  state := .REQUEST_LINE
  request := .empty
  errorMessage := []
  contentLength := 0
  remainingBodyLength := 0
  chunked := false

/-- `Reset`. -/
def reset (parser : HttpParser) : HttpParser :=
  { initial with request := parser.request.reset }

/-- `HasBody`. -/
def hasBody (parser : HttpParser) : Bool :=
  decide (0 < parser.contentLength) || parser.chunked

/-- `ConsumeBody`: whether the body is complete, and the parser after it. -/
def consumeBody (length : Nat) (parser : HttpParser) : Bool × HttpParser :=
  if parser.remainingBodyLength ≤ length then
    (true, { parser with remainingBodyLength := 0, state := .DONE })
  else
    (false, { parser with remainingBodyLength := parser.remainingBodyLength - length })

/-- `ParseRequestLine`: the request as far as it was filled in, and the error message
when the line is refused. -/
def parseRequestLine (line : Bytes) (request : HttpRequest) : HttpRequest × Option Bytes :=
  match Bytes.find (ascii " ") line with
  | none => (request, some (ascii "Invalid request line: missing method"))
  | some space =>
      let request := { request with method := stringToMethod (line.take space) }
      let afterMethod := line.drop (space + 1)
      if request.method = .UNKNOWN then (request, some (ascii "Unknown HTTP method"))
      else
        match Bytes.find (ascii " ") afterMethod with
        | none => (request, some (ascii "Invalid request line: missing path"))
        | some length =>
            let uri := afterMethod.take length
            let request :=
              match Bytes.find (ascii "?") uri with
              | some position =>
                  { request with path := uri.take position, query := uri.drop (position + 1) }
              | none => { request with path := uri }
            let version := afterMethod.drop (length + 1)
            if version ≠ ascii "HTTP/1.0" ∧ version ≠ ascii "HTTP/1.1" then
              (request, some (ascii "Unsupported HTTP version"))
            else ({ request with version }, none)

/-- Remove spaces and tabs from both ends. -/
def trim (text : Bytes) : Bytes :=
  let blank := fun byte : UInt8 => byte == 32 || byte == 9
  ((text.dropWhile blank).reverse.dropWhile blank).reverse

/-- The name and value of a header line. -/
def splitField (line : Bytes) : Option (Bytes × Bytes) :=
  (Bytes.find (ascii ":") line).map fun colon =>
    (line.take colon, trim (line.drop (colon + 1)))

/-- `ParseHeader`. -/
def parseHeader (line : Bytes) (request : HttpRequest) : HttpRequest × Option Bytes :=
  match splitField line with
  | none => (request, some (ascii "Invalid header: missing colon"))
  | some (key, value) => (request.setHeader key value, none)

/-- The header names chunked transfer encoding. -/
def namesChunked (request : HttpRequest) : Bool :=
  Bytes.contains (Bytes.toLower (request.getHeader (ascii "transfer-encoding")))
    (ascii "chunked")

/-- The length `FinishHeaders` takes from the `Content-Length` header. -/
def declaredLength (request : HttpRequest) : Option Nat :=
  let header := request.getHeader (ascii "content-length")
  if header.isEmpty then some 0 else Bytes.fromChars header

/-- `FinishHeaders`. -/
def finishHeaders (parser : HttpParser) : HttpParser × Option Bytes :=
  let parser := { parser with contentLength := 0, remainingBodyLength := 0, chunked := false }
  match declaredLength parser.request with
  | none => (parser, some (ascii "Invalid Content-Length"))
  | some length =>
      let parser := { parser with contentLength := length, remainingBodyLength := length }
      if namesChunked parser.request then
        if 0 < length then
          (parser, some (ascii "Conflicting Content-Length and Transfer-Encoding"))
        else ({ parser with chunked := true }, none)
      else (parser, none)

/-- What one turn of the loop of `Parse` does: go on, or return a result. -/
inductive Turn
  | again (parser : HttpParser) (buffer : Bytes)
  | stop (result : ParseResult) (parser : HttpParser) (buffer : Bytes)

/-- Record an error and return it. -/
def fail (message : Bytes) (parser : HttpParser) (buffer : Bytes) : Turn :=
  .stop .ERROR { parser with errorMessage := message, state := .ERROR } buffer

/-- The case `REQUEST_LINE` of the loop. -/
def requestLineTurn (parser : HttpParser) (buffer : Bytes) : Turn :=
  match Bytes.find crlf buffer with
  | none =>
      if kMaxRequestLineSize < buffer.length then
        fail (ascii "Request line too long") parser buffer
      else .stop .NEED_MORE_DATA parser buffer
  | some length =>
      match parseRequestLine (buffer.take length) parser.request with
      | (request, some message) => fail message { parser with request } buffer
      | (request, none) =>
          .again { parser with request, state := .HEADERS } (buffer.drop (length + 2))

/-- The end of the head, after the blank line was consumed. -/
def blankLineTurn (parser : HttpParser) (buffer : Bytes) : Turn :=
  match parser.finishHeaders with
  | (parser, some message) => fail message parser buffer
  | (parser, none) =>
      if parser.hasBody then .stop .HEADERS_COMPLETE { parser with state := .BODY } buffer
      else .stop .MESSAGE_COMPLETE { parser with state := .DONE } buffer

/-- The case `HEADERS` of the loop. -/
def headersTurn (parser : HttpParser) (buffer : Bytes) : Turn :=
  match Bytes.find crlf buffer with
  | none =>
      if kMaxHeaderSize < buffer.length then fail (ascii "Headers too large") parser buffer
      else .stop .NEED_MORE_DATA parser buffer
  | some length =>
      if length = 0 then blankLineTurn parser (buffer.drop 2)
      else
        match parseHeader (buffer.take length) parser.request with
        | (request, some message) => fail message { parser with request } buffer
        | (request, none) => .again { parser with request } (buffer.drop (length + 2))

/-- The case `BODY` of the loop, which counts body bytes without consuming them. -/
def bodyTurn (parser : HttpParser) (buffer : Bytes) : Turn :=
  if parser.chunked then fail (ascii "Chunked encoding not supported yet") parser buffer
  else if buffer.isEmpty then .stop .NEED_MORE_DATA parser buffer
  else
    let remaining := parser.remainingBodyLength - min buffer.length parser.remainingBodyLength
    if remaining = 0 then
      .stop .MESSAGE_COMPLETE { parser with remainingBodyLength := 0, state := .DONE } buffer
    else .stop .BODY_DATA { parser with remainingBodyLength := remaining } buffer

/-- One turn of the loop of `Parse`. -/
def turn (parser : HttpParser) (buffer : Bytes) : Turn :=
  match parser.state with
  | .REQUEST_LINE => requestLineTurn parser buffer
  | .HEADERS => headersTurn parser buffer
  | .BODY => bodyTurn parser buffer
  | .DONE => .stop .MESSAGE_COMPLETE parser buffer
  | .ERROR => .stop .ERROR parser buffer

/-- At most `turns` turns of the loop. -/
def loop : Nat → HttpParser → Bytes → ParseResult × HttpParser × Bytes
  | 0, parser, buffer => (.NEED_MORE_DATA, parser, buffer)
  | turns + 1, parser, buffer =>
      match turn parser buffer with
      | .again parser buffer => loop turns parser buffer
      | .stop result parser buffer => (result, parser, buffer)

/-- `Parse`: the result, the parser and what is left in the buffer.  A turn that goes
on consumes a line, so the loop makes fewer turns than the buffer has bytes. -/
def parse (parser : HttpParser) (buffer : Bytes) : ParseResult × HttpParser × Bytes :=
  loop (buffer.length + 1) parser buffer

/-! ## The loop rule -/

theorem length_drop_line {buffer : Bytes} {length : Nat}
    (found : Bytes.find crlf buffer = some length) :
    (buffer.drop (length + 2)).length < buffer.length := by
  have split := congrArg List.length (Bytes.eq_append_of_find found)
  simp only [crlf, List.length_append, List.length_take, List.length_drop, List.length_cons,
    List.length_nil] at split ⊢
  omega

/-- A turn that goes on has consumed a line. -/
theorem length_lt_of_turn {parser parser' : HttpParser} {buffer buffer' : Bytes}
    (goesOn : turn parser buffer = .again parser' buffer') : buffer'.length < buffer.length := by
  unfold turn at goesOn
  cases state : parser.state with
  | REQUEST_LINE =>
      simp only [state, requestLineTurn, fail] at goesOn
      split at goesOn
      · split at goesOn <;> contradiction
      · rename_i length found
        split at goesOn
        · contradiction
        · obtain ⟨-, rfl⟩ := Turn.again.inj goesOn
          exact length_drop_line found
  | HEADERS =>
      simp only [state, headersTurn, blankLineTurn, fail] at goesOn
      split at goesOn
      · split at goesOn <;> contradiction
      · rename_i length found
        split at goesOn
        · split at goesOn
          · contradiction
          · split at goesOn <;> contradiction
        · split at goesOn
          · contradiction
          · obtain ⟨-, rfl⟩ := Turn.again.inj goesOn
            exact length_drop_line found
  | BODY =>
      simp only [state, bodyTurn, fail] at goesOn
      split at goesOn
      · contradiction
      · split at goesOn
        · contradiction
        · split at goesOn <;> contradiction
  | DONE => simp [state] at goesOn
  | ERROR => simp [state] at goesOn

/-- The rule for the loop of `Parse`: an assertion that every turn keeps holds when
the loop returns. -/
theorem parse_rule (holds : HttpParser → Bytes → Prop)
    (returned : ParseResult → HttpParser → Bytes → Prop)
    (again : ∀ ⦃parser buffer parser' buffer'⦄, holds parser buffer →
      turn parser buffer = .again parser' buffer' → holds parser' buffer')
    (stop : ∀ ⦃parser buffer result parser' buffer'⦄, holds parser buffer →
      turn parser buffer = .stop result parser' buffer' → returned result parser' buffer')
    {parser : HttpParser} {buffer : Bytes} (initially : holds parser buffer) :
    returned (parse parser buffer).1 (parse parser buffer).2.1 (parse parser buffer).2.2 := by
  have enough : ∀ turns parser buffer, buffer.length < turns → holds parser buffer →
      returned (loop turns parser buffer).1 (loop turns parser buffer).2.1
        (loop turns parser buffer).2.2 := by
    intro turns
    induction turns with
    | zero => intro parser buffer short; omega
    | succ turns inductionHypothesis =>
        intro parser buffer short holdsNow
        simp only [loop]
        cases outcome : turn parser buffer with
        | again parser' buffer' =>
            have shorter := length_lt_of_turn outcome
            exact inductionHypothesis parser' buffer' (by omega) (again holdsNow outcome)
        | stop result parser' buffer' => exact stop holdsNow outcome
  exact enough (buffer.length + 1) parser buffer (Nat.lt_succ_self _) initially

/-! ## Request heads -/

/-- A line: a text without a line terminator. -/
def IsLine (text : Bytes) : Prop :=
  Bytes.contains text crlf = false

/-- Lines as they are sent, each with its terminator. -/
def terminated (lines : List Bytes) : Bytes :=
  lines.flatMap (· ++ crlf)

/-- A request head: the request line, the header lines and a blank line. -/
def requestHead (line : Bytes) (fields : List Bytes) : Bytes :=
  terminated (line :: fields) ++ crlf

/-- The value of a header: that of the last header line with its name. -/
def fieldValue (name : Bytes) : List Bytes → Bytes :=
  List.foldl (fun value field =>
    match splitField field with
    | some (key, newValue) => if Bytes.toLower name = Bytes.toLower key then newValue else value
    | none => value) []

/-- The body length a list of header lines declares: 0 when there is none. -/
def fieldsLength (fields : List Bytes) : Option Nat :=
  let header := fieldValue (ascii "content-length") fields
  if header.isEmpty then some 0 else Bytes.fromChars header

/-- `text` is a request head that declares a body of `length` bytes. -/
structure Head (text : Bytes) (length : Nat) : Prop where
  intro ::
  split : ∃ line fields, text = requestHead line fields ∧ IsLine line ∧
    (∀ field ∈ fields, field ≠ [] ∧ IsLine field) ∧ fieldsLength fields = some length

/-- `stream` begins with a message of `length` bytes: a head and the body it declares. -/
def Message (stream : Bytes) (length : Nat) : Prop :=
  ∃ head rest declared, stream = head ++ rest ∧ Head head declared ∧
    length = head.length + declared

/-- What a parser that is inside a head has consumed of it. -/
inductive Reading (parser : HttpParser) : Bytes → Prop
  | requestLine : parser.state = .REQUEST_LINE → parser.request.headers = ∅ →
      Reading parser []
  | headers (line : Bytes) (fields : List Bytes) : parser.state = .HEADERS → IsLine line →
      (∀ field ∈ fields, field ≠ [] ∧ IsLine field) →
      (∀ name, parser.request.getHeader name = fieldValue name fields) →
      Reading parser (terminated (line :: fields))

/-- What `Parse` promises when it returns, given what it has consumed of the message. -/
def Returned (result : ParseResult) (parser : HttpParser) (buffer consumed : Bytes) : Prop :=
  match result with
  | .NEED_MORE_DATA => Reading parser consumed ∧ Bytes.contains buffer crlf = false
  | .HEADERS_COMPLETE => parser.state = .BODY ∧ Head consumed parser.contentLength ∧
      parser.remainingBodyLength = parser.contentLength ∧
      (parser.chunked = true ∨ 0 < parser.contentLength)
  | .MESSAGE_COMPLETE => parser.state = .DONE ∧ Head consumed 0
  | .ERROR => parser.state = .ERROR
  | .BODY_DATA => False

theorem line_of_find {buffer : Bytes} {length : Nat}
    (found : Bytes.find crlf buffer = some length) :
    IsLine (buffer.take length) ∧
      buffer = terminated [buffer.take length] ++ buffer.drop (length + 2) := by
  refine ⟨Bytes.contains_take_of_find (by simp [crlf]) found, ?_⟩
  simpa [terminated, crlf] using Bytes.eq_append_of_find found

theorem parseRequestLine_headers (line : Bytes) (request : HttpRequest) :
    (parseRequestLine line request).1.headers = request.headers := by
  unfold parseRequestLine
  split
  · rfl
  · dsimp only
    split
    · rfl
    · split
      · rfl
      · split <;> split <;> rfl

theorem getHeader_parseHeader {line : Bytes} {fields : List Bytes}
    {request request' : HttpRequest}
    (parsed : parseHeader line request = (request', none))
    (represented : ∀ name, request.getHeader name = fieldValue name fields) (name : Bytes) :
    request'.getHeader name = fieldValue name (fields ++ [line]) := by
  unfold parseHeader at parsed
  cases split : splitField line with
  | none => simp [split] at parsed
  | some field =>
      obtain ⟨key, value⟩ := field
      simp only [split, Prod.mk.injEq, and_true] at parsed
      subst request'
      simp only [fieldValue, List.foldl_append, List.foldl_cons, List.foldl_nil, split]
      by_cases same : Bytes.toLower name = Bytes.toLower key
      · rw [if_pos same]
        simp [HttpRequest.getHeader, HttpRequest.setHeader, same]
      · rw [if_neg same, HttpRequest.getHeader_setHeader_ne value request same]
        exact represented name

theorem terminated_append (first second : List Bytes) :
    terminated (first ++ second) = terminated first ++ terminated second :=
  List.flatMap_append

/-- A turn that goes on has moved one line from the buffer to the consumed part. -/
theorem Reading.again {parser parser' : HttpParser} {buffer buffer' consumed : Bytes}
    (reading : Reading parser consumed)
    (goesOn : turn parser buffer = .again parser' buffer') :
    ∃ taken, buffer = taken ++ buffer' ∧ Reading parser' (consumed ++ taken) := by
  cases reading with
  | requestLine state headers =>
      simp only [turn, state, requestLineTurn, fail] at goesOn
      split at goesOn
      · split at goesOn <;> contradiction
      · rename_i length found
        split at goesOn
        · contradiction
        · rename_i request parsed
          obtain ⟨rfl, rfl⟩ := Turn.again.inj goesOn
          obtain ⟨isLine, split⟩ := line_of_find found
          refine ⟨_, split, .headers _ [] rfl isLine (by simp) ?_⟩
          intro name
          have unchanged := parseRequestLine_headers (buffer.take length) parser.request
          rw [parsed, headers] at unchanged
          simp only at unchanged
          simp [HttpRequest.getHeader, unchanged, fieldValue]
  | headers line fields state lineIsLine fieldsAreLines represented =>
      simp only [turn, state, headersTurn, blankLineTurn, fail] at goesOn
      split at goesOn
      · split at goesOn <;> contradiction
      · rename_i length found
        split at goesOn
        · split at goesOn
          · contradiction
          · split at goesOn <;> contradiction
        · rename_i notBlank
          split at goesOn
          · contradiction
          · rename_i request parsed
            obtain ⟨rfl, rfl⟩ := Turn.again.inj goesOn
            obtain ⟨isLine, split⟩ := line_of_find found
            refine ⟨_, split, ?_⟩
            rw [← terminated_append]
            refine .headers line (fields ++ [buffer.take length]) rfl lineIsLine ?_
              (getHeader_parseHeader parsed represented)
            intro field member
            rcases List.mem_append.mp member with member | member
            · exact fieldsAreLines field member
            · obtain rfl := List.mem_singleton.mp member
              refine ⟨?_, isLine⟩
              intro empty
              have shorter := length_drop_line found
              rcases List.take_eq_nil_iff.mp empty with zero | nil
              · exact notBlank zero
              · simp [nil] at shorter

theorem finishHeaders_spec {parser finished : HttpParser} {fields : List Bytes}
    (accepted : parser.finishHeaders = (finished, none))
    (represented : ∀ name, parser.request.getHeader name = fieldValue name fields) :
    fieldsLength fields = some finished.contentLength ∧
      finished.remainingBodyLength = finished.contentLength ∧
      finished.request = parser.request ∧
      (finished.chunked = true → finished.contentLength = 0) := by
  have lengths : declaredLength parser.request = fieldsLength fields := by
    simp [declaredLength, fieldsLength, represented]
  unfold finishHeaders at accepted
  simp only [lengths] at accepted
  split at accepted
  · simp at accepted
  · rename_i length declared
    split at accepted
    · split at accepted
      · simp at accepted
      · simp only [Prod.mk.injEq, and_true] at accepted
        subst finished
        refine ⟨declared, rfl, rfl, ?_⟩
        intro _
        dsimp only
        omega
    · simp only [Prod.mk.injEq, and_true] at accepted
      subst finished
      exact ⟨declared, rfl, rfl, by simp⟩

/-- A blank line completes the head, and the parser knows the length it declares. -/
theorem Reading.blankLine {parser parser' : HttpParser} {line buffer buffer' : Bytes}
    {fields : List Bytes} {result : ParseResult} (lineIsLine : IsLine line)
    (fieldsAreLines : ∀ field ∈ fields, field ≠ [] ∧ IsLine field)
    (represented : ∀ name, parser.request.getHeader name = fieldValue name fields)
    (stopped : blankLineTurn parser buffer = .stop result parser' buffer') :
    buffer' = buffer ∧ Returned result parser' buffer' (requestHead line fields) := by
  simp only [blankLineTurn, fail] at stopped
  split at stopped
  · obtain ⟨rfl, rfl, rfl⟩ := Turn.stop.inj stopped
    exact ⟨rfl, rfl⟩
  · rename_i finished accepted
    obtain ⟨declared, remaining, -, -⟩ := finishHeaders_spec accepted represented
    have head : Head (requestHead line fields) finished.contentLength :=
      ⟨⟨line, fields, rfl, lineIsLine, fieldsAreLines, declared⟩⟩
    split at stopped
    · rename_i body
      obtain ⟨rfl, rfl, rfl⟩ := Turn.stop.inj stopped
      refine ⟨rfl, rfl, head, remaining, ?_⟩
      simpa [hasBody, or_comm] using body
    · rename_i noBody
      obtain ⟨rfl, rfl, rfl⟩ := Turn.stop.inj stopped
      simp only [hasBody, Bool.or_eq_true, decide_eq_true_eq, not_or, not_lt] at noBody
      have zero : finished.contentLength = 0 := by omega
      rw [zero] at head
      exact ⟨rfl, rfl, head⟩

/-- A turn that returns to the caller. -/
theorem Reading.stop {parser parser' : HttpParser} {buffer buffer' consumed : Bytes}
    {result : ParseResult} (reading : Reading parser consumed)
    (stopped : turn parser buffer = .stop result parser' buffer') :
    ∃ taken, buffer = taken ++ buffer' ∧ Returned result parser' buffer' (consumed ++ taken) := by
  have readingStart := reading
  cases reading with
  | requestLine state headers =>
      simp only [turn, state, requestLineTurn, fail] at stopped
      split at stopped
      · rename_i absent
        split at stopped
        · obtain ⟨rfl, rfl, rfl⟩ := Turn.stop.inj stopped
          exact ⟨[], rfl, rfl⟩
        · obtain ⟨rfl, rfl, rfl⟩ := Turn.stop.inj stopped
          exact ⟨[], rfl, readingStart, by simp [Bytes.contains, absent]⟩
      · split at stopped
        · obtain ⟨rfl, rfl, rfl⟩ := Turn.stop.inj stopped
          exact ⟨[], rfl, rfl⟩
        · contradiction
  | headers line fields state lineIsLine fieldsAreLines represented =>
      simp only [turn, state, headersTurn] at stopped
      split at stopped
      · rename_i absent
        split at stopped
        · obtain ⟨rfl, rfl, rfl⟩ := Turn.stop.inj stopped
          exact ⟨[], rfl, rfl⟩
        · obtain ⟨rfl, rfl, rfl⟩ := Turn.stop.inj stopped
          refine ⟨[], rfl, ?_, by simp [Bytes.contains, absent]⟩
          simpa using readingStart
      · rename_i length found
        split at stopped
        · rename_i blank
          subst length
          obtain ⟨-, split⟩ := line_of_find found
          obtain ⟨rfl, returned⟩ :=
            Reading.blankLine lineIsLine fieldsAreLines represented stopped
          exact ⟨crlf, by simpa [terminated] using split, returned⟩
        · split at stopped
          · simp only [fail] at stopped
            obtain ⟨rfl, rfl, rfl⟩ := Turn.stop.inj stopped
            exact ⟨[], by simp, rfl⟩
          · contradiction

/-- What `Parse` does inside a head: it takes whole lines off the buffer, and returns
as `Returned` says. -/
theorem Reading.parse {parser : HttpParser} {consumed : Bytes}
    (reading : Reading parser consumed) (buffer : Bytes) :
    ∃ taken, buffer = taken ++ (parse parser buffer).2.2 ∧
      Returned (parse parser buffer).1 (parse parser buffer).2.1 (parse parser buffer).2.2
        (consumed ++ taken) := by
  refine parse_rule
    (fun parser rest => ∃ taken, buffer = taken ++ rest ∧ Reading parser (consumed ++ taken))
    (fun result parser rest =>
      ∃ taken, buffer = taken ++ rest ∧ Returned result parser rest (consumed ++ taken))
    ?_ ?_ ⟨[], rfl, by simpa using reading⟩
  · rintro parser rest parser' rest' ⟨taken, rfl, readingNow⟩ goesOn
    obtain ⟨line, rfl, readingNext⟩ := readingNow.again goesOn
    exact ⟨taken ++ line, by simp, by simpa using readingNext⟩
  · rintro parser rest result parser' rest' ⟨taken, rfl, readingNow⟩ stopped
    obtain ⟨line, rfl, returned⟩ := readingNow.stop stopped
    exact ⟨taken ++ line, by simp, by simpa using returned⟩

end HttpParser

end MiniS3.Net
