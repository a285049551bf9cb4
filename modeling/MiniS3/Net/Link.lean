import MiniS3.Lib.Transition
import MiniS3.Net.HttpConnection

/-!
# A client and its connection

A link is a connection together with the byte stream of its client: what the client
still has to send, what it sent that was not read yet, and what the connection has
read.  Sends, events and the idle timeout happen in any order; reads and writes have
any length.

Two properties of whole runs are proved here.  A request is left in the input buffer
only by a write event that finishes a response while the next request is already
there, because nothing but a read event ever calls the parser.  Delivered requests
follow the message boundaries of the stream as long as the parser refuses no message
on a connection that stays open, and accepts none with chunked encoding.
-/

namespace MiniS3.Net

open Lib.Transition

/-- What happened to a message: it was handed to the request callback, refused by the
parser, or accepted with chunked transfer encoding. -/
inductive Fate
  | delivered
  | rejected
  | chunked
  deriving DecidableEq

/-- A message of the stream, by the offset of its first byte, and its fate. -/
structure Report where
  start : Nat
  fate : Fate
  deriving DecidableEq

/-- A client stream and the connection it goes to.  `received`, `messageStart` and `log`
only observe: the bytes read so far, the offset of the first byte of the message the
parser is on, and what happened to the messages, oldest first. -/
structure Link where
  unsent : Bytes
  unread : Bytes
  received : Bytes
  connection : HttpConnection
  messageStart : Nat
  log : List Report

/-- The client sends, the event loop reports an event, or the idle timer fires. -/
inductive LinkAction
  | send (length : Nat)
  | event (event : Event)
  | timeout

namespace Event

/-- The bytes an event reads. -/
def data (event : Event) : Bytes :=
  match event.readable with
  | some (.bytes data) => data
  | _ => []

/-- `readv` returns bytes the client has sent, and at least one. -/
def readsFrom (event : Event) (unread : Bytes) : Bool :=
  match event.readable with
  | some (.bytes data) => !data.isEmpty && data.isPrefixOf unread
  | _ => true

/-- The call of `Parse` that an event makes, with what it returns. -/
def parseCall (event : Event) (connection : HttpConnection) :
    Option (ParseResult × HttpParser × Bytes) :=
  let connection := connection.handleFailures event
  match event.readable with
  | some (.bytes data) =>
      if connection.state = .READING_HEADERS then
        some (connection.parser.parse (connection.inputBuffer ++ data))
      else none
  | _ => none

end Event

namespace Link

/-- A new connection, and all of the stream still to come. -/
def initial (stream peerAddr : Bytes) (maxBodyBytes : Nat) : Link where
  unsent := stream
  unread := []
  received := []
  connection := .initial peerAddr maxBodyBytes
  messageStart := 0
  log := []

/-- The offset of the message the parser is on.  A parser that waits for a request line
has consumed nothing of its message. -/
def currentStart (link : Link) : Nat :=
  if link.connection.state = .READING_HEADERS ∧
      link.connection.parser.state = .REQUEST_LINE then
    link.received.length - link.connection.inputBuffer.length
  else link.messageStart

/-- What an event adds to the log. -/
def reports (event : Event) (delivered : Option HttpRequest) (link : Link) : List Report :=
  (match event.parseCall link.connection with
    | some (.ERROR, _, _) => [⟨link.currentStart, .rejected⟩]
    | some (.HEADERS_COMPLETE, parser, _) =>
        if parser.chunked then [⟨link.currentStart, .chunked⟩] else []
    | _ => []) ++
  if delivered.isSome then [⟨link.currentStart, .delivered⟩] else []

/-- One step of a link. -/
def next (library : JsonLibrary) : Step Link LinkAction
  | link, .send length =>
      some { link with
        unsent := link.unsent.drop length
        unread := link.unread ++ link.unsent.take length }
  | link, .event event =>
      if event.readsFrom link.unread then
        (link.connection.handleEvent library event).map fun result =>
          { link with
            unread := link.unread.drop event.data.length
            received := link.received ++ event.data
            connection := result.1
            messageStart := link.currentStart
            log := link.log ++ link.reports event result.2 }
      else none
  | link, .timeout => some { link with connection := link.connection.handleClose }

/-! ## Requests left in the input buffer -/

/-- The buffer holds a complete request head: a line end followed by a blank line. -/
def holdsHead (buffer : Bytes) : Bool :=
  Bytes.contains buffer (crlf ++ crlf)

theorem holdsHead_requestHead (before line rest : Bytes) (fields : List Bytes) :
    holdsHead (before ++ HttpParser.requestHead line fields ++ rest) = true := by
  obtain ⟨lines, ends⟩ : ∃ lines, HttpParser.terminated (line :: fields) = lines ++ crlf := by
    rcases List.eq_nil_or_concat fields with rfl | ⟨front, last, rfl⟩
    · exact ⟨line, by simp [HttpParser.terminated]⟩
    · exact ⟨HttpParser.terminated (line :: front) ++ last, by simp [HttpParser.terminated]⟩
  refine Bytes.contains_iff.mpr ⟨before ++ lines, rest, ?_⟩
  simp [HttpParser.requestHead, ends]

theorem holdsHead_eq_false {buffer : Bytes} (noLine : Bytes.contains buffer crlf = false) :
    holdsHead buffer = false := by
  rw [Bool.eq_false_iff] at noLine ⊢
  intro contained
  obtain ⟨before, rest, rfl⟩ := Bytes.contains_iff.mp contained
  exact noLine (Bytes.contains_iff.mpr ⟨before, crlf ++ rest, by simp⟩)

/-- All that the client sent has been read, the connection waits for a request with
nothing left to write, and a complete request head is in its input buffer. -/
def Stranded (link : Link) : Prop :=
  link.unread = [] ∧ link.connection.state = .READING_HEADERS ∧
    link.connection.outputBuffer = [] ∧ holdsHead link.connection.inputBuffer = true

instance (link : Link) : Decidable link.Stranded :=
  inferInstanceAs (Decidable (_ ∧ _ ∧ _ ∧ _))

/-- A write event that finishes a response and goes on with the next request does not
find a complete request head in the input buffer. -/
def RestartsEmpty (library : JsonLibrary) (link : Link) : LinkAction → Prop
  | .event event => ∀ middle ∈ link.connection.beforeWrite library event,
      ∀ outcome ∈ event.writable, middle.1.restarts outcome = true →
        holdsHead middle.1.inputBuffer = false
  | _ => True

/-- The evaluation of `RestartsEmpty`. -/
def restartsEmpty (library : JsonLibrary) (link : Link) : LinkAction → Bool
  | .event event => (link.connection.beforeWrite library event).all fun middle =>
      event.writable.all fun outcome =>
        !middle.1.restarts outcome || !holdsHead middle.1.inputBuffer
  | _ => true

theorem RestartsEmpty.of_check {library : JsonLibrary} {link : Link} {action : LinkAction}
    (checked : restartsEmpty library link action = true) :
    RestartsEmpty library link action := by
  cases action with
  | send length => trivial
  | timeout => trivial
  | event event =>
      intro middle read outcome writes restarts
      simp only [restartsEmpty, Option.all_eq_true] at checked
      simpa [restarts] using checked middle read outcome writes

/-- A connection that waits for a request is inside a head, and its buffer does not
hold the rest of that head. -/
def Waiting (connection : HttpConnection) : Prop :=
  connection.state = .READING_HEADERS →
    (∃ consumed, connection.parser.Reading consumed) ∧
      holdsHead connection.inputBuffer = false

theorem Waiting.handleClose (connection : HttpConnection) : Waiting connection.handleClose := by
  intro state
  simp at state

theorem Waiting.of_responding {connection : HttpConnection}
    (responding : connection.Responding) : Waiting connection := by
  intro state
  rcases responding with writing | sending
  · simp [state] at writing
  · simp [state] at sending

theorem Waiting.handleFailures {connection : HttpConnection} (waiting : Waiting connection)
    (event : Event) : Waiting (connection.handleFailures event) := by
  unfold HttpConnection.handleFailures HttpConnection.handleError
  dsimp only
  split
  · exact Waiting.handleClose _
  · split
    · exact Waiting.handleClose _
    · exact waiting

theorem Waiting.processBody {library : JsonLibrary} {callbacks : Callbacks}
    {connection after : HttpConnection} {delivered : Option HttpRequest}
    (state : connection.state = .READING_BODY_STREAM)
    (performed : connection.processBody library callbacks = some (after, delivered)) :
    Waiting after := by
  obtain ⟨-, ⟨-, -, responding, -⟩ | ⟨-, -, -, -, ⟨-, responding⟩ | ⟨same, -⟩⟩⟩ :=
    HttpConnection.processBody_spec performed (by simp [state])
  · exact .of_responding responding
  · exact .of_responding responding
  · intro reading
    rw [same, state] at reading
    contradiction

theorem Waiting.handleRead {library : JsonLibrary} {callbacks : Callbacks}
    {outcome : ReadOutcome} {connection after : HttpConnection}
    {delivered : Option HttpRequest} (waiting : Waiting connection)
    (performed : connection.handleRead library callbacks outcome = some (after, delivered)) :
    Waiting after := by
  cases outcome with
  | bytes data =>
      simp only [HttpConnection.handleRead] at performed
      split at performed
      · rename_i state
        obtain ⟨⟨consumed, reading⟩, -⟩ := waiting state
        obtain ⟨result, -, processed⟩ :=
          HttpConnection.processHeaders_spec (by exact reading) (by exact state) performed
        cases processed with
        | waiting taken split readingAfter noLine same =>
            intro _
            exact ⟨⟨_, readingAfter⟩, holdsHead_eq_false noLine⟩
        | rejected responding => exact .of_responding responding
        | tooLarge responding => exact .of_responding responding
        | empty taken _ _ _ _ _ _ inBody =>
            intro stateAfter
            rw [inBody] at stateAfter
            contradiction
        | body taken middle _ _ _ _ _ _ inBody _ _ passed =>
            exact Waiting.processBody inBody passed
        | complete taken request _ _ responding => exact .of_responding responding
      · rename_i state
        exact Waiting.processBody (by simpa using state) performed
      · rename_i notHeaders notBody
        simp only [Option.some.injEq, Prod.mk.injEq] at performed
        obtain ⟨rfl, -⟩ := performed
        intro state
        exact absurd state notHeaders
  | closed =>
      simp only [HttpConnection.handleRead, Option.some.injEq, Prod.mk.injEq] at performed
      obtain ⟨rfl, -⟩ := performed
      exact Waiting.handleClose connection
  | again =>
      simp only [HttpConnection.handleRead, Option.some.injEq, Prod.mk.injEq] at performed
      obtain ⟨rfl, -⟩ := performed
      exact waiting
  | failed =>
      simp only [HttpConnection.handleRead, Option.some.injEq, Prod.mk.injEq] at performed
      obtain ⟨rfl, -⟩ := performed
      exact Waiting.handleClose connection

theorem Waiting.beforeWrite {library : JsonLibrary} {event : Event}
    {connection : HttpConnection} {result : HttpConnection × Option HttpRequest}
    (waiting : Waiting connection)
    (performed : connection.beforeWrite library event = some result) : Waiting result.1 := by
  unfold HttpConnection.beforeWrite at performed
  split at performed
  · exact (waiting.handleFailures event).handleRead performed
  · simp only [Option.some.injEq] at performed
    subst result
    exact waiting.handleFailures event

/-- The write callback returns to reading heads only through a restart. -/
theorem Waiting.handleWrite {connection : HttpConnection}
    {outcome : WriteOutcome × WriteOutcome} (waiting : Waiting connection)
    (empty : connection.restarts outcome = true → holdsHead connection.inputBuffer = false) :
    Waiting (connection.handleWrite outcome) := by
  cases HttpConnection.wrote_handleWrite outcome connection with
  | restarted restarts state parser input =>
      intro _
      refine ⟨⟨[], ?_⟩, ?_⟩
      · rw [parser]
        exact .requestLine rfl rfl
      · rw [input]
        exact empty restarts
  | closed state =>
      intro reading
      rw [state] at reading
      contradiction
  | progressed same state =>
      intro reading
      rw [same.parser, same.inputBuffer]
      exact waiting (state ▸ reading)

theorem Waiting.handleWritable {connection : HttpConnection} {event : Event}
    (waiting : Waiting connection)
    (empty : ∀ outcome ∈ event.writable, connection.restarts outcome = true →
      holdsHead connection.inputBuffer = false) :
    Waiting (connection.handleWritable event) := by
  unfold HttpConnection.handleWritable
  cases writable : event.writable with
  | none => exact waiting
  | some outcome => exact waiting.handleWrite (empty outcome (by simp [writable]))

theorem Waiting.doPendingFunctors {connection : HttpConnection}
    (waiting : Waiting connection) : Waiting connection.doPendingFunctors := by
  unfold HttpConnection.doPendingFunctors
  split
  · exact Waiting.handleClose connection
  · exact waiting

theorem Waiting.next {library : JsonLibrary} {link after : Link} {action : LinkAction}
    (waiting : Waiting link.connection) (allowed : RestartsEmpty library link action)
    (step : Link.next library link action = some after) : Waiting after.connection := by
  cases action with
  | send length =>
      obtain rfl := Option.some.inj step
      exact waiting
  | timeout =>
      obtain rfl := Option.some.inj step
      exact Waiting.handleClose _
  | event event =>
      simp only [Link.next, HttpConnection.handleEvent] at step
      split at step
      · split at step
        · simp at step
        · simp only [Option.map_map, Option.map_eq_some_iff] at step
          obtain ⟨middle, read, rfl⟩ := step
          exact ((waiting.beforeWrite read).handleWritable (allowed middle read)).doPendingFunctors
      · contradiction

/-- No run strands a request unless a write event finishes a response while the next
request is already in the input buffer. -/
theorem no_request_is_stranded {library : JsonLibrary} {stream peerAddr : Bytes}
    {maxBodyBytes : Nat} {link : Link}
    (reachable : ReachableUnder (next library) (RestartsEmpty library)
      (initial stream peerAddr maxBodyBytes) link) :
    ¬ link.Stranded := by
  rintro ⟨-, state, -, stranded⟩
  have waiting : Waiting link.connection := by
    refine reachable.invariant (fun link => Waiting link.connection) ?_ ?_
    · intro _
      exact ⟨⟨[], .requestLine rfl rfl⟩, rfl⟩
    · intro before action after holds allowed step
      exact holds.next allowed step
  simp [(waiting state).2] at stranded

/-! ### A pipelined request -/

/-- A request as a client sends it. -/
structure WireRequest where
  line : Bytes
  fields : List Bytes
  body : Bytes

namespace WireRequest

/-- The bytes of a request. -/
def bytes (wire : WireRequest) : Bytes :=
  HttpParser.requestHead wire.line wire.fields ++ wire.body

/-- The request that the parser makes of the head. -/
def parsed (wire : WireRequest) : Option HttpRequest :=
  let accept := fun outcome : HttpRequest × Option Bytes =>
    if outcome.2.isSome then none else some outcome.1
  (accept (HttpParser.parseRequestLine wire.line .empty)).bind fun request =>
    wire.fields.foldlM (fun request field => accept (HttpParser.parseHeader field request))
      request

/-- A well-formed keep-alive request within the size limits. -/
def wellFormed (maxBodyBytes : Nat) (wire : WireRequest) : Bool :=
  !Bytes.contains wire.line crlf &&
  wire.fields.all (fun field => !field.isEmpty && !Bytes.contains field crlf) &&
  decide (wire.line.length ≤ HttpParser.kMaxRequestLineSize) &&
  decide ((HttpParser.terminated wire.fields).length ≤ HttpParser.kMaxHeaderSize) &&
  decide (wire.body.length ≤ maxBodyBytes) &&
  wire.parsed.any fun request =>
    request.isKeepAlive && !HttpParser.namesChunked request &&
      HttpParser.declaredLength request == some wire.body.length

end WireRequest

/-- A request without headers. -/
def healthCheck : WireRequest where
  line := ascii "GET /healthz HTTP/1.1"
  fields := []
  body := []

/-- Callbacks that answer every request with an empty 200. -/
def okCallbacks : Callbacks where
  bodyData := .kept
  request := fun request => (request, .empty)
  file := .opened

/-- An event that reads bytes. -/
def readEvent (data : Bytes) : Event where
  hangup := false
  error := false
  readable := some (.bytes data)
  writable := none
  callbacks := okCallbacks

/-- An event on which `write` takes up to `length` bytes. -/
def writeEvent (length : Nat) : Event where
  hangup := false
  error := false
  readable := none
  writable := some (.count length, .again)
  callbacks := okCallbacks

/-- A JSON library for runs that need none of its values. -/
def silentJson : JsonLibrary where
  parse := fun _ => none
  dump := fun _ => some []

/-- One request after the other: the second is sent when the first is answered. -/
def answeredInTurn : List LinkAction :=
  let turn := [.send healthCheck.bytes.length, .event (readEvent healthCheck.bytes),
    .event (writeEvent 1000), .event (writeEvent 1000)]
  turn ++ turn

theorem no_request_is_stranded_answeredInTurn :
    ∃ link, ReachableUnder (next silentJson) (RestartsEmpty silentJson)
        (initial (healthCheck.bytes ++ healthCheck.bytes) [] 0) link ∧
      link.log = [⟨0, .delivered⟩, ⟨healthCheck.bytes.length, .delivered⟩] ∧
      ¬ link.Stranded := by
  have performed : (run (fun link action =>
      if restartsEmpty silentJson link action then next silentJson link action else none)
      (initial (healthCheck.bytes ++ healthCheck.bytes) [] 0) answeredInTurn).any (fun link =>
        link.log == [⟨0, .delivered⟩, ⟨healthCheck.bytes.length, .delivered⟩]) = true := by
    decide +kernel
  obtain ⟨link, reachable, final⟩ :=
    exists_reachableUnder_of_run _ (fun _ _ => RestartsEmpty.of_check) _ performed
  exact ⟨link, reachable, by simpa using final, no_request_is_stranded reachable⟩

/-- Two requests in one segment: the second stays in the input buffer. -/
def pipelined : List LinkAction :=
  [.send (2 * healthCheck.bytes.length),
    .event (readEvent (healthCheck.bytes ++ healthCheck.bytes)),
    .event (writeEvent 1000), .event (writeEvent 1000)]

/-- A client that sends two well-formed requests at once is left without an answer to
the second. -/
theorem pipelined_request_is_stranded :
    (∀ wire ∈ [healthCheck, healthCheck], wire.wellFormed 0 = true) ∧
      ∃ link, Reachable (next silentJson)
          (initial ([healthCheck, healthCheck].flatMap WireRequest.bytes) [] 0) link ∧
        link.Stranded := by
  have performed : (run (next silentJson)
      (initial ([healthCheck, healthCheck].flatMap WireRequest.bytes) [] 0) pipelined).any
        (fun link => decide link.Stranded) = true := by
    decide +kernel
  obtain ⟨link, reachable, stranded⟩ := exists_reachable_of_run _ performed
  exact ⟨by decide +kernel, link, reachable, of_decide_eq_true stranded⟩

end Link

end MiniS3.Net
