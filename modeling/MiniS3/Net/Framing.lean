import MiniS3.Net.Link

/-!
# Message boundaries

Where the messages of a stream begin and end is a matter of the stream alone: a
message ends as many bytes after its blank line as its header lines declare.  The
connection decides it in two places, in the parser and in the count of body bytes,
and this file shows that the two agree: delivered requests follow the boundaries of
the stream.

The connection goes astray when it keeps reading after the parser has refused a
message, because the rest of the refused message is then parsed as a new one, and
when a head announces chunked encoding, which the parser declares unsupported and
the connection delivers with an empty body.
-/

namespace MiniS3.Net

open Lib.Transition
open HttpParser

/-- The messages of a stream, from its beginning: where each one starts, and where the
last one ends. -/
inductive Framed (stream : Bytes) : List Nat → Nat → Prop
  | start : Framed stream [] 0
  | message {starts : List Nat} {boundary length : Nat} : Framed stream starts boundary →
      Message (stream.drop boundary) length →
      Framed stream (starts ++ [boundary]) (boundary + length)

/-- Where the delivered messages start. -/
def deliveredStarts (log : List Report) : List Nat :=
  (log.filter fun report => report.fate = .delivered).map Report.start

/-- A message that was refused, or announced chunked encoding, is not delivered, and no
message is delivered after it. -/
structure RefusalsAreFinal (log : List Report) : Prop where
  later : log.Pairwise fun earlier later =>
    earlier.fate ≠ .delivered → later.fate ≠ .delivered
  itself : ∀ report ∈ log, report.fate ≠ .delivered → report.start ∉ deliveredStarts log

namespace Link

/-- Every delivered request begins where the previous message ends, and a refusal ends
the deliveries. -/
def BoundariesHold (link : Link) : Prop :=
  (∃ boundary, Framed link.received (deliveredStarts link.log) boundary) ∧
    RefusalsAreFinal link.log

/-- The parser refuses a message only when the connection is to be closed, and accepts no
head with chunked encoding. -/
def RefusesToClose (link : Link) : LinkAction → Prop
  | .event event => ∀ call ∈ event.parseCall link.connection,
      (call.1 = .ERROR → call.2.1.request.isKeepAlive = false) ∧
        (call.1 = .HEADERS_COMPLETE → call.2.1.chunked = false)
  | _ => True

/-- The evaluation of `RefusesToClose`. -/
def refusesToClose (link : Link) : LinkAction → Bool
  | .event event => (event.parseCall link.connection).all fun call =>
      (call.1 != .ERROR || !call.2.1.request.isKeepAlive) &&
        (call.1 != .HEADERS_COMPLETE || !call.2.1.chunked)
  | _ => true

theorem RefusesToClose.of_check {link : Link} {action : LinkAction}
    (checked : refusesToClose link action = true) : RefusesToClose link action := by
  cases action with
  | send length => trivial
  | timeout => trivial
  | event event =>
      intro call made
      simp only [refusesToClose, Option.all_eq_true] at checked
      have conditions := checked call made
      simp only [Bool.and_eq_true, Bool.or_eq_true, bne_iff_ne, Bool.not_eq_true'] at conditions
      exact ⟨fun error => conditions.1.resolve_left (· error),
        fun complete => conditions.2.resolve_left (· complete)⟩

end Link

/-! ## Messages and streams -/

theorem HttpParser.Head.length_pos {text : Bytes} {length : Nat} (head : Head text length) :
    0 < text.length := by
  obtain ⟨line, fields, rfl, -⟩ := head.split
  simp [requestHead, crlf]

theorem HttpParser.Message.length_pos {stream : Bytes} {length : Nat}
    (message : Message stream length) : 0 < length ∧ 0 < stream.length := by
  obtain ⟨head, rest, declared, rfl, isHead, rfl⟩ := message
  have positive := isHead.length_pos
  simp only [List.length_append]
  omega

theorem HttpParser.Message.append {stream : Bytes} {length : Nat}
    (message : Message stream length) (more : Bytes) : Message (stream ++ more) length := by
  obtain ⟨head, rest, declared, rfl, isHead, rfl⟩ := message
  exact ⟨head, rest ++ more, declared, by simp, isHead, rfl⟩

theorem Framed.append {stream : Bytes} {starts : List Nat} {boundary : Nat}
    (framed : Framed stream starts boundary) (more : Bytes) :
    Framed (stream ++ more) starts boundary := by
  induction framed with
  | start => exact .start
  | message _ message inductionHypothesis =>
      refine .message inductionHypothesis ?_
      have inside := message.length_pos.2
      rw [List.length_drop] at inside
      rw [List.drop_append_of_le_length (by omega)]
      exact message.append more

/-- Delivered messages start before the boundary that follows them. -/
theorem Framed.start_lt {stream : Bytes} {starts : List Nat} {boundary : Nat}
    (framed : Framed stream starts boundary) : ∀ start ∈ starts, start < boundary := by
  induction framed with
  | start => simp
  | message _ message inductionHypothesis =>
      have positive := message.length_pos.1
      intro start member
      rcases List.mem_append.mp member with earlier | last
      · have before := inductionHypothesis start earlier
        omega
      · rw [List.mem_singleton.mp last]
        omega

theorem deliveredStarts_append (first second : List Report) :
    deliveredStarts (first ++ second) = deliveredStarts first ++ deliveredStarts second := by
  simp [deliveredStarts]

/-- A delivery is added to a log without refusals. -/
theorem RefusalsAreFinal.delivered {log : List Report} {start : Nat}
    (none : ∀ report ∈ log, report.fate = .delivered) :
    RefusalsAreFinal (log ++ [⟨start, .delivered⟩]) := by
  have all : ∀ report ∈ log ++ [⟨start, .delivered⟩], report.fate = .delivered := by
    intro report member
    rcases List.mem_append.mp member with earlier | last
    · exact none report earlier
    · rw [List.mem_singleton.mp last]
  refine ⟨?_, ?_⟩
  · refine List.pairwise_iff_getElem.mpr ?_
    intro i j inside _ _ refused
    exact absurd (all _ (List.getElem_mem inside)) refused
  · intro report member refused
    exact absurd (all report member) refused

/-- A refusal is added to a log without refusals. -/
theorem RefusalsAreFinal.rejected {log : List Report} {start : Nat}
    (none : ∀ report ∈ log, report.fate = .delivered)
    (fresh : start ∉ deliveredStarts log) :
    RefusalsAreFinal (log ++ [⟨start, .rejected⟩]) := by
  refine ⟨?_, ?_⟩
  · refine List.pairwise_append.mpr ⟨?_, List.pairwise_singleton _ _, ?_⟩
    · refine List.pairwise_iff_getElem.mpr ?_
      intro i j inside _ _ refused
      exact absurd (none _ (List.getElem_mem inside)) refused
    · intro report member last isLast _
      rw [List.mem_singleton.mp isLast]
      simp
  · intro report member refused
    rw [deliveredStarts_append]
    rcases List.mem_append.mp member with earlier | last
    · exact absurd (none report earlier) refused
    · rw [List.mem_singleton.mp last]
      simpa [deliveredStarts] using fresh

/-! ## Where a connection is in its stream -/

/-- The connection delivers no request any more: it does not read, or it is about to
close. -/
def HttpConnection.Over (connection : HttpConnection) : Prop :=
  connection.reading = false ∨
    connection.Responding ∧ connection.parser.request.isKeepAlive = false

/-- Where a connection is, when the last delivered message ends at `boundary` and the
message the parser is on starts at `start`. -/
inductive Phase (received : Bytes) (start boundary : Nat) (connection : HttpConnection) : Prop
  | head (consumed : Bytes) : connection.state = .READING_HEADERS →
      connection.writing = false → connection.parser.Reading consumed →
      received.drop boundary = consumed ++ connection.inputBuffer →
      (connection.parser.state ≠ .REQUEST_LINE → start = boundary) →
      Phase received start boundary connection
  | body (consumed : Bytes) (length : Nat) : connection.state = .READING_BODY_STREAM →
      connection.writing = false → Message (received.drop boundary) length →
      received.drop boundary = consumed ++ connection.inputBuffer →
      consumed.length + connection.parser.remainingBodyLength = length →
      0 < connection.parser.remainingBodyLength → start = boundary →
      Phase received start boundary connection
  | answered : connection.Responding → received.drop boundary = connection.inputBuffer →
      Phase received start boundary connection
  | finished : connection.Over → Phase received start boundary connection

theorem HttpConnection.Over.handleClose {connection : HttpConnection}
    (closed : connection.state = .CLOSED → connection.reading = false) :
    connection.handleClose.Over := by
  rcases connection.handleClose_cases with ⟨isClosed, unchanged⟩ | closes
  · rw [unchanged]
    exact .inl (closed isClosed)
  · rw [closes]
    exact .inl rfl

/-- The write callback does not open a connection that is over. -/
theorem HttpConnection.Over.handleWritable {connection : HttpConnection}
    (isOver : connection.Over) (event : Event) : (connection.handleWritable event).Over := by
  unfold HttpConnection.handleWritable
  cases event.writable with
  | none => exact isOver
  | some outcome =>
      cases HttpConnection.wrote_handleWrite outcome connection with
      | restarted restarts _ _ _ reading =>
          rcases isOver with silent | ⟨-, notKept⟩
          · exact .inl (reading.trans silent)
          · simp [HttpConnection.restarts, notKept] at restarts
      | closed _ whenClosed whenOpen =>
          by_cases isClosed : connection.state = .CLOSED
          · rcases isOver with silent | ⟨writing | sending, -⟩
            · exact .inl ((whenClosed isClosed).trans silent)
            · simp [isClosed] at writing
            · simp [isClosed] at sending
          · exact .inl (whenOpen isClosed)
      | progressed same state reading =>
          rcases isOver with silent | ⟨responding, notKept⟩
          · exact .inl (reading.trans silent)
          · refine .inr ⟨?_, by rw [same.parser]; exact notKept⟩
            simpa [HttpConnection.Responding, state] using responding

/-- The write callback of a connection that has answered its last message. -/
theorem Phase.answered_handleWritable {received : Bytes} {start boundary : Nat}
    {connection : HttpConnection} (responding : connection.Responding)
    (input : received.drop boundary = connection.inputBuffer) (event : Event) :
    Phase received start boundary (connection.handleWritable event) := by
  unfold HttpConnection.handleWritable
  cases event.writable with
  | none => exact .answered responding input
  | some outcome =>
      cases HttpConnection.wrote_handleWrite outcome connection with
      | restarted _ state parser inputAfter _ writing =>
          refine .head [] state writing ?_ ?_ ?_
          · rw [parser]
            exact .requestLine rfl rfl
          · rw [inputAfter]
            exact input
          · intro notAtStart
            simp [parser, reset, HttpParser.initial] at notAtStart
      | closed _ _ whenOpen =>
          refine .finished (.inl (whenOpen ?_))
          rcases responding with writing | sending
          · simp [writing]
          · simp [sending]
      | progressed same state =>
          refine .answered ?_ (by rw [same.inputBuffer]; exact input)
          simpa [HttpConnection.Responding, state] using responding

theorem Phase.doPendingFunctors {received : Bytes} {start boundary : Nat}
    {connection : HttpConnection}
    (closed : connection.state = .CLOSED → connection.reading = false)
    (phase : connection.closing = true ∨ Phase received start boundary connection) :
    Phase received start boundary connection.doPendingFunctors := by
  unfold HttpConnection.doPendingFunctors
  split
  · exact .finished (.handleClose closed)
  · rename_i notClosing
    exact phase.resolve_left notClosing

/-! ## One event -/

/-- What the read callback has made of the stream: no request yet, or the one that
starts at the boundary. -/
inductive Progress (received : Bytes) (start boundary : Nat) (after : HttpConnection) :
    Option HttpRequest → Prop
  | waiting : after.closing = true ∨ Phase received start boundary after →
      Progress received start boundary after none
  | delivered (length : Nat) (request : HttpRequest) : start = boundary →
      Message (received.drop boundary) length → boundary + length ≤ received.length →
      after.Responding → received.drop (boundary + length) = after.inputBuffer →
      Progress received start boundary after (some request)

/-- Body bytes are counted to the end of the message and no further. -/
theorem Progress.of_processBody {library : JsonLibrary} {callbacks : Callbacks}
    {received consumed : Bytes} {start boundary length : Nat}
    {connection after : HttpConnection} {delivered : Option HttpRequest}
    (state : connection.state = .READING_BODY_STREAM) (writing : connection.writing = false)
    (message : Message (received.drop boundary) length)
    (split : received.drop boundary = consumed ++ connection.inputBuffer)
    (counted : consumed.length + connection.parser.remainingBodyLength = length)
    (unfinished : 0 < connection.parser.remainingBodyLength) (atBoundary : start = boundary)
    (performed : connection.processBody library callbacks = some (after, delivered)) :
    Progress received start boundary after delivered := by
  have sizes := congrArg List.length split
  rw [List.length_drop, List.length_append] at sizes
  obtain ⟨-, ⟨complete, input, responding, isDelivered⟩ | ⟨incomplete, input, remaining, rfl, outcome⟩⟩ :=
    HttpConnection.processBody_spec performed (by simp [state])
  · obtain ⟨request, rfl⟩ := Option.isSome_iff_exists.mp isDelivered
    refine .delivered length request atBoundary message (by omega) responding ?_
    rw [← List.drop_drop, split, input, ← counted, List.drop_append,
      List.drop_eq_nil_of_le (by omega), List.nil_append]
    congr 1
    omega
  · refine .waiting ?_
    rcases outcome with ⟨closing, -⟩ | ⟨stateAfter, writingAfter⟩
    · exact .inl closing
    · refine .inr (.body (consumed ++ connection.inputBuffer) length (stateAfter.trans state)
        (writingAfter.trans writing) message ?_ ?_ (by omega) atBoundary)
      · rw [input, split, List.append_nil]
      · rw [List.length_append, remaining]
        omega

/-- A read event while the connection is inside a head. -/
theorem Progress.of_processHeaders {library : JsonLibrary} {callbacks : Callbacks}
    {received consumed : Bytes} {start boundary : Nat}
    {connection after : HttpConnection} {delivered : Option HttpRequest}
    (state : connection.state = .READING_HEADERS) (writing : connection.writing = false)
    (reading : connection.parser.Reading consumed)
    (split : received.drop boundary = consumed ++ connection.inputBuffer)
    (within : boundary ≤ received.length) (atBoundary : start = boundary)
    (refusal : (connection.parser.parse connection.inputBuffer).1 = .ERROR →
      (connection.parser.parse connection.inputBuffer).2.1.request.isKeepAlive = false)
    (plain : (connection.parser.parse connection.inputBuffer).1 = .HEADERS_COMPLETE →
      (connection.parser.parse connection.inputBuffer).2.1.chunked = false)
    (performed : connection.processHeaders library callbacks = some (after, delivered)) :
    Progress received start boundary after delivered ∧
      ((connection.parser.parse connection.inputBuffer).1 = .ERROR →
        after.Over ∧ delivered = none) := by
  obtain ⟨result, parsed, processed⟩ :=
    HttpConnection.processHeaders_spec reading state performed
  rw [parsed] at refusal plain ⊢
  cases processed with
  | waiting taken input readingAfter _ stateAfter _ writingAfter =>
      refine ⟨.waiting (.inr (.head (consumed ++ taken) (stateAfter.trans state)
        (writingAfter.trans writing) readingAfter ?_ fun _ => atBoundary)), by simp⟩
      rw [split, input, List.append_assoc]
  | rejected responding _ parser =>
      have isOver : after.Over := .inr ⟨responding, by rw [parser]; exact refusal rfl⟩
      exact ⟨.waiting (.inr (.finished isOver)), fun _ => ⟨isOver, rfl⟩⟩
  | tooLarge responding _ notKept =>
      exact ⟨.waiting (.inr (.finished (.inr ⟨responding, notKept⟩))), by simp⟩
  | empty taken input head remaining nonempty parser inputAfter stateAfter _ writingAfter =>
      have declared : 0 < after.parser.contentLength := by
        rw [parser, plain rfl] at nonempty
        rw [parser]
        simpa using nonempty
      refine ⟨.waiting (.inr (.body (consumed ++ taken) _ stateAfter
        (writingAfter.trans writing) ⟨consumed ++ taken, [], _, ?_, head, rfl⟩ ?_ ?_ ?_
        atBoundary)), by simp⟩
      · rw [split, input, List.append_nil]
      · rw [split, input, inputAfter, List.append_nil]
      · rw [remaining]
      · rw [remaining]
        exact declared
  | body taken middle _ input head remaining nonempty parser stateMiddle _ writingMiddle
      passed =>
      have declared : 0 < middle.parser.contentLength := by
        rw [parser, plain rfl] at nonempty
        rw [parser]
        simpa using nonempty
      have splitMiddle : received.drop boundary = consumed ++ taken ++ middle.inputBuffer := by
        rw [split, input, List.append_assoc]
      refine ⟨Progress.of_processBody stateMiddle (writingMiddle.trans writing)
        ⟨consumed ++ taken, middle.inputBuffer, _, splitMiddle, head, rfl⟩ splitMiddle ?_ ?_
        atBoundary passed, by simp⟩
      · rw [remaining]
      · rw [remaining]
        exact declared
  | complete taken request input head responding =>
      have sizes := congrArg List.length split
      rw [List.length_drop, input, List.length_append, List.length_append] at sizes
      refine ⟨.delivered _ request atBoundary
        ⟨consumed ++ taken, after.inputBuffer, 0, ?_, head, rfl⟩ ?_ responding ?_, by simp⟩
      · rw [split, input, List.append_assoc]
      · rw [List.length_append]
        omega
      · rw [← List.drop_drop, split, input, ← List.append_assoc, Nat.add_zero,
          List.drop_left]

/-- A closed connection does not read. -/
def Silent (connection : HttpConnection) : Prop :=
  connection.state = .CLOSED → connection.reading = false

theorem Silent.of_state {connection : HttpConnection} (state : connection.state ≠ .CLOSED) :
    Silent connection := by
  intro closed
  exact absurd closed state

theorem HttpConnection.Responding.not_closed {connection : HttpConnection}
    (responding : connection.Responding) : connection.state ≠ .CLOSED := by
  rcases responding with writing | sending
  · simp [writing]
  · simp [sending]

theorem Silent.handleClose {connection : HttpConnection} (silent : Silent connection) :
    connection.handleClose.reading = false := by
  rcases connection.handleClose_cases with ⟨closed, unchanged⟩ | closes
  · rw [unchanged]
    exact silent closed
  · rw [closes]

theorem Silent.handleWritable {connection : HttpConnection} (silent : Silent connection)
    (event : Event) : Silent (connection.handleWritable event) := by
  unfold HttpConnection.handleWritable
  cases event.writable with
  | none => exact silent
  | some outcome =>
      cases HttpConnection.wrote_handleWrite outcome connection with
      | restarted _ state => exact .of_state (by simp [state])
      | closed _ whenClosed whenOpen =>
          intro _
          by_cases isClosed : connection.state = .CLOSED
          · exact (whenClosed isClosed).trans (silent isClosed)
          · exact whenOpen isClosed
      | progressed _ state reading =>
          intro closed
          exact reading.trans (silent (state ▸ closed))

theorem Silent.doPendingFunctors {connection : HttpConnection} (silent : Silent connection) :
    Silent connection.doPendingFunctors := by
  unfold HttpConnection.doPendingFunctors
  split
  · intro _
    exact silent.handleClose
  · exact silent

theorem HttpConnection.Over.doPendingFunctors {connection : HttpConnection}
    (isOver : connection.Over) (silent : Silent connection) :
    connection.doPendingFunctors.Over := by
  unfold HttpConnection.doPendingFunctors
  split
  · exact .inl silent.handleClose
  · exact isOver

theorem Silent.of_processBody {library : JsonLibrary} {callbacks : Callbacks}
    {connection after : HttpConnection} {delivered : Option HttpRequest}
    (state : connection.state = .READING_BODY_STREAM)
    (performed : connection.processBody library callbacks = some (after, delivered)) :
    Silent after := by
  obtain ⟨-, ⟨-, -, responding, -⟩ | ⟨-, -, -, -, ⟨-, responding⟩ | ⟨same, -⟩⟩⟩ :=
    HttpConnection.processBody_spec performed (by simp [state])
  · exact .of_state responding.not_closed
  · exact .of_state responding.not_closed
  · exact .of_state (by simp [same, state])

theorem Silent.of_processHeaders {library : JsonLibrary} {callbacks : Callbacks}
    {consumed : Bytes} {connection after : HttpConnection} {delivered : Option HttpRequest}
    (reading : connection.parser.Reading consumed)
    (state : connection.state = .READING_HEADERS)
    (performed : connection.processHeaders library callbacks = some (after, delivered)) :
    Silent after := by
  obtain ⟨result, -, processed⟩ :=
    HttpConnection.processHeaders_spec reading state performed
  cases processed with
  | waiting _ _ _ _ same => exact .of_state (by simp [same, state])
  | rejected responding => exact .of_state responding.not_closed
  | tooLarge responding => exact .of_state responding.not_closed
  | empty _ _ _ _ _ _ _ inBody => exact .of_state (by simp [inBody])
  | body _ _ _ _ _ _ _ _ inBody _ _ passed => exact .of_processBody inBody passed
  | complete _ _ _ _ responding => exact .of_state responding.not_closed

/-- The part of an event before the write callback: the connection was shut, or bytes
were read, or nothing happened. -/
inductive Began (library : JsonLibrary) (event : Event) (before after : HttpConnection) :
    Option HttpRequest → Prop
  | shut : after.state = .CLOSED → after.reading = false →
      event.parseCall before = none → Began library event before after none
  | read (data : Bytes) (delivered : Option HttpRequest) :
      event.readable = some (.bytes data) → before.handleFailures event = before →
      before.handleRead library event.callbacks (.bytes data) = some (after, delivered) →
      Began library event before after delivered
  | idle : after = before → event.data = [] → event.parseCall before = none →
      Began library event before after none

theorem handleFailures_cases (event : Event) {connection : HttpConnection}
    (silent : Silent connection) :
    connection.handleFailures event = connection ∨
      (connection.handleFailures event).state = .CLOSED ∧
        (connection.handleFailures event).reading = false := by
  unfold HttpConnection.handleFailures HttpConnection.handleError
  dsimp only
  by_cases error : event.error = true
  · rw [if_pos error]
    refine .inr ⟨HttpConnection.handleClose_state _, ?_⟩
    split
    · refine Silent.handleClose ?_
      intro _
      exact silent.handleClose
    · exact silent.handleClose
  · rw [if_neg error]
    split
    · exact .inr ⟨HttpConnection.handleClose_state _, silent.handleClose⟩
    · exact .inl rfl

theorem beforeWrite_began {library : JsonLibrary} {event : Event}
    {connection after : HttpConnection} {delivered : Option HttpRequest}
    (silent : Silent connection)
    (performed : connection.beforeWrite library event = some (after, delivered)) :
    Began library event connection after delivered := by
  unfold HttpConnection.beforeWrite at performed
  dsimp only at performed
  rcases handleFailures_cases event silent with unchanged | ⟨closed, quiet⟩
  · rw [unchanged] at performed
    cases readable : event.readable with
    | none =>
        simp only [readable, Option.some.injEq, Prod.mk.injEq] at performed
        obtain ⟨rfl, rfl⟩ := performed
        exact .idle rfl (by simp [Event.data, readable]) (by simp [Event.parseCall, readable])
    | some outcome =>
        simp only [readable] at performed
        cases outcome with
        | bytes data => exact .read data delivered readable unchanged performed
        | again =>
            simp only [HttpConnection.handleRead, Option.some.injEq, Prod.mk.injEq] at performed
            obtain ⟨rfl, rfl⟩ := performed
            exact .idle rfl (by simp [Event.data, readable])
              (by simp [Event.parseCall, readable])
        | closed | failed =>
            simp only [HttpConnection.handleRead, HttpConnection.handleError,
              Option.some.injEq, Prod.mk.injEq] at performed
            obtain ⟨rfl, rfl⟩ := performed
            exact .shut (HttpConnection.handleClose_state _) silent.handleClose
              (by simp [Event.parseCall, readable])
  · have noCall : event.parseCall connection = none := by
      unfold Event.parseCall
      dsimp only
      rw [closed]
      split <;> rfl
    cases readable : event.readable with
    | none =>
        simp only [readable, Option.some.injEq, Prod.mk.injEq] at performed
        obtain ⟨rfl, rfl⟩ := performed
        exact .shut closed quiet noCall
    | some outcome =>
        simp only [readable] at performed
        cases outcome with
        | bytes data =>
            simp only [HttpConnection.handleRead, closed, Option.some.injEq,
              Prod.mk.injEq] at performed
            obtain ⟨rfl, rfl⟩ := performed
            exact .shut rfl quiet noCall
        | again =>
            simp only [HttpConnection.handleRead, Option.some.injEq, Prod.mk.injEq] at performed
            obtain ⟨rfl, rfl⟩ := performed
            exact .shut closed quiet noCall
        | closed | failed =>
            simp only [HttpConnection.handleRead, HttpConnection.handleError,
              Option.some.injEq, Prod.mk.injEq] at performed
            obtain ⟨rfl, rfl⟩ := performed
            refine .shut (HttpConnection.handleClose_state _) (Silent.handleClose ?_) noCall
            intro _
            exact quiet

/-! ## Whole runs -/

/-- What holds of a link whose last delivered message ends at `boundary`. -/
structure Tracked (link : Link) (boundary : Nat) : Prop where
  framed : Framed link.received (deliveredStarts link.log) boundary
  within : boundary ≤ link.received.length
  phase : Phase link.received link.messageStart boundary link.connection
  final : RefusalsAreFinal link.log
  refused : ∀ report ∈ link.log, report.fate ≠ .delivered → link.connection.Over
  silent : Silent link.connection

/-- An event that adds nothing to the log. -/
theorem Tracked.unreported {link : Link} {boundary : Nat} (tracked : Tracked link boundary)
    (unread data : Bytes) {connection : HttpConnection} (start : Nat)
    (phase : Phase (link.received ++ data) start boundary connection)
    (silent : Silent connection)
    (stillOver : link.connection.Over → connection.Over) :
    Tracked { link with
      unread, received := link.received ++ data, connection, messageStart := start } boundary where
  framed := tracked.framed.append data
  within := by
    have within := tracked.within
    simp only [List.length_append]
    omega
  phase
  final := tracked.final
  refused report member isRefusal := stillOver (tracked.refused report member isRefusal)
  silent

/-- The event delivers the message at the boundary. -/
theorem Tracked.delivered {link : Link} {boundary length : Nat}
    (tracked : Tracked link boundary) (unread data : Bytes) {connection : HttpConnection}
    (notOver : ¬ link.connection.Over)
    (message : Message ((link.received ++ data).drop boundary) length)
    (within : boundary + length ≤ (link.received ++ data).length)
    (phase : Phase (link.received ++ data) boundary (boundary + length) connection)
    (silent : Silent connection) :
    Tracked { link with
        unread, received := link.received ++ data, connection, messageStart := boundary
        log := link.log ++ [⟨boundary, .delivered⟩] } (boundary + length) := by
  have none : ∀ report ∈ link.log, report.fate = .delivered := by
    intro report member
    by_contra refused
    exact notOver (tracked.refused report member refused)
  refine ⟨?_, within, phase, .delivered none, ?_, silent⟩
  · rw [deliveredStarts_append]
    exact .message (tracked.framed.append data) message
  · intro report member refused
    rcases List.mem_append.mp member with earlier | last
    · exact absurd (none report earlier) refused
    · rw [List.mem_singleton.mp last] at refused
      simp at refused

/-- The parser refuses the message at the boundary. -/
theorem Tracked.rejected {link : Link} {boundary : Nat} (tracked : Tracked link boundary)
    (unread data : Bytes) {connection : HttpConnection} (notOver : ¬ link.connection.Over)
    (isOver : connection.Over) (silent : Silent connection) :
    Tracked { link with
        unread, received := link.received ++ data, connection, messageStart := boundary
        log := link.log ++ [⟨boundary, .rejected⟩] } boundary := by
  have none : ∀ report ∈ link.log, report.fate = .delivered := by
    intro report member
    by_contra refused
    exact notOver (tracked.refused report member refused)
  have fresh : boundary ∉ deliveredStarts link.log := by
    intro member
    exact lt_irrefl _ (tracked.framed.start_lt boundary member)
  refine ⟨?_, ?_, .finished isOver, .rejected none fresh, fun _ _ _ => isOver, silent⟩
  · rw [deliveredStarts_append]
    simpa [deliveredStarts] using tracked.framed.append data
  · have within := tracked.within
    simp only [List.length_append]
    omega

/-- Inside a head or a body, the current message starts at the boundary. -/
theorem currentStart_eq {link : Link} {boundary : Nat} {consumed : Bytes}
    (within : boundary ≤ link.received.length)
    (state : link.connection.state = .READING_HEADERS)
    (reading : link.connection.parser.Reading consumed)
    (split : link.received.drop boundary = consumed ++ link.connection.inputBuffer)
    (started : link.connection.parser.state ≠ .REQUEST_LINE → link.messageStart = boundary) :
    link.currentStart = boundary := by
  unfold Link.currentStart
  cases reading with
  | requestLine atStart _ =>
      rw [if_pos ⟨state, atStart⟩]
      have sizes := congrArg List.length split
      rw [List.length_drop, List.nil_append] at sizes
      omega
  | headers _ _ inside _ _ _ =>
      rw [if_neg (by simp [inside])]
      exact started (by simp [inside])

theorem Phase.currentStart {link : Link} {boundary : Nat} (tracked : Tracked link boundary) :
    Phase link.received link.currentStart boundary link.connection := by
  cases tracked.phase with
  | head consumed state writing reading split started =>
      exact .head consumed state writing reading split fun _ =>
        currentStart_eq tracked.within state reading split started
  | body consumed length state writing message split counted unfinished atBoundary =>
      refine .body consumed length state writing message split counted unfinished ?_
      unfold Link.currentStart
      rw [if_neg (by simp [state])]
      exact atBoundary
  | answered responding input => exact .answered responding input
  | finished isOver => exact .finished isOver

/-- An event whose call of `Parse`, if any, refuses nothing. -/
theorem Link.reports_of_plain {link : Link} {event : Event} (delivered : Option HttpRequest)
    (accepted : ∀ call ∈ event.parseCall link.connection, call.1 ≠ .ERROR)
    (plain : ∀ call ∈ event.parseCall link.connection,
      call.1 = .HEADERS_COMPLETE → call.2.1.chunked = false) :
    link.reports event delivered =
      if delivered.isSome then [⟨link.currentStart, .delivered⟩] else [] := by
  unfold Link.reports
  cases made : event.parseCall link.connection with
  | none => rfl
  | some call =>
      obtain ⟨result, parser, buffer⟩ := call
      have notError := accepted (result, parser, buffer) (by simp [made])
      have notChunked := plain (result, parser, buffer) (by simp [made])
      cases result with
      | ERROR => exact absurd rfl notError
      | HEADERS_COMPLETE =>
          have plainHead : parser.chunked = false := notChunked rfl
          simp [plainHead]
      | NEED_MORE_DATA | BODY_DATA | MESSAGE_COMPLETE => rfl

theorem Link.reports_of_error {link : Link} {event : Event}
    {call : ParseResult × HttpParser × Bytes}
    (made : event.parseCall link.connection = some call) (error : call.1 = .ERROR) :
    link.reports event none = [⟨link.currentStart, .rejected⟩] := by
  obtain ⟨result, parser, buffer⟩ := call
  obtain rfl : result = .ERROR := error
  simp [Link.reports, made]

/-- The end of an event on which the read callback made progress. -/
theorem Tracked.progressed {link : Link} {boundary : Nat} (tracked : Tracked link boundary)
    {event : Event} (unread : Bytes) {middle : HttpConnection}
    {delivered : Option HttpRequest} (notOver : ¬ link.connection.Over)
    (atBoundary : link.currentStart = boundary) (unwritten : event.writable = none)
    (progress : Progress (link.received ++ event.data) link.currentStart boundary middle
      delivered)
    (silent : Silent middle)
    (refusal : ∀ call ∈ event.parseCall link.connection, call.1 = .ERROR →
      middle.Over ∧ delivered = none)
    (plain : ∀ call ∈ event.parseCall link.connection,
      call.1 = .HEADERS_COMPLETE → call.2.1.chunked = false) :
    ∃ boundary', Tracked { link with
        unread, received := link.received ++ event.data
        connection := (middle.handleWritable event).doPendingFunctors
        messageStart := link.currentStart
        log := link.log ++ link.reports event delivered } boundary' := by
  have unchanged : middle.handleWritable event = middle := by
    simp [HttpConnection.handleWritable, unwritten]
  rw [unchanged]
  by_cases errors : ∃ call ∈ event.parseCall link.connection, call.1 = .ERROR
  · obtain ⟨call, made, error⟩ := errors
    obtain ⟨isOver, rfl⟩ := refusal call made error
    rw [Link.reports_of_error made error, atBoundary]
    exact ⟨boundary, tracked.rejected unread event.data notOver (isOver.doPendingFunctors silent)
      silent.doPendingFunctors⟩
  · have accepted : ∀ call ∈ event.parseCall link.connection, call.1 ≠ .ERROR := by
      intro call made error
      exact errors ⟨call, made, error⟩
    rw [Link.reports_of_plain delivered accepted plain]
    cases progress with
    | waiting phase =>
        refine ⟨boundary, ?_⟩
        have quiet := tracked.unreported unread event.data link.currentStart
          (Phase.doPendingFunctors silent phase) silent.doPendingFunctors
          (fun isOver => absurd isOver notOver)
        simpa using quiet
    | delivered length request _ message within responding input =>
        refine ⟨boundary + length, ?_⟩
        rw [atBoundary]
        exact tracked.delivered unread event.data notOver message within
          (Phase.doPendingFunctors silent (.inr (.answered responding input)))
          silent.doPendingFunctors

/-- The end of an event that delivered and refused nothing. -/
theorem Tracked.quiet {link : Link} {boundary : Nat} (tracked : Tracked link boundary)
    {event : Event} (unread : Bytes) {middle : HttpConnection}
    (noCall : event.parseCall link.connection = none)
    (phase : Phase (link.received ++ event.data) link.currentStart boundary
      (middle.handleWritable event))
    (silent : Silent middle) (stillOver : link.connection.Over → middle.Over) :
    Tracked { link with
      unread, received := link.received ++ event.data
      connection := (middle.handleWritable event).doPendingFunctors
      messageStart := link.currentStart
      log := link.log ++ link.reports event none } boundary := by
  rw [Link.reports_of_plain none (by simp [noCall]) (by simp [noCall])]
  have unreported := tracked.unreported unread event.data link.currentStart
    (Phase.doPendingFunctors (silent.handleWritable event) (.inr phase))
    (silent.handleWritable event).doPendingFunctors
    (fun isOver => ((stillOver isOver).handleWritable event).doPendingFunctors
      (silent.handleWritable event))
  simpa using unreported

/-- Bytes arrive while the connection is inside a head. -/
theorem Tracked.read_head {library : JsonLibrary} {link : Link} {boundary : Nat}
    (tracked : Tracked link boundary) {event : Event} (unread : Bytes) {data consumed : Bytes}
    {middle : HttpConnection} {delivered : Option HttpRequest}
    (allowed : Link.RefusesToClose link (.event event))
    (notOver : ¬ link.connection.Over) (unwritten : event.writable = none)
    (dataEq : event.data = data)
    (made : event.parseCall link.connection =
      some (link.connection.parser.parse (link.connection.inputBuffer ++ data)))
    (state : link.connection.state = .READING_HEADERS)
    (writing : link.connection.writing = false)
    (reading : link.connection.parser.Reading consumed)
    (split : link.received.drop boundary = consumed ++ link.connection.inputBuffer)
    (atBoundary : link.currentStart = boundary)
    (performed : HttpConnection.processHeaders library event.callbacks { link.connection with
      inputBuffer := link.connection.inputBuffer ++ data } = some (middle, delivered)) :
    ∃ boundary', Tracked { link with
        unread, received := link.received ++ event.data
        connection := (middle.handleWritable event).doPendingFunctors
        messageStart := link.currentStart
        log := link.log ++ link.reports event delivered } boundary' := by
  obtain ⟨refusal, plain⟩ := allowed _ made
  have within : boundary ≤ (link.received ++ event.data).length := by
    have within := tracked.within
    rw [List.length_append]
    omega
  have splitAfter : (link.received ++ event.data).drop boundary =
      consumed ++ (link.connection.inputBuffer ++ data) := by
    rw [dataEq, List.drop_append_of_le_length tracked.within, split, List.append_assoc]
  obtain ⟨progress, error⟩ := Progress.of_processHeaders (by exact state) (by exact writing)
    (by exact reading) (by exact splitAfter) within atBoundary refusal plain performed
  refine tracked.progressed unread notOver atBoundary unwritten progress
    (.of_processHeaders (by exact reading) (by exact state) performed) ?_ ?_
  · intro call isCall
    obtain rfl := Option.some.inj (made.symm.trans isCall)
    exact error
  · intro call isCall
    obtain rfl := Option.some.inj (made.symm.trans isCall)
    exact plain

/-- An event that reads bytes. -/
theorem Tracked.read {library : JsonLibrary} {link : Link} {boundary : Nat}
    (tracked : Tracked link boundary) {event : Event} (unread : Bytes) {data : Bytes}
    {middle : HttpConnection} {delivered : Option HttpRequest}
    (allowed : Link.RefusesToClose link (.event event))
    (reading : link.connection.reading = true)
    (unwritten : link.connection.writing = false → event.writable = none)
    (readable : event.readable = some (.bytes data))
    (unchanged : link.connection.handleFailures event = link.connection)
    (performed : link.connection.handleRead library event.callbacks (.bytes data) =
      some (middle, delivered)) :
    ∃ boundary', Tracked { link with
        unread, received := link.received ++ event.data
        connection := (middle.handleWritable event).doPendingFunctors
        messageStart := link.currentStart
        log := link.log ++ link.reports event delivered } boundary' := by
  have dataEq : event.data = data := by simp [Event.data, readable]
  have dropped : (link.received ++ event.data).drop boundary =
      link.received.drop boundary ++ data := by
    rw [dataEq, List.drop_append_of_le_length tracked.within]
  have noCall : link.connection.state ≠ .READING_HEADERS →
      event.parseCall link.connection = none := by
    intro state
    simp [Event.parseCall, readable, unchanged, state]
  have notOver : ¬ link.connection.Responding → ¬ link.connection.Over := by
    rintro notResponding (silent | ⟨responding, -⟩)
    · simp [reading] at silent
    · exact notResponding responding
  cases tracked.phase with
  | head consumed state writing inHead split started =>
      have made : event.parseCall link.connection =
          some (link.connection.parser.parse (link.connection.inputBuffer ++ data)) := by
        simp [Event.parseCall, readable, unchanged, state]
      simp only [HttpConnection.handleRead, state] at performed
      exact tracked.read_head unread allowed
        (notOver (by simp [HttpConnection.Responding, state])) (unwritten writing) dataEq made
        state writing inHead split
        (currentStart_eq tracked.within state inHead split started)
        (by simpa only [state] using performed)
  | body consumed length state writing message split counted unfinished atBoundary =>
      have inBody : link.currentStart = boundary := by
        unfold Link.currentStart
        rw [if_neg (by simp [state])]
        exact atBoundary
      have none : event.parseCall link.connection = none := noCall (by simp [state])
      simp only [HttpConnection.handleRead, state] at performed
      refine tracked.progressed unread
        (notOver (by simp [HttpConnection.Responding, state])) inBody (unwritten writing) ?_
        (.of_processBody rfl performed) (by simp [none]) (by simp [none])
      refine Progress.of_processBody rfl (by exact writing) (by exact dropped ▸ message.append data)
        ?_ (by exact counted) (by exact unfinished) inBody performed
      rw [dropped, split, List.append_assoc]
  | answered responding input =>
      obtain ⟨rfl, rfl⟩ :=
          HttpConnection.handleRead_of_responding responding performed
      have notHeaders : link.connection.state ≠ .READING_HEADERS := by
        rcases responding with state | state <;> simp [state]
      refine ⟨boundary, tracked.quiet unread (noCall notHeaders)
        (Phase.answered_handleWritable (by exact responding) (by rw [dropped, input]) event)
        (.of_state responding.not_closed) ?_⟩
      · rintro (silent | ⟨-, notKept⟩)
        · exact .inl silent
        · exact .inr ⟨responding, notKept⟩
  | finished isOver =>
      rcases isOver with silent | ⟨responding, notKept⟩
      · simp [reading] at silent
      · obtain ⟨rfl, rfl⟩ :=
          HttpConnection.handleRead_of_responding responding performed
        have notHeaders : link.connection.state ≠ .READING_HEADERS := by
          rcases responding with state | state <;> simp [state]
        have isOver : HttpConnection.Over { link.connection with
            inputBuffer := link.connection.inputBuffer ++ data } :=
          .inr ⟨responding, notKept⟩
        exact ⟨boundary, tracked.quiet unread (noCall notHeaders)
          (.finished (isOver.handleWritable event)) (.of_state responding.not_closed)
          (fun _ => isOver)⟩

/-- An event that reads nothing, on a connection that was not shut. -/
theorem Tracked.idle {link : Link} {boundary : Nat} (tracked : Tracked link boundary)
    {event : Event} (unread : Bytes)
    (unwritten : link.connection.writing = false → event.writable = none)
    (noData : event.data = []) (noCall : event.parseCall link.connection = none) :
    Tracked { link with
      unread, received := link.received ++ event.data
      connection := (link.connection.handleWritable event).doPendingFunctors
      messageStart := link.currentStart
      log := link.log ++ link.reports event none } boundary := by
  refine tracked.quiet unread noCall ?_ tracked.silent id
  rw [noData, List.append_nil]
  have unchanged : link.connection.writing = false →
      link.connection.handleWritable event = link.connection := by
    intro writing
    simp [HttpConnection.handleWritable, unwritten writing]
  have phase := Phase.currentStart tracked
  cases phase with
  | head consumed state writing =>
      rw [unchanged writing]
      exact Phase.currentStart tracked
  | body consumed length state writing =>
      rw [unchanged writing]
      exact Phase.currentStart tracked
  | answered responding input => exact .answered_handleWritable responding input event
  | finished isOver => exact .finished (isOver.handleWritable event)

theorem Tracked.next {library : JsonLibrary} {link after : Link} {boundary : Nat}
    {action : LinkAction} (tracked : Tracked link boundary)
    (allowed : Link.RefusesToClose link action)
    (step : Link.next library link action = some after) :
    ∃ boundary', Tracked after boundary' := by
  cases action with
  | send length =>
      obtain rfl := Option.some.inj step
      exact ⟨boundary, tracked.framed, tracked.within, tracked.phase, tracked.final,
        tracked.refused, tracked.silent⟩
  | timeout =>
      obtain rfl := Option.some.inj step
      have isOver : link.connection.handleClose.Over := .handleClose tracked.silent
      exact ⟨boundary, tracked.framed, tracked.within, .finished isOver, tracked.final,
        fun _ _ _ => isOver, fun _ => tracked.silent.handleClose⟩
  | event event =>
      simp only [Link.next, HttpConnection.handleEvent] at step
      split at step
      · split at step
        · simp at step
        · rename_i enabled
          simp only [Option.map_map, Option.map_eq_some_iff] at step
          obtain ⟨⟨middle, delivered⟩, performed, rfl⟩ := step
          simp only [Bool.or_eq_true, Bool.and_eq_true, Option.isSome_iff_ne_none,
            Bool.not_eq_true', not_or, not_and, Bool.not_eq_false] at enabled
          have unwritten : link.connection.writing = false → event.writable = none := by
            intro writing
            by_contra writable
            simp [enabled.2 writable] at writing
          cases beforeWrite_began tracked.silent performed with
          | shut closed silent noCall =>
              have isOver : middle.Over := .inl silent
              exact ⟨boundary, tracked.quiet _ noCall (.finished (isOver.handleWritable event))
                (fun _ => silent) (fun _ => isOver)⟩
          | read data _ readable unchanged read =>
              exact tracked.read _ allowed (enabled.1 (by simp [readable])) unwritten readable
                unchanged read
          | idle same noData noCall =>
              subst same
              exact ⟨boundary, tracked.idle _ unwritten noData noCall⟩
      · contradiction

namespace Link

/-- In every run in which the parser refuses a message only on a connection that is to be
closed, and accepts no head with chunked encoding, delivered requests follow the
boundaries of the stream. -/
theorem boundaries_hold {library : JsonLibrary} {stream peerAddr : Bytes}
    {maxBodyBytes : Nat} {link : Link}
    (reachable : ReachableUnder (next library) RefusesToClose
      (initial stream peerAddr maxBodyBytes) link) :
    link.BoundariesHold := by
  obtain ⟨boundary, tracked⟩ : ∃ boundary, Tracked link boundary := by
    refine reachable.invariant (fun link => ∃ boundary, Tracked link boundary) ?_ ?_
    · refine ⟨0, .start, le_rfl, ?_, ⟨.nil, by simp [initial]⟩, by simp [initial], ?_⟩
      · exact .head [] rfl rfl (.requestLine rfl rfl) rfl fun _ => rfl
      · exact .of_state (by simp [initial, HttpConnection.initial])
    · rintro before action after ⟨boundary, tracked⟩ allowed step
      exact tracked.next allowed step
  exact ⟨⟨boundary, tracked.framed⟩, tracked.final⟩

/-- An upload of three bytes. -/
def smallUpload : WireRequest where
  line := ascii "PUT /buckets/b/objects/k HTTP/1.1"
  fields := [ascii "Content-Length: 3"]
  body := ascii "abc"

/-- A message that the parser refuses, from a client that does not keep the connection. -/
def refusedOnce : Bytes :=
  ascii "GET / HTTP/1.0\r\nbad\r\n\r\n"

/-- A library that prints the one error body this file needs. -/
def missingColonJson : JsonLibrary where
  parse := fun _ => none
  dump := fun _ => some (ascii ("\x7b\"error\":\x7b\"code\":\"BadRequest\"," ++
    "\"message\":\"Invalid header: missing colon\"\x7d\x7d"))

/-- An upload that is cut inside its body, a request without a body, and a refusal. -/
def threeMessages : List LinkAction :=
  let cut := smallUpload.bytes.length - 2
  let answer := [LinkAction.event (writeEvent 1000), .event (writeEvent 1000)]
  [.send 1000, .event (readEvent (smallUpload.bytes.take cut)),
    .event (readEvent (smallUpload.bytes.drop cut))] ++ answer ++
  [.event (readEvent healthCheck.bytes)] ++ answer ++
  [.event (readEvent refusedOnce)]

theorem boundaries_hold_threeMessages :
    ∃ link, ReachableUnder (next missingColonJson) RefusesToClose
        (initial (smallUpload.bytes ++ healthCheck.bytes ++ refusedOnce) [] 10) link ∧
      link.log = [⟨0, .delivered⟩, ⟨smallUpload.bytes.length, .delivered⟩,
        ⟨smallUpload.bytes.length + healthCheck.bytes.length, .rejected⟩] ∧
      link.BoundariesHold := by
  have performed : (run (fun link action =>
      if refusesToClose link action then next missingColonJson link action else none)
      (initial (smallUpload.bytes ++ healthCheck.bytes ++ refusedOnce) [] 10)
      threeMessages).any (fun link =>
        link.log == [⟨0, .delivered⟩, ⟨smallUpload.bytes.length, .delivered⟩,
          ⟨smallUpload.bytes.length + healthCheck.bytes.length, .rejected⟩]) = true := by
    decide +kernel
  obtain ⟨link, reachable, final⟩ :=
    exists_reachableUnder_of_run _ (fun _ _ => RefusesToClose.of_check) _ performed
  exact ⟨link, reachable, by simpa using final, boundaries_hold reachable⟩

/-- A message whose second line is itself a request, and one more byte. -/
def smuggled : Bytes :=
  ascii "GET / HTTP/1.1\r\nGET /metrics HTTP/1.1\r\n\r\n"

/-- The refusal is answered, the connection stays open, and the next read parses the line
that was refused. -/
def smuggling : List LinkAction :=
  [.send 1000, .event (readEvent smuggled), .event (writeEvent 1000),
    .event (writeEvent 1000), .event (readEvent (ascii "x"))]

/-- The rest of a refused message is delivered as a request. -/
theorem refused_message_is_delivered :
    ∃ link, Reachable (next missingColonJson) (initial (smuggled ++ ascii "x") [] 10) link ∧
      link.log = [⟨0, .rejected⟩, ⟨16, .delivered⟩] ∧ ¬ link.BoundariesHold := by
  have performed : (run (next missingColonJson) (initial (smuggled ++ ascii "x") [] 10)
      smuggling).any (fun link =>
        link.log == [⟨0, .rejected⟩, ⟨16, .delivered⟩]) = true := by
    decide +kernel
  obtain ⟨link, reachable, final⟩ := exists_reachable_of_run _ performed
  have log : link.log = [⟨0, .rejected⟩, ⟨16, .delivered⟩] := by simpa using final
  refine ⟨link, reachable, log, ?_⟩
  rintro ⟨-, refusals⟩
  have later := refusals.later
  rw [log] at later
  simp at later

end Link

end MiniS3.Net
