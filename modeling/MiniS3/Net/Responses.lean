import MiniS3.Net.Link

/-!
# One response for each request

A connection appends a response in four places: the parser has refused a message, the message
is too large, the storage fails on a piece of its body, or the request callback has answered
it.  After the third the connection goes on with the body, and when the bytes that were refused
are its last, it delivers the request all the same, and appends a second response to the first.
-/

namespace MiniS3.Net.HttpConnection

open Lib.Transition

/-- A message that nothing has happened to, or one that was dealt with in one way and has one
response, before which everything was sent. -/
def Answered (block : List Happening) : Prop :=
  block = [] ∨ block = [.delivered, .response false] ∨ block = [.rejected, .response false] ∨
    block = [.tooLarge, .response false] ∨ block = [.failed, .response false]

instance (block : List Happening) : Decidable (Answered block) :=
  inferInstanceAs (Decidable (_ ∨ _))

/-- Each message has its response, and each response its message. -/
def OneResponseEach (connection : HttpConnection) : Prop :=
  ∀ block ∈ connection.log, Answered block

/-- What happens on a connection: an event of its channel, or the idle timeout, whose
`ForceClose` runs between two events. -/
inductive ServerAction
  | event (event : Event)
  | timeout

def serve (library : JsonLibrary) : Step HttpConnection ServerAction
  | connection, .event event => (connection.handleEvent library event).map Prod.fst
  | connection, .timeout => some connection.handleClose

/-! ## The defect -/

/-- The body callback sends an error response. -/
def BodyOutcome.isFailed : BodyOutcome → Bool
  | .failed _ => true
  | _ => false

/-- The bytes in the input buffer complete the body that the connection reads. -/
def completesBody (connection : HttpConnection) : Bool :=
  match connection.state with
  | .READING_BODY_STREAM =>
      decide (connection.parser.remainingBodyLength ≤ connection.inputBuffer.length)
  | .READING_HEADERS =>
      match connection.parser.parse connection.inputBuffer with
      | (.HEADERS_COMPLETE, parser, buffer) =>
          decide (parser.contentLength ≤ connection.maxBodyBytes) && !buffer.isEmpty &&
            decide (parser.remainingBodyLength ≤ buffer.length)
      | _ => false
  | _ => false

/-- The storage fails on the bytes that complete a body. -/
def failsAtTheEnd (connection : HttpConnection) : ServerAction → Bool
  | .event event =>
      match event.readable with
      | some (.bytes data) =>
          BodyOutcome.isFailed event.callbacks.bodyData && !event.hangup && !event.error &&
            ({ connection with inputBuffer := connection.inputBuffer ++ data }).completesBody
      | _ => false
  | .timeout => false

/-! ## The invariant -/

/-- The connection waits for the rest of a message; everything before it was sent. -/
structure Waiting (connection : HttpConnection) : Prop where
  state : connection.state = .READING_HEADERS ∨ connection.state = .READING_BODY_STREAM
  log : connection.log.headD [] = []
  earlier : ∀ block ∈ connection.log.tail, Answered block
  sent : connection.outputBuffer = []
  noFile : connection.fileRemaining = 0
  reading : connection.reading = true
  writing : connection.writing = false

/-- The connection writes the response to its message. -/
structure Writing (connection : HttpConnection) : Prop where
  state : connection.Responding
  log : connection.OneResponseEach
  noFile : connection.state = .WRITING_RESPONSE → connection.fileRemaining = 0
  reading : connection.reading = true

/-- The connection does not read any more. -/
structure Deaf (connection : HttpConnection) : Prop where
  log : connection.OneResponseEach
  reading : connection.reading = false

/-- What an orderly run keeps. -/
inductive Orderly (connection : HttpConnection) : Prop
  | waiting : connection.Waiting → Orderly connection
  | writing : connection.Writing → Orderly connection
  | deaf : connection.Deaf → Orderly connection

section

variable {library : JsonLibrary} {connection after : HttpConnection}

theorem Waiting.oneResponseEach (waiting : connection.Waiting) : connection.OneResponseEach := by
  intro block member
  cases log : connection.log with
  | nil =>
      rw [log] at member
      cases member
  | cons current earlier =>
      have head := waiting.log
      have rest := waiting.earlier
      rw [log] at member head rest
      rcases List.mem_cons.mp member with rfl | before
      · exact .inl head
      · exact rest block before

theorem Waiting.isOpen (waiting : connection.Waiting) : connection.state ≠ .CLOSED := by
  rcases waiting.state with state | state
  · simp [state]
  · simp [state]

theorem Waiting.nothingUnsent (waiting : connection.Waiting) : connection.hasUnsent = false := by
  simp [hasUnsent, waiting.sent, waiting.noFile]

theorem Orderly.oneResponseEach (orderly : connection.Orderly) : connection.OneResponseEach := by
  cases orderly with
  | waiting waiting => exact waiting.oneResponseEach
  | writing writing => exact writing.log
  | deaf deaf => exact deaf.log

/-! ## Sending -/

/-- What `Send` does to the log, and when a file is left to send. -/
theorem send_log {file : OpenOutcome} {response : HttpResponse}
    (isOpen : connection.state ≠ .CLOSED)
    (sent : send library file response connection = some after) :
    after.log = (connection.log.headD [] ++ [.response connection.hasUnsent]) ::
        connection.log.tail ∧
      (after.state = .WRITING_RESPONSE → after.fileRemaining = connection.fileRemaining) := by
  unfold send at sent
  rw [if_neg isOpen] at sent
  split at sent
  · cases file with
    | opened =>
        cases sent
        exact ⟨rfl, fun state => by cases state⟩
    | missing | failed =>
        rcases Option.map_eq_some_iff.mp sent with ⟨error, -, rfl⟩
        exact ⟨rfl, fun _ => rfl⟩
  · cases sent
    exact ⟨rfl, fun _ => rfl⟩

/-- The response to a message that was dealt with in one way. -/
theorem Waiting.send {file : OpenOutcome} {response : HttpResponse} {cause : Happening}
    (waiting : connection.Waiting) (once : Answered [cause, .response false])
    (sent : send library file response (connection.record cause) = some after) :
    after.Writing := by
  have isOpen : (connection.record cause).state ≠ .CLOSED := waiting.isOpen
  rcases send_spec sent isOpen with ⟨-, responding, reading, -⟩
  rcases send_log isOpen sent with ⟨log, noFile⟩
  refine ⟨responding, ?_, fun state => (noFile state).trans waiting.noFile,
    reading.trans waiting.reading⟩
  have unsent : (connection.record cause).hasUnsent = false := waiting.nothingUnsent
  have current : (connection.record cause).log.headD [] = [cause] := by
    change connection.log.headD [] ++ [cause] = [cause]
    rw [waiting.log, List.nil_append]
  intro block member
  rw [log, unsent, current] at member
  rcases List.mem_cons.mp member with rfl | before
  · exact once
  · exact waiting.earlier block before

theorem deliver_log {callbacks : Callbacks} {delivered : Option HttpRequest}
    (isOpen : connection.state ≠ .CLOSED)
    (performed : deliver library callbacks connection = some (after, delivered)) :
    after.log = (connection.log.headD [] ++ [.delivered] ++ [.response connection.hasUnsent]) ::
      connection.log.tail := by
  rcases Option.map_eq_some_iff.mp performed with ⟨sentTo, sent, equal⟩
  cases equal
  exact (send_log (by exact isOpen) sent).1

theorem Waiting.deliver {callbacks : Callbacks} {delivered : Option HttpRequest}
    (waiting : connection.Waiting)
    (performed : deliver library callbacks connection = some (after, delivered)) :
    after.Writing := by
  rcases Option.map_eq_some_iff.mp performed with ⟨sentTo, sent, equal⟩
  cases equal
  refine Waiting.send ?_ (by decide) sent
  exact ⟨waiting.state, waiting.log, waiting.earlier, waiting.sent, waiting.noFile,
    waiting.reading, waiting.writing⟩

/-- The body callback answers the message, or leaves it as it was. -/
theorem Waiting.bodyData {callbacks : Callbacks} {data : Bytes} (waiting : connection.Waiting)
    (performed : bodyData library callbacks data connection = some after) :
    if BodyOutcome.isFailed callbacks.bodyData then
      after.Writing ∧ after.log.headD [] = [.failed, .response false]
    else after.Waiting := by
  have called : (connection.call (.bodyData data)).Waiting :=
    ⟨waiting.state, waiting.log, waiting.earlier, waiting.sent, waiting.noFile, waiting.reading,
      waiting.writing⟩
  unfold HttpConnection.bodyData at performed
  split at performed
  · rename_i kept
    cases performed
    rw [kept]
    exact called
  · rename_i appended
    cases performed
    rw [appended]
    exact ⟨waiting.state, waiting.log, waiting.earlier, waiting.sent, waiting.noFile,
      waiting.reading, waiting.writing⟩
  · rename_i response failed
    rcases Option.map_eq_some_iff.mp performed with ⟨sentTo, sent, rfl⟩
    rw [failed]
    have isOpen : ((connection.call (.bodyData data)).record .failed).state ≠ .CLOSED :=
      waiting.isOpen
    have writing := called.send (by decide) sent
    refine ⟨⟨writing.state, writing.log, writing.noFile, writing.reading⟩, ?_⟩
    have unsent : ((connection.call (.bodyData data)).record .failed).hasUnsent = false :=
      waiting.nothingUnsent
    change sentTo.log.headD [] = _
    rw [(send_log isOpen sent).1, unsent]
    change connection.log.headD [] ++ [.failed] ++ [.response false] = _
    rw [waiting.log]
    rfl

/-- A message that was answered has a second response. -/
def AnsweredTwice (connection : HttpConnection) : Prop :=
  ∃ unsent, [.failed, .response false, .delivered, .response unsent] ∈ connection.log

/-- What is reached, with the storage failing at the end of a body, or without. -/
def Reached : Bool → HttpConnection → Prop
  | true, connection => connection.AnsweredTwice
  | false, connection => connection.Orderly

/-! ## Reading -/

/-- The pieces of a body: all is in order, unless the storage fails on the last. -/
theorem Waiting.processBody {callbacks : Callbacks} {delivered : Option HttpRequest}
    (waiting : connection.Waiting)
    (performed : processBody library callbacks connection = some (after, delivered)) :
    Reached (BodyOutcome.isFailed callbacks.bodyData && decide
      (connection.parser.remainingBodyLength ≤ connection.inputBuffer.length)) after := by
  rcases Option.bind_eq_some_iff.mp performed with ⟨passed, bodyPassed, performed⟩
  have remaining := (bodyData_spec bodyPassed waiting.isOpen).2.1
  have outcome := waiting.bodyData bodyPassed
  have complete : ∀ parser : HttpParser,
      parser.remainingBodyLength = connection.parser.remainingBodyLength →
      ((parser.consumeBody (min connection.inputBuffer.length
        connection.parser.remainingBodyLength)).1 = true ↔
          connection.parser.remainingBodyLength ≤ connection.inputBuffer.length) := by
    intro parser same
    simp only [HttpParser.consumeBody, same]
    split
    · rename_i fits
      simp only [true_iff]
      omega
    · rename_i short
      simp only [Bool.false_eq_true, false_iff]
      omega
  dsimp only at performed
  cases failed : BodyOutcome.isFailed callbacks.bodyData with
  | true =>
      rw [failed, if_pos rfl] at outcome
      rcases outcome with ⟨writing, log⟩
      have isOpen : passed.state ≠ .CLOSED := by
        rcases writing.state with state | state
        · simp [state]
        · simp [state]
      split at performed
      · rename_i finished
        rw [decide_eq_true ((complete _ remaining).mp finished)]
        have twice := deliver_log (by exact isOpen) performed
        change after.log = (passed.log.headD [] ++ [.delivered] ++ [.response passed.hasUnsent]) ::
          passed.log.tail at twice
        rw [log] at twice
        exact ⟨passed.hasUnsent, twice ▸ List.mem_cons_self⟩
      · rename_i unfinished
        cases performed
        rw [decide_eq_false (mt (complete _ remaining).mpr unfinished)]
        exact .writing ⟨writing.state, writing.log, writing.noFile, writing.reading⟩
  | false =>
      rw [failed, if_neg Bool.false_ne_true] at outcome
      have still : ∀ parser buffer, ({ passed with
          parser := parser, inputBuffer := buffer }).Waiting := fun _ _ =>
        ⟨outcome.state, outcome.log, outcome.earlier, outcome.sent, outcome.noFile,
          outcome.reading, outcome.writing⟩
      split at performed
      · exact .writing ((still _ _).deliver performed)
      · cases performed
        exact .waiting (still _ _)

theorem Waiting.processHeaders {callbacks : Callbacks} {delivered : Option HttpRequest}
    (waiting : connection.Waiting) (state : connection.state = .READING_HEADERS)
    (performed : processHeaders library callbacks connection = some (after, delivered)) :
    Reached (BodyOutcome.isFailed callbacks.bodyData && connection.completesBody) after := by
  unfold HttpConnection.processHeaders at performed
  rw [completesBody, state]
  rcases parsed : connection.parser.parse connection.inputBuffer with ⟨result, parser, buffer⟩
  rw [parsed] at performed
  have still : ∀ parser buffer, ({ connection with
      parser := parser, inputBuffer := buffer }).Waiting := fun _ _ =>
    ⟨waiting.state, waiting.log, waiting.earlier, waiting.sent, waiting.noFile,
      waiting.reading, waiting.writing⟩
  cases result with
  | NEED_MORE_DATA | BODY_DATA =>
      cases performed
      rw [Bool.and_false]
      exact .waiting (still _ _)
  | HEADERS_COMPLETE =>
      dsimp only at performed ⊢
      split at performed
      · rename_i large
        rcases Option.bind_eq_some_iff.mp performed with ⟨response, -, performed⟩
        rcases Option.map_eq_some_iff.mp performed with ⟨sentTo, sent, equal⟩
        cases equal
        rw [decide_eq_false (not_le.mpr large), Bool.false_and, Bool.false_and, Bool.and_false]
        exact .writing ((still _ _).send (by decide) sent)
      · rename_i fits
        rw [decide_eq_true (not_lt.mp fits), Bool.true_and]
        have streaming : ({ connection with
            parser := parser, inputBuffer := buffer, state := .READING_BODY_STREAM }).Waiting :=
          ⟨.inr rfl, waiting.log, waiting.earlier, waiting.sent, waiting.noFile,
            waiting.reading, waiting.writing⟩
        split at performed
        · rename_i drained
          cases performed
          rw [drained, Bool.not_true, Bool.false_and, Bool.and_false]
          exact .waiting streaming
        · rename_i nonempty
          rw [Bool.not_eq_true] at nonempty
          rw [nonempty, Bool.not_false, Bool.true_and]
          exact streaming.processBody performed
  | MESSAGE_COMPLETE =>
      rw [Bool.and_false]
      exact .writing ((still _ _).deliver performed)
  | ERROR =>
      rcases Option.bind_eq_some_iff.mp performed with ⟨response, -, performed⟩
      rcases Option.map_eq_some_iff.mp performed with ⟨sentTo, sent, equal⟩
      cases equal
      rw [Bool.and_false]
      exact .writing ((still _ _).send (by decide) sent)

theorem Waiting.read {callbacks : Callbacks} {data : Bytes} {delivered : Option HttpRequest}
    (waiting : connection.Waiting)
    (performed : handleRead library callbacks (.bytes data) connection =
      some (after, delivered)) :
    Reached (BodyOutcome.isFailed callbacks.bodyData &&
      ({ connection with inputBuffer := connection.inputBuffer ++ data }).completesBody)
      after := by
  have still : ({ connection with inputBuffer := connection.inputBuffer ++ data }).Waiting :=
    ⟨waiting.state, waiting.log, waiting.earlier, waiting.sent, waiting.noFile,
      waiting.reading, waiting.writing⟩
  simp only [HttpConnection.handleRead] at performed
  split at performed
  · rename_i state
    exact still.processHeaders state performed
  · rename_i state
    rw [completesBody, state]
    exact still.processBody performed
  · rename_i notHeaders notBody
    exact absurd waiting.state (not_or.mpr ⟨notHeaders, notBody⟩)

/-! ## Writing and closing -/

theorem log_handleClose : connection.handleClose.log = connection.log := by
  rcases connection.handleClose_cases with ⟨-, unchanged⟩ | closes
  · rw [unchanged]
  · rw [closes]

/-- A connection that is closed does not read. -/
theorem Orderly.handleClose (orderly : connection.Orderly) : connection.handleClose.Orderly := by
  have log : connection.handleClose.OneResponseEach := by
    intro block member
    rw [log_handleClose] at member
    exact orderly.oneResponseEach block member
  rcases connection.handleClose_cases with ⟨-, unchanged⟩ | closes
  · rw [unchanged]
    exact orderly
  · exact .deaf ⟨log, by rw [closes]⟩

theorem Deaf.handleClose (deaf : connection.Deaf) : connection.handleClose.Deaf := by
  refine ⟨?_, ?_⟩
  · intro block member
    rw [log_handleClose] at member
    exact deaf.log block member
  · rcases connection.handleClose_cases with ⟨-, unchanged⟩ | closes
    · rw [unchanged, deaf.reading]
    · rw [closes]

/-- The last byte has left: the next message begins, or the connection is closed. -/
theorem Writing.finishResponse (writing : connection.Writing) (sent : connection.outputBuffer = [])
    (noFile : connection.fileRemaining = 0) : connection.finishResponse.Orderly := by
  unfold HttpConnection.finishResponse
  dsimp only
  split
  · exact .waiting ⟨.inl rfl, rfl, writing.log, sent, noFile, writing.reading, rfl⟩
  · have stopped : ({ connection with writing := false }.updateChannel).Orderly :=
      .writing ⟨writing.state, writing.log, writing.noFile, writing.reading⟩
    exact stopped.handleClose

theorem Writing.handleWrite (writing : connection.Writing)
    (outcome : WriteOutcome × WriteOutcome) : (connection.handleWrite outcome).Orderly := by
  refine handleWrite_rule Writing Orderly ?_ ?_ ?_ ?_ ?_ writing outcome
  · intro before _ writing
    exact ⟨writing.state, writing.log, writing.noFile, writing.reading⟩
  · intro before _ _ writing sendingFile
    refine ⟨writing.state, writing.log, fun state => ?_, writing.reading⟩
    rw [sendingFile] at state
    cases state
  · intro before writing
    exact .writing writing
  · intro before writing
    exact Orderly.handleClose (.writing writing)
  · intro before writing sent noFile
    refine writing.finishResponse sent ?_
    rcases writing.state with state | state
    · exact writing.noFile state
    · exact noFile state

theorem Deaf.finishResponse (deaf : connection.Deaf) : connection.finishResponse.Deaf := by
  unfold HttpConnection.finishResponse
  dsimp only
  split
  · refine ⟨fun block member => ?_, deaf.reading⟩
    rcases List.mem_cons.mp member with rfl | before
    · exact .inl rfl
    · exact deaf.log block before
  · refine Deaf.handleClose ?_
    exact ⟨deaf.log, deaf.reading⟩

theorem Deaf.handleWrite (deaf : connection.Deaf) (outcome : WriteOutcome × WriteOutcome) :
    (connection.handleWrite outcome).Deaf := by
  refine handleWrite_rule Deaf Deaf ?_ ?_ ?_ ?_ ?_ deaf outcome
  · intro before _ deaf
    exact ⟨deaf.log, deaf.reading⟩
  · intro before _ _ deaf _
    exact ⟨deaf.log, deaf.reading⟩
  · intro before deaf
    exact deaf
  · intro before deaf
    exact deaf.handleClose
  · intro before deaf _ _
    exact deaf.finishResponse

/-! ## Events and runs -/

/-- The close and error callbacks. -/
theorem handleFailures_cases (event : Event) (connection : HttpConnection) :
    (event.hangup = false ∧ event.error = false ∧ connection.handleFailures event = connection) ∨
      ((event.hangup = true ∨ event.error = true) ∧
        connection.handleFailures event = connection.handleClose) := by
  have again : connection.handleClose.handleClose = connection.handleClose :=
    if_pos connection.handleClose_state
  unfold handleFailures handleError
  cases hangup : event.hangup with
  | true =>
      cases error : event.error with
      | true => exact .inr ⟨.inl rfl, again⟩
      | false => exact .inr ⟨.inl rfl, rfl⟩
  | false =>
      cases error : event.error with
      | true => exact .inr ⟨.inr rfl, rfl⟩
      | false => exact .inl ⟨rfl, rfl, rfl⟩

/-- A read sends nothing where no message is waited for. -/
theorem Orderly.read {callbacks : Callbacks} {outcome : ReadOutcome}
    {delivered : Option HttpRequest} (orderly : connection.Orderly)
    (busy : ∀ data, outcome = .bytes data → connection.Responding ∨ connection.state = .CLOSED)
    (performed : handleRead library callbacks outcome connection = some (after, delivered)) :
    after.Orderly ∧ (after.Waiting → connection.Waiting) := by
  cases outcome with
  | bytes data =>
      have kept : after = { connection with inputBuffer := connection.inputBuffer ++ data } := by
        rcases busy data rfl with responding | closed
        · exact (handleRead_of_responding responding performed).1
        · simp only [HttpConnection.handleRead] at performed
          split at performed
          · rename_i state
            rw [closed] at state
            cases state
          · rename_i state
            rw [closed] at state
            cases state
          · cases performed
            rfl
      subst kept
      refine ⟨?_, fun waiting => ⟨waiting.state, waiting.log, waiting.earlier, waiting.sent,
        waiting.noFile, waiting.reading, waiting.writing⟩⟩
      cases orderly with
      | waiting waiting =>
          exact .waiting ⟨waiting.state, waiting.log, waiting.earlier, waiting.sent,
            waiting.noFile, waiting.reading, waiting.writing⟩
      | writing writing =>
          exact .writing ⟨writing.state, writing.log, writing.noFile, writing.reading⟩
      | deaf deaf => exact .deaf ⟨deaf.log, deaf.reading⟩
  | closed | failed =>
      cases performed
      exact ⟨orderly.handleClose, fun waiting => absurd (handleClose_state _) waiting.isOpen⟩
  | again =>
      cases performed
      exact ⟨orderly, id⟩

theorem Responding.not_completesBody (responding : connection.Responding) (buffer : Bytes) :
    ({ connection with inputBuffer := buffer }).completesBody = false := by
  rcases responding with state | state
  · simp [completesBody, state]
  · simp [completesBody, state]

/-- The callbacks of an event before the write callback. -/
theorem Orderly.beforeWrite {event : Event} {delivered : Option HttpRequest}
    (orderly : connection.Orderly) (reads : event.readable.isSome = true → connection.reading = true)
    (performed : beforeWrite library event connection = some (after, delivered)) :
    Reached (connection.failsAtTheEnd (.event event)) after ∧
      (after.Waiting ∨ connection.failsAtTheEnd (.event event) = true → connection.Waiting) := by
  unfold HttpConnection.beforeWrite at performed
  dsimp only at performed
  rcases handleFailures_cases event connection with
    ⟨noHangup, noError, unchanged⟩ | ⟨failed, closes⟩
  · rw [unchanged] at performed
    cases readable : event.readable with
    | none =>
        have spared : connection.failsAtTheEnd (.event event) = false := by
          simp [failsAtTheEnd, readable]
        rw [readable] at performed
        cases performed
        rw [spared]
        exact ⟨orderly, fun waiting => waiting.resolve_right Bool.false_ne_true⟩
    | some outcome =>
        rw [readable] at performed reads
        by_cases waits : connection.Waiting ∧ ∃ data, outcome = .bytes data
        · rcases waits with ⟨waiting, data, rfl⟩
          have fails : connection.failsAtTheEnd (.event event) =
              (BodyOutcome.isFailed event.callbacks.bodyData &&
                ({ connection with
                  inputBuffer := connection.inputBuffer ++ data }).completesBody) := by
            simp [failsAtTheEnd, readable, noHangup, noError]
          rw [fails]
          exact ⟨waiting.read performed, fun _ => waiting⟩
        · have responds : ∀ data, outcome = .bytes data → connection.Responding := by
            intro data bytes
            cases orderly with
            | waiting waiting => exact absurd ⟨waiting, data, bytes⟩ waits
            | writing writing => exact writing.state
            | deaf deaf =>
                have contradictory := (reads rfl).symm.trans deaf.reading
                cases contradictory
          have spared : connection.failsAtTheEnd (.event event) = false := by
            cases outcome with
            | bytes data =>
                simp only [failsAtTheEnd, readable]
                rw [(responds data rfl).not_completesBody, Bool.and_false]
            | closed | again | failed => simp [failsAtTheEnd, readable]
          rcases orderly.read (fun data bytes => .inl (responds data bytes)) performed with
            ⟨kept, same⟩
          rw [spared]
          exact ⟨kept, fun waiting => same (waiting.resolve_right Bool.false_ne_true)⟩
  · have spared : connection.failsAtTheEnd (.event event) = false := by
      simp only [failsAtTheEnd]
      split
      · rcases failed with hangup | error
        · simp [hangup]
        · simp [error]
      · rfl
    rw [closes] at performed
    have closed : after.Orderly ∧ (after.Waiting → connection.handleClose.Waiting) := by
      split at performed
      · exact orderly.handleClose.read (fun _ _ => .inr connection.handleClose_state) performed
      · cases performed
        exact ⟨orderly.handleClose, id⟩
    rw [spared]
    refine ⟨closed.1, fun waiting => ?_⟩
    exact absurd connection.handleClose_state
      (closed.2 (waiting.resolve_right Bool.false_ne_true)).isOpen

theorem AnsweredTwice.handleClose (twice : connection.AnsweredTwice) :
    connection.handleClose.AnsweredTwice := by
  rcases twice with ⟨unsent, member⟩
  refine ⟨unsent, ?_⟩
  rw [log_handleClose]
  exact member

/-- One action: all is in order after it, unless the storage fails at the end of a body. -/
theorem Orderly.serve {action : ServerAction} (orderly : connection.Orderly)
    (step : serve library connection action = some after) :
    Reached (connection.failsAtTheEnd action) after := by
  cases action with
  | timeout =>
      cases step
      exact orderly.handleClose
  | event event =>
      rcases Option.map_eq_some_iff.mp step with ⟨⟨result, delivered⟩, handled, rfl⟩
      unfold handleEvent at handled
      split at handled
      · cases handled
      rename_i asked
      simp only [Bool.or_eq_true, Bool.and_eq_true, Bool.not_eq_true', not_or, not_and,
        Bool.not_eq_false] at asked
      rcases Option.map_eq_some_iff.mp handled with ⟨⟨middle, request⟩, performed, equal⟩
      cases equal
      rcases orderly.beforeWrite asked.1 performed with ⟨reached, waited⟩
      change Reached _ (middle.handleWritable event).doPendingFunctors
      -- A connection that waits for bytes is not registered for writing.
      have unwritten : connection.Waiting → middle.handleWritable event = middle := by
        intro waiting
        unfold handleWritable
        split
        · rename_i outcome writable
          have registered := asked.2 (by rw [writable]; rfl)
          rw [waiting.writing] at registered
          cases registered
        · rfl
      cases fails : connection.failsAtTheEnd (.event event) with
      | true =>
          rw [fails] at reached
          rw [unwritten (waited (.inr fails))]
          unfold doPendingFunctors
          split
          · exact reached.handleClose
          · exact reached
      | false =>
          rw [fails] at reached
          have written : (middle.handleWritable event).Orderly := by
            cases reached with
            | waiting waiting =>
                rw [unwritten (waited (.inl waiting))]
                exact .waiting waiting
            | writing writing =>
                unfold handleWritable
                split
                · exact writing.handleWrite _
                · exact .writing writing
            | deaf deaf =>
                unfold handleWritable
                split
                · exact .deaf (deaf.handleWrite _)
                · exact .deaf deaf
          unfold doPendingFunctors
          split
          · exact written.handleClose
          · exact written

end

/-- An upload of two bytes. -/
def upload : Link.WireRequest where
  line := ascii "PUT /buckets/b/objects/o HTTP/1.1"
  fields := [ascii "Content-Length: 2"]
  body := ascii "hi"

end MiniS3.Net.HttpConnection
