import MiniS3.Net.HttpParser
import MiniS3.Net.HttpResponse

/-!
# HTTP connections

The connection reads the socket into its input buffer, drives the parser, hands
body bytes and complete requests to the server, and writes the responses that the
server sends.  All of this runs on the thread of one event loop.

Everything outside the connection is chosen by the event: what `readv`, `write`,
`sendfile` and `open` return, and what the server's callbacks do.  A function is
undefined where the source lets an exception escape, which ends the process.
-/

namespace MiniS3.Net

/-- `ConnectionState`; the source never enters `PROCESSING`. -/
inductive ConnectionState
  | READING_HEADERS
  | READING_BODY_STREAM
  | WRITING_RESPONSE
  | SENDING_FILE
  | CLOSED
  deriving DecidableEq

/-- What happens to a message: it is delivered to the request callback, refused by the
parser, for its size or by the storage, or a response is appended to the output buffer,
perhaps while an earlier one has unsent bytes. -/
inductive Happening
  | delivered
  | rejected
  | tooLarge
  | failed
  | response (unsent : Bool)
  deriving DecidableEq

/-- A call of the body callback or of the request callback, with what it is given. -/
inductive CallbackCall
  | bodyData (data : Bytes)
  | request (request : HttpRequest)

/-- The fields of `HttpConnection`.  `reading` and `writing` are the events its channel
asks for, `registered` tells whether the channel is in `epoll`, and `closing` is a queued
`ForceClose`.  `closeCalls` counts the calls of the close callback, `callbackCalls` has the calls
of the other two in order, and `log` what happened to each message, the current one first. -/
structure HttpConnection where
  state : ConnectionState
  parser : HttpParser
  inputBuffer : Bytes
  outputBuffer : Bytes
  fileOffset : Nat
  fileRemaining : Nat
  peerAddr : Bytes
  maxBodyBytes : Nat
  reading : Bool
  writing : Bool
  registered : Bool
  closing : Bool
  closeCalls : Nat
  callbackCalls : List CallbackCall
  log : List (List Happening)

/-- What `open` on the file of a response returns. -/
inductive OpenOutcome
  | opened
  | missing
  | failed

/-- What the body callback does: nothing to the connection, append the bytes to the
request, or send an error response and force the connection to close. -/
inductive BodyOutcome
  | kept
  | appended
  | failed (response : HttpResponse)

/-- What the server's callbacks do during one event.  The request callback may fill in
the request, and sends one response. -/
structure Callbacks where
  bodyData : BodyOutcome
  request : HttpRequest → HttpRequest × HttpResponse
  file : OpenOutcome

/-- What `readv` returns. -/
inductive ReadOutcome
  | bytes (data : Bytes)
  | closed
  | again
  | failed

/-- What `write` or `sendfile` returns. -/
inductive WriteOutcome
  | count (length : Nat)
  | again
  | failed

/-- One `epoll` event on the connection.  `hangup` is `EPOLLHUP` without `EPOLLIN`. -/
structure Event where
  hangup : Bool
  error : Bool
  readable : Option ReadOutcome
  writable : Option (WriteOutcome × WriteOutcome)
  callbacks : Callbacks

namespace HttpConnection

/-- A connection after `Start`. -/
def initial (peerAddr : Bytes) (maxBodyBytes : Nat) : HttpConnection where
  state := .READING_HEADERS
  parser := .initial
  inputBuffer := []
  outputBuffer := []
  fileOffset := 0
  fileRemaining := 0
  peerAddr
  maxBodyBytes
  reading := true
  writing := false
  registered := true
  closing := false
  closeCalls := 0
  callbackCalls := []
  log := [[]]

/-- `EventLoop::UpdateChannel`: a channel that is not in `epoll` is added, whatever it asks
for, and one that is there and asks for nothing is removed. -/
def updateChannel (connection : HttpConnection) : HttpConnection :=
  { connection with
    registered := !connection.registered || connection.reading || connection.writing }

/-- Note what happens to the current message. -/
def record (happening : Happening) (connection : HttpConnection) : HttpConnection :=
  { connection with
    log := (connection.log.headD [] ++ [happening]) :: connection.log.tail }

/-- Call the body callback or the request callback. -/
def call (callbackCall : CallbackCall) (connection : HttpConnection) : HttpConnection :=
  { connection with callbackCalls := connection.callbackCalls ++ [callbackCall] }

/-- `HandleClose`. -/
def handleClose (connection : HttpConnection) : HttpConnection :=
  if connection.state = .CLOSED then connection
  else
    let connection := { connection with state := .CLOSED, reading := false, writing := false }
    { connection.updateChannel with closeCalls := connection.closeCalls + 1 }

/-- `HandleError`. -/
def handleError (connection : HttpConnection) : HttpConnection :=
  connection.handleClose

/-- Start writing a response that is already in the output buffer. -/
def startWriting (state : ConnectionState) (connection : HttpConnection) : HttpConnection :=
  { connection with state, writing := true }.updateChannel

/-- An earlier response was not sent to its end. -/
def hasUnsent (connection : HttpConnection) : Bool :=
  !connection.outputBuffer.isEmpty || decide (0 < connection.fileRemaining)

section Sending

variable (library : JsonLibrary)

/-- The response to a request whose file cannot be opened. -/
def openError (file : OpenOutcome) : Option HttpResponse :=
  match file with
  | .missing => HttpResponse.notFound library (ascii "Object data not found") []
  | _ => HttpResponse.internalError library (ascii "Failed to open object data") []

/-- Append a response to the output buffer, marked with what the request asks for. -/
def appendResponse (response : HttpResponse) (connection : HttpConnection) : HttpConnection :=
  let response := { response with keepAlive := connection.parser.request.isKeepAlive }
  { connection with outputBuffer := connection.outputBuffer ++ response.toBytes }

/-- `Send`. -/
def send (file : OpenOutcome) (response : HttpResponse) (connection : HttpConnection) :
    Option HttpConnection :=
  if connection.state = .CLOSED then some connection
  else
    let connection := connection.record (.response connection.hasUnsent)
    if response.hasFile then
      match file with
      | .opened =>
          some ({ connection.appendResponse response with
            fileOffset := response.fileOffset
            fileRemaining := response.sentLength }.startWriting .SENDING_FILE)
      | file =>
          (openError library file).map fun error =>
            ({ connection with outputBuffer := [] }.appendResponse error).startWriting
              .WRITING_RESPONSE
    else some ((connection.appendResponse response).startWriting .WRITING_RESPONSE)

/-- Hand the request to the request callback: the connection after the response was
sent, and the request that was delivered. -/
def deliver (callbacks : Callbacks) (connection : HttpConnection) :
    Option (HttpConnection × Option HttpRequest) :=
  let request := { connection.parser.request with clientIp := connection.peerAddr }
  let answer := callbacks.request request
  (send library callbacks.file answer.2
    ({ connection.call (.request request) with
      parser := { connection.parser with request := answer.1 } }.record .delivered)).map
    (·, some request)

/-- Call the body callback, which does what it does. -/
def bodyData (callbacks : Callbacks) (data : Bytes) (connection : HttpConnection) :
    Option HttpConnection :=
  let connection := connection.call (.bodyData data)
  match callbacks.bodyData with
  | .kept => some connection
  | .appended =>
      some { connection with parser := { connection.parser with
        request := connection.parser.request.appendBody data } }
  | .failed response =>
      (send library callbacks.file response (connection.record .failed)).map fun connection =>
        { connection with closing := true }

/-- Pass buffered body bytes on, and deliver the request once the body is complete.
`ProcessHeaders` and `HandleRead` have this code in common. -/
def processBody (callbacks : Callbacks) (connection : HttpConnection) :
    Option (HttpConnection × Option HttpRequest) :=
  let length := min connection.inputBuffer.length connection.parser.remainingBodyLength
  (bodyData library callbacks (connection.inputBuffer.take length) connection).bind
    fun connection =>
      let consumed := connection.parser.consumeBody length
      let connection := { connection with
        inputBuffer := connection.inputBuffer.drop length
        parser := consumed.2 }
      if consumed.1 then deliver library callbacks connection
      else some (connection, none)

/-- `ProcessHeaders`. -/
def processHeaders (callbacks : Callbacks) (connection : HttpConnection) :
    Option (HttpConnection × Option HttpRequest) :=
  match connection.parser.parse connection.inputBuffer with
  | (result, parser, buffer) =>
      let connection := { connection with parser, inputBuffer := buffer }
      match result with
      | .NEED_MORE_DATA => some (connection, none)
      | .HEADERS_COMPLETE =>
          if connection.maxBodyBytes < parser.contentLength then
            let connection := { connection with parser := { parser with
              request := parser.request.setHeader (ascii "Connection") (ascii "close") } }
            (HttpResponse.error library 413 (ascii "EntityTooLarge")
              (ascii "Request body too large") connection.parser.request.traceId).bind
                fun response =>
                  (send library callbacks.file response (connection.record .tooLarge)).map
                    (·, none)
          else
            let connection := { connection with state := .READING_BODY_STREAM }
            if buffer.isEmpty then some (connection, none)
            else processBody library callbacks connection
      | .MESSAGE_COMPLETE => deliver library callbacks connection
      | .ERROR =>
          (HttpResponse.badRequest library parser.errorMessage []).bind fun response =>
            (send library callbacks.file response (connection.record .rejected)).map (·, none)
      | .BODY_DATA => some (connection, none)

/-- `HandleRead`: the connection, and the request that was delivered, if any. -/
def handleRead (callbacks : Callbacks) (outcome : ReadOutcome) (connection : HttpConnection) :
    Option (HttpConnection × Option HttpRequest) :=
  match outcome with
  | .bytes data =>
      let connection := { connection with inputBuffer := connection.inputBuffer ++ data }
      match connection.state with
      | .READING_HEADERS => processHeaders library callbacks connection
      | .READING_BODY_STREAM => processBody library callbacks connection
      | _ => some (connection, none)
  | .closed => some (connection.handleClose, none)
  | .again => some (connection, none)
  | .failed => some (connection.handleError, none)

end Sending

/-- What follows the last byte of a response: the next request, or the end. -/
def finishResponse (connection : HttpConnection) : HttpConnection :=
  let connection := { connection with writing := false }.updateChannel
  if connection.parser.request.isKeepAlive then
    { connection with
      parser := connection.parser.reset
      state := .READING_HEADERS
      log := [] :: connection.log }
  else connection.handleClose

/-- `WriteFd` on the output buffer. -/
def writeOutput (outcome : WriteOutcome) (connection : HttpConnection) : HttpConnection :=
  match outcome with
  | .count length =>
      { connection with outputBuffer := connection.outputBuffer.drop length }
  | .again => connection
  | .failed => connection.handleError

/-- `SendInLoop`. -/
def sendInLoop (outcome : WriteOutcome) (connection : HttpConnection) : HttpConnection :=
  if connection.outputBuffer.isEmpty then connection.finishResponse
  else connection.writeOutput outcome

/-- The part of `SendFileInLoop` after the head of the response was written. -/
def sendFileBody (outcome : WriteOutcome) (connection : HttpConnection) : HttpConnection :=
  if connection.fileRemaining = 0 then connection.finishResponse
  else
    match outcome with
    | .count length =>
        { connection with
          fileOffset := connection.fileOffset + length
          fileRemaining := connection.fileRemaining - length }
    | .again => connection
    | .failed => connection.handleError

/-- `SendFileInLoop`, with the outcomes of `write` and of `sendfile`. -/
def sendFileInLoop (head body : WriteOutcome) (connection : HttpConnection) : HttpConnection :=
  if connection.outputBuffer.isEmpty then connection.sendFileBody body
  else
    match head with
    | .count length =>
        let connection := connection.writeOutput (.count length)
        if connection.outputBuffer.isEmpty then connection.sendFileBody body else connection
    | outcome => connection.writeOutput outcome

/-- `HandleWrite`. -/
def handleWrite (outcome : WriteOutcome × WriteOutcome) (connection : HttpConnection) :
    HttpConnection :=
  if connection.state = .SENDING_FILE then connection.sendFileInLoop outcome.1 outcome.2
  else connection.sendInLoop outcome.1

/-- The close and error callbacks of `HandleEventWithGuard`, which come first. -/
def handleFailures (event : Event) (connection : HttpConnection) : HttpConnection :=
  let connection := if event.hangup then connection.handleClose else connection
  if event.error then connection.handleError else connection

/-- The part of `HandleEventWithGuard` before the write callback. -/
def beforeWrite (library : JsonLibrary) (event : Event) (connection : HttpConnection) :
    Option (HttpConnection × Option HttpRequest) :=
  let connection := connection.handleFailures event
  match event.readable with
  | some outcome => handleRead library event.callbacks outcome connection
  | none => some (connection, none)

/-- The write callback of an event. -/
def handleWritable (event : Event) (connection : HttpConnection) : HttpConnection :=
  match event.writable with
  | some outcome => connection.handleWrite outcome
  | none => connection

/-- `DoPendingFunctors`, for the functors that were queued during an event. -/
def doPendingFunctors (connection : HttpConnection) : HttpConnection :=
  if connection.closing then connection.handleClose else connection

/-- `HandleEventWithGuard` and `DoPendingFunctors`.  The kernel reports only what the
channel is registered for. -/
def handleEvent (library : JsonLibrary) (event : Event) (connection : HttpConnection) :
    Option (HttpConnection × Option HttpRequest) :=
  if (event.readable.isSome && !connection.reading) ||
      (event.writable.isSome && !connection.writing) then none
  else
    (connection.beforeWrite library event).map fun result =>
      ((result.1.handleWritable event).doPendingFunctors, result.2)

/-! ## What the steps leave alone -/

/-- The connection is busy with a response. -/
def Responding (connection : HttpConnection) : Prop :=
  connection.state = .WRITING_RESPONSE ∨ connection.state = .SENDING_FILE

/-- Only the sending side and the state of the connection differ. -/
structure SameInput (before after : HttpConnection) : Prop where
  parser : after.parser = before.parser
  inputBuffer : after.inputBuffer = before.inputBuffer
  maxBodyBytes : after.maxBodyBytes = before.maxBodyBytes

theorem SameInput.refl (connection : HttpConnection) : SameInput connection connection :=
  ⟨rfl, rfl, rfl⟩

theorem handleClose_cases (connection : HttpConnection) :
    (connection.state = .CLOSED ∧ connection.handleClose = connection) ∨
      connection.handleClose =
        { connection with
          state := .CLOSED
          reading := false
          writing := false
          registered := !connection.registered
          closeCalls := connection.closeCalls + 1 } := by
  unfold handleClose
  by_cases closed : connection.state = .CLOSED
  · rw [if_pos closed]
    exact .inl ⟨closed, rfl⟩
  · rw [if_neg closed]
    simp [updateChannel]

@[simp]
theorem handleClose_state (connection : HttpConnection) :
    connection.handleClose.state = .CLOSED := by
  rcases connection.handleClose_cases with ⟨closed, unchanged⟩ | closes
  · rw [unchanged, closed]
  · rw [closes]

/-- What `Send` does to a connection that is not closed. -/
theorem send_spec {library : JsonLibrary} {file : OpenOutcome} {response : HttpResponse}
    {connection after : HttpConnection} (sent : send library file response connection = some after)
    (notClosed : connection.state ≠ .CLOSED) :
    SameInput connection after ∧ Responding after ∧ after.reading = connection.reading ∧
      after.closing = connection.closing := by
  unfold send at sent
  rw [if_neg notClosed] at sent
  split at sent
  · cases file with
    | opened =>
        obtain rfl := Option.some.inj sent
        exact ⟨⟨rfl, rfl, rfl⟩, .inr rfl, rfl, rfl⟩
    | missing | failed =>
        obtain ⟨error, -, rfl⟩ := Option.map_eq_some_iff.mp sent
        exact ⟨⟨rfl, rfl, rfl⟩, .inl rfl, rfl, rfl⟩
  · obtain rfl := Option.some.inj sent
    exact ⟨⟨rfl, rfl, rfl⟩, .inl rfl, rfl, rfl⟩

/-- A request that is delivered is answered at once. -/
theorem deliver_spec {library : JsonLibrary} {callbacks : Callbacks}
    {connection after : HttpConnection} {delivered : Option HttpRequest}
    (performed : deliver library callbacks connection = some (after, delivered))
    (notClosed : connection.state ≠ .CLOSED) :
    after.inputBuffer = connection.inputBuffer ∧ Responding after ∧
      after.reading = connection.reading ∧ after.closing = connection.closing ∧
      delivered.isSome := by
  unfold deliver at performed
  obtain ⟨sentTo, sent, equal⟩ := Option.map_eq_some_iff.mp performed
  obtain ⟨rfl, rfl⟩ := Prod.mk.inj equal
  obtain ⟨same, responding, reading, closing⟩ := send_spec sent notClosed
  exact ⟨same.inputBuffer, responding, reading, closing, rfl⟩

/-- The body callback leaves the connection as it is, up to the body of the request, or
it has sent a response and queued the end of the connection. -/
theorem bodyData_spec {library : JsonLibrary} {callbacks : Callbacks} {data : Bytes}
    {connection after : HttpConnection}
    (performed : bodyData library callbacks data connection = some after)
    (notClosed : connection.state ≠ .CLOSED) :
    after.inputBuffer = connection.inputBuffer ∧
      after.parser.remainingBodyLength = connection.parser.remainingBodyLength ∧
      after.reading = connection.reading ∧
      (after.closing = true ∧ Responding after ∨
        after.state = connection.state ∧ after.writing = connection.writing ∧
          after.closing = connection.closing) := by
  unfold bodyData at performed
  cases outcome : callbacks.bodyData with
  | kept =>
      simp only [outcome, Option.some.injEq] at performed
      subst after
      exact ⟨rfl, rfl, rfl, .inr ⟨rfl, rfl, rfl⟩⟩
  | appended =>
      simp only [outcome, Option.some.injEq] at performed
      subst after
      exact ⟨rfl, rfl, rfl, .inr ⟨rfl, rfl, rfl⟩⟩
  | failed response =>
      simp only [outcome] at performed
      obtain ⟨sentTo, sent, rfl⟩ := Option.map_eq_some_iff.mp performed
      obtain ⟨same, responding, reading, -⟩ := send_spec sent notClosed
      exact ⟨same.inputBuffer, by simp [same.parser, record, call], reading, .inl ⟨rfl, responding⟩⟩

/-- The input side after body bytes were passed on. -/
theorem processBody_spec {library : JsonLibrary} {callbacks : Callbacks}
    {connection after : HttpConnection} {delivered : Option HttpRequest}
    (performed : processBody library callbacks connection = some (after, delivered))
    (notClosed : connection.state ≠ .CLOSED) :
    after.reading = connection.reading ∧
    (connection.parser.remainingBodyLength ≤ connection.inputBuffer.length ∧
        after.inputBuffer =
          connection.inputBuffer.drop connection.parser.remainingBodyLength ∧
        Responding after ∧ delivered.isSome ∨
      connection.inputBuffer.length < connection.parser.remainingBodyLength ∧
        after.inputBuffer = [] ∧
        after.parser.remainingBodyLength =
          connection.parser.remainingBodyLength - connection.inputBuffer.length ∧
        delivered = none ∧
        (after.closing = true ∧ Responding after ∨
          after.state = connection.state ∧ after.writing = connection.writing)) := by
  unfold processBody at performed
  obtain ⟨passed, bodyPassed, performed⟩ := Option.bind_eq_some_iff.mp performed
  obtain ⟨input, remaining, reading, outcome⟩ := bodyData_spec bodyPassed notClosed
  have passedNotClosed : passed.state ≠ .CLOSED := by
    rcases outcome with ⟨-, writing | sending⟩ | ⟨state, -, -⟩
    · simp [writing]
    · simp [sending]
    · rw [state]
      exact notClosed
  simp only [HttpParser.consumeBody, remaining, input] at performed
  by_cases complete : connection.parser.remainingBodyLength ≤ connection.inputBuffer.length
  · rw [Nat.min_eq_right complete] at performed
    simp only [le_refl, if_true] at performed
    obtain ⟨inputAfter, responding, readingAfter, -, isDelivered⟩ :=
      deliver_spec performed passedNotClosed
    exact ⟨readingAfter.trans reading, .inl ⟨complete, inputAfter, responding, isDelivered⟩⟩
  · rw [Nat.min_eq_left (by omega), if_neg complete] at performed
    simp only [Bool.false_eq_true, if_false, Option.some.injEq, Prod.mk.injEq] at performed
    obtain ⟨rfl, rfl⟩ := performed
    refine ⟨reading, .inr ⟨by omega, by simp, rfl, rfl, ?_⟩⟩
    rcases outcome with ⟨closing, responding⟩ | ⟨state, writing, -⟩
    · exact .inl ⟨closing, responding⟩
    · exact .inr ⟨state, writing⟩

/-- Bytes that arrive while a response is being written stay in the input buffer. -/
theorem handleRead_of_responding {library : JsonLibrary} {callbacks : Callbacks}
    {data : Bytes} {connection after : HttpConnection} {delivered : Option HttpRequest}
    (responding : Responding connection)
    (performed : handleRead library callbacks (.bytes data) connection =
      some (after, delivered)) :
    after = { connection with inputBuffer := connection.inputBuffer ++ data } ∧
      delivered = none := by
  rcases responding with state | state
  all_goals
    simp only [handleRead, state, Option.some.injEq, Prod.mk.injEq] at performed
    obtain ⟨rfl, rfl⟩ := performed
    exact ⟨by simp [state], rfl⟩

/-- The output buffer is empty after this `write`, or was empty before it. -/
def drains (outcome : WriteOutcome) (buffer : Bytes) : Bool :=
  match outcome with
  | .count length => decide (buffer.length ≤ length)
  | _ => buffer.isEmpty

/-- The write callback finishes a response and goes on with the next request. -/
def restarts (outcome : WriteOutcome × WriteOutcome) (connection : HttpConnection) : Bool :=
  connection.parser.request.isKeepAlive &&
    if connection.state = .SENDING_FILE then
      connection.fileRemaining == 0 && drains outcome.1 connection.outputBuffer
    else connection.outputBuffer.isEmpty

/-- What the write callback can do: go on with the next request, close, or make some
progress on the response. -/
inductive Wrote (outcome : WriteOutcome × WriteOutcome) (before after : HttpConnection) : Prop
  | restarted : restarts outcome before = true → after.state = .READING_HEADERS →
      after.parser = before.parser.reset → after.inputBuffer = before.inputBuffer →
      after.reading = before.reading → after.writing = false →
      after.closing = before.closing → Wrote outcome before after
  | closed : after.state = .CLOSED →
      (before.state = .CLOSED → after.reading = before.reading) →
      (before.state ≠ .CLOSED → after.reading = false) → Wrote outcome before after
  | progressed : SameInput before after → after.state = before.state →
      after.reading = before.reading → after.writing = before.writing →
      after.closing = before.closing → Wrote outcome before after

theorem Wrote.of_close {outcome : WriteOutcome × WriteOutcome}
    {before middle : HttpConnection} (state : middle.state = before.state)
    (reading : middle.reading = before.reading) : Wrote outcome before middle.handleClose := by
  refine .closed middle.handleClose_state ?_ ?_
  · intro closed
    rcases middle.handleClose_cases with ⟨-, unchanged⟩ | closes
    · rw [unchanged, reading]
    · rw [handleClose, if_pos (state.trans closed), reading]
  · intro notClosed
    rw [handleClose, if_neg (by rwa [state])]
    rfl

theorem Wrote.of_finish {outcome : WriteOutcome × WriteOutcome}
    {before middle : HttpConnection} (parser : middle.parser = before.parser)
    (input : middle.inputBuffer = before.inputBuffer) (state : middle.state = before.state)
    (reading : middle.reading = before.reading) (closing : middle.closing = before.closing)
    (finishes : before.parser.request.isKeepAlive = true → restarts outcome before = true) :
    Wrote outcome before middle.finishResponse := by
  unfold finishResponse
  dsimp only
  split
  · rename_i keepAlive
    change middle.parser.request.isKeepAlive = true at keepAlive
    rw [parser] at keepAlive
    exact .restarted (finishes keepAlive) rfl (by rw [← parser]; rfl) input reading rfl closing
  · exact Wrote.of_close state reading

theorem wrote_writeOutput (outcomes : WriteOutcome × WriteOutcome) (outcome : WriteOutcome)
    (connection : HttpConnection) :
    Wrote outcomes connection (connection.writeOutput outcome) := by
  cases outcome with
  | count length => exact .progressed ⟨rfl, rfl, rfl⟩ rfl rfl rfl rfl
  | again => exact .progressed (.refl connection) rfl rfl rfl rfl
  | failed => exact Wrote.of_close rfl rfl

theorem wrote_sendFileBody {outcomes : WriteOutcome × WriteOutcome}
    {before middle : HttpConnection} (same : SameInput before middle)
    (state : middle.state = before.state) (reading : middle.reading = before.reading)
    (writing : middle.writing = before.writing) (closing : middle.closing = before.closing)
    (remaining : middle.fileRemaining = before.fileRemaining)
    (sendingFile : before.state = .SENDING_FILE)
    (drained : drains outcomes.1 before.outputBuffer = true) :
    Wrote outcomes before (middle.sendFileBody outcomes.2) := by
  unfold sendFileBody
  split
  · rename_i finished
    refine Wrote.of_finish same.parser same.inputBuffer state reading closing ?_
    intro keepAlive
    simp [restarts, keepAlive, sendingFile, ← remaining, finished, drained]
  · cases outcomes.2 with
    | count length =>
        exact .progressed ⟨same.parser, same.inputBuffer, same.maxBodyBytes⟩ state reading
          writing closing
    | again => exact .progressed same state reading writing closing
    | failed => exact Wrote.of_close state reading

theorem wrote_handleWrite (outcome : WriteOutcome × WriteOutcome)
    (connection : HttpConnection) :
    Wrote outcome connection (connection.handleWrite outcome) := by
  obtain ⟨head, body⟩ := outcome
  unfold handleWrite
  split
  · rename_i sendingFile
    unfold sendFileInLoop
    split
    · rename_i empty
      refine wrote_sendFileBody (.refl connection) rfl rfl rfl rfl rfl sendingFile ?_
      rw [List.isEmpty_iff] at empty
      cases head <;> simp [drains, empty]
    · cases head with
      | count length =>
          dsimp only
          split
          · rename_i drained
            refine wrote_sendFileBody ⟨rfl, rfl, rfl⟩ rfl rfl rfl rfl rfl sendingFile ?_
            simpa [writeOutput, drains, List.drop_eq_nil_iff] using drained
          · exact .progressed ⟨rfl, rfl, rfl⟩ rfl rfl rfl rfl
      | again => exact wrote_writeOutput _ .again connection
      | failed => exact wrote_writeOutput _ .failed connection
  · rename_i notSendingFile
    unfold sendInLoop
    split
    · rename_i empty
      refine Wrote.of_finish rfl rfl rfl rfl rfl ?_
      intro keepAlive
      simp [restarts, keepAlive, notSendingFile, empty]
    · exact wrote_writeOutput _ head connection

/-- The rule for the write callback: what is kept while bytes leave, and holds when the callback
returns, however it ends. -/
theorem handleWrite_rule (good result : HttpConnection → Prop) {connection : HttpConnection}
    (drops : ∀ connection buffer, good connection → good { connection with outputBuffer := buffer })
    (sends : ∀ connection offset remaining, good connection → connection.state = .SENDING_FILE →
      good { connection with fileOffset := offset, fileRemaining := remaining })
    (returns : ∀ connection, good connection → result connection)
    (closes : ∀ connection, good connection → result connection.handleClose)
    (finishes : ∀ connection, good connection → connection.outputBuffer = [] →
      (connection.state = .SENDING_FILE → connection.fileRemaining = 0) →
      result connection.finishResponse)
    (before : good connection) (outcome : WriteOutcome × WriteOutcome) :
    result (connection.handleWrite outcome) := by
  have writes : ∀ head, result (connection.writeOutput head) := by
    intro head
    cases head with
    | count length => exact returns _ (drops _ _ before)
    | again => exact returns _ before
    | failed => exact closes _ before
  have sendsFile : ∀ middle, good middle → middle.state = .SENDING_FILE →
      middle.outputBuffer = [] → result (middle.sendFileBody outcome.2) := by
    intro middle kept sendingFile sent
    unfold sendFileBody
    split
    · rename_i noFile
      exact finishes middle kept sent fun _ => noFile
    · cases outcome.2 with
      | count length => exact returns _ (sends _ _ _ kept sendingFile)
      | again => exact returns _ kept
      | failed => exact closes _ kept
  unfold handleWrite
  split
  · rename_i sendingFile
    unfold sendFileInLoop
    split
    · rename_i sent
      exact sendsFile connection before sendingFile (List.isEmpty_iff.mp sent)
    · split
      · dsimp only
        split
        · rename_i sent
          exact sendsFile _ (drops _ _ before) sendingFile (List.isEmpty_iff.mp sent)
        · exact writes _
      · exact writes _
  · rename_i notSendingFile
    unfold sendInLoop
    split
    · rename_i sent
      exact finishes connection before (List.isEmpty_iff.mp sent) fun sendingFile =>
        absurd sendingFile notSendingFile
    · exact writes _

/-- What `ProcessHeaders` can do with a parser that has consumed `consumed` of a head:
wait for more, refuse the message, start on its body, or deliver it. -/
inductive Processed (library : JsonLibrary) (callbacks : Callbacks) (consumed : Bytes)
    (before after : HttpConnection) : ParseResult → Option HttpRequest → Prop
  | waiting (taken : Bytes) : before.inputBuffer = taken ++ after.inputBuffer →
      HttpParser.Reading after.parser (consumed ++ taken) →
      Bytes.contains after.inputBuffer crlf = false → after.state = before.state →
      after.reading = before.reading → after.writing = before.writing →
      Processed library callbacks consumed before after .NEED_MORE_DATA none
  | rejected : Responding after → after.reading = before.reading →
      after.parser = (before.parser.parse before.inputBuffer).2.1 →
      Processed library callbacks consumed before after .ERROR none
  | tooLarge : Responding after → after.reading = before.reading →
      after.parser.request.isKeepAlive = false →
      Processed library callbacks consumed before after .HEADERS_COMPLETE none
  | empty (taken : Bytes) : before.inputBuffer = taken →
      HttpParser.Head (consumed ++ taken) after.parser.contentLength →
      after.parser.remainingBodyLength = after.parser.contentLength →
      (after.parser.chunked = true ∨ 0 < after.parser.contentLength) →
      after.parser = (before.parser.parse before.inputBuffer).2.1 →
      after.inputBuffer = [] → after.state = .READING_BODY_STREAM →
      after.reading = before.reading → after.writing = before.writing →
      Processed library callbacks consumed before after .HEADERS_COMPLETE none
  | body (taken : Bytes) (middle : HttpConnection) (delivered : Option HttpRequest) :
      before.inputBuffer = taken ++ middle.inputBuffer →
      HttpParser.Head (consumed ++ taken) middle.parser.contentLength →
      middle.parser.remainingBodyLength = middle.parser.contentLength →
      (middle.parser.chunked = true ∨ 0 < middle.parser.contentLength) →
      middle.parser = (before.parser.parse before.inputBuffer).2.1 →
      middle.state = .READING_BODY_STREAM → middle.reading = before.reading →
      middle.writing = before.writing →
      processBody library callbacks middle = some (after, delivered) →
      Processed library callbacks consumed before after .HEADERS_COMPLETE delivered
  | complete (taken : Bytes) (request : HttpRequest) :
      before.inputBuffer = taken ++ after.inputBuffer →
      HttpParser.Head (consumed ++ taken) 0 → Responding after →
      after.reading = before.reading →
      Processed library callbacks consumed before after .MESSAGE_COMPLETE (some request)

theorem isKeepAlive_setHeader_close (request : HttpRequest) :
    (request.setHeader (ascii "Connection") (ascii "close")).isKeepAlive = false := by
  have lower : Bytes.toLower (ascii "connection") = Bytes.toLower (ascii "Connection") := by
    decide
  have closes : Bytes.toLower (ascii "close") = ascii "close" := by decide
  simp [HttpRequest.isKeepAlive, HttpRequest.getHeader, HttpRequest.setHeader, lower, closes]

theorem processHeaders_spec {library : JsonLibrary} {callbacks : Callbacks}
    {consumed : Bytes} {connection after : HttpConnection} {delivered : Option HttpRequest}
    (reading : HttpParser.Reading connection.parser consumed)
    (state : connection.state = .READING_HEADERS)
    (performed : processHeaders library callbacks connection = some (after, delivered)) :
    ∃ result, (connection.parser.parse connection.inputBuffer).1 = result ∧
      Processed library callbacks consumed connection after result delivered := by
  obtain ⟨taken, split, returned⟩ := reading.parse connection.inputBuffer
  unfold processHeaders at performed
  rcases parsed : connection.parser.parse connection.inputBuffer with ⟨result, parser, buffer⟩
  have parserEq : parser = (connection.parser.parse connection.inputBuffer).2.1 := by
    rw [parsed]
  rw [parsed] at split returned performed
  have notClosed : connection.state ≠ .CLOSED := by simp [state]
  refine ⟨result, rfl, ?_⟩
  cases result with
  | NEED_MORE_DATA =>
      simp only [Option.some.injEq, Prod.mk.injEq] at performed
      obtain ⟨rfl, rfl⟩ := performed
      exact .waiting taken split returned.1 returned.2 rfl rfl rfl
  | HEADERS_COMPLETE =>
      obtain ⟨-, head, remaining, nonempty⟩ := returned
      dsimp only at performed
      split at performed
      · obtain ⟨response, -, performed⟩ := Option.bind_eq_some_iff.mp performed
        obtain ⟨sentTo, sent, equal⟩ := Option.map_eq_some_iff.mp performed
        obtain ⟨rfl, rfl⟩ := Prod.mk.inj equal
        obtain ⟨same, responding, readingAfter, -⟩ := send_spec sent notClosed
        refine .tooLarge responding readingAfter ?_
        rw [same.parser]
        exact isKeepAlive_setHeader_close parser.request
      · by_cases drained : buffer.isEmpty = true
        · rw [if_pos drained] at performed
          simp only [Option.some.injEq, Prod.mk.injEq] at performed
          obtain ⟨rfl, rfl⟩ := performed
          rw [List.isEmpty_iff] at drained
          subst drained
          exact .empty taken (by simpa using split) head remaining nonempty parserEq rfl rfl rfl
            rfl
        · rw [if_neg drained] at performed
          exact .body taken { connection with
              state := .READING_BODY_STREAM, parser, inputBuffer := buffer }
            delivered split head remaining nonempty parserEq rfl rfl rfl performed
  | BODY_DATA => exact returned.elim
  | MESSAGE_COMPLETE =>
      obtain ⟨input, responding, readingAfter, -, isDelivered⟩ :=
        deliver_spec performed notClosed
      obtain ⟨request, rfl⟩ := Option.isSome_iff_exists.mp isDelivered
      dsimp only at input readingAfter
      exact .complete taken request (by rw [input]; exact split) returned.2 responding
        readingAfter
  | ERROR =>
      obtain ⟨response, -, performed⟩ := Option.bind_eq_some_iff.mp performed
      obtain ⟨sentTo, sent, equal⟩ := Option.map_eq_some_iff.mp performed
      obtain ⟨rfl, rfl⟩ := Prod.mk.inj equal
      obtain ⟨same, responding, readingAfter, -⟩ := send_spec sent notClosed
      exact .rejected responding readingAfter (same.parser.trans parserEq)

end HttpConnection

end MiniS3.Net
