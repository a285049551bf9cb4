import MiniS3.Net.Chunking
import MiniS3.Net.HttpConnection

/-!
# Streaming a request body

The first piece of a body is passed on by `ProcessHeaders` and the others by
`HandleRead`, while the remaining length is kept in the parser.  However the stream is
cut into reads, the pieces that are passed on make up the bytes that the head
announces, the request is delivered after the last of them and with the same read, and what
follows the message stays in the input buffer.
-/

namespace MiniS3.Net

/-- The body callback does not answer. -/
def Callbacks.Silent (callbacks : Callbacks) : Prop :=
  ∀ response, callbacks.bodyData ≠ .failed response

namespace HttpParser

/-- The turn that completes a head takes the blank line. -/
theorem Reading.stop_complete {parser parser' : HttpParser} {consumed buffer rest : Bytes}
    (reading : Reading parser consumed)
    (stopped : turn parser buffer = .stop .HEADERS_COMPLETE parser' rest) :
    buffer = crlf ++ rest := by
  cases reading with
  | requestLine state headers =>
      simp only [turn, state, requestLineTurn, fail] at stopped
      split at stopped
      · split at stopped <;> simp at stopped
      · split at stopped <;> simp at stopped
  | headers line fields state lineIsLine fieldsAreLines represented =>
      simp only [turn, state, headersTurn, fail] at stopped
      split at stopped
      · split at stopped <;> simp at stopped
      · rename_i length found
        split at stopped
        · rename_i blank
          subst length
          rcases line_of_find found with ⟨-, split⟩
          rcases Reading.blankLine lineIsLine fieldsAreLines represented stopped with ⟨rfl, -⟩
          simpa [terminated] using split
        · split at stopped <;> simp at stopped

/-- A head that is complete ends with a line terminator. -/
theorem Reading.ends_line {parser parser' : HttpParser} {consumed buffer rest : Bytes}
    (reading : Reading parser consumed)
    (parsed : HttpParser.parse parser buffer = (.HEADERS_COMPLETE, parser', rest)) :
    ∃ lines, buffer = lines ++ crlf ++ rest := by
  suffices rule : (HttpParser.parse parser buffer).1 = .HEADERS_COMPLETE →
      ∃ lines, buffer = lines ++ crlf ++ (HttpParser.parse parser buffer).2.2 by
    rw [parsed] at rule
    exact rule rfl
  refine parse_rule
    (fun parser left => ∃ taken, buffer = taken ++ left ∧ Reading parser (consumed ++ taken))
    (fun result _ left => result = .HEADERS_COMPLETE → ∃ lines, buffer = lines ++ crlf ++ left)
    ?_ ?_ ⟨[], rfl, by simpa using reading⟩
  · rintro parser left parser' left' ⟨taken, rfl, readingNow⟩ goesOn
    rcases readingNow.again goesOn with ⟨line, rfl, readingNext⟩
    exact ⟨taken ++ line, by simp, by simpa using readingNext⟩
  · rintro parser left result parser' left' ⟨taken, rfl, readingNow⟩ stopped rfl
    rw [readingNow.stop_complete stopped]
    exact ⟨taken, by simp⟩

end HttpParser

/-- A text without a line terminator does not reach beyond the first one that follows. -/
theorem length_le_of_no_line {text more lines rest : Bytes}
    (noLine : Bytes.contains text crlf = false) (split : text ++ more = lines ++ crlf ++ rest) :
    text.length ≤ (lines ++ crlf).length := by
  by_contra longer
  have front : (lines ++ crlf) <+: text :=
    List.prefix_of_prefix_length_le ⟨rest, split.symm⟩ (List.prefix_append text more) (by omega)
  rcases front with ⟨tail, rfl⟩
  have contained : Bytes.contains (lines ++ crlf ++ tail) crlf = true :=
    Bytes.contains_iff.mpr ⟨lines, tail, rfl⟩
  rw [noLine] at contained
  contradiction

namespace HttpConnection

/-- One read after another. -/
def receive (library : JsonLibrary) : List (Bytes × Callbacks) → HttpConnection →
    Option HttpConnection
  | [], connection => some connection
  | (data, callbacks) :: reads, connection =>
      (handleRead library callbacks (.bytes data) connection).bind fun result =>
        receive library reads result.1

/-! ## One read -/

section Step

variable {library : JsonLibrary} {callbacks : Callbacks} {connection : HttpConnection}

/-- The texts of the responses to a file that cannot be opened are ASCII. -/
theorem isSome_openError (strict : library.Strict) (file : OpenOutcome) :
    (openError library file).isSome := by
  cases file
  all_goals
    simp only [openError, HttpResponse.notFound, HttpResponse.internalError, HttpResponse.error,
      Option.isSome_map]
    rw [strict]
    decide

theorem isSome_send (strict : library.Strict) (file : OpenOutcome) (response : HttpResponse) :
    (send library file response connection).isSome := by
  unfold send
  split
  · rfl
  · split
    · cases file with
      | opened => rfl
      | missing | failed =>
          rw [Option.isSome_map]
          exact isSome_openError strict _
    · rfl

/-- Sending a response calls neither callback. -/
theorem send_callbackCalls {file : OpenOutcome} {response : HttpResponse}
    {after : HttpConnection} (sent : send library file response connection = some after) :
    after.callbackCalls = connection.callbackCalls := by
  unfold send at sent
  split at sent
  · cases sent
    rfl
  · split at sent
    · cases file with
      | opened =>
          cases sent
          rfl
      | missing | failed =>
          rcases Option.map_eq_some_iff.mp sent with ⟨error, -, rfl⟩
          rfl
    · cases sent
      rfl

theorem deliver_of_strict (strict : library.Strict) (callbacks : Callbacks)
    (connection : HttpConnection) (notClosed : connection.state ≠ .CLOSED) :
    ∃ after request, deliver library callbacks connection = some (after, some request) ∧
      after.callbackCalls = connection.callbackCalls ++ [.request request] ∧
      after.inputBuffer = connection.inputBuffer ∧ Responding after := by
  have performed : (deliver library callbacks connection).isSome := by
    rw [deliver, Option.isSome_map]
    exact isSome_send strict _ _
  rcases Option.isSome_iff_exists.mp performed with ⟨⟨after, delivered⟩, fires⟩
  rcases deliver_spec fires notClosed with ⟨input, responding, -, -, -⟩
  rcases Option.map_eq_some_iff.mp fires with ⟨sentTo, sent, equal⟩
  cases equal
  exact ⟨_, _, fires, send_callbackCalls sent, input, responding⟩

/-- A body callback that does not answer leaves everything but the request alone. -/
theorem bodyData_of_silent (library : JsonLibrary) (silent : callbacks.Silent) (data : Bytes)
    (connection : HttpConnection) :
    ∃ request, bodyData library callbacks data connection =
      some { connection.call (.bodyData data) with
        parser := { connection.parser with request } } := by
  unfold bodyData
  cases outcome : callbacks.bodyData with
  | kept => exact ⟨connection.parser.request, rfl⟩
  | appended => exact ⟨connection.parser.request.appendBody data, rfl⟩
  | failed response => exact absurd outcome (silent response)

/-- Body bytes are passed on, and the request is delivered after the last of them. -/
theorem processBody_of_silent (strict : library.Strict) (silent : callbacks.Silent)
    (notClosed : connection.state ≠ .CLOSED) :
    ∃ after delivered, processBody library callbacks connection = some (after, delivered) ∧
      after.callbackCalls = connection.callbackCalls ++
        .bodyData (connection.inputBuffer.take
          (min connection.inputBuffer.length connection.parser.remainingBodyLength)) ::
        delivered.toList.map .request ∧
      (connection.parser.remainingBodyLength ≤ connection.inputBuffer.length ∧
          after.inputBuffer =
            connection.inputBuffer.drop connection.parser.remainingBodyLength ∧
          Responding after ∧ delivered.isSome ∨
        connection.inputBuffer.length < connection.parser.remainingBodyLength ∧
          after.inputBuffer = [] ∧
          after.parser.remainingBodyLength =
            connection.parser.remainingBodyLength - connection.inputBuffer.length ∧
          after.state = connection.state ∧ delivered = none) := by
  rcases bodyData_of_silent library silent (connection.inputBuffer.take
    (min connection.inputBuffer.length connection.parser.remainingBodyLength)) connection with
    ⟨request, passed⟩
  simp only [processBody, passed, Option.bind_some, HttpParser.consumeBody, call]
  by_cases complete : connection.parser.remainingBodyLength ≤ connection.inputBuffer.length
  · simp only [Nat.min_eq_right complete, Nat.le_refl, if_true]
    rcases deliver_of_strict strict callbacks { connection.call (.bodyData
          (connection.inputBuffer.take connection.parser.remainingBodyLength)) with
        inputBuffer := connection.inputBuffer.drop connection.parser.remainingBodyLength
        parser := { connection.parser with request, remainingBodyLength := 0, state := .DONE } }
      notClosed with ⟨after, delivered, fires, calls, input, responding⟩
    refine ⟨after, some delivered, fires, ?_, .inl ⟨complete, input, responding, rfl⟩⟩
    rw [calls]
    exact List.append_assoc _ _ _
  · have shorter := Nat.lt_of_not_le complete
    simp only [Nat.min_eq_left (Nat.le_of_lt shorter), complete, if_false, List.drop_length]
    exact ⟨_, none, rfl, rfl, .inr ⟨shorter, rfl, rfl, rfl, rfl⟩⟩

/-- The connection is inside the body of a message, or has delivered it.  The message is a
head of `start` bytes and a body of `length` bytes, and `received` begins with it. -/
inductive Streaming (start length : Nat) (received : Bytes) (connection : HttpConnection) : Prop
  | body : start ≤ received.length → received.length < start + length →
      connection.state = .READING_BODY_STREAM → connection.inputBuffer = [] →
      connection.parser.remainingBodyLength = start + length - received.length →
      Streaming start length received connection
  | delivered : start + length ≤ received.length → Responding connection →
      connection.inputBuffer = received.drop (start + length) →
      Streaming start length received connection

/-- The body bytes among what was received. -/
def bodyOf (start length : Nat) (received : Bytes) : Bytes :=
  (received.drop start).take length

/-- How often the request has been delivered. -/
def deliveries (start length : Nat) (received : Bytes) : Nat :=
  if start + length ≤ received.length then 1 else 0

theorem bodyOf_append {start length : Nat} {received : Bytes} (data : Bytes)
    (inBody : start ≤ received.length) :
    bodyOf start length (received ++ data) = bodyOf start length received ++
      data.take (min data.length (start + length - received.length)) := by
  have left : length - (received.drop start).length = start + length - received.length := by
    rw [List.length_drop]
    omega
  have cut : data.take (min data.length (start + length - received.length)) =
      data.take (start + length - received.length) := by
    rw [Nat.min_comm, ← List.take_take, List.take_length]
  rw [bodyOf, List.drop_append_of_le_length inBody, List.take_append, left, bodyOf, cut]

/-- The calls since `earlier`: the body callback with the body bytes among what was received, and
then the request callback, once they are complete. -/
def Called (start length : Nat) (received : Bytes) (earlier : List CallbackCall)
    (connection : HttpConnection) : Prop :=
  ∃ (pieces : List Bytes) (requests : List HttpRequest),
    connection.callbackCalls = earlier ++ (pieces.map .bodyData ++ requests.map .request) ∧
      pieces.flatten = bodyOf start length received ∧
      requests.length = deliveries start length received

/-- One more call of the body callback, and of the request callback if the body is complete. -/
theorem Called.piece {start length : Nat} {received more piece : Bytes}
    {earlier : List CallbackCall} {after : HttpConnection} {delivered : Option HttpRequest}
    (called : Called start length received earlier connection)
    (incomplete : received.length < start + length)
    (body : bodyOf start length more = bodyOf start length received ++ piece)
    (count : deliveries start length more = delivered.toList.length)
    (calls : after.callbackCalls =
      connection.callbackCalls ++ .bodyData piece :: delivered.toList.map .request) :
    Called start length more earlier after := by
  rcases called with ⟨pieces, requests, before, passed, undelivered⟩
  have noRequest : requests = [] :=
    List.eq_nil_of_length_eq_zero (undelivered.trans (if_neg (Nat.not_le_of_lt incomplete)))
  subst noRequest
  refine ⟨pieces ++ [piece], delivered.toList, ?_, ?_, count.symm⟩
  · rw [calls, before]
    simp
  · rw [body, ← passed]
    simp

/-- The bytes in the buffer go on with the body, after `received`. -/
theorem Streaming.of_processBody {start length : Nat} (received : Bytes)
    (strict : library.Strict) (silent : callbacks.Silent) (connection : HttpConnection)
    (state : connection.state = .READING_BODY_STREAM) (inBody : start ≤ received.length)
    (incomplete : received.length < start + length)
    (remaining : connection.parser.remainingBodyLength = start + length - received.length) :
    ∃ after delivered, processBody library callbacks connection = some (after, delivered) ∧
      Streaming start length (received ++ connection.inputBuffer) after ∧
      after.callbackCalls = connection.callbackCalls ++
        .bodyData (connection.inputBuffer.take
          (min connection.inputBuffer.length (start + length - received.length))) ::
        delivered.toList.map .request ∧
      deliveries start length (received ++ connection.inputBuffer) =
        delivered.toList.length := by
  have notClosed : connection.state ≠ .CLOSED := by simp [state]
  rcases processBody_of_silent strict silent notClosed with ⟨after, delivered, performed, calls,
    ⟨long, input, responding, isDelivered⟩ | ⟨short, input, left, stateAfter, rfl⟩⟩
  · rw [remaining] at calls long input
    rcases Option.isSome_iff_exists.mp isDelivered with ⟨request, rfl⟩
    have complete : start + length ≤ (received ++ connection.inputBuffer).length := by
      rw [List.length_append]
      omega
    refine ⟨after, some request, performed, .delivered complete responding ?_, calls,
      if_pos complete⟩
    rw [input, List.drop_append, List.drop_eq_nil_of_le (Nat.le_of_lt incomplete),
      List.nil_append]
  · rw [remaining] at calls short left
    have stillIncomplete : (received ++ connection.inputBuffer).length < start + length := by
      rw [List.length_append]
      omega
    refine ⟨after, none, performed, .body ?_ stillIncomplete (stateAfter.trans state) input ?_,
      calls, if_neg (Nat.not_le_of_lt stillIncomplete)⟩
    · rw [List.length_append]
      omega
    · rw [left, List.length_append]
      omega

/-- What a read does once the head is complete. -/
theorem Streaming.read {start length : Nat} {received : Bytes} {earlier : List CallbackCall}
    (streaming : Streaming start length received connection)
    (called : Called start length received earlier connection) (strict : library.Strict)
    (silent : callbacks.Silent) (data : Bytes) :
    ∃ after delivered,
      handleRead library callbacks (.bytes data) connection = some (after, delivered) ∧
      Streaming start length (received ++ data) after ∧
      Called start length (received ++ data) earlier after := by
  cases streaming with
  | body inBody incomplete state drained remaining =>
      have buffer : connection.inputBuffer ++ data = data := by rw [drained, List.nil_append]
      rcases of_processBody received strict silent { connection with inputBuffer := data } state
        inBody incomplete remaining with ⟨after, delivered, performed, streaming, calls, count⟩
      refine ⟨after, delivered, ?_, streaming,
        called.piece incomplete (bodyOf_append data inBody) count calls⟩
      simpa only [handleRead, state, buffer] using performed
  | delivered complete responding input =>
      have stillComplete : start + length ≤ (received ++ data).length := by
        rw [List.length_append]
        omega
      refine ⟨{ connection with inputBuffer := connection.inputBuffer ++ data }, none, ?_,
        .delivered stillComplete responding ?_, ?_⟩
      · rcases responding with state | state <;> simp only [handleRead, state]
      · rw [List.drop_append_of_le_length complete, input]
      · rcases called with ⟨pieces, requests, calls, passed, count⟩
        refine ⟨pieces, requests, calls, ?_, ?_⟩
        · rw [bodyOf_append data (by omega), Nat.sub_eq_zero_of_le complete, Nat.min_zero,
            List.take_zero, List.append_nil]
          exact passed
        · rw [count, deliveries, deliveries, if_pos complete, if_pos stillComplete]

end Step

/-! ## All reads of a message -/

section Run

variable {library : JsonLibrary} {connection : HttpConnection}

theorem receive_cons {callbacks : Callbacks} {data : Bytes} {reads : List (Bytes × Callbacks)}
    {middle after : HttpConnection} {delivered : Option HttpRequest}
    (performed : handleRead library callbacks (.bytes data) connection =
      some (middle, delivered)) (received : receive library reads middle = some after) :
    receive library ((data, callbacks) :: reads) connection = some after := by
  rw [receive, performed]
  exact received

/-- What the callbacks were called with, and what is left in the input buffer, after
`received`. -/
structure Delivers (start length : Nat) (received : Bytes) (earlier : List CallbackCall)
    (after : HttpConnection) : Prop where
  called : Called start length received earlier after
  rest : start + length ≤ received.length → after.inputBuffer = received.drop (start + length)

/-- The reads after the head is complete. -/
theorem Streaming.receive {start length : Nat} {received : Bytes} {earlier : List CallbackCall}
    (streaming : Streaming start length received connection)
    (called : Called start length received earlier connection) (strict : library.Strict)
    {reads : List (Bytes × Callbacks)} (silent : ∀ read ∈ reads, read.2.Silent) :
    ∃ after, HttpConnection.receive library reads connection = some after ∧
      Streaming start length (received ++ (reads.map Prod.fst).flatten) after ∧
      Called start length (received ++ (reads.map Prod.fst).flatten) earlier after := by
  induction reads generalizing connection received with
  | nil =>
      refine ⟨connection, rfl, ?_⟩
      simpa using ⟨streaming, called⟩
  | cons read reads inductionHypothesis =>
      rcases read with ⟨data, callbacks⟩
      rcases streaming.read called strict (silent (data, callbacks) List.mem_cons_self) data with
        ⟨middle, delivered, performed, streamingNext, calledNext⟩
      rcases inductionHypothesis streamingNext calledNext
        (fun read member => silent read (List.mem_cons_of_mem _ member)) with
        ⟨after, received, streamingAfter, calledAfter⟩
      refine ⟨after, receive_cons performed received, ?_⟩
      simp only [List.map_cons, List.flatten_cons, ← List.append_assoc]
      exact ⟨streamingAfter, calledAfter⟩

theorem Streaming.delivers {start length : Nat} {received : Bytes} {earlier : List CallbackCall}
    {after : HttpConnection} (streaming : Streaming start length received after)
    (called : Called start length received earlier after) :
    Delivers start length received earlier after := by
  refine ⟨called, fun complete => ?_⟩
  cases streaming with
  | body inBody incomplete => exact absurd complete (Nat.not_le_of_lt incomplete)
  | delivered complete responding input => exact input

/-- Inside the head, neither callback was called. -/
theorem called_nothing {start length : Nat} {received : Bytes} (connection : HttpConnection)
    (positive : 0 < length) (inHead : received.length ≤ start) :
    Called start length received connection.callbackCalls connection := by
  refine ⟨[], [], (List.append_nil _).symm, ?_, ?_⟩
  · rw [bodyOf, List.drop_eq_nil_of_le inHead, List.take_nil]
    rfl
  · exact (if_neg (by omega)).symm

theorem delivers_nothing {start length : Nat} {received : Bytes} (connection : HttpConnection)
    (positive : 0 < length) (inHead : received.length ≤ start) :
    Delivers start length received connection.callbackCalls connection :=
  ⟨called_nothing connection positive inHead, fun complete => absurd complete (by omega)⟩

/-- The read that completes the head. -/
theorem Streaming.of_head {callbacks : Callbacks} {data unread : Bytes} {parser : HttpParser}
    (head : Bytes) (strict : library.Strict) (silent : callbacks.Silent)
    (state : connection.state = .READING_HEADERS)
    (parsed : connection.parser.parse (connection.inputBuffer ++ data) =
      (.HEADERS_COMPLETE, parser, unread))
    (remaining : parser.remainingBodyLength = parser.contentLength)
    (positive : 0 < parser.contentLength)
    (fits : parser.contentLength ≤ connection.maxBodyBytes) :
    ∃ after delivered,
      handleRead library callbacks (.bytes data) connection = some (after, delivered) ∧
      Streaming head.length parser.contentLength (head ++ unread) after ∧
      Called head.length parser.contentLength (head ++ unread) connection.callbackCalls after := by
  have inLimit : ¬connection.maxBodyBytes < parser.contentLength := Nat.not_lt_of_le fits
  simp only [handleRead, state, processHeaders, parsed, if_neg inLimit]
  by_cases empty : unread = []
  · subst empty
    rw [List.append_nil]
    refine ⟨_, none, rfl, .body (Nat.le_refl _) (Nat.lt_add_of_pos_right positive) rfl rfl ?_, ?_⟩
    · rw [remaining, Nat.add_sub_cancel_left]
    · exact called_nothing _ positive (Nat.le_refl _)
  · have notEmpty : unread.isEmpty = false := by simpa using empty
    simp only [notEmpty, Bool.false_eq_true, if_false]
    rcases of_processBody head strict silent { connection with
        state := .READING_BODY_STREAM, parser, inputBuffer := unread } rfl (Nat.le_refl _)
      (Nat.lt_add_of_pos_right positive) (by simp [remaining]) with
      ⟨after, delivered, performed, streaming, calls, count⟩
    refine ⟨after, delivered, performed, streaming, ?_⟩
    exact (called_nothing connection positive (Nat.le_refl head.length)).piece
      (Nat.lt_add_of_pos_right positive) (bodyOf_append unread (Nat.le_refl _)) count calls

/-- The reads go on with a head, up to the end of its blank line, and with `rest`; and however
many of them are made, the body of `length` bytes is delivered as far as it was received. -/
def DeliversAll (library : JsonLibrary) (consumed : Bytes) (length : Nat) (rest : Bytes)
    (reads : List (Bytes × Callbacks)) (connection : HttpConnection) : Prop :=
  ∃ lines, connection.inputBuffer ++ (reads.map Prod.fst).flatten = lines ++ crlf ++ rest ∧
    HttpParser.Head (consumed ++ (lines ++ crlf)) length ∧
    ∀ early late, reads = early ++ late →
      ∃ after, HttpConnection.receive library early connection = some after ∧
        Delivers (consumed ++ (lines ++ crlf)).length length
          (consumed ++ (connection.inputBuffer ++ (early.map Prod.fst).flatten))
          connection.callbackCalls after

section Head

variable {consumed data left rest : Bytes} {callbacks : Callbacks}
variable {reads : List (Bytes × Callbacks)} {parser : HttpParser} {length : Nat}

/-- Before the first read, which is still inside the head, nothing is delivered. -/
theorem DeliversAll.of_read {lines : Bytes} (positive : 0 < length)
    (noLine : Bytes.contains connection.inputBuffer crlf = false)
    (split : connection.inputBuffer ++ (data ++ (reads.map Prod.fst).flatten) =
      lines ++ crlf ++ rest)
    (head : HttpParser.Head (consumed ++ (lines ++ crlf)) length)
    (later : ∀ early late, reads = early ++ late →
      ∃ after, HttpConnection.receive library ((data, callbacks) :: early) connection = some after ∧
        Delivers (consumed ++ (lines ++ crlf)).length length
          (consumed ++ (connection.inputBuffer ++ (data ++ (early.map Prod.fst).flatten)))
          connection.callbackCalls after) :
    DeliversAll library consumed length rest ((data, callbacks) :: reads) connection := by
  refine ⟨lines, split, head, ?_⟩
  rintro (_ | ⟨first, early⟩) late whole
  · have short := length_le_of_no_line noLine split
    exact ⟨_, rfl, delivers_nothing connection positive (by simpa using short)⟩
  · rcases List.cons.inj whole with ⟨rfl, wholeRest⟩
    exact later early late wholeRest

/-- A read that takes some lines off the head. -/
theorem DeliversAll.of_lines {taken : Bytes} (positive : 0 < length)
    (noLine : Bytes.contains connection.inputBuffer crlf = false)
    (split : connection.inputBuffer ++ data = taken ++ left)
    (performed : handleRead library callbacks (.bytes data) connection =
      some ({ connection with parser, inputBuffer := left }, none))
    (others : DeliversAll library (consumed ++ taken) length rest reads
      { connection with parser, inputBuffer := left }) :
    DeliversAll library consumed length rest ((data, callbacks) :: reads) connection := by
  have regroup : ∀ late : Bytes, connection.inputBuffer ++ (data ++ late) =
      taken ++ (left ++ late) := by
    intro late
    rw [← List.append_assoc, split, List.append_assoc]
  rcases others with ⟨lines, splitRest, head, delivers⟩
  have wholeSplit : connection.inputBuffer ++ (data ++ (reads.map Prod.fst).flatten) =
      taken ++ lines ++ crlf ++ rest := by
    rw [regroup, splitRest]
    simp
  refine of_read positive noLine wholeSplit (by simpa using head) ?_
  intro early late whole
  rcases delivers early late whole with ⟨after, received, outcome⟩
  exact ⟨after, receive_cons performed received, by simpa [regroup] using outcome⟩

/-- The read that completes the head, and those after it. -/
theorem DeliversAll.of_head {lines : Bytes} (strict : library.Strict)
    (silent : ∀ read ∈ (data, callbacks) :: reads, read.2.Silent)
    (state : connection.state = .READING_HEADERS) (positive : 0 < parser.contentLength)
    (fits : parser.contentLength ≤ connection.maxBodyBytes)
    (noLine : Bytes.contains connection.inputBuffer crlf = false)
    (split : connection.inputBuffer ++ data = lines ++ crlf ++ left)
    (parsed : connection.parser.parse (connection.inputBuffer ++ data) =
      (.HEADERS_COMPLETE, parser, left))
    (remaining : parser.remainingBodyLength = parser.contentLength)
    (head : HttpParser.Head (consumed ++ (lines ++ crlf)) parser.contentLength) :
    DeliversAll library consumed parser.contentLength (left ++ (reads.map Prod.fst).flatten)
      ((data, callbacks) :: reads) connection := by
  rcases List.forall_mem_cons.mp silent with ⟨silentFirst, silentRest⟩
  refine of_read positive noLine ?_ head ?_
  · rw [← List.append_assoc, split, List.append_assoc]
  · rintro early late rfl
    rcases Streaming.of_head (consumed ++ (lines ++ crlf)) strict silentFirst state parsed remaining
      positive fits with ⟨middle, delivered, performed, streaming, called⟩
    rcases streaming.receive called strict
      (fun read member => silentRest read (List.mem_append_left _ member)) with
      ⟨after, received, streamingAfter, calledAfter⟩
    have regroup : consumed ++ (connection.inputBuffer ++
        (data ++ (early.map Prod.fst).flatten)) =
        consumed ++ (lines ++ crlf) ++ left ++ (early.map Prod.fst).flatten := by
      rw [← List.append_assoc connection.inputBuffer, split]
      simp
    rw [regroup]
    exact ⟨after, receive_cons performed received, streamingAfter.delivers calledAfter⟩

end Head

/-- The reads of a message, from inside its head.  The induction is on the reads: each one
that does not complete the head takes some lines off it. -/
theorem receive_of_accepted {consumed : Bytes} {buffer unread : ByteBuffer} {later : List Bytes}
    {parser : HttpParser} (strict : library.Strict) {reads : List (Bytes × Callbacks)}
    (silent : ∀ read ∈ reads, read.2.Silent) (state : connection.state = .READING_HEADERS)
    (reading : connection.parser.Reading consumed) (input : buffer.peek = connection.inputBuffer)
    (noLine : Bytes.contains connection.inputBuffer crlf = false)
    (accepted : HttpParser.feed connection.parser buffer (reads.map Prod.fst) =
      (.HEADERS_COMPLETE, parser, unread, later))
    (positive : 0 < parser.contentLength)
    (fits : parser.contentLength ≤ connection.maxBodyBytes) :
    DeliversAll library consumed parser.contentLength (unread.peek ++ later.flatten) reads
      connection := by
  induction reads generalizing connection consumed buffer with
  | nil => simp [HttpParser.feed] at accepted
  | cons read reads inductionHypothesis =>
      rcases read with ⟨data, callbacks⟩
      have onBuffer := reading.parseBuffer (buffer.append data)
      have consumes := reading.parse (connection.inputBuffer ++ data)
      rw [ByteBuffer.peek_append, input] at onBuffer
      simp only [List.map_cons, HttpParser.feed] at accepted
      rcases parsed : connection.parser.parse (connection.inputBuffer ++ data) with
        ⟨result, middle, rest⟩
      rcases buffered : connection.parser.parseBuffer (buffer.append data) with
        ⟨bufferResult, bufferParser, bufferRest⟩
      rw [parsed, buffered] at onBuffer
      rw [buffered] at accepted
      rcases onBuffer with ⟨rfl, rfl, rfl⟩
      rw [parsed] at consumes
      rcases consumes with ⟨taken, split, returned⟩
      cases bufferResult with
      | NEED_MORE_DATA =>
          have performed : handleRead library callbacks (.bytes data) connection =
              some ({ connection with
                parser := bufferParser, inputBuffer := bufferRest.peek }, none) := by
            simp only [handleRead, state, processHeaders, parsed]
          have stateNext : HttpConnection.state { connection with
              parser := bufferParser, inputBuffer := bufferRest.peek } = .READING_HEADERS := state
          refine .of_lines positive noLine split performed ?_
          exact inductionHypothesis (List.forall_mem_cons.mp silent).2 stateNext returned.1 rfl
            returned.2 accepted fits
      | HEADERS_COMPLETE =>
          rcases reading.ends_line parsed with ⟨lines, ends⟩
          simp only [Prod.mk.injEq, true_and] at accepted
          rcases accepted with ⟨rfl, rfl, rfl⟩
          rcases returned with ⟨-, head, remaining, -⟩
          obtain rfl : taken = lines ++ crlf :=
            List.append_cancel_right (split.symm.trans ends)
          exact .of_head strict silent state positive fits noLine split parsed remaining head
      | BODY_DATA => exact returned.elim
      | MESSAGE_COMPLETE => simp at accepted
      | ERROR => simp at accepted

end Run

end HttpConnection

/-- However the stream is cut into reads, the calls of a body callback that does not answer pass
on exactly the bytes that an accepted head announces.  After them the request callback is called,
once, with the first read by which they have arrived, and the bytes after the message are then
left in the input buffer. -/
theorem body_is_delivered_once (library : JsonLibrary) (strict : library.Strict)
    (connection : HttpConnection) (state : connection.state = .READING_HEADERS)
    (start : connection.parser.Reading []) (drained : connection.inputBuffer = [])
    (reads : List (Bytes × Callbacks)) (silent : ∀ read ∈ reads, read.2.Silent)
    (parser : HttpParser) (unread : ByteBuffer) (later : List Bytes)
    (accepted : HttpParser.feed connection.parser .initial (reads.map Prod.fst) =
      (.HEADERS_COMPLETE, parser, unread, later))
    (positive : 0 < parser.contentLength)
    (fits : parser.contentLength ≤ connection.maxBodyBytes) :
    ∃ head, (reads.map Prod.fst).flatten = head ++ (unread.peek ++ later.flatten) ∧
      HttpParser.Head head parser.contentLength ∧
      ∀ early late, reads = early ++ late →
        let received := (early.map Prod.fst).flatten
        ∃ (after : HttpConnection) (pieces : List Bytes) (requests : List HttpRequest),
          connection.receive library early = some after ∧
          after.callbackCalls = connection.callbackCalls ++
            (pieces.map CallbackCall.bodyData ++ requests.map CallbackCall.request) ∧
          pieces.flatten = (received.drop head.length).take parser.contentLength ∧
          requests.length =
            (if head.length + parser.contentLength ≤ received.length then 1 else 0) ∧
          (head.length + parser.contentLength ≤ received.length →
            after.inputBuffer = received.drop (head.length + parser.contentLength)) := by
  have buffered : ByteBuffer.initial.peek = connection.inputBuffer := by
    rw [drained, ByteBuffer.peek_initial]
  have noLine : Bytes.contains connection.inputBuffer crlf = false := by
    rw [drained]
    rfl
  rcases HttpConnection.receive_of_accepted strict silent state start buffered noLine accepted
    positive fits with ⟨lines, split, head, delivers⟩
  rw [drained, List.nil_append] at split
  refine ⟨lines ++ crlf, split, head, ?_⟩
  intro early late whole
  rcases delivers early late whole with ⟨after, received, outcome⟩
  rw [drained] at outcome
  rcases outcome with ⟨⟨pieces, requests, calls, passed, count⟩, rest⟩
  exact ⟨after, pieces, requests, received, calls, passed, count, rest⟩

/-- An upload of five bytes in four reads, the second of which ends inside the blank line,
and the beginning of the next request. -/
def uploadInPieces : List (Bytes × Callbacks) :=
  [ascii "PUT /b/o HT", ascii "TP/1.1\r\nContent-Length: 5\r\n\r", ascii "\nhe",
    ascii "lloGET"].map (·, ⟨.appended, fun request => (request, .ok []), .opened⟩)

/-- The theorem for an upload whose head is cut inside the blank line. -/
theorem body_is_delivered_once_cutHead :
    ∃ (after : HttpConnection) (pieces : List Bytes) (request : HttpRequest),
      (HttpConnection.initial [] 1024).receive (.plain []) uploadInPieces = some after ∧
      after.callbackCalls = pieces.map CallbackCall.bodyData ++ [.request request] ∧
      pieces.flatten = ascii "hello" ∧ after.inputBuffer = ascii "GET" := by
  rcases fed : HttpParser.feed .initial .initial (uploadInPieces.map Prod.fst) with
    ⟨completed, parser, unread, later⟩
  obtain rfl : .HEADERS_COMPLETE = completed := by
    rw [show completed = _ from (congrArg Prod.fst fed).symm]
    decide +kernel
  have announced : parser.contentLength = 5 := by
    rw [show parser = _ from (congrArg (·.2.1) fed).symm]
    decide +kernel
  have left : (unread.peek ++ later.flatten).length = 8 := by
    rw [show unread = _ from (congrArg (·.2.2.1) fed).symm,
      show later = _ from (congrArg (·.2.2.2) fed).symm]
    decide +kernel
  have silent : ∀ read ∈ uploadInPieces, read.2.Silent := by
    intro read member response failed
    rcases List.mem_map.mp member with ⟨data, -, rfl⟩
    cases failed
  rcases body_is_delivered_once (.plain []) (JsonLibrary.strict_plain []) (.initial [] 1024) rfl
    .initial rfl uploadInPieces silent parser unread later fed (by rw [announced]; decide)
    (by rw [announced]; decide) with ⟨head, split, -, delivers⟩
  have headLength : head.length = 40 := by
    have whole := congrArg List.length split
    have total : (uploadInPieces.map Prod.fst).flatten.length = 48 := by decide +kernel
    rw [List.length_append, total, left] at whole
    omega
  rcases delivers uploadInPieces [] (List.append_nil _).symm with
    ⟨after, pieces, requests, received, calls, passed, count, rest⟩
  rw [headLength, announced] at passed count rest
  rcases List.length_eq_one_iff.mp (count.trans (by decide +kernel)) with ⟨request, rfl⟩
  exact ⟨after, pieces, request, received, calls, passed.trans (by decide +kernel),
    (rest (by decide +kernel)).trans (by decide +kernel)⟩

end MiniS3.Net
