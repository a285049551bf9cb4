import MiniS3.Net.ByteBuffer
import MiniS3.Net.HttpParser

/-!
# Parsing a request that arrives in pieces

The network may cut a request anywhere, also between the two bytes of a line
terminator.  As long as no line is longer than the limits, the parser does the same
on the pieces as on the whole: a turn of its loop that does not ask for more data
does the same when more bytes follow, and one that does has changed nothing.

`Parse` works on a `ByteBuffer`, of which it uses the unread bytes only.
-/

namespace MiniS3.Net

open Lib

namespace HttpParser

/-! ## Parsing from a buffer -/

/-- `RetrieveUntil`, where `rest` is what stays unread. -/
def retrieveUntil (rest : Bytes) (buffer : ByteBuffer) : ByteBuffer :=
  buffer.retrieve (buffer.readableBytes - rest.length)

/-- At most `turns` turns of the loop, on the unread bytes of a buffer. -/
def bufferLoop : Nat → HttpParser → ByteBuffer → ParseResult × HttpParser × ByteBuffer
  | 0, parser, buffer => (.NEED_MORE_DATA, parser, buffer)
  | turns + 1, parser, buffer =>
      match turn parser buffer.peek with
      | .again parser rest => bufferLoop turns parser (retrieveUntil rest buffer)
      | .stop result parser rest => (result, parser, retrieveUntil rest buffer)

/-- `Parse`. -/
def parseBuffer (parser : HttpParser) (buffer : ByteBuffer) :
    ParseResult × HttpParser × ByteBuffer :=
  bufferLoop (buffer.readableBytes + 1) parser buffer

/-- Append the chunks one by one and parse after each, until the parser asks for nothing
more.  The last component is what was never appended. -/
def feed (parser : HttpParser) (buffer : ByteBuffer) :
    List Bytes → ParseResult × HttpParser × ByteBuffer × List Bytes
  | [] => (.NEED_MORE_DATA, parser, buffer, [])
  | chunk :: chunks =>
      match parseBuffer parser (buffer.append chunk) with
      | (.NEED_MORE_DATA, parser, buffer) => feed parser buffer chunks
      | (result, parser, buffer) => (result, parser, buffer, chunks)

/-! ## The limits -/

/-- The text up to the first line terminator. -/
def firstLine (text : Bytes) : Bytes :=
  match Bytes.find crlf text with
  | some length => text.take length
  | none => text

/-- The request line has at most 4095 bytes, and every header line, terminated or not, at
most 8191. -/
structure WithinLimits (text : Bytes) : Prop where
  requestLine : (firstLine text).length ≤ 4095
  headerLine : ∀ line fields rest, text = terminated (line :: fields) ++ rest → IsLine line →
    (∀ field ∈ fields, field ≠ [] ∧ IsLine field) → (firstLine rest).length ≤ 8191

theorem length_firstLine_le (text : Bytes) : (firstLine text).length ≤ text.length := by
  unfold firstLine
  split
  · exact List.length_take_le' ..
  · exact Nat.le_refl _

/-- A short text is within the limits. -/
theorem WithinLimits.of_short {text : Bytes} (short : text.length ≤ 4095) :
    WithinLimits text := by
  constructor
  · exact (length_firstLine_le text).trans short
  · intro line fields rest split _ _
    have length := congrArg List.length split
    rw [List.length_append] at length
    have bound := length_firstLine_le rest
    omega

/-! ## A turn with more bytes behind it -/

section Turn

variable {parser : HttpParser} {consumed buffer more : Bytes}

/-- What comes before a line terminator is not longer than the line allows. -/
theorem length_le_of_find_none {limit : Nat} (absent : Bytes.find crlf buffer = none)
    (within : (firstLine (buffer ++ more)).length ≤ limit) : buffer.length ≤ limit + 1 := by
  unfold firstLine at within
  split at within
  · rename_i length found
    have reaches := Bytes.length_lt_of_find_append absent found
    have room := Bytes.length_le_of_find found
    simp only [List.length_take, crlf, List.length_cons, List.length_nil] at within reaches room
    omega
  · simp only [List.length_append] at within
    omega

theorem take_of_find (more : Bytes) {length : Nat} (found : Bytes.find crlf buffer = some length) :
    (buffer ++ more).take length = buffer.take length ∧
      (buffer ++ more).drop (length + 2) = buffer.drop (length + 2) ++ more := by
  have room := Bytes.length_le_of_find found
  simp only [crlf, List.length_cons, List.length_nil] at room
  exact ⟨List.take_append_of_le_length (by omega), List.drop_append_of_le_length (by omega)⟩

/-- The line that a reading parser is at is within its limit. -/
theorem Reading.lineWithin (reading : Reading parser consumed)
    (within : WithinLimits (consumed ++ buffer)) :
    (parser.state = .REQUEST_LINE ∧ (firstLine buffer).length ≤ 4095) ∨
      (parser.state = .HEADERS ∧ (firstLine buffer).length ≤ 8191) := by
  cases reading with
  | requestLine state headers => exact .inl ⟨state, within.requestLine⟩
  | headers line fields state lineIsLine fieldsAreLines represented =>
      exact .inr ⟨state, within.headerLine line fields buffer rfl lineIsLine fieldsAreLines⟩

/-- What a turn does when more bytes follow: the same, unless it asks for them. -/
def TurnExtends (parser : HttpParser) (buffer more : Bytes) : Prop :=
  (∀ parser' buffer', turn parser buffer = .again parser' buffer' →
    turn parser (buffer ++ more) = .again parser' (buffer' ++ more)) ∧
  ∀ result parser' buffer', turn parser buffer = .stop result parser' buffer' →
    (result = .NEED_MORE_DATA ∧ parser' = parser ∧ buffer' = buffer) ∨
      (result ≠ .NEED_MORE_DATA ∧
        turn parser (buffer ++ more) = .stop result parser' (buffer' ++ more))

theorem requestLineTurn_extends (state : parser.state = .REQUEST_LINE)
    (within : (firstLine (buffer ++ more)).length ≤ 4095) :
    TurnExtends parser buffer more := by
  unfold TurnExtends turn
  simp only [state, requestLineTurn]
  cases found : Bytes.find crlf buffer with
  | none =>
      have short := length_le_of_find_none found within
      rw [if_neg (by simp only [kMaxRequestLineSize]; omega)]
      constructor
      · intro parser' buffer' goesOn
        contradiction
      · intro result parser' buffer' stopped
        rcases Turn.stop.inj stopped with ⟨rfl, rfl, rfl⟩
        exact .inl ⟨rfl, rfl, rfl⟩
  | some length =>
      rcases take_of_find more found with ⟨taken, dropped⟩
      simp only [Bytes.find_append_of_some found, taken, dropped, fail]
      cases parsed : parseRequestLine (buffer.take length) parser.request with
      | mk request message =>
          cases message with
          | none =>
              constructor
              · intro parser' buffer' goesOn
                rcases Turn.again.inj goesOn with ⟨rfl, rfl⟩
                rfl
              · intro result parser' buffer' stopped
                contradiction
          | some message =>
              constructor
              · intro parser' buffer' goesOn
                contradiction
              · intro result parser' buffer' stopped
                rcases Turn.stop.inj stopped with ⟨rfl, rfl, rfl⟩
                exact .inr ⟨by simp, rfl⟩

/-- The end of the head does not look at the buffer. -/
theorem blankLineTurn_append {result : ParseResult} {parser' : HttpParser} {buffer' : Bytes}
    (stopped : blankLineTurn parser buffer = .stop result parser' buffer') :
    result ≠ .NEED_MORE_DATA ∧
      blankLineTurn parser (buffer ++ more) = .stop result parser' (buffer' ++ more) := by
  unfold blankLineTurn fail at stopped ⊢
  split at stopped
  · rcases Turn.stop.inj stopped with ⟨rfl, rfl, rfl⟩
    exact ⟨by simp, rfl⟩
  · split at stopped
    · rename_i body
      rcases Turn.stop.inj stopped with ⟨rfl, rfl, rfl⟩
      exact ⟨by simp, by rw [if_pos body]⟩
    · rename_i noBody
      rcases Turn.stop.inj stopped with ⟨rfl, rfl, rfl⟩
      exact ⟨by simp, by rw [if_neg noBody]⟩

theorem blankLineTurn_ne_again {parser' : HttpParser} {buffer' : Bytes} :
    blankLineTurn parser buffer ≠ .again parser' buffer' := by
  unfold blankLineTurn fail
  split
  · simp
  · split <;> simp

theorem headersTurn_extends (state : parser.state = .HEADERS)
    (within : (firstLine (buffer ++ more)).length ≤ 8191) :
    TurnExtends parser buffer more := by
  unfold TurnExtends turn
  simp only [state, headersTurn]
  cases found : Bytes.find crlf buffer with
  | none =>
      have short := length_le_of_find_none found within
      rw [if_neg (by simp only [kMaxHeaderSize]; omega)]
      constructor
      · intro parser' buffer' goesOn
        contradiction
      · intro result parser' buffer' stopped
        rcases Turn.stop.inj stopped with ⟨rfl, rfl, rfl⟩
        exact .inl ⟨rfl, rfl, rfl⟩
  | some length =>
      rcases take_of_find more found with ⟨taken, dropped⟩
      simp only [Bytes.find_append_of_some found, taken, dropped]
      by_cases blank : length = 0
      · subst length
        simp only [Nat.zero_add] at dropped
        simp only [if_true, dropped]
        constructor
        · intro parser' buffer' goesOn
          exact absurd goesOn blankLineTurn_ne_again
        · intro result parser' buffer' stopped
          exact .inr (blankLineTurn_append stopped)
      · simp only [if_neg blank, fail]
        cases parsed : parseHeader (buffer.take length) parser.request with
        | mk request message =>
            cases message with
            | none =>
                constructor
                · intro parser' buffer' goesOn
                  rcases Turn.again.inj goesOn with ⟨rfl, rfl⟩
                  rfl
                · intro result parser' buffer' stopped
                  contradiction
            | some message =>
                constructor
                · intro parser' buffer' goesOn
                  contradiction
                · intro result parser' buffer' stopped
                  rcases Turn.stop.inj stopped with ⟨rfl, rfl, rfl⟩
                  exact .inr ⟨by simp, rfl⟩

/-- A turn of a reading parser does the same when more bytes follow. -/
theorem Reading.turnExtends (reading : Reading parser consumed)
    (within : WithinLimits (consumed ++ (buffer ++ more))) : TurnExtends parser buffer more := by
  rcases reading.lineWithin within with ⟨state, short⟩ | ⟨state, short⟩
  · exact requestLineTurn_extends state short
  · exact headersTurn_extends state short

end Turn

/-! ## The loop with more bytes behind it -/

theorem loop_of_length {turns : Nat} {parser : HttpParser} {buffer : Bytes}
    (enough : buffer.length < turns) : loop turns parser buffer = parse parser buffer := by
  suffices steady : ∀ first second parser buffer, List.length buffer < first →
      buffer.length < second → loop first parser buffer = loop second parser buffer from
    steady turns (buffer.length + 1) parser buffer enough (Nat.lt_succ_self _)
  intro first
  induction first with
  | zero =>
      intro second parser buffer impossible
      contradiction
  | succ first inductionHypothesis =>
      intro second parser buffer firstEnough secondEnough
      cases second with
      | zero => contradiction
      | succ second =>
          simp only [loop]
          cases outcome : turn parser buffer with
          | stop result parser' buffer' => rfl
          | again parser' buffer' =>
              have shorter := length_lt_of_turn outcome
              exact inductionHypothesis second parser' buffer' (by omega) (by omega)

theorem parse_of_again {parser parser' : HttpParser} {buffer buffer' : Bytes}
    (goesOn : turn parser buffer = .again parser' buffer') :
    parse parser buffer = parse parser' buffer' := by
  have shorter := length_lt_of_turn goesOn
  rw [← loop_of_length shorter]
  simp only [parse, loop, goesOn]

theorem parse_of_stop {parser parser' : HttpParser} {buffer buffer' : Bytes}
    {result : ParseResult} (stopped : turn parser buffer = .stop result parser' buffer') :
    parse parser buffer = (result, parser', buffer') := by
  simp only [parse, loop, stopped]

/-- What `Parse` does when more bytes follow: it goes on from where it asked for them, or has
returned the same. -/
def ParseExtends (parser : HttpParser) (buffer more : Bytes) : Prop :=
  ∀ result parser' buffer', parse parser buffer = (result, parser', buffer') →
    parse parser (buffer ++ more) =
      if result = .NEED_MORE_DATA then parse parser' (buffer' ++ more)
      else (result, parser', buffer' ++ more)

/-- The induction is on the bytes in the buffer, of which every turn that goes on takes a
line; what the turns have taken is where the limits are looked up. -/
theorem Reading.parseExtends {parser : HttpParser} {consumed buffer more : Bytes}
    (reading : Reading parser consumed)
    (within : WithinLimits (consumed ++ (buffer ++ more))) :
    ParseExtends parser buffer more := by
  generalize size : buffer.length = bound
  induction bound using Nat.strong_induction_on generalizing parser consumed buffer with
  | h bound inductionHypothesis =>
      intro result parser' buffer' parsed
      rcases reading.turnExtends within with ⟨again, stop⟩
      cases outcome : turn parser buffer with
      | again middle rest =>
          have shorter := length_lt_of_turn outcome
          rcases reading.again outcome with ⟨taken, split, readingNext⟩
          rw [parse_of_again outcome] at parsed
          rw [parse_of_again (again middle rest outcome)]
          refine inductionHypothesis rest.length (by omega) readingNext ?_ rfl result parser'
            buffer' parsed
          rw [split] at within
          simpa using within
      | stop stopResult stopParser rest =>
          rw [parse_of_stop outcome] at parsed
          simp only [Prod.mk.injEq] at parsed
          rcases parsed with ⟨rfl, rfl, rfl⟩
          rcases stop _ _ _ outcome with ⟨rfl, rfl, rfl⟩ | ⟨other, stopped⟩
          · rw [if_pos rfl]
          · rw [if_neg other, parse_of_stop stopped]

/-! ## Parsing from a buffer is parsing its unread bytes -/

theorem peek_retrieveUntil {buffer : ByteBuffer} {taken rest : Bytes}
    (split : buffer.peek = taken ++ rest) : (retrieveUntil rest buffer).peek = rest := by
  have length := congrArg List.length split
  rw [ByteBuffer.length_peek, List.length_append] at length
  rw [retrieveUntil, ByteBuffer.peek_retrieve, split, List.drop_left']
  omega

/-- `Parse` on a buffer returns what it returns on the unread bytes, which it shortens in the
same way. -/
theorem Reading.parseBuffer {parser : HttpParser} {consumed : Bytes}
    (reading : Reading parser consumed) (buffer : ByteBuffer) :
    (parseBuffer parser buffer).1 = (HttpParser.parse parser buffer.peek).1 ∧
      (parseBuffer parser buffer).2.1 = (HttpParser.parse parser buffer.peek).2.1 ∧
      (parseBuffer parser buffer).2.2.peek = (HttpParser.parse parser buffer.peek).2.2 := by
  have same : ∀ turns (parser : HttpParser) (consumed : Bytes) (buffer : ByteBuffer),
      Reading parser consumed → buffer.readableBytes < turns →
      (bufferLoop turns parser buffer).1 = (loop turns parser buffer.peek).1 ∧
        (bufferLoop turns parser buffer).2.1 = (loop turns parser buffer.peek).2.1 ∧
        (bufferLoop turns parser buffer).2.2.peek = (loop turns parser buffer.peek).2.2 := by
    intro turns
    induction turns with
    | zero =>
        intro parser consumed buffer _ impossible
        contradiction
    | succ turns inductionHypothesis =>
        intro parser consumed buffer readingNow enough
        simp only [bufferLoop, loop]
        cases outcome : turn parser buffer.peek with
        | stop result parser' rest =>
            rcases readingNow.stop outcome with ⟨taken, split, -⟩
            exact ⟨rfl, rfl, peek_retrieveUntil split⟩
        | again parser' rest =>
            rcases readingNow.again outcome with ⟨taken, split, readingNext⟩
            have unread := peek_retrieveUntil split
            have shorter := length_lt_of_turn outcome
            have fewer : (retrieveUntil rest buffer).readableBytes < turns := by
              rw [← ByteBuffer.length_peek, unread]
              rw [ByteBuffer.length_peek] at shorter
              omega
            have rest := inductionHypothesis parser' _ _ readingNext fewer
            rw [unread] at rest
            exact rest
  unfold HttpParser.parseBuffer HttpParser.parse
  rw [ByteBuffer.length_peek]
  exact same _ parser consumed buffer reading (Nat.lt_succ_self _)

/-! ## Chunks -/

theorem Reading.initial : Reading .initial [] :=
  .requestLine rfl rfl

/-- Without a line in the buffer, the parser asks for more and changes nothing. -/
theorem Reading.parse_of_no_line {parser : HttpParser} {consumed buffer : Bytes}
    (reading : Reading parser consumed) (noLine : Bytes.contains buffer crlf = false)
    (within : WithinLimits (consumed ++ buffer)) :
    HttpParser.parse parser buffer = (.NEED_MORE_DATA, parser, buffer) := by
  have absent : Bytes.find crlf buffer = none := by
    simpa [Bytes.contains] using noLine
  apply parse_of_stop
  rcases reading.lineWithin within with ⟨state, short⟩ | ⟨state, short⟩
  · simp only [firstLine, absent] at short
    simp only [turn, state, requestLineTurn, absent]
    rw [if_neg (by simp only [kMaxRequestLineSize]; omega)]
  · simp only [firstLine, absent] at short
    simp only [turn, state, headersTurn, absent]
    rw [if_neg (by simp only [kMaxHeaderSize]; omega)]

/-- The chunks, fed one by one, give what the unread bytes and all chunks together give. -/
theorem Reading.feed {parser : HttpParser} {consumed : Bytes} (reading : Reading parser consumed)
    (buffer : ByteBuffer) (chunks : List Bytes)
    (noLine : Bytes.contains buffer.peek crlf = false)
    (within : WithinLimits (consumed ++ (buffer.peek ++ chunks.flatten))) :
    (feed parser buffer chunks).1 =
        (HttpParser.parse parser (buffer.peek ++ chunks.flatten)).1 ∧
      (feed parser buffer chunks).2.1 =
        (HttpParser.parse parser (buffer.peek ++ chunks.flatten)).2.1 ∧
      (feed parser buffer chunks).2.2.1.peek ++ (feed parser buffer chunks).2.2.2.flatten =
        (HttpParser.parse parser (buffer.peek ++ chunks.flatten)).2.2 := by
  induction chunks generalizing parser consumed buffer with
  | nil =>
      simp only [List.flatten_nil, List.append_nil] at within ⊢
      rw [reading.parse_of_no_line noLine within]
      simp [HttpParser.feed]
  | cons chunk chunks inductionHypothesis =>
      simp only [List.flatten_cons, ← List.append_assoc] at within ⊢
      simp only [List.append_assoc consumed] at within
      have onBuffer := reading.parseBuffer (buffer.append chunk)
      have extended := reading.parseExtends within
      have consumes := reading.parse (buffer.peek ++ chunk)
      rw [ByteBuffer.peek_append] at onBuffer
      simp only [HttpParser.feed]
      rcases parsed : HttpParser.parse parser (buffer.peek ++ chunk) with
        ⟨result, middle, rest⟩
      rcases buffered : HttpParser.parseBuffer parser (buffer.append chunk) with
        ⟨bufferResult, bufferParser, bufferRest⟩
      rw [parsed, buffered] at onBuffer
      rcases onBuffer with ⟨rfl, rfl, rfl⟩
      rw [extended _ _ _ parsed]
      rw [parsed] at consumes
      rcases consumes with ⟨taken, split, returned⟩
      cases bufferResult with
      | NEED_MORE_DATA =>
          rw [if_pos rfl]
          refine inductionHypothesis returned.1 bufferRest returned.2 ?_
          rw [split] at within
          simpa using within
      | _ => simp

end HttpParser

/-- Within the size limits, parsing does not depend on how a request is cut into chunks: the
result, the parser with its request, and the bytes that are left are those of one call on the
whole. -/
theorem parsing_does_not_depend_on_chunks (text : Bytes) (chunks : List Bytes)
    (cut : chunks.flatten = text) (within : HttpParser.WithinLimits text) :
    let fed := HttpParser.feed .initial .initial chunks
    let whole := HttpParser.parseBuffer .initial (ByteBuffer.initial.append text)
    fed.1 = whole.1 ∧ fed.2.1 = whole.2.1 ∧ fed.2.2.1.peek ++ fed.2.2.2.flatten = whole.2.2.peek := by
  subst text
  have onBuffer := HttpParser.Reading.initial.parseBuffer
    (ByteBuffer.initial.append chunks.flatten)
  have fed := HttpParser.Reading.initial.feed .initial chunks (by decide)
    (by simpa using within)
  rw [ByteBuffer.peek_append] at onBuffer
  rcases onBuffer with ⟨sameResult, sameParser, sameRest⟩
  dsimp only
  rw [sameResult, sameParser, sameRest]
  exact fed

/-- The theorem for a request that is cut inside a line terminator. -/
theorem parsing_does_not_depend_on_chunks_cutTerminator :
    (HttpParser.feed .initial .initial
      [ascii "GET / HTTP/1.1\r", ascii "\nHost: a\r\n\r", ascii "\nmore"]).1 =
      .MESSAGE_COMPLETE := by
  refine (parsing_does_not_depend_on_chunks (ascii "GET / HTTP/1.1\r\nHost: a\r\n\r\nmore") _
    (by decide) (.of_short (by decide))).1.trans ?_
  decide +kernel

end MiniS3.Net
