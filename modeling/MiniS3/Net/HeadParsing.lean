import MiniS3.Net.HeadGrammar

/-!
# Parsing request heads

The parser accepts exactly the heads of the grammar.  Each turn of the loop of `Parse` decides one
line: it is correct, and the parser goes on behind it; it is not there yet, and the parser asks for
more, unless what is there is already too long; or it is wrong, and the text neither begins with a
head nor is the beginning of one.
-/

namespace MiniS3.Net.HttpParser

open Lib

/-- What a parser that is inside a head has read. -/
inductive ReadLines (parser : HttpParser) : Bytes → Prop
  | start : parser.state = .REQUEST_LINE → parser.request.headers = ∅ →
      parser.request.query = [] → ReadLines parser []
  | headers {method target version line fields} : parser.state = .HEADERS → IsLine line →
      RequestLine method target version line → (∀ field ∈ fields, HeaderLine field) →
      (∀ name, parser.request.getHeader name = fieldValue name fields) →
      Requested method target version parser.request →
      ReadLines parser (terminated (line :: fields))

/-- What `Parse` decides about a text when it returns, with `rest` left in the buffer. -/
def Decided (text : Bytes) (result : ParseResult) (parser : HttpParser) (rest : Bytes) : Prop :=
  match result with
  | .NEED_MORE_DATA => Unfinished text ∧ ¬Overflows text ∧
      ∃ consumed, ReadLines parser consumed ∧ text = consumed ++ rest ∧ IsLine rest
  | .HEADERS_COMPLETE | .MESSAGE_COMPLETE => ∃ method target version fields,
      BeginsWith text method target version fields rest ∧
        Requested method target version parser.request ∧
        ∀ name, parser.request.getHeader name = fieldValue name fields
  | .ERROR => ¬HasHead text ∧ (Unfinished text → Overflows text)
  | .BODY_DATA => False

section Turns

variable {parser parser' : HttpParser} {consumed buffer buffer' : Bytes}

theorem isLine_of_find_none {text : Bytes} (absent : Bytes.find crlf text = none) :
    IsLine text := by
  simp [IsLine, Bytes.contains, absent]

/-- A buffer with a line in it. -/
theorem split_of_find {length : Nat} (found : Bytes.find crlf buffer = some length) :
    IsLine (buffer.take length) ∧
      buffer = buffer.take length ++ crlf ++ buffer.drop (length + 2) := by
  obtain ⟨isLine, split⟩ := line_of_find found
  exact ⟨isLine, by simpa [terminated] using split⟩

/-- A line that is read as a header line has a colon, and changes the headers only. -/
theorem parseHeader_spec {line : Bytes} {request request' : HttpRequest}
    (parsed : parseHeader line request = (request', none)) :
    (58 : UInt8) ∈ line ∧ ∀ {method target version}, Requested method target version request →
      Requested method target version request' := by
  unfold parseHeader at parsed
  cases split : splitField line with
  | none => simp [split] at parsed
  | some entry =>
      obtain ⟨key, value⟩ := entry
      simp only [split, Prod.mk.injEq, and_true] at parsed
      subst parsed
      constructor
      · by_contra noColon
        rw [splitField_eq_none.mpr noColon] at split
        contradiction
      · rintro _ _ _ ⟨method, version, target⟩
        exact ⟨method, version, target⟩

theorem parseHeader_fails {line message : Bytes} {request request' : HttpRequest}
    (parsed : parseHeader line request = (request', some message)) : (58 : UInt8) ∉ line := by
  unfold parseHeader at parsed
  cases split : splitField line with
  | none => exact splitField_eq_none.mp split
  | some entry => simp [split] at parsed

/-- The end of the text is not longer than it may be. -/
theorem not_overflows_of_isLine {text : Bytes} (isLine : IsLine text)
    (short : text.length ≤ kMaxRequestLineSize) : ¬Overflows text := by
  intro overflows
  cases overflows with
  | requestLine _ long => omega
  | headers =>
      rw [terminated_cons_append] at isLine
      exact not_isLine_of_crlf _ _ isLine

theorem not_overflows_of_headers {line : Bytes} {fields : List Bytes} (isLine : IsLine line)
    (headerLines : ∀ field ∈ fields, HeaderLine field) (restIsLine : IsLine buffer)
    (short : buffer.length ≤ kMaxHeaderSize) :
    ¬Overflows (terminated (line :: fields) ++ buffer) := by
  intro overflows
  generalize same : terminated (line :: fields) ++ buffer = text at overflows
  cases overflows with
  | requestLine textIsLine _ =>
      rw [← same, terminated_cons_append] at textIsLine
      exact not_isLine_of_crlf _ _ textIsLine
  | headers isOther _ otherLines tailIsLine long =>
      obtain ⟨-, -, rfl⟩ := reading_unique isLine isOther headerLines otherLines
        (.unterminated restIsLine) (.unterminated tailIsLine) same
      omega

/-- A text whose first line is no request line has no head and is not the beginning of one. -/
theorem decided_of_wrong_line {line rest : Bytes} (isLine : IsLine line)
    (wrong : ∀ method target version, ¬RequestLine method target version line) :
    ¬HasHead (line ++ crlf ++ rest) ∧
      (Unfinished (line ++ crlf ++ rest) → Overflows (line ++ crlf ++ rest)) := by
  constructor
  · rintro ⟨method, target, version, fields, tail, begins⟩
    obtain ⟨other, split, isOther, requestLine⟩ := begins.split
    rw [requestHead_eq, terminated_cons_append] at split
    obtain ⟨rfl, -⟩ := line_cancel isLine isOther split
    exact wrong _ _ _ requestLine
  · intro unfinished
    generalize same : line ++ crlf ++ rest = text at unfinished
    cases unfinished with
    | requestLine textIsLine =>
        rw [← same] at textIsLine
        exact absurd textIsLine (not_isLine_of_crlf _ _)
    | headers isOther requestLine =>
        rw [terminated_cons_append] at same
        obtain ⟨rfl, -⟩ := line_cancel isLine isOther same
        exact absurd requestLine (wrong _ _ _)

/-- Lines that are followed by a wrong one have no head and are not the beginning of one. -/
theorem decided_of_wrong_headers {line rest : Bytes} {fields : List Bytes} (isLine : IsLine line)
    (headerLines : ∀ field ∈ fields, HeaderLine field) {wrong : Bytes} (isWrong : IsLine wrong)
    (notHeader : ¬HeaderLine wrong) (notBlank : wrong ≠ []) :
    ¬HasHead (terminated (line :: fields) ++ (wrong ++ crlf ++ rest)) ∧
      (Unfinished (terminated (line :: fields) ++ (wrong ++ crlf ++ rest)) →
        Overflows (terminated (line :: fields) ++ (wrong ++ crlf ++ rest))) := by
  constructor
  · rintro ⟨method, target, version, others, tail, begins⟩
    obtain ⟨-, -, rests⟩ := HasHead.stops isLine headerLines (.line isWrong notHeader) begins
    exact notBlank (line_cancel isWrong isLine_nil (by simpa using rests)).1
  · intro unfinished
    obtain ⟨-, restIsLine⟩ :=
      Unfinished.stops isLine headerLines (.line isWrong notHeader) unfinished
    exact absurd restIsLine (not_isLine_of_crlf _ _)

/-- A blank line ends the head, and `FinishHeaders` decides whether it is one. -/
theorem decided_of_blank {method : HttpMethod} {target version line : Bytes}
    {fields : List Bytes} {result : ParseResult} (isLine : IsLine line)
    (requestLine : RequestLine method target version line)
    (headerLines : ∀ field ∈ fields, HeaderLine field)
    (represented : ∀ name, parser.request.getHeader name = fieldValue name fields)
    (requested : Requested method target version parser.request)
    (stopped : blankLineTurn parser buffer = .stop result parser' buffer') :
    Decided (terminated (line :: fields) ++ (crlf ++ buffer)) result parser' buffer' := by
  have accepts := finishHeaders_iff represented
  have request : parser.finishHeaders.2 = none →
      parser.finishHeaders.1.request = parser.request := by
    intro accepted
    exact (finishHeaders_spec (Prod.ext rfl accepted) represented).2.2.1
  unfold blankLineTurn fail at stopped
  rcases finished : parser.finishHeaders with ⟨after, message⟩
  rw [finished] at stopped accepts request
  cases message with
  | some message =>
      obtain ⟨rfl, rfl, rfl⟩ := Turn.stop.inj stopped
      constructor
      · rintro ⟨_, _, _, others, tail, begins⟩
        obtain ⟨-, rfl, -⟩ := HasHead.stops isLine headerLines (stops_blank buffer) begins
        exact absurd (accepts.mpr begins.framing) (by simp)
      · intro unfinished
        obtain ⟨-, restIsLine⟩ :=
          Unfinished.stops isLine headerLines (stops_blank buffer) unfinished
        exact absurd restIsLine (not_isLine_of_crlf [] buffer)
  | none =>
      have sameRequest : after.request = parser.request := request rfl
      have begins : BeginsWith (terminated (line :: fields) ++ (crlf ++ buffer)) method target
          version fields buffer :=
        ⟨⟨line, (requestHead_eq line fields buffer).symm, isLine, requestLine⟩, headerLines,
          accepts.mp rfl⟩
      dsimp only at stopped
      split at stopped
      · obtain ⟨rfl, rfl, rfl⟩ := Turn.stop.inj stopped
        refine ⟨method, target, version, fields, begins, ?_, ?_⟩
        · rwa [sameRequest]
        · rwa [sameRequest]
      · obtain ⟨rfl, rfl, rfl⟩ := Turn.stop.inj stopped
        refine ⟨method, target, version, fields, begins, ?_, ?_⟩
        · rwa [sameRequest]
        · rwa [sameRequest]

/-- A turn that goes on has read one more line. -/
theorem ReadLines.again (reads : ReadLines parser consumed)
    (goesOn : turn parser buffer = .again parser' buffer') :
    ∃ taken, buffer = taken ++ buffer' ∧ ReadLines parser' (consumed ++ taken) := by
  cases reads with
  | start state noHeaders noQuery =>
      simp only [turn, state, requestLineTurn, fail] at goesOn
      split at goesOn
      · split at goesOn <;> contradiction
      · rename_i length found
        obtain ⟨isLine, split⟩ := split_of_find found
        split at goesOn
        · contradiction
        · rename_i request parsed
          obtain ⟨rfl, rfl⟩ := Turn.again.inj goesOn
          obtain ⟨method, target, version, requestLine⟩ := requestLine_of_parseRequestLine parsed
          obtain ⟨read, isRead, sameHeaders, requested⟩ :=
            parseRequestLine_of_requestLine requestLine noQuery
          rw [parsed] at isRead
          obtain ⟨rfl, -⟩ := Prod.mk.inj isRead
          refine ⟨terminated [buffer.take length], by simpa [terminated] using split, ?_⟩
          refine .headers rfl isLine requestLine (by simp) (fun name => ?_) requested
          simp [HttpRequest.getHeader, sameHeaders, noHeaders, fieldValue]
  | headers state lineIsLine requestLine headerLines represented requested =>
      rename_i method target version line fields
      simp only [turn, state, headersTurn] at goesOn
      split at goesOn
      · split at goesOn <;> contradiction
      · rename_i length found
        obtain ⟨isLine, split⟩ := split_of_find found
        split at goesOn
        · exact absurd goesOn blankLineTurn_ne_again
        · cases parsed : parseHeader (buffer.take length) parser.request with
          | mk request message =>
              rw [parsed] at goesOn
              cases message with
              | some message => contradiction
              | none =>
                  obtain ⟨rfl, rfl⟩ := Turn.again.inj goesOn
                  obtain ⟨colon, sameTarget⟩ := parseHeader_spec parsed
                  refine ⟨terminated [buffer.take length], by simpa [terminated] using split, ?_⟩
                  rw [← terminated_append, List.cons_append]
                  refine .headers rfl lineIsLine requestLine ?_
                    (getHeader_parseHeader parsed represented) (sameTarget requested)
                  intro field member
                  rcases List.mem_append.mp member with early | last
                  · exact headerLines field early
                  · rw [List.mem_singleton.mp last]
                    exact ⟨isLine, colon⟩

/-- A turn that returns has decided about the text. -/
theorem ReadLines.stop {result : ParseResult} (reads : ReadLines parser consumed)
    (stopped : turn parser buffer = .stop result parser' buffer') :
    Decided (consumed ++ buffer) result parser' buffer' := by
  have before := reads
  cases reads with
  | start state noHeaders noQuery =>
      simp only [turn, state, requestLineTurn, fail, List.nil_append] at stopped ⊢
      split at stopped
      · rename_i absent
        have isLine := isLine_of_find_none absent
        split at stopped
        · rename_i long
          obtain ⟨rfl, rfl, rfl⟩ := Turn.stop.inj stopped
          exact ⟨(Unfinished.requestLine isLine).not_hasHead, fun _ => .requestLine isLine long⟩
        · rename_i short
          obtain ⟨rfl, rfl, rfl⟩ := Turn.stop.inj stopped
          exact ⟨.requestLine isLine, not_overflows_of_isLine isLine (by omega), [], before,
            rfl, isLine⟩
      · rename_i length found
        obtain ⟨isLine, split⟩ := split_of_find found
        split at stopped
        · rename_i request message parsed
          obtain ⟨rfl, rfl, rfl⟩ := Turn.stop.inj stopped
          rw [split]
          refine decided_of_wrong_line isLine fun method target version requestLine => ?_
          obtain ⟨read, isRead, -⟩ := parseRequestLine_of_requestLine requestLine noQuery
          rw [parsed] at isRead
          simp at isRead
        · contradiction
  | headers state lineIsLine requestLine headerLines represented requested =>
      rename_i method target version line fields
      simp only [turn, state, headersTurn] at stopped
      split at stopped
      · rename_i absent
        have isLine := isLine_of_find_none absent
        split at stopped
        · rename_i long
          obtain ⟨rfl, rfl, rfl⟩ := Turn.stop.inj stopped
          have unfinished := Unfinished.headers lineIsLine requestLine headerLines isLine
          exact ⟨unfinished.not_hasHead,
            fun _ => .headers lineIsLine requestLine headerLines isLine long⟩
        · rename_i short
          obtain ⟨rfl, rfl, rfl⟩ := Turn.stop.inj stopped
          exact ⟨.headers lineIsLine requestLine headerLines isLine,
            not_overflows_of_headers lineIsLine headerLines isLine (by omega), _, before, rfl,
            isLine⟩
      · rename_i length found
        obtain ⟨isLine, split⟩ := split_of_find found
        split at stopped
        · rename_i blank
          subst blank
          have blankLine : buffer = crlf ++ buffer.drop 2 := by simpa using split
          rw [blankLine]
          exact decided_of_blank lineIsLine requestLine headerLines represented requested stopped
        · rename_i notBlank
          cases parsed : parseHeader (buffer.take length) parser.request with
          | mk request message =>
              rw [parsed] at stopped
              cases message with
              | none => contradiction
              | some message =>
                  obtain ⟨rfl, rfl, rfl⟩ := Turn.stop.inj stopped
                  have noColon : ¬HeaderLine (buffer.take length) := fun headerLine =>
                    parseHeader_fails parsed headerLine.colon
                  have nonempty : buffer.take length ≠ [] := by
                    have room := Bytes.length_le_of_find found
                    intro empty
                    rcases List.take_eq_nil_iff.mp empty with zero | nil
                    · exact notBlank zero
                    · simp [nil, crlf] at room
                  rw [split]
                  exact decided_of_wrong_headers lineIsLine headerLines isLine noColon nonempty

end Turns

/-- `Parse` decides about the text that a parser has read and has in its buffer. -/
theorem ReadLines.parse {parser : HttpParser} {consumed : Bytes}
    (reads : ReadLines parser consumed) (buffer : Bytes) :
    Decided (consumed ++ buffer) (parse parser buffer).1 (parse parser buffer).2.1
      (parse parser buffer).2.2 := by
  refine parse_rule
    (fun parser rest => ∃ read, ReadLines parser read ∧ consumed ++ buffer = read ++ rest)
    (Decided (consumed ++ buffer)) ?_ ?_ ⟨consumed, reads, rfl⟩
  · rintro parser rest parser' rest' ⟨read, readsNow, split⟩ goesOn
    obtain ⟨line, rfl, readsNext⟩ := readsNow.again goesOn
    exact ⟨read ++ line, readsNext, by simpa using split⟩
  · rintro parser rest result parser' rest' ⟨read, readsNow, split⟩ stopped
    rw [split]
    exact readsNow.stop stopped

/-- The results that accept a head. -/
def Accepts (result : ParseResult) : Prop :=
  result = .HEADERS_COMPLETE ∨ result = .MESSAGE_COMPLETE

theorem RequestLine.unique {method otherMethod : HttpMethod}
    {target version otherTarget otherVersion line : Bytes}
    (requestLine : RequestLine method target version line)
    (others : RequestLine otherMethod otherTarget otherVersion line) :
    method = otherMethod ∧ target = otherTarget ∧ version = otherVersion := by
  have blank : ascii " " = [32] := rfl
  generalize same : line = spelled at others
  cases requestLine with
  | intro known noBlank supported =>
      cases others with
      | intro otherKnown otherNoBlank otherSupported =>
          simp only [blank, List.append_assoc, List.singleton_append] at same
          obtain ⟨methods, rest⟩ := Bytes.eq_of_append_cons (blank_not_mem_method method)
            (blank_not_mem_method otherMethod) same
          obtain ⟨targets, versions⟩ := Bytes.eq_of_append_cons noBlank otherNoBlank rest
          have read := congrArg stringToMethod methods
          rw [stringToMethod_httpMethodToString, stringToMethod_httpMethodToString] at read
          exact ⟨read, targets, versions⟩

/-- A head can be read in one way only. -/
theorem BeginsWith.unique {text : Bytes} {method otherMethod : HttpMethod}
    {target version rest otherTarget otherVersion tail : Bytes} {fields others : List Bytes}
    (begins : BeginsWith text method target version fields rest)
    (again : BeginsWith text otherMethod otherTarget otherVersion others tail) :
    method = otherMethod ∧ target = otherTarget ∧ version = otherVersion ∧ fields = others ∧
      rest = tail := by
  obtain ⟨line, rfl, isLine, requestLine⟩ := begins.split
  rw [requestHead_eq] at again
  obtain ⟨otherLine, rfl, rests⟩ :=
    HasHead.stops isLine begins.headerLines (stops_blank rest) again
  obtain ⟨rfl, rfl, rfl⟩ := requestLine.unique otherLine
  exact ⟨rfl, rfl, rfl, rfl, List.append_cancel_left rests⟩

/-- A text within the limits does not end in a line that is too long. -/
theorem WithinLimits.not_overflows {text : Bytes} (within : WithinLimits text) :
    ¬Overflows text := by
  have whole : ∀ {text : Bytes}, IsLine text → firstLine text = text := by
    intro text isLine
    have absent : Bytes.find crlf text = none := by
      simpa [IsLine, Bytes.contains] using isLine
    rw [firstLine, absent]
  intro overflows
  cases overflows with
  | requestLine isLine long =>
      have short := within.requestLine
      rw [whole isLine] at short
      simp only [kMaxRequestLineSize] at long
      omega
  | headers isLine requestLine headerLines restIsLine long =>
      have short := within.headerLine _ _ _ rfl isLine fun field member =>
        ⟨(headerLines field member).nonempty, (headerLines field member).isLine⟩
      rw [whole restIsLine] at short
      simp only [kMaxHeaderSize] at long
      omega

section Decisions

variable {text rest : Bytes} {result : ParseResult} {parser : HttpParser}

theorem Decided.accepts_iff (decided : Decided text result parser rest) :
    Accepts result ↔ HasHead text := by
  unfold Decided at decided
  cases result with
  | NEED_MORE_DATA =>
      exact iff_of_false (by simp [Accepts]) decided.1.not_hasHead
  | ERROR => exact iff_of_false (by simp [Accepts]) decided.1
  | BODY_DATA => contradiction
  | HEADERS_COMPLETE | MESSAGE_COMPLETE =>
      obtain ⟨method, target, version, fields, begins, -⟩ := decided
      exact iff_of_true (by simp [Accepts]) ⟨method, target, version, fields, rest, begins⟩

theorem Decided.needsMore_iff (decided : Decided text result parser rest) :
    result = .NEED_MORE_DATA ↔ Unfinished text ∧ ¬Overflows text := by
  unfold Decided at decided
  cases result with
  | NEED_MORE_DATA => exact iff_of_true rfl ⟨decided.1, decided.2.1⟩
  | ERROR => exact iff_of_false (by simp) fun both => both.2 (decided.2 both.1)
  | BODY_DATA => contradiction
  | HEADERS_COMPLETE | MESSAGE_COMPLETE =>
      obtain ⟨method, target, version, fields, begins, -⟩ := decided
      refine iff_of_false (by simp) fun both => ?_
      exact both.1.not_hasHead ⟨method, target, version, fields, rest, begins⟩

/-- What the request has after a head was accepted. -/
theorem Decided.request (decided : Decided text result parser rest) {method : HttpMethod}
    {target version tail : Bytes} {fields : List Bytes}
    (begins : BeginsWith text method target version fields tail) :
    Requested method target version parser.request ∧
      (∀ name value, LastValue name fields value → parser.request.getHeader name = value) ∧
      rest = tail := by
  have accepted := decided.accepts_iff.mpr ⟨_, _, _, _, _, begins⟩
  have read : ∃ method target version fields,
      BeginsWith text method target version fields rest ∧
        Requested method target version parser.request ∧
        ∀ name, parser.request.getHeader name = fieldValue name fields := by
    unfold Decided at decided
    rcases accepted with rfl | rfl
    · exact decided
    · exact decided
  obtain ⟨_, _, _, _, others, requested, represented⟩ := read
  obtain ⟨rfl, rfl, rfl, rfl, rfl⟩ := others.unique begins
  refine ⟨requested, fun name value last => ?_, rfl⟩
  rw [represented, lastValue_iff.mp last]

end Decisions

theorem ReadLines.initial : ReadLines .initial [] :=
  .start rfl rfl rfl

end HttpParser

open HttpParser in
/-- One call of `Parse` on a fresh parser accepts exactly the texts that begin with a head of the
grammar, and takes the request from it; it asks for more exactly when the text is the beginning of
one. -/
theorem heads_are_accepted_by_grammar (text : Bytes) (within : WithinLimits text) :
    let returned := parseBuffer .initial (ByteBuffer.initial.append text)
    (Accepts returned.1 ↔ HasHead text) ∧
      (∀ method target version fields rest, BeginsWith text method target version fields rest →
        Requested method target version returned.2.1.request ∧
        (∀ name value, LastValue name fields value →
          returned.2.1.request.getHeader name = value) ∧
        returned.2.2.peek = rest) ∧
      (returned.1 = .NEED_MORE_DATA ↔ Unfinished text) := by
  have onBuffer := Reading.initial.parseBuffer (ByteBuffer.initial.append text)
  have unread : (ByteBuffer.initial.append text).peek = text := by
    rw [ByteBuffer.peek_append]
    rfl
  rw [unread] at onBuffer
  obtain ⟨sameResult, sameParser, sameRest⟩ := onBuffer
  have decided := ReadLines.initial.parse text
  rw [List.nil_append] at decided
  dsimp only
  rw [sameResult, sameParser, sameRest]
  refine ⟨decided.accepts_iff, ?_, ?_⟩
  · intro method target version fields rest begins
    exact decided.request begins
  · rw [decided.needsMore_iff]
    exact and_iff_left within.not_overflows

open HttpParser in
theorem heads_are_accepted_by_grammar_sample :
    HasHead (ascii "GET /a?b HTTP/1.1\r\nHost: a\r\n\r\nmore") :=
  (heads_are_accepted_by_grammar _ (.of_short (by decide))).1.mp (.inr (by decide +kernel))

end MiniS3.Net
