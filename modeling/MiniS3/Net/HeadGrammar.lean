import MiniS3.Net.Wire

/-!
# The grammar of request heads

A request head is a request line, header lines and a blank line.  This file says which request
lines and header lines there are, and what the header lines mean, without the parser, and that
the functions of the parser that look at one line, or at the header lines together, accept what
the grammar has.

A text has one sequence of lines, so that it begins with at most one head.  A text that does not
contain a whole head can be the beginning of one, and then all its lines are correct; otherwise
some line of it is wrong.
-/

namespace MiniS3.Net.HttpParser

open Lib

/-! ## Request lines and header lines -/

/-- A request line: a method, a target without blanks and a version. -/
inductive RequestLine : HttpMethod → Bytes → Bytes → Bytes → Prop
  | intro {method target version} : method ≠ .UNKNOWN → (32 : UInt8) ∉ target →
      version ∈ versions →
      RequestLine method target version
        (httpMethodToString method ++ ascii " " ++ target ++ ascii " " ++ version)

/-- A header line: a line with a colon, which therefore is not empty. -/
structure HeaderLine (line : Bytes) : Prop where
  isLine : IsLine line
  colon : (58 : UInt8) ∈ line

theorem HeaderLine.nonempty {line : Bytes} (headerLine : HeaderLine line) : line ≠ [] :=
  List.ne_nil_of_mem headerLine.colon

/-- The line is one for this header: what stands before its first colon is the name in some
letter case. -/
def Names (name line : Bytes) : Prop :=
  ∃ key value, line = key ++ ascii ":" ++ value ∧ (58 : UInt8) ∉ key ∧
    Bytes.toLower key = Bytes.toLower name

/-- The value of a header: what stands behind the first colon of the last line with the name,
without spaces and tabs at its ends. -/
inductive LastValue (name : Bytes) (fields : List Bytes) : Bytes → Prop
  | absent : (∀ field ∈ fields, ¬Names name field) → LastValue name fields []
  | last {before key value after} : fields = before ++ [key ++ ascii ":" ++ value] ++ after →
      (58 : UInt8) ∉ key → Bytes.toLower key = Bytes.toLower name →
      (∀ field ∈ after, ¬Names name field) → LastValue name fields (trim value)

/-- The header lines declare the body in a way the parser can work with: its length is a number
of 64 bits, and a positive length comes without chunked transfer. -/
structure Framing (fields : List Bytes) : Prop where
  length : ∀ value, LastValue (ascii "content-length") fields value → value ≠ [] →
    ∃ length, Bytes.decimal? value = some length ∧ length < 2 ^ 64
  oneOnly : ∀ value coding length, LastValue (ascii "content-length") fields value →
    LastValue (ascii "transfer-encoding") fields coding → value ≠ [] →
    Bytes.decimal? value = some length → 0 < length →
    Bytes.contains (Bytes.toLower coding) (ascii "chunked") = false

/-- The text begins with a head; `rest` is what follows it. -/
structure BeginsWith (text : Bytes) (method : HttpMethod) (target version : Bytes)
    (fields : List Bytes) (rest : Bytes) : Prop where
  intro ::
  split : ∃ line, text = requestHead line fields ++ rest ∧ IsLine line ∧
    RequestLine method target version line
  headerLines : ∀ field ∈ fields, HeaderLine field
  framing : Framing fields

/-- The text begins with some head. -/
def HasHead (text : Bytes) : Prop :=
  ∃ method target version fields rest, BeginsWith text method target version fields rest

/-- The text is the beginning of a head: correct lines, of which the last is not terminated. -/
inductive Unfinished : Bytes → Prop
  | requestLine {text} : IsLine text → Unfinished text
  | headers {method target version line fields rest} : IsLine line →
      RequestLine method target version line → (∀ field ∈ fields, HeaderLine field) →
      IsLine rest → Unfinished (terminated (line :: fields) ++ rest)

/-- The text ends in a line that is too long to wait for its end. -/
inductive Overflows : Bytes → Prop
  | requestLine {text} : IsLine text → kMaxRequestLineSize < text.length → Overflows text
  | headers {method target version line fields rest} : IsLine line →
      RequestLine method target version line → (∀ field ∈ fields, HeaderLine field) →
      IsLine rest → kMaxHeaderSize < rest.length → Overflows (terminated (line :: fields) ++ rest)

theorem Overflows.unfinished {text : Bytes} (overflows : Overflows text) : Unfinished text := by
  cases overflows with
  | requestLine isLine _ => exact .requestLine isLine
  | headers isLine requestLine fields restIsLine _ =>
      exact .headers isLine requestLine fields restIsLine

/-! ## The lines of a text -/

@[simp]
theorem terminated_nil : terminated [] = [] :=
  rfl

theorem terminated_cons_append (line : Bytes) (lines : List Bytes) (rest : Bytes) :
    terminated (line :: lines) ++ rest = line ++ crlf ++ (terminated lines ++ rest) := by
  simp [terminated]

theorem isLine_nil : IsLine [] :=
  isLine_of_no_newline (by simp)

theorem not_isLine_of_crlf (before rest : Bytes) : ¬IsLine (before ++ crlf ++ rest) := by
  rw [IsLine, Bool.not_eq_false, Bytes.contains_iff]
  exact ⟨before, rest, rfl⟩

/-- The text does not go on with a header line: it has no more lines, or the next one is blank
or wrong. -/
inductive Stops : Bytes → Prop
  | unterminated {text} : IsLine text → Stops text
  | line {line rest} : IsLine line → ¬HeaderLine line → Stops (line ++ crlf ++ rest)

theorem stops_blank (rest : Bytes) : Stops (crlf ++ rest) :=
  .line isLine_nil fun headerLine => headerLine.nonempty rfl

theorem Stops.not_headerLine {line rest : Bytes} (stops : Stops (line ++ crlf ++ rest)) :
    ¬HeaderLine line := by
  intro headerLine
  generalize same : line ++ crlf ++ rest = text at stops
  cases stops with
  | unterminated isLine =>
      rw [← same] at isLine
      exact not_isLine_of_crlf line rest isLine
  | line isLine wrong =>
      obtain ⟨rfl, -⟩ := line_cancel headerLine.isLine isLine same
      exact wrong headerLine

/-- There is one way to read header lines off a text, as far as they go. -/
theorem headerLines_unique {fields others : List Bytes} {rest tail : Bytes}
    (headerLines : ∀ field ∈ fields, HeaderLine field)
    (otherLines : ∀ field ∈ others, HeaderLine field) (stops : Stops rest) (tailStops : Stops tail)
    (same : terminated fields ++ rest = terminated others ++ tail) :
    fields = others ∧ rest = tail := by
  induction fields generalizing others with
  | nil =>
      cases others with
      | nil => exact ⟨rfl, by simpa using same⟩
      | cons other others =>
          rw [terminated_nil, List.nil_append, terminated_cons_append] at same
          rw [same] at stops
          exact absurd (otherLines other (by simp)) stops.not_headerLine
  | cons field fields inductionHypothesis =>
      rw [List.forall_mem_cons] at headerLines
      cases others with
      | nil =>
          rw [terminated_nil, List.nil_append, terminated_cons_append] at same
          rw [← same] at tailStops
          exact absurd headerLines.1 tailStops.not_headerLine
      | cons other others =>
          rw [List.forall_mem_cons] at otherLines
          rw [terminated_cons_append, terminated_cons_append] at same
          obtain ⟨rfl, tails⟩ := line_cancel headerLines.1.isLine otherLines.1.isLine same
          obtain ⟨rfl, rests⟩ := inductionHypothesis headerLines.2 otherLines.2 tails
          exact ⟨rfl, rests⟩

/-- There is one way to read a text as a line and the header lines behind it. -/
theorem reading_unique {line other rest tail : Bytes} {fields others : List Bytes}
    (isLine : IsLine line) (isOther : IsLine other)
    (headerLines : ∀ field ∈ fields, HeaderLine field)
    (otherLines : ∀ field ∈ others, HeaderLine field) (stops : Stops rest) (tailStops : Stops tail)
    (same : terminated (line :: fields) ++ rest = terminated (other :: others) ++ tail) :
    line = other ∧ fields = others ∧ rest = tail := by
  rw [terminated_cons_append, terminated_cons_append] at same
  obtain ⟨rfl, tails⟩ := line_cancel isLine isOther same
  exact ⟨rfl, headerLines_unique headerLines otherLines stops tailStops tails⟩

theorem requestHead_eq (line : Bytes) (fields : List Bytes) (rest : Bytes) :
    requestHead line fields ++ rest = terminated (line :: fields) ++ (crlf ++ rest) := by
  simp [requestHead]

/-! ## Texts with no head -/

section NoHead

variable {line rest : Bytes} {fields : List Bytes}

/-- A text that is read up to a place where it does not go on with a header line has a head only
if a blank line comes next and the header lines are consistent. -/
theorem HasHead.stops {method : HttpMethod} {target version : Bytes} {others : List Bytes}
    {tail : Bytes} (isLine : IsLine line) (headerLines : ∀ field ∈ fields, HeaderLine field)
    (stops : Stops rest)
    (begins : BeginsWith (terminated (line :: fields) ++ rest) method target version others tail) :
    RequestLine method target version line ∧ fields = others ∧ rest = crlf ++ tail := by
  obtain ⟨other, split, isOther, requestLine⟩ := begins.split
  rw [requestHead_eq] at split
  obtain ⟨rfl, rfl, rests⟩ := reading_unique isLine isOther headerLines begins.headerLines stops
    (stops_blank tail) split
  exact ⟨requestLine, rfl, rests⟩

theorem Unfinished.stops (isLine : IsLine line)
    (headerLines : ∀ field ∈ fields, HeaderLine field) (stops : Stops rest)
    (unfinished : Unfinished (terminated (line :: fields) ++ rest)) :
    (∃ method target version, RequestLine method target version line) ∧ IsLine rest := by
  generalize same : terminated (line :: fields) ++ rest = text at unfinished
  cases unfinished with
  | requestLine textIsLine =>
      rw [← same, terminated_cons_append] at textIsLine
      exact absurd textIsLine (not_isLine_of_crlf _ _)
  | headers isOther requestLine otherLines tailIsLine =>
      obtain ⟨rfl, rfl, rfl⟩ := reading_unique isLine isOther headerLines otherLines stops
        (.unterminated tailIsLine) same
      exact ⟨⟨_, _, _, requestLine⟩, tailIsLine⟩

end NoHead

/-- A text that is the beginning of a head has none. -/
theorem Unfinished.not_hasHead {text : Bytes} (unfinished : Unfinished text) : ¬HasHead text := by
  rintro ⟨method, target, version, others, tail, begins⟩
  cases unfinished with
  | requestLine isLine =>
      obtain ⟨line, split, -⟩ := begins.split
      rw [split, requestHead_eq, terminated_cons_append] at isLine
      exact not_isLine_of_crlf _ _ isLine
  | headers isLine requestLine headerLines restIsLine =>
      obtain ⟨-, -, rfl⟩ := HasHead.stops isLine headerLines (.unterminated restIsLine) begins
      exact not_isLine_of_crlf [] tail (by simpa using restIsLine)

/-! ## The values of headers -/

theorem contains_singleton {byte : UInt8} {text : Bytes} :
    Bytes.contains text [byte] = true ↔ byte ∈ text := by
  rw [Bytes.contains_iff]
  constructor
  · rintro ⟨before, rest, rfl⟩
    simp
  · intro member
    obtain ⟨before, rest, rfl⟩ := List.append_of_mem member
    exact ⟨before, rest, by simp⟩

/-- The first of some byte splits the text. -/
theorem find_singleton_iff {byte : UInt8} {text : Bytes} {position : Nat} :
    Bytes.find [byte] text = some position ↔
      text = text.take position ++ byte :: text.drop (position + 1) ∧ byte ∉ text.take position := by
  constructor
  · intro found
    have split := Bytes.eq_append_of_find found
    have absent := Bytes.contains_take_of_find (by simp) found
    rw [Bool.eq_false_iff, ne_eq, contains_singleton] at absent
    exact ⟨by simpa using split, absent⟩
  · rintro ⟨split, absent⟩
    have found := Bytes.find_singleton absent (text.drop (position + 1))
    rw [← split] at found
    have lengths := congrArg List.length split
    simp only [List.length_append, List.length_take, List.length_cons, List.length_drop] at lengths
    rw [found, List.length_take]
    congr 1
    omega

theorem splitField_of_colon {key : Bytes} (noColon : (58 : UInt8) ∉ key) (value : Bytes) :
    splitField (key ++ ascii ":" ++ value) = some (key, trim value) := by
  have colon : ascii ":" = [58] := rfl
  rw [splitField, colon, List.append_assoc, List.singleton_append,
    Bytes.find_singleton noColon]
  simp

theorem splitField_eq_some {line key trimmed : Bytes} (split : splitField line = some (key, trimmed)) :
    ∃ value, line = key ++ ascii ":" ++ value ∧ (58 : UInt8) ∉ key ∧ trimmed = trim value := by
  have colon : ascii ":" = [58] := rfl
  obtain ⟨position, found, same⟩ := Option.map_eq_some_iff.mp split
  rw [colon, find_singleton_iff] at found
  obtain ⟨rfl, rfl⟩ := Prod.mk.inj same
  exact ⟨line.drop (position + 1), by simpa [colon] using found.1, found.2, rfl⟩

theorem splitField_eq_none {line : Bytes} : splitField line = none ↔ (58 : UInt8) ∉ line := by
  have colon : ascii ":" = [58] := rfl
  rw [splitField, colon, Option.map_eq_none_iff, ← contains_singleton, Bytes.contains]
  cases Bytes.find [58] line <;> simp

/-- What a header line does to the value of a header. -/
theorem fieldValue_concat (name : Bytes) (fields : List Bytes) (line : Bytes) :
    fieldValue name (fields ++ [line]) =
      match splitField line with
      | some (key, value) =>
          if Bytes.toLower name = Bytes.toLower key then value else fieldValue name fields
      | none => fieldValue name fields := by
  cases split : splitField line with
  | none => simp [fieldValue, split]
  | some entry => simp [fieldValue, split]

theorem fieldValue_of_not_names {name line : Bytes} (fields : List Bytes)
    (other : ¬Names name line) : fieldValue name (fields ++ [line]) = fieldValue name fields := by
  rw [fieldValue_concat]
  cases split : splitField line with
  | none => rfl
  | some entry =>
      obtain ⟨key, trimmed⟩ := entry
      obtain ⟨value, rfl, noColon, -⟩ := splitField_eq_some split
      dsimp only
      rw [if_neg fun same => other ⟨key, value, rfl, noColon, same.symm⟩]

theorem fieldValue_append {name : Bytes} (fields : List Bytes) {after : List Bytes}
    (others : ∀ field ∈ after, ¬Names name field) :
    fieldValue name (fields ++ after) = fieldValue name fields := by
  induction after using List.reverseRecOn with
  | nil => rw [List.append_nil]
  | append_singleton after line inductionHypothesis =>
      rw [← List.append_assoc, fieldValue_of_not_names _ (others line (by simp))]
      exact inductionHypothesis fun field member => others field (by simp [member])

/-- The value the parser keeps for a header is that of the last line with its name. -/
theorem lastValue_iff {name value : Bytes} {fields : List Bytes} :
    LastValue name fields value ↔ value = fieldValue name fields := by
  constructor
  · intro last
    cases last with
    | absent others =>
        have nothing := fieldValue_append [] others
        rw [List.nil_append] at nothing
        exact nothing.symm
    | last split noColon same others =>
        rw [split, fieldValue_append _ others, fieldValue_concat, splitField_of_colon noColon]
        dsimp only
        rw [if_pos same.symm]
  · rintro rfl
    induction fields using List.reverseRecOn with
    | nil => exact .absent (by simp)
    | append_singleton fields line inductionHypothesis =>
        by_cases names : Names name line
        · obtain ⟨key, value, rfl, noColon, same⟩ := names
          rw [fieldValue_concat, splitField_of_colon noColon]
          dsimp only
          rw [if_pos same.symm]
          exact .last (List.append_nil _).symm noColon same (by simp)
        · rw [fieldValue_of_not_names fields names]
          generalize fieldValue name fields = value at inductionHypothesis ⊢
          cases inductionHypothesis with
          | absent others =>
              refine .absent fun field member => ?_
              rcases List.mem_append.mp member with early | isLast
              · exact others field early
              · rwa [List.mem_singleton.mp isLast]
          | @last before key value after split noColon same others =>
              have longer : fields ++ [line] =
                  before ++ [key ++ ascii ":" ++ value] ++ (after ++ [line]) := by
                rw [← List.append_assoc, ← split]
              refine .last longer noColon same fun field member => ?_
              · rcases List.mem_append.mp member with early | isLast
                · exact others field early
                · rwa [List.mem_singleton.mp isLast]

/-- `FinishHeaders` accepts the header lines that declare the body in a way the parser can work
with. -/
theorem finishHeaders_iff {parser : HttpParser} {fields : List Bytes}
    (represented : ∀ name, parser.request.getHeader name = fieldValue name fields) :
    (parser.finishHeaders).2 = none ↔ Framing fields := by
  have chunked : namesChunked parser.request =
      Bytes.contains (Bytes.toLower (fieldValue (ascii "transfer-encoding") fields))
        (ascii "chunked") := by
    rw [namesChunked, represented]
  have framing : Framing fields ↔
      (fieldValue (ascii "content-length") fields ≠ [] →
        ∃ length, Bytes.decimal? (fieldValue (ascii "content-length") fields) = some length ∧
          length < 2 ^ 64) ∧
      ∀ length, fieldValue (ascii "content-length") fields ≠ [] →
        Bytes.decimal? (fieldValue (ascii "content-length") fields) = some length → 0 < length →
        namesChunked parser.request = false := by
    rw [chunked]
    constructor
    · rintro ⟨isNumber, oneOnly⟩
      exact ⟨isNumber _ (lastValue_iff.mpr rfl), fun length =>
        oneOnly _ _ length (lastValue_iff.mpr rfl) (lastValue_iff.mpr rfl)⟩
    · rintro ⟨isNumber, oneOnly⟩
      refine ⟨fun value last => ?_, fun value coding length last lastCoding => ?_⟩
      · rw [lastValue_iff.mp last]
        exact isNumber
      · rw [lastValue_iff.mp last, lastValue_iff.mp lastCoding]
        exact oneOnly length
  rw [framing]
  unfold finishHeaders declaredLength
  dsimp only
  rw [represented]
  generalize fieldValue (ascii "content-length") fields = value
  by_cases isEmpty : value = []
  · subst isEmpty
    by_cases isChunked : namesChunked parser.request = true
    · simp [isChunked]
    · simp [isChunked]
  · have notEmpty : ¬value.isEmpty = true := by simpa using isEmpty
    simp only [isEmpty, notEmpty, Bytes.fromChars, if_false, ne_eq, not_false_eq_true,
      forall_const, Bool.false_eq_true]
    generalize 2 ^ 64 = bound
    cases read : Bytes.decimal? value with
    | none => simp
    | some length =>
        by_cases small : length < bound
        · rw [Option.filter_some, if_pos (by simpa using small)]
          by_cases isChunked : namesChunked parser.request = true
          · by_cases positive : 0 < length
            · simp [isChunked, positive, Nat.pos_iff_ne_zero.mp positive]
            · have zero : length = 0 := by omega
              simpa [isChunked, zero] using Nat.zero_lt_of_lt small
          · simp [small, isChunked]
        · rw [Option.filter_some, if_neg (by simpa using small)]
          simp only [Option.some.injEq, exists_eq_left', small]
          simp

/-! ## Reading a request line -/

/-- The path and the query of a target, which the first question mark splits. -/
def Splits (target path query : Bytes) : Prop :=
  ((63 : UInt8) ∉ target ∧ path = target ∧ query = []) ∨
    target = path ++ ascii "?" ++ query ∧ (63 : UInt8) ∉ path

/-- What the request takes from its request line. -/
structure Requested (method : HttpMethod) (target version : Bytes) (request : HttpRequest) :
    Prop where
  method : request.method = method
  version : request.version = version
  target : Splits target request.path request.query

theorem httpMethodToString_of_stringToMethod {name : Bytes}
    (known : stringToMethod name ≠ .UNKNOWN) : name = httpMethodToString (stringToMethod name) := by
  unfold stringToMethod at known ⊢
  split_ifs at known ⊢ <;> first | assumption | contradiction

/-- A line of the grammar is read as what it is. -/
theorem parseRequestLine_of_requestLine {method : HttpMethod} {target version line : Bytes}
    {request : HttpRequest} (requestLine : RequestLine method target version line)
    (noQuery : request.query = []) :
    ∃ request', parseRequestLine line request = (request', none) ∧
      request'.headers = request.headers ∧ Requested method target version request' := by
  cases requestLine with
  | intro known noBlank supported =>
      have blank : ascii " " = [32] := rfl
      have mark : ascii "?" = [63] := rfl
      have isSupported : ¬(version ≠ ascii "HTTP/1.0" ∧ version ≠ ascii "HTTP/1.1") := by
        simpa [versions, or_iff_not_imp_left] using supported
      have line : httpMethodToString method ++ ascii " " ++ target ++ ascii " " ++ version =
          httpMethodToString method ++ 32 :: (target ++ 32 :: version) := by
        simp [blank]
      have afterMethod : (httpMethodToString method ++ 32 :: (target ++ 32 :: version)).drop
          ((httpMethodToString method).length + 1) = target ++ 32 :: version := by
        simp
      have afterTarget : (target ++ 32 :: version).drop (target.length + 1) = version := by
        simp
      unfold parseRequestLine
      rw [line, blank, Bytes.find_singleton (blank_not_mem_method method)]
      simp only [afterMethod, Bytes.find_singleton noBlank, afterTarget, mark]
      rw [List.take_left' rfl, List.take_left' rfl, stringToMethod_httpMethodToString,
        if_neg known]
      simp only [if_neg isSupported]
      cases found : Bytes.find [63] target with
      | none =>
          have noMark : (63 : UInt8) ∉ target := by
            rw [← contains_singleton, Bytes.contains, found]
            simp
          exact ⟨_, rfl, rfl, rfl, rfl, .inl ⟨noMark, rfl, noQuery⟩⟩
      | some position =>
          obtain ⟨split, noMark⟩ := find_singleton_iff.mp found
          exact ⟨_, rfl, rfl, rfl, rfl, .inr ⟨by simpa [mark] using split, noMark⟩⟩

/-- What is read as a request line is one. -/
theorem requestLine_of_parseRequestLine {line : Bytes} {request request' : HttpRequest}
    (parsed : parseRequestLine line request = (request', none)) :
    ∃ method target version, RequestLine method target version line := by
  have blank : ascii " " = [32] := rfl
  unfold parseRequestLine at parsed
  rw [blank] at parsed
  split at parsed
  · simp at parsed
  · rename_i space found
    dsimp only at parsed
    split at parsed
    · simp at parsed
    · rename_i known
      split at parsed
      · simp at parsed
      · rename_i length foundNext
        split at parsed
        · simp at parsed
        · rename_i unsupported
          obtain ⟨split, -⟩ := find_singleton_iff.mp found
          obtain ⟨splitNext, noBlank⟩ := find_singleton_iff.mp foundNext
          have supported : (line.drop (space + 1)).drop (length + 1) ∈ versions := by
            simp only [not_and_or, not_not] at unsupported
            simpa [versions] using unsupported
          have spelled := httpMethodToString_of_stringToMethod known
          have whole : line = httpMethodToString (stringToMethod (line.take space)) ++ ascii " " ++
              (line.drop (space + 1)).take length ++ ascii " " ++
                (line.drop (space + 1)).drop (length + 1) := by
            rw [← spelled]
            calc line = line.take space ++ 32 :: line.drop (space + 1) := split
              _ = line.take space ++ 32 :: ((line.drop (space + 1)).take length ++
                    32 :: (line.drop (space + 1)).drop (length + 1)) := by rw [← splitNext]
              _ = _ := by simp [blank]
          rw [whole]
          exact ⟨_, _, _, .intro known noBlank supported⟩

end MiniS3.Net.HttpParser
