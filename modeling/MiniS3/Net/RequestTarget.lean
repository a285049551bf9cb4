import MiniS3.Net.Chunking
import Mathlib.Data.List.Chain

/-!
# Request lines

What the parser makes of a request line with a query: it waits for the whole line, takes
method, path, query and version from it, and goes on with the header lines.  Nothing that
follows changes the method, the path and the query again.
-/

namespace MiniS3.Net.HttpParser

open Lib

/-! ## Lines -/

/-- A line has no carriage return with a newline behind it. -/
theorem isLine_iff {text : Bytes} :
    IsLine text ↔ text.IsChain fun one two => ¬(one = 13 ∧ two = 10) := by
  rw [IsLine, Bool.eq_false_iff, ne_eq, Bytes.contains_iff, not_exists]
  constructor
  · intro never
    rw [List.isChain_iff_forall_rel_of_append_cons_cons]
    rintro one two before rest rfl ⟨rfl, rfl⟩
    exact never before ⟨rest, by simp [crlf]⟩
  · rintro chain before ⟨rest, rfl⟩
    rw [List.isChain_iff_forall_rel_of_append_cons_cons] at chain
    have terminator : before ++ crlf ++ rest = before ++ 13 :: 10 :: rest := by simp [crlf]
    exact chain terminator ⟨rfl, rfl⟩

/-- Two lines make a line unless a terminator comes about between them. -/
theorem IsLine.append {first second : Bytes} (isFirst : IsLine first) (isSecond : IsLine second)
    (seam : first.getLast? ≠ some 13 ∨ second.head? ≠ some 10) : IsLine (first ++ second) := by
  rw [isLine_iff] at isFirst isSecond ⊢
  refine isFirst.append isSecond ?_
  rintro one last two head ⟨rfl, rfl⟩
  rcases seam with notReturn | notNewline
  · exact notReturn last
  · exact notNewline head

/-- A text without a newline is a line. -/
theorem isLine_of_no_newline {text : Bytes} (absent : (10 : UInt8) ∉ text) : IsLine text := by
  rw [IsLine, Bool.eq_false_iff, ne_eq, Bytes.contains_iff]
  rintro ⟨before, rest, rfl⟩
  simp [crlf] at absent

/-- The terminator of a line is the first one after it. -/
theorem find_crlf_line {line : Bytes} (isLine : IsLine line) (rest : Bytes) :
    Bytes.find crlf (line ++ crlf ++ rest) = some line.length := by
  induction line with
  | nil => rfl
  | cons byte line inductionHypothesis =>
      have split := isLine_iff.mp isLine
      have tail : IsLine line := isLine_iff.mpr split.tail
      have notHere : crlf.isPrefixOf (byte :: (line ++ crlf ++ rest)) = false := by
        rw [Bool.eq_false_iff, ne_eq, List.isPrefixOf_iff_prefix]
        rintro ⟨more, same⟩
        obtain ⟨rfl, sameTail⟩ := List.cons.inj same
        cases line with
        | nil => cases sameTail
        | cons next line =>
            obtain ⟨rfl, -⟩ := List.cons.inj sameTail
            exact (List.isChain_cons_cons.mp split).1 ⟨rfl, rfl⟩
      rw [List.cons_append, List.cons_append, Bytes.find, notHere, inductionHypothesis tail]
      simp

/-! ## A request line with a query -/

/-- The line of a request. -/
def requestLine (method : HttpMethod) (target version : Bytes) : Bytes :=
  httpMethodToString method ++ 32 :: (target ++ 32 :: version)

/-- The versions that are supported. -/
def versions : List Bytes :=
  [ascii "HTTP/1.0", ascii "HTTP/1.1"]

/-- A target with a query: the path has no question mark, and neither has a blank. -/
structure IsTarget (path query : Bytes) : Prop where
  isLine : IsLine (path ++ 63 :: query)
  noMark : (63 : UInt8) ∉ path
  noBlank : (32 : UInt8) ∉ path ++ 63 :: query

theorem stringToMethod_httpMethodToString (method : HttpMethod) :
    stringToMethod (httpMethodToString method) = method := by
  cases method <;> decide

theorem blank_not_mem_method (method : HttpMethod) :
    (32 : UInt8) ∉ httpMethodToString method := by
  cases method <;> decide

theorem isLine_requestLine {method : HttpMethod} {path query version : Bytes}
    (isTarget : IsTarget path query) (supported : version ∈ versions) :
    IsLine (requestLine method (path ++ 63 :: query) version) := by
  have isMethod : IsLine (httpMethodToString method) :=
    isLine_of_no_newline (by cases method <;> decide)
  have isVersion : IsLine (32 :: version) := by
    rw [versions, List.mem_cons, List.mem_singleton] at supported
    rcases supported with rfl | rfl
    · exact isLine_of_no_newline (by decide)
    · exact isLine_of_no_newline (by decide)
  have isBlank : IsLine [32] := isLine_of_no_newline (by decide)
  have isRest : IsLine (path ++ 63 :: query ++ 32 :: version) :=
    isTarget.isLine.append isVersion (.inr (by simp))
  have isTail : IsLine ([32] ++ (path ++ 63 :: query ++ 32 :: version)) :=
    isBlank.append isRest (.inl (by simp))
  exact isMethod.append isTail (.inr (by simp))

theorem parseRequestLine_target {method : HttpMethod} {path query version : Bytes}
    (known : method ≠ .UNKNOWN) (isTarget : IsTarget path query) (supported : version ∈ versions)
    (request : HttpRequest) :
    parseRequestLine (requestLine method (path ++ 63 :: query) version) request =
      ({ request with method, path, query, version }, none) := by
  have blank : ascii " " = [32] := rfl
  have mark : ascii "?" = [63] := rfl
  have isSupported : ¬(version ≠ ascii "HTTP/1.0" ∧ version ≠ ascii "HTTP/1.1") := by
    simpa [versions, or_iff_not_imp_left] using supported
  have afterMethod : (httpMethodToString method ++
      32 :: (path ++ 63 :: query ++ 32 :: version)).drop
        ((httpMethodToString method).length + 1) = path ++ 63 :: query ++ 32 :: version := by
    simp
  have afterTarget : (path ++ 63 :: query ++ 32 :: version).drop
      ((path ++ 63 :: query).length + 1) = version := by
    generalize path ++ 63 :: query = target
    simp
  unfold parseRequestLine
  rw [blank, requestLine, Bytes.find_singleton (blank_not_mem_method method)]
  simp only [afterMethod, Bytes.find_singleton isTarget.noBlank, afterTarget, mark]
  rw [List.take_left' rfl, List.take_left' rfl, Bytes.find_singleton isTarget.noMark]
  simp [stringToMethod_httpMethodToString, known, isSupported]

/-- A parser that has read the line waits for the header lines. -/
theorem parse_target {parser : HttpParser} (state : parser.state = .REQUEST_LINE)
    {method : HttpMethod} {path query version : Bytes} (known : method ≠ .UNKNOWN)
    (isTarget : IsTarget path query) (supported : version ∈ versions) (rest : Bytes) :
    parse parser (requestLine method (path ++ 63 :: query) version ++ crlf ++ rest) =
      parse { parser with
        request := { parser.request with method, path, query, version }
        state := .HEADERS } rest := by
  apply parse_of_again
  simp only [turn, state, requestLineTurn]
  rw [find_crlf_line (isLine_requestLine isTarget supported)]
  simp only
  rw [List.append_assoc, List.take_left' rfl, parseRequestLine_target known isTarget supported]
  simp [crlf]

/-- A parser that has a part of the line only keeps it, and asks for the rest. -/
theorem parse_part {parser : HttpParser} (state : parser.state = .REQUEST_LINE)
    {line arrived : Bytes} (isLine : IsLine line) (part : arrived <+: line ++ crlf)
    (notWhole : arrived ≠ line ++ crlf) (short : arrived.length ≤ kMaxRequestLineSize) :
    parse parser arrived = (.NEED_MORE_DATA, parser, arrived) := by
  apply parse_of_stop
  simp only [turn, state, requestLineTurn]
  have absent : Bytes.find crlf arrived = none := by
    obtain ⟨rest, split⟩ := part
    by_contra present
    obtain ⟨length, found⟩ := Option.ne_none_iff_exists'.mp present
    have foundLater := Bytes.find_append_of_some found rest
    have whole := find_crlf_line isLine []
    rw [List.append_nil, ← split, foundLater, Option.some.injEq] at whole
    have room := Bytes.length_le_of_find found
    refine notWhole (List.IsPrefix.eq_of_length_le ⟨rest, split⟩ ?_)
    simpa [whole] using room
  rw [absent]
  simp only
  rw [if_neg (by omega)]

/-! ## After the request line -/

/-- The parser is past the request line, and took these from it. -/
structure Aimed (method : HttpMethod) (path query : Bytes) (parser : HttpParser) : Prop where
  state : parser.state ≠ .REQUEST_LINE
  method : parser.request.method = method
  path : parser.request.path = path
  query : parser.request.query = query

section Aimed

variable {method : HttpMethod} {path query : Bytes}

/-- The parser after a turn. -/
def Turn.parser : Turn → HttpParser
  | .again parser _ | .stop _ parser _ => parser

theorem Aimed.finishHeaders {parser : HttpParser} (aimed : Aimed method path query parser) :
    Aimed method path query parser.finishHeaders.1 := by
  unfold HttpParser.finishHeaders
  dsimp only
  split
  · exact ⟨aimed.state, aimed.method, aimed.path, aimed.query⟩
  · split
    · split
      · exact ⟨aimed.state, aimed.method, aimed.path, aimed.query⟩
      · exact ⟨aimed.state, aimed.method, aimed.path, aimed.query⟩
    · exact ⟨aimed.state, aimed.method, aimed.path, aimed.query⟩

theorem Aimed.fail {parser : HttpParser} (aimed : Aimed method path query parser)
    (message buffer : Bytes) : Aimed method path query (fail message parser buffer).parser :=
  ⟨by simp [Turn.parser, HttpParser.fail], aimed.method, aimed.path, aimed.query⟩

theorem Aimed.turn {parser : HttpParser} (aimed : Aimed method path query parser)
    (buffer : Bytes) : Aimed method path query (turn parser buffer).parser := by
  unfold HttpParser.turn
  cases state : parser.state with
  | REQUEST_LINE => exact absurd state aimed.state
  | HEADERS =>
      simp only [headersTurn]
      split
      · split
        · exact aimed.fail _ _
        · exact aimed
      · split
        · have finished := aimed.finishHeaders
          unfold blankLineTurn
          split
          · rename_i outcome
            rw [outcome] at finished
            exact finished.fail _ _
          · rename_i outcome
            rw [outcome] at finished
            split
            · exact ⟨by simp [Turn.parser], finished.method, finished.path, finished.query⟩
            · exact ⟨by simp [Turn.parser], finished.method, finished.path, finished.query⟩
        · unfold parseHeader
          split
          · rename_i outcome
            split at outcome
            · cases outcome
              exact aimed.fail _ _
            · cases outcome
          · rename_i outcome
            split at outcome
            · cases outcome
            · cases outcome
              exact ⟨aimed.state, aimed.method, aimed.path, aimed.query⟩
  | BODY =>
      simp only [bodyTurn]
      split
      · exact aimed.fail _ _
      · split
        · exact aimed
        · split
          · exact ⟨by simp [Turn.parser], aimed.method, aimed.path, aimed.query⟩
          · exact ⟨by simp [Turn.parser, state], aimed.method, aimed.path, aimed.query⟩
  | DONE => exact aimed
  | ERROR => exact aimed

theorem Aimed.parse {parser : HttpParser} (aimed : Aimed method path query parser)
    (buffer : Bytes) : Aimed method path query (parse parser buffer).2.1 := by
  refine parse_rule (fun parser _ => Aimed method path query parser)
    (fun _ parser _ => Aimed method path query parser) ?_ ?_ aimed
  · intro parser buffer parser' buffer' aimed goesOn
    have after := aimed.turn buffer
    rw [goesOn] at after
    exact after
  · intro parser buffer result parser' buffer' aimed stopped
    have after := aimed.turn buffer
    rw [stopped] at after
    exact after

theorem Aimed.consumeBody {parser : HttpParser} (aimed : Aimed method path query parser)
    (length : Nat) : Aimed method path query (parser.consumeBody length).2 := by
  unfold HttpParser.consumeBody
  split
  · exact ⟨by simp, aimed.method, aimed.path, aimed.query⟩
  · exact ⟨aimed.state, aimed.method, aimed.path, aimed.query⟩

/-- What becomes of a parser once it has read a request line, until it is reset. -/
inductive Received (line : Bytes) : HttpParser → Prop
  | line {parser : HttpParser} (state : parser.state = .REQUEST_LINE) (rest : Bytes) :
      Received line (HttpParser.parse parser (line ++ crlf ++ rest)).2.1
  | parse {parser : HttpParser} (received : Received line parser) (buffer : Bytes) :
      Received line (HttpParser.parse parser buffer).2.1
  | consumeBody {parser : HttpParser} (received : Received line parser) (length : Nat) :
      Received line (parser.consumeBody length).2

/-- A request keeps the method, the path and the query of its line. -/
theorem Received.aimed {parser : HttpParser} {version : Bytes} (known : method ≠ .UNKNOWN)
    (isTarget : IsTarget path query) (supported : version ∈ versions)
    (received : Received (requestLine method (path ++ 63 :: query) version) parser) :
    Aimed method path query parser := by
  induction received with
  | line state rest =>
      rw [parse_target state known isTarget supported]
      refine Aimed.parse ?_ rest
      exact ⟨by simp, rfl, rfl, rfl⟩
  | parse received buffer inductionHypothesis => exact inductionHypothesis.parse buffer
  | consumeBody received length inductionHypothesis =>
      exact inductionHypothesis.consumeBody length

end Aimed

end MiniS3.Net.HttpParser
