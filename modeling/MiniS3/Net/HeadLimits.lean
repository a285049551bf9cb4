import MiniS3.Net.HeadParsing

/-!
# The size limits of request heads

A request line has at most `kMaxRequestLineSize` bytes, and the header lines of a request with
their line ends at most `kMaxHeaderSize`.  The parser compares with these limits only what it has
of a line that is not terminated yet.  A line that arrives with its terminator is taken whatever
its length is, and header lines that were taken before do not count.

Whether a head that is too long is refused therefore depends on how it arrives: it is when, at the
end of some chunk, the part that has arrived ends in a line that is too long by itself.
-/

namespace MiniS3.Net.HttpParser

open Lib

/-- What the calls of `Parse` return that are made after each chunk. -/
def results (parser : HttpParser) (buffer : ByteBuffer) : List Bytes → List ParseResult
  | [] => []
  | chunk :: chunks =>
      let returned := parseBuffer parser (buffer.append chunk)
      returned.1 :: results returned.2.1 returned.2.2 chunks

/-- Some call accepts a head. -/
def EverAccepts (parser : HttpParser) (buffer : ByteBuffer) (chunks : List Bytes) : Prop :=
  ∃ result ∈ results parser buffer chunks, Accepts result

/-- The text begins with a head whose request line and whose header lines are not too long. -/
def HasSmallHead (text : Bytes) : Prop :=
  ∃ line fields rest, text = requestHead line fields ++ rest ∧ IsLine line ∧
    (∀ field ∈ fields, HeaderLine field) ∧ line.length ≤ kMaxRequestLineSize ∧
    (terminated fields).length ≤ kMaxHeaderSize

/-- The limits are enforced when the stream arrives in these chunks: a head that is accepted is
within them. -/
def EnforcesLimits (chunks : List Bytes) : Prop :=
  EverAccepts .initial .initial chunks → HasSmallHead chunks.flatten

/-! ## The parts of a head -/

theorem HasHead.append {text : Bytes} (hasHead : HasHead text) (more : Bytes) :
    HasHead (text ++ more) := by
  obtain ⟨method, target, version, fields, rest, begins⟩ := hasHead
  obtain ⟨line, rfl, isLine, requestLine⟩ := begins.split
  exact ⟨method, target, version, fields, rest ++ more,
    ⟨line, List.append_assoc _ _ _, isLine, requestLine⟩, begins.headerLines, begins.framing⟩

/-- A part of a line and its terminator has no terminator. -/
theorem isLine_of_part {line arrived more rest : Bytes} (isLine : IsLine line)
    (split : arrived ++ more = line ++ crlf ++ rest) (short : arrived.length < line.length + 2) :
    IsLine arrived := by
  by_contra terminated
  rw [IsLine, Bool.not_eq_false, Bytes.contains] at terminated
  obtain ⟨position, found⟩ := Option.isSome_iff_exists.mp terminated
  have foundLater := Bytes.find_append_of_some found more
  rw [split, find_crlf_line isLine rest, Option.some.injEq] at foundLater
  have room := Bytes.length_le_of_find found
  simp only [crlf, List.length_cons, List.length_nil] at room
  omega

/-- What has arrived of a sequence of lines: all of them, or some of them and a part of the
next. -/
theorem part_of_lines {lines : List Bytes} {text more rest : Bytes}
    (areLines : ∀ line ∈ lines, IsLine line) (split : text ++ more = terminated lines ++ rest) :
    (∃ later, text = terminated lines ++ later) ∨
      ∃ done left part, lines = done ++ left ∧ left ≠ [] ∧ text = terminated done ++ part ∧
        IsLine part := by
  induction lines generalizing text with
  | nil => exact .inl ⟨text, rfl⟩
  | cons line lines inductionHypothesis =>
      rw [List.forall_mem_cons] at areLines
      rw [terminated_cons_append] at split
      by_cases short : text.length < line.length + 2
      · exact .inr ⟨[], line :: lines, text, rfl, by simp, rfl,
          isLine_of_part areLines.1 split short⟩
      · have front : (line ++ crlf).length ≤ text.length := by
          simp only [List.length_append, crlf, List.length_cons, List.length_nil]
          omega
        obtain ⟨later, rfl⟩ : line ++ crlf <+: text :=
          List.prefix_of_prefix_length_le ⟨_, split.symm⟩ (List.prefix_append text more) front
        rw [List.append_assoc, List.append_cancel_left_eq] at split
        rcases inductionHypothesis areLines.2 split with
          ⟨rest, rfl⟩ | ⟨done, left, part, rfl, nonempty, rfl, isLine⟩
        · exact .inl ⟨rest, (terminated_cons_append line lines rest).symm⟩
        · exact .inr ⟨line :: done, left, part, rfl, nonempty,
            (terminated_cons_append line done part).symm, isLine⟩

/-- What has arrived of a head: all of it, or the beginning of one. -/
theorem HasHead.of_append {text more : Bytes} (hasHead : HasHead (text ++ more)) :
    HasHead text ∨ Unfinished text := by
  obtain ⟨method, target, version, fields, rest, begins⟩ := hasHead
  obtain ⟨line, split, isLine, requestLine⟩ := begins.split
  have lines : text ++ more = terminated (line :: (fields ++ [[]])) ++ rest := by
    simpa [requestHead, terminated] using split
  have areLines : ∀ text ∈ line :: (fields ++ [[]]), IsLine text := by
    intro text member
    rcases List.mem_cons.mp member with rfl | later
    · exact isLine
    · rcases List.mem_append.mp later with early | last
      · exact (begins.headerLines text early).isLine
      · rw [List.mem_singleton.mp last]
        exact isLine_nil
  rcases part_of_lines areLines lines with
    ⟨later, rfl⟩ | ⟨done, left, part, isSplit, nonempty, rfl, partIsLine⟩
  · refine .inl ⟨method, target, version, fields, later, ⟨line, ?_, isLine, requestLine⟩,
      begins.headerLines, begins.framing⟩
    simp [requestHead, terminated]
  · cases done with
    | nil => exact .inr (.requestLine (by simpa using partIsLine))
    | cons first done =>
        obtain ⟨rfl, tails⟩ := List.cons.inj isSplit
        have early : done <+: fields := by
          have within : done <+: fields ++ [[]] := ⟨left, tails.symm⟩
          rw [List.prefix_concat_iff] at within
          refine within.resolve_left fun whole => nonempty ?_
          rw [whole] at tails
          simpa using tails
        exact .inr (.headers isLine requestLine
          (fun field member => begins.headerLines field (early.subset member)) partIsLine)

/-! ## Which streams are accepted -/

theorem ReadLines.reading {parser : HttpParser} {consumed : Bytes}
    (reads : ReadLines parser consumed) : Reading parser consumed := by
  cases reads with
  | start state noHeaders _ => exact .requestLine state noHeaders
  | headers state isLine _ headerLines represented _ =>
      exact .headers _ _ state isLine (fun field member =>
        ⟨(headerLines field member).nonempty, (headerLines field member).isLine⟩) represented

/-- After an error, every call returns an error. -/
theorem results_of_error {parser : HttpParser} (state : parser.state = .ERROR)
    (buffer : ByteBuffer) (chunks : List Bytes) :
    ∀ result ∈ results parser buffer chunks, result = .ERROR := by
  induction chunks generalizing buffer with
  | nil => simp [results]
  | cons chunk chunks inductionHypothesis =>
      have stays : parseBuffer parser (buffer.append chunk) =
          (.ERROR, parser, retrieveUntil (buffer.append chunk).peek (buffer.append chunk)) := by
        simp [parseBuffer, bufferLoop, turn, state]
      simp only [results, stays, List.forall_mem_cons, true_and]
      exact inductionHypothesis _

/-- A stream is accepted when it begins with a head and no chunk ends in a line that is too
long.  The induction is on the chunks; what has been received so far is what was read and what is
in the buffer. -/
theorem everAccepts_iff {parser : HttpParser} {consumed : Bytes} {buffer : ByteBuffer}
    (reads : ReadLines parser consumed) (unfinished : Unfinished (consumed ++ buffer.peek))
    (fits : ¬Overflows (consumed ++ buffer.peek)) (chunks : List Bytes) :
    EverAccepts parser buffer chunks ↔
      HasHead (consumed ++ buffer.peek ++ chunks.flatten) ∧
        ∀ count, ¬Overflows (consumed ++ buffer.peek ++ (chunks.take count).flatten) := by
  induction chunks generalizing parser consumed buffer with
  | nil =>
      rw [List.flatten_nil, List.append_nil]
      refine iff_of_false (by simp [EverAccepts, results]) fun both => ?_
      exact unfinished.not_hasHead both.1
  | cons chunk chunks inductionHypothesis =>
      have onBuffer := reads.reading.parseBuffer (buffer.append chunk)
      have decided := reads.parse (buffer.append chunk).peek
      have returned := reads.reading.parse (buffer.append chunk).peek
      obtain ⟨sameResult, sameParser, sameRest⟩ := onBuffer
      rw [← sameResult, ← sameParser, ← sameRest, ByteBuffer.peek_append,
        ← List.append_assoc] at decided
      obtain ⟨_, -, state⟩ := returned
      rw [← sameResult, ← sameParser, ← sameRest] at state
      have accepts : EverAccepts parser buffer (chunk :: chunks) ↔
          Accepts (parseBuffer parser (buffer.append chunk)).1 ∨
            EverAccepts (parseBuffer parser (buffer.append chunk)).2.1
              (parseBuffer parser (buffer.append chunk)).2.2 chunks := by
        simp [EverAccepts, results]
      rw [accepts, List.flatten_cons, ← List.append_assoc]
      generalize parseBuffer parser (buffer.append chunk) = after at decided state
      obtain ⟨result, next, rest⟩ := after
      have boundaries : (∀ count, ¬Overflows (consumed ++ buffer.peek ++
            ((chunk :: chunks).take count).flatten)) ↔
          ∀ count, ¬Overflows (consumed ++ buffer.peek ++ chunk ++
            (chunks.take count).flatten) := by
        constructor
        · intro all count
          simpa using all (count + 1)
        · intro all count
          cases count with
          | zero => simpa using fits
          | succ count => simpa using all count
      rw [boundaries]
      dsimp only at decided state ⊢
      by_cases accepted : Accepts result
      · have hasHead := decided.accepts_iff.mp accepted
        refine iff_of_true (.inl accepted) ⟨hasHead.append _, fun count overflows => ?_⟩
        exact overflows.unfinished.not_hasHead (hasHead.append _)
      · rw [or_iff_right accepted]
        by_cases more : result = .NEED_MORE_DATA
        · subst more
          obtain ⟨stillUnfinished, stillFits, read, readsNext, split, -⟩ := decided
          rw [split] at stillUnfinished stillFits ⊢
          exact inductionHypothesis readsNext stillUnfinished stillFits
        · have isError : result = .ERROR := by
            cases result with
            | ERROR => rfl
            | BODY_DATA => exact absurd decided id
            | NEED_MORE_DATA => contradiction
            | HEADERS_COMPLETE | MESSAGE_COMPLETE => simp [Accepts] at accepted
          subst isError
          refine iff_of_false ?_ ?_
          · rintro ⟨result, member, accepted⟩
            have failed : next.state = .ERROR := state
            rw [results_of_error failed _ _ result member] at accepted
            simp [Accepts] at accepted
          · rintro ⟨hasHead, all⟩
            rcases hasHead.of_append with whole | part
            · exact decided.1 whole
            · exact all 0 (by simpa using decided.2 part)

theorem everAccepts_initial_iff (chunks : List Bytes) :
    EverAccepts .initial .initial chunks ↔
      HasHead chunks.flatten ∧ ∀ count, ¬Overflows (chunks.take count).flatten := by
  have empty : [] ++ ByteBuffer.initial.peek = [] := by decide
  have unfinished : Unfinished ([] ++ ByteBuffer.initial.peek) := by
    rw [empty]
    exact .requestLine isLine_nil
  have fits : ¬Overflows ([] ++ ByteBuffer.initial.peek) := by
    rw [empty]
    exact not_overflows_of_isLine isLine_nil (Nat.zero_le _)
  have accepts := everAccepts_iff ReadLines.initial unfinished fits chunks
  simpa [empty] using accepts

/-- The limits are enforced on a stream exactly when it begins with no head, or with one that is
within them, or when some chunk ends in a line of the head that is too long by itself. -/
theorem limits_are_enforced_iff (chunks : List Bytes) :
    EnforcesLimits chunks ↔
      ¬HasHead chunks.flatten ∨ HasSmallHead chunks.flatten ∨
        ∃ count, Overflows (chunks.take count).flatten := by
  unfold EnforcesLimits
  rw [everAccepts_initial_iff]
  constructor
  · intro enforced
    by_cases hasHead : HasHead chunks.flatten
    · by_cases overflows : ∃ count, Overflows (chunks.take count).flatten
      · exact .inr (.inr overflows)
      · exact .inr (.inl (enforced ⟨hasHead, not_exists.mp overflows⟩))
    · exact .inl hasHead
  · rintro (noHead | small | ⟨count, overflows⟩) ⟨hasHead, fits⟩
    · exact absurd hasHead noHead
    · exact small
    · exact absurd overflows (fits count)

/-! ## A long request line in one chunk -/

/-- A target of 5000 bytes. -/
def longTarget : Bytes :=
  List.replicate 5000 97

/-- A request line with the long target. -/
def longLine : Bytes :=
  httpMethodToString .GET ++ ascii " " ++ longTarget ++ ascii " " ++ ascii "HTTP/1.1"

theorem requestLine_longLine : RequestLine .GET longTarget (ascii "HTTP/1.1") longLine := by
  refine .intro (by simp) (fun member => ?_) (by simp [versions])
  exact absurd (List.eq_of_mem_replicate member) (by decide)

theorem isLine_longLine : IsLine longLine := by
  refine isLine_of_no_newline fun member => ?_
  simp only [longLine, List.mem_append] at member
  rcases member with (((method | blank) | target) | blank) | version
  · exact absurd method (by decide)
  · exact absurd blank (by decide)
  · exact absurd (List.eq_of_mem_replicate target) (by decide)
  · exact absurd blank (by decide)
  · exact absurd version (by decide)

theorem length_longLine : longLine.length = 5013 := by
  simp only [longLine, longTarget, List.length_append, List.length_replicate]
  rfl

/-- The line arrives with its terminator and is taken. -/
theorem long_request_line_is_accepted :
    EverAccepts .initial .initial [requestHead longLine []] ∧
      ¬EnforcesLimits [requestHead longLine []] := by
  have stream : [requestHead longLine []].flatten = requestHead longLine [] := by simp
  have noFields : ∀ field ∈ ([] : List Bytes), HeaderLine field := by simp
  have framing : Framing [] := by
    constructor
    · intro value last nonempty
      exact absurd (lastValue_iff.mp last) nonempty
    · intro value coding length last _ nonempty
      exact absurd (lastValue_iff.mp last) nonempty
  have hasHead : HasHead [requestHead longLine []].flatten := by
    rw [stream]
    exact ⟨.GET, longTarget, ascii "HTTP/1.1", [], [],
      ⟨longLine, (List.append_nil _).symm, isLine_longLine, requestLine_longLine⟩, noFields,
      framing⟩
  have accepted : EverAccepts .initial .initial [requestHead longLine []] := by
    refine (everAccepts_initial_iff _).mpr ⟨hasHead, fun count overflows => ?_⟩
    cases count with
    | zero => exact not_overflows_of_isLine isLine_nil (Nat.zero_le _) overflows
    | succ count =>
        rw [List.take_succ_cons, List.take_nil] at overflows
        exact overflows.unfinished.not_hasHead hasHead
  refine ⟨accepted, fun enforced => ?_⟩
  obtain ⟨line, fields, rest, split, isLine, headerLines, short, -⟩ := enforced accepted
  have heads : terminated (longLine :: []) ++ (crlf ++ []) =
      terminated (line :: fields) ++ (crlf ++ rest) := by
    rw [← requestHead_eq, ← requestHead_eq, ← split, stream, List.append_nil]
  obtain ⟨rfl, -, -⟩ := reading_unique isLine_longLine isLine noFields headerLines (stops_blank [])
    (stops_blank rest) heads
  rw [length_longLine] at short
  exact absurd short (by decide)

end MiniS3.Net.HttpParser
