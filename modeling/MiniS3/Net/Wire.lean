import MiniS3.Net.HttpConnection
import MiniS3.Net.RequestTarget
import MiniS3.Util.Numeric

/-!
# Responses on the wire

What a client can rely on when it reads a response: a status line, header lines and a blank
line tell where the head ends, and exactly one `Content-Length` among the header lines tells
how many bytes follow.  Nothing follows the head of a response to `HEAD` and of a 204.

The head can be read in one way only, so that a response whose header lines have no line
terminator inside them is framed exactly when the bytes after its head are as many as it
says.
-/

namespace MiniS3.Net

open Lib HttpParser

/-! ## Reading a head -/

/-- The line ends at the first terminator. -/
theorem HttpParser.line_cancel {line other rest others : Bytes} (isLine : IsLine line)
    (isOther : IsLine other) (same : line ++ crlf ++ rest = other ++ crlf ++ others) :
    line = other ∧ rest = others := by
  have length : line.length = other.length := by
    have found := find_crlf_line isLine rest
    rw [same, find_crlf_line isOther others, Option.some.injEq] at found
    exact found.symm
  rw [List.append_assoc, List.append_assoc] at same
  obtain ⟨rfl, tails⟩ := List.append_inj same length
  exact ⟨rfl, List.append_cancel_left tails⟩

/-- A head of lines can be read in one way only. -/
theorem HttpParser.requestHead_injective {line other rest others : Bytes}
    {fields otherFields : List Bytes} (isLine : IsLine line) (isOther : IsLine other)
    (areLines : ∀ field ∈ fields, field ≠ [] ∧ IsLine field)
    (areOthers : ∀ field ∈ otherFields, field ≠ [] ∧ IsLine field)
    (same : requestHead line fields ++ rest = requestHead other otherFields ++ others) :
    line = other ∧ fields = otherFields ∧ rest = others := by
  have blank : IsLine [] := isLine_of_no_newline (by simp)
  have first : ∀ {line : Bytes} {fields : List Bytes} {rest : Bytes},
      requestHead line fields ++ rest = line ++ crlf ++ (terminated fields ++ crlf ++ rest) := by
    simp [requestHead, terminated]
  rw [first, first] at same
  obtain ⟨rfl, tails⟩ := line_cancel isLine isOther same
  suffices fields = otherFields ∧ rest = others from ⟨rfl, this⟩
  clear same
  induction fields generalizing otherFields with
  | nil =>
      cases otherFields with
      | nil => exact ⟨rfl, by simpa [terminated] using tails⟩
      | cons field otherFields =>
          rw [List.forall_mem_cons] at areOthers
          have ends : [] ++ crlf ++ rest =
              field ++ crlf ++ (terminated otherFields ++ crlf ++ others) := by
            simpa [terminated] using tails
          exact absurd (line_cancel blank areOthers.1.2 ends).1.symm areOthers.1.1
  | cons field fields inductionHypothesis =>
      rw [List.forall_mem_cons] at areLines
      cases otherFields with
      | nil =>
          have ends : [] ++ crlf ++ others =
              field ++ crlf ++ (terminated fields ++ crlf ++ rest) := by
            simpa [terminated] using tails.symm
          exact absurd (line_cancel blank areLines.1.2 ends).1.symm areLines.1.1
      | cons otherField otherFields =>
          rw [List.forall_mem_cons] at areOthers
          have both : field ++ crlf ++ (terminated fields ++ crlf ++ rest) =
              otherField ++ crlf ++ (terminated otherFields ++ crlf ++ others) := by
            simpa [terminated] using tails
          obtain ⟨rfl, after⟩ := line_cancel areLines.1.2 areOthers.1.2 both
          obtain ⟨rfl, rests⟩ := inductionHypothesis areLines.2 areOthers.2 after
          exact ⟨rfl, rests⟩

/-! ## Framed responses -/

/-- A status line. -/
def statusLine (statusCode : Nat) (statusMessage : Bytes) : Bytes :=
  ascii "HTTP/1.1 " ++ Bytes.ofNat statusCode ++ ascii " " ++ statusMessage

/-- A header line. -/
def headerLine (name value : Bytes) : Bytes :=
  name ++ ascii ": " ++ value

/-- The values of the header lines with a name. -/
def valuesOf (name : Bytes) (fields : List Bytes) : List Bytes :=
  fields.filterMap fun field =>
    (splitField field).bind fun entry =>
      if Bytes.toLower entry.1 = Bytes.toLower name then some entry.2 else none

/-- What follows a head is what the head says: nothing after `HEAD` and with status 204, and
otherwise as many bytes as its one `Content-Length`. -/
def Agrees (method : HttpMethod) (statusCode : Nat) (fields : List Bytes) (rest : Bytes) : Prop :=
  if method = .HEAD ∨ statusCode = 204 then rest = []
  else ∃ value, valuesOf (ascii "Content-Length") fields = [value] ∧ value ≠ [] ∧
    Bytes.decimal? value = some rest.length

/-- The bytes of a response are a head, and what follows agrees with it. -/
structure WellFramed (method : HttpMethod) (wire : Bytes) : Prop where
  intro ::
  split : ∃ statusCode statusMessage fields rest,
    wire = requestHead (statusLine statusCode statusMessage) fields ++ rest ∧
    IsLine (statusLine statusCode statusMessage) ∧
    (∀ field ∈ fields, field ≠ [] ∧ IsLine field) ∧ Agrees method statusCode fields rest

theorem statusLine_injective {one two : Nat} {message other : Bytes}
    (same : statusLine one message = statusLine two other) : one = two ∧ message = other := by
  have blank : ascii " " = [32] := rfl
  have noBlank (value : Nat) : (32 : UInt8) ∉ Bytes.ofNat value := by
    intro member
    exact absurd (Bytes.isSome_digit?_of_mem_ofNat member) (by decide)
  simp only [statusLine, blank, List.append_assoc, List.singleton_append] at same
  obtain ⟨codes, messages⟩ := Bytes.eq_of_append_cons (noBlank one) (noBlank two)
    (List.append_cancel_left same)
  exact ⟨Bytes.ofNat_injective codes, messages⟩

/-- A head of lines is framed by what follows it. -/
theorem framed_iff {method : HttpMethod} {statusCode : Nat} {statusMessage rest : Bytes}
    {fields : List Bytes} (isLine : IsLine (statusLine statusCode statusMessage))
    (areLines : ∀ field ∈ fields, field ≠ [] ∧ IsLine field) :
    WellFramed method (requestHead (statusLine statusCode statusMessage) fields ++ rest) ↔
      Agrees method statusCode fields rest := by
  constructor
  · rintro ⟨code, message, others, after, same, isOther, areOthers, agrees⟩
    obtain ⟨lines, rfl, rfl⟩ := requestHead_injective isLine isOther areLines areOthers same
    obtain ⟨rfl, -⟩ := statusLine_injective lines
    exact agrees
  · intro agrees
    exact ⟨statusCode, statusMessage, fields, rest, rfl, isLine, areLines, agrees⟩

/-! ## The head of a response -/

namespace HttpResponse

/-- The names of the headers that responses have. -/
def headerNames : List Bytes :=
  [ascii "Content-Type", ascii "Content-Length", ascii "Content-Range", ascii "ETag",
    ascii "Accept-Ranges", ascii "Last-Modified", ascii "X-Request-Id"]

/-- Status message and header values have no line terminator, and the names are known. -/
structure Plain (response : HttpResponse) : Prop where
  message : IsLine response.statusMessage
  header : ∀ name value, response.headers.lookup name = some value →
    name ∈ headerNames ∧ IsLine value

/-- The header lines of a response. -/
def fields (response : HttpResponse) : List Bytes :=
  (response.headers.rows.map fun header => headerLine header.1 header.2) ++
  (if !response.body.isEmpty && (response.headers.lookup (ascii "Content-Length")).isNone then
    [headerLine (ascii "Content-Length") (Bytes.ofNat response.body.length)]
  else []) ++
  if (response.headers.lookup (ascii "Connection")).isNone then
    [headerLine (ascii "Connection") (ascii (if response.keepAlive then "keep-alive" else "close"))]
  else []

/-- The bytes after the head that `AppendToBuffer` writes. -/
def content (response : HttpResponse) : Bytes :=
  if !response.hasFile && !response.body.isEmpty then response.body else []

theorem toBytes_eq (response : HttpResponse) :
    response.toBytes =
      requestHead (statusLine response.statusCode response.statusMessage) response.fields ++
        response.content := by
  have terminator : ascii "\r\n" = crlf := rfl
  have rows : terminated (response.headers.rows.map fun header => headerLine header.1 header.2) =
      response.headers.rows.flatMap fun header =>
        header.1 ++ ascii ": " ++ header.2 ++ crlf := by
    simp [terminated, headerLine, List.flatMap_map]
  unfold toBytes fields content requestHead
  rw [terminator]
  simp only [terminated, List.flatMap_cons, List.flatMap_append] at rows ⊢
  have length : ascii "Content-Length: " = ascii "Content-Length" ++ ascii ": " := rfl
  have connection : ascii "Connection: " = ascii "Connection" ++ ascii ": " := rfl
  rw [rows, length, connection]
  split <;> split <;> simp [statusLine, headerLine]

/-- No header has a newline or a colon in its name, and `Content-Length` is spelled in one
way. -/
theorem headerNames_spec : ∀ name ∈ headerNames, (10 : UInt8) ∉ name ∧ (58 : UInt8) ∉ name ∧
    (Bytes.toLower name = Bytes.toLower (ascii "Content-Length") ↔
      name = ascii "Content-Length") := by
  decide

theorem isLine_headerLine {name value : Bytes} (noNewline : (10 : UInt8) ∉ name)
    (isLine : IsLine value) : headerLine name value ≠ [] ∧ IsLine (headerLine name value) := by
  have isFront : IsLine (name ++ ascii ": ") := by
    refine isLine_of_no_newline ?_
    simpa [ascii] using noNewline
  refine ⟨by simp [headerLine, ascii], isFront.append isLine (.inl ?_)⟩
  rw [List.getLast?_append, show (ascii ": ").getLast? = some 32 from rfl, Option.some_or]
  decide

theorem splitField_headerLine {name : Bytes} (noColon : (58 : UInt8) ∉ name) (value : Bytes) :
    splitField (headerLine name value) = some (name, trim value) := by
  have colon : ascii ":" = [58] := rfl
  have front : headerLine name value = name ++ 58 :: 32 :: value := by
    simp [headerLine, ascii]
  rw [splitField, front, colon, Bytes.find_singleton noColon]
  simp [trim]

theorem trim_ofNat (value : Nat) : trim (Bytes.ofNat value) = Bytes.ofNat value := by
  have noBlank : ∀ byte ∈ Bytes.ofNat value, ¬(byte == 32 || byte == 9) = true := by
    intro byte member blank
    have digit := Bytes.isSome_digit?_of_mem_ofNat member
    simp only [Bool.or_eq_true, beq_iff_eq] at blank
    rcases blank with rfl | rfl
    · exact absurd digit (by decide)
    · exact absurd digit (by decide)
  have kept : ∀ {text : Bytes}, (∀ byte ∈ text, ¬(byte == 32 || byte == 9) = true) →
      text.dropWhile (fun byte => byte == 32 || byte == 9) = text := by
    intro text absent
    cases text with
    | nil => rfl
    | cons byte text => rw [List.dropWhile_cons, if_neg (absent byte List.mem_cons_self)]
  unfold trim
  dsimp only
  rw [kept noBlank, kept (by simpa using noBlank), List.reverse_reverse]

section Plain

variable {response : HttpResponse}

/-- The lines of the head have no terminator inside them. -/
theorem Plain.isLine (plain : response.Plain) :
    IsLine (statusLine response.statusCode response.statusMessage) := by
  have isFront : IsLine (ascii "HTTP/1.1 " ++ Bytes.ofNat response.statusCode ++ ascii " ") := by
    refine isLine_of_no_newline ?_
    have digits : (10 : UInt8) ∉ Bytes.ofNat response.statusCode := fun member =>
      absurd (Bytes.isSome_digit?_of_mem_ofNat member) (by decide)
    simp [ascii, digits]
  refine isFront.append plain.message (.inl ?_)
  rw [List.getLast?_append, show (ascii " ").getLast? = some 32 from rfl, Option.some_or]
  decide

theorem Plain.areLines (plain : response.Plain) :
    ∀ field ∈ response.fields, field ≠ [] ∧ IsLine field := by
  unfold fields
  simp only [List.mem_append]
  rintro field ((member | member) | member)
  · obtain ⟨⟨name, value⟩, stored, rfl⟩ := List.mem_map.mp member
    obtain ⟨known, isLine⟩ := plain.header name value (Table.mem_rows_iff.mp stored)
    exact isLine_headerLine (headerNames_spec name known).1 isLine
  · split at member
    · obtain rfl := List.mem_singleton.mp member
      refine isLine_headerLine (by decide) (isLine_of_no_newline fun newline => ?_)
      exact absurd (Bytes.isSome_digit?_of_mem_ofNat newline) (by decide)
    · contradiction
  · split at member
    · obtain rfl := List.mem_singleton.mp member
      refine isLine_headerLine (by decide) (isLine_of_no_newline ?_)
      split <;> decide
    · contradiction

/-- The `Content-Length` lines of a head. -/
theorem Plain.valuesOf_fields (plain : response.Plain) :
    valuesOf (ascii "Content-Length") response.fields =
      ((response.headers.lookup (ascii "Content-Length")).map trim).toList ++
        if !response.body.isEmpty &&
            (response.headers.lookup (ascii "Content-Length")).isNone then
          [Bytes.ofNat response.body.length]
        else [] := by
  have rows : valuesOf (ascii "Content-Length") (response.headers.rows.map fun header =>
      headerLine header.1 header.2) =
        ((response.headers.lookup (ascii "Content-Length")).map trim).toList := by
    rw [← Table.filterMap_rows, valuesOf, List.filterMap_map]
    refine List.filterMap_congr fun header member => ?_
    have known := (plain.header header.1 header.2 (Table.mem_rows_iff.mp member)).1
    obtain ⟨-, noColon, spelled⟩ := headerNames_spec header.1 known
    simp only [Function.comp_apply, splitField_headerLine noColon, Option.bind_some, spelled]
  have length (value : Bytes) : valuesOf (ascii "Content-Length")
      [headerLine (ascii "Content-Length") value] = [trim value] := by
    simp [valuesOf, splitField_headerLine (by decide : (58 : UInt8) ∉ ascii "Content-Length")]
  have connection (value : Bytes) : valuesOf (ascii "Content-Length")
      [headerLine (ascii "Connection") value] = [] := by
    have different : ¬Bytes.toLower (ascii "Connection") =
        Bytes.toLower (ascii "Content-Length") := by decide
    simp [valuesOf, splitField_headerLine (by decide : (58 : UInt8) ∉ ascii "Connection"),
      different]
  have split {first second third : List Bytes} : valuesOf (ascii "Content-Length")
      (first ++ second ++ third) = valuesOf (ascii "Content-Length") first ++
        valuesOf (ascii "Content-Length") second ++ valuesOf (ascii "Content-Length") third := by
    simp [valuesOf]
  have none : valuesOf (ascii "Content-Length") [] = [] := rfl
  rw [fields, split, rows]
  split_ifs <;> simp only [length, connection, none, trim_ofNat, List.append_nil]

/-- A response whose header says how much data follows its head. -/
theorem Plain.framed_promised {method : HttpMethod} (plain : response.Plain)
    (noBody : response.body = []) {length : Nat} (promised : response.headers.lookup
      (ascii "Content-Length") = some (Bytes.ofNat length))
    (notEmptied : response.statusCode ≠ 204) (data : Bytes) :
    WellFramed method (response.toBytes ++ data) ↔
      if method = .HEAD then data = [] else data.length = length := by
  have content : response.content = [] := by simp [HttpResponse.content, noBody]
  have values := plain.valuesOf_fields
  rw [promised, Option.map_some, trim_ofNat, noBody] at values
  rw [toBytes_eq, content, List.append_nil, framed_iff plain.isLine plain.areLines, Agrees,
    values]
  by_cases head : method = .HEAD
  · simp [head]
  · have announced : Bytes.decimal? (Bytes.ofNat length) = some data.length ↔ data.length = length := by
      rw [Bytes.decimal?_ofNat, Option.some.injEq]
      exact eq_comm
    simp [head, notEmptied, Bytes.ofNat_ne_nil, announced]

/-- A response with nothing after its head, and no word about that. -/
theorem Plain.framed_bare {method : HttpMethod} (plain : response.Plain)
    (noBody : response.body = [])
    (noLength : response.headers.lookup (ascii "Content-Length") = none) :
    WellFramed method response.toBytes ↔ method = .HEAD ∨ response.statusCode = 204 := by
  have content : response.content = [] := by simp [HttpResponse.content, noBody]
  have values := plain.valuesOf_fields
  rw [noLength, noBody] at values
  rw [toBytes_eq, content, framed_iff plain.isLine plain.areLines, Agrees, values]
  split
  · rename_i silent
    exact iff_of_true rfl silent
  · rename_i spoken
    exact iff_of_false (by simp) spoken

/-- A response to `HEAD` with nothing after its head. -/
theorem Plain.framed_head (plain : response.Plain) (noBody : response.body = []) :
    WellFramed .HEAD response.toBytes := by
  have content : response.content = [] := by simp [HttpResponse.content, noBody]
  rw [toBytes_eq, content, framed_iff plain.isLine plain.areLines, Agrees, if_pos (.inl rfl)]

end Plain

/-- A response with its body in memory. -/
structure IsText (response : HttpResponse) : Prop where
  plain : response.Plain
  hasBody : response.body ≠ []
  noFile : response.hasFile = false
  notEmptied : response.statusCode ≠ 204
  noLength : response.headers.lookup (ascii "Content-Length") = none

/-- The serializer adds the length of the body; after `HEAD` the body must not follow. -/
theorem IsText.framed {response : HttpResponse} (isText : response.IsText)
    (method : HttpMethod) : WellFramed method response.toBytes ↔ method ≠ .HEAD := by
  have content : response.content = response.body := by
    simp [HttpResponse.content, isText.noFile, isText.hasBody]
  have spoken : (!response.body.isEmpty &&
      (response.headers.lookup (ascii "Content-Length")).isNone) = true := by
    rw [isText.noLength, List.isEmpty_eq_false_iff.mpr isText.hasBody]
    rfl
  have values := isText.plain.valuesOf_fields
  rw [if_pos spoken, isText.noLength, Option.map_none, Option.toList_none, List.nil_append]
    at values
  rw [toBytes_eq, content, framed_iff isText.plain.isLine isText.plain.areLines, Agrees, values]
  by_cases head : method = .HEAD
  · simp [head, isText.hasBody]
  · simp [head, isText.notEmptied, Bytes.ofNat_ne_nil, Bytes.decimal?_ofNat]

/-! ### Building responses -/

theorem plain_ofStatus (statusCode : Nat) : (ofStatus statusCode).Plain := by
  refine ⟨isLine_of_no_newline ?_, by simp [ofStatus, empty]⟩
  change (10 : UInt8) ∉ getStatusMessage statusCode
  unfold getStatusMessage
  split <;> decide

theorem Plain.setHeader {response : HttpResponse} (plain : response.Plain) {name value : Bytes}
    (known : name ∈ headerNames) (isLine : IsLine value) :
    (response.setHeader name value).Plain := by
  refine ⟨plain.message, fun other stored found => ?_⟩
  rw [HttpResponse.setHeader, Table.lookup_set] at found
  split at found
  · rename_i same
    cases found
    exact ⟨same ▸ known, isLine⟩
  · exact plain.header other stored found

theorem IsText.setHeader {response : HttpResponse} (isText : response.IsText)
    {name value : Bytes} (known : name ∈ headerNames) (isLine : IsLine value)
    (other : name ≠ ascii "Content-Length") : (response.setHeader name value).IsText where
  plain := isText.plain.setHeader known isLine
  hasBody := isText.hasBody
  noFile := isText.noFile
  notEmptied := isText.notEmptied
  noLength := by
    rw [HttpResponse.setHeader, Table.lookup_set_ne _ _ other.symm]
    exact isText.noLength

theorem isText_setJsonBody {statusCode : Nat} {body : Bytes} (nonempty : body ≠ [])
    (notEmptied : statusCode ≠ 204) : ((ofStatus statusCode).setJsonBody body).IsText := by
  have isText : { ofStatus statusCode with body }.IsText :=
    ⟨⟨(plain_ofStatus statusCode).message, (plain_ofStatus statusCode).header⟩, nonempty, rfl,
      notEmptied, rfl⟩
  exact isText.setHeader (by decide) (isLine_of_no_newline (by decide)) (by decide)

end HttpResponse

/-! ## The bytes a connection sends -/

namespace HttpConnection

/-- What is still to be sent of a response, when the file that was opened has this content. -/
def pending (content : Bytes) (connection : HttpConnection) : Bytes :=
  connection.outputBuffer ++
    if connection.state = .SENDING_FILE then
      (content.drop connection.fileOffset).take connection.fileRemaining
    else []

/-- The bytes of a file that one call of `sendfile` takes. -/
def takenOfFile (content : Bytes) (outcome : WriteOutcome) (connection : HttpConnection) : Bytes :=
  match outcome with
  | .count length =>
      ((content.drop connection.fileOffset).take connection.fileRemaining).take length
  | _ => []

/-- The bytes of the output buffer that one call of `write` takes. -/
def takenOfBuffer (outcome : WriteOutcome) (connection : HttpConnection) : Bytes :=
  match outcome with
  | .count length => connection.outputBuffer.take length
  | _ => []

/-- The bytes that `HandleWrite` puts on the wire: first those in the buffer, and once these
are sent, those of the file. -/
def written (content : Bytes) (outcome : WriteOutcome × WriteOutcome)
    (connection : HttpConnection) : Bytes :=
  let ofBuffer := connection.takenOfBuffer outcome.1
  if connection.state = .SENDING_FILE ∧ ofBuffer = connection.outputBuffer then
    ofBuffer ++ connection.takenOfFile content outcome.2
  else ofBuffer

section Written

variable {content : Bytes} {connection : HttpConnection}

theorem pending_handleClose (sent : connection.outputBuffer = []) :
    connection.handleClose.pending content = [] := by
  have same : connection.handleClose.outputBuffer = connection.outputBuffer := by
    rcases connection.handleClose_cases with ⟨-, unchanged⟩ | closes
    · rw [unchanged]
    · rw [closes]
  simp [pending, same, sent]

theorem pending_finishResponse (sent : connection.outputBuffer = []) :
    connection.finishResponse.pending content = [] := by
  unfold finishResponse
  dsimp only
  split
  · simp [pending, updateChannel, sent]
  · exact pending_handleClose sent

theorem pending_writeOutput {outcome : WriteOutcome} (works : outcome ≠ .failed) :
    connection.pending content = connection.takenOfBuffer outcome ++
      (connection.writeOutput outcome).pending content := by
  cases outcome with
  | count length =>
      simp only [takenOfBuffer, writeOutput, pending, ← List.append_assoc,
        List.take_append_drop]
      rfl
  | again => rfl
  | failed => exact absurd rfl works

theorem pending_sendFileBody {outcome : WriteOutcome} (works : outcome ≠ .failed)
    (sending : connection.state = .SENDING_FILE) (sent : connection.outputBuffer = []) :
    connection.pending content = connection.takenOfFile content outcome ++
      (connection.sendFileBody outcome).pending content := by
  unfold sendFileBody
  split
  · rename_i finished
    rw [pending_finishResponse sent]
    cases outcome <;> simp [pending, takenOfFile, sent, finished]
  · cases outcome with
    | count length =>
        simp only [pending, takenOfFile, sent, sending, if_true, List.nil_append]
        rw [← List.drop_drop, ← List.drop_take, List.take_append_drop]
    | again => rfl
    | failed => exact absurd rfl works

/-- What is pending is what a write puts on the wire, and what is pending after it. -/
theorem pending_handleWrite {outcome : WriteOutcome × WriteOutcome}
    (headWorks : outcome.1 ≠ .failed) (bodyWorks : outcome.2 ≠ .failed) :
    connection.pending content = connection.written content outcome ++
      (connection.handleWrite outcome).pending content := by
  unfold handleWrite written
  dsimp only
  by_cases sending : connection.state = .SENDING_FILE
  · rw [if_pos sending]
    unfold sendFileInLoop
    by_cases empty : connection.outputBuffer = []
    · have nothing : connection.takenOfBuffer outcome.1 = connection.outputBuffer := by
        cases outcome.1 <;> simp [takenOfBuffer, empty]
      rw [if_pos ⟨sending, nothing⟩, if_pos (List.isEmpty_iff.mpr empty), nothing, empty,
        List.nil_append]
      exact pending_sendFileBody bodyWorks sending empty
    · have unsentYet : ¬connection.outputBuffer.isEmpty = true := by simpa using empty
      rw [if_neg unsentYet]
      cases head : outcome.1 with
      | count length =>
          have first : connection.pending content = _ := pending_writeOutput (headWorks)
          rw [head] at first
          dsimp only
          by_cases whole : (connection.writeOutput (.count length)).outputBuffer = []
          · have taken : connection.takenOfBuffer (.count length) = connection.outputBuffer :=
              List.take_of_length_le (List.drop_eq_nil_iff.mp whole)
            rw [if_pos ⟨sending, taken⟩, if_pos (List.isEmpty_iff.mpr whole), first,
              List.append_assoc]
            congr 1
            exact pending_sendFileBody bodyWorks sending whole
          · have part : connection.takenOfBuffer (.count length) ≠ connection.outputBuffer :=
              fun all => whole (List.drop_eq_nil_iff.mpr (List.take_eq_self_iff _ |>.mp all))
            rw [if_neg fun both => part both.2, if_neg (by simpa using whole)]
            exact first
      | again =>
          have unsent : connection.takenOfBuffer .again ≠ connection.outputBuffer := Ne.symm empty
          rw [if_neg fun both => unsent both.2]
          rfl
      | failed => exact absurd head headWorks
  · rw [if_neg sending, if_neg (by simp [sending])]
    unfold sendInLoop
    split
    · rename_i empty
      rw [List.isEmpty_iff] at empty
      rw [pending_finishResponse empty]
      cases outcome.1 <;> simp [pending, takenOfBuffer, sending, empty]
    · exact pending_writeOutput headWorks

/-- The response as `Send` serializes it. -/
def marked (response : HttpResponse) (connection : HttpConnection) : HttpResponse :=
  { response with keepAlive := connection.parser.request.isKeepAlive }

/-- What `Send` makes pending on a connection that has sent everything before. -/
theorem pending_send {library : JsonLibrary} {file : OpenOutcome} {response : HttpResponse}
    {sending : HttpConnection} (isOpen : connection.state ≠ .CLOSED)
    (idle : connection.outputBuffer = [])
    (sends : send library file response connection = some sending) :
    (response.hasFile = false ∧
        sending.pending content = (connection.marked response).toBytes) ∨
      (response.hasFile = true ∧ file = .opened ∧ sending.pending content =
        (connection.marked response).toBytes ++
          (content.drop response.fileOffset).take response.sentLength) ∨
      (response.hasFile = true ∧ file ≠ .opened ∧ ∃ error,
        openError library file = some error ∧
        sending.pending content = (connection.marked error).toBytes) := by
  unfold send at sends
  rw [if_neg isOpen] at sends
  split at sends
  · rename_i hasFile
    split at sends
    · cases sends
      refine .inr (.inl ⟨hasFile, rfl, ?_⟩)
      simp [pending, startWriting, updateChannel, record, appendResponse, idle, marked]
    · rename_i notOpened
      obtain ⟨error, answered, rfl⟩ := Option.map_eq_some_iff.mp sends
      refine .inr (.inr ⟨hasFile, notOpened, error, answered, ?_⟩)
      simp [pending, startWriting, updateChannel, record, appendResponse, marked]
  · rename_i noFile
    cases sends
    refine .inl ⟨by simpa using noFile, ?_⟩
    simp [pending, startWriting, updateChannel, record, appendResponse, idle, marked]

end Written

end HttpConnection

end MiniS3.Net
