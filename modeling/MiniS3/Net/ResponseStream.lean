import MiniS3.Lib.Reader
import MiniS3.Net.Wire

/-!
# Streams of responses

Responses on one connection follow each other with nothing in between.  A client knows the
methods of the requests that it sent, reads a head line by line, and then as many bytes as the head
says.  It finds every response again, whatever the server put into the ones before: texts, slices
of files, and answers without a body.
-/

namespace MiniS3.Net

open Lib HttpParser

/-! ## A client -/

/-- Take off a line with its terminator. -/
def readLine : Reader UInt8 Bytes := fun text =>
  (Bytes.find crlf text).map fun length => (text.take length, text.drop (length + 2))

/-- Take off lines, at most a number of them, and the blank line behind them. -/
def readFields : Nat → Reader UInt8 (List Bytes)
  | 0, _ => none
  | count + 1, text =>
      match readLine text with
      | none => none
      | some ([], rest) => some ([], rest)
      | some (field, rest) => (readFields count rest).map fun others => (field :: others.1, others.2)

/-- The number in a status line. -/
def readStatus (line : Bytes) : Option Nat :=
  Bytes.decimal? ((line.drop (ascii "HTTP/1.1 ").length).takeWhile (· != 32))

/-- How many bytes follow the head of a response. -/
def announcedLength (method : HttpMethod) (line : Bytes) (fields : List Bytes) : Option Nat :=
  if method = .HEAD ∨ readStatus line = some 204 then some 0
  else
    match valuesOf (ascii "Content-Length") fields with
    | [value] => Bytes.decimal? value
    | _ => none

/-- What a client has of a response. -/
structure ReadResponse where
  line : Bytes
  fields : List Bytes
  content : Bytes
  deriving DecidableEq

/-- Take off the response to a request. -/
def readResponse (method : HttpMethod) : Reader UInt8 ReadResponse := fun text =>
  (readLine text).bind fun first =>
    (readFields (first.2.length + 1) first.2).bind fun head =>
      (announcedLength method first.1 head.1).bind fun length =>
        if head.2.length < length then none
        else some (⟨first.1, head.1, head.2.take length⟩, head.2.drop length)

/-- Take off the responses to requests that were sent one after the other. -/
def readResponses : List HttpMethod → Reader UInt8 (List ReadResponse)
  | [], text => some ([], text)
  | method :: methods, text =>
      (readResponse method text).bind fun first =>
        (readResponses methods first.2).map fun others => (first.1 :: others.1, others.2)

/-! ## What it reads -/

theorem readLine_line {line : Bytes} (isLine : IsLine line) (rest : Bytes) :
    readLine (line ++ crlf ++ rest) = some (line, rest) := by
  have length : line.length + 2 = (line ++ crlf).length := by simp [crlf]
  rw [readLine, find_crlf_line isLine rest, Option.map_some, length, List.drop_left,
    List.append_assoc, List.take_left]

theorem readFields_terminated {fields : List Bytes} {count : Nat}
    (areLines : ∀ field ∈ fields, field ≠ [] ∧ IsLine field) (enough : fields.length < count)
    (rest : Bytes) : readFields count (terminated fields ++ crlf ++ rest) = some (fields, rest) := by
  induction fields generalizing count with
  | nil =>
      obtain ⟨count, rfl⟩ := Nat.exists_eq_succ_of_ne_zero (Nat.ne_of_gt enough)
      have blank : readLine (crlf ++ rest) = some ([], rest) :=
        readLine_line (isLine_of_no_newline List.not_mem_nil) rest
      simp [readFields, terminated, blank]
  | cons field fields inductionHypothesis =>
      obtain ⟨count, rfl⟩ := Nat.exists_eq_succ_of_ne_zero (Nat.ne_zero_of_lt enough)
      rw [List.forall_mem_cons] at areLines
      have first : terminated (field :: fields) ++ crlf ++ rest =
          field ++ crlf ++ (terminated fields ++ crlf ++ rest) := by
        simp [terminated]
      rw [first, readFields, readLine_line areLines.1.2]
      rw [List.length_cons] at enough
      cases field with
      | nil => exact absurd rfl areLines.1.1
      | cons byte field =>
          simp only
          rw [inductionHypothesis areLines.2 (Nat.lt_of_succ_lt_succ enough), Option.map_some]

theorem length_terminated (fields : List Bytes) : fields.length ≤ (terminated fields).length := by
  induction fields with
  | nil => simp
  | cons field fields inductionHypothesis =>
      simp only [terminated, List.flatMap_cons, List.length_append, List.length_cons] at *
      have ends : crlf.length = 2 := rfl
      omega

theorem readStatus_statusLine (statusCode : Nat) (statusMessage : Bytes) :
    readStatus (statusLine statusCode statusMessage) = some statusCode := by
  have digits : ∀ byte ∈ Bytes.ofNat statusCode, (byte != 32) = true := by
    intro byte member
    have isDigit := Bytes.isSome_digit?_of_mem_ofNat member
    rw [bne_iff_ne]
    rintro rfl
    exact absurd isDigit (by decide)
  have blank : ascii " " ++ statusMessage = 32 :: statusMessage := rfl
  rw [readStatus, statusLine, List.append_assoc, List.append_assoc, List.drop_left, blank,
    List.takeWhile_append_of_pos digits, List.takeWhile_cons_of_neg (by simp), List.append_nil,
    Bytes.decimal?_ofNat]

/-- What agrees with a head is read behind it, whatever follows. -/
theorem readResponse_of_agrees {method : HttpMethod} {statusCode : Nat}
    {statusMessage content : Bytes} {fields : List Bytes}
    (isLine : IsLine (statusLine statusCode statusMessage))
    (areLines : ∀ field ∈ fields, field ≠ [] ∧ IsLine field)
    (agrees : Agrees method statusCode fields content) (rest : Bytes) :
    readResponse method
        (requestHead (statusLine statusCode statusMessage) fields ++ content ++ rest) =
      some (⟨statusLine statusCode statusMessage, fields, content⟩, rest) := by
  have first : requestHead (statusLine statusCode statusMessage) fields ++ content ++ rest =
      statusLine statusCode statusMessage ++ crlf ++
        (terminated fields ++ crlf ++ (content ++ rest)) := by
    simp [requestHead, terminated]
  have announced : announcedLength method (statusLine statusCode statusMessage) fields =
      some content.length := by
    rw [announcedLength, readStatus_statusLine]
    rw [Agrees] at agrees
    split at agrees
    · rename_i silent
      rw [if_pos (by simpa using silent), agrees, List.length_nil]
    · rename_i spoken
      obtain ⟨value, one, -, length⟩ := agrees
      rw [if_neg (by simpa using spoken), one]
      exact length
  have enough : fields.length < (terminated fields ++ crlf ++ (content ++ rest)).length + 1 := by
    have bound := length_terminated fields
    simp only [List.length_append]
    omega
  rw [first, readResponse, readLine_line isLine, Option.bind_some,
    readFields_terminated areLines enough, Option.bind_some, announced, Option.bind_some,
    if_neg (by simp), List.take_left, List.drop_left]

/-! ## What it waits for -/

theorem stable_readLine : Reader.Stable readLine := by
  intro text line rest more taken
  obtain ⟨length, found, equal⟩ := Option.map_eq_some_iff.mp taken
  obtain ⟨rfl, rfl⟩ := Prod.mk.inj equal
  have within : length + 2 ≤ text.length := Bytes.length_le_of_find found
  rw [readLine, Bytes.find_append_of_some found, Option.map_some,
    List.take_append_of_le_length (by omega), List.drop_append_of_le_length within]

theorem readFields_append {count bound : Nat} {text rest : Bytes} {fields : List Bytes}
    (within : count ≤ bound) (taken : readFields count text = some (fields, rest))
    (more : Bytes) : readFields bound (text ++ more) = some (fields, rest ++ more) := by
  induction count generalizing bound text fields with
  | zero => cases taken
  | succ count inductionHypothesis =>
      obtain ⟨bound, rfl⟩ := Nat.exists_eq_succ_of_ne_zero (Nat.ne_zero_of_lt within)
      rw [readFields] at taken ⊢
      cases first : readLine text with
      | none =>
          rw [first] at taken
          cases taken
      | some line =>
          obtain ⟨field, after⟩ := line
          rw [stable_readLine text field after more first]
          rw [first] at taken
          cases field with
          | nil =>
              obtain ⟨rfl, rfl⟩ := Prod.mk.inj (Option.some.inj taken)
              rfl
          | cons byte field =>
              obtain ⟨⟨others, last⟩, later, equal⟩ := Option.map_eq_some_iff.mp taken
              obtain ⟨rfl, rfl⟩ := Prod.mk.inj equal
              simp only
              rw [inductionHypothesis (Nat.le_of_succ_le_succ within) later, Option.map_some]

/-- A response that was read is read in the same way when more bytes come. -/
theorem stable_readResponse (method : HttpMethod) : Reader.Stable (readResponse method) := by
  intro text response rest more taken
  obtain ⟨⟨line, afterLine⟩, first, taken⟩ := Option.bind_eq_some_iff.mp taken
  obtain ⟨⟨fields, afterHead⟩, head, taken⟩ := Option.bind_eq_some_iff.mp taken
  obtain ⟨length, announced, taken⟩ := Option.bind_eq_some_iff.mp taken
  dsimp only at head announced taken
  split at taken
  · cases taken
  · rename_i whole
    obtain ⟨rfl, rfl⟩ := Prod.mk.inj (Option.some.inj taken)
    have longer : afterLine.length + 1 ≤ (afterLine ++ more).length + 1 := by simp
    rw [readResponse, stable_readLine text line afterLine more first, Option.bind_some]
    dsimp only
    rw [readFields_append longer head more, Option.bind_some]
    dsimp only
    rw [announced, Option.bind_some, if_neg (by simp; omega),
      List.take_append_of_le_length (by omega), List.drop_append_of_le_length (by omega)]

/-! ## The responses of the server -/

/-- A response to a request, with the bytes of a file that are sent behind it. -/
structure Reply where
  method : HttpMethod
  response : HttpResponse
  data : Bytes

namespace Reply

/-- What is written for a reply. -/
def wire (reply : Reply) : Bytes :=
  reply.response.toBytes ++ reply.data

/-- What the client should have of a reply. -/
def read (reply : Reply) : ReadResponse where
  line := statusLine reply.response.statusCode reply.response.statusMessage
  fields := reply.response.fields
  content := reply.response.content ++ reply.data

/-- The kinds of replies: a text, a slice of a file, the head of an object, and no content.  A
text in answer to `HEAD` is not among them, since its bytes follow all the same. -/
inductive Regular : Reply → Prop
  | text {method : HttpMethod} {response : HttpResponse} (isText : response.IsText)
      (asked : method ≠ .HEAD) : Regular ⟨method, response, []⟩
  | file {method : HttpMethod} {response : HttpResponse} {data : Bytes} (plain : response.Plain)
      (noBody : response.body = []) (notEmptied : response.statusCode ≠ 204)
      (asked : method ≠ .HEAD) (promised : response.headers.lookup (ascii "Content-Length") =
        some (Bytes.ofNat data.length)) : Regular ⟨method, response, data⟩
  | head {response : HttpResponse} (plain : response.Plain) (noBody : response.body = []) :
      Regular ⟨.HEAD, response, []⟩
  | empty {method : HttpMethod} {response : HttpResponse} (plain : response.Plain)
      (noBody : response.body = []) (emptied : response.statusCode = 204)
      (noLength : response.headers.lookup (ascii "Content-Length") = none) :
      Regular ⟨method, response, []⟩

theorem Regular.plain {reply : Reply} (regular : reply.Regular) : reply.response.Plain := by
  cases regular with
  | text isText => exact isText.plain
  | file plain => exact plain
  | head plain => exact plain
  | empty plain => exact plain

theorem Regular.framed {reply : Reply} (regular : reply.Regular) :
    WellFramed reply.method reply.wire := by
  cases regular with
  | text isText asked =>
      rw [wire, List.append_nil]
      exact (isText.framed _).mpr asked
  | file plain noBody notEmptied asked promised =>
      refine (plain.framed_promised noBody promised notEmptied _).mpr ?_
      rw [if_neg asked]
  | head plain noBody =>
      rw [wire, List.append_nil]
      exact plain.framed_head noBody
  | empty plain noBody emptied noLength =>
      rw [wire, List.append_nil]
      exact (plain.framed_bare noBody noLength).mpr (.inr emptied)

/-- A regular reply is read off the front of a stream. -/
theorem Regular.readResponse {reply : Reply} (regular : reply.Regular) (rest : Bytes) :
    readResponse reply.method (reply.wire ++ rest) = some (reply.read, rest) := by
  have framed := regular.framed
  have plain := regular.plain
  have whole : reply.wire = requestHead
      (statusLine reply.response.statusCode reply.response.statusMessage) reply.response.fields ++
        (reply.response.content ++ reply.data) := by
    rw [wire, HttpResponse.toBytes_eq, List.append_assoc]
  rw [whole] at framed ⊢
  have agrees := (framed_iff plain.isLine plain.areLines).mp framed
  exact readResponse_of_agrees plain.isLine plain.areLines agrees rest

theorem readResponses_wire {replies : List Reply} (regular : ∀ reply ∈ replies, reply.Regular)
    (rest : Bytes) :
    readResponses (replies.map Reply.method) (replies.flatMap Reply.wire ++ rest) =
      some (replies.map Reply.read, rest) := by
  induction replies with
  | nil => rfl
  | cons reply replies inductionHypothesis =>
      rw [List.forall_mem_cons] at regular
      rw [List.flatMap_cons, List.append_assoc, List.map_cons, readResponses,
        regular.1.readResponse, Option.bind_some, inductionHypothesis regular.2, Option.map_some,
        List.map_cons]

/-- The responses on a connection are read back one by one, whatever their contents are, and the
rest of the stream is left; and a client that does not have the last byte of a response waits. -/
theorem responses_are_read_back {replies : List Reply}
    (regular : ∀ reply ∈ replies, reply.Regular) (rest : Bytes) :
    readResponses (replies.map Reply.method) (replies.flatMap Reply.wire ++ rest) =
        some (replies.map Reply.read, rest) ∧
      ∀ reply ∈ replies, ∀ front missing, front ++ missing = reply.wire → missing ≠ [] →
        MiniS3.Net.readResponse reply.method front = none := by
  refine ⟨readResponses_wire regular rest, ?_⟩
  intro reply member front missing whole unfinished
  have read := (regular reply member).readResponse []
  rw [List.append_nil, ← whole] at read
  exact Reader.Stable.none_of_prefix (stable_readResponse reply.method) read unfinished

/-! ### What a connection sends -/

/-- The reply that `Send` makes of a response: it is marked, and the slice of its file follows. -/
def ofSend (connection : HttpConnection) (method : HttpMethod) (content : Bytes)
    (response : HttpResponse) : Reply where
  method := method
  response := connection.marked response
  data :=
    if response.hasFile then (content.drop response.fileOffset).take response.sentLength else []

section Sending

variable {library : JsonLibrary} {file : OpenOutcome} {response : HttpResponse}
variable {connection sending : HttpConnection} {content : Bytes}

/-- What `Send` leaves to be written is what is written for the reply. -/
theorem pending_eq_wire (isOpen : connection.state ≠ .CLOSED) (idle : connection.outputBuffer = [])
    (opens : response.hasFile = true → file = .opened)
    (sends : connection.send library file response = some sending) (method : HttpMethod) :
    sending.pending content = (ofSend connection method content response).wire := by
  rcases connection.pending_send isOpen idle sends with
    ⟨noFile, pending⟩ | ⟨hasFile, -, pending⟩ | ⟨hasFile, failed, -⟩
  · rw [pending, wire, ofSend, if_neg (by simp [noFile]), List.append_nil]
  · rw [pending, wire, ofSend, if_pos hasFile]
  · exact absurd (opens hasFile) failed

/-- So the client reads it back. -/
theorem readResponse_pending (isOpen : connection.state ≠ .CLOSED)
    (idle : connection.outputBuffer = []) (opens : response.hasFile = true → file = .opened)
    (sends : connection.send library file response = some sending) {method : HttpMethod}
    (regular : (ofSend connection method content response).Regular) (rest : Bytes) :
    MiniS3.Net.readResponse method (sending.pending content ++ rest) =
      some ((ofSend connection method content response).read, rest) := by
  rw [pending_eq_wire isOpen idle opens sends method]
  exact regular.readResponse rest

end Sending

/-- An error, the head of an object, its first three bytes, and the answer to its deletion. -/
def fourReplies : List Reply :=
  [⟨.GET, (HttpResponse.ofStatus 404).setJsonBody (ascii "\x7b\x7d"), []⟩,
    ⟨.HEAD, (HttpResponse.ofStatus 200).setHeader (ascii "Content-Length") (ascii "9"), []⟩,
    ⟨.GET, (HttpResponse.ofStatus 206).setHeader (ascii "Content-Length") (ascii "3"),
      ascii "\r\n\r"⟩,
    ⟨.DELETE, HttpResponse.ofStatus 204, []⟩]

/-- A slice of a file that looks like the end of a head is read as it is. -/
theorem responses_are_read_back_four :
    readResponses [.GET, .HEAD, .GET, .DELETE] (fourReplies.flatMap Reply.wire ++ ascii "HTTP") =
      some (fourReplies.map Reply.read, ascii "HTTP") := by
  have plain : ∀ (statusCode : Nat) (digits : Bytes), IsLine digits →
      ((HttpResponse.ofStatus statusCode).setHeader (ascii "Content-Length") digits).Plain :=
    fun statusCode digits isLine =>
      (HttpResponse.plain_ofStatus statusCode).setHeader (by decide) isLine
  have regular : ∀ reply ∈ fourReplies, reply.Regular := by
    simp only [fourReplies, List.forall_mem_cons]
    refine ⟨.text (HttpResponse.isText_setJsonBody (by decide) (by decide)) (by decide),
      .head (plain 200 _ rfl) rfl, .file (plain 206 _ rfl) rfl (by decide) (by decide) ?_,
      .empty (HttpResponse.plain_ofStatus 204) rfl rfl rfl, by simp⟩
    decide
  exact (responses_are_read_back regular (ascii "HTTP")).1

end Reply

end MiniS3.Net
