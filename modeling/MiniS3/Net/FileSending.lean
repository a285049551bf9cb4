import MiniS3.Net.Wire

/-!
# Sending a file

A response with a file is sent in rounds, one for each time the socket is writable: first the
head leaves the output buffer, then `sendfile` moves the file.  A transfer is a sequence of such
rounds, in which `write` and `sendfile` take as much as they like, but take something where
there is something to take.

When the part of the file that a response asks for lies inside the file, every round that does
not block makes progress, so that the transfer ends, and it ends after exactly the bytes that
were pending at its start.  Where it does not, the transfer never ends.
-/

namespace MiniS3.Net.HttpConnection

/-- The part of the file that is still to be sent. -/
def unsent (content : Bytes) (connection : HttpConnection) : Bytes :=
  (content.drop connection.fileOffset).take connection.fileRemaining

/-- What `write` and `sendfile` can return: at most what they were given, and nothing only
where there is nothing. -/
structure Possible (content : Bytes) (outcome : WriteOutcome × WriteOutcome)
    (connection : HttpConnection) : Prop where
  headWorks : outcome.1 ≠ .failed
  fileWorks : outcome.2 ≠ .failed
  head : ∀ length, outcome.1 = .count length → length ≤ connection.outputBuffer.length ∧
    (connection.outputBuffer ≠ [] → 0 < length)
  file : ∀ length, outcome.2 = .count length → length ≤ (connection.unsent content).length ∧
    (connection.unsent content ≠ [] → 0 < length)

/-- Neither call has to wait for the socket. -/
def Ready (outcome : WriteOutcome × WriteOutcome) : Prop :=
  outcome.1 ≠ .again ∧ outcome.2 ≠ .again

/-- The sending of a file: the number of rounds that did not have to wait, the bytes on the
wire, and the connection after them. -/
inductive Transfer (content : Bytes) (start : HttpConnection) :
    Nat → Bytes → HttpConnection → Prop
  | start : Transfer content start 0 [] start
  | round {rounds wire connection} (outcome : WriteOutcome × WriteOutcome) :
      Transfer content start rounds wire connection → connection.state = .SENDING_FILE →
      Possible content outcome connection → Ready outcome →
      Transfer content start (rounds + 1) (wire ++ connection.written content outcome)
        (connection.handleWrite outcome)
  | wait {rounds wire connection} (outcome : WriteOutcome × WriteOutcome) :
      Transfer content start rounds wire connection → connection.state = .SENDING_FILE →
      Possible content outcome connection → ¬Ready outcome →
      Transfer content start rounds (wire ++ connection.written content outcome)
        (connection.handleWrite outcome)

/-- Sending the file ends, and it ends after exactly these bytes. -/
def EndsAfter (content : Bytes) (start : HttpConnection) (bytes : Bytes) : Prop :=
  ∀ rounds wire connection, Transfer content start rounds wire connection →
    rounds ≤ bytes.length + 1 ∧ wire <+: bytes ∧
      (connection.state ≠ .SENDING_FILE → wire = bytes)

/-- What is to be sent lies inside the file. -/
def Inside (content : Bytes) (connection : HttpConnection) : Prop :=
  connection.fileOffset + connection.fileRemaining ≤ content.length

section Rounds

variable {content : Bytes} {connection : HttpConnection} {outcome : WriteOutcome × WriteOutcome}

theorem length_unsent (inside : connection.Inside content) :
    (connection.unsent content).length = connection.fileRemaining := by
  unfold Inside at inside
  simp only [unsent, List.length_take, List.length_drop]
  omega

theorem sendFileInLoop_of_sent (sent : connection.outputBuffer = []) (head body : WriteOutcome) :
    connection.sendFileInLoop head body = connection.sendFileBody body := by
  unfold sendFileInLoop
  rw [if_pos (List.isEmpty_iff.mpr sent)]

theorem sendFileInLoop_of_head (left : connection.outputBuffer ≠ []) (head body : WriteOutcome) :
    connection.sendFileInLoop head body =
      match head with
      | .count length =>
          if (connection.writeOutput (.count length)).outputBuffer.isEmpty then
            (connection.writeOutput (.count length)).sendFileBody body
          else connection.writeOutput (.count length)
      | outcome => connection.writeOutput outcome := by
  have notSent : ¬connection.outputBuffer.isEmpty = true := by simpa using left
  refine (if_neg notSent).trans ?_
  cases head <;> rfl

/-- A response that was sent to its end leaves the sending state with nothing pending. -/
theorem finishResponse_state (connection : HttpConnection) :
    connection.finishResponse.state ≠ .SENDING_FILE := by
  unfold finishResponse
  dsimp only
  split
  · simp
  · rw [handleClose_state]
    simp

/-- The two ends of one round of the file: the response is finished, or `sendfile` took
something. -/
theorem sendFileBody_cases (possible : Possible content outcome connection)
    (inside : connection.Inside content) :
    (connection.fileRemaining = 0 ∧
        connection.sendFileBody outcome.2 = connection.finishResponse) ∨
      outcome.2 = .again ∧ connection.sendFileBody outcome.2 = connection ∨
      ∃ length, outcome.2 = .count length ∧ 0 < length ∧ length ≤ connection.fileRemaining ∧
        connection.sendFileBody outcome.2 = { connection with
          fileOffset := connection.fileOffset + length
          fileRemaining := connection.fileRemaining - length } := by
  unfold sendFileBody
  by_cases finished : connection.fileRemaining = 0
  · rw [if_pos finished]
    exact .inl ⟨finished, rfl⟩
  · rw [if_neg finished]
    have length := length_unsent inside
    cases body : outcome.2 with
    | count taken =>
        obtain ⟨within, some⟩ := possible.file taken body
        have left : connection.unsent content ≠ [] := by
          rw [← List.length_pos_iff]
          omega
        exact .inr (.inr ⟨taken, rfl, some left, by omega, rfl⟩)
    | again => exact .inr (.inl ⟨rfl, rfl⟩)
    | failed => exact absurd body possible.fileWorks

/-- One call of `sendfile` stays inside the file, and makes progress when it need not wait. -/
theorem sendFileBody_spec (possible : Possible content outcome connection)
    (inside : connection.Inside content) (sent : connection.outputBuffer = []) :
    ((connection.sendFileBody outcome.2).state = .SENDING_FILE →
        (connection.sendFileBody outcome.2).Inside content) ∧
      ((connection.sendFileBody outcome.2).state ≠ .SENDING_FILE →
        connection.state = .SENDING_FILE →
        (connection.sendFileBody outcome.2).pending content = []) ∧
      (outcome.2 ≠ .again → (connection.sendFileBody outcome.2).state = .SENDING_FILE →
        connection.takenOfFile content outcome.2 ≠ []) := by
  rcases sendFileBody_cases possible inside with
    ⟨-, finishes⟩ | ⟨again, same⟩ | ⟨length, counted, positive, within, moved⟩
  · rw [finishes]
    have left := finishResponse_state connection
    exact ⟨fun sending => absurd sending left, fun _ _ => pending_finishResponse sent,
      fun _ sending => absurd sending left⟩
  · rw [same]
    exact ⟨fun _ => inside, fun left sending => absurd sending left,
      fun ready => absurd again ready⟩
  · rw [moved]
    refine ⟨fun _ => ?_, fun left sending => absurd sending left, fun _ _ => ?_⟩
    · unfold Inside at inside ⊢
      dsimp only
      omega
    · rw [counted]
      intro nothing
      have empty := congrArg List.length nothing
      have all := length_unsent inside
      unfold unsent at all
      simp only [takenOfFile, List.length_take, List.length_nil] at empty all
      omega

/-- What one round does to a connection that sends a part of a file. -/
structure Rounds (content : Bytes) (outcome : WriteOutcome × WriteOutcome)
    (connection : HttpConnection) : Prop where
  inside : (connection.handleWrite outcome).state = .SENDING_FILE →
    (connection.handleWrite outcome).Inside content
  ends : (connection.handleWrite outcome).state ≠ .SENDING_FILE →
    (connection.handleWrite outcome).pending content = []
  progress : Ready outcome → (connection.handleWrite outcome).state = .SENDING_FILE →
    connection.written content outcome ≠ []

theorem rounds_of_inside (possible : Possible content outcome connection)
    (sending : connection.state = .SENDING_FILE) (inside : connection.Inside content) :
    Rounds content outcome connection := by
  have writes : connection.handleWrite outcome =
      connection.sendFileInLoop outcome.1 outcome.2 := if_pos sending
  by_cases empty : connection.outputBuffer = []
  · have nothing : connection.takenOfBuffer outcome.1 = connection.outputBuffer := by
      cases outcome.1 <;> simp [takenOfBuffer, empty]
    have body : connection.handleWrite outcome = connection.sendFileBody outcome.2 := by
      rw [writes, sendFileInLoop_of_sent empty]
    have wire : connection.written content outcome =
        connection.takenOfFile content outcome.2 := by
      unfold written
      dsimp only
      rw [if_pos ⟨sending, nothing⟩, nothing, empty, List.nil_append]
    obtain ⟨stays, ends, progress⟩ := sendFileBody_spec possible inside empty
    constructor
    · rw [body]
      exact stays
    · rw [body]
      exact fun left => ends left sending
    · rw [body, wire]
      exact fun ready => progress ready.2
  · cases head : outcome.1 with
    | failed => exact absurd head possible.headWorks
    | again =>
        have same : connection.handleWrite outcome = connection := by
          rw [writes, head, sendFileInLoop_of_head empty]
          rfl
        constructor
        · rw [same]
          exact fun _ => inside
        · rw [same]
          exact fun left => absurd sending left
        · exact fun ready => absurd head ready.1
    | count length =>
        obtain ⟨within, some⟩ := possible.head length head
        have positive := some empty
        have taken : connection.takenOfBuffer outcome.1 = connection.outputBuffer.take length := by
          rw [head]
          rfl
        have moved : connection.written content outcome ≠ [] := by
          have nonempty : connection.outputBuffer.take length ≠ [] := by
            rw [Ne, List.take_eq_nil_iff]
            rintro (none | none)
            · omega
            · exact empty none
          unfold written
          dsimp only
          rw [taken]
          split
          · exact fun nothing => nonempty (List.append_eq_nil_iff.mp nothing).1
          · exact nonempty
        have after : connection.handleWrite outcome =
            if (connection.outputBuffer.drop length).isEmpty then
              (connection.writeOutput (.count length)).sendFileBody outcome.2
            else connection.writeOutput (.count length) := by
          rw [writes, head, sendFileInLoop_of_head empty]
          rfl
        by_cases whole : connection.outputBuffer.drop length = []
        · have body : connection.handleWrite outcome =
              (connection.writeOutput (.count length)).sendFileBody outcome.2 := by
            rw [after, if_pos (List.isEmpty_iff.mpr whole)]
          have laterPossible : Possible content (.count 0, outcome.2)
              (connection.writeOutput (.count length)) := by
            refine ⟨by simp, possible.fileWorks, ?_, possible.file⟩
            rintro none ⟨⟩
            exact ⟨Nat.zero_le _, fun left => absurd whole left⟩
          obtain ⟨stays, ends, -⟩ := sendFileBody_spec laterPossible
            (show (connection.writeOutput (.count length)).Inside content from inside) whole
          constructor
          · rw [body]
            exact stays
          · rw [body]
            exact fun left => ends left sending
          · exact fun _ _ => moved
        · have part : connection.handleWrite outcome = connection.writeOutput (.count length) := by
            rw [after, if_neg (by simpa using whole)]
          constructor
          · rw [part]
            exact fun _ => inside
          · rw [part]
            exact fun left => absurd sending left
          · exact fun _ _ => moved

end Rounds

/-! ## Whole transfers -/

section Transfers

variable {content : Bytes} {start connection : HttpConnection} {rounds : Nat} {wire : Bytes}

/-- What holds in every state of a transfer. -/
structure Progress (content : Bytes) (start : HttpConnection) (rounds : Nat) (wire : Bytes)
    (connection : HttpConnection) : Prop where
  split : wire ++ connection.pending content = start.pending content
  inside : connection.state = .SENDING_FILE → connection.Inside content
  ends : connection.state ≠ .SENDING_FILE → connection.pending content = []
  bound : rounds ≤ wire.length ∨ connection.state ≠ .SENDING_FILE ∧ rounds ≤ wire.length + 1

/-- One more round of a transfer. -/
theorem Progress.handleWrite (progress : Progress content start rounds wire connection)
    (sending : connection.state = .SENDING_FILE) {outcome : WriteOutcome × WriteOutcome}
    (possible : Possible content outcome connection) {counted : Nat}
    (isCounted : counted = rounds ∨ Ready outcome ∧ counted = rounds + 1) :
    Progress content start counted (wire ++ connection.written content outcome)
      (connection.handleWrite outcome) := by
  have round := rounds_of_inside possible sending (progress.inside sending)
  have before : rounds ≤ wire.length := by
    rcases progress.bound with within | ⟨left, -⟩
    · exact within
    · exact absurd sending left
  refine ⟨?_, round.inside, round.ends, ?_⟩
  · rw [List.append_assoc, ← pending_handleWrite possible.headWorks possible.fileWorks]
    exact progress.split
  · rw [List.length_append]
    rcases isCounted with rfl | ⟨ready, rfl⟩
    · exact .inl (by omega)
    · by_cases stays : (connection.handleWrite outcome).state = .SENDING_FILE
      · have moved := List.length_pos_iff.mpr (round.progress ready stays)
        exact .inl (by omega)
      · exact .inr ⟨stays, by omega⟩

theorem Transfer.progress (transfer : Transfer content start rounds wire connection)
    (sending : start.state = .SENDING_FILE) (inside : start.Inside content) :
    Progress content start rounds wire connection := by
  induction transfer with
  | start =>
      exact ⟨rfl, fun _ => inside, fun left => absurd sending left, .inl (Nat.zero_le _)⟩
  | round outcome _ stays possible ready inductionHypothesis =>
      exact inductionHypothesis.handleWrite stays possible (.inr ⟨ready, rfl⟩)
  | wait outcome _ stays possible _ inductionHypothesis =>
      exact inductionHypothesis.handleWrite stays possible (.inl rfl)

/-- The transfer of a part that lies inside the file ends after the bytes that are pending. -/
theorem endsAfter_of_inside (sending : start.state = .SENDING_FILE)
    (inside : start.Inside content) : EndsAfter content start (start.pending content) := by
  intro rounds wire connection transfer
  have progress := transfer.progress sending inside
  have front : wire <+: start.pending content := ⟨_, progress.split⟩
  refine ⟨?_, front, fun left => ?_⟩
  · have length := front.length_le
    rcases progress.bound with within | ⟨-, within⟩ <;> omega
  · have split := progress.split
    rwa [progress.ends left, List.append_nil] at split

/-- At the end of the file, `sendfile` has nothing to take, and a connection that still waits
for bytes of the file stays as it is. -/
theorem handleWrite_at_end {outcome : WriteOutcome × WriteOutcome}
    (sending : connection.state = .SENDING_FILE) (sent : connection.outputBuffer = [])
    (waits : connection.fileRemaining ≠ 0) (atEnd : content.length ≤ connection.fileOffset)
    (possible : Possible content outcome connection) :
    connection.handleWrite outcome = connection := by
  have nothing : connection.unsent content = [] := by
    rw [unsent, List.drop_of_length_le atEnd, List.take_nil]
  have same : connection.sendFileBody outcome.2 = connection := by
    unfold sendFileBody
    rw [if_neg waits]
    cases body : outcome.2 with
    | count length =>
        have none := (possible.file length body).1
        rw [nothing, List.length_nil, Nat.le_zero] at none
        rw [none]
        rfl
    | again => rfl
    | failed => exact absurd body possible.fileWorks
  rw [HttpConnection.handleWrite, if_pos sending, sendFileInLoop_of_sent sent, same]

end Transfers

end MiniS3.Net.HttpConnection
