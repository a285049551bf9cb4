import MiniS3.Lib.Transition
import MiniS3.Net.Link

/-!
# A connection that is closed

One notification of `epoll` can run the close, error, read and write callbacks of a channel,
one after the other.  The first that closes the connection takes the channel out of `epoll`
and calls the close callback of the server.  The write callback does not look whether that
has happened: with nothing left to write it goes on to the next request, and updating the
channel puts it back into `epoll`.
-/

namespace MiniS3.Net

open Lib.Transition

/-- A read that closes the connection. -/
def ReadOutcome.closes : ReadOutcome → Bool
  | .closed => true
  | .failed => true
  | _ => false

/-- A callback that comes before the write callback closes the connection. -/
def Event.closes (event : Event) : Bool :=
  event.hangup || event.error || event.readable.any ReadOutcome.closes

namespace HttpConnection

/-- What the event loop does with a connection: a notification of `epoll`, in any
combination; a `ForceClose`, which the idle timer or the server queues; and the functors
that are queued. -/
inductive ChannelAction
  | notify (event : Event)
  | forceClose
  | functors

/-- `DoPendingFunctors`, after which the queue is empty. -/
def runFunctors (connection : HttpConnection) : HttpConnection :=
  { connection.doPendingFunctors with closing := false }

/-- One action; it is not enabled where the source lets an exception escape. -/
def perform (library : JsonLibrary) : Step HttpConnection ChannelAction
  | connection, .notify event =>
      (connection.beforeWrite library event).map fun result => result.1.handleWritable event
  | connection, .forceClose => some { connection with closing := true }
  | connection, .functors => some connection.runFunctors

/-- The write callback finds the connection closed, and nothing to write. -/
def reopens (connection : HttpConnection) : ChannelAction → Bool
  | .notify event =>
      event.writable.isSome && connection.outputBuffer.isEmpty &&
        (decide (connection.state = .CLOSED) || event.closes)
  | _ => false

/-- The connection was not closed so far. -/
structure Open (connection : HttpConnection) : Prop where
  state : connection.state ≠ .CLOSED
  closeCalls : connection.closeCalls = 0
  reading : connection.reading = true
  registered : connection.registered = true

/-- The connection was closed, once. -/
structure Shut (connection : HttpConnection) : Prop where
  state : connection.state = .CLOSED
  closeCalls : connection.closeCalls = 1
  registered : connection.registered = false

theorem open_initial (peerAddr : Bytes) (maxBodyBytes : Nat) :
    (initial peerAddr maxBodyBytes).Open :=
  ⟨by simp [initial], rfl, rfl, rfl⟩

/-! ## The callbacks of an open connection -/

section Callbacks

variable {library : JsonLibrary} {connection after : HttpConnection}

theorem Open.handleClose (isOpen : connection.Open) : connection.handleClose.Shut := by
  rcases connection.handleClose_cases with ⟨closed, -⟩ | closes
  · exact absurd closed isOpen.state
  · rw [closes]
    constructor
    · rfl
    · simp [isOpen.closeCalls]
    · simp [isOpen.registered]

theorem Shut.handleClose (shut : connection.Shut) : connection.handleClose = connection :=
  if_pos shut.state

theorem Open.startWriting (isOpen : connection.Open) {state : ConnectionState}
    (different : state ≠ .CLOSED) : (connection.startWriting state).Open := by
  constructor
  · exact different
  · exact isOpen.closeCalls
  · exact isOpen.reading
  · simp [HttpConnection.startWriting, updateChannel]

theorem Open.send {file : OpenOutcome} {response : HttpResponse} (isOpen : connection.Open)
    (sent : send library file response connection = some after) : after.Open := by
  have ready : ∀ buffer offset remaining, ({ connection.record (.response connection.hasUnsent) with
      outputBuffer := buffer, fileOffset := offset, fileRemaining := remaining }).Open :=
    fun _ _ _ => ⟨isOpen.state, isOpen.closeCalls, isOpen.reading, isOpen.registered⟩
  unfold HttpConnection.send at sent
  rw [if_neg isOpen.state] at sent
  split at sent
  · cases file with
    | opened =>
        cases sent
        exact (ready _ _ _).startWriting (by simp)
    | missing | failed =>
        rcases Option.map_eq_some_iff.mp sent with ⟨error, -, rfl⟩
        exact (ready _ _ _).startWriting (by simp)
  · cases sent
    exact (ready _ _ _).startWriting (by simp)

theorem Open.deliver {callbacks : Callbacks} {delivered : Option HttpRequest}
    (isOpen : connection.Open)
    (performed : deliver library callbacks connection = some (after, delivered)) :
    after.Open := by
  rcases Option.map_eq_some_iff.mp performed with ⟨sentTo, sent, equal⟩
  cases equal
  refine Open.send ?_ sent
  exact ⟨isOpen.state, isOpen.closeCalls, isOpen.reading, isOpen.registered⟩

theorem Open.bodyData {callbacks : Callbacks} {data : Bytes} (isOpen : connection.Open)
    (performed : bodyData library callbacks data connection = some after) : after.Open := by
  unfold HttpConnection.bodyData at performed
  split at performed
  · cases performed
    exact ⟨isOpen.state, isOpen.closeCalls, isOpen.reading, isOpen.registered⟩
  · cases performed
    exact ⟨isOpen.state, isOpen.closeCalls, isOpen.reading, isOpen.registered⟩
  · rcases Option.map_eq_some_iff.mp performed with ⟨sentTo, sent, rfl⟩
    have ready : ((connection.call (.bodyData data)).record .failed).Open :=
      ⟨isOpen.state, isOpen.closeCalls, isOpen.reading, isOpen.registered⟩
    have answered := ready.send sent
    exact ⟨answered.state, answered.closeCalls, answered.reading, answered.registered⟩

theorem Open.processBody {callbacks : Callbacks} {delivered : Option HttpRequest}
    (isOpen : connection.Open)
    (performed : processBody library callbacks connection = some (after, delivered)) :
    after.Open := by
  rcases Option.bind_eq_some_iff.mp performed with ⟨passed, bodyPassed, performed⟩
  have still := isOpen.bodyData bodyPassed
  dsimp only at performed
  split at performed
  · refine Open.deliver ?_ performed
    exact ⟨still.state, still.closeCalls, still.reading, still.registered⟩
  · cases performed
    exact ⟨still.state, still.closeCalls, still.reading, still.registered⟩

theorem Open.processHeaders {callbacks : Callbacks} {delivered : Option HttpRequest}
    (isOpen : connection.Open)
    (performed : processHeaders library callbacks connection = some (after, delivered)) :
    after.Open := by
  unfold HttpConnection.processHeaders at performed
  rcases parsed : connection.parser.parse connection.inputBuffer with ⟨result, parser, buffer⟩
  rw [parsed] at performed
  have ready : ∀ parser buffer log, ({ connection with
      parser := parser, inputBuffer := buffer, log := log }).Open :=
    fun _ _ _ => ⟨isOpen.state, isOpen.closeCalls, isOpen.reading, isOpen.registered⟩
  cases result with
  | NEED_MORE_DATA =>
      cases performed
      exact ready parser buffer connection.log
  | HEADERS_COMPLETE =>
      dsimp only at performed
      split at performed
      · rcases Option.bind_eq_some_iff.mp performed with ⟨response, -, performed⟩
        rcases Option.map_eq_some_iff.mp performed with ⟨sentTo, sent, equal⟩
        cases equal
        exact (ready _ _ _).send sent
      · have streaming : ({ connection with
            parser := parser, inputBuffer := buffer, state := .READING_BODY_STREAM }).Open :=
          ⟨by simp, isOpen.closeCalls, isOpen.reading, isOpen.registered⟩
        split at performed
        · cases performed
          exact streaming
        · exact streaming.processBody performed
  | BODY_DATA =>
      cases performed
      exact ready parser buffer connection.log
  | MESSAGE_COMPLETE => exact (ready parser buffer connection.log).deliver performed
  | ERROR =>
      rcases Option.bind_eq_some_iff.mp performed with ⟨response, -, performed⟩
      rcases Option.map_eq_some_iff.mp performed with ⟨sentTo, sent, equal⟩
      cases equal
      exact (ready _ _ _).send sent

/-- A read closes an open connection when it comes to the end of the stream, or fails. -/
theorem Open.handleRead {callbacks : Callbacks} {outcome : ReadOutcome}
    {delivered : Option HttpRequest} (isOpen : connection.Open)
    (performed : handleRead library callbacks outcome connection = some (after, delivered)) :
    if outcome.closes then after = connection.handleClose else after.Open := by
  cases outcome with
  | bytes data =>
      have ready : ({ connection with inputBuffer := connection.inputBuffer ++ data }).Open :=
        ⟨isOpen.state, isOpen.closeCalls, isOpen.reading, isOpen.registered⟩
      change after.Open
      simp only [HttpConnection.handleRead] at performed
      split at performed
      · exact ready.processHeaders performed
      · exact ready.processBody performed
      · cases performed
        exact ready
  | closed | failed =>
      cases performed
      rfl
  | again =>
      cases performed
      exact isOpen

theorem Shut.handleRead {callbacks : Callbacks} {outcome : ReadOutcome}
    {delivered : Option HttpRequest} (shut : connection.Shut)
    (performed : handleRead library callbacks outcome connection = some (after, delivered)) :
    after.Shut ∧ after.outputBuffer = connection.outputBuffer := by
  cases outcome with
  | bytes data =>
      simp only [HttpConnection.handleRead, shut.state] at performed
      cases performed
      exact ⟨⟨rfl, shut.closeCalls, shut.registered⟩, rfl⟩
  | closed | failed =>
      simp only [HttpConnection.handleRead, handleError, shut.handleClose] at performed
      cases performed
      exact ⟨shut, rfl⟩
  | again =>
      cases performed
      exact ⟨shut, rfl⟩

theorem Open.finishResponse (isOpen : connection.Open) :
    connection.finishResponse.Open ∨ connection.finishResponse.Shut := by
  have updated : ({ connection with writing := false }.updateChannel).Open := by
    constructor
    · exact isOpen.state
    · exact isOpen.closeCalls
    · exact isOpen.reading
    · simp [updateChannel, isOpen.reading]
  unfold HttpConnection.finishResponse
  dsimp only
  split
  · exact .inl ⟨by simp, updated.closeCalls, updated.reading, updated.registered⟩
  · exact .inr updated.handleClose

theorem Open.handleWrite (isOpen : connection.Open) (outcome : WriteOutcome × WriteOutcome) :
    (connection.handleWrite outcome).Open ∨ (connection.handleWrite outcome).Shut := by
  refine handleWrite_rule Open (fun after => after.Open ∨ after.Shut) ?_ ?_ ?_ ?_ ?_ isOpen outcome
  · intro before _ isOpen
    exact ⟨isOpen.state, isOpen.closeCalls, isOpen.reading, isOpen.registered⟩
  · intro before _ _ isOpen _
    exact ⟨isOpen.state, isOpen.closeCalls, isOpen.reading, isOpen.registered⟩
  · intro before isOpen
    exact .inl isOpen
  · intro before isOpen
    exact .inr isOpen.handleClose
  · intro before isOpen _ _
    exact isOpen.finishResponse

/-- A closed connection that has something to write stays closed. -/
theorem Shut.handleWrite (shut : connection.Shut) (outcome : WriteOutcome × WriteOutcome)
    (unsent : connection.outputBuffer ≠ []) : (connection.handleWrite outcome).Shut := by
  have nonempty : connection.outputBuffer.isEmpty = false := by
    simpa [List.isEmpty_eq_false_iff] using unsent
  simp only [HttpConnection.handleWrite, shut.state, reduceCtorEq, if_false, sendInLoop, nonempty,
    Bool.false_eq_true]
  cases outcome.1 with
  | count length => exact ⟨shut.state, shut.closeCalls, shut.registered⟩
  | again => exact shut
  | failed =>
      change connection.handleClose.Shut
      rw [shut.handleClose]
      exact shut

/-- One with nothing to write goes back into `epoll`. -/
theorem Shut.handleWrite_reopens (shut : connection.Shut) (outcome : WriteOutcome × WriteOutcome)
    (nothing : connection.outputBuffer = []) :
    (connection.handleWrite outcome).closeCalls = 1 ∧
      (connection.handleWrite outcome).registered = true := by
  simp only [HttpConnection.handleWrite, shut.state, reduceCtorEq, if_false, sendInLoop, nothing,
    List.isEmpty_nil, if_true, HttpConnection.finishResponse]
  split
  · exact ⟨shut.closeCalls, by simp [updateChannel, shut.registered]⟩
  · simp [HttpConnection.handleClose, updateChannel, shut.registered, shut.closeCalls]

/-- Closing changes nothing that is to be written. -/
theorem outputBuffer_handleClose : connection.handleClose.outputBuffer = connection.outputBuffer := by
  rcases connection.handleClose_cases with ⟨-, unchanged⟩ | closes
  · rw [unchanged]
  · rw [closes]

/-- The close and error callbacks of an open connection. -/
theorem Open.handleFailures (isOpen : connection.Open) (event : Event) :
    if event.hangup || event.error then
      (connection.handleFailures event).Shut ∧
        (connection.handleFailures event).outputBuffer = connection.outputBuffer
    else connection.handleFailures event = connection := by
  unfold HttpConnection.handleFailures handleError
  cases hangup : event.hangup with
  | true =>
      cases error : event.error with
      | true =>
          simp only [Bool.or_self, if_true, isOpen.handleClose.handleClose]
          exact ⟨isOpen.handleClose, outputBuffer_handleClose⟩
      | false => exact ⟨isOpen.handleClose, outputBuffer_handleClose⟩
  | false =>
      cases error : event.error with
      | true => exact ⟨isOpen.handleClose, outputBuffer_handleClose⟩
      | false => rfl

theorem Shut.handleFailures (shut : connection.Shut) (event : Event) :
    connection.handleFailures event = connection := by
  unfold HttpConnection.handleFailures handleError
  dsimp only
  rw [shut.handleClose, ite_self, shut.handleClose, ite_self]

theorem Shut.beforeWrite {event : Event} {delivered : Option HttpRequest}
    (shut : connection.Shut)
    (performed : beforeWrite library event connection = some (after, delivered)) :
    after.Shut ∧ after.outputBuffer = connection.outputBuffer := by
  unfold HttpConnection.beforeWrite at performed
  dsimp only at performed
  rw [shut.handleFailures] at performed
  split at performed
  · exact shut.handleRead performed
  · cases performed
    exact ⟨shut, rfl⟩

/-- Which notifications close an open connection before the write callback. -/
theorem Open.beforeWrite {event : Event} {delivered : Option HttpRequest}
    (isOpen : connection.Open)
    (performed : beforeWrite library event connection = some (after, delivered)) :
    if event.closes then after.Shut ∧ after.outputBuffer = connection.outputBuffer
    else after.Open := by
  unfold HttpConnection.beforeWrite at performed
  dsimp only at performed
  have failures := isOpen.handleFailures event
  cases failed : event.hangup || event.error with
  | true =>
      rw [failed, if_pos rfl] at failures
      rw [Event.closes, failed, Bool.true_or, if_pos rfl]
      split at performed
      · rcases failures.1.handleRead performed with ⟨shut, same⟩
        exact ⟨shut, same.trans failures.2⟩
      · cases performed
        exact failures
  | false =>
      rw [failed, if_neg Bool.false_ne_true] at failures
      rw [failures] at performed
      rw [Event.closes, failed, Bool.false_or]
      split at performed
      · rename_i outcome readable
        rw [readable, Option.any_some]
        have read := isOpen.handleRead performed
        split at read
        · rename_i closes
          rw [read, if_pos closes]
          exact ⟨isOpen.handleClose, outputBuffer_handleClose⟩
        · rename_i stays
          rw [if_neg stays]
          exact read
      · rename_i unreadable
        cases performed
        rw [unreadable, Option.any_none, if_neg Bool.false_ne_true]
        exact isOpen

end Callbacks

/-! ## Steps and runs -/

/-- A closed connection is closed once, and its channel is not in `epoll`. -/
def ClosedOnce (connection : HttpConnection) : Prop :=
  connection.Open ∨ connection.Shut

variable {library : JsonLibrary} {connection after : HttpConnection}

/-- Every action but one keeps a closed connection closed. -/
theorem ClosedOnce.kept {action : ChannelAction} (closedOnce : connection.ClosedOnce)
    (step : perform library connection action = some after)
    (allowed : connection.reopens action = false) : after.ClosedOnce := by
  cases action with
  | notify event =>
      rcases Option.map_eq_some_iff.mp step with ⟨⟨middle, delivered⟩, performed, rfl⟩
      change (middle.handleWritable event).ClosedOnce
      have unsent : ∀ outcome, event.writable = some outcome →
          connection.state = .CLOSED ∨ event.closes = true → connection.outputBuffer ≠ [] := by
        intro outcome writable closed nothing
        have reopened : connection.reopens (.notify event) = true := by
          rcases closed with state | closes
          · simp [reopens, writable, nothing, state]
          · simp [reopens, writable, nothing, closes]
        rw [reopened] at allowed
        cases allowed
      unfold handleWritable
      rcases closedOnce with isOpen | shut
      · have before := isOpen.beforeWrite performed
        cases closes : event.closes with
        | true =>
            rw [closes, if_pos rfl] at before
            split
            · rename_i outcome writable
              refine .inr (before.1.handleWrite outcome ?_)
              exact before.2 ▸ unsent outcome writable (.inr closes)
            · exact .inr before.1
        | false =>
            rw [closes, if_neg Bool.false_ne_true] at before
            split
            · exact before.handleWrite _
            · exact .inl before
      · have before := shut.beforeWrite performed
        split
        · rename_i outcome writable
          refine .inr (before.1.handleWrite outcome ?_)
          exact before.2 ▸ unsent outcome writable (.inl shut.state)
        · exact .inr before.1
  | forceClose =>
      cases step
      rcases closedOnce with isOpen | shut
      · exact .inl ⟨isOpen.state, isOpen.closeCalls, isOpen.reading, isOpen.registered⟩
      · exact .inr ⟨shut.state, shut.closeCalls, shut.registered⟩
  | functors =>
      cases step
      have closed : connection.doPendingFunctors.ClosedOnce := by
        unfold doPendingFunctors
        split
        · rcases closedOnce with isOpen | shut
          · exact .inr isOpen.handleClose
          · exact .inr (shut.handleClose.symm ▸ shut)
        · exact closedOnce
      rcases closed with isOpen | shut
      · exact .inl ⟨isOpen.state, isOpen.closeCalls, isOpen.reading, isOpen.registered⟩
      · exact .inr ⟨shut.state, shut.closeCalls, shut.registered⟩

/-- That action calls the close callback, or had called it, and puts the channel back. -/
theorem ClosedOnce.reopened {action : ChannelAction} (closedOnce : connection.ClosedOnce)
    (step : perform library connection action = some after)
    (reopens : connection.reopens action = true) :
    after.closeCalls = 1 ∧ after.registered = true := by
  cases action with
  | notify event =>
      rcases Option.map_eq_some_iff.mp step with ⟨⟨middle, delivered⟩, performed, rfl⟩
      change (middle.handleWritable event).closeCalls = 1 ∧
        (middle.handleWritable event).registered = true
      simp only [HttpConnection.reopens, Bool.and_eq_true, Bool.or_eq_true, decide_eq_true_eq,
        List.isEmpty_iff] at reopens
      rcases reopens with ⟨⟨writable, nothing⟩, closed⟩
      rcases Option.isSome_iff_exists.mp writable with ⟨outcome, writable⟩
      have before : middle.Shut ∧ middle.outputBuffer = connection.outputBuffer := by
        rcases closedOnce with isOpen | shut
        · have closes := closed.resolve_left isOpen.state
          have before := isOpen.beforeWrite performed
          rwa [closes, if_pos rfl] at before
        · exact shut.beforeWrite performed
      simp only [handleWritable, writable]
      exact before.1.handleWrite_reopens outcome (before.2.trans nothing)
  | forceClose => cases reopens
  | functors => cases reopens

/-- The connection was not closed, or it is closed, the close callback was called once, and the
channel is not in `epoll`. -/
def StaysClosed (connection : HttpConnection) : Prop :=
  (connection.state ≠ .CLOSED ∧ connection.closeCalls = 0) ∨
    (connection.state = .CLOSED ∧ connection.closeCalls = 1 ∧ connection.registered = false)

instance (connection : HttpConnection) : Decidable connection.StaysClosed :=
  inferInstanceAs (Decidable (_ ∨ _))

theorem ClosedOnce.staysClosed (closedOnce : connection.ClosedOnce) : connection.StaysClosed := by
  rcases closedOnce with isOpen | shut
  · exact .inl ⟨isOpen.state, isOpen.closeCalls⟩
  · exact .inr ⟨shut.state, shut.closeCalls, shut.registered⟩

/-- A closed connection stays closed throughout a run exactly if no notification of the run
finds it, or makes it, closed and runs the write callback with nothing to write. -/
theorem stays_closed_iff {peerAddr : Bytes} {maxBodyBytes : Nat} {target : HttpConnection}
    {actions : List ChannelAction}
    (performed : run (perform library) (initial peerAddr maxBodyBytes) actions = some target) :
    (∀ state, Visits (perform library) (initial peerAddr maxBodyBytes) actions state →
      state.StaysClosed) ↔
    ∀ state action, Takes (perform library) (initial peerAddr maxBodyBytes) actions state action →
      state.reopens action = false := by
  refine good_iff_avoids performed ClosedOnce StaysClosed reopens (.inl (open_initial _ _))
    ?_ ?_ ?_
  · intro state closedOnce
    exact closedOnce.staysClosed
  · intro state action after closedOnce step avoided
    exact closedOnce.kept step avoided
  · intro state action after closedOnce step reopens
    rcases closedOnce.reopened step reopens with ⟨called, registered⟩
    rintro (⟨-, none⟩ | ⟨-, -, gone⟩)
    · rw [called] at none
      cases none
    · rw [registered] at gone
      cases gone

/-- The peer resets the connection, and the write callback is due. -/
def resetEvent : Event where
  hangup := true
  error := false
  readable := none
  writable := some (.again, .again)
  callbacks := Link.okCallbacks

/-- Where the response has not left yet, the reset is the end. -/
theorem stays_closed_sample :
    ∃ target, run (perform Link.silentJson) (initial [] 0)
        [.notify (Link.readEvent Link.healthCheck.bytes), .forceClose, .notify resetEvent,
          .functors] = some target ∧
      ∀ state, Visits (perform Link.silentJson) (initial [] 0)
        [.notify (Link.readEvent Link.healthCheck.bytes), .forceClose, .notify resetEvent,
          .functors] state → state.StaysClosed := by
  have performed : (run (fun state action =>
      if !reopens state action then perform Link.silentJson state action else none)
      (initial [] 0) [.notify (Link.readEvent Link.healthCheck.bytes), .forceClose,
        .notify resetEvent, .functors]).isSome = true := by
    decide +kernel
  rcases Option.isSome_iff_exists.mp performed with ⟨target, checked⟩
  rcases run_checked checked with ⟨whole, passed⟩
  refine ⟨target, whole, (stays_closed_iff whole).mpr ?_⟩
  intro state action taken
  simpa using passed state action taken

/-- After the response has left, a reset is followed by a second close. -/
theorem closed_connection_reopens :
    ¬ ∀ (library : JsonLibrary) (peerAddr : Bytes) (maxBodyBytes : Nat)
        (actions : List ChannelAction) (target : HttpConnection),
      run (perform library) (initial peerAddr maxBodyBytes) actions = some target →
        ∀ state, Visits (perform library) (initial peerAddr maxBodyBytes) actions state →
          state.StaysClosed := by
  intro stays
  have twice : (run (perform Link.silentJson) (initial [] 0)
      [.notify (Link.readEvent Link.healthCheck.bytes), .notify (Link.writeEvent 1000),
        .forceClose, .notify resetEvent, .functors]).any (·.closeCalls == 2) = true := by
    decide +kernel
  rcases (Option.any_eq_true _ _).mp twice with ⟨target, performed, calls⟩
  rw [beq_iff_eq] at calls
  rcases stays _ _ _ _ target performed target ⟨_, List.prefix_refl _, performed⟩ with
    ⟨-, none⟩ | ⟨-, one, -⟩
  · rw [calls] at none
    cases none
  · rw [calls] at one
    cases one

end HttpConnection

end MiniS3.Net
