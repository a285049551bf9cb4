import Mathlib.Data.List.Induction
import Mathlib.Data.Nat.ModEq
import MiniS3.Net.TimerWheel

/-!
# The idle timeout

A connection has a timer in the wheel of its event loop, whose callback queues a close.
Reading from the socket starts the timer again.  Writing to it does not, so a response that
takes longer than the timeout is cut off while its bytes still leave.

A run is what one connection and the other users of the wheel do between the ticks.
-/

namespace MiniS3.Net

open Lib
open TimerWheel (Operation)

/-- The fields of `HttpConnection` for the idle timeout, with the wheel of its loop. -/
structure IdleConnection where
  wheel : TimerWheel
  idleTimerId : Nat
  idleTimeout : Int

namespace IdleConnection

/-- `SetIdleTimeout`. -/
def setIdleTimeout (seconds : Int) (connection : IdleConnection) : IdleConnection :=
  let wheel :=
    if connection.idleTimerId ≠ 0 then connection.wheel.cancelTimer connection.idleTimerId
    else connection.wheel
  let timer := wheel.addTimer seconds false
  { wheel := timer.2, idleTimerId := timer.1, idleTimeout := seconds }

/-- `Start` of a new connection. -/
def start (idleTimeout : Int) (wheel : TimerWheel) : IdleConnection :=
  setIdleTimeout idleTimeout ⟨wheel, 0, idleTimeout⟩

/-- `RefreshIdleTimer`. -/
def refreshIdleTimer (connection : IdleConnection) : IdleConnection :=
  if connection.idleTimerId ≠ 0 then
    { connection with
      wheel := connection.wheel.refreshTimer connection.idleTimerId connection.idleTimeout }
  else connection

/-- `HandleRead` refreshes the timer before it reads the socket. -/
def handleRead (connection : IdleConnection) : IdleConnection :=
  connection.refreshIdleTimer

/-- `HandleWrite`: neither `SendInLoop` nor `SendFileInLoop` comes to the timer. -/
def handleWrite (connection : IdleConnection) : IdleConnection :=
  connection

/-- `HandleClose` of a connection that is not closed. -/
def handleClose (connection : IdleConnection) : IdleConnection :=
  if connection.idleTimerId ≠ 0 then
    { connection with
      wheel := connection.wheel.cancelTimer connection.idleTimerId
      idleTimerId := 0 }
  else connection

/-- What happens to the connection and its wheel: bytes are read, bytes are written by `write`
or `sendfile`, the connection is closed, the wheel ticks, or another timer is used. -/
inductive Action
  | tick
  | read
  | written
  | close
  | other (operation : Operation)

def perform (connection : IdleConnection) : Action → IdleConnection
  | .tick => { connection with wheel := connection.wheel.tick.2 }
  | .read => connection.handleRead
  | .written => connection.handleWrite
  | .close => connection.handleClose
  | .other operation => { connection with wheel := operation.apply connection.wheel }

def run (connection : IdleConnection) (actions : List Action) : IdleConnection :=
  actions.foldl perform connection

@[simp]
theorem run_append_singleton (connection : IdleConnection) (actions : List Action)
    (action : Action) :
    connection.run (actions ++ [action]) = (connection.run actions).perform action := by
  simp [run]

namespace Action

def isRead : Action → Bool
  | read => true
  | _ => false

/-- Bytes went in one of the two directions. -/
def isTransfer : Action → Bool
  | read => true
  | written => true
  | _ => false

/-- How many ticks there were since the last action of a kind, or since the start. -/
def ticksSince (kind : Action → Bool) (actions : List Action) : Nat :=
  actions.foldl (fun ticks action =>
    if kind action then 0
    else match action with
      | tick => ticks + 1
      | _ => ticks) 0

@[simp]
theorem ticksSince_nil (kind : Action → Bool) : ticksSince kind [] = 0 :=
  rfl

@[simp]
theorem ticksSince_append_singleton (kind : Action → Bool) (actions : List Action)
    (action : Action) : ticksSince kind (actions ++ [action]) =
      if kind action then 0
      else match action with
        | tick => ticksSince kind actions + 1
        | _ => ticksSince kind actions := by
  simp [ticksSince]

/-- The silence is over: the connection was closed, or a tick came after which nothing had been
read in that many ticks. -/
def Over (timeout : Nat) (actions : List Action) : Prop :=
  close ∈ actions ∨
    ∃ before, before ++ [tick] <+: actions ∧ ticksSince isRead before + 1 = timeout

theorem not_over_nil (timeout : Nat) : ¬ Over timeout [] := by
  simp [Over]

theorem over_append_singleton {timeout : Nat} {actions : List Action} {action : Action} :
    Over timeout (actions ++ [action]) ↔ Over timeout actions ∨ action = close ∨
      (action = tick ∧ ticksSince isRead actions + 1 = timeout) := by
  simp only [Over, List.prefix_concat_iff, List.mem_append, List.mem_singleton]
  constructor
  · rintro ((closed | closed) | ⟨before, same | part, silent⟩)
    · exact .inl (.inl closed)
    · exact .inr (.inl closed.symm)
    · rcases List.append_inj' same rfl with ⟨rfl, last⟩
      exact .inr (.inr ⟨(List.singleton_inj.mp last).symm, silent⟩)
    · exact .inl (.inr ⟨before, part, silent⟩)
  · rintro ((closed | ⟨before, part, silent⟩) | closed | ⟨rfl, silent⟩)
    · exact .inl (.inl closed)
    · exact .inr ⟨before, .inr part, silent⟩
    · exact .inl (.inr closed.symm)
    · exact .inr ⟨actions, .inl rfl, silent⟩

/-- Something was written after the first tick of the silence. -/
def WrittenLate (actions : List Action) : Prop :=
  ∃ early late, actions = early ++ written :: late ∧ read ∉ late ∧ 0 < ticksSince isRead early

theorem ticksSince_isTransfer_le (actions : List Action) :
    ticksSince isTransfer actions ≤ ticksSince isRead actions := by
  induction actions using List.reverseRecOn with
  | nil => exact le_rfl
  | append_singleton actions action inductionHypothesis =>
      cases action <;>
        simp only [ticksSince_append_singleton, isRead, isTransfer] <;> grind

theorem writtenLate_append_singleton {actions : List Action} {action : Action} :
    WrittenLate (actions ++ [action]) ↔ (WrittenLate actions ∧ action ≠ read) ∨
      (action = written ∧ 0 < ticksSince isRead actions) := by
  constructor
  · rintro ⟨early, late, same, unread, silent⟩
    rcases List.eq_nil_or_concat late with rfl | ⟨rest, last, rfl⟩
    · rcases List.append_inj' same rfl with ⟨rfl, own⟩
      exact .inr ⟨List.singleton_inj.mp own, silent⟩
    · rw [List.concat_eq_append, ← List.cons_append, ← List.append_assoc] at same
      rcases List.append_inj' same rfl with ⟨rfl, own⟩
      cases List.singleton_inj.mp own
      rw [List.concat_eq_append, List.mem_append, not_or, List.mem_singleton] at unread
      exact .inl ⟨⟨early, rest, rfl, unread.1, silent⟩, Ne.symm unread.2⟩
  · rintro (⟨⟨early, late, rfl, unread, silent⟩, other⟩ | ⟨rfl, silent⟩)
    · refine ⟨early, late ++ [action], by simp, ?_, silent⟩
      simp [unread, Ne.symm other]
    · exact ⟨actions, [], rfl, List.not_mem_nil, silent⟩

/-- That is when the last transfer is less long ago than the last read. -/
theorem writtenLate_iff (actions : List Action) :
    WrittenLate actions ↔ ticksSince isTransfer actions < ticksSince isRead actions := by
  induction actions using List.reverseRecOn with
  | nil => simp [WrittenLate]
  | append_singleton actions action inductionHypothesis =>
      rw [writtenLate_append_singleton, inductionHypothesis]
      have least := ticksSince_isTransfer_le actions
      cases action <;>
        simp only [ticksSince_append_singleton, isRead, isTransfer] <;> grind

end Action

open Action

/-! ## The timer during a run -/

/-- The timer waits, with this many ticks gone since it was started or refreshed. -/
structure Waiting (timer timeout ticks : Nat) (connection : IdleConnection) : Prop where
  wellFormed : connection.wheel.WellFormed
  named : timer ≠ 0
  own : connection.idleTimerId = timer
  seconds : connection.idleTimeout = timeout
  early : ticks < timeout
  fits : timeout ≤ connection.wheel.wheelSize
  pending : connection.wheel.Pending timer
    ((connection.wheel.currentSlot + (timeout - ticks)) % connection.wheel.wheelSize)

/-- The timer is gone. -/
structure Ended (timer : Nat) (connection : IdleConnection) : Prop where
  wellFormed : connection.wheel.WellFormed
  known : timer < connection.wheel.nextTimerId
  own : connection.idleTimerId = timer ∨ connection.idleTimerId = 0
  free : connection.wheel.timerMap.lookup timer = none

section

variable {timer timeout ticks : Nat} {connection : IdleConnection}

theorem waiting_start {wheel : TimerWheel} (wellFormed : wheel.WellFormed) (least : 1 ≤ timeout)
    (fits : timeout ≤ wheel.wheelSize) :
    Waiting (start timeout wheel).idleTimerId timeout 0 (start timeout wheel) where
  wellFormed := wellFormed.addTimer timeout false
  named := wellFormed.numbered.ne'
  own := rfl
  seconds := rfl
  early := least
  fits := fits
  pending := TimerWheel.pending_addTimer (by exact_mod_cast least)

/-- The slot of the timer comes when its ticks are over, and not before. -/
theorem Waiting.nextSlot_iff (waiting : Waiting timer timeout ticks connection) :
    connection.wheel.nextSlot = (connection.wheel.currentSlot + (timeout - ticks)) %
      connection.wheel.wheelSize ↔ ticks + 1 = timeout := by
  have early := waiting.early
  rw [TimerWheel.nextSlot_eq_iff (by omega) ((Nat.sub_le _ _).trans waiting.fits)]
  omega

theorem Waiting.fired_iff (waiting : Waiting timer timeout ticks connection) :
    timer ∈ connection.wheel.tick.1 ↔ ticks + 1 = timeout :=
  (waiting.wellFormed.fired_iff waiting.pending).trans waiting.nextSlot_iff

theorem Waiting.tick (waiting : Waiting timer timeout ticks connection)
    (more : ticks + 1 ≠ timeout) :
    Waiting timer timeout (ticks + 1) (connection.perform .tick) where
  wellFormed := waiting.wellFormed.tick
  named := waiting.named
  own := waiting.own
  seconds := waiting.seconds
  early := by
    have early := waiting.early
    omega
  fits := waiting.fits
  pending := by
    have kept := waiting.pending.tick waiting.wellFormed fun same =>
      more (waiting.nextSlot_iff.mp same)
    have early := waiting.early
    have slot : (connection.wheel.nextSlot + (timeout - (ticks + 1))) % connection.wheel.wheelSize =
        (connection.wheel.currentSlot + (timeout - ticks)) % connection.wheel.wheelSize := by
      rw [← TimerWheel.nextSlot_add (by omega), Nat.sub_sub]
    exact slot ▸ kept

theorem Waiting.last_tick (waiting : Waiting timer timeout ticks connection)
    (last : ticks + 1 = timeout) : Ended timer (connection.perform .tick) where
  wellFormed := waiting.wellFormed.tick
  known := by
    rcases waiting.pending with ⟨ref, _, mapped, -⟩
    rcases waiting.wellFormed.entry mapped with ⟨entry, stored, named, -⟩
    exact named ▸ (waiting.wellFormed.fresh ref entry stored).2
  own := .inl waiting.own
  free := by
    have pending := waiting.pending
    rw [← waiting.nextSlot_iff.mpr last] at pending
    exact pending.spent waiting.wellFormed

/-- What another timer's operation keeps. -/
theorem Waiting.apply (waiting : Waiting timer timeout ticks connection) {operation : Operation}
    (spares : operation.Spares timer) :
    Waiting timer timeout ticks (connection.perform (.other operation)) := by
  rcases operation.apply_slots connection.wheel with ⟨slot, size, -⟩
  constructor
  · exact operation.wellFormed_apply waiting.wellFormed
  · exact waiting.named
  · exact waiting.own
  · exact waiting.seconds
  · exact waiting.early
  · exact size ▸ waiting.fits
  · change (operation.apply connection.wheel).Pending timer _
    simp only [perform, slot, size]
    exact Operation.pending_apply spares waiting.wellFormed waiting.pending

/-- Reading starts the timer again. -/
theorem Waiting.read (waiting : Waiting timer timeout ticks connection) :
    Waiting timer timeout 0 (connection.perform .read) := by
  have refreshed : connection.perform .read =
      { connection with wheel := (Operation.refresh timer timeout).apply connection.wheel } := by
    simp only [perform, handleRead, refreshIdleTimer, Operation.apply, waiting.own,
      waiting.seconds, waiting.named, ne_eq, not_false_eq_true, if_true]
  have least : (0 : Int) < timeout := by
    have early := waiting.early
    omega
  rcases (Operation.refresh timer timeout).apply_slots connection.wheel with
    ⟨slot, size, -⟩
  rw [refreshed]
  constructor
  · exact waiting.wellFormed.refreshTimer timer timeout
  · exact waiting.named
  · exact waiting.own
  · exact waiting.seconds
  · exact Nat.zero_lt_of_lt waiting.early
  · exact size ▸ waiting.fits
  · simp only [slot, size, Nat.sub_zero]
    exact waiting.pending.refreshTimer waiting.wellFormed least

/-- Closing cancels the timer. -/
theorem Waiting.close (waiting : Waiting timer timeout ticks connection) :
    Ended timer (connection.perform .close) := by
  have closed : connection.perform .close =
      { connection with wheel := connection.wheel.cancelTimer timer, idleTimerId := 0 } := by
    simp only [perform, handleClose, waiting.own, waiting.named, ne_eq, not_false_eq_true, if_true]
  rcases waiting.pending with ⟨ref, _, mapped, -⟩
  rcases waiting.wellFormed.entry mapped with ⟨entry, stored, named, -⟩
  rw [closed]
  constructor
  · exact waiting.wellFormed.cancelTimer timer
  · rw [TimerWheel.cancelTimer_eq mapped stored]
    exact named ▸ (waiting.wellFormed.fresh ref entry stored).2
  · exact .inr rfl
  · rw [TimerWheel.cancelTimer_eq mapped stored]
    exact Table.lookup_erase_self ..

/-- A timer that is gone stays away. -/
theorem Ended.perform (ended : Ended timer connection) {action : Action}
    (spares : ∀ operation, action = .other operation → operation.Spares timer) :
    Ended timer (connection.perform action) := by
  rcases ended with ⟨wellFormed, known, own, free⟩
  cases action with
  | tick => exact ⟨wellFormed.tick, known, own, TimerWheel.lookup_timerMap_tick_of_none free⟩
  | read =>
      have same : connection.perform .read = connection := by
        simp only [IdleConnection.perform, handleRead, refreshIdleTimer]
        split
        · rename_i named
          rw [own.resolve_right named, TimerWheel.refreshTimer_of_none free,
            ← own.resolve_right named]
        · rfl
      rw [same]
      exact ⟨wellFormed, known, own, free⟩
  | written => exact ⟨wellFormed, known, own, free⟩
  | close =>
      simp only [IdleConnection.perform, handleClose]
      split
      · rename_i named
        rw [own.resolve_right named, TimerWheel.cancelTimer_of_none free]
        exact ⟨wellFormed, known, .inr rfl, free⟩
      · exact ⟨wellFormed, known, own, free⟩
  | other operation =>
      have foreign := spares operation rfl
      exact ⟨operation.wellFormed_apply wellFormed,
        known.trans_le (operation.apply_slots connection.wheel).2.2, own,
        Operation.free_apply foreign wellFormed (fun _ _ _ => known.ne) free⟩

theorem Ended.not_fired (ended : Ended timer connection) : timer ∉ connection.wheel.tick.1 :=
  ended.wellFormed.not_fired ended.free

/-- The timer waits until the silence is over, and then is gone. -/
theorem waiting_or_ended (waiting : Waiting timer timeout 0 connection) {actions : List Action}
    (spares : ∀ operation, .other operation ∈ actions → operation.Spares timer) :
    (¬ Over timeout actions ∧
        Waiting timer timeout (ticksSince isRead actions) (connection.run actions)) ∨
      (Over timeout actions ∧ Ended timer (connection.run actions)) := by
  induction actions using List.reverseRecOn with
  | nil => exact .inl ⟨not_over_nil timeout, waiting⟩
  | append_singleton actions action inductionHypothesis =>
      have foreign : ∀ operation, action = .other operation → operation.Spares timer := by
        rintro operation rfl
        exact spares operation (by simp)
      rw [over_append_singleton, run_append_singleton, ticksSince_append_singleton]
      rcases inductionHypothesis fun operation member => spares operation (by simp [member]) with
        ⟨silent, before⟩ | ⟨isOver, before⟩
      · cases action with
        | tick =>
            by_cases last : ticksSince isRead actions + 1 = timeout
            · exact .inr ⟨.inr (.inr ⟨rfl, last⟩), before.last_tick last⟩
            · exact .inl ⟨by simp [silent, last], before.tick last⟩
        | read => exact .inl ⟨by simp [silent], before.read⟩
        | written => exact .inl ⟨by simp [silent], before⟩
        | close => exact .inr ⟨.inr (.inl rfl), before.close⟩
        | other operation => exact .inl ⟨by simp [silent], before.apply (foreign operation rfl)⟩
      · exact .inr ⟨.inl isOver, before.perform foreign⟩

/-- When the callback of the timer runs. -/
theorem fired_run_iff (waiting : Waiting timer timeout 0 connection) {actions : List Action}
    (spares : ∀ operation, .other operation ∈ actions → operation.Spares timer) :
    timer ∈ (connection.run actions).wheel.tick.1 ↔
      ¬ Over timeout actions ∧ ticksSince isRead actions + 1 = timeout := by
  rcases waiting_or_ended waiting spares with ⟨silent, before⟩ | ⟨isOver, before⟩
  · rw [before.fired_iff]
    exact ⟨fun last => ⟨silent, last⟩, fun last => last.2⟩
  · exact ⟨fun fired => absurd fired before.not_fired, fun last => absurd isOver last.1⟩

end

/-- The callback comes too early exactly when something was written after the first tick of the
silence that it ends. -/
theorem idle_timeout_spares_transfers_iff {wheel : TimerWheel} (wellFormed : wheel.WellFormed)
    {timeout : Nat} (least : 1 ≤ timeout) (fits : timeout ≤ wheel.wheelSize)
    {actions : List Action} (spares : ∀ operation, .other operation ∈ actions →
      operation.Spares (start timeout wheel).idleTimerId) :
    (∀ before, before ++ [.tick] <+: actions →
      (start timeout wheel).idleTimerId ∈ ((start timeout wheel).run before).wheel.tick.1 →
        timeout ≤ ticksSince isTransfer before + 1) ↔
      ∀ before, before ++ [.tick] <+: actions → ¬ Over timeout before →
        ticksSince isRead before + 1 = timeout → ¬ WrittenLate before := by
  apply forall_congr'
  intro before
  apply forall_congr'
  intro part
  have member : ∀ operation, .other operation ∈ before → .other operation ∈ actions :=
    fun operation inside => part.subset (List.mem_append_left _ inside)
  rw [fired_run_iff (waiting_start wellFormed least fits)
    fun operation inside => spares operation (member operation inside), writtenLate_iff]
  constructor
  · intro patient silent last
    have enough := patient ⟨silent, last⟩
    omega
  · rintro served ⟨silent, last⟩
    have late := served silent last
    omega

theorem idle_timeout_spares_transfers_sample :
    (start 2 (.initial 60)).idleTimerId ∈
        ((start 2 (.initial 60)).run [.read, .written, .tick]).wheel.tick.1 ∧
      ∀ before, before ++ [.tick] <+: [.read, .written, .tick, .tick] →
        (start 2 (.initial 60)).idleTimerId ∈
            ((start 2 (.initial 60)).run before).wheel.tick.1 →
          2 ≤ ticksSince isTransfer before + 1 := by
  refine ⟨by decide, ?_⟩
  apply (idle_timeout_spares_transfers_iff (TimerWheel.wellFormed_initial (by decide))
    (by decide) (by decide) (by simp)).mpr
  rintro before part - -
  rw [writtenLate_iff]
  have known : before = [.read, .written] ∨ before = [.read, .written, .tick] := by
    rcases before with _ | ⟨first, _ | ⟨second, _ | ⟨third, _ | ⟨fourth, rest⟩⟩⟩⟩ <;>
      simp_all [List.cons_prefix_cons]
  rcases known with rfl | rfl
  · decide
  · decide

/-- The timer ends a response whose bytes were leaving one tick before. -/
theorem idle_timeout_cuts_a_transfer :
    ¬ ∀ (wheel : TimerWheel), wheel.WellFormed → ∀ timeout, 1 ≤ timeout →
      timeout ≤ wheel.wheelSize → ∀ actions : List Action,
        (∀ operation, .other operation ∈ actions →
          operation.Spares (start timeout wheel).idleTimerId) →
        ∀ before, before ++ [.tick] <+: actions →
          (start timeout wheel).idleTimerId ∈
              ((start timeout wheel).run before).wheel.tick.1 →
            timeout ≤ ticksSince isTransfer before + 1 := by
  intro spared
  have early := spared (.initial 60) (TimerWheel.wellFormed_initial (by decide)) 2 (by decide)
    (by decide) [.read, .tick, .written, .tick] (by simp) [.read, .tick, .written]
    (List.prefix_refl _) (by decide)
  revert early
  decide

end IdleConnection

end MiniS3.Net
