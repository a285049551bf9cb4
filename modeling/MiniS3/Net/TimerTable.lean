import Mathlib
import MiniS3.Lib.Countdown
import MiniS3.Net.Timers

/-!
# When timers run

Only the slot of an entry tells when it is due, and a slot says no more than how many ticks are
left modulo the size of the wheel.  A delay that fits into the wheel is kept exactly, as a table
of countdowns would keep it; `AddTimer` and `RefreshTimer` also take delays that do not, and then
the timer runs too early, by as many turns of the wheel as its delay has.
-/

namespace MiniS3.Net

open Lib
open TimerWheel (Operation Placed)

universe u

variable {κ : Type u}

namespace TimerCall

/-- What the call does to a table of countdowns. -/
def count (table : Countdowns κ) : TimerCall κ → Countdowns κ
  | add delaySeconds callback repeating => table.add delaySeconds.toNat callback repeating
  | cancel id => table.cancel id
  | refresh id delaySeconds =>
      table.refresh id (if 0 < delaySeconds then some delaySeconds.toNat else none)
  | tick => table.tick

/-- Timers are added with a positive delay. -/
def Positive : TimerCall κ → Prop
  | add delaySeconds _ _ => 0 < delaySeconds
  | _ => True

/-- The delay of a timer that is added, or refreshed while it is there, is not more than the wheel
has slots. -/
def Fits (history : TimerHistory κ) : TimerCall κ → Prop
  | add delaySeconds _ _ => delaySeconds ≤ history.wheel.timers.wheelSize
  | refresh id delaySeconds => (history.wheel.timers.timerMap.lookup id).isSome = true →
      delaySeconds ≤ history.wheel.timers.wheelSize
  | _ => True

instance (history : TimerHistory κ) : (call : TimerCall κ) → Decidable (call.Fits history)
  | add .. => inferInstanceAs (Decidable (_ ≤ _))
  | refresh .. => inferInstanceAs (Decidable (_ → _ ≤ _))
  | cancel _ | tick => inferInstanceAs (Decidable True)

/-- The table of countdowns after these calls. -/
def table (calls : List (TimerCall κ)) : Countdowns κ :=
  calls.foldl TimerCall.count Countdowns.initial

end TimerCall

namespace TimerHistory

/-- A timer of the wheel as a countdown has it. -/
def Counts (history : TimerHistory κ) (id : Nat) : Option (Countdown κ) → Prop
  | none => history.wheel.timers.timerMap.lookup id = none
  | some countdown =>
      (∃ ref entry, history.wheel.timers.Placed id
        ((history.wheel.timers.currentSlot + countdown.remaining) % history.wheel.timers.wheelSize)
        ref entry ∧ entry.interval = countdown.interval) ∧
      history.given.lookup id = some (countdown.callback, countdown.repeating) ∧
      (1 ≤ countdown.remaining ∧ countdown.remaining ≤ history.wheel.timers.wheelSize) ∧
      1 ≤ countdown.interval ∧ countdown.interval ≤ history.wheel.timers.wheelSize

/-- The wheel has the timers of the table. -/
structure Agrees (history : TimerHistory κ) (table : Countdowns κ) : Prop where
  next : table.nextId = history.wheel.timers.nextTimerId
  counts : ∀ id, history.Counts id (table.timers id)

variable {history : TimerHistory κ} {table : Countdowns κ}

/-- A call about another timer changes nothing. -/
theorem Counts.operate (sound : history.Sound) (operation : Operation) {wheel : CallbackWheel κ}
    {given : Table Nat (κ × Bool)} (moved : wheel.timers = operation.apply history.wheel.timers)
    {id : Nat} (spares : operation.Spares id)
    (old : ∀ delay repeating, operation = .add delay repeating →
      id ≠ history.wheel.timers.nextTimerId)
    (kept : given.lookup id = history.given.lookup id) {countdown : Option (Countdown κ)}
    (counts : history.Counts id countdown) :
    Counts (⟨wheel, given, history.ran⟩ : TimerHistory κ) id countdown := by
  rcases operation.apply_slots history.wheel.timers with ⟨slot, size, -⟩
  cases countdown with
  | none =>
      change wheel.timers.timerMap.lookup id = none
      rw [moved]
      exact Operation.free_apply spares sound.wellFormed old counts
  | some countdown =>
      rcases counts with ⟨⟨ref, entry, placed, interval⟩, known, remaining, fits⟩
      simp only [Counts, moved, slot, size]
      exact ⟨⟨ref, entry, Operation.placed_apply spares sound.wellFormed placed, interval⟩,
        kept.trans known, remaining, fits⟩

theorem Agrees.add (sound : history.Sound) (agrees : history.Agrees table) {delaySeconds : Int}
    (positive : 0 < delaySeconds) (fits : delaySeconds ≤ history.wheel.timers.wheelSize)
    (callback : κ) (repeating : Bool) :
    (history.perform (.add delaySeconds callback repeating)).Agrees
      (table.add delaySeconds.toNat callback repeating) where
  next := congrArg (· + 1) agrees.next
  counts := by
    intro id
    by_cases new : id = table.nextId
    · subst new
      rw [Countdowns.timers_add_self, agrees.next]
      refine ⟨⟨_, _, TimerWheel.placed_addTimer positive repeating, rfl⟩,
        Table.lookup_set_self .., ?_, ?_⟩
      all_goals
        change 1 ≤ delaySeconds.toNat ∧ delaySeconds.toNat ≤ history.wheel.timers.wheelSize
        omega
    · rw [Countdowns.timers_add_ne _ _ _ new]
      rw [agrees.next] at new
      exact (agrees.counts id).operate sound (.add delaySeconds repeating) rfl trivial (fun _ _ _ => new)
        (Table.lookup_set_ne _ _ new)

theorem Agrees.cancel (sound : history.Sound) (agrees : history.Agrees table) (id : Nat) :
    (history.perform (.cancel id)).Agrees (table.cancel id) where
  next := agrees.next.trans (TimerWheel.nextTimerId_cancelTimer id).symm
  counts := by
    intro other
    by_cases own : other = id
    · subst own
      rw [Countdowns.timers_cancel_self]
      exact sound.wellFormed.lookup_cancelTimer other
    · rw [Countdowns.timers_cancel_ne own]
      exact (agrees.counts other).operate sound (.cancel id) rfl (Ne.symm own) (by simp) rfl

theorem Agrees.refresh (sound : history.Sound) (agrees : history.Agrees table) {id : Nat}
    {delaySeconds : Int} (fits : (history.wheel.timers.timerMap.lookup id).isSome = true →
      delaySeconds ≤ history.wheel.timers.wheelSize) :
    (history.perform (.refresh id delaySeconds)).Agrees
      (table.refresh id (if 0 < delaySeconds then some delaySeconds.toNat else none)) where
  next := agrees.next.trans (TimerWheel.nextTimerId_refreshTimer id delaySeconds).symm
  counts := by
    intro other
    by_cases own : other = id
    · subst own
      have counts := agrees.counts other
      rw [Countdowns.timers_refresh_self]
      cases present : table.timers other with
      | none =>
          rw [present] at counts
          change (history.wheel.timers.refreshTimer other delaySeconds).timerMap.lookup other = none
          rw [TimerWheel.refreshTimer_of_none counts]
          exact counts
      | some countdown =>
          rw [present] at counts
          rcases counts with ⟨⟨ref, entry, placed, interval⟩, known, remaining, old⟩
          have short := fits (by rw [placed.mapped]; rfl)
          have renewed := placed.refreshTimer sound.wellFormed delaySeconds
          rcases (Operation.refresh other delaySeconds).apply_slots history.wheel.timers with
            ⟨slot, size, -⟩
          simp only [Operation.apply] at slot size
          simp only [Option.map_some, Counts, perform, CallbackWheel.refreshTimer, slot, size]
          by_cases positive : 0 < delaySeconds
          · simp only [if_pos positive, Option.getD_some] at renewed ⊢
            exact ⟨⟨_, _, renewed, rfl⟩, known, by omega, by omega⟩
          · simp only [if_neg positive, Option.getD_none] at renewed ⊢
            rw [interval] at renewed
            exact ⟨⟨_, _, renewed, rfl⟩, known, old, old⟩
    · rw [Countdowns.timers_refresh_ne _ own]
      exact (agrees.counts other).operate sound (.refresh id delaySeconds) rfl (Ne.symm own) (by simp) rfl

theorem Agrees.tick (sound : history.Sound) (agrees : history.Agrees table) :
    (history.perform .tick).Agrees table.tick where
  next := agrees.next
  counts := by
    intro id
    have counts := agrees.counts id
    change Counts _ id ((table.timers id).bind Countdown.next)
    cases present : table.timers id with
    | none =>
        rw [present] at counts
        exact TimerWheel.lookup_timerMap_tick_of_none counts
    | some countdown =>
        rw [present] at counts
        rcases counts with ⟨⟨ref, entry, placed, interval⟩, known, remaining, fits⟩
        have now := @TimerWheel.nextSlot_eq_iff history.wheel.timers _ remaining.1 remaining.2
        rcases placed.named sound.wellFormed with ⟨rfl, active⟩
        rcases sound.holds ref entry placed.stored active with ⟨-, callback, -, given⟩
        have kind : countdown.repeating = entry.repeating :=
          (Prod.mk.inj (Option.some.inj (known.symm.trans given))).2
        rw [Option.bind_some]
        by_cases last : countdown.remaining = 1
        · cases repeats : countdown.repeating with
          | true =>
              rw [Countdown.next_repeating last repeats]
              have again := placed.tick_repeating sound.wellFormed (now.mpr last)
                (kind.symm.trans repeats)
              rw [interval] at again
              exact ⟨⟨ref, entry, again, interval⟩, known, fits, fits⟩
          | false =>
              rw [Countdown.next_single last repeats]
              exact placed.spent sound.wellFormed (now.mpr last) (kind.symm.trans repeats)
        · rw [Countdown.next_of_ne last]
          have waits := placed.tick sound.wellFormed (mt now.mp last)
          rw [← TimerWheel.nextSlot_add remaining.1] at waits
          refine ⟨⟨ref, entry, waits, interval⟩, known, ?_, fits⟩
          change 1 ≤ countdown.remaining - 1 ∧
            countdown.remaining - 1 ≤ history.wheel.timers.wheelSize
          omega

/-- What a tick runs is what is due. -/
theorem Agrees.mem_tick (sound : history.Sound) (agrees : history.Agrees table) {id : Nat}
    {callback : κ} : (id, callback) ∈ history.wheel.tick.1 ↔ table.Due id callback := by
  rw [sound.holds.mem_tick, Countdowns.Due]
  have counts := agrees.counts id
  cases present : table.timers id with
  | none =>
      rw [present] at counts
      simp [sound.wellFormed.not_fired counts]
  | some countdown =>
      rw [present] at counts
      rcases counts with ⟨⟨ref, entry, placed, -⟩, known, remaining, -⟩
      rcases sound.holds ref entry placed.stored (placed.named sound.wellFormed).2 with
        ⟨held, -⟩
      rw [placed.fired_iff sound.wellFormed held,
        TimerWheel.nextSlot_eq_iff remaining.1 remaining.2, known]
      simp [eq_comm]

theorem Agrees.isSome_iff (agrees : history.Agrees table) (id : Nat) :
    (history.wheel.timers.timerMap.lookup id).isSome = (table.timers id).isSome := by
  have counts := agrees.counts id
  cases present : table.timers id with
  | none =>
      rw [present] at counts
      exact congrArg Option.isSome counts
  | some countdown =>
      rw [present] at counts
      rcases counts with ⟨⟨ref, entry, placed, -⟩, -⟩
      rw [placed.mapped]
      rfl

/-- The call keeps the wheel and the table in agreement. -/
theorem Agrees.perform (sound : history.Sound) (agrees : history.Agrees table)
    {call : TimerCall κ} (positive : call.Positive) (fits : call.Fits history) :
    (history.perform call).Agrees (call.count table) := by
  cases call with
  | add delaySeconds callback repeating => exact agrees.add sound positive fits callback repeating
  | cancel id => exact agrees.cancel sound id
  | refresh id delaySeconds => exact agrees.refresh sound fits
  | tick => exact agrees.tick sound

/-- Each of the calls fits when its turn comes. -/
def FitInTurn : TimerHistory κ → List (TimerCall κ) → Prop
  | _, [] => True
  | history, call :: calls => call.Fits history ∧ FitInTurn (history.perform call) calls

theorem Agrees.foldl (sound : history.Sound) (agrees : history.Agrees table)
    {calls : List (TimerCall κ)} (positive : ∀ call ∈ calls, call.Positive)
    (fit : FitInTurn history calls) :
    (calls.foldl TimerHistory.perform history).Agrees (calls.foldl TimerCall.count table) := by
  induction calls generalizing history table with
  | nil => exact agrees
  | cons call calls inductionHypothesis =>
      rw [List.forall_mem_cons] at positive
      exact inductionHypothesis (sound.perform call) (agrees.perform sound positive.1 fit.1)
        positive.2 fit.2

/-- After the calls the wheel has the timers of the table of countdowns, and what the next tick
runs, once each, are those that are due. -/
def FiresWhenDue (wheelSize : Nat) (calls : List (TimerCall κ)) : Prop :=
  let wheel := (run wheelSize calls).wheel
  let table := TimerCall.table calls
  wheel.timers.nextTimerId = table.nextId ∧
    (∀ id, (wheel.timers.timerMap.lookup id).isSome = (table.timers id).isSome) ∧
    (wheel.tick.1.map Prod.fst).Nodup ∧
    ∀ id callback, (id, callback) ∈ wheel.tick.1 ↔ table.Due id callback

/-- Timers fire when they are due, and only then, as long as no delay is longer than the wheel. -/
theorem fires_when_due {wheelSize : Nat} (size : 0 < wheelSize) (calls : List (TimerCall κ))
    (positive : ∀ call ∈ calls, call.Positive) (fit : FitInTurn (initial wheelSize) calls) :
    FiresWhenDue wheelSize calls := by
  have sound : (run wheelSize calls).Sound := sound_run size calls
  have new : (initial wheelSize : TimerHistory κ).Agrees Countdowns.initial := ⟨rfl, fun _ => rfl⟩
  have agrees : (run wheelSize calls).Agrees (TimerCall.table calls) :=
    new.foldl (sound_initial size) positive fit
  refine ⟨agrees.next.symm, agrees.isSome_iff, ?_, fun _ _ => agrees.mem_tick sound⟩
  rw [sound.holds.map_fst_tick]
  exact sound.tidy.nodup_fired sound.wellFormed

/-- A timer of a whole turn that is refreshed after a tick, and one that is refreshed after it was
cancelled. -/
theorem fires_when_due_sixty :
    0 < 60 ∧ FiresWhenDue 60 [.add 60 'a' true, .tick, .refresh 1 0, .add 1 'b' false,
      .add 2 'c' false, .cancel 3, .refresh 3 100] :=
  ⟨by decide, fires_when_due (by decide) [.add 60 'a' true, .tick, .refresh 1 0, .add 1 'b' false,
      .add 2 'c' false, .cancel 3, .refresh 3 100] (by simp [TimerCall.Positive])
    ⟨by decide, trivial, by decide, by decide, by decide, trivial, by decide, trivial⟩⟩

/-- In the wheel of the event loop, a timer of 3601 seconds runs after one. -/
theorem not_fires_when_due : ¬ ∀ (wheelSize : Nat) (calls : List (TimerCall Char)),
    0 < wheelSize → (∀ call ∈ calls, call.Positive) → FiresWhenDue wheelSize calls := by
  intro all
  rcases all 3600 [.add 3601 'a' false] (by decide) (by simp [TimerCall.Positive]) with
    ⟨-, -, -, due⟩
  have fired : (1, 'a') ∈ (run 3600 [.add 3601 'a' false]).wheel.tick.1 := by decide
  rcases (due 1 'a').mp fired with ⟨countdown, present, last, -⟩
  have start : (TimerCall.table [.add 3601 'a' false]).timers 1 =
      some ⟨'a', false, 3601, 3601⟩ := rfl
  rw [start] at present
  cases present
  cases last

end TimerHistory

end MiniS3.Net
