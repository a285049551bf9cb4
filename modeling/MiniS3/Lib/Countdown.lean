import Mathlib.Logic.Function.Basic

/-!
# Tables of countdowns

A countdown tells how many ticks are left until a callback is due.  A table of them has the
countdowns of timers that are known by number, and a tick counts all of them down at once; one
that comes to its end starts again if it repeats, and is gone if it does not.
-/

namespace MiniS3.Lib

universe u

variable {κ : Type u}

/-- A timer that is due after the remaining ticks. -/
structure Countdown (κ : Type u) where
  callback : κ
  repeating : Bool
  interval : Nat
  remaining : Nat

/-- The countdown after a tick, if there is one. -/
def Countdown.next (countdown : Countdown κ) : Option (Countdown κ) :=
  if countdown.remaining = 1 then
    if countdown.repeating then some { countdown with remaining := countdown.interval } else none
  else some { countdown with remaining := countdown.remaining - 1 }

namespace Countdown

variable {countdown : Countdown κ}

theorem next_of_ne (more : countdown.remaining ≠ 1) :
    countdown.next = some { countdown with remaining := countdown.remaining - 1 } :=
  if_neg more

theorem next_repeating (last : countdown.remaining = 1) (repeats : countdown.repeating = true) :
    countdown.next = some { countdown with remaining := countdown.interval } := by
  rw [next, if_pos last, if_pos repeats]

theorem next_single (last : countdown.remaining = 1) (single : countdown.repeating = false) :
    countdown.next = none := by
  rw [next, if_pos last, single]
  rfl

end Countdown

/-- Countdowns with their numbers. -/
structure Countdowns (κ : Type u) where
  timers : Nat → Option (Countdown κ)
  nextId : Nat

namespace Countdowns

def initial : Countdowns κ :=
  ⟨fun _ => none, 1⟩

/-- Start a countdown under a new number. -/
def add (delay : Nat) (callback : κ) (repeating : Bool) (table : Countdowns κ) : Countdowns κ where
  timers := Function.update table.timers table.nextId (some ⟨callback, repeating, delay, delay⟩)
  nextId := table.nextId + 1

def cancel (id : Nat) (table : Countdowns κ) : Countdowns κ :=
  { table with timers := Function.update table.timers id none }

/-- Start a countdown again, with a new interval if one is given. -/
def refresh (id : Nat) (interval : Option Nat) (table : Countdowns κ) : Countdowns κ :=
  { table with
    timers := Function.update table.timers id <| (table.timers id).map fun countdown =>
      { countdown with
        interval := interval.getD countdown.interval
        remaining := interval.getD countdown.interval } }

def tick (table : Countdowns κ) : Countdowns κ :=
  { table with timers := fun id => (table.timers id).bind Countdown.next }

/-- The next tick is the last one of the countdown. -/
def Due (table : Countdowns κ) (id : Nat) (callback : κ) : Prop :=
  ∃ countdown, table.timers id = some countdown ∧ countdown.remaining = 1 ∧
    countdown.callback = callback

variable {table : Countdowns κ}

section

variable (delay : Nat) (callback : κ) (repeating : Bool) {id : Nat} (interval : Option Nat)

@[simp]
theorem timers_add_self : (table.add delay callback repeating).timers table.nextId =
    some ⟨callback, repeating, delay, delay⟩ :=
  Function.update_self ..

theorem timers_add_ne (different : id ≠ table.nextId) :
    (table.add delay callback repeating).timers id = table.timers id :=
  Function.update_of_ne different _ _

@[simp]
theorem timers_cancel_self : (table.cancel id).timers id = none :=
  Function.update_self ..

theorem timers_cancel_ne {other : Nat} (different : other ≠ id) :
    (table.cancel id).timers other = table.timers other :=
  Function.update_of_ne different _ _

@[simp]
theorem timers_refresh_self : (table.refresh id interval).timers id =
    (table.timers id).map fun countdown =>
      { countdown with
        interval := interval.getD countdown.interval
        remaining := interval.getD countdown.interval } :=
  Function.update_self ..

theorem timers_refresh_ne {other : Nat} (different : other ≠ id) :
    (table.refresh id interval).timers other = table.timers other :=
  Function.update_of_ne different _ _

end

end Countdowns

end MiniS3.Lib
