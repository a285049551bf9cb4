import Mathlib.Data.Nat.ModEq
import MiniS3.Lib.Table

/-!
# The timer wheel

A wheel has one bucket of timer entries for each slot, and a tick moves on by one slot and
runs the callbacks of the entries there.  A timer that is refreshed gets a new entry: the
old one is marked as cancelled, and stays in its bucket until its slot comes.

Entries are objects that the buckets own and that `timerMap` only refers to, so they are
known by a number, and `entries` has those that are alive.  The callbacks of this server put
a functor into a queue and do nothing to the wheel.
-/

namespace MiniS3.Net

open Lib

/-- `TimerWheel::TimerEntry`; `callback` tells whether there is one to call, which is not so
after it was moved to another entry. -/
structure TimerEntry where
  id : Nat
  callback : Bool
  repeating : Bool
  interval : Nat
  cancelled : Bool
  deriving DecidableEq

/-- `TimerWheel`. -/
structure TimerWheel where
  wheelSize : Nat
  currentSlot : Nat
  wheel : Nat → List Nat
  entries : Table Nat TimerEntry
  timerMap : Table Nat Nat
  nextTimerId : Nat
  nextEntry : Nat

namespace TimerWheel

/-- A new wheel. -/
def initial (wheelSize : Nat) : TimerWheel where
  wheelSize
  currentSlot := 0
  wheel := fun _ => []
  entries := ∅
  timerMap := ∅
  nextTimerId := 1
  nextEntry := 0

/-- Put a new entry into the bucket that comes after its interval, and make it the entry of
its timer. -/
def schedule (entry : TimerEntry) (wheel : TimerWheel) : TimerWheel :=
  let targetSlot := (wheel.currentSlot + entry.interval) % wheel.wheelSize
  { wheel with
    wheel := Function.update wheel.wheel targetSlot (wheel.wheel targetSlot ++ [wheel.nextEntry])
    entries := wheel.entries.set wheel.nextEntry entry
    timerMap := wheel.timerMap.set entry.id wheel.nextEntry
    nextEntry := wheel.nextEntry + 1 }

/-- `TimerWheel::AddTimer`. -/
def addTimer (delaySeconds : Int) (repeating : Bool) (wheel : TimerWheel) : Nat × TimerWheel :=
  let delaySeconds := if delaySeconds ≤ 0 then 1 else delaySeconds
  (wheel.nextTimerId,
    { wheel with nextTimerId := wheel.nextTimerId + 1 }.schedule
      ⟨wheel.nextTimerId, true, repeating, delaySeconds.toNat, false⟩)

/-- `TimerWheel::CancelTimer`. -/
def cancelTimer (id : Nat) (wheel : TimerWheel) : TimerWheel :=
  match wheel.timerMap.lookup id with
  | none => wheel
  | some ref =>
      { wheel with
        entries :=
          match wheel.entries.lookup ref with
          | some entry => wheel.entries.set ref { entry with cancelled := true }
          | none => wheel.entries
        timerMap := wheel.timerMap.erase id }

/-- `TimerWheel::RefreshTimer`. -/
def refreshTimer (id : Nat) (delaySeconds : Int) (wheel : TimerWheel) : TimerWheel :=
  match wheel.timerMap.lookup id with
  | none => wheel
  | some ref =>
      match wheel.entries.lookup ref with
      | none => wheel
      | some entry =>
          if entry.cancelled then wheel
          else
            { wheel with
              entries := wheel.entries.set ref
                { entry with callback := false, cancelled := true } }.schedule
              { entry with
                interval := if 0 < delaySeconds then delaySeconds.toNat else entry.interval }

/-- The entries of a bucket that are not cancelled. -/
def due (slot : Nat) (wheel : TimerWheel) : List (Nat × TimerEntry) :=
  (wheel.wheel slot).filterMap fun ref =>
    ((wheel.entries.lookup ref).filter fun entry => !entry.cancelled).map (ref, ·)

/-- `TimerWheel::Tick`: the timers whose callback is run, and the wheel.  Entries of repeated
timers move to a new bucket; the others are gone with the bucket. -/
def tick (wheel : TimerWheel) : List Nat × TimerWheel :=
  let slot := (wheel.currentSlot + 1) % wheel.wheelSize
  let due := wheel.due slot
  let repeated := due.filter fun timer => timer.2.repeating
  let finished := due.filter fun timer => !timer.2.repeating
  ((due.filter fun timer => timer.2.callback).map fun timer => timer.2.id,
    { wheel with
      currentSlot := slot
      wheel := fun other => (if other = slot then [] else wheel.wheel other) ++
        (repeated.filter fun timer => (slot + timer.2.interval) % wheel.wheelSize = other).map
          Prod.fst
      entries := wheel.entries.filter fun ref _ =>
        decide (ref ∉ wheel.wheel slot ∨ ref ∈ repeated.map Prod.fst)
      timerMap := wheel.timerMap.filter fun id _ =>
        decide (id ∉ finished.map fun timer => timer.2.id) })

/-! ## What is kept of a wheel -/

/-- Entries in buckets are alive and each is in one bucket; the entries that are not cancelled
are those of the timers. -/
structure WellFormed (wheel : TimerWheel) : Prop where
  positive : 0 < wheel.wheelSize
  numbered : 0 < wheel.nextTimerId
  alive : ∀ slot, ∀ ref ∈ wheel.wheel slot, (wheel.entries.lookup ref).isSome
  fresh : ∀ ref entry, wheel.entries.lookup ref = some entry →
    ref < wheel.nextEntry ∧ entry.id < wheel.nextTimerId
  once : ∀ slot other ref, ref ∈ wheel.wheel slot → ref ∈ wheel.wheel other → slot = other
  mapped : ∀ id ref, wheel.timerMap.lookup id = some ref → ∃ slot entry,
    ref ∈ wheel.wheel slot ∧ wheel.entries.lookup ref = some entry ∧ entry.id = id ∧
      entry.cancelled = false
  current : ∀ slot ref entry, ref ∈ wheel.wheel slot → wheel.entries.lookup ref = some entry →
    entry.cancelled = false → wheel.timerMap.lookup entry.id = some ref

/-- The timer runs its callback when the slot comes, and never again. -/
def Pending (wheel : TimerWheel) (id slot : Nat) : Prop :=
  ∃ ref entry, wheel.timerMap.lookup id = some ref ∧ ref ∈ wheel.wheel slot ∧
    wheel.entries.lookup ref = some entry ∧ entry.callback = true ∧ entry.repeating = false

theorem wellFormed_initial {wheelSize : Nat} (positive : 0 < wheelSize) :
    (initial wheelSize).WellFormed where
  positive := positive
  numbered := Nat.one_pos
  alive := by simp [initial]
  fresh := by simp [initial]
  once := by simp [initial]
  mapped := by simp [initial]
  current := by simp [initial]

section

variable {wheel : TimerWheel}

theorem WellFormed.lt_nextEntry (wellFormed : wheel.WellFormed) {slot ref : Nat}
    (member : ref ∈ wheel.wheel slot) : ref < wheel.nextEntry := by
  rcases Option.isSome_iff_exists.mp (wellFormed.alive slot ref member) with ⟨entry, stored⟩
  exact (wellFormed.fresh ref entry stored).1

theorem mem_schedule {entry : TimerEntry} {slot ref : Nat} :
    ref ∈ (wheel.schedule entry).wheel slot ↔ ref ∈ wheel.wheel slot ∨
      (ref = wheel.nextEntry ∧ slot = (wheel.currentSlot + entry.interval) % wheel.wheelSize) := by
  simp only [schedule, Function.update_apply]
  split
  · rename_i target
    subst target
    simp
  · rename_i other
    simp [other]

/-- A new entry, for a timer that has no entry so far. -/
theorem WellFormed.schedule (wellFormed : wheel.WellFormed) {entry : TimerEntry}
    (known : entry.id < wheel.nextTimerId) (active : entry.cancelled = false)
    (unmapped : ∀ slot ref other, ref ∈ wheel.wheel slot → wheel.entries.lookup ref = some other →
      other.cancelled = false → other.id ≠ entry.id) : (wheel.schedule entry).WellFormed where
  positive := wellFormed.positive
  numbered := wellFormed.numbered
  alive := by
    intro slot ref member
    change ((wheel.entries.set wheel.nextEntry entry).lookup ref).isSome
    rw [Table.lookup_set]
    split
    · rfl
    · rename_i other
      rcases mem_schedule.mp member with before | ⟨new, -⟩
      · exact wellFormed.alive slot ref before
      · exact absurd new other
  fresh := by
    intro ref other stored
    change (wheel.entries.set wheel.nextEntry entry).lookup ref = some other at stored
    change ref < wheel.nextEntry + 1 ∧ other.id < wheel.nextTimerId
    rw [Table.lookup_set] at stored
    split at stored
    · rename_i new
      cases stored
      exact ⟨by omega, known⟩
    · have before := wellFormed.fresh ref other stored
      exact ⟨by omega, before.2⟩
  once := by
    intro slot other ref first second
    rcases mem_schedule.mp first with before | ⟨new, target⟩
    · rcases mem_schedule.mp second with alsoBefore | ⟨new, -⟩
      · exact wellFormed.once slot other ref before alsoBefore
      · exact absurd (wellFormed.lt_nextEntry before) (by omega)
    · rcases mem_schedule.mp second with before | ⟨-, otherTarget⟩
      · exact absurd (wellFormed.lt_nextEntry before) (by omega)
      · rw [target, otherTarget]
  mapped := by
    intro id ref stored
    change (wheel.timerMap.set entry.id wheel.nextEntry).lookup id = some ref at stored
    rw [Table.lookup_set] at stored
    split at stored
    · rename_i own
      cases stored
      exact ⟨_, entry, mem_schedule.mpr (.inr ⟨rfl, rfl⟩), Table.lookup_set_self .., own.symm,
        active⟩
    · rcases wellFormed.mapped id ref stored with ⟨slot, other, member, found, same, running⟩
      refine ⟨slot, other, mem_schedule.mpr (.inl member), ?_, same, running⟩
      exact (Table.lookup_set_ne _ _ (wellFormed.lt_nextEntry member).ne).trans found
  current := by
    intro slot ref other member stored running
    change (wheel.entries.set wheel.nextEntry entry).lookup ref = some other at stored
    change (wheel.timerMap.set entry.id wheel.nextEntry).lookup other.id = some ref
    rcases mem_schedule.mp member with before | ⟨rfl, -⟩
    · rw [Table.lookup_set_ne _ _ (wellFormed.lt_nextEntry before).ne] at stored
      rw [Table.lookup_set_ne _ _ (unmapped slot ref other before stored running)]
      exact wellFormed.current slot ref other before stored running
    · rw [Table.lookup_set_self] at stored
      cases stored
      exact Table.lookup_set_self ..

/-- The wheel without the timer, whose entry is cancelled. -/
def retire (id ref : Nat) (entry : TimerEntry) (wheel : TimerWheel) : TimerWheel :=
  { wheel with
    entries := wheel.entries.set ref entry
    timerMap := wheel.timerMap.erase id }

theorem WellFormed.retire (wellFormed : wheel.WellFormed) {id ref : Nat} {old entry : TimerEntry}
    (mapped : wheel.timerMap.lookup id = some ref) (stored : wheel.entries.lookup ref = some old)
    (same : entry.id = old.id) (cancelled : entry.cancelled = true) :
    (wheel.retire id ref entry).WellFormed where
  positive := wellFormed.positive
  numbered := wellFormed.numbered
  alive := by
    intro slot other member
    change ((wheel.entries.set ref entry).lookup other).isSome
    rw [Table.lookup_set]
    split
    · rfl
    · exact wellFormed.alive slot other member
  fresh := by
    intro other found present
    change (wheel.entries.set ref entry).lookup other = some found at present
    rw [Table.lookup_set] at present
    split at present
    · rename_i own
      cases present
      rw [own, same]
      exact wellFormed.fresh ref old stored
    · exact wellFormed.fresh other found present
  once := wellFormed.once
  mapped := by
    intro other otherRef present
    change (wheel.timerMap.erase id).lookup other = some otherRef at present
    by_cases own : other = id
    · subst own
      rw [Table.lookup_erase_self] at present
      cases present
    rw [Table.lookup_erase_ne _ own] at present
    rcases wellFormed.mapped other otherRef present with ⟨slot, found, member, here, named, active⟩
    refine ⟨slot, found, member, ?_, named, active⟩
    refine (Table.lookup_set_ne _ _ ?_).trans here
    rintro rfl
    rcases wellFormed.mapped id otherRef mapped with ⟨_, _, _, alsoHere, ownName, _⟩
    rw [here, Option.some.injEq] at alsoHere
    exact own (by rw [← named, alsoHere, ownName])
  current := by
    intro slot other found member present active
    change (wheel.entries.set ref entry).lookup other = some found at present
    change (wheel.timerMap.erase id).lookup found.id = some other
    rw [Table.lookup_set] at present
    split at present
    · cases present
      rw [cancelled] at active
      cases active
    · rename_i different
      have before := wellFormed.current slot other found member present active
      rw [Table.lookup_erase_ne _ ?_]
      · exact before
      · intro own
        rw [own, mapped, Option.some.injEq] at before
        exact different before.symm

/-- A timer that has an entry has one that is not cancelled. -/
theorem WellFormed.entry (wellFormed : wheel.WellFormed) {id ref : Nat}
    (mapped : wheel.timerMap.lookup id = some ref) : ∃ entry,
      wheel.entries.lookup ref = some entry ∧ entry.id = id ∧ entry.cancelled = false := by
  rcases wellFormed.mapped id ref mapped with ⟨_, entry, _, stored, named, active⟩
  exact ⟨entry, stored, named, active⟩

theorem cancelTimer_of_none {id : Nat} (free : wheel.timerMap.lookup id = none) :
    wheel.cancelTimer id = wheel := by
  simp [cancelTimer, free]

theorem cancelTimer_eq {id ref : Nat} {entry : TimerEntry}
    (mapped : wheel.timerMap.lookup id = some ref)
    (stored : wheel.entries.lookup ref = some entry) :
    wheel.cancelTimer id = wheel.retire id ref { entry with cancelled := true } := by
  simp [cancelTimer, retire, mapped, stored]

theorem refreshTimer_of_none {id : Nat} {delay : Int} (free : wheel.timerMap.lookup id = none) :
    wheel.refreshTimer id delay = wheel := by
  simp [refreshTimer, free]

/-- A refreshed timer has a new entry in the place of its old one. -/
theorem refreshTimer_eq {id ref : Nat} {delay : Int} {entry : TimerEntry}
    (mapped : wheel.timerMap.lookup id = some ref)
    (stored : wheel.entries.lookup ref = some entry) (named : entry.id = id)
    (active : entry.cancelled = false) :
    wheel.refreshTimer id delay =
      (wheel.retire id ref { entry with callback := false, cancelled := true }).schedule
        { entry with interval := if 0 < delay then delay.toNat else entry.interval } := by
  simp [refreshTimer, retire, TimerWheel.schedule, mapped, stored, named, active,
    Table.set_erase]

theorem WellFormed.lookup_cancelTimer (wellFormed : wheel.WellFormed) (id : Nat) :
    (wheel.cancelTimer id).timerMap.lookup id = none := by
  cases mapped : wheel.timerMap.lookup id with
  | none =>
      rw [cancelTimer_of_none mapped]
      exact mapped
  | some ref =>
      rcases wellFormed.entry mapped with ⟨entry, stored, -, -⟩
      rw [cancelTimer_eq mapped stored]
      exact Table.lookup_erase_self ..

theorem nextTimerId_cancelTimer (id : Nat) :
    (wheel.cancelTimer id).nextTimerId = wheel.nextTimerId := by
  rw [cancelTimer]
  split
  · rfl
  · rfl

theorem nextTimerId_refreshTimer (id : Nat) (delay : Int) :
    (wheel.refreshTimer id delay).nextTimerId = wheel.nextTimerId := by
  rw [refreshTimer]
  split
  · rfl
  · split
    · rfl
    · split
      · rfl
      · rfl

theorem WellFormed.cancelTimer (wellFormed : wheel.WellFormed) (id : Nat) :
    (wheel.cancelTimer id).WellFormed := by
  cases mapped : wheel.timerMap.lookup id with
  | none =>
      rw [cancelTimer_of_none mapped]
      exact wellFormed
  | some ref =>
      rcases wellFormed.entry mapped with ⟨entry, stored, -, -⟩
      rw [cancelTimer_eq mapped stored]
      exact wellFormed.retire mapped stored rfl rfl

theorem WellFormed.refreshTimer (wellFormed : wheel.WellFormed) (id : Nat) (delay : Int) :
    (wheel.refreshTimer id delay).WellFormed := by
  cases mapped : wheel.timerMap.lookup id with
  | none =>
      rw [refreshTimer_of_none mapped]
      exact wellFormed
  | some ref =>
      rcases wellFormed.entry mapped with ⟨entry, stored, named, active⟩
      rw [refreshTimer_eq mapped stored named active]
      let cancelled := { entry with callback := false, cancelled := true }
      have retired : (wheel.retire id ref cancelled).WellFormed :=
        wellFormed.retire mapped stored rfl rfl
      refine retired.schedule ?_ active ?_
      · exact (wellFormed.fresh ref entry stored).2
      intro slot other found member present running same
      have current := retired.current slot other found member present running
      change (wheel.timerMap.erase id).lookup found.id = some other at current
      rw [same, named, Table.lookup_erase_self] at current
      cases current

/-- An id that is taken from the counter is not used by an entry. -/
theorem WellFormed.counted (wellFormed : wheel.WellFormed) :
    { wheel with nextTimerId := wheel.nextTimerId + 1 }.WellFormed :=
  { wellFormed with
    numbered := Nat.succ_pos _
    fresh := fun ref entry stored =>
      ⟨(wellFormed.fresh ref entry stored).1, Nat.lt_succ_of_lt (wellFormed.fresh ref entry stored).2⟩ }

theorem WellFormed.addTimer (wellFormed : wheel.WellFormed) (delay : Int) (repeating : Bool) :
    (wheel.addTimer delay repeating).2.WellFormed := by
  apply wellFormed.counted.schedule (Nat.lt_succ_self _) rfl
  intro slot ref entry _ stored _
  exact (wellFormed.fresh ref entry stored).2.ne

/-! ## A tick -/

/-- The slot that the next tick comes to. -/
def nextSlot (wheel : TimerWheel) : Nat :=
  (wheel.currentSlot + 1) % wheel.wheelSize

/-- The next tick comes to the slot that is one tick ahead, and to no other within a turn. -/
theorem nextSlot_eq_iff {ticks : Nat} (least : 1 ≤ ticks) (fits : ticks ≤ wheel.wheelSize) :
    wheel.nextSlot = (wheel.currentSlot + ticks) % wheel.wheelSize ↔ ticks = 1 := by
  constructor
  · intro same
    have congruent : 1 ≡ ticks [MOD wheel.wheelSize] := Nat.ModEq.add_left_cancel' _ same
    have divides := (Nat.modEq_iff_dvd' least).mp congruent
    have zero := Nat.eq_zero_of_dvd_of_lt divides (by omega)
    omega
  · rintro rfl
    rfl

/-- After the tick, the slot is one tick less ahead. -/
theorem nextSlot_add {ticks : Nat} (least : 1 ≤ ticks) :
    (wheel.nextSlot + (ticks - 1)) % wheel.wheelSize =
      (wheel.currentSlot + ticks) % wheel.wheelSize := by
  rw [nextSlot, Nat.mod_add_mod]
  congr 1
  omega

theorem mem_due {slot ref : Nat} {entry : TimerEntry} :
    (ref, entry) ∈ wheel.due slot ↔ ref ∈ wheel.wheel slot ∧
      wheel.entries.lookup ref = some entry ∧ entry.cancelled = false := by
  simp only [due, List.mem_filterMap, Option.map_eq_some_iff, Option.filter_eq_some_iff,
    Bool.not_eq_eq_eq_not, Bool.not_true, Prod.mk.injEq]
  constructor
  · rintro ⟨other, member, found, ⟨stored, active⟩, rfl, rfl⟩
    exact ⟨member, stored, active⟩
  · rintro ⟨member, stored, active⟩
    exact ⟨ref, member, entry, ⟨stored, active⟩, rfl, rfl⟩

/-- Which entries a bucket has after a tick. -/
theorem mem_tick {slot ref : Nat} : ref ∈ wheel.tick.2.wheel slot ↔
    (slot ≠ wheel.nextSlot ∧ ref ∈ wheel.wheel slot) ∨
      ∃ entry, (ref, entry) ∈ wheel.due wheel.nextSlot ∧ entry.repeating = true ∧
        (wheel.nextSlot + entry.interval) % wheel.wheelSize = slot := by
  change ref ∈ (if slot = wheel.nextSlot then [] else wheel.wheel slot) ++ _ ↔ _
  rw [List.mem_append]
  apply or_congr
  · split
    · rename_i current
      simp [current]
    · rename_i other
      simp [other]
  · simp only [List.mem_map, List.mem_filter, decide_eq_true_eq, Prod.exists]
    constructor
    · rintro ⟨other, entry, ⟨⟨member, repeats⟩, target⟩, rfl⟩
      exact ⟨entry, member, repeats, target⟩
    · rintro ⟨entry, member, repeats, target⟩
      exact ⟨ref, entry, ⟨⟨member, repeats⟩, target⟩, rfl⟩

theorem lookup_entries_tick {ref : Nat} {entry : TimerEntry} :
    wheel.tick.2.entries.lookup ref = some entry ↔ wheel.entries.lookup ref = some entry ∧
      (ref ∉ wheel.wheel wheel.nextSlot ∨
        ∃ other, (ref, other) ∈ wheel.due wheel.nextSlot ∧ other.repeating = true) := by
  change (wheel.entries.filter _).lookup ref = some entry ↔ _
  rw [Table.lookup_filter, Option.filter_eq_some_iff, decide_eq_true_eq]
  apply and_congr Iff.rfl
  apply or_congr Iff.rfl
  simp only [List.mem_map, List.mem_filter, Prod.exists]
  constructor
  · rintro ⟨other, found, member, rfl⟩
    exact ⟨found, member⟩
  · rintro ⟨found, member⟩
    exact ⟨ref, found, member, rfl⟩

theorem lookup_timerMap_tick {id ref : Nat} :
    wheel.tick.2.timerMap.lookup id = some ref ↔ wheel.timerMap.lookup id = some ref ∧
      ∀ other entry, (other, entry) ∈ wheel.due wheel.nextSlot → entry.repeating = false →
        entry.id ≠ id := by
  change (wheel.timerMap.filter _).lookup id = some ref ↔ _
  rw [Table.lookup_filter, Option.filter_eq_some_iff, decide_eq_true_eq]
  apply and_congr Iff.rfl
  simp only [List.mem_map, List.mem_filter, Prod.exists, not_exists, not_and, and_imp,
    Bool.not_eq_eq_eq_not, Bool.not_true]
  constructor
  · intro free other entry member once named
    exact free other entry member once named
  · intro free other entry member once named
    exact free other entry member once named

/-- The timers whose callback a tick runs. -/
theorem mem_fired {id : Nat} : id ∈ wheel.tick.1 ↔ ∃ ref entry,
    (ref, entry) ∈ wheel.due wheel.nextSlot ∧ entry.callback = true ∧ entry.id = id := by
  change id ∈ ((wheel.due wheel.nextSlot).filter _).map _ ↔ _
  simp only [List.mem_map, List.mem_filter, Prod.exists, and_assoc]

theorem WellFormed.tick (wellFormed : wheel.WellFormed) : wheel.tick.2.WellFormed where
  positive := wellFormed.positive
  numbered := wellFormed.numbered
  alive := by
    intro slot ref member
    rw [Option.isSome_iff_exists]
    rcases mem_tick.mp member with ⟨other, before⟩ | ⟨entry, due, repeats, -⟩
    · rcases Option.isSome_iff_exists.mp (wellFormed.alive slot ref before) with ⟨entry, stored⟩
      refine ⟨entry, lookup_entries_tick.mpr ⟨stored, .inl fun current => ?_⟩⟩
      exact other (wellFormed.once slot wheel.nextSlot ref before current)
    · exact ⟨entry, lookup_entries_tick.mpr ⟨(mem_due.mp due).2.1, .inr ⟨entry, due, repeats⟩⟩⟩
  fresh := by
    intro ref entry stored
    exact wellFormed.fresh ref entry (lookup_entries_tick.mp stored).1
  once := by
    intro slot other ref first second
    rcases mem_tick.mp first with ⟨away, before⟩ | ⟨entry, due, -, target⟩
    · rcases mem_tick.mp second with ⟨-, alsoBefore⟩ | ⟨entry, due, -, -⟩
      · exact wellFormed.once slot other ref before alsoBefore
      · exact absurd (wellFormed.once slot _ ref before (mem_due.mp due).1) away
    · rcases mem_tick.mp second with ⟨away, before⟩ | ⟨found, alsoDue, -, otherTarget⟩
      · exact absurd (wellFormed.once other _ ref before (mem_due.mp due).1) away
      · have same : some entry = some found :=
          (mem_due.mp due).2.1.symm.trans (mem_due.mp alsoDue).2.1
        cases same
        exact target.symm.trans otherTarget
  mapped := by
    intro id ref stored
    rcases lookup_timerMap_tick.mp stored with ⟨before, kept⟩
    rcases wellFormed.mapped id ref before with ⟨slot, entry, member, found, named, active⟩
    by_cases current : slot = wheel.nextSlot
    · subst current
      have due : (ref, entry) ∈ wheel.due wheel.nextSlot := mem_due.mpr ⟨member, found, active⟩
      have repeats : entry.repeating = true := by
        cases once : entry.repeating with
        | true => rfl
        | false => exact absurd named (kept ref entry due once)
      exact ⟨_, entry, mem_tick.mpr (.inr ⟨entry, due, repeats, rfl⟩),
        lookup_entries_tick.mpr ⟨found, .inr ⟨entry, due, repeats⟩⟩, named, active⟩
    · refine ⟨slot, entry, mem_tick.mpr (.inl ⟨current, member⟩),
        lookup_entries_tick.mpr ⟨found, .inl fun here => ?_⟩, named, active⟩
      exact current (wellFormed.once slot _ ref member here)
  current := by
    intro slot ref entry member stored active
    rcases lookup_entries_tick.mp stored with ⟨before, -⟩
    -- An entry that is still there is the one of its timer; it is not finished, for a finished
    -- one of the same timer would be the same entry.
    have finished : ∀ other found, (other, found) ∈ wheel.due wheel.nextSlot →
        found.repeating = false → found.id = entry.id → ref = other := by
      intro other found due once same
      rcases mem_due.mp due with ⟨here, present, running⟩
      have otherMapped := wellFormed.current _ other found here present running
      have slotOf : ∃ slot, ref ∈ wheel.wheel slot := by
        rcases mem_tick.mp member with ⟨-, place⟩ | ⟨_, dueToo, -, -⟩
        · exact ⟨slot, place⟩
        · exact ⟨_, (mem_due.mp dueToo).1⟩
      rcases slotOf with ⟨place, placed⟩
      have ownMapped := wellFormed.current place ref entry placed before active
      rw [same, ownMapped, Option.some.injEq] at otherMapped
      exact otherMapped
    rcases mem_tick.mp member with ⟨away, place⟩ | ⟨found, due, repeats, -⟩
    · refine lookup_timerMap_tick.mpr ⟨wellFormed.current slot ref entry place before active, ?_⟩
      intro other found due once same
      have own := finished other found due once same
      subst own
      exact away (wellFormed.once slot _ ref place (mem_due.mp due).1)
    · refine lookup_timerMap_tick.mpr
        ⟨wellFormed.current _ ref entry (mem_due.mp due).1 before active, ?_⟩
      intro other second alsoDue once same
      have own := finished other second alsoDue once same
      subst own
      have equal : some found = some second :=
        (mem_due.mp due).2.1.symm.trans (mem_due.mp alsoDue).2.1
      cases equal
      rw [repeats] at once
      cases once

/-! ## One timer -/

/-- The timer has its entry in the bucket of the slot. -/
structure Placed (wheel : TimerWheel) (id slot ref : Nat) (entry : TimerEntry) : Prop where
  mapped : wheel.timerMap.lookup id = some ref
  member : ref ∈ wheel.wheel slot
  stored : wheel.entries.lookup ref = some entry

theorem WellFormed.placed (wellFormed : wheel.WellFormed) {id ref : Nat}
    (mapped : wheel.timerMap.lookup id = some ref) :
    ∃ slot entry, wheel.Placed id slot ref entry := by
  rcases wellFormed.mapped id ref mapped with ⟨slot, entry, member, stored, -, -⟩
  exact ⟨slot, entry, mapped, member, stored⟩

namespace Placed

variable {id slot ref : Nat} {entry : TimerEntry} (placed : wheel.Placed id slot ref entry)
include placed

theorem named (wellFormed : wheel.WellFormed) : entry.id = id ∧ entry.cancelled = false := by
  rcases wellFormed.entry placed.mapped with ⟨found, present, same, active⟩
  rw [placed.stored, Option.some.injEq] at present
  subst present
  exact ⟨same, active⟩

theorem due (wellFormed : wheel.WellFormed) : (ref, entry) ∈ wheel.due slot :=
  mem_due.mpr ⟨placed.member, placed.stored, (placed.named wellFormed).2⟩

/-- No other entry of the timer is found in a bucket. -/
theorem eq_of_due (wellFormed : wheel.WellFormed) {place other : Nat} {found : TimerEntry}
    (due : (other, found) ∈ wheel.due place) (same : found.id = id) :
    place = slot ∧ other = ref ∧ found = entry := by
  rcases mem_due.mp due with ⟨here, present, running⟩
  have own := wellFormed.current _ other found here present running
  rw [same, placed.mapped, Option.some.injEq] at own
  subst own
  rw [placed.stored, Option.some.injEq] at present
  exact ⟨wellFormed.once _ _ ref here placed.member, rfl, present.symm⟩

/-- A tick runs the callback when it comes to the slot of the timer. -/
theorem fired_iff (wellFormed : wheel.WellFormed) (callback : entry.callback = true) :
    id ∈ wheel.tick.1 ↔ wheel.nextSlot = slot := by
  rw [mem_fired]
  constructor
  · rintro ⟨other, found, due, -, same⟩
    exact (placed.eq_of_due wellFormed due same).1
  · rintro rfl
    exact ⟨ref, entry, placed.due wellFormed, callback, (placed.named wellFormed).1⟩

/-- Until then the timer waits. -/
theorem tick (wellFormed : wheel.WellFormed) (away : wheel.nextSlot ≠ slot) :
    wheel.tick.2.Placed id slot ref entry where
  mapped := by
    refine lookup_timerMap_tick.mpr ⟨placed.mapped, ?_⟩
    intro other found due _ same
    exact away (placed.eq_of_due wellFormed due same).1
  member := mem_tick.mpr (.inl ⟨away.symm, placed.member⟩)
  stored := lookup_entries_tick.mpr
    ⟨placed.stored, .inl fun here => away (wellFormed.once _ _ ref here placed.member)⟩

/-- The entry of a repeated timer then waits for its interval again. -/
theorem tick_repeating (wellFormed : wheel.WellFormed) (now : wheel.nextSlot = slot)
    (repeats : entry.repeating = true) :
    wheel.tick.2.Placed id ((wheel.nextSlot + entry.interval) % wheel.wheelSize) ref entry := by
  have due := placed.due wellFormed
  rw [← now] at due
  refine ⟨lookup_timerMap_tick.mpr ⟨placed.mapped, ?_⟩,
    mem_tick.mpr (.inr ⟨entry, due, repeats, rfl⟩),
    lookup_entries_tick.mpr ⟨placed.stored, .inr ⟨entry, due, repeats⟩⟩⟩
  rintro other found alsoDue once same
  rw [(placed.eq_of_due wellFormed alsoDue same).2.2, repeats] at once
  cases once

/-- Any other timer is then gone. -/
theorem spent (wellFormed : wheel.WellFormed) (now : wheel.nextSlot = slot)
    (once : entry.repeating = false) : wheel.tick.2.timerMap.lookup id = none := by
  rw [Option.eq_none_iff_forall_ne_some]
  intro other remains
  have due := placed.due wellFormed
  rw [← now] at due
  exact (lookup_timerMap_tick.mp remains).2 ref entry due once (placed.named wellFormed).1

theorem schedule (wellFormed : wheel.WellFormed) {new : TimerEntry} (other : new.id ≠ id) :
    (wheel.schedule new).Placed id slot ref entry where
  mapped := (Table.lookup_set_ne _ _ other.symm).trans placed.mapped
  member := mem_schedule.mpr (.inl placed.member)
  stored := (Table.lookup_set_ne _ _ (wellFormed.lt_nextEntry placed.member).ne).trans placed.stored

theorem retire (wellFormed : wheel.WellFormed) {other otherRef : Nat} (retired : TimerEntry)
    (mapped : wheel.timerMap.lookup other = some otherRef) (different : other ≠ id) :
    (wheel.retire other otherRef retired).Placed id slot ref entry := by
  have apart : ref ≠ otherRef := by
    rintro rfl
    rcases wellFormed.entry mapped with ⟨found, present, otherNamed, -⟩
    rw [placed.stored, Option.some.injEq] at present
    subst present
    exact different (otherNamed.symm.trans (placed.named wellFormed).1)
  exact ⟨(Table.lookup_erase_ne _ different.symm).trans placed.mapped, placed.member,
    (Table.lookup_set_ne _ _ apart).trans placed.stored⟩

omit placed in
variable (wheel) in
/-- A timer is placed by its new entry. -/
theorem of_schedule (entry : TimerEntry) : (wheel.schedule entry).Placed entry.id
    ((wheel.currentSlot + entry.interval) % wheel.wheelSize) wheel.nextEntry entry where
  mapped := Table.lookup_set_self ..
  member := mem_schedule.mpr (.inr ⟨rfl, rfl⟩)
  stored := Table.lookup_set_self ..

end Placed

theorem Pending.placed {id slot : Nat} (pending : wheel.Pending id slot) :
    ∃ ref entry, wheel.Placed id slot ref entry ∧ entry.callback = true ∧
      entry.repeating = false := by
  rcases pending with ⟨ref, entry, mapped, member, stored, kept⟩
  exact ⟨ref, entry, ⟨mapped, member, stored⟩, kept⟩

theorem Placed.pending {id slot ref : Nat} {entry : TimerEntry}
    (placed : wheel.Placed id slot ref entry) (callback : entry.callback = true)
    (once : entry.repeating = false) : wheel.Pending id slot :=
  ⟨ref, entry, placed.mapped, placed.member, placed.stored, callback, once⟩

/-- A tick runs the callback of a timer that waits for its slot, -/
theorem WellFormed.fired_iff (wellFormed : wheel.WellFormed) {id slot : Nat}
    (pending : wheel.Pending id slot) : id ∈ wheel.tick.1 ↔ wheel.nextSlot = slot := by
  rcases pending.placed with ⟨ref, entry, placed, callback, -⟩
  exact placed.fired_iff wellFormed callback

/-- leaves it waiting until then, -/
theorem Pending.tick (wellFormed : wheel.WellFormed) {id slot : Nat}
    (pending : wheel.Pending id slot) (away : wheel.nextSlot ≠ slot) :
    wheel.tick.2.Pending id slot := by
  rcases pending.placed with ⟨ref, entry, placed, callback, once⟩
  exact (placed.tick wellFormed away).pending callback once

/-- and removes it after that. -/
theorem Pending.spent (wellFormed : wheel.WellFormed) {id : Nat}
    (pending : wheel.Pending id wheel.nextSlot) : wheel.tick.2.timerMap.lookup id = none := by
  rcases pending.placed with ⟨ref, entry, placed, -, once⟩
  exact placed.spent wellFormed rfl once

/-- A timer that is gone does not run its callback. -/
theorem WellFormed.not_fired (wellFormed : wheel.WellFormed) {id : Nat}
    (free : wheel.timerMap.lookup id = none) : id ∉ wheel.tick.1 := by
  rw [mem_fired]
  rintro ⟨ref, entry, due, -, named⟩
  rcases mem_due.mp due with ⟨member, stored, active⟩
  have mapped := wellFormed.current _ ref entry member stored active
  rw [named, free] at mapped
  cases mapped

theorem lookup_timerMap_tick_of_none {id : Nat} (free : wheel.timerMap.lookup id = none) :
    wheel.tick.2.timerMap.lookup id = none := by
  rw [Option.eq_none_iff_forall_ne_some]
  intro ref remains
  rw [(lookup_timerMap_tick.mp remains).1] at free
  cases free

/-- Starting a timer makes it wait for the slot after its delay. -/
theorem placed_addTimer {delay : Int} (positive : 0 < delay) (repeating : Bool) :
    (wheel.addTimer delay repeating).2.Placed (wheel.addTimer delay repeating).1
      ((wheel.currentSlot + delay.toNat) % wheel.wheelSize) wheel.nextEntry
      ⟨wheel.nextTimerId, true, repeating, delay.toNat, false⟩ := by
  simp only [addTimer, if_neg (not_le.mpr positive)]
  exact Placed.of_schedule { wheel with nextTimerId := wheel.nextTimerId + 1 } _

theorem pending_addTimer {delay : Int} (positive : 0 < delay) :
    (wheel.addTimer delay false).2.Pending (wheel.addTimer delay false).1
      ((wheel.currentSlot + delay.toNat) % wheel.wheelSize) :=
  (placed_addTimer positive false).pending rfl rfl

/-- A refreshed timer waits for its interval again, or for a new one. -/
theorem Placed.refreshTimer (wellFormed : wheel.WellFormed) {id slot ref : Nat} {entry : TimerEntry}
    (placed : wheel.Placed id slot ref entry) (delay : Int) :
    let interval := if 0 < delay then delay.toNat else entry.interval
    (wheel.refreshTimer id delay).Placed id ((wheel.currentSlot + interval) % wheel.wheelSize)
      wheel.nextEntry { entry with interval } := by
  rcases placed.named wellFormed with ⟨rfl, active⟩
  rw [refreshTimer_eq placed.mapped placed.stored rfl active]
  exact Placed.of_schedule (wheel.retire _ ref { entry with callback := false, cancelled := true }) _

theorem Pending.refreshTimer (wellFormed : wheel.WellFormed) {id slot : Nat}
    (pending : wheel.Pending id slot) {delay : Int} (positive : 0 < delay) :
    (wheel.refreshTimer id delay).Pending id
      ((wheel.currentSlot + delay.toNat) % wheel.wheelSize) := by
  rcases pending.placed with ⟨ref, entry, placed, callback, once⟩
  have renewed := placed.refreshTimer wellFormed delay
  rw [if_pos positive] at renewed
  exact renewed.pending callback once

end

/-! ## The operations of other timers -/

/-- A call to the wheel. -/
inductive Operation
  | add (delaySeconds : Int) (repeating : Bool)
  | cancel (id : Nat)
  | refresh (id : Nat) (delaySeconds : Int)

namespace Operation

def apply : Operation → TimerWheel → TimerWheel
  | add delaySeconds repeating, wheel => (wheel.addTimer delaySeconds repeating).2
  | cancel id, wheel => wheel.cancelTimer id
  | refresh id delaySeconds, wheel => wheel.refreshTimer id delaySeconds

/-- The call is not about the timer. -/
def Spares (timer : Nat) : Operation → Prop
  | add _ _ => True
  | cancel id => id ≠ timer
  | refresh id _ => id ≠ timer

variable {wheel : TimerWheel} (operation : Operation)

theorem wellFormed_apply (wellFormed : wheel.WellFormed) : (operation.apply wheel).WellFormed := by
  cases operation with
  | add delaySeconds repeating => exact wellFormed.addTimer delaySeconds repeating
  | cancel id => exact wellFormed.cancelTimer id
  | refresh id delaySeconds => exact wellFormed.refreshTimer id delaySeconds

variable (wheel) in
/-- No call turns the wheel. -/
theorem apply_slots : (operation.apply wheel).currentSlot = wheel.currentSlot ∧
    (operation.apply wheel).wheelSize = wheel.wheelSize ∧
    wheel.nextTimerId ≤ (operation.apply wheel).nextTimerId := by
  cases operation with
  | add delaySeconds repeating => exact ⟨rfl, rfl, Nat.le_succ _⟩
  | cancel id =>
      simp only [apply, cancelTimer]
      split
      · exact ⟨rfl, rfl, le_rfl⟩
      · exact ⟨rfl, rfl, le_rfl⟩
  | refresh id delaySeconds =>
      simp only [apply, refreshTimer]
      split
      · exact ⟨rfl, rfl, le_rfl⟩
      · split
        · exact ⟨rfl, rfl, le_rfl⟩
        · split
          · exact ⟨rfl, rfl, le_rfl⟩
          · exact ⟨rfl, rfl, le_rfl⟩

variable {operation} {timer : Nat}

theorem placed_apply (spares : operation.Spares timer) (wellFormed : wheel.WellFormed)
    {slot ref : Nat} {entry : TimerEntry} (placed : wheel.Placed timer slot ref entry) :
    (operation.apply wheel).Placed timer slot ref entry := by
  cases operation with
  | add delaySeconds repeating =>
      have known : timer < wheel.nextTimerId := by
        rw [← (placed.named wellFormed).1]
        exact (wellFormed.fresh ref entry placed.stored).2
      exact ⟨(Table.lookup_set_ne _ _ known.ne).trans placed.mapped,
        mem_schedule.mpr (.inl placed.member),
        (Table.lookup_set_ne _ _ (wellFormed.lt_nextEntry placed.member).ne).trans placed.stored⟩
  | cancel id =>
      change (wheel.cancelTimer id).Placed timer slot ref entry
      cases mapped : wheel.timerMap.lookup id with
      | none =>
          rw [cancelTimer_of_none mapped]
          exact placed
      | some other =>
          rcases wellFormed.entry mapped with ⟨found, stored, -, -⟩
          rw [cancelTimer_eq mapped stored]
          exact placed.retire wellFormed _ mapped spares
  | refresh id delaySeconds =>
      change (wheel.refreshTimer id delaySeconds).Placed timer slot ref entry
      cases mapped : wheel.timerMap.lookup id with
      | none =>
          rw [refreshTimer_of_none mapped]
          exact placed
      | some other =>
          rcases wellFormed.entry mapped with ⟨found, stored, named, active⟩
          rw [refreshTimer_eq mapped stored named active]
          let cancelled := { found with callback := false, cancelled := true }
          have retired : (wheel.retire id other cancelled).WellFormed :=
            wellFormed.retire mapped stored rfl rfl
          apply (placed.retire wellFormed cancelled mapped spares).schedule retired
          exact fun same => spares (named.symm.trans same)

theorem pending_apply (spares : operation.Spares timer) (wellFormed : wheel.WellFormed) {slot : Nat}
    (pending : wheel.Pending timer slot) : (operation.apply wheel).Pending timer slot := by
  rcases pending.placed with ⟨ref, entry, placed, callback, once⟩
  exact (placed_apply spares wellFormed placed).pending callback once

theorem free_apply (spares : operation.Spares timer) (wellFormed : wheel.WellFormed)
    (old : ∀ delay repeating, operation = .add delay repeating → timer ≠ wheel.nextTimerId)
    (free : wheel.timerMap.lookup timer = none) :
    (operation.apply wheel).timerMap.lookup timer = none := by
  cases operation with
  | add delaySeconds repeating => exact (Table.lookup_set_ne _ _ (old _ _ rfl)).trans free
  | cancel id =>
      change (wheel.cancelTimer id).timerMap.lookup timer = none
      cases mapped : wheel.timerMap.lookup id with
      | none =>
          rw [cancelTimer_of_none mapped]
          exact free
      | some ref =>
          rcases wellFormed.entry mapped with ⟨entry, stored, -, -⟩
          rw [cancelTimer_eq mapped stored]
          exact (Table.lookup_erase_ne _ (Ne.symm spares)).trans free
  | refresh id delaySeconds =>
      change (wheel.refreshTimer id delaySeconds).timerMap.lookup timer = none
      cases mapped : wheel.timerMap.lookup id with
      | none =>
          rw [refreshTimer_of_none mapped]
          exact free
      | some ref =>
          rcases wellFormed.entry mapped with ⟨entry, stored, named, active⟩
          rw [refreshTimer_eq mapped stored named active]
          have apart : timer ≠ entry.id := fun same => spares (named.symm.trans same.symm)
          exact (Table.lookup_set_ne _ _ apart).trans
            ((Table.lookup_erase_ne _ (Ne.symm spares)).trans free)

end Operation

end TimerWheel

end MiniS3.Net
