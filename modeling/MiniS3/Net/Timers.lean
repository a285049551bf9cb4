import Mathlib.Data.List.Induction
import Mathlib.Data.List.Nodup
import MiniS3.Net.TimerWheel

/-!
# The callbacks of a timer wheel

`TimerWheel` tells whether an entry has a callback.  Here it is told which one: an entry gets it
from the caller of `AddTimer`, and hands it over to the entry that takes its place when the timer
is refreshed.

A history is what happened to a wheel since it was new: which callback was given for which
timer, and which callbacks ran.
-/

namespace MiniS3.Net

open Lib
open TimerWheel (Operation Placed)

universe u

variable {κ : Type u}

/-- A wheel with the callbacks that its entries hold. -/
structure CallbackWheel (κ : Type u) where
  timers : TimerWheel
  callbacks : Table Nat κ

namespace CallbackWheel

def initial (wheelSize : Nat) : CallbackWheel κ :=
  ⟨TimerWheel.initial wheelSize, ∅⟩

/-- `TimerWheel::AddTimer`. -/
def addTimer (delaySeconds : Int) (callback : κ) (repeating : Bool) (wheel : CallbackWheel κ) :
    Nat × CallbackWheel κ :=
  let added := wheel.timers.addTimer delaySeconds repeating
  (added.1, ⟨added.2, wheel.callbacks.set wheel.timers.nextEntry callback⟩)

/-- `TimerWheel::CancelTimer`. -/
def cancelTimer (id : Nat) (wheel : CallbackWheel κ) : CallbackWheel κ :=
  { wheel with timers := wheel.timers.cancelTimer id }

/-- `TimerWheel::RefreshTimer`, with the callback moved to the new entry. -/
def refreshTimer (id : Nat) (delaySeconds : Int) (wheel : CallbackWheel κ) : CallbackWheel κ where
  timers := wheel.timers.refreshTimer id delaySeconds
  callbacks :=
    match wheel.timers.timerMap.lookup id with
    | none => wheel.callbacks
    | some ref =>
        match wheel.timers.entries.lookup ref with
        | none => wheel.callbacks
        | some entry =>
            if entry.cancelled then wheel.callbacks
            else
              match wheel.callbacks.lookup ref with
              | none => wheel.callbacks
              | some callback => (wheel.callbacks.erase ref).set wheel.timers.nextEntry callback

/-- `TimerWheel::Tick`: the timers that run with what they run, and the wheel. -/
def tick (wheel : CallbackWheel κ) : List (Nat × κ) × CallbackWheel κ :=
  ((wheel.timers.due wheel.timers.nextSlot).filterMap fun timer =>
      (wheel.callbacks.lookup timer.1).map (timer.2.id, ·),
    { timers := wheel.timers.tick.2
      callbacks := wheel.callbacks.filter fun ref _ =>
        (wheel.timers.tick.2.entries.lookup ref).isSome })

/-- The entries of a timer that are not cancelled, in whatever bucket they are. -/
def live (id : Nat) (wheel : CallbackWheel κ) : List Nat :=
  (((List.range wheel.timers.wheelSize).flatMap wheel.timers.due).filter
    fun timer => timer.2.id = id).map Prod.fst

end CallbackWheel

/-- A call to a timer wheel from outside its callbacks. -/
inductive TimerCall (κ : Type u)
  | add (delaySeconds : Int) (callback : κ) (repeating : Bool)
  | cancel (id : Nat)
  | refresh (id : Nat) (delaySeconds : Int)
  | tick

/-- A wheel, the callback and the kind of every timer that `AddTimer` returned, and the callbacks
that ran so far. -/
structure TimerHistory (κ : Type u) where
  wheel : CallbackWheel κ
  given : Table Nat (κ × Bool)
  ran : List (Nat × κ)

namespace TimerHistory

def initial (wheelSize : Nat) : TimerHistory κ :=
  ⟨.initial wheelSize, ∅, []⟩

def perform (history : TimerHistory κ) : TimerCall κ → TimerHistory κ
  | .add delaySeconds callback repeating =>
      let added := history.wheel.addTimer delaySeconds callback repeating
      { history with wheel := added.2, given := history.given.set added.1 (callback, repeating) }
  | .cancel id => { history with wheel := history.wheel.cancelTimer id }
  | .refresh id delaySeconds => { history with wheel := history.wheel.refreshTimer id delaySeconds }
  | .tick =>
      { history with wheel := history.wheel.tick.2, ran := history.ran ++ history.wheel.tick.1 }

/-- A new wheel after these calls. -/
def run (wheelSize : Nat) (calls : List (TimerCall κ)) : TimerHistory κ :=
  calls.foldl perform (initial wheelSize)

/-- How often a timer ran. -/
def runs (id : Nat) (history : TimerHistory κ) : Nat :=
  (history.ran.map Prod.fst).count id

@[simp]
theorem run_append_singleton (wheelSize : Nat) (calls : List (TimerCall κ)) (call : TimerCall κ) :
    run wheelSize (calls ++ [call]) = (run wheelSize calls).perform call := by
  simp [run]

end TimerHistory

namespace TimerWheel

variable {wheel : TimerWheel}

/-! ## Buckets -/

/-- No entry is twice in a bucket, and there are no more buckets than the wheel has. -/
structure Tidy (wheel : TimerWheel) : Prop where
  nodup : ∀ slot, (wheel.wheel slot).Nodup
  slots : ∀ slot, wheel.wheelSize ≤ slot → wheel.wheel slot = []

theorem tidy_initial (wheelSize : Nat) : (initial wheelSize).Tidy where
  nodup _ := List.nodup_nil
  slots _ _ := rfl

theorem Tidy.schedule (tidy : wheel.Tidy) (wellFormed : wheel.WellFormed) (entry : TimerEntry) :
    (wheel.schedule entry).Tidy where
  nodup := by
    intro slot
    simp only [TimerWheel.schedule, Function.update_apply]
    split
    · refine (tidy.nodup _).append (List.nodup_singleton _) ?_
      intro ref before new
      rw [List.mem_singleton.mp new] at before
      exact (wellFormed.lt_nextEntry before).ne rfl
    · exact tidy.nodup slot
  slots := by
    intro slot outside
    simp only [TimerWheel.schedule, Function.update_apply]
    split
    · rename_i target
      exact absurd (Nat.mod_lt _ wellFormed.positive) (not_lt.mpr (target ▸ outside))
    · exact tidy.slots slot outside

theorem Tidy.retire (tidy : wheel.Tidy) (id ref : Nat) (entry : TimerEntry) :
    (wheel.retire id ref entry).Tidy :=
  ⟨tidy.nodup, tidy.slots⟩

variable (wheel) in
/-- The entries of a bucket that are not cancelled come in the order of the bucket. -/
theorem due_sublist (slot : Nat) : ((wheel.due slot).map Prod.fst).Sublist (wheel.wheel slot) := by
  rw [due]
  induction wheel.wheel slot with
  | nil => exact List.Sublist.slnil
  | cons ref refs inductionHypothesis =>
      rw [List.filterMap_cons]
      split
      · exact inductionHypothesis.cons ref
      · rename_i timer found
        rcases Option.map_eq_some_iff.mp found with ⟨entry, -, rfl⟩
        exact inductionHypothesis.cons_cons ref

theorem Tidy.nodup_due (tidy : wheel.Tidy) (slot : Nat) :
    ((wheel.due slot).map Prod.fst).Nodup :=
  (tidy.nodup slot).sublist (wheel.due_sublist slot)

theorem Tidy.tick (tidy : wheel.Tidy) (wellFormed : wheel.WellFormed) : wheel.tick.2.Tidy where
  nodup := by
    intro slot
    change ((if slot = wheel.nextSlot then [] else wheel.wheel slot) ++ _).Nodup
    refine List.Nodup.append ?_ ?_ ?_
    · split
      · exact List.nodup_nil
      · exact tidy.nodup slot
    · refine (tidy.nodup_due wheel.nextSlot).sublist (List.Sublist.map _ ?_)
      exact List.filter_sublist.trans List.filter_sublist
    · intro ref before repeated
      rcases List.mem_map.mp repeated with ⟨⟨other, entry⟩, kept, rfl⟩
      have due := List.mem_of_mem_filter (List.mem_of_mem_filter kept)
      split at before
      · cases before
      · rename_i away
        exact away (wellFormed.once _ _ _ before (mem_due.mp due).1)
  slots := by
    intro slot outside
    rw [List.eq_nil_iff_forall_not_mem]
    intro ref member
    rcases mem_tick.mp member with ⟨-, before⟩ | ⟨entry, -, -, target⟩
    · rw [tidy.slots slot outside] at before
      cases before
    · exact absurd (Nat.mod_lt _ wellFormed.positive) (not_lt.mpr (target ▸ outside))

theorem Tidy.apply (tidy : wheel.Tidy) (wellFormed : wheel.WellFormed) (operation : Operation) :
    (operation.apply wheel).Tidy := by
  cases operation with
  | add delaySeconds repeating =>
      have counted : Tidy { wheel with nextTimerId := wheel.nextTimerId + 1 } :=
        ⟨tidy.nodup, tidy.slots⟩
      exact counted.schedule wellFormed.counted _
  | cancel id =>
      change (wheel.cancelTimer id).Tidy
      cases mapped : wheel.timerMap.lookup id with
      | none =>
          rw [cancelTimer_of_none mapped]
          exact tidy
      | some ref =>
          rcases wellFormed.entry mapped with ⟨entry, stored, -, -⟩
          rw [cancelTimer_eq mapped stored]
          exact tidy.retire id ref _
  | refresh id delaySeconds =>
      change (wheel.refreshTimer id delaySeconds).Tidy
      cases mapped : wheel.timerMap.lookup id with
      | none =>
          rw [refreshTimer_of_none mapped]
          exact tidy
      | some ref =>
          rcases wellFormed.entry mapped with ⟨entry, stored, named, active⟩
          rw [refreshTimer_eq mapped stored named active]
          let cancelled := { entry with callback := false, cancelled := true }
          have retired : (wheel.retire id ref cancelled).WellFormed :=
            wellFormed.retire mapped stored rfl rfl
          exact (tidy.retire id ref cancelled).schedule retired _

/-- No timer runs twice in a tick. -/
theorem Tidy.nodup_fired (tidy : wheel.Tidy) (wellFormed : wheel.WellFormed) :
    wheel.tick.1.Nodup := by
  change (((wheel.due wheel.nextSlot).filter _).map fun timer => timer.2.id).Nodup
  refine List.Nodup.map_on ?_ ((List.Nodup.of_map _ (tidy.nodup_due _)).filter _)
  rintro ⟨ref, entry⟩ first ⟨other, found⟩ second same
  rcases mem_due.mp (List.mem_of_mem_filter first) with ⟨member, stored, active⟩
  rcases mem_due.mp (List.mem_of_mem_filter second) with ⟨-, otherStored, -⟩
  have placed : wheel.Placed entry.id wheel.nextSlot ref entry :=
    ⟨wellFormed.current _ ref entry member stored active, member, stored⟩
  rcases placed.eq_of_due wellFormed (List.mem_of_mem_filter second) same.symm with ⟨-, rfl, rfl⟩
  rfl

end TimerWheel

namespace CallbackWheel

variable {wheel : CallbackWheel κ}

/-- The entries that are not cancelled are those of the timers. -/
theorem live_eq (wellFormed : wheel.timers.WellFormed) (tidy : wheel.timers.Tidy) (id : Nat) :
    wheel.live id = (wheel.timers.timerMap.lookup id).toList := by
  have all : (((List.range wheel.timers.wheelSize).flatMap wheel.timers.due).map Prod.fst).Nodup := by
    rw [List.map_flatMap, List.nodup_flatMap]
    refine ⟨fun slot _ => tidy.nodup_due slot, List.nodup_range.imp ?_⟩
    intro slot other different ref first second
    exact different (wellFormed.once _ _ ref ((wheel.timers.due_sublist slot).subset first)
      ((wheel.timers.due_sublist other).subset second))
  have own : (wheel.live id).Nodup := all.sublist (List.Sublist.map _ List.filter_sublist)
  have member : ∀ ref, ref ∈ wheel.live id ↔ wheel.timers.timerMap.lookup id = some ref := by
    intro ref
    simp only [live, List.mem_map, List.mem_filter, List.mem_flatMap, List.mem_range,
      decide_eq_true_eq]
    constructor
    · rintro ⟨⟨ref, entry⟩, ⟨⟨slot, -, due⟩, rfl⟩, rfl⟩
      rcases TimerWheel.mem_due.mp due with ⟨here, stored, active⟩
      exact wellFormed.current slot ref entry here stored active
    · intro mapped
      rcases wellFormed.placed mapped with ⟨slot, entry, placed⟩
      refine ⟨(ref, entry), ⟨⟨slot, ?_, placed.due wellFormed⟩, (placed.named wellFormed).1⟩, rfl⟩
      by_contra outside
      have filled := placed.member
      rw [tidy.slots slot (not_lt.mp outside)] at filled
      cases filled
  cases mapped : wheel.timers.timerMap.lookup id with
  | none =>
      rw [Option.toList_none, List.eq_nil_iff_forall_not_mem]
      intro ref here
      rw [member, mapped] at here
      cases here
  | some ref =>
      refine List.perm_singleton.mp
        ((List.perm_ext_iff_of_nodup own (List.nodup_singleton ref)).mpr ?_)
      intro other
      rw [member, mapped, Option.some.injEq, List.mem_singleton, eq_comm]

/-! ## The callback of an entry -/

/-- An entry that is not cancelled holds the callback that was given for its timer. -/
def Holds (given : Table Nat (κ × Bool)) (wheel : CallbackWheel κ) : Prop :=
  ∀ ref entry, wheel.timers.entries.lookup ref = some entry → entry.cancelled = false →
    entry.callback = true ∧ ∃ callback, wheel.callbacks.lookup ref = some callback ∧
      given.lookup entry.id = some (callback, entry.repeating)

section

variable {given : Table Nat (κ × Bool)}

theorem Holds.schedule {timers : TimerWheel} {callbacks : Table Nat κ}
    (holds : Holds given ⟨timers, callbacks⟩) {entry : TimerEntry} {callback : κ}
    (present : entry.callback = true)
    (known : given.lookup entry.id = some (callback, entry.repeating)) :
    Holds given ⟨timers.schedule entry, callbacks.set timers.nextEntry callback⟩ := by
  intro ref other stored active
  change (timers.entries.set timers.nextEntry entry).lookup ref = some other at stored
  change _ ∧ ∃ callback', (callbacks.set timers.nextEntry callback).lookup ref = some callback' ∧ _
  rw [Table.lookup_set] at stored ⊢
  split at stored
  · rename_i new
    cases stored
    rw [if_pos new]
    exact ⟨present, callback, rfl, known⟩
  · rename_i before
    rw [if_neg before]
    exact holds ref other stored active

theorem Holds.retire (holds : Holds given wheel) {id ref : Nat} {entry : TimerEntry}
    (cancelled : entry.cancelled = true) {callbacks : Table Nat κ}
    (kept : ∀ other, other ≠ ref → callbacks.lookup other = wheel.callbacks.lookup other) :
    Holds given ⟨wheel.timers.retire id ref entry, callbacks⟩ := by
  intro other found stored active
  change (wheel.timers.entries.set ref entry).lookup other = some found at stored
  change _ ∧ ∃ callback, callbacks.lookup other = some callback ∧ _
  rw [Table.lookup_set] at stored
  split at stored
  · cases stored
    rw [cancelled] at active
    cases active
  · rename_i different
    rw [kept other different]
    exact holds other found stored active

/-- A callback for another timer changes nothing. -/
theorem Holds.set_given (holds : Holds given wheel) {id : Nat} {value : κ × Bool}
    (fresh : ∀ ref entry, wheel.timers.entries.lookup ref = some entry → entry.id ≠ id) :
    Holds (given.set id value) wheel := by
  intro ref entry stored active
  rw [Table.lookup_set_ne _ _ (fresh ref entry stored)]
  exact holds ref entry stored active

theorem Holds.cancelTimer (holds : Holds given wheel) (wellFormed : wheel.timers.WellFormed)
    (id : Nat) : Holds given (wheel.cancelTimer id) := by
  rw [CallbackWheel.cancelTimer]
  cases mapped : wheel.timers.timerMap.lookup id with
  | none =>
      rw [TimerWheel.cancelTimer_of_none mapped]
      exact holds
  | some ref =>
      rcases wellFormed.entry mapped with ⟨entry, stored, -, -⟩
      rw [TimerWheel.cancelTimer_eq mapped stored]
      exact holds.retire rfl fun _ _ => rfl

theorem Holds.refreshTimer (holds : Holds given wheel) (wellFormed : wheel.timers.WellFormed)
    (id : Nat) (delaySeconds : Int) : Holds given (wheel.refreshTimer id delaySeconds) := by
  rw [CallbackWheel.refreshTimer]
  cases mapped : wheel.timers.timerMap.lookup id with
  | none =>
      rw [TimerWheel.refreshTimer_of_none mapped]
      exact holds
  | some ref =>
      rcases wellFormed.entry mapped with ⟨entry, stored, named, active⟩
      rcases holds ref entry stored active with ⟨present, callback, held, known⟩
      rw [TimerWheel.refreshTimer_eq mapped stored named active]
      simp only [stored, active, held, Bool.false_eq_true, if_false]
      let cancelled := { entry with callback := false, cancelled := true }
      have retired : Holds given
          ⟨wheel.timers.retire id ref cancelled, wheel.callbacks.erase ref⟩ :=
        holds.retire rfl fun _ different => Table.lookup_erase_ne _ different
      exact retired.schedule present known

theorem Holds.tick (holds : Holds given wheel) : Holds given wheel.tick.2 := by
  intro ref entry stored active
  rcases holds ref entry (TimerWheel.lookup_entries_tick.mp stored).1 active with
    ⟨present, callback, held, known⟩
  refine ⟨present, callback, ?_, known⟩
  change wheel.timers.tick.2.entries.lookup ref = some entry at stored
  change (wheel.callbacks.filter _).lookup ref = some callback
  rw [Table.lookup_filter, held, Option.filter_some, stored]
  rfl

/-- The timers that run are those of the wheel. -/
theorem Holds.map_fst_tick (holds : Holds given wheel) :
    wheel.tick.1.map Prod.fst = wheel.timers.tick.1 := by
  have present : ∀ timer ∈ wheel.timers.due wheel.timers.nextSlot, timer.2.callback = true := by
    rintro ⟨ref, entry⟩ due
    rcases TimerWheel.mem_due.mp due with ⟨-, stored, active⟩
    exact (holds ref entry stored active).1
  have held : ∀ timer ∈ wheel.timers.due wheel.timers.nextSlot,
      ((wheel.callbacks.lookup timer.1).map (timer.2.id, ·)).map Prod.fst = some timer.2.id := by
    rintro ⟨ref, entry⟩ due
    rcases TimerWheel.mem_due.mp due with ⟨-, stored, active⟩
    rcases holds ref entry stored active with ⟨-, callback, here, -⟩
    rw [here]
    rfl
  change List.map _ (List.filterMap _ _) = ((wheel.timers.due wheel.timers.nextSlot).filter _).map _
  rw [List.map_filterMap, List.filterMap_congr held, List.filterMap_eq_map',
    List.filter_eq_self.mpr present]

/-- What runs is what was given. -/
theorem Holds.mem_tick (holds : Holds given wheel) {id : Nat} {callback : κ} :
    (id, callback) ∈ wheel.tick.1 ↔ id ∈ wheel.timers.tick.1 ∧
      ∃ repeating, given.lookup id = some (callback, repeating) := by
  rw [TimerWheel.mem_fired]
  change (id, callback) ∈ List.filterMap _ _ ↔ _
  simp only [List.mem_filterMap, Option.map_eq_some_iff, Prod.exists, Prod.mk.injEq]
  constructor
  · rintro ⟨ref, entry, due, found, here, rfl, rfl⟩
    rcases TimerWheel.mem_due.mp due with ⟨-, stored, active⟩
    rcases holds ref entry stored active with ⟨present, callback, held, known⟩
    rw [here, Option.some.injEq] at held
    subst held
    exact ⟨⟨ref, entry, due, present, rfl⟩, entry.repeating, known⟩
  · rintro ⟨⟨ref, entry, due, -, rfl⟩, repeating, given'⟩
    rcases TimerWheel.mem_due.mp due with ⟨-, stored, active⟩
    rcases holds ref entry stored active with ⟨-, other, held, known⟩
    rw [given', Option.some.injEq, Prod.mk.injEq] at known
    exact ⟨ref, entry, due, other, held, rfl, known.1.symm⟩

end

end CallbackWheel

/-! ## A history -/

namespace TimerHistory

/-- What is kept of a history: what ran was given, and a timer that does not repeat and that is
still there has not run. -/
structure Sound (history : TimerHistory κ) : Prop where
  wellFormed : history.wheel.timers.WellFormed
  tidy : history.wheel.timers.Tidy
  holds : history.wheel.Holds history.given
  given_lt : ∀ id, (history.given.lookup id).isSome → id < history.wheel.timers.nextTimerId
  ran : ∀ id callback, (id, callback) ∈ history.ran →
    ∃ repeating, history.given.lookup id = some (callback, repeating)
  once : ∀ id callback, history.given.lookup id = some (callback, false) →
    history.runs id + (history.wheel.timers.timerMap.lookup id).toList.length ≤ 1

theorem sound_initial {wheelSize : Nat} (positive : 0 < wheelSize) :
    (initial wheelSize : TimerHistory κ).Sound where
  wellFormed := TimerWheel.wellFormed_initial positive
  tidy := TimerWheel.tidy_initial wheelSize
  holds := by
    intro ref entry stored
    cases stored
  given_lt := by
    intro id known
    cases known
  ran := by
    intro id callback ran
    cases ran
  once := by
    intro id callback known
    cases known

variable {history : TimerHistory κ}

/-- A timer that was never given did not run. -/
theorem Sound.runs_eq_zero (sound : history.Sound) {id : Nat}
    (unknown : history.given.lookup id = none) : history.runs id = 0 := by
  rw [runs, List.count_eq_zero]
  intro member
  rcases List.mem_map.mp member with ⟨⟨id, callback⟩, ran, rfl⟩
  rcases sound.ran id callback ran with ⟨repeating, known⟩
  rw [unknown] at known
  cases known

theorem Sound.lookup_nextTimerId (sound : history.Sound) :
    history.given.lookup history.wheel.timers.nextTimerId = none := by
  rw [← Option.not_isSome_iff_eq_none]
  intro known
  exact (sound.given_lt _ known).ne rfl

/-- A timer that is gone is not brought back, by whatever call. -/
theorem free_operation {wheel : TimerWheel} (wellFormed : wheel.WellFormed) (operation : Operation)
    {id : Nat} (old : id ≠ wheel.nextTimerId) (free : wheel.timerMap.lookup id = none) :
    (operation.apply wheel).timerMap.lookup id = none := by
  by_cases spares : operation.Spares id
  · exact Operation.free_apply spares wellFormed (fun _ _ _ => old) free
  cases operation with
  | add delaySeconds repeating => exact absurd trivial spares
  | cancel other =>
      cases not_not.mp spares
      change (wheel.cancelTimer id).timerMap.lookup id = none
      rw [TimerWheel.cancelTimer_of_none free]
      exact free
  | refresh other delaySeconds =>
      cases not_not.mp spares
      change (wheel.refreshTimer id delaySeconds).timerMap.lookup id = none
      rw [TimerWheel.refreshTimer_of_none free]
      exact free

/-- What no call but a tick changes. -/
theorem Sound.operate (sound : history.Sound) (operation : Operation) {wheel : CallbackWheel κ}
    {given : Table Nat (κ × Bool)} (moved : wheel.timers = operation.apply history.wheel.timers)
    (holds : wheel.Holds given)
    (given_lt : ∀ id, (given.lookup id).isSome → id < wheel.timers.nextTimerId)
    (kept : ∀ id, (history.given.lookup id).isSome → given.lookup id = history.given.lookup id) :
    (⟨wheel, given, history.ran⟩ : TimerHistory κ).Sound where
  wellFormed := moved ▸ operation.wellFormed_apply sound.wellFormed
  tidy := moved ▸ sound.tidy.apply sound.wellFormed operation
  holds := holds
  given_lt := given_lt
  ran := by
    intro id callback ran
    rcases sound.ran id callback ran with ⟨repeating, known⟩
    exact ⟨repeating, (kept id (by simp [known])).trans known⟩
  once := by
    intro id callback known
    change history.runs id + (wheel.timers.timerMap.lookup id).toList.length ≤ 1
    cases before : history.given.lookup id with
    | none =>
        rw [sound.runs_eq_zero before]
        cases wheel.timers.timerMap.lookup id <;> simp
    | some value =>
        have same := kept id (by simp [before])
        have least := sound.once id callback (same.symm.trans known)
        cases mapped : history.wheel.timers.timerMap.lookup id with
        | none =>
            rw [moved, free_operation sound.wellFormed operation
              (sound.given_lt id (by simp [before])).ne mapped]
            exact (Nat.add_le_add_left (by simp) _).trans least
        | some ref =>
            rw [mapped] at least
            refine (Nat.add_le_add_left ?_ _).trans least
            cases wheel.timers.timerMap.lookup id <;> simp

theorem Sound.add (sound : history.Sound) (delaySeconds : Int) (callback : κ) (repeating : Bool) :
    (history.perform (.add delaySeconds callback repeating)).Sound := by
  have unknown := sound.lookup_nextTimerId
  refine sound.operate (.add delaySeconds repeating) rfl ?_ ?_ ?_
  · have fresh : CallbackWheel.Holds
        (history.given.set history.wheel.timers.nextTimerId (callback, repeating)) history.wheel :=
      sound.holds.set_given fun ref entry stored =>
        (sound.wellFormed.fresh ref entry stored).2.ne
    exact @CallbackWheel.Holds.schedule _ _
      { history.wheel.timers with nextTimerId := history.wheel.timers.nextTimerId + 1 }
      _ fresh _ _ rfl (Table.lookup_set_self ..)
  · intro id known
    change ((history.given.set history.wheel.timers.nextTimerId (callback, repeating)).lookup
      id).isSome at known
    change id < history.wheel.timers.nextTimerId + 1
    rw [Table.lookup_set] at known
    split at known
    · rename_i new
      exact new ▸ Nat.lt_succ_self _
    · exact Nat.lt_succ_of_lt (sound.given_lt id known)
  · intro id known
    exact Table.lookup_set_ne _ _ (sound.given_lt id known).ne

theorem Sound.cancel (sound : history.Sound) (id : Nat) :
    (history.perform (.cancel id)).Sound := by
  refine sound.operate (.cancel id) rfl (sound.holds.cancelTimer sound.wellFormed id) ?_
    fun _ _ => rfl
  intro other known
  exact (sound.given_lt other known).trans_le
    ((Operation.cancel id).apply_slots history.wheel.timers).2.2

theorem Sound.refresh (sound : history.Sound) (id : Nat) (delaySeconds : Int) :
    (history.perform (.refresh id delaySeconds)).Sound := by
  refine sound.operate (.refresh id delaySeconds) rfl
    (sound.holds.refreshTimer sound.wellFormed id delaySeconds) ?_ fun _ _ => rfl
  intro other known
  exact (sound.given_lt other known).trans_le
    ((Operation.refresh id delaySeconds).apply_slots history.wheel.timers).2.2

/-- A tick adds the timers that run. -/
theorem Sound.runs_tick (sound : history.Sound) (id : Nat) :
    (history.perform .tick).runs id = history.runs id + history.wheel.timers.tick.1.count id := by
  rw [← sound.holds.map_fst_tick, runs, runs, perform, List.map_append, List.count_append]

theorem Sound.tick (sound : history.Sound) : (history.perform .tick).Sound where
  wellFormed := sound.wellFormed.tick
  tidy := sound.tidy.tick sound.wellFormed
  holds := sound.holds.tick
  given_lt := sound.given_lt
  ran := by
    intro id callback ran
    rcases List.mem_append.mp ran with before | now
    · exact sound.ran id callback before
    · exact (sound.holds.mem_tick.mp now).2
  once := by
    intro id callback known
    have least := sound.once id callback known
    rw [sound.runs_tick]
    change _ + (history.wheel.timers.tick.2.timerMap.lookup id).toList.length ≤ 1
    cases mapped : history.wheel.timers.timerMap.lookup id with
    | none =>
        rw [List.count_eq_zero.mpr (sound.wellFormed.not_fired mapped),
          TimerWheel.lookup_timerMap_tick_of_none mapped]
        exact (Nat.add_le_add_left (by simp) _).trans least
    | some ref =>
        rw [mapped] at least
        rcases sound.wellFormed.placed mapped with ⟨slot, entry, placed⟩
        rcases placed.named sound.wellFormed with ⟨rfl, active⟩
        rcases sound.holds ref entry placed.stored active with ⟨present, other, -, given⟩
        have single : entry.repeating = false :=
          (Prod.mk.inj (Option.some.inj (given.symm.trans known))).2
        by_cases now : history.wheel.timers.nextSlot = slot
        · -- It runs now, and is gone.
          rw [placed.spent sound.wellFormed now single]
          have once := List.nodup_iff_count_le_one.mp (sound.tidy.nodup_fired sound.wellFormed)
            entry.id
          simp only [Option.toList_some, List.length_singleton, Option.toList_none,
            List.length_nil] at least ⊢
          omega
        · have waits := mt (placed.fired_iff sound.wellFormed present).mp now
          rw [List.count_eq_zero.mpr waits, (placed.tick sound.wellFormed now).mapped]
          exact least

theorem Sound.perform (sound : history.Sound) (call : TimerCall κ) :
    (history.perform call).Sound := by
  cases call with
  | add delaySeconds callback repeating => exact sound.add delaySeconds callback repeating
  | cancel id => exact sound.cancel id
  | refresh id delaySeconds => exact sound.refresh id delaySeconds
  | tick => exact sound.tick

theorem sound_run {wheelSize : Nat} (positive : 0 < wheelSize) (calls : List (TimerCall κ)) :
    (run wheelSize calls).Sound := by
  induction calls using List.reverseRecOn with
  | nil => exact sound_initial positive
  | append_singleton calls call inductionHypothesis =>
      rw [run_append_singleton]
      exact inductionHypothesis.perform call

/-! ## A timer that is gone -/

/-- The timer was returned by `AddTimer` and is no longer there. -/
structure Gone (id : Nat) (history : TimerHistory κ) : Prop where
  known : id < history.wheel.timers.nextTimerId
  free : history.wheel.timers.timerMap.lookup id = none

theorem Gone.perform (sound : history.Sound) {id : Nat} (gone : history.Gone id)
    (call : TimerCall κ) :
    (history.perform call).Gone id ∧ (history.perform call).runs id = history.runs id := by
  have operate : ∀ operation : Operation,
      id < (operation.apply history.wheel.timers).nextTimerId ∧
        (operation.apply history.wheel.timers).timerMap.lookup id = none := by
    intro operation
    exact ⟨gone.known.trans_le (operation.apply_slots history.wheel.timers).2.2,
      free_operation sound.wellFormed operation gone.known.ne gone.free⟩
  cases call with
  | add delaySeconds callback repeating =>
      exact ⟨⟨(operate (.add delaySeconds repeating)).1, (operate (.add delaySeconds repeating)).2⟩,
        rfl⟩
  | cancel other => exact ⟨⟨(operate (.cancel other)).1, (operate (.cancel other)).2⟩, rfl⟩
  | refresh other delaySeconds =>
      exact ⟨⟨(operate (.refresh other delaySeconds)).1, (operate (.refresh other delaySeconds)).2⟩,
        rfl⟩
  | tick =>
      refine ⟨⟨gone.known, TimerWheel.lookup_timerMap_tick_of_none gone.free⟩, ?_⟩
      rw [sound.runs_tick, List.count_eq_zero.mpr (sound.wellFormed.not_fired gone.free),
        Nat.add_zero]

theorem Gone.foldl (sound : history.Sound) {id : Nat} (gone : history.Gone id)
    (calls : List (TimerCall κ)) :
    (calls.foldl TimerHistory.perform history).runs id = history.runs id := by
  induction calls generalizing history with
  | nil => rfl
  | cons call calls inductionHypothesis =>
      rcases gone.perform sound call with ⟨still, same⟩
      exact (inductionHypothesis (sound.perform call) still).trans same

/-- A cancelled timer is gone. -/
theorem Sound.gone_cancel (sound : history.Sound) {id : Nat}
    (known : (history.given.lookup id).isSome) : (history.perform (.cancel id)).Gone id where
  known := (sound.given_lt id known).trans_le
    ((Operation.cancel id).apply_slots history.wheel.timers).2.2
  free := sound.wellFormed.lookup_cancelTimer id

/-- Whatever is called, the timers of the wheel are those of its entries that are not cancelled,
one entry each, which holds the callback that was given; so what runs is what was given, a timer
that does not repeat runs once at most, and a timer that was cancelled does not run. -/
theorem timers_are_kept {wheelSize : Nat} (positive : 0 < wheelSize) :
    (∀ calls : List (TimerCall κ),
      let history := run wheelSize calls
      (∀ id, history.wheel.live id = (history.wheel.timers.timerMap.lookup id).toList) ∧
      (∀ id ref, history.wheel.timers.timerMap.lookup id = some ref →
        ∃ callback repeating, history.given.lookup id = some (callback, repeating) ∧
          history.wheel.callbacks.lookup ref = some callback) ∧
      (∀ id callback, (id, callback) ∈ history.ran →
        ∃ repeating, history.given.lookup id = some (callback, repeating)) ∧
      ∀ id callback, history.given.lookup id = some (callback, false) → history.runs id ≤ 1) ∧
    ∀ (before after : List (TimerCall κ)) (id : Nat),
      ((run wheelSize before).given.lookup id).isSome →
        (run wheelSize (before ++ .cancel id :: after)).runs id = (run wheelSize before).runs id := by
  constructor
  · intro calls history
    have sound : history.Sound := sound_run positive calls
    refine ⟨CallbackWheel.live_eq sound.wellFormed sound.tidy, ?_, sound.ran, ?_⟩
    · intro id ref mapped
      rcases sound.wellFormed.entry mapped with ⟨entry, stored, rfl, active⟩
      rcases sound.holds ref entry stored active with ⟨-, callback, held, known⟩
      exact ⟨callback, entry.repeating, known, held⟩
    · intro id callback known
      exact (Nat.le_add_right _ _).trans (sound.once id callback known)
  · intro before after id known
    have sound : (run wheelSize before).Sound := sound_run positive before
    rw [run, List.foldl_append, List.foldl_cons]
    exact (sound.gone_cancel known).foldl (sound.cancel id) after

/-- A wheel of one slot whose timer is refreshed and cancelled. -/
theorem timers_are_kept_one :
    0 < 1 ∧ (run 1 [.add 3 'a' false, .refresh 1 5, .tick, .cancel 1, .tick]).runs 1 =
      (run 1 [.add 3 'a' false, .refresh 1 5, .tick]).runs 1 :=
  ⟨Nat.one_pos, (timers_are_kept Nat.one_pos).2 [.add 3 'a' false, .refresh 1 5, .tick] [.tick] 1 rfl⟩

end TimerHistory

end MiniS3.Net
