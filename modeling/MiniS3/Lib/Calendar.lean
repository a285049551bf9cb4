import Mathlib

/-!
# The calendar

Seconds since the beginning of 1970 are a date and a time of day, which is found by taking off
whole days, then whole years, and then whole months.  The number of seconds can be computed back
from the date and the time with a formula for the days before a year.
-/

namespace MiniS3.Lib

/-- A date and a time of day; months count from zero and days of a month from one. -/
structure CalendarTime where
  year : Nat
  month : Nat
  day : Nat
  hour : Nat
  minute : Nat
  second : Nat
  deriving DecidableEq

namespace CalendarTime

def isLeapYear (year : Nat) : Bool :=
  year % 4 == 0 && (year % 100 != 0 || year % 400 == 0)

def daysInYear (year : Nat) : Nat :=
  if isLeapYear year then 366 else 365

theorem daysInYear_pos (year : Nat) : 0 < daysInYear year := by
  rw [daysInYear]
  split
  · decide
  · decide

def monthLengths (year : Nat) : List Nat :=
  [31, if isLeapYear year then 29 else 28, 31, 30, 31, 30, 31, 31, 30, 31, 30, 31]

/-- The days from the beginning of 1970 to the beginning of a year from then on. -/
def daysBefore (year : Nat) : Nat :=
  (year - 1970) * 365 + (year - 1969) / 4 - (year - 1901) / 100 + (year - 1601) / 400

/-- Take off years from a number of days: the year and the days that are left. -/
def splitYear (year days : Nat) : Nat × Nat :=
  if days < daysInYear year then (year, days)
  else splitYear (year + 1) (days - daysInYear year)
termination_by days
decreasing_by
  have positive := daysInYear_pos year
  omega

/-- Take off months from a number of days: the month and the days that are left. -/
def splitMonth : List Nat → Nat → Nat × Nat
  | [], days => (0, days)
  | length :: lengths, days =>
      if days < length then (0, days)
      else
        let rest := splitMonth lengths (days - length)
        (rest.1 + 1, rest.2)

/-- The date and the time of day of a number of seconds. -/
def ofSeconds (seconds : Nat) : CalendarTime :=
  let year := splitYear 1970 (seconds / 86400)
  let month := splitMonth (monthLengths year.1) year.2
  { year := year.1
    month := month.1
    day := month.2 + 1
    hour := seconds % 86400 / 3600
    minute := seconds % 3600 / 60
    second := seconds % 60 }

/-- The number of seconds of a date and a time of day. -/
def toSeconds (time : CalendarTime) : Nat :=
  (daysBefore time.year + ((monthLengths time.year).take time.month).sum + (time.day - 1)) * 86400 +
    time.hour * 3600 + time.minute * 60 + time.second

/-- A quotient goes up by one with every multiple of the divisor. -/
theorem succ_sub_div {year start divisor : Nat} (after : start ≤ year)
    (multiple : divisor ∣ start - 1) (positive : 0 < start) :
    (year + 1 - start) / divisor =
      (year - start) / divisor + if year % divisor = 0 then 1 else 0 := by
  rw [Nat.succ_sub after, Nat.succ_div]
  congr 1
  have whole : year = year - start + 1 + (start - 1) := by omega
  have same : divisor ∣ year - start + 1 ↔ year % divisor = 0 := by
    rw [← Nat.dvd_iff_mod_eq_zero, ← Nat.dvd_add_left multiple, ← whole]
  simp only [same]

theorem daysBefore_succ {year : Nat} (modern : 1970 ≤ year) :
    daysBefore (year + 1) = daysBefore year + daysInYear year := by
  have fewer : (year - 1901) / 100 ≤ (year - 1970) * 365 + (year - 1969) / 4 := by omega
  rw [daysBefore, daysBefore, succ_sub_div (by omega) (by decide) (by decide),
    succ_sub_div (by omega) (by decide) (by decide), succ_sub_div (by omega) (by decide) (by decide),
    Nat.succ_sub modern, daysInYear, isLeapYear]
  -- A year that can be divided by a hundred can be divided by four.
  by_cases four : year % 4 = 0
  · by_cases century : year % 100 = 0
    · by_cases cycle : year % 400 = 0
      · simp [four, century, cycle]
        omega
      · simp [four, century, cycle]
        omega
    · have cycle : year % 400 ≠ 0 := by omega
      simp [four, century, cycle]
      omega
  · have century : year % 100 ≠ 0 := by omega
    have cycle : year % 400 ≠ 0 := by omega
    simp [four, century, cycle]
    omega

theorem sum_monthLengths (year : Nat) : (monthLengths year).sum = daysInYear year := by
  unfold monthLengths daysInYear
  split <;> rfl

theorem splitYear_spec (year days : Nat) (modern : 1970 ≤ year) :
    daysBefore (splitYear year days).1 + (splitYear year days).2 = daysBefore year + days ∧
      (splitYear year days).2 < daysInYear (splitYear year days).1 ∧
      1970 ≤ (splitYear year days).1 := by
  induction year, days using splitYear.induct with
  | case1 year days inside =>
      rw [splitYear, if_pos inside]
      exact ⟨rfl, inside, modern⟩
  | case2 year days outside inductionHypothesis =>
      rcases inductionHypothesis (by omega) with ⟨same, inside, later⟩
      rw [splitYear, if_neg outside]
      refine ⟨?_, inside, later⟩
      rw [same, daysBefore_succ modern]
      omega

theorem splitMonth_spec (lengths : List Nat) (days : Nat) (inside : days < lengths.sum) :
    (lengths.take (splitMonth lengths days).1).sum + (splitMonth lengths days).2 = days ∧
      ∃ length, lengths[(splitMonth lengths days).1]? = some length ∧
        (splitMonth lengths days).2 < length := by
  induction lengths generalizing days with
  | nil => cases inside
  | cons length lengths inductionHypothesis =>
      rw [List.sum_cons] at inside
      rw [splitMonth]
      split
      · rename_i short
        exact ⟨by simp, length, rfl, short⟩
      · rename_i long
        rcases inductionHypothesis (days - length) (by omega) with ⟨same, last, found, short⟩
        refine ⟨?_, last, found, short⟩
        simp only [List.take_succ_cons, List.sum_cons]
        omega

/-- The fields of a date and a time of day have their usual ranges. -/
theorem ofSeconds_ranges (seconds : Nat) :
    (ofSeconds seconds).month < 12 ∧ 1 ≤ (ofSeconds seconds).day ∧ (ofSeconds seconds).day ≤ 31 ∧
      (ofSeconds seconds).hour < 24 ∧ (ofSeconds seconds).minute < 60 ∧
      (ofSeconds seconds).second < 60 := by
  rcases splitYear_spec 1970 (seconds / 86400) le_rfl with ⟨-, inside, -⟩
  rw [← sum_monthLengths] at inside
  rcases splitMonth_spec _ _ inside with ⟨-, length, found, short⟩
  have month := List.getElem?_eq_some_iff.mp found
  have longest : length ≤ 31 := by
    have member := List.mem_of_getElem? found
    simp only [monthLengths, List.mem_cons, List.not_mem_nil, or_false] at member
    split at member <;> omega
  refine ⟨month.1, Nat.succ_pos _, ?_, ?_, ?_, ?_⟩
  · simp only [ofSeconds]
    omega
  · simp only [ofSeconds]
    omega
  · simp only [ofSeconds]
    omega
  · simp only [ofSeconds]
    omega

theorem toSeconds_ofSeconds (seconds : Nat) : (ofSeconds seconds).toSeconds = seconds := by
  rcases splitYear_spec 1970 (seconds / 86400) le_rfl with ⟨years, inside, -⟩
  rw [← sum_monthLengths] at inside
  rcases splitMonth_spec _ _ inside with ⟨months, -⟩
  have start : daysBefore 1970 = 0 := rfl
  simp only [toSeconds, ofSeconds, Nat.add_sub_cancel]
  omega

/-- The year has four digits before the year 10000. -/
theorem year_ofSeconds {seconds : Nat} (early : seconds < 253402300800) :
    1970 ≤ (ofSeconds seconds).year ∧ (ofSeconds seconds).year < 10000 := by
  rcases splitYear_spec 1970 (seconds / 86400) le_rfl with ⟨years, -, modern⟩
  refine ⟨modern, ?_⟩
  change (splitYear 1970 (seconds / 86400)).1 < 10000
  have start : daysBefore 1970 = 0 := rfl
  by_contra late
  have least : 2932897 ≤ daysBefore (splitYear 1970 (seconds / 86400)).1 := by
    rw [daysBefore]
    omega
  omega

end CalendarTime

end MiniS3.Lib
