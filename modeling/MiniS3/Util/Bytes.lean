import Mathlib.Algebra.GroupWithZero.Nat
import Mathlib.Data.List.Basic
import Mathlib.Data.List.TakeWhile

/-!
# Byte strings

The program works on `std::string` values, which hold arbitrary bytes.  A byte
string is a list of bytes, and this file gives the few operations of the standard
library the program uses on them.
-/

namespace MiniS3

/-- The value of a `std::string`. -/
abbrev Bytes :=
  List UInt8

/-- The bytes of an ASCII literal. -/
def ascii (text : String) : Bytes :=
  text.toList.map fun character => UInt8.ofNat character.toNat

namespace Bytes

/-- The text before the first of some byte, and the text after it, are determined. -/
theorem eq_of_append_cons {byte : UInt8} {first second rest others : Bytes}
    (notInFirst : byte ∉ first) (notInSecond : byte ∉ second)
    (same : first ++ byte :: rest = second ++ byte :: others) :
    first = second ∧ rest = others := by
  induction first generalizing second with
  | nil =>
      cases second with
      | nil => exact ⟨rfl, (List.cons.inj same).2⟩
      | cons head tail =>
          obtain ⟨rfl, -⟩ := List.cons.inj same
          exact absurd List.mem_cons_self notInSecond
  | cons head tail inductionHypothesis =>
      cases second with
      | nil =>
          obtain ⟨rfl, -⟩ := List.cons.inj same
          exact absurd List.mem_cons_self notInFirst
      | cons other tailOther =>
          obtain ⟨rfl, sameTail⟩ := List.cons.inj same
          obtain ⟨rfl, equal⟩ := inductionHypothesis
            (fun member => notInFirst (List.mem_cons_of_mem _ member))
            (fun member => notInSecond (List.mem_cons_of_mem _ member)) sameTail
          exact ⟨rfl, equal⟩

/-- The text after the last of some byte, and the text before it, are determined. -/
theorem eq_of_append_cons_last {byte : UInt8} {first second rest others : Bytes}
    (notInRest : byte ∉ rest) (notInOthers : byte ∉ others)
    (same : first ++ byte :: rest = second ++ byte :: others) :
    first = second ∧ rest = others := by
  have reversed := congrArg List.reverse same
  simp only [List.reverse_append, List.reverse_cons, List.append_assoc,
    List.singleton_append] at reversed
  obtain ⟨ends, fronts⟩ := eq_of_append_cons (by simpa using notInRest)
    (by simpa using notInOthers) reversed
  exact ⟨List.reverse_injective fronts, List.reverse_injective ends⟩

/-- What a `std::string` takes of a C string: the bytes before the first NUL. -/
def cString (text : Bytes) : Bytes :=
  text.takeWhile fun byte => byte ≠ 0

theorem zero_notMem_cString (text : Bytes) : 0 ∉ cString text := by
  intro member
  have nonzero := List.mem_takeWhile_imp member
  simp at nonzero

/-- A text without a NUL is taken whole. -/
@[simp]
theorem cString_eq_self_iff {text : Bytes} : cString text = text ↔ 0 ∉ text := by
  rw [cString, List.takeWhile_eq_self_iff]
  constructor
  · intro nonzero member
    simpa using nonzero 0 member
  · intro absent byte member
    simp only [ne_eq, decide_eq_true_eq]
    rintro rfl
    exact absent member

/-- `std::string::find`: the offset of the first occurrence of `needle`. -/
def find (needle : Bytes) : Bytes → Option Nat
  | [] => if needle.isEmpty then some 0 else none
  | first :: rest =>
      if needle.isPrefixOf (first :: rest) then some 0
      else (find needle rest).map (· + 1)

/-- The first of several occurrences. -/
example : find [2] [1, 2, 2] = some 1 := by
  simp [find]

/-- `find(needle) != npos`. -/
def contains (haystack needle : Bytes) : Bool :=
  (find needle haystack).isSome

theorem contains_of_prefix (needle rest : Bytes) : contains (needle ++ rest) needle = true := by
  unfold contains
  cases split : needle ++ rest with
  | nil =>
      obtain ⟨rfl, -⟩ := List.append_eq_nil_iff.mp split
      rfl
  | cons first tail =>
      have leading : needle.isPrefixOf (first :: tail) = true := by
        rw [← split, List.isPrefixOf_iff_prefix]
        exact List.prefix_append needle rest
      simp [find, leading]

/-- An occurrence that was found splits the text. -/
theorem eq_append_of_find {needle haystack : Bytes} {position : Nat}
    (found : find needle haystack = some position) :
    haystack = haystack.take position ++ needle ++ haystack.drop (position + needle.length) := by
  induction haystack generalizing position with
  | nil =>
      cases needle with
      | nil => simp
      | cons first rest => simp [find] at found
  | cons byte tail inductionHypothesis =>
      simp only [find] at found
      split at found
      · obtain rfl := Option.some.inj found
        rename_i leading
        obtain ⟨rest, split⟩ := List.isPrefixOf_iff_prefix.mp leading
        rw [← split]
        simp
      · obtain ⟨before, foundTail, rfl⟩ := Option.map_eq_some_iff.mp found
        have step : before + 1 + needle.length = before + needle.length + 1 := by omega
        rw [step]
        simpa using inductionHypothesis foundTail

theorem length_le_of_find {needle haystack : Bytes} {position : Nat}
    (found : find needle haystack = some position) :
    position + needle.length ≤ haystack.length := by
  induction haystack generalizing position with
  | nil =>
      cases needle with
      | nil => simpa [find, eq_comm] using found
      | cons first rest => simp [find] at found
  | cons byte tail inductionHypothesis =>
      simp only [find] at found
      split at found
      · rename_i leading
        obtain rfl := Option.some.inj found
        simpa using (List.isPrefixOf_iff_prefix.mp leading).length_le
      · obtain ⟨before, foundTail, rfl⟩ := Option.map_eq_some_iff.mp found
        have room := inductionHypothesis foundTail
        simp only [List.length_cons]
        omega

theorem find_append_self {needle : Bytes} (before rest : Bytes) :
    (find needle (before ++ needle ++ rest)).isSome := by
  induction before with
  | nil => exact contains_of_prefix needle rest
  | cons byte tail inductionHypothesis =>
      simp only [List.cons_append, find]
      split
      · rfl
      · simpa using inductionHypothesis

/-- The first of some byte is found where it stands. -/
theorem find_singleton {byte : UInt8} {before : Bytes} (absent : byte ∉ before) (rest : Bytes) :
    find [byte] (before ++ byte :: rest) = some before.length := by
  induction before with
  | nil => simp [find]
  | cons head tail inductionHypothesis =>
      rw [List.mem_cons, not_or] at absent
      have notHere : ([byte].isPrefixOf (head :: (tail ++ byte :: rest))) = false := by
        simp [List.isPrefixOf, absent.1]
      rw [List.cons_append, find, notHere, inductionHypothesis absent.2]
      simp

/-- A text holds a string exactly when it splits around it. -/
theorem contains_iff {haystack needle : Bytes} :
    contains haystack needle = true ↔ ∃ before rest, haystack = before ++ needle ++ rest := by
  constructor
  · intro contained
    obtain ⟨position, found⟩ := Option.isSome_iff_exists.mp contained
    exact ⟨_, _, eq_append_of_find found⟩
  · rintro ⟨before, rest, rfl⟩
    exact find_append_self before rest

/-- The text before the first occurrence does not hold the string. -/
theorem contains_take_of_find {needle haystack : Bytes} {position : Nat}
    (nonempty : needle ≠ []) (found : find needle haystack = some position) :
    contains (haystack.take position) needle = false := by
  induction haystack generalizing position with
  | nil => cases needle <;> simp [find] at found nonempty
  | cons byte tail inductionHypothesis =>
      simp only [find] at found
      split at found
      · obtain rfl := Option.some.inj found
        simp [contains, find, nonempty]
      · rename_i notLeading
        obtain ⟨before, foundTail, rfl⟩ := Option.map_eq_some_iff.mp found
        have rest := inductionHypothesis foundTail
        simp only [contains, List.take_succ_cons, find]
        rw [if_neg]
        · simpa [contains] using rest
        · intro leading
          refine notLeading (List.isPrefixOf_iff_prefix.mpr ?_)
          exact (List.isPrefixOf_iff_prefix.mp leading).trans
            (by simpa using List.take_prefix (before + 1) (byte :: tail))

/-- What is found is found again when more bytes follow. -/
theorem find_append_of_some {needle haystack : Bytes} {position : Nat}
    (found : find needle haystack = some position) (more : Bytes) :
    find needle (haystack ++ more) = some position := by
  induction haystack generalizing position with
  | nil =>
      cases needle with
      | nil =>
          obtain rfl : 0 = position := by simpa [find] using found
          cases more <;> simp [find]
      | cons first rest => simp [find] at found
  | cons byte tail inductionHypothesis =>
      simp only [find] at found
      simp only [List.cons_append, find]
      split at found
      · rename_i leading
        have stillLeading : needle.isPrefixOf (byte :: (tail ++ more)) = true := by
          rw [List.isPrefixOf_iff_prefix] at leading ⊢
          exact leading.trans (List.prefix_append (byte :: tail) more)
        rw [if_pos stillLeading, found]
      · rename_i notLeading
        obtain ⟨before, foundTail, rfl⟩ := Option.map_eq_some_iff.mp found
        rw [inductionHypothesis foundTail]
        have stillNot : ¬needle.isPrefixOf (byte :: (tail ++ more)) = true := by
          intro leading
          have room := length_le_of_find foundTail
          rw [List.isPrefixOf_iff_prefix] at leading notLeading
          refine notLeading (List.prefix_of_prefix_length_le leading
            (List.prefix_append (byte :: tail) more) ?_)
          simp only [List.length_cons]
          omega
        rw [if_neg stillNot]
        rfl

/-- An occurrence that more bytes bring about reaches into them. -/
theorem length_lt_of_find_append {needle haystack more : Bytes} {position : Nat}
    (absent : find needle haystack = none)
    (found : find needle (haystack ++ more) = some position) :
    haystack.length < position + needle.length := by
  by_contra within
  have split := eq_append_of_find found
  have front : haystack.take (position + needle.length) =
      (haystack ++ more).take position ++ needle := by
    have taken := congrArg (List.take (position + needle.length)) split
    rw [List.take_append_of_le_length (by omega)] at taken
    rw [taken, List.take_left']
    simp only [List.length_append, List.length_take]
    omega
  have contained : contains haystack needle = true := by
    refine contains_iff.mpr ⟨(haystack ++ more).take position,
      haystack.drop (position + needle.length), ?_⟩
    rw [← front, List.take_append_drop]
  simp [contains, absent] at contained

/-- `std::tolower` of the C locale on every byte. -/
def toLower (text : Bytes) : Bytes :=
  text.map fun byte => if 65 ≤ byte ∧ byte ≤ 90 then byte + 32 else byte

/-- The value of a decimal digit. -/
def digit? (byte : UInt8) : Option Nat :=
  if 48 ≤ byte ∧ byte ≤ 57 then some (byte.toNat - 48) else none

/-- The value of a text that consists of decimal digits. -/
def decimal? (text : Bytes) : Option Nat :=
  text.foldlM (fun value byte => (digit? byte).map (value * 10 + ·)) 0

/-- `std::from_chars` into a `size_t`, when it accepts the whole text: at least one
digit, nothing but digits, and a value of 64 bits. -/
def fromChars (text : Bytes) : Option Nat :=
  if text.isEmpty then none
  else (decimal? text).filter (· < 2 ^ 64)

/-- `std::to_string` of an unsigned value. -/
def ofNat (value : Nat) : Bytes :=
  (Nat.toDigits 10 value).map fun digit => UInt8.ofNat digit.toNat

/-- `std::to_string` of a signed value. -/
def ofInt : Int → Bytes
  | .ofNat value => ofNat value
  | .negSucc value => ascii "-" ++ ofNat (value + 1)

end Bytes

end MiniS3
