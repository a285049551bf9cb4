import MiniS3.Util.Bytes
import Mathlib.Data.List.TakeWhile
import Mathlib.Tactic.IntervalCases

/-!
# Numbers in texts

`std::stoi`, `std::stoll` and `std::stoull`: leading white space, an optional sign
and as many decimal digits as there are.  What follows the digits is ignored; no
digits, or a value out of range, make the call throw.
-/

namespace MiniS3.Bytes

/-- `isspace` of the C locale. -/
def isSpace (byte : UInt8) : Bool :=
  byte == 32 || (9 ≤ byte && byte ≤ 13)

/-- The sign of a number, `true` for a minus, and what follows it. -/
def splitSign : Bytes → Bool × Bytes
  | 45 :: rest => (true, rest)
  | 43 :: rest => (false, rest)
  | text => (false, text)

/-- The sign and the magnitude of the number a text begins with. -/
def leadingNumber (text : Bytes) : Option (Bool × Nat) :=
  let (negative, rest) := splitSign (text.dropWhile isSpace)
  let digits := rest.takeWhile fun byte => (digit? byte).isSome
  if digits.isEmpty then none else (decimal? digits).map (negative, ·)

/-- The signed value of the number a text begins with. -/
def leadingInt (text : Bytes) : Option Int :=
  (leadingNumber text).map fun number => if number.1 then -(number.2 : Int) else number.2

/-- `std::stoi`. -/
def stoi (text : Bytes) : Option Int :=
  (leadingInt text).filter fun value => -2 ^ 31 ≤ value ∧ value < 2 ^ 31

/-- `std::stoll`. -/
def stoll (text : Bytes) : Option Int :=
  (leadingInt text).filter fun value => -2 ^ 63 ≤ value ∧ value < 2 ^ 63

/-- `std::stoull`.  A minus sign negates the value in the unsigned type. -/
def stoull (text : Bytes) : Option Nat :=
  ((leadingNumber text).filter fun number => number.2 < 2 ^ 64).map fun number =>
    if number.1 then (2 ^ 64 - number.2) % 2 ^ 64 else number.2

/-! ## Printed numbers are read back -/

/-- The byte of a decimal digit. -/
theorem digit?_digitChar {digit : Nat} (small : digit < 10) :
    digit? (UInt8.ofNat digit.digitChar.toNat) = some digit := by
  interval_cases digit <;> rfl

theorem ofNat_eq (value : Nat) :
    ofNat value = if value < 10 then [UInt8.ofNat value.digitChar.toNat]
      else ofNat (value / 10) ++ [UInt8.ofNat (value % 10).digitChar.toNat] := by
  unfold ofNat
  rw [Nat.toDigits_eq_if (by decide)]
  split <;> simp

theorem decimal?_concat (text : Bytes) (byte : UInt8) :
    decimal? (text ++ [byte]) =
      (decimal? text).bind fun value => (digit? byte).map (value * 10 + ·) := by
  unfold decimal?
  rw [List.foldlM_append]
  simp only [List.foldlM_cons, List.foldlM_nil, Option.bind_eq_bind, Option.pure_def]
  congr 1
  funext value
  cases digit? byte <;> rfl

theorem decimal?_ofNat (value : Nat) : decimal? (ofNat value) = some value := by
  induction value using Nat.strongRecOn with
  | _ value inductionHypothesis =>
      rw [ofNat_eq]
      split
      · rename_i small
        simpa [decimal?] using digit?_digitChar small
      · rename_i large
        rw [decimal?_concat, inductionHypothesis (value / 10) (by omega), Option.bind_some,
          digit?_digitChar (Nat.mod_lt _ (by decide))]
        simp only [Option.map_some, Option.some.injEq]
        omega

theorem isSome_digit?_of_mem_ofNat {value : Nat} {byte : UInt8} (member : byte ∈ ofNat value) :
    (digit? byte).isSome := by
  induction value using Nat.strongRecOn with
  | _ value inductionHypothesis =>
      rw [ofNat_eq] at member
      split at member
      · rename_i small
        rw [List.mem_singleton] at member
        rw [member, digit?_digitChar small]
        rfl
      · rename_i large
        rcases List.mem_append.mp member with front | last
        · exact inductionHypothesis (value / 10) (by omega) front
        · rw [List.mem_singleton] at last
          rw [last, digit?_digitChar (Nat.mod_lt _ (by decide))]
          rfl

theorem ofNat_ne_nil (value : Nat) : ofNat value ≠ [] := by
  rw [ofNat_eq]
  split <;> simp

theorem ofNat_injective {first second : Nat} (same : ofNat first = ofNat second) :
    first = second := by
  have read := congrArg decimal? same
  rw [decimal?_ofNat, decimal?_ofNat] at read
  exact Option.some.inj read

/-- A digit is no white space and no sign. -/
theorem digit?_of_isSpace {byte : UInt8} (space : isSpace byte = true) : digit? byte = none := by
  simp only [isSpace, Bool.or_eq_true, beq_iff_eq, Bool.and_eq_true, decide_eq_true_eq] at space
  unfold digit?
  rw [if_neg]
  rintro ⟨low, -⟩
  rcases space with rfl | ⟨-, high⟩
  · exact absurd low (by decide)
  · exact absurd (UInt8.le_trans low high) (by decide)

/-- Nothing is skipped before a digit. -/
theorem dropWhile_isSpace_of_digits {text : Bytes} (nonempty : text ≠ [])
    (digits : ∀ byte ∈ text, (digit? byte).isSome) :
    text.dropWhile isSpace = text ∧ splitSign text = (false, text) := by
  cases text with
  | nil => contradiction
  | cons first rest =>
      have digit : (digit? first).isSome := digits first (by simp)
      constructor
      · have notSpace : ¬isSpace first = true := by
          intro space
          rw [digit?_of_isSpace space] at digit
          contradiction
        exact List.dropWhile_cons_of_neg notSpace
      · unfold splitSign
        split
        · rename_i sign
          rw [List.cons.injEq] at sign
          rw [sign.1] at digit
          exact absurd digit (by decide)
        · rename_i sign
          rw [List.cons.injEq] at sign
          rw [sign.1] at digit
          exact absurd digit (by decide)
        · rfl

theorem leadingNumber_of_digits {text : Bytes} (nonempty : text ≠ [])
    (digits : ∀ byte ∈ text, (digit? byte).isSome) :
    leadingNumber text = (decimal? text).map (false, ·) := by
  obtain ⟨drops, splits⟩ := dropWhile_isSpace_of_digits nonempty digits
  have all : text.takeWhile (fun byte => (digit? byte).isSome) = text :=
    List.takeWhile_eq_self_iff.mpr digits
  simp [leadingNumber, drops, splits, all, nonempty]

/-- `std::stoull` throws on digits exactly when their value has more than 64 bits. -/
theorem stoull_of_digits {text : Bytes} (nonempty : text ≠ [])
    (digits : ∀ byte ∈ text, (digit? byte).isSome) :
    stoull text = (decimal? text).filter (· < 2 ^ 64) := by
  rw [stoull, leadingNumber_of_digits nonempty digits]
  cases decimal? text with
  | none => rfl
  | some value =>
      rw [Option.map_some, Option.filter_some, Option.filter_some]
      by_cases small : value < 2 ^ 64 <;> simp only [small, decide_true, decide_false, if_true,
        Option.map_some, Option.map_none, Bool.false_eq_true, if_false]

theorem isSome_decimal?_of_digits {text : Bytes} (digits : ∀ byte ∈ text, (digit? byte).isSome) :
    (decimal? text).isSome := by
  suffices reads : ∀ start : Nat, (text.foldlM
      (fun value byte => (digit? byte).map (value * 10 + ·)) start).isSome from reads 0
  induction text with
  | nil => exact fun _ => rfl
  | cons byte text inductionHypothesis =>
      intro start
      obtain ⟨digit, isDigit⟩ := Option.isSome_iff_exists.mp (digits byte (by simp))
      rw [List.foldlM_cons, isDigit]
      exact inductionHypothesis (fun other member => digits other (by simp [member])) _

theorem digits_ofNat (value : Nat) :
    (ofNat value).takeWhile (fun byte => (digit? byte).isSome) = ofNat value :=
  List.takeWhile_eq_self_iff.mpr fun _ => isSome_digit?_of_mem_ofNat

/-- `std::stoll` of a printed number that fits. -/
theorem stoll_ofInt {value : Int} (low : -2 ^ 63 ≤ value) (high : value < 2 ^ 63) :
    stoll (ofInt value) = some value := by
  have read : leadingInt (ofInt value) = some value := by
    cases value with
    | ofNat value =>
        have number := leadingNumber_of_digits (ofNat_ne_nil value)
          fun _ => isSome_digit?_of_mem_ofNat
        simp [leadingInt, ofInt, number, decimal?_ofNat]
    | negSucc value =>
        have drops : (ascii "-" ++ ofNat (value + 1)).dropWhile isSpace =
            45 :: ofNat (value + 1) := rfl
        simp only [leadingInt, leadingNumber, ofInt, drops, splitSign, digits_ofNat,
          decimal?_ofNat]
        simp [ofNat_ne_nil, Int.negSucc_eq]
  rw [stoll, read, Option.filter_some, if_pos (by simpa using ⟨low, high⟩)]

theorem ofInt_injective {first second : Int} (same : ofInt first = ofInt second) :
    first = second := by
  have signed (value other : Nat) : ofNat value ≠ ascii "-" ++ ofNat other := by
    intro equal
    have digit : (digit? 45).isSome :=
      by
      refine isSome_digit?_of_mem_ofNat (?_ : 45 ∈ ofNat value)
      rw [equal]
      exact List.mem_cons_self
    exact absurd digit (by decide)
  cases first with
  | ofNat one =>
      cases second with
      | ofNat two => exact congrArg Int.ofNat (ofNat_injective same)
      | negSucc two => exact absurd same (signed one (two + 1))
  | negSucc one =>
      cases second with
      | ofNat two => exact absurd same.symm (signed two (one + 1))
      | negSucc two =>
          have equal := ofNat_injective (List.append_cancel_left same)
          exact congrArg Int.negSucc (Nat.succ.inj equal)

/-- A printed number has digits and a sign. -/
theorem mem_ofInt {value : Int} {byte : UInt8} (member : byte ∈ ofInt value) :
    byte = 45 ∨ (digit? byte).isSome := by
  cases value with
  | ofNat value => exact .inr (isSome_digit?_of_mem_ofNat member)
  | negSucc value =>
      rcases List.mem_append.mp member with sign | digits
      · exact .inl (List.mem_singleton.mp sign)
      · exact .inr (isSome_digit?_of_mem_ofNat digits)

theorem ofInt_ne_nil (value : Int) : ofInt value ≠ [] := by
  cases value with
  | ofNat value => exact ofNat_ne_nil value
  | negSucc value => simp [ofInt, ascii]

theorem not_mem_ofInt {value : Int} {byte : UInt8} (noSign : byte ≠ 45)
    (noDigit : digit? byte = none) : byte ∉ ofInt value := by
  intro member
  rcases mem_ofInt member with sign | digit
  · exact noSign sign
  · rw [noDigit] at digit
    contradiction

end MiniS3.Bytes
