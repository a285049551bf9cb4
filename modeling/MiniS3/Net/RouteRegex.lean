import MiniS3.Net.HttpRouter

/-!
# The regular expressions of routes

`CompilePattern` does not work with pieces: it writes the text of a regular expression, with a
backslash before most of the characters that mean something there, and leaves the rest to
`std::regex`.  This file has that text, and reads it as ECMAScript does.  For a pattern
without the characters that are left unescaped the two agree: the text stands for the pieces
that the router works with.
-/

namespace MiniS3.Net

open Lib

/-- The characters that get a backslash. -/
def isEscaped (byte : UInt8) : Bool :=
  byte ∈ ascii ".+?()[]$^"

/-- What `CompilePattern` writes for a character that is neither a brace nor inside braces. -/
def regexOfByte (byte : UInt8) : Bytes :=
  if byte = 42 then ascii "(.*)"
  else if isEscaped byte then [92, byte]
  else [byte]

/-- What `CompilePattern` writes between the anchors, with the name that is being read when the
position is inside braces. -/
def regexFrom : Option Bytes → Bytes → Option (Bytes × List Bytes)
  | none, [] => some ([], [])
  | some _, [] => none
  | none, byte :: rest =>
      if byte = 123 then regexFrom (some []) rest
      else (regexFrom none rest).map fun built => (regexOfByte byte ++ built.1, built.2)
  | some name, byte :: rest =>
      if byte = 125 then
        (regexFrom none rest).map fun built => (ascii "([^/]+)" ++ built.1, name :: built.2)
      else regexFrom (some (name ++ [byte])) rest

/-- `CompilePattern`: the text of the regular expression, and the names of its parameters. -/
def regexOf (pattern : Bytes) : Option (Bytes × List Bytes) :=
  (regexFrom none pattern).map fun built => (ascii "^" ++ (built.1 ++ ascii "$"), built.2)

/-! ## Reading a regular expression -/

/-- The syntax characters of ECMAScript. -/
def isSyntax (byte : UInt8) : Bool :=
  byte ∈ ascii "^$\\.*+?()[]\x7b\x7d|"

/-- What the terms of a regular expression stand for.  Terms other than characters, escaped syntax
characters and the two groups that the router writes are not read. -/
def readTerms : Bytes → Option (List (Piece UInt8))
  | [] => some []
  | 92 :: rest =>
      match rest with
      | [] => none
      | byte :: rest => if isSyntax byte then (readTerms rest).map (.literal byte :: ·) else none
  | 40 :: rest =>
      match rest with
      | 91 :: 94 :: 47 :: 93 :: 43 :: 41 :: rest =>
          (readTerms rest).map (.capture notSlash 1 :: ·)
      | 46 :: 42 :: 41 :: rest => (readTerms rest).map (.capture onLine 0 :: ·)
      | _ => none
  | byte :: rest => if isSyntax byte then none else (readTerms rest).map (.literal byte :: ·)

/-- What a regular expression between anchors stands for. -/
def readRegex : Bytes → Option (List (Piece UInt8))
  | 94 :: text => if text.getLast? = some 36 then readTerms text.dropLast else none
  | _ => none

/-- `std::regex_match` of a path with the regular expression of a pattern: the parameters, by the
names and the groups in their order. -/
def matchRegex (pattern path : Bytes) : Option (List (Bytes × Bytes)) :=
  (regexOf pattern).bind fun built =>
    (readRegex built.1).bind fun pieces =>
      (Piece.matchAll pieces path).map fun captures => built.2.zip captures

/-- The pattern has none of the characters that `CompilePattern` leaves as they are although they
mean something: a backslash, a bar, or a closing brace that closes nothing. -/
def plainFrom : Bool → Bytes → Bool
  | _, [] => true
  | false, byte :: rest =>
      if byte = 123 then plainFrom true rest
      else byte ≠ 92 && byte ≠ 124 && byte ≠ 125 && plainFrom false rest
  | true, byte :: rest => plainFrom (byte ≠ 125) rest

theorem isSyntax_of_isEscaped {byte : UInt8} (escaped : isEscaped byte = true) :
    isSyntax byte = true := by
  have subset : ascii ".+?()[]$^" ⊆ ascii "^$\\.*+?()[]\x7b\x7d|" := by decide
  exact decide_eq_true (subset (of_decide_eq_true escaped))

theorem isEscaped_of_isSyntax {byte : UInt8} (special : isSyntax byte = true) :
    isEscaped byte = true ∨ byte = 42 ∨ byte = 92 ∨ byte = 123 ∨ byte = 124 ∨ byte = 125 := by
  have all : (ascii "^$\\.*+?()[]\x7b\x7d|").all (fun other =>
      isEscaped other || [42, 92, 123, 124, 125].contains other) = true := by decide
  simpa using List.all_eq_true.mp all byte (of_decide_eq_true special)

theorem readTerms_escaped {byte : UInt8} (special : isSyntax byte = true) (rest : Bytes) :
    readTerms (92 :: byte :: rest) = (readTerms rest).map (.literal byte :: ·) := by
  have read : readTerms (92 :: byte :: rest) =
      if isSyntax byte then (readTerms rest).map (.literal byte :: ·) else none := rfl
  rw [read, if_pos special]

theorem readTerms_literal {byte : UInt8} (ordinary : isSyntax byte = false) (rest : Bytes) :
    readTerms (byte :: rest) = (readTerms rest).map (.literal byte :: ·) := by
  have notEscape : byte ≠ 92 := by
    rintro rfl
    exact absurd ordinary (by decide)
  have notGroup : byte ≠ 40 := by
    rintro rfl
    exact absurd ordinary (by decide)
  rw [readTerms.eq_def]
  split <;> simp_all

theorem readTerms_regexOfByte {byte : UInt8} (plain : byte ≠ 92 ∧ byte ≠ 124 ∧ byte ≠ 125)
    (notOpen : byte ≠ 123) (rest : Bytes) :
    readTerms (regexOfByte byte ++ rest) = (readTerms rest).map
      (if byte = 42 then (.capture onLine 0 :: ·) else (.literal byte :: ·)) := by
  unfold regexOfByte
  by_cases star : byte = 42
  · rw [if_pos star, if_pos star]
    rfl
  · rw [if_neg star, if_neg star]
    cases escaped : isEscaped byte with
    | true => exact readTerms_escaped (isSyntax_of_isEscaped escaped) rest
    | false =>
        refine readTerms_literal ?_ rest
        rw [Bool.eq_false_iff]
        intro special
        have kinds := isEscaped_of_isSyntax special
        simp_all

/-- The text stands for the pieces of the pattern. -/
theorem readTerms_regexFrom {name? : Option Bytes} {pattern : Bytes}
    (plain : plainFrom name?.isSome pattern = true) :
    ((regexFrom name? pattern).map fun built => (readTerms built.1, built.2)) =
      (compileFrom name? pattern).map fun compiled => (some compiled.1, compiled.2) := by
  induction pattern generalizing name? with
  | nil => cases name? <;> rfl
  | cons byte rest inductionHypothesis =>
      cases name? with
      | none =>
          simp only [Option.isSome_none, plainFrom] at plain
          simp only [regexFrom, compileFrom]
          by_cases opens : byte = 123
          · rw [if_pos opens] at plain ⊢
            rw [if_pos opens]
            exact inductionHypothesis plain
          · rw [if_neg opens] at plain ⊢
            rw [if_neg opens]
            simp only [Bool.and_eq_true, decide_eq_true_eq] at plain
            have same := @inductionHypothesis none plain.2
            have written := readTerms_regexOfByte ⟨plain.1.1.1, plain.1.1.2, plain.1.2⟩ opens
            cases built : regexFrom none rest <;> cases compiled : compileFrom none rest <;>
              simp only [built, compiled, Option.map_none, Option.map_some, Option.some.injEq,
                Prod.mk.injEq, reduceCtorEq] at same ⊢
            rw [written, same.1, same.2]
            split <;> simp
      | some name =>
          simp only [Option.isSome_some, plainFrom] at plain
          simp only [regexFrom, compileFrom]
          by_cases closes : byte = 125
          · rw [if_pos closes, if_pos closes]
            have same := @inductionHypothesis none (by simpa [closes] using plain)
            cases built : regexFrom none rest <;> cases compiled : compileFrom none rest <;>
              simp only [built, compiled, Option.map_none, Option.map_some, Option.some.injEq,
                Prod.mk.injEq, reduceCtorEq] at same ⊢
            rw [same.2]
            refine ⟨?_, rfl⟩
            have read (text : Bytes) : readTerms (ascii "([^/]+)" ++ text) =
                (readTerms text).map (.capture notSlash 1 :: ·) := rfl
            rw [read, same.1]
            rfl
          · rw [if_neg closes, if_neg closes]
            exact inductionHypothesis (by simpa [closes] using plain)

/-- Matching with the regular expression is matching with the pieces. -/
theorem matchRegex_eq {pattern : Bytes} (plain : plainFrom false pattern = true) (path : Bytes) :
    matchRegex pattern path = matchPattern pattern path := by
  have same := @readTerms_regexFrom none _ plain
  unfold matchRegex matchPattern regexOf compilePattern
  cases built : regexFrom none pattern <;> cases compiled : compileFrom none pattern <;>
    simp only [built, compiled, Option.map_none, Option.map_some, Option.some.injEq,
      Prod.mk.injEq, reduceCtorEq, Option.bind_none, Option.bind_some] at same ⊢
  have read (text : Bytes) : readRegex (ascii "^" ++ (text ++ ascii "$")) = readTerms text := by
    have anchored : readRegex (94 :: (text ++ [36])) =
        if (text ++ [36]).getLast? = some 36 then readTerms (text ++ [36]).dropLast else none :=
      rfl
    rw [List.getLast?_concat, List.dropLast_concat, if_pos rfl] at anchored
    exact anchored
  rw [read, same.1, same.2]
  rfl

end MiniS3.Net
