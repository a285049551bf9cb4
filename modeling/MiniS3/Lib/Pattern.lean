import Mathlib.Data.List.TakeWhile

/-!
# Patterns with captures

A pattern is a list of pieces: a symbol that has to be there, or a run of accepted symbols
that is captured.  A run is taken as long as possible and given back symbol by symbol, as a
backtracking matcher does; the whole text has to be used up.

`Fills` is the same without an order of trying: the text is what the pieces spell with the
captures filled in.
-/

namespace MiniS3.Lib

/-- A piece of a pattern. -/
inductive Piece (α : Type)
  | literal (symbol : α)
  | capture (accepts : α → Bool) (atLeast : Nat)

namespace Piece

variable {α : Type}

/-- A text is spelled by the pieces, with the captures in their places. -/
inductive Fills : List (Piece α) → List (List α) → List α → Prop
  | nil : Fills [] [] []
  | literal {pieces : List (Piece α)} {captures : List (List α)} {text : List α} (symbol : α)
      (rest : Fills pieces captures text) :
      Fills (.literal symbol :: pieces) captures (symbol :: text)
  | capture {accepts : α → Bool} {atLeast : Nat} {pieces : List (Piece α)}
      {captures : List (List α)} {text run : List α} (accepted : ∀ symbol ∈ run, accepts symbol)
      (enough : atLeast ≤ run.length) (rest : Fills pieces captures text) :
      Fills (.capture accepts atLeast :: pieces) (run :: captures) (run ++ text)

/-- Symbols that have to be there. -/
theorem fills_literals {symbols : List α} {pieces : List (Piece α)} {captures : List (List α)}
    {text : List α} :
    Fills (symbols.map literal ++ pieces) captures text ↔
      ∃ rest, text = symbols ++ rest ∧ Fills pieces captures rest := by
  induction symbols generalizing text with
  | nil => simp
  | cons symbol symbols inductionHypothesis =>
      constructor
      · intro filled
        cases filled with
        | literal _ filled =>
            obtain ⟨rest, rfl, filledRest⟩ := inductionHypothesis.mp filled
            exact ⟨rest, rfl, filledRest⟩
      · rintro ⟨rest, rfl, filled⟩
        exact .literal symbol (inductionHypothesis.mpr ⟨rest, rfl, filled⟩)

theorem fills_capture {accepts : α → Bool} {atLeast : Nat} {pieces : List (Piece α)}
    {captures : List (List α)} {text : List α} :
    Fills (.capture accepts atLeast :: pieces) captures text ↔
      ∃ run rest others, text = run ++ rest ∧ captures = run :: others ∧
        (∀ symbol ∈ run, accepts symbol) ∧ atLeast ≤ run.length ∧ Fills pieces others rest := by
  constructor
  · intro filled
    cases filled with
    | capture accepted enough rest => exact ⟨_, _, _, rfl, rfl, accepted, enough, rest⟩
  · rintro ⟨run, rest, others, rfl, rfl, accepted, enough, filled⟩
    exact .capture accepted enough filled

theorem fills_nil {captures : List (List α)} {text : List α} :
    Fills [] captures text ↔ captures = [] ∧ text = [] := by
  constructor
  · intro filled
    cases filled
    exact ⟨rfl, rfl⟩
  · rintro ⟨rfl, rfl⟩
    exact .nil

/-- The lengths of a run that a capture tries, the longest first. -/
def lengths (accepts : α → Bool) (atLeast : Nat) (text : List α) : List Nat :=
  ((List.range ((text.takeWhile accepts).length + 1)).filter (atLeast ≤ ·)).reverse

theorem mem_lengths {accepts : α → Bool} {atLeast length : Nat} {text : List α} :
    length ∈ lengths accepts atLeast text ↔
      atLeast ≤ length ∧ length ≤ text.length ∧ ∀ symbol ∈ text.take length, accepts symbol := by
  simp only [lengths, List.mem_reverse, List.mem_filter, List.mem_range, decide_eq_true_eq]
  constructor
  · rintro ⟨within, enough⟩
    have run : text.take length = (text.takeWhile accepts).take length := by
      have taken := congrArg (List.take length)
        (List.takeWhile_append_dropWhile : text.takeWhile accepts ++ _ = text)
      rw [List.take_append_of_le_length (by omega)] at taken
      exact taken.symm
    have shorter := (List.takeWhile_prefix accepts : text.takeWhile accepts <+: text).length_le
    refine ⟨enough, by omega, ?_⟩
    intro symbol member
    rw [run] at member
    exact List.mem_takeWhile_imp (List.mem_of_mem_take member)
  · rintro ⟨enough, within, accepted⟩
    refine ⟨?_, enough⟩
    have leading : text.take length <+: text.takeWhile accepts := by
      have split : (text.take length ++ text.drop length).takeWhile accepts = _ :=
        List.takeWhile_append_of_pos accepted
      rw [List.take_append_drop] at split
      exact ⟨_, split.symm⟩
    have bound := leading.length_le
    rw [List.length_take, Nat.min_eq_left within] at bound
    omega

section Matching

variable [DecidableEq α]

/-- Match a whole text, and return the captures. -/
def matchAll : List (Piece α) → List α → Option (List (List α))
  | [], [] => some []
  | [], _ :: _ => none
  | literal _ :: _, [] => none
  | literal symbol :: pieces, first :: rest =>
      if symbol = first then matchAll pieces rest else none
  | capture accepts atLeast :: pieces, text =>
      (lengths accepts atLeast text).findSome? fun length =>
        (matchAll pieces (text.drop length)).map (text.take length :: ·)

/-- What matches is spelled by the pieces. -/
theorem fills_of_matchAll {pieces : List (Piece α)} {text : List α} {captures : List (List α)}
    (matched : matchAll pieces text = some captures) : Fills pieces captures text := by
  induction pieces generalizing text captures with
  | nil =>
      cases text with
      | nil =>
          cases matched
          exact .nil
      | cons first rest => simp [matchAll] at matched
  | cons piece pieces inductionHypothesis =>
      cases piece with
      | literal symbol =>
          cases text with
          | nil => simp [matchAll] at matched
          | cons first rest =>
              simp only [matchAll] at matched
              split at matched
              · rename_i same
                subst same
                exact .literal symbol (inductionHypothesis matched)
              · contradiction
      | capture accepts atLeast =>
          simp only [matchAll] at matched
          obtain ⟨length, tried, found⟩ := List.exists_of_findSome?_eq_some matched
          obtain ⟨rest, matchedRest, rfl⟩ := Option.map_eq_some_iff.mp found
          obtain ⟨enough, within, accepted⟩ := mem_lengths.mp tried
          have long : atLeast ≤ (text.take length).length := by
            rw [List.length_take, Nat.min_eq_left within]
            exact enough
          have filled := Fills.capture accepted long (inductionHypothesis matchedRest)
          rw [List.take_append_drop] at filled
          exact filled

/-- A text that the pieces spell is matched. -/
theorem isSome_matchAll_of_fills {pieces : List (Piece α)} {text : List α}
    {captures : List (List α)} (filled : Fills pieces captures text) :
    (matchAll pieces text).isSome := by
  induction filled with
  | nil => rfl
  | literal symbol rest inductionHypothesis =>
      simp only [matchAll, if_true]
      exact inductionHypothesis
  | @capture accepts atLeast pieces captures text run accepted enough rest inductionHypothesis =>
      simp only [matchAll, List.findSome?_isSome_iff]
      refine ⟨run.length, mem_lengths.mpr ⟨enough, by simp, by simpa using accepted⟩, ?_⟩
      simpa using inductionHypothesis

end Matching

end Piece

end MiniS3.Lib
