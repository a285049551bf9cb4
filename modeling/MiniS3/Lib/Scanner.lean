import Mathlib

/-!
# Scanners

A scanner goes over a text symbol by symbol and gives out tokens as it goes; at the end of the
text its state may hold a last token, or show that the text is cut short.  What a text gives is
put together from what its parts give, each read in the state that the part before it leaves.
-/

namespace MiniS3.Lib

/-- How a state takes a symbol, and the tokens that it holds at the end of the text. -/
structure Scanner (σ α τ : Type) where
  step : σ → α → σ × List τ
  finish : σ → Option (List τ)

namespace Scanner

variable {σ α τ : Type} (scanner : Scanner σ α τ)

/-- The state after a part of a text, and the tokens of this part. -/
def scan : σ → List α → σ × List τ
  | state, [] => (state, [])
  | state, symbol :: rest =>
      let after := scan (scanner.step state symbol).1 rest
      (after.1, (scanner.step state symbol).2 ++ after.2)

/-- The tokens of a text that begins in a state. -/
def read (state : σ) (text : List α) : Option (List τ) :=
  (scanner.finish (scanner.scan state text).1).map ((scanner.scan state text).2 ++ ·)

@[simp]
theorem read_nil (state : σ) : scanner.read state [] = scanner.finish state := by
  simp [read, scan]

theorem read_cons (state : σ) (symbol : α) (rest : List α) :
    scanner.read state (symbol :: rest) =
      (scanner.read (scanner.step state symbol).1 rest).map
        ((scanner.step state symbol).2 ++ ·) := by
  simp only [read, scan, Option.map_map]
  congr 1
  funext tokens
  simp [List.append_assoc]

/-- A text is scanned part by part. -/
theorem scan_append (state : σ) (front rest : List α) :
    scanner.scan state (front ++ rest) =
      ((scanner.scan (scanner.scan state front).1 rest).1,
        (scanner.scan state front).2 ++ (scanner.scan (scanner.scan state front).1 rest).2) := by
  induction front generalizing state with
  | nil => rfl
  | cons symbol front inductionHypothesis =>
      rw [List.cons_append, scan, scan, inductionHypothesis, List.append_assoc]

/-- A text is read part by part. -/
theorem read_append (state : σ) (front rest : List α) :
    scanner.read state (front ++ rest) =
      (scanner.read (scanner.scan state front).1 rest).map
        ((scanner.scan state front).2 ++ ·) := by
  rw [read, read, scan_append, Option.map_map]
  congr 1
  funext tokens
  exact List.append_assoc _ _ _

/-- A part that gives no tokens only changes the state. -/
theorem read_of_silent {state after : σ} {front : List α} (rest : List α)
    (silent : scanner.scan state front = (after, [])) :
    scanner.read state (front ++ rest) = scanner.read after rest := by
  rw [read_append, silent]
  simp

end Scanner

end MiniS3.Lib
