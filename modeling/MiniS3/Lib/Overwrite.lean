import Mathlib.Data.List.Basic

/-!
# Writing into a vector

Bytes that are copied to a place in a vector replace as many of its elements.  A copy from one
place of a vector to another goes element by element from the front, and gives what a copy of the
old elements would give when it goes to a place before the one that it comes from.
-/

namespace MiniS3.Lib

universe u

variable {α : Type u}

/-- The vector with the data from the position on. -/
def overwrite (position : Nat) (data storage : List α) : List α :=
  storage.take position ++ data ++ storage.drop (position + data.length)

/-- Copy so many elements to another place, one after the other. -/
def copyForward (first position : Nat) : Nat → List α → List α
  | 0, storage => storage
  | count + 1, storage =>
      match storage[first]? with
      | none => storage
      | some element => copyForward (first + 1) (position + 1) count (storage.set position element)

section

variable {position : Nat} {data storage : List α}

theorem length_overwrite (fits : position + data.length ≤ storage.length) :
    (overwrite position data storage).length = storage.length := by
  simp only [overwrite, List.length_append, List.length_take, List.length_drop]
  omega

/-- The data with what stands before it. -/
theorem take_overwrite_end (fits : position + data.length ≤ storage.length) :
    (overwrite position data storage).take (position + data.length) =
      storage.take position ++ data := by
  apply List.take_left'
  rw [List.length_append, List.length_take]
  omega

/-- The data with what stands after it. -/
theorem drop_overwrite (fits : position + data.length ≤ storage.length) :
    (overwrite position data storage).drop position =
      data ++ storage.drop (position + data.length) := by
  rw [overwrite, List.append_assoc]
  apply List.drop_left'
  rw [List.length_take]
  omega

end

/-- A copy to the front is not disturbed by what it writes. -/
theorem copyForward_eq {first position count : Nat} {storage : List α} (front : position ≤ first)
    (inside : first + count ≤ storage.length) :
    copyForward first position count storage =
      overwrite position ((storage.drop first).take count) storage := by
  induction count generalizing first position storage with
  | zero => simp [copyForward, overwrite]
  | succ count inductionHypothesis =>
      have here : first < storage.length := by omega
      have written : ((storage.drop (first + 1)).take count).length = count := by
        rw [List.length_take, List.length_drop]
        omega
      have head : (storage.set position storage[first]).take (position + 1) =
          storage.take position ++ [storage[first]] := by
        rw [List.set_eq_take_append_cons_drop, if_pos (by omega),
          ← List.singleton_append, ← List.append_assoc]
        apply List.take_left'
        rw [List.length_append, List.length_take, List.length_singleton]
        omega
      rw [copyForward, List.getElem?_eq_getElem here]
      simp only
      rw [inductionHypothesis (by omega) (by rw [List.length_set]; omega),
        List.drop_set_of_lt (by omega), List.drop_eq_getElem_cons here, List.take_succ_cons]
      simp only [overwrite, written, List.length_cons]
      rw [head, List.drop_set_of_lt (by omega), List.append_assoc, List.append_assoc,
        List.append_assoc, List.singleton_append, List.cons_append, Nat.add_right_comm,
        Nat.add_assoc]

end MiniS3.Lib
