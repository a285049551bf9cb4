import Mathlib.Algebra.BigOperators.Group.List.Basic
import Mathlib.Algebra.GroupWithZero.Nat
import Mathlib.Algebra.Order.BigOperators.Group.List
import Mathlib.Data.List.AList

/-!
# Keyed tables

A table is a finite association list with at most one row for each key.  The
representation and its laws are those of `AList`; this file adds what
accounting over tables needs: the sum of a weight over all rows, the number of
rows with a property, and how both change when one row is written or removed.
-/

namespace MiniS3.Lib

universe u v

/-- A table with at most one row for each key. -/
def Table (κ : Type u) (ν : Type v) : Type (max u v) :=
  AList fun _ : κ => ν

namespace Table

variable {κ : Type u} {ν : Type v}

instance : EmptyCollection (Table κ ν) :=
  inferInstanceAs (EmptyCollection (AList fun _ : κ => ν))

/-- The rows with their keys, in no particular order. -/
def rows (table : Table κ ν) : List (Σ _ : κ, ν) :=
  AList.entries table

instance [DecidableEq κ] [DecidableEq ν] : DecidableEq (Table κ ν) := fun first second =>
  decidable_of_iff (first.rows = second.rows) AList.ext_iff.symm

/-- Sum of a weight over all rows. -/
def sum (weight : κ → ν → Nat) (table : Table κ ν) : Nat :=
  (table.rows.map fun entry => weight entry.1 entry.2).sum

/-- Number of rows with a property. -/
def count (property : κ → ν → Bool) (table : Table κ ν) : Nat :=
  table.rows.countP fun entry => property entry.1 entry.2

/-- Keep the rows with a property. -/
def filter (property : κ → ν → Bool) (table : Table κ ν) : Table κ ν :=
  (⟨table.rows.filter fun entry => property entry.1 entry.2,
    (AList.nodupKeys table).sublist List.filter_sublist⟩ : AList fun _ : κ => ν)

variable [DecidableEq κ]

/-- The row at a key. -/
def lookup (key : κ) (table : Table κ ν) : Option ν :=
  AList.lookup key table

/-- Write the row at a key, replacing the one that is there. -/
def set (key : κ) (row : ν) (table : Table κ ν) : Table κ ν :=
  AList.insert key row table

/-- Remove the row at a key. -/
def erase (key : κ) (table : Table κ ν) : Table κ ν :=
  AList.erase key table

/-! ## Lookup -/

@[simp]
theorem lookup_empty (key : κ) : (∅ : Table κ ν).lookup key = none :=
  rfl

@[simp]
theorem lookup_set_self (key : κ) (row : ν) (table : Table κ ν) :
    (table.set key row).lookup key = some row :=
  AList.lookup_insert table

@[simp]
theorem lookup_set_ne {key other : κ} (row : ν) (table : Table κ ν)
    (different : other ≠ key) : (table.set key row).lookup other = table.lookup other :=
  AList.lookup_insert_ne different

theorem lookup_set (key other : κ) (row : ν) (table : Table κ ν) :
    (table.set key row).lookup other =
      if other = key then some row else table.lookup other := by
  by_cases same : other = key
  · subst other
    simp
  · simp [same]

@[simp]
theorem lookup_erase_self (key : κ) (table : Table κ ν) :
    (table.erase key).lookup key = none :=
  AList.lookup_erase key table

@[simp]
theorem lookup_erase_ne {key other : κ} (table : Table κ ν)
    (different : other ≠ key) : (table.erase key).lookup other = table.lookup other :=
  AList.lookup_erase_ne different

/-- A row that was erased and set again is set. -/
theorem set_erase (key : κ) (row : ν) (table : Table κ ν) :
    (table.erase key).set key row = table.set key row := by
  apply AList.ext
  have erased : List.kerase key (List.kerase key table.rows) = List.kerase key table.rows :=
    List.kerase_of_notMem_keys (List.notMem_keys_kerase key (AList.nodupKeys table))
  exact congrArg (⟨key, row⟩ :: ·) erased

theorem mem_rows_iff {key : κ} {row : ν} {table : Table κ ν} :
    ⟨key, row⟩ ∈ table.rows ↔ table.lookup key = some row :=
  (AList.mem_lookup_iff (s := table)).symm

omit [DecidableEq κ] in
theorem eq_empty {table : Table κ ν} (none : table.rows = []) : table = ∅ :=
  AList.ext none

/-- Lookup in the kept rows. -/
theorem lookup_filter (property : κ → ν → Bool) (key : κ) (table : Table κ ν) :
    (table.filter property).lookup key = (table.lookup key).filter (property key) := by
  apply Option.ext
  intro row
  rw [Option.filter_eq_some_iff, ← mem_rows_iff, ← mem_rows_iff]
  exact List.mem_filter

/-- At most one row has a given key. -/
theorem filterMap_rows {γ : Type*} (key : κ) (convert : ν → γ) (table : Table κ ν) :
    (table.rows.filterMap fun entry => if entry.1 = key then some (convert entry.2) else none) =
      ((table.lookup key).map convert).toList := by
  obtain ⟨entries, nodup⟩ := table
  change entries.filterMap _ = ((entries.dlookup key).map convert).toList
  induction entries with
  | nil => rfl
  | cons entry entries inductionHypothesis =>
      obtain ⟨entryKey, row⟩ := entry
      obtain ⟨fresh, nodup⟩ := List.nodupKeys_cons.mp nodup
      have rest := inductionHypothesis nodup
      rw [List.filterMap_cons, rest]
      by_cases same : entryKey = key
      · subst entryKey
        rw [if_pos rfl, List.dlookup_cons_eq, List.dlookup_eq_none.mpr fresh]
        rfl
      · rw [if_neg same, List.dlookup_cons_ne (β := fun _ => ν) _ ⟨entryKey, row⟩ (Ne.symm same)]

/-! ## Sums over rows -/

omit [DecidableEq κ] in
@[simp]
theorem sum_empty (weight : κ → ν → Nat) : (∅ : Table κ ν).sum weight = 0 :=
  rfl

private theorem sum_kerase (weight : κ → ν → Nat) (key : κ) (entries : List (Σ _ : κ, ν)) :
    ((entries.kerase key).map fun entry => weight entry.1 entry.2).sum +
        (entries.dlookup key).elim 0 (weight key) =
      (entries.map fun entry => weight entry.1 entry.2).sum := by
  induction entries with
  | nil => rfl
  | cons entry rest inductionHypothesis =>
      obtain ⟨entryKey, row⟩ := entry
      by_cases same : key = entryKey
      · subst entryKey
        simp [List.kerase, List.dlookup_cons_eq, Nat.add_comm]
      · simp only [List.kerase] at inductionHypothesis ⊢
        rw [List.dlookup_cons_ne (β := fun _ => ν) _ ⟨entryKey, row⟩ same,
          List.eraseP_cons_of_neg (by simp [same])]
        simp only [List.map_cons, List.sum_cons]
        omega

/-- Removing a row takes its weight out of the sum. -/
theorem sum_erase (weight : κ → ν → Nat) (key : κ) (table : Table κ ν) :
    (table.erase key).sum weight + (table.lookup key).elim 0 (weight key) =
      table.sum weight :=
  sum_kerase weight key table.rows

/-- Writing a row replaces the weight of the old row by that of the new one. -/
theorem sum_set (weight : κ → ν → Nat) (key : κ) (row : ν) (table : Table κ ν) :
    (table.set key row).sum weight + (table.lookup key).elim 0 (weight key) =
      table.sum weight + weight key row := by
  have removed := sum_erase weight key table
  have inserted : (table.set key row).sum weight =
      weight key row + (table.erase key).sum weight := rfl
  omega

/-- The weight of a stored row is part of the sum. -/
theorem weight_le_sum {weight : κ → ν → Nat} {key : κ} {row : ν} {table : Table κ ν}
    (stored : table.lookup key = some row) : weight key row ≤ table.sum weight := by
  have removed := sum_erase weight key table
  rw [stored] at removed
  simp only [Option.elim_some] at removed
  omega

/-! ## Counting rows -/

omit [DecidableEq κ] in
@[simp]
theorem count_empty (property : κ → ν → Bool) : (∅ : Table κ ν).count property = 0 :=
  rfl

omit [DecidableEq κ] in
/-- Counting is summing the indicator. -/
theorem count_eq_sum (property : κ → ν → Bool) (table : Table κ ν) :
    table.count property = table.sum fun key row => (property key row).toNat := by
  unfold count sum
  induction table.rows with
  | nil => rfl
  | cons entry rest inductionHypothesis =>
      rw [List.countP_cons, inductionHypothesis, List.map_cons, List.sum_cons, Nat.add_comm]
      cases holds : property entry.1 entry.2 <;> simp [holds]

/-- Removing a row takes it out of the count. -/
theorem count_erase (property : κ → ν → Bool) (key : κ) (table : Table κ ν) :
    (table.erase key).count property +
        (table.lookup key).elim 0 (fun row => (property key row).toNat) =
      table.count property := by
  simp only [count_eq_sum]
  exact sum_erase _ key table

/-- Writing a row replaces the old row by the new one in the count. -/
theorem count_set (property : κ → ν → Bool) (key : κ) (row : ν) (table : Table κ ν) :
    (table.set key row).count property +
        (table.lookup key).elim 0 (fun old => (property key old).toNat) =
      table.count property + (property key row).toNat := by
  simp only [count_eq_sum]
  exact sum_set _ key row table

/-- A stored row with the property is counted. -/
theorem count_pos_of_lookup {property : κ → ν → Bool} {key : κ} {row : ν}
    {table : Table κ ν} (stored : table.lookup key = some row)
    (holds : property key row = true) : 0 < table.count property := by
  rw [count_eq_sum]
  let weight : κ → ν → Nat := fun key row => (property key row).toNat
  have counted : weight key row ≤ table.sum weight := weight_le_sum stored
  simp only [weight, holds, Bool.toNat_true] at counted
  exact counted

end Table

end MiniS3.Lib
