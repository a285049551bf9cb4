import MiniS3.Db.Accounting

/-!
# The surplus of a counter

By how much the counter of a blob exceeds the number of rows that refer to it.  Each write moves
the surplus of a blob or two: a counter that is raised or lowered, a row that takes a reference and
the row in its place that gave one back.  Counters that were exact are exact after several writes
when what was raised too often and what was given back without a decrement are the same.
-/

namespace MiniS3.Db

open Lib

theorem refersTo_eq_count (reference : Option Bytes) (casKey : Bytes) :
    refersTo reference casKey = reference.toList.count casKey := by
  cases reference with
  | none => rfl
  | some referred =>
      rw [refersTo_some, Option.toList_some, List.count_singleton]
      simp only [beq_iff_eq]

namespace Tables

/-- By how much `ref_count` of a blob exceeds the number of rows that refer to it. -/
def surplus (tables : Tables) (casKey : Bytes) : Int :=
  tables.refCount casKey - ((tables.objectRefs casKey : Int) + tables.partRefs casKey)

/-- Every `ref_count` is the number of rows that refer to the blob. -/
def Balanced (tables : Tables) : Prop :=
  ∀ casKey, tables.refCount casKey = tables.objectRefs casKey + tables.partRefs casKey

/-- The blob whose counter a decrement lowers; it does not lower a counter that is 0. -/
def lowered (tables : Tables) (casKey : Bytes) : Option Bytes :=
  if 0 < tables.refCount casKey then some casKey else none

/-- Each blob of a list loses a reference. -/
def loseAll (casKeys : List Bytes) (tables : Tables) : Tables :=
  casKeys.foldl (fun rest casKey => rest.lose casKey) tables

variable {tables after : Tables}

theorem balanced_iff : tables.Balanced ↔ ∀ casKey, tables.surplus casKey = 0 := by
  constructor
  · intro balanced casKey
    have counted := balanced casKey
    unfold surplus
    omega
  · intro none casKey
    have counted := none casKey
    unfold surplus at counted
    omega

/-- A blob that an object refers to has a counter above 0. -/
theorem Balanced.refCount_pos (balanced : tables.Balanced) {entry : Int × Bytes} {row : ObjectRow}
    (stored : tables.objects.lookup entry = some row) : 0 < tables.refCount row.casKey := by
  have counted := balanced row.casKey
  have referred : 0 < tables.objectRefs row.casKey :=
    Table.count_pos_of_lookup stored (by simp)
  omega

/-- Counters that were exact are exact again when the references that rows gave back are those
whose counters were lowered. -/
theorem balanced_iff_perm {given lost : List Bytes} (balanced : tables.Balanced)
    (moved : ∀ casKey, after.surplus casKey + lost.count casKey =
      tables.surplus casKey + given.count casKey) :
    after.Balanced ↔ given.Perm lost := by
  have exactBefore := balanced_iff.mp balanced
  rw [balanced_iff, List.perm_iff_count]
  constructor
  · intro exactAfter casKey
    have step := moved casKey
    rw [exactBefore, exactAfter] at step
    omega
  · intro alike casKey
    have step := moved casKey
    rw [exactBefore, ← alike] at step
    omega

/-- One reference is given back, and one counter is lowered. -/
theorem balanced_iff_eq {given lost : Option Bytes} (balanced : tables.Balanced)
    (moved : ∀ casKey, after.surplus casKey + refersTo lost casKey =
      tables.surplus casKey + refersTo given casKey) :
    after.Balanced ↔ given = lost := by
  simp only [refersTo_eq_count] at moved
  rw [balanced_iff_perm balanced moved]
  cases given <;> cases lost <;> simp

/-- One reference is given back, and two counters may be lowered. -/
theorem balanced_iff_only {given more : Option Bytes} {lost : Bytes} (balanced : tables.Balanced)
    (moved : ∀ casKey, after.surplus casKey + refersTo (some lost) casKey + refersTo more casKey =
      tables.surplus casKey + refersTo given casKey) :
    after.Balanced ↔ given = some lost ∧ more = none := by
  have bothLost : ∀ casKey, after.surplus casKey + (lost :: more.toList).count casKey =
      tables.surplus casKey + given.toList.count casKey := by
    intro casKey
    have step := moved casKey
    have first := refersTo_eq_count (some lost) casKey
    have together := @List.count_append _ _ casKey [lost] more.toList
    rw [List.singleton_append] at together
    rw [refersTo_eq_count more, refersTo_eq_count given] at step
    rw [Option.toList_some] at first
    omega
  rw [balanced_iff_perm balanced bothLost]
  cases given <;> cases more <;> simp

/-- References are given back, and no counter is lowered. -/
theorem balanced_iff_none {given : Option Bytes} {held : List Bytes} (balanced : tables.Balanced)
    (moved : ∀ casKey, after.surplus casKey =
      tables.surplus casKey + refersTo given casKey + held.count casKey) :
    after.Balanced ↔ given = none ∧ held = [] := by
  have noneLost : ∀ casKey, after.surplus casKey + ([] : List Bytes).count casKey =
      tables.surplus casKey + (given.toList ++ held).count casKey := by
    intro casKey
    have step := moved casKey
    rw [refersTo_eq_count] at step
    rw [List.count_append, List.count_nil]
    omega
  rw [balanced_iff_perm balanced noneLost, List.perm_nil, List.append_eq_nil_iff,
    Option.toList_eq_nil_iff]

/-- Tables that agree on counters and on referring rows have the same surplus. -/
theorem surplus_congr (casBlobs : after.casBlobs = tables.casBlobs)
    (objects : after.objects = tables.objects)
    (parts : after.multipartParts = tables.multipartParts) (casKey : Bytes) :
    after.surplus casKey = tables.surplus casKey := by
  unfold surplus refCount objectRefs partRefs
  rw [casBlobs, objects, parts]

/-! ## What the writes do -/

theorem surplus_gain (raised : Bytes) (size : Int) (casKey : Bytes) :
    (tables.gain raised size).surplus casKey =
      tables.surplus casKey + refersTo (some raised) casKey := by
  have moved := moved_increment tables raised size casKey
  have counter : (tables.gain raised size).refCount casKey + refersTo none casKey =
      tables.refCount casKey + refersTo (some raised) casKey := moved
  rw [refersTo_none] at counter
  have objects : (tables.gain raised size).objectRefs casKey = tables.objectRefs casKey := rfl
  have parts : (tables.gain raised size).partRefs casKey = tables.partRefs casKey := rfl
  unfold surplus
  rw [objects, parts]
  omega

theorem refCount_gain_of_ne {raised casKey : Bytes} (size : Int) (different : casKey ≠ raised) :
    (tables.gain raised size).refCount casKey = tables.refCount casKey := by
  unfold gain
  rw [refCount_apply_casBlob, if_neg different]

theorem refCount_lose (casKey other : Bytes) :
    (tables.lose casKey).refCount other + refersTo (tables.lowered casKey) other =
      tables.refCount other := by
  unfold lowered
  split
  · rename_i positive
    have moved := moved_lose positive other
    rw [refersTo_none] at moved
    exact moved
  · rename_i zero
    rw [refersTo_none, Nat.add_zero]
    cases stored : tables.casBlobs.lookup casKey with
    | none => simp [lose, stored]
    | some row =>
        have rowZero : row.refCount = 0 := by
          have counted : tables.refCount casKey = row.refCount := by simp [refCount, stored]
          omega
        simp only [lose, stored, refCount_apply_casBlob]
        split
        · rename_i same
          rw [same]
          simp [refCount, stored, CasBlobRow.decremented, rowZero]
        · rfl

theorem surplus_lose (dropped casKey : Bytes) :
    (tables.lose dropped).surplus casKey + refersTo (tables.lowered dropped) casKey =
      tables.surplus casKey := by
  have counter := @refCount_lose tables dropped casKey
  have objects : (tables.lose dropped).objectRefs casKey = tables.objectRefs casKey := by
    simp [objectRefs]
  have parts : (tables.lose dropped).partRefs casKey = tables.partRefs casKey := by
    simp [partRefs]
  unfold surplus
  rw [objects, parts]
  omega

theorem surplus_object (entry : Int × Bytes) (image : Option ObjectRow) (casKey : Bytes) :
    (tables.apply (.object entry image)).surplus casKey +
        refersTo (image.map ObjectRow.casKey) casKey =
      tables.surplus casKey +
        refersTo ((tables.objects.lookup entry).map ObjectRow.casKey) casKey := by
  have rows := objectRefs_apply_object tables entry image casKey
  have parts : (tables.apply (.object entry image)).partRefs casKey = tables.partRefs casKey := rfl
  unfold surplus
  rw [refCount_apply_object, parts]
  omega

theorem surplus_part (entry : Bytes × Int) (image : Option PartRow) (casKey : Bytes) :
    (tables.apply (.part entry image)).surplus casKey +
        refersTo (image.map PartRow.casKey) casKey =
      tables.surplus casKey +
        refersTo ((tables.multipartParts.lookup entry).map PartRow.casKey) casKey := by
  have rows := partRefs_apply_part tables entry image casKey
  have objects : (tables.apply (.part entry image)).objectRefs casKey =
      tables.objectRefs casKey := rfl
  unfold surplus
  rw [refCount_apply_part, objects]
  omega

/-- Counters that are high enough are lowered for each blob of a list. -/
theorem surplus_loseAll {casKeys : List Bytes}
    (enough : ∀ casKey, casKeys.count casKey ≤ tables.refCount casKey) (casKey : Bytes) :
    (tables.loseAll casKeys).surplus casKey + casKeys.count casKey = tables.surplus casKey := by
  induction casKeys generalizing tables with
  | nil => simp [loseAll]
  | cons first rest inductionHypothesis =>
      have positive : 0 < tables.refCount first := by
        have counted := enough first
        rw [List.count_cons_self] at counted
        omega
      have isLowered : tables.lowered first = some first := if_pos positive
      have counts : ∀ other,
          (first :: rest).count other = rest.count other + refersTo (some first) other := by
        intro other
        rw [List.count_cons, refersTo_some]
        simp only [beq_iff_eq]
      have enoughLeft : ∀ other, rest.count other ≤ (tables.lose first).refCount other := by
        intro other
        have lost := @refCount_lose tables first other
        have counted := enough other
        rw [isLowered] at lost
        rw [counts] at counted
        omega
      have lost := @surplus_lose tables first casKey
      have later := inductionHypothesis enoughLeft
      rw [isLowered] at lost
      rw [counts]
      change ((tables.lose first).loseAll rest).surplus casKey + _ = _
      push_cast
      omega

theorem uploads_loseAll (casKeys : List Bytes) (tables : Tables) :
    (tables.loseAll casKeys).multipartParts = tables.multipartParts ∧
      (tables.loseAll casKeys).multipartUploads = tables.multipartUploads := by
  induction casKeys generalizing tables with
  | nil => exact ⟨rfl, rfl⟩
  | cons first rest inductionHypothesis =>
      rcases inductionHypothesis (tables.lose first) with ⟨parts, uploads⟩
      exact ⟨parts.trans (by simp), uploads.trans (by simp)⟩

/-- The parts of a removed upload give their references back. -/
theorem surplus_removeUpload (uploadId casKey : Bytes) :
    (tables.removeUpload uploadId).surplus casKey =
      tables.surplus casKey + (tables.heldBy uploadId).count casKey := by
  have before := tables.partRefs_eq uploadId casKey
  have removed := (tables.removeUpload uploadId).partRefs_eq uploadId casKey
  rw [heldBy_removeUpload, outsideRefs_removeUpload, List.count_nil] at removed
  have counter : (tables.removeUpload uploadId).refCount casKey = tables.refCount casKey := by
    rw [removeUpload_eq]
    rfl
  have objects : (tables.removeUpload uploadId).objectRefs casKey = tables.objectRefs casKey := by
    rw [removeUpload_eq]
    rfl
  unfold surplus
  rw [counter, objects]
  omega

end Tables

end MiniS3.Db
