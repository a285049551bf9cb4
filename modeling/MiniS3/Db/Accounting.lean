import MiniS3.Db.CallEffects
import Mathlib.Data.Int.Interval

/-!
# Accounting for references

How the calls of the metadata store move references.  While an upload is released, its
part rows are still there but some of their references have been given back already:
`Owes uploadId owed tables` says that the counters are exact except that the parts of
the upload stand for the references `owed` only.  A release starts with the blobs of
all its parts owed, gives one back at a time, and ends with none; then the part rows
can go.
-/

namespace MiniS3.Db

open Lib

namespace Tables

/-- Number of `multipart_parts` rows outside an upload that refer to a blob. -/
def outsideRefs (uploadId : Bytes) (tables : Tables) (casKey : Bytes) : Nat :=
  tables.multipartParts.count fun entry row => entry.1 ≠ uploadId ∧ row.casKey = casKey

/-- The blobs that the parts of an upload refer to. -/
def heldBy (uploadId : Bytes) (tables : Tables) : List Bytes :=
  (tables.partsOf uploadId).map fun part => part.2.casKey

theorem mem_partsOf {uploadId : Bytes} {tables : Tables} {part : Int × PartRow} :
    part ∈ tables.partsOf uploadId ↔
      tables.multipartParts.lookup (uploadId, part.1) = some part.2 := by
  rw [← Table.mem_rows_iff]
  simp only [partsOf, List.mem_map, List.mem_filter, decide_eq_true_eq]
  constructor
  · rintro ⟨⟨⟨_, number⟩, row⟩, ⟨member, rfl⟩, rfl⟩
    exact member
  · intro member
    exact ⟨⟨(uploadId, part.1), part.2⟩, ⟨member, rfl⟩, rfl⟩

/-- References of parts, inside and outside an upload. -/
theorem partRefs_eq (uploadId : Bytes) (tables : Tables) (casKey : Bytes) :
    tables.partRefs casKey =
      tables.outsideRefs uploadId casKey + (tables.heldBy uploadId).count casKey := by
  simp only [partRefs, outsideRefs, heldBy, partsOf, Table.count, List.count, List.countP_map,
    List.countP_filter]
  induction tables.multipartParts.rows with
  | nil => rfl
  | cons entry rest inductionHypothesis =>
      simp only [List.countP_cons, inductionHypothesis, Function.comp]
      by_cases inside : entry.1.1 = uploadId <;> by_cases same : entry.2.casKey = casKey <;>
        simp [inside, same] <;> omega

end Tables

/-! ## Moving one reference -/

/-- A moved reference is lost by the old blob and gained by the new one. -/
theorem moved_move {tables : Tables} {old : Option Bytes} (new : Bytes) (size : Int)
    (counted : ∀ casKey, old = some casKey → casKey ≠ [] ∧ 0 < tables.refCount casKey) :
    Moved old (some new) tables (tables.move (old.getD []) new size) := by
  have gained : Moved none (some new) tables (tables.gain new size) :=
    moved_increment tables new size
  cases old with
  | none => exact gained
  | some casKey =>
      obtain ⟨nonempty, positive⟩ := counted casKey rfl
      unfold Tables.move
      simp only [Option.getD_some, List.isEmpty_iff, if_neg nonempty]
      by_cases same : casKey = new
      · subst same
        simp only [if_true]
        exact Moved.refl _ _
      · rw [if_neg same]
        refine gained.gain_lose ?_
        have kept : (tables.gain new size).casBlobs.lookup casKey =
            tables.casBlobs.lookup casKey := lookup_put_ne _ _ same
        cases stored : tables.casBlobs.lookup casKey with
        | none => simp [Tables.refCount, stored] at positive
        | some row =>
            have rowPositive : 0 < row.refCount := by
              simpa [Tables.refCount, stored] using positive
            simp only [Tables.lose, kept, stored]
            exact moved_decrement (kept.trans stored) rowPositive

/-- Losing a counted reference. -/
theorem moved_lose {tables : Tables} {casKey : Bytes} (positive : 0 < tables.refCount casKey) :
    Moved (some casKey) none tables (tables.lose casKey) := by
  cases stored : tables.casBlobs.lookup casKey with
  | none => simp [Tables.refCount, stored] at positive
  | some row =>
      have rowPositive : 0 < row.refCount := by
        simpa [Tables.refCount, stored] using positive
      simp only [Tables.lose, stored]
      exact moved_decrement stored rowPositive

/-! ## Releasing an upload -/

/-- The counters are exact, with the parts of the upload standing for the references
`owed`; no row has an empty blob key. -/
structure Owes (uploadId : Bytes) (owed : List Bytes) (tables : Tables) : Prop where
  counted : ∀ casKey, tables.refCount casKey =
    tables.objectRefs casKey + tables.outsideRefs uploadId casKey + owed.count casKey
  objectNonempty : ∀ entry row, tables.objects.lookup entry = some row → row.casKey ≠ []
  partNonempty : ∀ entry row, tables.multipartParts.lookup entry = some row → row.casKey ≠ []

/-- Exact counters owe the blobs of all parts. -/
theorem Exact.owes {tables : Tables} (exact : Exact .all tables) (uploadId : Bytes) :
    Owes uploadId (tables.heldBy uploadId) tables where
  counted casKey := by
    have total := exact.counted casKey
    simp only [references, Scope.all, if_true, tables.partRefs_eq uploadId casKey] at total
    omega
  objectNonempty := exact.objectNonempty rfl
  partNonempty := exact.partNonempty rfl

namespace Owes

variable {uploadId : Bytes} {owed : List Bytes} {tables : Tables}

/-- While all parts are owed, the counters are exact. -/
theorem exact (owes : Owes uploadId owed tables) (all : owed.Perm (tables.heldBy uploadId)) :
    Exact .all tables where
  counted casKey := by
    have total := owes.counted casKey
    simp only [references, Scope.all, if_true, tables.partRefs_eq uploadId casKey]
    rw [all.count_eq] at total
    omega
  objectNonempty _ := owes.objectNonempty
  partNonempty _ := owes.partNonempty

theorem perm {other : List Bytes} (owes : Owes uploadId owed tables) (same : owed.Perm other) :
    Owes uploadId other tables where
  counted casKey := by rw [← same.count_eq]; exact owes.counted casKey
  objectNonempty := owes.objectNonempty
  partNonempty := owes.partNonempty

/-- Give one reference back. -/
theorem lose {casKey : Bytes} (owes : Owes uploadId (casKey :: owed) tables) :
    Owes uploadId owed (tables.lose casKey) := by
  have positive : 0 < tables.refCount casKey := by
    rw [owes.counted casKey, List.count_cons_self]
    omega
  refine ⟨?_, by simpa using owes.objectNonempty, by simpa using owes.partNonempty⟩
  intro other
  have moved := moved_lose positive other
  have total := owes.counted other
  simp only [Tables.objectRefs, Tables.outsideRefs, Tables.objects_lose,
    Tables.multipartParts_lose] at total ⊢
  rw [List.count_cons] at total
  rw [refersTo_some, refersTo_none] at moved
  by_cases same : casKey = other
  · subst same
    simp only [beq_self_eq_true, if_true] at total moved
    omega
  · simp only [beq_iff_eq, if_neg same] at total moved
    omega

/-- A blob of a stored object is counted. -/
theorem refCount_pos_of_object (owes : Owes uploadId owed tables) {entry : Int × Bytes}
    {row : ObjectRow} (stored : tables.objects.lookup entry = some row) :
    0 < tables.refCount row.casKey := by
  have counted : 0 < tables.objectRefs row.casKey := Table.count_pos_of_lookup stored (by simp)
  have total := owes.counted row.casKey
  omega

/-- Writing an `objects` row while the counters move in the same way. -/
theorem of_object {after : Tables} (owes : Owes uploadId owed tables) (entry : Int × Bytes)
    (image : Option ObjectRow)
    (moved : Moved ((tables.objects.lookup entry).map ObjectRow.casKey)
      (image.map ObjectRow.casKey) tables after)
    (nonempty : ∀ row, image = some row → row.casKey ≠ [])
    (objectsAfter : after.objects = put entry image tables.objects)
    (partsAfter : after.multipartParts = tables.multipartParts) : Owes uploadId owed after := by
  refine ⟨?_, ?_, by rw [partsAfter]; exact owes.partNonempty⟩
  · intro casKey
    have counters := moved casKey
    have rows := objectRefs_apply_object tables entry image casKey
    have total := owes.counted casKey
    simp only [Tables.objectRefs, Tables.outsideRefs, objectsAfter, partsAfter,
      Tables.apply] at rows total ⊢
    omega
  · intro other row stored
    rw [objectsAfter] at stored
    by_cases same : other = entry
    · subst other
      rw [lookup_put_self] at stored
      exact nonempty row stored
    · rw [lookup_put_ne _ _ same] at stored
      exact owes.objectNonempty other row stored

/-- Storing an object whose index entry is free or has the same key. -/
theorem putObject (owes : Owes uploadId owed tables) {indexed : Bytes → Bytes} {bucketId : Int}
    {row : ObjectRow} (nonempty : row.casKey ≠ [])
    (sameKey : ∀ old, tables.objects.lookup (bucketId, indexed row.objectKey) = some old →
      old.objectKey = row.objectKey) :
    Owes uploadId owed (tables.putObject indexed bucketId row) := by
  have found : tables.findObject indexed bucketId row.objectKey =
      tables.objects.lookup (bucketId, indexed row.objectKey) := by
    unfold Tables.findObject
    cases stored : tables.objects.lookup (bucketId, indexed row.objectKey) with
    | none => rfl
    | some old => simp [sameKey old stored]
  have oldCounted : ∀ casKey, (tables.objects.lookup (bucketId, indexed row.objectKey)).map
      ObjectRow.casKey = some casKey → casKey ≠ [] ∧ 0 < tables.refCount casKey := by
    intro casKey same
    obtain ⟨old, stored, rfl⟩ := Option.map_eq_some_iff.mp same
    exact ⟨owes.objectNonempty _ _ stored, owes.refCount_pos_of_object stored⟩
  have moved := moved_move row.casKey row.size oldCounted
  refine owes.of_object (bucketId, indexed row.objectKey)
    (some (tables.upserted (bucketId, indexed row.objectKey) row)) ?_ ?_ ?_ ?_
  · intro casKey
    have total := moved casKey
    simpa [Tables.putObject, Tables.objectCas, found, Tables.upserted] using total
  · rintro other ⟨⟩
    exact nonempty
  · simp [Tables.putObject, Tables.apply]
  · simp [Tables.putObject, Tables.apply]

end Owes

/-- Storing a part while the counters are exact. -/
theorem Exact.putPart {tables : Tables} (exact : Exact .all tables) {uploadId : Bytes}
    {partNumber : Int} {row : PartRow} (nonempty : row.casKey ≠ []) :
    Exact .all (tables.putPart uploadId partNumber row) := by
  have oldCounted : ∀ casKey, (tables.multipartParts.lookup (uploadId, partNumber)).map
      PartRow.casKey = some casKey → casKey ≠ [] ∧ 0 < tables.refCount casKey := by
    intro casKey same
    obtain ⟨old, stored, rfl⟩ := Option.map_eq_some_iff.mp same
    exact ⟨exact.partNonempty rfl _ _ stored, exact.refCount_pos_of_part rfl stored⟩
  have moved := moved_move row.casKey row.size oldCounted
  refine exact.of_part rfl (uploadId, partNumber) (some row) ?_ ?_ ?_ ?_
  · intro casKey
    simpa [Tables.putPart, Tables.partCas] using moved casKey
  · rintro other ⟨⟩
    exact nonempty
  · simp [Tables.putPart, Tables.apply]
  · simp [Tables.putPart, Tables.apply]

/-! ## Removing the rows of an upload -/

theorem applyAll_removals (uploadId : Bytes) (numbers : List Int) (tables : Tables) :
    tables.applyAll (numbers.map fun number => .part (uploadId, number) none) =
      { tables with
        multipartParts := numbers.foldl (fun parts number => parts.erase (uploadId, number))
          tables.multipartParts } := by
  induction numbers generalizing tables with
  | nil => rfl
  | cons number rest inductionHypothesis =>
      rw [List.map_cons, Tables.applyAll_cons, inductionHypothesis]
      rfl

theorem removeUpload_eq (uploadId : Bytes) (tables : Tables) :
    tables.removeUpload uploadId =
      { tables with
        multipartUploads := tables.multipartUploads.erase uploadId
        multipartParts := ((tables.partsOf uploadId).map Prod.fst).foldl
          (fun parts number => parts.erase (uploadId, number)) tables.multipartParts } := by
  have images : (tables.partsOf uploadId).map (fun part => Write.part (uploadId, part.1) none) =
      ((tables.partsOf uploadId).map Prod.fst).map
        fun number => Write.part (uploadId, number) none := by
    rw [List.map_map]
    rfl
  unfold Tables.removeUpload
  rw [Tables.applyAll_cons, images, applyAll_removals]
  rfl

theorem lookup_foldl_erase (uploadId : Bytes) (numbers : List Int)
    (parts : Table (Bytes × Int) PartRow) (entry : Bytes × Int) :
    (numbers.foldl (fun parts number => parts.erase (uploadId, number)) parts).lookup entry =
      if entry.1 = uploadId ∧ entry.2 ∈ numbers then none else parts.lookup entry := by
  induction numbers generalizing parts with
  | nil => simp
  | cons number rest inductionHypothesis =>
      rw [List.foldl_cons, inductionHypothesis]
      by_cases own : entry = (uploadId, number)
      · subst own
        simp
      · rw [Table.lookup_erase_ne _ own]
        have other : ¬(entry.1 = uploadId ∧ entry.2 = number) :=
          fun same => own (Prod.ext same.1 same.2)
        by_cases inside : entry.1 = uploadId ∧ entry.2 ∈ rest <;> grind

/-- The parts of an upload go with it, and no other row does. -/
theorem lookup_removeUpload (uploadId : Bytes) (tables : Tables) (entry : Bytes × Int) :
    (tables.removeUpload uploadId).multipartParts.lookup entry =
      if entry.1 = uploadId then none else tables.multipartParts.lookup entry := by
  rw [removeUpload_eq]
  simp only [lookup_foldl_erase, List.mem_map]
  by_cases inside : entry.1 = uploadId
  · subst inside
    simp only [true_and, if_true, ite_eq_left_iff]
    intro absent
    cases stored : tables.multipartParts.lookup entry with
    | none => rfl
    | some row =>
        exact absurd ⟨(entry.2, row), Tables.mem_partsOf.mpr stored, rfl⟩ absent
  · simp [inside]

theorem count_foldl_erase (uploadId : Bytes) (casKey : Bytes) (numbers : List Int)
    (parts : Table (Bytes × Int) PartRow) :
    (numbers.foldl (fun parts number => parts.erase (uploadId, number)) parts).count
        (fun entry row => entry.1 ≠ uploadId ∧ row.casKey = casKey) =
      parts.count (fun entry row => entry.1 ≠ uploadId ∧ row.casKey = casKey) := by
  induction numbers generalizing parts with
  | nil => rfl
  | cons number rest inductionHypothesis =>
      rw [List.foldl_cons, inductionHypothesis]
      have removed := Table.count_erase
        (fun (entry : Bytes × Int) (part : PartRow) =>
          decide (entry.1 ≠ uploadId ∧ part.casKey = casKey)) (uploadId, number) parts
      have unaffected : (parts.lookup (uploadId, number)).elim 0 (fun part =>
          (decide ((uploadId, number).1 ≠ uploadId ∧ part.casKey = casKey)).toNat) = 0 := by
        cases parts.lookup (uploadId, number) <;> simp
      omega

theorem heldBy_removeUpload (uploadId : Bytes) (tables : Tables) :
    (tables.removeUpload uploadId).heldBy uploadId = [] := by
  rw [Tables.heldBy, List.map_eq_nil_iff, List.eq_nil_iff_forall_not_mem]
  intro part member
  rw [Tables.mem_partsOf, lookup_removeUpload] at member
  simp at member

theorem outsideRefs_removeUpload (uploadId : Bytes) (tables : Tables) (casKey : Bytes) :
    (tables.removeUpload uploadId).outsideRefs uploadId casKey =
      tables.outsideRefs uploadId casKey := by
  rw [removeUpload_eq]
  exact count_foldl_erase _ _ _ _

/-- Once nothing is owed, the upload can be removed. -/
theorem Owes.removeUpload {uploadId : Bytes} {tables : Tables} (owes : Owes uploadId [] tables) :
    Exact .all (tables.removeUpload uploadId) := by
  have after : Owes uploadId [] (tables.removeUpload uploadId) := by
    refine ⟨?_, ?_, ?_⟩
    · intro casKey
      have total := owes.counted casKey
      rw [outsideRefs_removeUpload, removeUpload_eq]
      exact total
    · rw [removeUpload_eq]
      exact owes.objectNonempty
    · intro entry row stored
      rw [lookup_removeUpload] at stored
      split at stored
      · contradiction
      · exact owes.partNonempty entry row stored
  exact after.exact (by rw [heldBy_removeUpload])

/-! ## Listing parts -/

/-- The part numbers of an upload are in the range that `UploadPart` accepts. -/
def Numbered (uploadId : Bytes) (tables : Tables) : Prop :=
  ∀ number row, tables.multipartParts.lookup (uploadId, number) = some row →
    1 ≤ number ∧ number ≤ 10000

theorem length_partsOf_le {uploadId : Bytes} {tables : Tables}
    (numbered : Numbered uploadId tables) : (tables.partsOf uploadId).length ≤ 10000 := by
  have distinct : ((tables.partsOf uploadId).map Prod.fst).Nodup := by
    have keys : (tables.multipartParts.rows.filter fun entry =>
        entry.1.1 = uploadId).NodupKeys :=
      (AList.nodupKeys tables.multipartParts).sublist List.filter_sublist
    have numbers : (tables.partsOf uploadId).map Prod.fst =
        (tables.multipartParts.rows.filter fun entry => entry.1.1 = uploadId).keys.map
          Prod.snd := by
      simp only [Tables.partsOf, List.keys, List.map_map]
      rfl
    rw [numbers]
    refine List.Nodup.map_on ?_ keys
    intro first firstMember second secondMember same
    simp only [List.keys, List.mem_map, List.mem_filter, decide_eq_true_eq] at firstMember secondMember
    obtain ⟨firstEntry, ⟨_, firstUpload⟩, rfl⟩ := firstMember
    obtain ⟨secondEntry, ⟨_, secondUpload⟩, rfl⟩ := secondMember
    exact Prod.ext (firstUpload.trans secondUpload.symm) same
  have inRange : ((tables.partsOf uploadId).map Prod.fst).toFinset ⊆ Finset.Icc 1 10000 := by
    intro number member
    rw [List.mem_toFinset, List.mem_map] at member
    obtain ⟨part, member, rfl⟩ := member
    rw [Finset.mem_Icc]
    exact numbered part.1 part.2 (Tables.mem_partsOf.mp member)
  have bound := Finset.card_le_card inRange
  rw [List.toFinset_card_of_nodup distinct, List.length_map, Int.card_Icc] at bound
  exact bound

/-- The whole list fits into one page. -/
theorem perm_listedParts {uploadId : Bytes} {tables : Tables}
    (numbered : Numbered uploadId tables) :
    ((tables.listedParts uploadId 0 (10000 + 1)).take (10000 : Int).toNat).Perm
      (tables.partsOf uploadId) := by
  have positive : (tables.partsOf uploadId).filter (fun part => (0 : Int) < part.1) =
      tables.partsOf uploadId := by
    rw [List.filter_eq_self]
    intro part member
    have range := numbered part.1 part.2 (Tables.mem_partsOf.mp member)
    simp only [decide_eq_true_eq]
    omega
  have short := length_partsOf_le numbered
  have sorted := List.perm_insertionSort (fun one two : Int × PartRow => one.1 ≤ two.1)
    (tables.partsOf uploadId)
  unfold Tables.listedParts
  rw [positive, List.take_take, List.take_of_length_le]
  · exact sorted
  · rw [sorted.length_eq]
    simpa using short

end MiniS3.Db
