import MiniS3.Db.Schema

/-!
# Reference counts

A blob is referred to by rows of `objects` and of `multipart_parts`.  The counter
in `cas_blobs` is exact when it equals the number of those rows, for every blob;
`Exact` says so for the kinds of rows a `Scope` counts.

Operations move references: `Moved old new before after` says that the counters
lose the reference `old` and gain the reference `new`, whatever the two are.  A
row that is written moves the number of referring rows in the same way, so an
operation that does both keeps the counters exact.
-/

namespace MiniS3.Db

open Lib

namespace Tables

/-- `ref_count` of a blob, 0 without a row. -/
def refCount (tables : Tables) (casKey : Bytes) : Nat :=
  (tables.casBlobs.lookup casKey).elim 0 CasBlobRow.refCount

/-- Number of `objects` rows that refer to a blob. -/
def objectRefs (tables : Tables) (casKey : Bytes) : Nat :=
  tables.objects.count fun _ row => row.casKey = casKey

/-- Number of `multipart_parts` rows that refer to a blob. -/
def partRefs (tables : Tables) (casKey : Bytes) : Nat :=
  tables.multipartParts.count fun _ row => row.casKey = casKey

end Tables

/-- Which rows count as references. -/
structure Scope where
  objects : Bool
  parts : Bool

namespace Scope

/-- References from rows of both kinds. -/
def all : Scope :=
  ⟨true, true⟩

/-- References from `objects`. -/
def objectsOnly : Scope :=
  ⟨true, false⟩

/-- References from `multipart_parts`. -/
def partsOnly : Scope :=
  ⟨false, true⟩

end Scope

/-- Number of counted rows that refer to a blob. -/
def references (scope : Scope) (tables : Tables) (casKey : Bytes) : Nat :=
  (if scope.objects then tables.objectRefs casKey else 0) +
    if scope.parts then tables.partRefs casKey else 0

/-- The counters are exact, and no counted row has an empty blob key, which the
metadata store reads as the absence of one. -/
structure Exact (scope : Scope) (tables : Tables) : Prop where
  counted : ∀ casKey, tables.refCount casKey = references scope tables casKey
  objectNonempty : scope.objects = true → ∀ entry row,
    tables.objects.lookup entry = some row → row.casKey ≠ []
  partNonempty : scope.parts = true → ∀ entry row,
    tables.multipartParts.lookup entry = some row → row.casKey ≠ []

/-- The number of times an optional reference refers to a blob. -/
def refersTo (reference : Option Bytes) (casKey : Bytes) : Nat :=
  reference.elim 0 fun referred => (decide (referred = casKey)).toNat

@[simp]
theorem refersTo_none (casKey : Bytes) : refersTo none casKey = 0 :=
  rfl

theorem refersTo_some (referred casKey : Bytes) :
    refersTo (some referred) casKey = if referred = casKey then 1 else 0 := by
  by_cases same : referred = casKey <;> simp [refersTo, same]

/-- The counters lose the reference `old` and gain the reference `new`. -/
def Moved (old new : Option Bytes) (before after : Tables) : Prop :=
  ∀ casKey, after.refCount casKey + refersTo old casKey =
    before.refCount casKey + refersTo new casKey

theorem Moved.refl (reference : Option Bytes) (tables : Tables) :
    Moved reference reference tables tables :=
  fun _ => rfl

/-- First gain a reference, then lose one. -/
theorem Moved.gain_lose {old new : Option Bytes} {before middle after : Tables}
    (gain : Moved none new before middle) (lose : Moved old none middle after) :
    Moved old new before after := by
  intro casKey
  have gained := gain casKey
  have lost := lose casKey
  simp only [refersTo_none] at gained lost
  omega

/-! ## What the images of one table do -/

section Images

variable (tables : Tables)

theorem refCount_apply_casBlob (casKey other : Bytes) (image : Option CasBlobRow) :
    (tables.apply (.casBlob casKey image)).refCount other =
      if other = casKey then image.elim 0 CasBlobRow.refCount else tables.refCount other := by
  unfold Tables.refCount
  by_cases same : other = casKey
  · subst other
    simp only [Tables.apply, lookup_put_self, if_true]
  · simp only [Tables.apply, lookup_put_ne _ _ same, if_neg same]

@[simp]
theorem refCount_apply_object (entry : Int × Bytes) (image : Option ObjectRow)
    (casKey : Bytes) :
    (tables.apply (.object entry image)).refCount casKey = tables.refCount casKey :=
  rfl

@[simp]
theorem refCount_apply_part (entry : Bytes × Int) (image : Option PartRow) (casKey : Bytes) :
    (tables.apply (.part entry image)).refCount casKey = tables.refCount casKey :=
  rfl

theorem count_put {κ ν : Type} [DecidableEq κ] (property : ν → Bool) (key : κ)
    (image : Option ν) (table : Table κ ν) :
    (put key image table).count (fun _ row => property row) +
        (table.lookup key).elim 0 (fun row => (property row).toNat) =
      table.count (fun _ row => property row) +
        image.elim 0 (fun row => (property row).toNat) := by
  cases image with
  | none => exact Table.count_erase _ key table
  | some row => exact Table.count_set _ key row table

theorem objectRefs_apply_object (entry : Int × Bytes) (image : Option ObjectRow)
    (casKey : Bytes) :
    (tables.apply (.object entry image)).objectRefs casKey +
        refersTo ((tables.objects.lookup entry).map ObjectRow.casKey) casKey =
      tables.objectRefs casKey + refersTo (image.map ObjectRow.casKey) casKey := by
  have counted := count_put (fun row : ObjectRow => decide (row.casKey = casKey)) entry image
    tables.objects
  simp only [refersTo, Option.elim_map]
  exact counted

theorem partRefs_apply_part (entry : Bytes × Int) (image : Option PartRow) (casKey : Bytes) :
    (tables.apply (.part entry image)).partRefs casKey +
        refersTo ((tables.multipartParts.lookup entry).map PartRow.casKey) casKey =
      tables.partRefs casKey + refersTo (image.map PartRow.casKey) casKey := by
  have counted := count_put (fun row : PartRow => decide (row.casKey = casKey)) entry image
    tables.multipartParts
  simp only [refersTo, Option.elim_map]
  exact counted

end Images

/-- The image of an increment gains one reference. -/
theorem moved_increment (tables : Tables) (casKey : Bytes) (size : Int) :
    Moved none (some casKey) tables (tables.apply (.casBlob casKey
      (some (CasBlobRow.incremented size (tables.casBlobs.lookup casKey))))) := by
  intro other
  rw [refCount_apply_casBlob, refersTo_some]
  by_cases same : other = casKey
  · subst other
    cases stored : tables.casBlobs.lookup casKey <;>
      simp [Tables.refCount, stored, CasBlobRow.incremented]
  · simp [same, Ne.symm same]

/-- The image of a decrement loses one reference, if there was one. -/
theorem moved_decrement {tables : Tables} {casKey : Bytes} {row : CasBlobRow}
    (stored : tables.casBlobs.lookup casKey = some row) (positive : 0 < row.refCount) :
    Moved (some casKey) none tables (tables.apply (.casBlob casKey (some row.decremented))) := by
  intro other
  rw [refCount_apply_casBlob, refersTo_some]
  by_cases same : other = casKey
  · subst other
    simp only [CasBlobRow.decremented, Option.elim_some, if_true, positive, Tables.refCount,
      stored, refersTo_none]
    omega
  · simp [same, Ne.symm same]

/-! ## Keeping the counters exact -/

/-- Counters that move with an `objects` row still count the rows. -/
theorem references_of_object (scope : Scope) {tables after : Tables}
    (counted : ∀ casKey, tables.refCount casKey = references scope tables casKey)
    (objects : scope.objects = true) (entry : Int × Bytes) (image : Option ObjectRow)
    (moved : Moved ((tables.objects.lookup entry).map ObjectRow.casKey)
      (image.map ObjectRow.casKey) tables after)
    (objectsAfter : after.objects = put entry image tables.objects)
    (partsAfter : after.multipartParts = tables.multipartParts) (casKey : Bytes) :
    after.refCount casKey = references scope after casKey := by
  have counters := moved casKey
  have rows := objectRefs_apply_object tables entry image casKey
  have sameRows : after.objectRefs casKey =
      (tables.apply (.object entry image)).objectRefs casKey := by
    simp only [Tables.objectRefs, objectsAfter, Tables.apply]
  have sameParts : after.partRefs casKey = tables.partRefs casKey := by
    simp only [Tables.partRefs, partsAfter]
  have total := counted casKey
  simp only [references, objects, if_true] at total ⊢
  rw [sameParts, sameRows]
  omega

namespace Exact

variable {scope : Scope} {tables after : Tables} {old new : Option Bytes}

/-- Tables that agree on counters and referring rows are equally exact. -/
theorem congr (exact : Exact scope tables) (casBlobs : after.casBlobs = tables.casBlobs)
    (objects : after.objects = tables.objects)
    (parts : after.multipartParts = tables.multipartParts) : Exact scope after := by
  refine ⟨?_, ?_, ?_⟩
  · intro casKey
    have total := exact.counted casKey
    simpa only [references, Tables.refCount, Tables.objectRefs, Tables.partRefs, casBlobs,
      objects, parts] using total
  · rw [objects]
    exact exact.objectNonempty
  · rw [parts]
    exact exact.partNonempty

/-- A counted row is counted. -/
theorem refCount_pos_of_object (exact : Exact scope tables) (objects : scope.objects = true)
    {entry : Int × Bytes} {row : ObjectRow} (stored : tables.objects.lookup entry = some row) :
    0 < tables.refCount row.casKey := by
  have counted : 0 < tables.objectRefs row.casKey :=
    Table.count_pos_of_lookup stored (by simp)
  have total := exact.counted row.casKey
  simp only [references, objects, if_true] at total
  omega

theorem refCount_pos_of_part (exact : Exact scope tables) (parts : scope.parts = true)
    {entry : Bytes × Int} {row : PartRow}
    (stored : tables.multipartParts.lookup entry = some row) :
    0 < tables.refCount row.casKey := by
  have counted : 0 < tables.partRefs row.casKey :=
    Table.count_pos_of_lookup stored (by simp)
  have total := exact.counted row.casKey
  simp only [references, parts, if_true] at total
  omega

/-- Writing an `objects` row while the counters move in the same way. -/
theorem of_object (exact : Exact scope tables) (objects : scope.objects = true)
    (entry : Int × Bytes) (image : Option ObjectRow)
    (moved : Moved ((tables.objects.lookup entry).map ObjectRow.casKey)
      (image.map ObjectRow.casKey) tables after)
    (nonempty : ∀ row, image = some row → row.casKey ≠ [])
    (objectsAfter : after.objects = put entry image tables.objects)
    (partsAfter : after.multipartParts = tables.multipartParts) : Exact scope after := by
  refine ⟨?_, ?_, ?_⟩
  · exact references_of_object _ exact.counted objects _ _ moved objectsAfter partsAfter
  · intro _ other row stored
    rw [objectsAfter] at stored
    by_cases same : other = entry
    · subst other
      rw [lookup_put_self] at stored
      exact nonempty row stored
    · rw [lookup_put_ne _ _ same] at stored
      exact exact.objectNonempty objects other row stored
  · rw [partsAfter]
    exact exact.partNonempty

/-- Writing a `multipart_parts` row while the counters move in the same way. -/
theorem of_part (exact : Exact scope tables) (parts : scope.parts = true)
    (entry : Bytes × Int) (image : Option PartRow)
    (moved : Moved ((tables.multipartParts.lookup entry).map PartRow.casKey)
      (image.map PartRow.casKey) tables after)
    (nonempty : ∀ row, image = some row → row.casKey ≠ [])
    (partsAfter : after.multipartParts = put entry image tables.multipartParts)
    (objectsAfter : after.objects = tables.objects) : Exact scope after := by
  refine ⟨?_, ?_, ?_⟩
  · intro casKey
    have counters := moved casKey
    have rows := partRefs_apply_part tables entry image casKey
    have sameRows : after.partRefs casKey =
        (tables.apply (.part entry image)).partRefs casKey := by
      simp only [Tables.partRefs, partsAfter, Tables.apply]
    have sameObjects : after.objectRefs casKey = tables.objectRefs casKey := by
      simp only [Tables.objectRefs, objectsAfter]
    have total := exact.counted casKey
    simp only [references, parts, if_true] at total ⊢
    rw [sameObjects, sameRows]
    omega
  · rw [objectsAfter]
    exact exact.objectNonempty
  · intro _ other row stored
    rw [partsAfter] at stored
    by_cases same : other = entry
    · subst other
      rw [lookup_put_self] at stored
      exact nonempty row stored
    · rw [lookup_put_ne _ _ same] at stored
      exact exact.partNonempty parts other row stored

/-- A blob row that is deleted has no references. -/
theorem deleteCasBlob {tables : Tables} (exact : Exact .all tables) {casKey : Bytes}
    (noObject : tables.objectRefs casKey = 0) (noPart : tables.partRefs casKey = 0) :
    Exact .all (tables.apply (.casBlob casKey none)) := by
  refine ⟨?_, exact.objectNonempty, exact.partNonempty⟩
  intro other
  have total := exact.counted other
  rw [refCount_apply_casBlob]
  by_cases same : other = casKey
  · subst same
    simp only [references, Scope.all, if_true] at total ⊢
    simp only [Tables.objectRefs, Tables.partRefs, Tables.apply] at noObject noPart ⊢
    simp [noObject, noPart]
  · rw [if_neg same]
    exact total

end Exact

/-- A blob key of 64 equal hexadecimal digits. -/
def blobKey (digit : Char) : Bytes :=
  List.replicate 64 (UInt8.ofNat digit.toNat)

/-- One bucket with one object, stored in the blob `aa...a`. -/
def Tables.withObject (indexed : Bytes → Bytes) (key : Bytes) : Tables :=
  { Tables.empty with
    buckets := Table.set 1 (ascii "default") ∅
    casBlobs := Table.set (blobKey 'a') ⟨5, 1⟩ ∅
    objects := Table.set (1, indexed key) ⟨key, blobKey 'a', 5, ascii "text/plain",
      ascii "e"⟩ ∅ }

namespace Tables

variable (indexed : Bytes → Bytes) (key : Bytes)

theorem withObject_object (entry : Int × Bytes) (row : ObjectRow)
    (stored : (withObject indexed key).objects.lookup entry = some row) :
    entry = (1, indexed key) ∧ row = ⟨key, blobKey 'a', 5, ascii "text/plain", ascii "e"⟩ := by
  rw [withObject, Table.lookup_set] at stored
  split at stored
  · rename_i same
    exact ⟨same, (Option.some.inj stored).symm⟩
  · contradiction

theorem withObject_counted (casKey : Bytes) :
    (withObject indexed key).refCount casKey =
      (withObject indexed key).objectRefs casKey + (withObject indexed key).partRefs casKey := by
  have counted : (withObject indexed key).objectRefs casKey =
      [blobKey 'a'].countP fun referred => decide (referred = casKey) := rfl
  have unreferred : (withObject indexed key).partRefs casKey = 0 := rfl
  rw [counted, unreferred, Tables.refCount, withObject, Table.lookup_set]
  by_cases same : casKey = blobKey 'a'
  · simp [same]
  · simp [same, Ne.symm same]

end Tables

end MiniS3.Db
