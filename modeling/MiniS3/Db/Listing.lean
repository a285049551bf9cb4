import MiniS3.Db.Collation
import MiniS3.Db.KeyPrefix
import MiniS3.Lib.Paging

/-!
# Listing objects and parts

`ListObjects` and `ListParts` fetch one row more than a page holds.  The key of that row is
the marker of the next page, which begins behind the marker, so that the row itself is on
neither page.  A key is read up to its first NUL, so that a key with a NUL is on no page at
all.  The keys are in the order of a collation that is left open.
-/

namespace MiniS3.Db

open Lib Paging MetaStore

section Sorting

variable {α : Type} (order : α → α → Prop) [DecidableRel order] [IsTrans α order]

theorem filter_orderedInsert (check : α → Bool) (item : α) {items : List α}
    (sorted : items.Pairwise order) :
    (items.orderedInsert order item).filter check =
      if check item then (items.filter check).orderedInsert order item
      else items.filter check := by
  induction items with
  | nil => cases passed : check item <;> simp [passed]
  | cons head rest inductionHypothesis =>
      rcases List.pairwise_cons.mp sorted with ⟨lowest, sortedRest⟩
      by_cases first : order item head
      · rw [List.orderedInsert_cons_of_le order rest first, List.filter_cons]
        cases passed : check item with
        | false => rfl
        | true =>
            rw [if_pos rfl, if_pos rfl]
            -- the item goes before whatever is left of the list
            cases left : (head :: rest).filter check with
            | nil => rfl
            | cons next others =>
                have member : next ∈ head :: rest :=
                  List.mem_of_mem_filter (left ▸ List.mem_cons_self)
                have before : order item next := by
                  rcases List.mem_cons.mp member with rfl | later
                  · exact first
                  · exact IsTrans.trans _ _ _ first (lowest next later)
                exact (List.orderedInsert_cons_of_le order others before).symm
      · rw [List.orderedInsert_of_not_le order rest first, List.filter_cons, List.filter_cons,
          inductionHypothesis sortedRest]
        cases passed : check item with
        | false => rfl
        | true =>
            cases check head with
            | false => rfl
            | true =>
                rw [if_pos rfl, if_pos rfl, if_pos rfl, if_pos rfl,
                  List.orderedInsert_of_not_le order _ first]

/-- Sorting what passes a check is checking what is sorted. -/
theorem filter_insertionSort [Std.Total order] (check : α → Bool) (items : List α) :
    (items.filter check).insertionSort order = (items.insertionSort order).filter check := by
  induction items with
  | nil => rfl
  | cons item rest inductionHypothesis =>
      rw [List.insertionSort_cons, filter_orderedInsert order check item
        (List.pairwise_insertionSort order rest), ← inductionHypothesis, List.filter_cons]
      split <;> rfl

end Sorting

instance (collation : Collation) :
    Std.Total fun one two : ObjectRow => collation.Le one.objectKey two.objectKey :=
  ⟨fun one two =>
    List.le_total (collation.sortKey one.objectKey) (collation.sortKey two.objectKey)⟩

instance (collation : Collation) :
    IsTrans ObjectRow fun one two => collation.Le one.objectKey two.objectKey :=
  ⟨fun _ _ _ first second => List.le_trans first second⟩

instance : Std.Total fun one two : Int × PartRow => one.1 ≤ two.1 :=
  ⟨fun one two => Int.le_total one.1 two.1⟩

instance : IsTrans (Int × PartRow) fun one two => one.1 ≤ two.1 :=
  ⟨fun _ _ _ first second => Int.le_trans first second⟩

namespace Tables

/-- The rows of a bucket in the order of their keys. -/
def sortedObjects (collation : Collation) (tables : Tables) (bucketId : Int) : List ObjectRow :=
  ((tables.objects.rows.filter fun entry => entry.1.1 = bucketId).map
    fun entry => entry.2).insertionSort fun one two => collation.Le one.objectKey two.objectKey

/-- The parts of an upload in the order of their numbers. -/
def sortedParts (tables : Tables) (uploadId : Bytes) : List (Int × PartRow) :=
  (tables.partsOf uploadId).insertionSort fun one two => one.1 ≤ two.1

theorem mem_sortedObjects {collation : Collation} {tables : Tables} {bucketId : Int}
    {row : ObjectRow} : row ∈ tables.sortedObjects collation bucketId ↔
      ∃ entry, tables.objects.lookup (bucketId, entry) = some row := by
  rw [sortedObjects, List.mem_insertionSort, List.mem_map]
  constructor
  · rintro ⟨⟨⟨bucket, entry⟩, stored⟩, member, rfl⟩
    rcases List.mem_filter.mp member with ⟨inTable, same⟩
    obtain rfl : bucket = bucketId := by simpa using same
    exact ⟨entry, Table.mem_rows_iff.mp inTable⟩
  · rintro ⟨entry, stored⟩
    exact ⟨⟨(bucketId, entry), row⟩, List.mem_filter.mpr
      ⟨Table.mem_rows_iff.mpr stored, by simp⟩, rfl⟩

theorem mem_sortedParts {tables : Tables} {uploadId : Bytes} {number : Int} {row : PartRow} :
    (number, row) ∈ tables.sortedParts uploadId ↔
      tables.multipartParts.lookup (uploadId, number) = some row := by
  rw [sortedParts, List.mem_insertionSort, partsOf, List.mem_map]
  constructor
  · rintro ⟨⟨⟨upload, stored⟩, part⟩, member, equal⟩
    rcases List.mem_filter.mp member with ⟨inTable, same⟩
    obtain rfl : upload = uploadId := by simpa using same
    cases equal
    exact Table.mem_rows_iff.mp inTable
  · intro stored
    exact ⟨⟨(uploadId, number), row⟩, List.mem_filter.mpr
      ⟨Table.mem_rows_iff.mpr stored, by simp⟩, rfl⟩

end Tables

/-- Rows of a bucket have different keys. -/
theorem SatisfiesSchema.eq_of_objectKey {tables : Tables} (schema : SatisfiesSchema tables)
    {collation : Collation} {bucketId : Int} {one two : ObjectRow}
    (first : one ∈ tables.sortedObjects collation bucketId)
    (second : two ∈ tables.sortedObjects collation bucketId)
    (same : one.objectKey = two.objectKey) : one = two := by
  rcases Tables.mem_sortedObjects.mp first with ⟨entry, stored⟩
  rcases Tables.mem_sortedObjects.mp second with ⟨other, otherStored⟩
  have isEntry : entry = ukBucketKey one.objectKey := schema.objectEntry _ _ stored
  have isOther : other = ukBucketKey two.objectKey := schema.objectEntry _ _ otherStored
  rw [isEntry, same, ← isOther, otherStored] at stored
  exact (Option.some.inj stored).symm

theorem Tables.eq_of_partNumber {tables : Tables} {uploadId : Bytes} {one two : Int × PartRow}
    (first : one ∈ tables.sortedParts uploadId) (second : two ∈ tables.sortedParts uploadId)
    (same : one.1 = two.1) : one = two := by
  have stored := Tables.mem_sortedParts.mp first
  have otherStored := Tables.mem_sortedParts.mp second
  rw [same, otherStored] at stored
  exact Prod.ext same (Option.some.inj stored).symm

/-! ## Cursors -/

/-- The next page of objects begins behind the marker, which is the key of a row as it is read;
without a marker it is the first page. -/
def objectCursor (collation : Collation) : Cursor ObjectRow Bytes where
  mark row := row.objectKey.cString
  beyond marker row := collation.beyond marker row

/-- The next page of parts begins behind the number of the marker. -/
def partCursor : Cursor (Int × PartRow) Int where
  mark part := part.1
  beyond marker part := decide (marker < part.1)

theorem SatisfiesSchema.nodup_sortedObjects {tables : Tables} (schema : SatisfiesSchema tables)
    (collation : Collation) (bucketId : Int) : (tables.sortedObjects collation bucketId).Nodup := by
  refine (List.perm_insertionSort _ _).nodup_iff.mpr ?_
  have distinct : tables.objects.rows.Nodup := (AList.nodupKeys tables.objects).nodup
  refine (distinct.filter _).map_on ?_
  rintro ⟨entry, row⟩ member ⟨other, otherRow⟩ otherMember same
  simp only at same
  subst same
  rcases List.mem_filter.mp member with ⟨inTable, inBucket⟩
  rcases List.mem_filter.mp otherMember with ⟨otherInTable, otherInBucket⟩
  have isEntry := schema.objectEntry _ _ (Table.mem_rows_iff.mp inTable)
  have isOther := schema.objectEntry _ _ (Table.mem_rows_iff.mp otherInTable)
  have sameBucket : entry.1 = other.1 := by
    simp only [decide_eq_true_eq] at inBucket otherInBucket
    rw [inBucket, otherInBucket]
  rw [Prod.ext sameBucket (isEntry.trans isOther.symm)]

/-- Keys without a NUL lead further and further; the empty key alone is the marker of the first
page. -/
theorem climbs_objectCursor (collation : Collation) {rows : List ObjectRow}
    (whole : ∀ row ∈ rows, 0 ∉ row.objectKey) :
    (objectCursor collation).Climbs (fun marker => marker = []) rows where
  apart row member notStart := by
    have marked : row.objectKey.cString = row.objectKey :=
      Bytes.cString_eq_self_iff.mpr (whole row member)
    simp only [objectCursor, marked] at notStart ⊢
    simp [Collation.beyond, notStart]
  upward marker row member notStart isBeyond other _ further := by
    have marked : row.objectKey.cString = row.objectKey :=
      Bytes.cString_eq_self_iff.mpr (whole row member)
    simp only [objectCursor, marked, Collation.beyond, Bool.or_eq_true, List.isEmpty_iff,
      decide_eq_true_eq] at notStart isBeyond further ⊢
    exact isBeyond.imp_right fun less => List.lt_trans less (further.resolve_left notStart)

theorem climbs_partCursor (rows : List (Int × PartRow)) :
    partCursor.Climbs (fun _ => False) rows where
  apart row _ _ := by simp [partCursor]
  upward marker row _ _ isBeyond other _ further := by
    simp only [partCursor, decide_eq_true_eq] at isBeyond further ⊢
    omega

theorem Tables.strictParts (tables : Tables) (uploadId : Bytes) :
    (tables.sortedParts uploadId).Pairwise fun one two => one.1 < two.1 := by
  have distinct : (tables.partsOf uploadId).Nodup := by
    have rows : tables.multipartParts.rows.Nodup := (AList.nodupKeys tables.multipartParts).nodup
    refine (rows.filter _).map_on ?_
    rintro ⟨entry, row⟩ member ⟨other, otherRow⟩ otherMember same
    have inUpload := (List.mem_filter.mp member).2
    have otherInUpload := (List.mem_filter.mp otherMember).2
    simp only [decide_eq_true_eq] at inUpload otherInUpload
    rcases Prod.mk.inj same with ⟨sameNumber, rfl⟩
    rw [Prod.ext (inUpload.trans otherInUpload.symm) sameNumber]
  have ordered := List.pairwise_insertionSort
    (fun one two : Int × PartRow => one.1 ≤ two.1) (tables.partsOf uploadId)
  have nodup : (tables.sortedParts uploadId).Nodup :=
    (List.perm_insertionSort _ _).nodup_iff.mpr distinct
  refine (ordered.and nodup).imp_of_mem ?_
  rintro one two first second ⟨le, different⟩
  by_contra notLess
  exact different (Tables.eq_of_partNumber first second (by omega))

/-! ## Pages -/

section Pages

variable (collation : Collation) (tables : Tables) (caches : Caches) (clock : Clock)

/-- A page of objects, as a caller sees it: the objects, and where the next page begins. -/
def objectPage (bucketId maxKeys : Int) (startAfter : Bytes) :
    Option (List ObjectInfo × Option Bytes) :=
  match ((MetaCall.listObjects bucketId [] startAfter maxKeys).performUnder ukBucketKey collation []
    clock tables caches).1 with
  | .error _ => none
  | .ok page =>
      some (page.objects, if page.isTruncated then some page.nextContinuationToken else none)

/-- A page of parts, as a caller sees it. -/
def partPage (uploadId : Bytes) (maxParts marker : Int) :
    Option (List MultipartPartInfo × Option Int) :=
  match ((MetaCall.listParts uploadId marker maxParts).perform ukBucketKey [] clock tables
    caches).1 with
  | .error _ => none
  | .ok page => some (page.parts, if page.isTruncated then some page.nextPartNumberMarker else none)

variable {tables}

/-- One row more than a page holds tells whether there is another page. -/
theorem take_one_more {α : Type} {limit : Int} (positive : 1 ≤ limit) (items : List α) :
    (items.take (limit + 1).toNat).take limit.toNat = items.take limit.toNat ∧
      ((items.take (limit + 1).toNat).drop limit.toNat).head? =
        (items.drop limit.toNat).head? := by
  have oneMore : (limit + 1).toNat = limit.toNat + 1 := by omega
  rw [oneMore]
  constructor
  · rw [List.take_take, Nat.min_eq_left (Nat.le_succ _)]
  · rw [List.head?_drop, List.head?_drop, List.getElem?_take_of_lt (Nat.lt_succ_self _)]

/-- The page that `ListObjects` makes of the rows it has fetched. -/
def pageOf (bucketId maxKeys : Int) (rows : List ObjectRow) : ListObjectsResult :=
  let objects := (rows.take maxKeys.toNat).map (ObjectRow.read bucketId)
  match rows.drop maxKeys.toNat with
  | [] => ⟨objects, false, []⟩
  | overflow :: _ => ⟨objects, true, overflow.objectKey.cString⟩

theorem shown_pageOf (bucketId maxKeys : Int) (rows : List ObjectRow) :
    ((pageOf bucketId maxKeys rows).objects, if (pageOf bucketId maxKeys rows).isTruncated then
        some (pageOf bucketId maxKeys rows).nextContinuationToken else none) =
      ((rows.take maxKeys.toNat).map (ObjectRow.read bucketId),
        (rows.drop maxKeys.toNat).head?.map fun row => row.objectKey.cString) := by
  unfold pageOf
  cases rows.drop maxKeys.toNat <;> rfl

variable (tables) in
/-- The rows that `ListObjects` fetches. -/
theorem fetched_eq (bucketId : Int) (keyPrefix startAfter : Bytes) :
    (((tables.objects.rows.filter fun entry => entry.1.1 = bucketId).map
      fun entry => entry.2).filter fun row =>
        collation.matchesPrefix keyPrefix row && collation.beyond startAfter row).insertionSort
          (fun one two => collation.Le one.objectKey two.objectKey) =
      ((tables.sortedObjects collation bucketId).filter (collation.beyond startAfter)).filter
        (collation.matchesPrefix keyPrefix) := by
  rw [List.filter_filter]
  exact filter_insertionSort (fun one two : ObjectRow => collation.Le one.objectKey two.objectKey)
    _ _

variable (tables) in
theorem answer_listObjects (bucketId : Int) (keyPrefix startAfter : Bytes) (maxKeys : Int) :
    ((MetaCall.listObjects bucketId keyPrefix startAfter maxKeys).performUnder ukBucketKey collation
      [] clock tables caches).1 = .ok (pageOf bucketId maxKeys
        ((((tables.sortedObjects collation bucketId).filter (collation.beyond startAfter)).filter
          (collation.matchesPrefix keyPrefix)).take (maxKeys + 1).toNat)) := by
  have told : ∀ (rows : List ObjectRow) (state : Alone),
      (Program.run (S := (engine ukBucketKey).sig) (Alone.answerUnder ukBucketKey collation)
        (let objects := (rows.take maxKeys.toNat).map (ObjectRow.read bucketId)
        match rows.drop maxKeys.toNat with
        | [] => (return .ok ⟨objects, false, []⟩ : MetaM ukBucketKey (Result ListObjectsResult))
        | overflow :: _ => return .ok ⟨objects, true, overflow.objectKey.cString⟩) state).1 =
      .ok (pageOf bucketId maxKeys rows) := by
    intro rows state
    unfold pageOf
    cases rows.drop maxKeys.toNat <;> rfl
  rw [← fetched_eq]
  exact told _ _

variable (tables) in
theorem shows_objectPage (bucketId : Int) {maxKeys : Int} (positive : 1 ≤ maxKeys) :
    (objectCursor collation).Shows (ObjectRow.read bucketId) maxKeys.toNat
      (tables.sortedObjects collation bucketId)
      (objectPage collation tables caches clock bucketId maxKeys) := by
  intro marker
  have listed : ((tables.sortedObjects collation bucketId).filter
      (collation.beyond marker)).filter (collation.matchesPrefix []) =
        (tables.sortedObjects collation bucketId).filter ((objectCursor collation).beyond marker) :=
    List.filter_eq_self.mpr fun _ _ => rfl
  rcases take_one_more positive ((tables.sortedObjects collation bucketId).filter
    ((objectCursor collation).beyond marker)) with ⟨shown, next⟩
  have answered := answer_listObjects collation tables caches clock bucketId [] marker maxKeys
  rw [listed] at answered
  rw [Cursor.page, ← shown, ← next, objectPage, answered]
  exact congrArg some (shown_pageOf bucketId maxKeys _)

/-- The page that `ListParts` makes of the rows it has fetched. -/
def partPageOf (uploadId : Bytes) (maxParts : Int) (rows : List (Int × PartRow)) :
    ListPartsResult :=
  let parts := (rows.take maxParts.toNat).map fun part =>
    ⟨uploadId, part.1, part.2.casKey, part.2.size, part.2.etag⟩
  match rows.drop maxParts.toNat with
  | [] => ⟨parts, false, 0⟩
  | overflow :: _ => ⟨parts, true, overflow.1⟩

theorem shown_partPageOf (uploadId : Bytes) (maxParts : Int) (rows : List (Int × PartRow)) :
    ((partPageOf uploadId maxParts rows).parts, if (partPageOf uploadId maxParts rows).isTruncated
        then some (partPageOf uploadId maxParts rows).nextPartNumberMarker else none) =
      ((rows.take maxParts.toNat).map fun part => ⟨uploadId, part.1, part.2.casKey, part.2.size,
        part.2.etag⟩, (rows.drop maxParts.toNat).head?.map Prod.fst) := by
  unfold partPageOf
  cases rows.drop maxParts.toNat <;> rfl

variable (tables) in
theorem answer_listParts (uploadId : Bytes) (marker maxParts : Int) :
    ((MetaCall.listParts uploadId marker maxParts).perform ukBucketKey [] clock tables caches).1 =
      .ok (partPageOf uploadId maxParts ((((tables.partsOf uploadId).filter
        fun part => marker < part.1).insertionSort fun one two => one.1 ≤ two.1).take
          (maxParts + 1).toNat)) := by
  have told : ∀ (rows : List (Int × PartRow)) (state : Alone),
      (Program.run (S := (engine ukBucketKey).sig) (Alone.answer ukBucketKey)
        (let parts := (rows.take maxParts.toNat).map fun part =>
          MultipartPartInfo.mk uploadId part.1 part.2.casKey part.2.size part.2.etag
        match rows.drop maxParts.toNat with
        | [] => (return .ok ⟨parts, false, 0⟩ : MetaM ukBucketKey (Result ListPartsResult))
        | overflow :: _ => return .ok ⟨parts, true, overflow.1⟩) state).1 =
      .ok (partPageOf uploadId maxParts rows) := by
    intro rows state
    unfold partPageOf
    cases rows.drop maxParts.toNat <;> rfl
  exact told _ _

variable (tables) in
theorem shows_partPage (uploadId : Bytes) {maxParts : Int} (positive : 1 ≤ maxParts) :
    partCursor.Shows (fun part => MultipartPartInfo.mk uploadId part.1 part.2.casKey part.2.size
        part.2.etag) maxParts.toNat (tables.sortedParts uploadId)
      (partPage tables caches clock uploadId maxParts) := by
  intro marker
  have fetched : ((tables.partsOf uploadId).filter fun part => marker < part.1).insertionSort
        (fun one two => one.1 ≤ two.1) =
      (tables.sortedParts uploadId).filter (partCursor.beyond marker) :=
    filter_insertionSort (fun one two : Int × PartRow => one.1 ≤ two.1) _ _
  rcases take_one_more positive ((tables.sortedParts uploadId).filter
    (partCursor.beyond marker)) with ⟨shown, next⟩
  rw [← fetched] at shown next
  rw [Cursor.page, ← fetched, ← shown, ← next]
  have answered := answer_listParts tables caches clock uploadId marker maxParts
  rw [partPage, answered]
  exact congrArg some (shown_partPageOf uploadId maxParts _)

end Pages

/-! ## Reading everything -/

/-- The keys are those of the objects of the bucket, each of them once and in the order of the
database. -/
def EnumeratesObjects (collation : Collation) (tables : Tables) (bucketId : Int)
    (keys : List Bytes) : Prop :=
  keys.Pairwise collation.Le ∧ keys.Nodup ∧
    ∀ key, key ∈ keys ↔ (tables.findObject ukBucketKey bucketId key).isSome

/-- The numbers are those of the parts of the upload, each of them once and in order. -/
def EnumeratesParts (tables : Tables) (uploadId : Bytes) (numbers : List Int) : Prop :=
  numbers.Pairwise (· < ·) ∧
    ∀ number, number ∈ numbers ↔ (tables.multipartParts.lookup (uploadId, number)).isSome

theorem SatisfiesSchema.mem_keys {tables : Tables} (schema : SatisfiesSchema tables)
    (collation : Collation) (bucketId : Int) (key : Bytes) :
    key ∈ (tables.sortedObjects collation bucketId).map ObjectRow.objectKey ↔
      (tables.findObject ukBucketKey bucketId key).isSome := by
  rw [List.mem_map, Tables.findObject, Option.isSome_filter, Option.any_eq_true]
  constructor
  · rintro ⟨row, member, rfl⟩
    rcases Tables.mem_sortedObjects.mp member with ⟨entry, stored⟩
    have isEntry : entry = ukBucketKey row.objectKey := schema.objectEntry _ _ stored
    exact ⟨row, isEntry ▸ stored, by simp⟩
  · rintro ⟨row, stored, same⟩
    exact ⟨row, Tables.mem_sortedObjects.mpr ⟨_, stored⟩, by simpa using same⟩

theorem mem_partNumbers (tables : Tables) (uploadId : Bytes) (number : Int) :
    number ∈ (tables.sortedParts uploadId).map Prod.fst ↔
      (tables.multipartParts.lookup (uploadId, number)).isSome := by
  rw [List.mem_map, Option.isSome_iff_exists]
  constructor
  · rintro ⟨⟨stored, row⟩, member, rfl⟩
    exact ⟨row, Tables.mem_sortedParts.mp member⟩
  · rintro ⟨row, stored⟩
    exact ⟨(number, row), Tables.mem_sortedParts.mpr stored, rfl⟩

/-- The sorted rows have the keys of the bucket, as a list that enumerates them. -/
theorem SatisfiesSchema.enumerates {tables : Tables} (schema : SatisfiesSchema tables)
    (collation : Collation) (bucketId : Int) : EnumeratesObjects collation tables bucketId
      ((tables.sortedObjects collation bucketId).map ObjectRow.objectKey) := by
  refine ⟨?_, ?_, schema.mem_keys collation bucketId⟩
  · exact List.pairwise_map.mpr (List.pairwise_insertionSort
      (fun one two : ObjectRow => collation.Le one.objectKey two.objectKey) _)
  · exact (schema.nodup_sortedObjects collation bucketId).map_on
      fun _ first _ second same => schema.eq_of_objectKey first second same

/-- Objects are read page by page to the last one exactly if there is one page, and no key has a
NUL. -/
theorem objects_complete_iff {tables : Tables} (schema : SatisfiesSchema tables)
    (collation : Collation) (caches : Caches) (clock : Clock) (bucketId : Int) {maxKeys : Int}
    (positive : 1 ≤ maxKeys) :
    (∃ all, Walk (objectPage collation tables caches clock bucketId maxKeys) [] all ∧
      EnumeratesObjects collation tables bucketId (all.map ObjectInfo.key)) ↔
      (∀ row ∈ tables.sortedObjects collation bucketId, 0 ∉ row.objectKey) ∧
        ((tables.sortedObjects collation bucketId).length : Int) ≤ maxKeys := by
  have shows := shows_objectPage collation tables caches clock bucketId positive
  have first : (tables.sortedObjects collation bucketId).filter
      ((objectCursor collation).beyond []) = tables.sortedObjects collation bucketId :=
    List.filter_eq_self.mpr fun _ _ => rfl
  constructor
  · rintro ⟨all, walk, -, -, members⟩
    -- every key is shown, and what is shown is read of some row
    have shown : ∀ row ∈ tables.sortedObjects collation bucketId,
        ∃ other ∈ tables.sortedObjects collation bucketId,
          other.read bucketId ∈ all ∧ other.objectKey.cString = row.objectKey := by
      intro row member
      have listed := (members row.objectKey).mpr ((schema.mem_keys collation bucketId _).mp
        (List.mem_map_of_mem member))
      rcases List.mem_map.mp listed with ⟨info, inAll, isKey⟩
      rcases shows.exists_of_mem_walk walk info inAll with ⟨other, isOther, rfl⟩
      exact ⟨other, isOther, inAll, isKey⟩
    have whole : ∀ row ∈ tables.sortedObjects collation bucketId, 0 ∉ row.objectKey := by
      intro row member
      rcases shown row member with ⟨other, -, -, isKey⟩
      rw [← isKey]
      exact Bytes.zero_notMem_cString other.objectKey
    have uncut : ∀ row ∈ tables.sortedObjects collation bucketId,
        row.objectKey.cString = row.objectKey :=
      fun row member => Bytes.cString_eq_self_iff.mpr (whole row member)
    have fits := shows.fits_of_walk (climbs_objectCursor collation whole) (by omega)
      (fun _ start => start) (schema.nodup_sortedObjects collation bucketId) ?_ walk ?_
    · rw [first] at fits
      exact ⟨whole, by omega⟩
    · intro one isOne two isTwo same
      have keys : one.objectKey.cString = two.objectKey.cString := congrArg ObjectInfo.key same
      rw [uncut one isOne, uncut two isTwo] at keys
      exact schema.eq_of_objectKey isOne isTwo keys
    · intro row member _
      rcases shown row member with ⟨other, isOther, inAll, isKey⟩
      rw [uncut other isOther] at isKey
      rwa [← schema.eq_of_objectKey isOther member isKey]
  · rintro ⟨whole, fits⟩
    refine ⟨_, shows.walk_of_fits (by rw [first]; omega), ?_⟩
    have keys : ((tables.sortedObjects collation bucketId).map (ObjectRow.read bucketId)).map
        ObjectInfo.key = (tables.sortedObjects collation bucketId).map ObjectRow.objectKey := by
      rw [List.map_map]
      exact List.map_congr_left fun row member =>
        Bytes.cString_eq_self_iff.mpr (whole row member)
    rw [first, keys]
    exact schema.enumerates collation bucketId

/-- Parts are read page by page to the last one exactly if there is one page, and no part has
a number that is not positive. -/
theorem parts_complete_iff (tables : Tables) (caches : Caches) (clock : Clock) (uploadId : Bytes)
    {maxParts : Int} (positive : 1 ≤ maxParts) :
    (∃ all, Walk (partPage tables caches clock uploadId maxParts) 0 all ∧
      EnumeratesParts tables uploadId (all.map MultipartPartInfo.partNumber)) ↔
      (∀ part ∈ tables.sortedParts uploadId, 0 < part.1) ∧
        ((tables.sortedParts uploadId).length : Int) ≤ maxParts := by
  have shows := shows_partPage tables caches clock uploadId positive
  have climbs := climbs_partCursor (tables.sortedParts uploadId)
  constructor
  · rintro ⟨all, walk, -, members⟩
    have listed : ∀ part ∈ tables.sortedParts uploadId,
        part.1 ∈ all.map MultipartPartInfo.partNumber := fun part member =>
      (members part.1).mpr ((mem_partNumbers tables uploadId _).mp (List.mem_map_of_mem member))
    have numbered : ∀ part ∈ tables.sortedParts uploadId, 0 < part.1 := by
      intro part member
      rcases List.mem_map.mp (listed part member) with ⟨info, inAll, isNumber⟩
      rcases shows.beyond_of_walk climbs (by omega) walk with behind | ⟨_, _, impossible, -⟩
      · rcases behind info inAll with ⟨other, -, further, rfl⟩
        have same : other.1 = part.1 := isNumber
        rw [← same]
        simpa [partCursor] using further
      · exact impossible.elim
    have first : (tables.sortedParts uploadId).filter (partCursor.beyond 0) =
        tables.sortedParts uploadId :=
      List.filter_eq_self.mpr fun part member => decide_eq_true (numbered part member)
    have fits := shows.fits_of_walk climbs (by omega) (fun _ => False.elim)
      ((tables.strictParts uploadId).imp fun less same => absurd (congrArg Prod.fst same)
        (Int.ne_of_lt less)) ?_ walk ?_
    · rw [first] at fits
      exact ⟨numbered, by omega⟩
    · intro one isOne two isTwo same
      exact Tables.eq_of_partNumber isOne isTwo (congrArg MultipartPartInfo.partNumber same)
    · intro part member _
      rcases List.mem_map.mp (listed part member) with ⟨info, inAll, isNumber⟩
      rcases shows.exists_of_mem_walk walk info inAll with ⟨other, isOther, rfl⟩
      rwa [← Tables.eq_of_partNumber isOther member isNumber]
  · rintro ⟨numbered, fits⟩
    have first : (tables.sortedParts uploadId).filter (partCursor.beyond 0) =
        tables.sortedParts uploadId :=
      List.filter_eq_self.mpr fun part member => decide_eq_true (numbered part member)
    refine ⟨_, shows.walk_of_fits (by rw [first]; omega), ?_⟩
    have numbers : ((tables.sortedParts uploadId).map fun part => MultipartPartInfo.mk uploadId
        part.1 part.2.casKey part.2.size part.2.etag).map MultipartPartInfo.partNumber =
          (tables.sortedParts uploadId).map Prod.fst := by
      rw [List.map_map]
      rfl
    rw [first, numbers]
    exact ⟨List.pairwise_map.mpr (tables.strictParts uploadId), mem_partNumbers tables uploadId⟩

/-- Reading page by page, each time from the marker of the page before, gives everything once
and in order exactly if everything fits on one page and no key has a NUL.  The row whose key is
the marker is on no page. -/
theorem paging_complete_iff {tables : Tables} (schema : SatisfiesSchema tables)
    (collation : Collation) (caches : Caches) (clock : Clock) (bucketId : Int) (uploadId : Bytes)
    {maxKeys maxParts : Int} (keys : 1 ≤ maxKeys ∧ maxKeys < 2 ^ 31 - 1)
    (parts : 1 ≤ maxParts ∧ maxParts < 2 ^ 31 - 1) :
    ((∃ all, Walk (objectPage collation tables caches clock bucketId maxKeys) [] all ∧
        EnumeratesObjects collation tables bucketId (all.map ObjectInfo.key)) ↔
      (∀ row ∈ tables.sortedObjects collation bucketId, 0 ∉ row.objectKey) ∧
        ((tables.sortedObjects collation bucketId).length : Int) ≤ maxKeys) ∧
    ((∃ all, Walk (partPage tables caches clock uploadId maxParts) 0 all ∧
        EnumeratesParts tables uploadId (all.map MultipartPartInfo.partNumber)) ↔
      (∀ part ∈ tables.sortedParts uploadId, 0 < part.1) ∧
        ((tables.sortedParts uploadId).length : Int) ≤ maxParts) :=
  ⟨objects_complete_iff schema collation caches clock bucketId keys.1,
    parts_complete_iff tables caches clock uploadId parts.1⟩

/-- A bucket with the objects `a` and `B`, and an upload with three parts. -/
def Tables.listed : Tables :=
  Tables.empty.applyAll [.bucket 1 (some (ascii "b")), .casBlob (blobKey 'a') (some ⟨5, 5⟩),
    .object (1, ascii "a") (some ⟨ascii "a", blobKey 'a', 5, ascii "text/plain", ascii "e"⟩),
    .object (1, ascii "B") (some ⟨ascii "B", blobKey 'a', 5, ascii "text/plain", ascii "e"⟩),
    .upload (ascii "u") (some ⟨1, ascii "k", ascii "text/plain", 0⟩),
    .part (ascii "u", 1) (some ⟨blobKey 'a', 5, ascii "e"⟩),
    .part (ascii "u", 3) (some ⟨blobKey 'a', 5, ascii "e"⟩),
    .part (ascii "u", 2) (some ⟨blobKey 'a', 5, ascii "e"⟩)]

/-- Both objects are listed on one page, and all parts on another. -/
theorem paging_complete_sample :
    (∃ all, Walk (objectPage .caseless .listed ⟨∅, none⟩ ⟨0, 0⟩ 1 2) [] all ∧
      EnumeratesObjects .caseless .listed 1 (all.map ObjectInfo.key)) ∧
    ∃ all, Walk (partPage .listed ⟨∅, none⟩ ⟨0, 0⟩ (ascii "u") 3) 0 all ∧
      EnumeratesParts .listed (ascii "u") (all.map MultipartPartInfo.partNumber) := by
  have complete := @paging_complete_iff .listed (by decide +kernel) .caseless ⟨∅, none⟩ ⟨0, 0⟩ 1
    (ascii "u") 2 3 (by decide) (by decide)
  exact ⟨complete.1.mpr (by decide +kernel), complete.2.mpr (by decide +kernel)⟩

/-- Of two objects, the second is on no page when a page has one entry. -/
theorem paging_drops_an_object :
    ¬∀ (tables : Tables) (collation : Collation) (caches : Caches) (clock : Clock) (bucketId : Int)
      (maxKeys : Int), SatisfiesSchema tables → 1 ≤ maxKeys → maxKeys < 2 ^ 31 - 1 →
      ∃ all, Walk (objectPage collation tables caches clock bucketId maxKeys) [] all ∧
        EnumeratesObjects collation tables bucketId (all.map ObjectInfo.key) := by
  intro complete
  have schema : SatisfiesSchema .listed := by decide +kernel
  have read := complete .listed .caseless ⟨∅, none⟩ ⟨0, 0⟩ 1 1 schema (by decide) (by decide)
  have fits := (objects_complete_iff schema .caseless ⟨∅, none⟩ ⟨0, 0⟩ 1
    (by decide : (1 : Int) ≤ 1)).mp read
  exact absurd fits.2 (by decide +kernel)

end MiniS3.Db
