import MiniS3.Db.Atomicity

/-!
# Objects with different keys

`objects` is unique on `(bucket_id, object_key(255))`, while a row is looked up by
its whole key.  A store of one key leaves the rows of all other keys alone, holds the
new values afterwards and keeps the counters exact, unless the place of its key in
the unique index is taken by another key, or by a row whose blob key is empty, which
the metadata store reads as the absence of a row.
-/

namespace MiniS3.Db

open Lib MetaStore

/-- Tables that the declared schema admits: an `objects` row lies at the index entry of its
key, and every foreign key has its row. -/
structure SatisfiesSchema (tables : Tables) : Prop where
  objectEntry : ∀ entry row, tables.objects.lookup entry = some row →
    entry.2 = ukBucketKey row.objectKey
  objectBucket : ∀ entry row, tables.objects.lookup entry = some row →
    (tables.buckets.lookup entry.1).isSome
  objectBlob : ∀ entry row, tables.objects.lookup entry = some row →
    (tables.casBlobs.lookup row.casKey).isSome
  uploadBucket : ∀ uploadId row, tables.multipartUploads.lookup uploadId = some row →
    (tables.buckets.lookup row.bucketId).isSome
  partUpload : ∀ entry row, tables.multipartParts.lookup entry = some row →
    (tables.multipartUploads.lookup entry.1).isSome
  partBlob : ∀ entry row, tables.multipartParts.lookup entry = some row →
    (tables.casBlobs.lookup row.casKey).isSome

/-- The rows of the tables tell whether the schema admits them. -/
theorem satisfiesSchema_iff (tables : Tables) : SatisfiesSchema tables ↔
    (∀ row ∈ tables.objects.rows, row.1.2 = ukBucketKey row.2.objectKey ∧
      (tables.buckets.lookup row.1.1).isSome ∧ (tables.casBlobs.lookup row.2.casKey).isSome) ∧
    (∀ row ∈ tables.multipartUploads.rows, (tables.buckets.lookup row.2.bucketId).isSome) ∧
    ∀ row ∈ tables.multipartParts.rows, (tables.multipartUploads.lookup row.1.1).isSome ∧
      (tables.casBlobs.lookup row.2.casKey).isSome := by
  constructor
  · intro schema
    refine ⟨fun row member => ?_, fun row member => ?_, fun row member => ?_⟩
    · have stored := Table.mem_rows_iff.mp member
      exact ⟨schema.objectEntry _ _ stored, schema.objectBucket _ _ stored,
        schema.objectBlob _ _ stored⟩
    · exact schema.uploadBucket _ _ (Table.mem_rows_iff.mp member)
    · have stored := Table.mem_rows_iff.mp member
      exact ⟨schema.partUpload _ _ stored, schema.partBlob _ _ stored⟩
  · rintro ⟨objects, uploads, parts⟩
    constructor
    · exact fun entry row stored => (objects ⟨entry, row⟩ (Table.mem_rows_iff.mpr stored)).1
    · exact fun entry row stored => (objects ⟨entry, row⟩ (Table.mem_rows_iff.mpr stored)).2.1
    · exact fun entry row stored => (objects ⟨entry, row⟩ (Table.mem_rows_iff.mpr stored)).2.2
    · exact fun entry row stored => uploads ⟨entry, row⟩ (Table.mem_rows_iff.mpr stored)
    · exact fun entry row stored => (parts ⟨entry, row⟩ (Table.mem_rows_iff.mpr stored)).1
    · exact fun entry row stored => (parts ⟨entry, row⟩ (Table.mem_rows_iff.mpr stored)).2

instance (tables : Tables) : Decidable (SatisfiesSchema tables) :=
  decidable_of_iff _ (satisfiesSchema_iff tables).symm

/-- `PutObjectWithRefCount` of `row`, run alone without a failing statement, does what it is
for: it succeeds when the bucket is there, and a success leaves every object with another key
alone, holds the new values, and keeps the counters exact. -/
def StoresOnlyItsKey (tables : Tables) (caches : Caches) (clock : Clock) (bucketId : Int)
    (row : ObjectRow) : Prop :=
  let done := (putObjectWithRefCount bucketId row.objectKey row.size row.etag row.contentType
    row.casKey : MetaM ukBucketKey _).run (Alone.answer ukBucketKey)
    ⟨tables, none, caches, [], clock⟩
  ((tables.buckets.lookup bucketId).isSome → done.1.isOk = true) ∧
    (done.1.isOk = true →
      (∀ otherBucket otherKey, (otherBucket, otherKey) ≠ (bucketId, row.objectKey) →
        done.2.tables.findObject ukBucketKey otherBucket otherKey =
          tables.findObject ukBucketKey otherBucket otherKey) ∧
      done.2.tables.findObject ukBucketKey bucketId row.objectKey = some row ∧
      ∀ casKey, done.2.tables.refCount casKey =
        done.2.tables.objectRefs casKey + done.2.tables.partRefs casKey)

/-- The index entry of the key is free, or holds a row of the same key that names a blob. -/
def EntryIsOwn (tables : Tables) (bucketId : Int) (key : Bytes) : Prop :=
  ∀ row, tables.objects.lookup (bucketId, ukBucketKey key) = some row →
    row.objectKey = key ∧ row.casKey ≠ []

section Store

variable {tables : Tables} {caches : Caches} {clock : Clock} {bucketId : Int} {row : ObjectRow}

theorem SatisfiesSchema.storable (schema : SatisfiesSchema tables) {key : Bytes}
    (parent : (tables.buckets.lookup bucketId).isSome ∨
      (tables.objects.lookup (bucketId, ukBucketKey key)).isSome) :
    Storable ukBucketKey tables bucketId key := by
  constructor
  · exact parent
  · intro old found
    exact schema.objectBlob _ _ (Option.filter_eq_some_iff.mp found).1

theorem EntryIsOwn.sameKey (own : EntryIsOwn tables bucketId row.objectKey) :
    ∀ old, tables.objects.lookup (bucketId, ukBucketKey row.objectKey) = some old →
      old.objectKey = row.objectKey :=
  fun old stored => (own old stored).1

/-- Other keys are found as before, wherever they lie. -/
theorem findObject_putObject_ne (own : EntryIsOwn tables bucketId row.objectKey)
    {otherBucket : Int} {otherKey : Bytes}
    (different : (otherBucket, otherKey) ≠ (bucketId, row.objectKey)) :
    (tables.putObject ukBucketKey bucketId row).findObject ukBucketKey otherBucket otherKey =
      tables.findObject ukBucketKey otherBucket otherKey := by
  simp only [Tables.findObject, Tables.putObject, Tables.apply, Tables.objects_move,
    upserted_of_own own.sameKey]
  by_cases same : (otherBucket, ukBucketKey otherKey) = (bucketId, ukBucketKey row.objectKey)
  · -- The two keys share an index entry, which is the one of `row`.
    rw [same, lookup_put_self]
    have otherName : row.objectKey ≠ otherKey := by
      rintro rfl
      have sameBucket : otherBucket = bucketId := congrArg Prod.fst same
      exact different (by rw [sameBucket])
    cases stored : tables.objects.lookup (bucketId, ukBucketKey row.objectKey) with
    | none => simpa [Option.filter] using otherName
    | some old => simp [Option.filter, otherName, own.sameKey old stored]
  · rw [lookup_put_ne _ _ same]

theorem findObject_putObject_self (own : EntryIsOwn tables bucketId row.objectKey) :
    (tables.putObject ukBucketKey bucketId row).findObject ukBucketKey bucketId row.objectKey =
      some row := by
  simp only [Tables.findObject, Tables.putObject, Tables.apply, Tables.objects_move,
    upserted_of_own own.sameKey, lookup_put_self]
  simp

theorem counted_putObject (own : EntryIsOwn tables bucketId row.objectKey)
    (counted : ∀ casKey, tables.refCount casKey =
      tables.objectRefs casKey + tables.partRefs casKey) (casKey : Bytes) :
    (tables.putObject ukBucketKey bucketId row).refCount casKey =
      (tables.putObject ukBucketKey bucketId row).objectRefs casKey +
        (tables.putObject ukBucketKey bucketId row).partRefs casKey := by
  have oldCounted : ∀ old, (tables.objects.lookup (bucketId, ukBucketKey row.objectKey)).map
      ObjectRow.casKey = some old → old ≠ [] ∧ 0 < tables.refCount old := by
    intro old isOld
    rcases Option.map_eq_some_iff.mp isOld with ⟨oldRow, stored, rfl⟩
    have referred : 0 < tables.objectRefs oldRow.casKey :=
      Table.count_pos_of_lookup stored (by simp)
    refine ⟨(own oldRow stored).2, ?_⟩
    rw [counted oldRow.casKey]
    omega
  have moved := moved_move row.casKey row.size oldCounted
  refine references_of_object .all counted rfl (bucketId, ukBucketKey row.objectKey) (some row)
    ?_ ?_ ?_ casKey
  · intro other
    have total := moved other
    simpa [Tables.putObject, Tables.objectCas, findObject_eq_lookup own.sameKey,
      upserted_of_own own.sameKey] using total
  · simp [Tables.putObject, Tables.apply, upserted_of_own own.sameKey]
  · simp [Tables.putObject, Tables.apply]

theorem storesOnlyItsKey_of_own (schema : SatisfiesSchema tables)
    (counted : ∀ casKey, tables.refCount casKey =
      tables.objectRefs casKey + tables.partRefs casKey)
    (own : EntryIsOwn tables bucketId row.objectKey) :
    StoresOnlyItsKey tables caches clock bucketId row := by
  constructor
  · intro bucket
    rcases run_putObjectWithRefCount row (schema.storable (.inl bucket)) caches clock with
      ⟨candidate, after, performed, -⟩
    simp only [performed]
    rfl
  · intro succeeded
    have stores : Yields True (PutObjectPost ukBucketKey bucketId row tables caches)
        (putObjectWithRefCount bucketId row.objectKey row.size row.etag row.contentType
          row.casKey) tables none caches :=
      yields_putObjectLoop bucketId row tables kMaxRetries
    have effect := stores.run ⟨tables, none, caches, [], clock⟩ (.inl trivial)
    rcases Result.exists_of_isOk succeeded with ⟨candidate, after, performed⟩
    simp only [performed] at effect ⊢
    rw [effect.1]
    exact ⟨fun _ _ different => findObject_putObject_ne own different,
      findObject_putObject_self own, counted_putObject own counted⟩

/-- A row without a blob is not seen as the one that is replaced. -/
theorem not_counted_of_empty {old : ObjectRow}
    (stored : tables.objects.lookup (bucketId, ukBucketKey row.objectKey) = some old)
    (empty : old.casKey = [])
    (counted : ∀ casKey, tables.refCount casKey =
      tables.objectRefs casKey + tables.partRefs casKey) :
    (tables.putObject ukBucketKey bucketId row).refCount [] ≠
      (tables.putObject ukBucketKey bucketId row).objectRefs [] +
        (tables.putObject ukBucketKey bucketId row).partRefs [] := by
  have noOld : tables.objectCas ukBucketKey bucketId row.objectKey = [] := by
    simp only [Tables.objectCas, Tables.findObject, stored, Option.filter_some]
    split <;> simp [empty]
  have gained := moved_increment tables row.casKey row.size []
  have rows := objectRefs_apply_object tables (bucketId, ukBucketKey row.objectKey)
    (some (tables.upserted (bucketId, ukBucketKey row.objectKey) row)) []
  have total := counted []
  have counters : (tables.putObject ukBucketKey bucketId row).refCount [] =
      (tables.gain row.casKey row.size).refCount [] := by
    simp [Tables.putObject, noOld, Tables.move]
  have sameRows : (tables.putObject ukBucketKey bucketId row).objectRefs [] =
      (tables.apply (.object (bucketId, ukBucketKey row.objectKey)
        (some (tables.upserted (bucketId, ukBucketKey row.objectKey) row)))).objectRefs [] := by
    simp [Tables.putObject, Tables.apply, Tables.objectRefs]
  have sameParts : (tables.putObject ukBucketKey bucketId row).partRefs [] =
      tables.partRefs [] := by
    simp [Tables.putObject, Tables.apply, Tables.partRefs]
  have sameCas : (tables.upserted (bucketId, ukBucketKey row.objectKey) row).casKey =
      row.casKey := rfl
  rw [counters, sameRows, sameParts]
  simp only [stored, Option.map_some, empty, sameCas, refersTo_some, refersTo_none,
    if_true] at gained rows
  change (tables.gain row.casKey row.size).refCount [] + 0 = _ at gained
  omega

/-- The index entry of the key is taken by another key, or by a row without a blob. -/
theorem not_storesOnlyItsKey (schema : SatisfiesSchema tables)
    (counted : ∀ casKey, tables.refCount casKey =
      tables.objectRefs casKey + tables.partRefs casKey) (old : ObjectRow)
    (stored : tables.objects.lookup (bucketId, ukBucketKey row.objectKey) = some old)
    (notOwn : ¬(old.objectKey = row.objectKey ∧ old.casKey ≠ [])) :
    ¬StoresOnlyItsKey tables caches clock bucketId row := by
  rcases run_putObjectWithRefCount row
    (schema.storable (.inr (Option.isSome_of_eq_some stored))) caches clock with
    ⟨candidate, after, performed, written⟩
  rintro ⟨-, stores⟩
  simp only [performed, written] at stores
  rcases stores rfl with ⟨-, found, exactAfter⟩
  by_cases sameKey : old.objectKey = row.objectKey
  · have empty : old.casKey = [] := by
      by_contra nonempty
      exact notOwn ⟨sameKey, nonempty⟩
    exact not_counted_of_empty stored empty counted (exactAfter [])
  · simp only [Tables.findObject, Tables.putObject, Tables.apply, Tables.objects_move,
      Tables.upserted, lookup_put_self, stored, Option.elim_some, Option.filter_some,
      sameKey] at found
    simp at found

end Store

/-- Without failing statements, storing an object leaves all other keys alone, stores the new
values and keeps the counters exact, exactly when its index entry is its own. -/
theorem put_stores_only_its_key (tables : Tables) (caches : Caches) (clock : Clock)
    (bucketId : Int) (row : ObjectRow) (schema : SatisfiesSchema tables)
    (counted : ∀ casKey, tables.refCount casKey =
      tables.objectRefs casKey + tables.partRefs casKey) :
    StoresOnlyItsKey tables caches clock bucketId row ↔
      EntryIsOwn tables bucketId row.objectKey := by
  constructor
  · intro stores old stored
    by_contra notOwn
    exact not_storesOnlyItsKey schema counted old stored notOwn stores
  · intro own
    exact storesOnlyItsKey_of_own schema counted own

theorem withObject_satisfiesSchema (key : Bytes) :
    SatisfiesSchema (.withObject ukBucketKey key) := by
  constructor
  · intro entry row stored
    rcases Tables.withObject_object _ _ entry row stored with ⟨rfl, rfl⟩
    rfl
  · intro entry row stored
    rcases Tables.withObject_object _ _ entry row stored with ⟨rfl, rfl⟩
    rfl
  · intro entry row stored
    rcases Tables.withObject_object _ _ entry row stored with ⟨rfl, rfl⟩
    exact congrArg Option.isSome (Table.lookup_set_self ..)
  · intro uploadId row stored
    contradiction
  · intro entry row stored
    contradiction
  · intro entry row stored
    contradiction

/-- The theorem for an object that is overwritten. -/
theorem put_stores_only_its_key_overwritten :
    StoresOnlyItsKey (.withObject ukBucketKey (ascii "key")) ⟨∅, none⟩ ⟨0, 0⟩ 1
      ⟨ascii "key", blobKey 'b', 7, ascii "text/plain", ascii "f"⟩ := by
  refine (put_stores_only_its_key _ _ _ _ _ (withObject_satisfiesSchema (ascii "key"))
    (Tables.withObject_counted ukBucketKey (ascii "key"))).mpr ?_
  intro row stored
  rcases Tables.withObject_object _ _ _ row stored with ⟨-, rfl⟩
  exact ⟨rfl, by decide⟩

/-- Two keys that differ after 255 characters interfere: storing `xx...xb` overwrites the
row of `xx...xa`. -/
theorem long_keys_interfere :
    SatisfiesSchema (.withObject ukBucketKey (longKey 'a')) ∧
    (∀ casKey, (Tables.withObject ukBucketKey (longKey 'a')).refCount casKey =
      (Tables.withObject ukBucketKey (longKey 'a')).objectRefs casKey +
        (Tables.withObject ukBucketKey (longKey 'a')).partRefs casKey) ∧
    ¬StoresOnlyItsKey (.withObject ukBucketKey (longKey 'a')) ⟨∅, none⟩ ⟨0, 0⟩ 1
      ⟨longKey 'b', blobKey 'b', 7, ascii "text/plain", ascii "f"⟩ := by
  refine ⟨withObject_satisfiesSchema (longKey 'a'),
    Tables.withObject_counted ukBucketKey (longKey 'a'), ?_⟩
  have sameEntry : ukBucketKey (longKey 'b') = ukBucketKey (longKey 'a') := by decide +kernel
  refine not_storesOnlyItsKey (withObject_satisfiesSchema (longKey 'a'))
    (Tables.withObject_counted ukBucketKey (longKey 'a'))
    ⟨longKey 'a', blobKey 'a', 5, ascii "text/plain", ascii "e"⟩ ?_ ?_
  · simp only [sameEntry]
    exact Table.lookup_set_self ..
  · rintro ⟨sameKey, -⟩
    exact absurd sameKey (by decide +kernel)

end MiniS3.Db
