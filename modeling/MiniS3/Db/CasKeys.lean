import MiniS3.Db.CallEffects

/-!
# Which blob keys the metadata store holds

The store makes up no blob keys: what it answers with, writes to its tables and keeps in
its caches was given to it by a call.  `keys` is any property of the keys that are given.
-/

namespace MiniS3.Db

open Lib MetaStore

variable (keys : Bytes → Prop)

/-- The rows of objects and parts show such keys. -/
structure Keyed (tables : Tables) : Prop where
  object : ∀ entry row, tables.objects.lookup entry = some row → keys row.casKey
  part : ∀ entry row, tables.multipartParts.lookup entry = some row → keys row.casKey

/-- So do the cached objects, unless they show no key. -/
def CachesKeyed (caches : Caches) : Prop :=
  ∀ redis, caches.redis = some redis → ∀ entry info, redis.lookup entry = some info →
    info.sha256Hash = [] ∨ keys info.sha256Hash

/-- The row image shows such a key, if it shows one. -/
def Write.Keyed : Write → Prop
  | .object _ (some row) => keys row.casKey
  | .part _ (some row) => keys row.casKey
  | _ => True

/-- The key that a call is to store. -/
def MetaCall.Stores : MetaCall → Prop
  | .putObjectWithRefCount _ _ _ _ _ sha256Hash => keys sha256Hash
  | .putPartWithRefCount _ _ sha256Hash _ _ => keys sha256Hash
  | _ => True

/-- The keys in the answer of a call. -/
def MetaCall.Returns : (call : MetaCall) → call.Ans → Prop
  | .getObject _ _, answer => ∀ info, answer = .ok info → keys info.sha256Hash
  | .listParts _ _ _, answer => ∀ listed, answer = .ok listed →
      ∀ part ∈ listed.parts, keys part.sha256Hash
  | .putObjectWithRefCount _ _ _ _ _ _, answer => ∀ casKey, answer = .ok (some casKey) →
      keys casKey
  | .putPartWithRefCount _ _ _ _ _, answer => ∀ casKey, answer = .ok (some casKey) →
      keys casKey
  | .deleteObjectWithRefCount _ _, answer => ∀ casKey, answer = .ok (some casKey) →
      keys casKey
  | _, _ => True

variable {keys}

/-! ## Tables -/

namespace Keyed

variable {tables after : Tables}

/-- Tables that agree on these rows show the same keys. -/
theorem congr (keyed : Keyed keys tables) (objects : after.objects = tables.objects)
    (parts : after.multipartParts = tables.multipartParts) : Keyed keys after :=
  ⟨by rw [objects]; exact keyed.object, by rw [parts]; exact keyed.part⟩

theorem apply (keyed : Keyed keys tables) {write : Write} (shows : write.Keyed keys) :
    Keyed keys (tables.apply write) := by
  cases write with
  | bucket | casBlob | upload | idempotency => exact keyed.congr rfl rfl
  | object entry image =>
      refine ⟨?_, keyed.part⟩
      intro other row stored
      by_cases same : other = entry
      · subst same
        have written : image = some row := (lookup_put_self _ _ _).symm.trans stored
        subst written
        exact shows
      · exact keyed.object other row ((lookup_put_ne _ _ same).symm.trans stored)
  | part entry image =>
      refine ⟨keyed.object, ?_⟩
      intro other row stored
      by_cases same : other = entry
      · subst same
        have written : image = some row := (lookup_put_self _ _ _).symm.trans stored
        subst written
        exact shows
      · exact keyed.part other row ((lookup_put_ne _ _ same).symm.trans stored)

theorem applyAll {writes : List Write} (keyed : Keyed keys tables)
    (shows : ∀ write ∈ writes, write.Keyed keys) : Keyed keys (tables.applyAll writes) := by
  induction writes generalizing tables with
  | nil => exact keyed
  | cons write rest inductionHypothesis =>
      exact inductionHypothesis (keyed.apply (shows write List.mem_cons_self))
        fun other member => shows other (List.mem_cons_of_mem _ member)

theorem move (keyed : Keyed keys tables) (old new : Bytes) (size : Int) :
    Keyed keys (tables.move old new size) :=
  keyed.congr (by simp) (by simp)

theorem lose (keyed : Keyed keys tables) (casKey : Bytes) : Keyed keys (tables.lose casKey) :=
  keyed.congr (by simp) (by simp)

/-- A cascade only removes rows. -/
theorem bucketCascade (keyed : Keyed keys tables) (bucketId : Int) :
    Keyed keys (tables.applyAll (tables.bucketCascade bucketId)) := by
  apply keyed.applyAll
  intro write member
  simp only [Tables.bucketCascade, Tables.uploadCascade, List.mem_append, List.mem_cons,
    List.mem_map, List.mem_flatMap] at member
  rcases member with (rfl | ⟨entry, -, rfl⟩) | ⟨upload, -, rfl | ⟨part, -, rfl⟩⟩ <;> exact trivial

theorem removeUpload (keyed : Keyed keys tables) (uploadId : Bytes) :
    Keyed keys (tables.removeUpload uploadId) := by
  apply keyed.applyAll
  intro write member
  rcases List.mem_cons.mp member with rfl | member
  · exact trivial
  · obtain ⟨part, -, rfl⟩ := List.mem_map.mp member
    exact trivial

/-- A freed blob was that of a row. -/
theorem freed {old new casKey : Bytes} (shows : old ≠ [] → keys old)
    (candidate : some casKey = tables.freed old new) : keys casKey := by
  unfold Tables.freed at candidate
  split at candidate
  · rename_i freed
    cases candidate
    exact shows (by simpa using freed.1)
  · contradiction

theorem objectCas (keyed : Keyed keys tables) (indexed : Bytes → Bytes) (bucketId : Int)
    (key : Bytes) (nonempty : tables.objectCas indexed bucketId key ≠ []) :
    keys (tables.objectCas indexed bucketId key) := by
  unfold Tables.objectCas at nonempty ⊢
  cases found : tables.findObject indexed bucketId key with
  | none => simp [found] at nonempty
  | some row => exact keyed.object _ row (Option.filter_eq_some_iff.mp found).1

theorem partCas (keyed : Keyed keys tables) (uploadId : Bytes) (partNumber : Int)
    (nonempty : tables.partCas uploadId partNumber ≠ []) :
    keys (tables.partCas uploadId partNumber) := by
  unfold Tables.partCas at nonempty ⊢
  cases found : tables.multipartParts.lookup (uploadId, partNumber) with
  | none => simp [found] at nonempty
  | some row => exact keyed.part _ row found

/-- The tables after a call. -/
theorem call {indexed : Bytes → Bytes} (keyed : Keyed keys tables) {call : MetaCall}
    (stores : call.Stores keys) {caches cachesAfter : Caches} {answered : call.Ans}
    (effect : call.Effect indexed True tables caches answered after cachesAfter) :
    Keyed keys after := by
  cases call with
  | createBucket name ownerId =>
      cases answered with
      | error status => exact effect ▸ keyed
      | ok id => rw [effect]; exact keyed.apply (by exact trivial)
  | getBucket | getBucketById | listBuckets | isBucketEmpty | getObject | listObjects
  | getCasBlob | canDeleteCasBlob | getMultipartUpload | listParts | checkIdempotency =>
      exact effect.1 ▸ keyed
  | deleteBucket name =>
      rw [effect.2.2]
      split
      · cases tables.bucketNamed name with
        | none => exact keyed
        | some bucket => exact keyed.bucketCascade bucket.1
      · exact keyed
  | putObjectWithRefCount bucketId key size etag contentType sha256Hash =>
      cases answered with
      | error status => exact effect.1 ▸ keyed
      | ok candidate =>
          rw [effect.1]
          exact (keyed.move _ _ _).apply (by exact stores)
  | deleteObjectWithRefCount bucketId key =>
      cases answered with
      | error status => exact effect.1 ▸ keyed
      | ok candidate =>
          obtain ⟨row, -, rfl, -⟩ := effect
          have removed := keyed.apply (show (Write.object (bucketId, indexed key)
            none).Keyed keys from trivial)
          unfold Tables.removeObject
          dsimp only
          split
          · exact removed
          · exact removed.lose _
  | decrementRefCountAndCheckZero sha256Hash =>
      rcases effect.2 with ⟨-, same, -⟩ | ⟨lost, -⟩
      · exact same ▸ keyed
      · exact lost ▸ keyed.lose _
  | deleteCasBlob sha256Hash =>
      cases answered with
      | error status => exact effect.2 ▸ keyed
      | ok =>
          obtain ⟨-, -, -, rfl⟩ := effect
          exact keyed.apply (by exact trivial)
  | createMultipartUpload uploadId bucketId key contentType expiresAt =>
      cases answered with
      | error status => exact effect.2 ▸ keyed
      | ok => rw [effect.2]; exact keyed.apply (by exact trivial)
  | deleteMultipartUpload uploadId =>
      rw [effect.2.2]
      split
      · exact keyed.removeUpload uploadId
      · exact keyed
  | putPartWithRefCount uploadId partNumber sha256Hash size etag =>
      cases answered with
      | error status => exact effect ▸ keyed
      | ok candidate =>
          rw [effect.1]
          exact (keyed.move _ _ _).apply (by exact stores)
  | recordIdempotency idempotencyKey requestHash responseStatus responseBody ttlSeconds =>
      cases answered with
      | error status => exact effect.2 ▸ keyed
      | ok =>
          obtain ⟨-, row, rfl⟩ := effect
          exact keyed.apply (by exact trivial)

/-- The answer of a call. -/
theorem returns {indexed : Bytes → Bytes} (keyed : Keyed keys tables) {call : MetaCall}
    {caches cachesAfter : Caches} (cached : CachesKeyed keys caches) {answered : call.Ans}
    (effect : call.Effect indexed True tables caches answered after cachesAfter) :
    call.Returns keys answered := by
  cases call with
  | getObject bucketId key =>
      rintro info rfl
      rcases effect.2 with ⟨-, message, ⟨⟩⟩ | found
      cases shown : tables.foundObject indexed bucketId key caches with
      | none =>
          rw [shown] at found
          obtain ⟨message, ⟨⟩⟩ := found
      | some other =>
          rw [shown] at found
          cases found
          unfold Tables.foundObject at shown
          simp only [Option.orElse_eq_orElse, Option.orElse_eq_or] at shown
          rcases Option.or_eq_some_iff.mp shown with hit | ⟨-, read⟩
          · obtain ⟨kept, nonempty⟩ := Option.filter_eq_some_iff.mp hit
            obtain ⟨redis, enabled, stored⟩ := Option.bind_eq_some_iff.mp kept
            rcases cached redis enabled _ _ stored with empty | shows
            · simp [empty] at nonempty
            · exact shows
          · obtain ⟨row, selected, rfl⟩ := Option.map_eq_some_iff.mp read
            exact keyed.object _ row (Option.filter_eq_some_iff.mp selected).1
  | listParts uploadId marker maxParts =>
      rintro listed rfl part member
      rcases effect.2.2 with ⟨-, message, ⟨⟩⟩ | ⟨_, ⟨⟩, parts⟩
      rw [parts] at member
      obtain ⟨source, listed, rfl⟩ := List.mem_map.mp member
      have shown := List.mem_of_mem_take (List.mem_of_mem_take listed)
      rw [List.mem_insertionSort] at shown
      obtain ⟨entry, inside, rfl⟩ := List.mem_map.mp (List.mem_filter.mp shown).1
      exact keyed.part entry.1 entry.2
        (Table.mem_rows_iff.mp (List.mem_filter.mp inside).1)
  | putObjectWithRefCount bucketId key size etag contentType sha256Hash =>
      rintro casKey rfl
      exact freed (keyed.objectCas indexed bucketId key) effect.2.1
  | deleteObjectWithRefCount bucketId key =>
      rintro casKey rfl
      obtain ⟨row, found, -, candidate⟩ := effect
      exact freed (fun _ => keyed.object _ row (Option.filter_eq_some_iff.mp found).1) candidate
  | putPartWithRefCount uploadId partNumber sha256Hash size etag =>
      rintro casKey rfl
      exact freed (keyed.partCas uploadId partNumber) effect.2.1
  | _ => trivial

end Keyed

/-! ## Caches -/

namespace CachesKeyed

variable {caches after : Caches}

/-- Caches that agree on objects show the same keys. -/
theorem congr (cached : CachesKeyed keys caches) (redis : after.redis = caches.redis) :
    CachesKeyed keys after := by
  rw [CachesKeyed, redis]
  exact cached

/-- An object is stored in the cache. -/
theorem set (cached : CachesKeyed keys caches) (entry : Int × Bytes) {info : ObjectInfo}
    (shows : keys info.sha256Hash)
    (stored : after.redis = caches.redis.map fun redis => redis.set entry info) :
    CachesKeyed keys after := by
  intro redis enabled other shown lookup
  rw [stored] at enabled
  obtain ⟨before, active, rfl⟩ := Option.map_eq_some_iff.mp enabled
  rw [Table.lookup_set] at lookup
  split at lookup
  · cases lookup
    exact .inr shows
  · exact cached before active other shown lookup

/-- An object is removed from the cache. -/
theorem erase (cached : CachesKeyed keys caches) (entry : Int × Bytes)
    (removed : after.redis = caches.redis.map fun redis => redis.erase entry) :
    CachesKeyed keys after := by
  intro redis enabled other shown lookup
  rw [removed] at enabled
  obtain ⟨before, active, rfl⟩ := Option.map_eq_some_iff.mp enabled
  by_cases same : other = entry
  · subst same
    rw [Table.lookup_erase_self] at lookup
    contradiction
  · rw [Table.lookup_erase_ne _ same] at lookup
    exact cached before active other shown lookup

end CachesKeyed

section Caching

variable {indexed : Bytes → Bytes} {tables : Tables} {caches : Caches}

theorem yields_cached_fromDatabase (keyed : Keyed keys tables) (cached : CachesKeyed keys caches)
    (bucketId : Int) (key : Bytes) :
    Yields True (fun _ _ after => CachesKeyed keys after)
      (MetaStore.getObject.fromDatabase bucketId key : MetaM indexed _) tables none caches := by
  constructor
  · rintro err -
    exact cached
  · rintro found writes ⟨⟩
    simp only [Option.getD_none]
    cases stored : tables.findObject indexed bucketId key with
    | none => exact cached
    | some row =>
        intro clock
        exact cached.set (bucketId, key)
          (keyed.object _ row (Option.filter_eq_some_iff.mp stored).1) rfl

theorem yields_cached_getObject (keyed : Keyed keys tables) (cached : CachesKeyed keys caches)
    (bucketId : Int) (key : Bytes) :
    Yields True (fun _ _ after => CachesKeyed keys after)
      ((MetaCall.getObject bucketId key).code indexed) tables none caches := by
  intro clock
  simp only [Caches.answer]
  cases hit : caches.redis.bind fun redis => redis.lookup (bucketId, key) with
  | none => exact yields_cached_fromDatabase keyed cached bucketId key
  | some info =>
      change Yields True _ (if info.sha256Hash.isEmpty then _ else _) tables none caches
      split
      · intro clock
        exact yields_cached_fromDatabase keyed (cached.erase (bucketId, key) rfl) bucketId key
      · exact cached

theorem yields_cached_deleteObject (cached : CachesKeyed keys caches) (bucketId : Int)
    (key : Bytes) :
    Yields True (fun _ _ after => CachesKeyed keys after)
      ((MetaCall.deleteObjectWithRefCount bucketId key).code indexed) tables none caches := by
  refine ⟨fun err _ => cached, ?_⟩
  rintro found queried ⟨⟩
  simp only [Option.getD_none, Option.getD_some]
  cases stored : tables.findObject indexed bucketId key with
  | none => exact cached
  | some row =>
      refine ⟨fun err _ => cached, ?_⟩
      intro affected writes evaluated
      refine yields_dropReference (fun err copy => cached) rfl ?_
      refine ⟨fun _ err => cached, fun clock => ?_⟩
      exact cached.erase (bucketId, key) rfl

/-- The caches after a call. -/
theorem MetaCall.yields_cached (call : MetaCall) (keyed : Keyed keys tables)
    (cached : CachesKeyed keys caches) (stores : call.Stores keys) :
    Yields True (fun _ _ after => CachesKeyed keys after) (call.code indexed) tables none
      caches := by
  cases call with
  | createBucket name ownerId =>
      constructor
      · rintro err -
        change Yields True _ (if Bytes.contains err (ascii "Duplicate") then _ else _) tables
          none caches
        split <;> exact cached
      · intro id writes evaluated clock
        exact cached.congr rfl
  | getObject bucketId key => exact yields_cached_getObject keyed cached bucketId key
  | deleteObjectWithRefCount bucketId key =>
      exact yields_cached_deleteObject cached bucketId key
  | putPartWithRefCount uploadId partNumber sha256Hash size etag =>
      refine (yields_putPartLoop uploadId partNumber _ tables kMaxRetries).mono ?_
      rintro answer after _ ⟨-, rfl⟩
      exact cached
  | putObjectWithRefCount bucketId key size etag contentType sha256Hash =>
      refine (yields_putObjectLoop bucketId _ tables kMaxRetries).mono ?_
      intro answer after cachesAfter post
      cases answer with
      | error status => exact cached.congr (congrArg Caches.redis post.2)
      | ok candidate =>
          rcases post.2.2 with stored | ⟨same, -⟩
          · exact cached.set (bucketId, key) (by exact stores) (congrArg Caches.redis stored)
          · exact cached.congr (congrArg Caches.redis same)
  | listBuckets =>
      refine (MetaCall.yields _ True tables caches).mono fun _ _ _ effect => ?_
      exact cached.congr effect.2
  | getBucket name =>
      refine (MetaCall.yields _ True tables caches).mono fun _ _ _ effect => ?_
      exact cached.congr effect.2.1
  | deleteBucket name =>
      refine (MetaCall.yields _ True tables caches).mono fun _ _ _ effect => ?_
      exact cached.congr effect.1
  | listObjects | checkIdempotency =>
      refine (MetaCall.yields _ True tables caches).mono fun _ _ _ effect => ?_
      exact cached.congr (congrArg Caches.redis effect.2)
  | getBucketById | isBucketEmpty | getCasBlob | canDeleteCasBlob | getMultipartUpload
  | listParts =>
      refine (MetaCall.yields _ True tables caches).mono fun _ _ _ effect => ?_
      exact cached.congr (congrArg Caches.redis effect.2.1)
  | decrementRefCountAndCheckZero | deleteCasBlob | createMultipartUpload
  | deleteMultipartUpload | recordIdempotency =>
      refine (MetaCall.yields _ True tables caches).mono fun _ _ _ effect => ?_
      exact cached.congr (congrArg Caches.redis effect.1)

end Caching

/-- A call that is given such keys answers with such keys and leaves such keys. -/
theorem MetaCall.keyed_perform {indexed : Bytes → Bytes} (call : MetaCall)
    (stores : call.Stores keys) (faults : List (Option SqlError)) (clock : Clock)
    {tables : Tables} {caches : Caches} (keyed : Keyed keys tables)
    (cached : CachesKeyed keys caches) :
    call.Returns keys (call.perform indexed faults clock tables caches).1 ∧
      Keyed keys (call.perform indexed faults clock tables caches).2.1 ∧
      CachesKeyed keys (call.perform indexed faults clock tables caches).2.2 := by
  have mayFail : True ∨ faults = [] := .inl trivial
  have alone : Yields True (fun _ _ after => CachesKeyed keys after) (call.code indexed)
      (⟨tables, none, caches, faults, clock⟩ : Alone).tables none caches :=
    call.yields_cached keyed cached stores
  have effect := @effect_perform indexed call True faults clock tables caches mayFail
  exact ⟨keyed.returns cached effect, keyed.call stores effect, Yields.run _ alone mayFail⟩

end MiniS3.Db
