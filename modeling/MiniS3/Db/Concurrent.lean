import MiniS3.Db.MetaStore
import MiniS3.Db.RefCount

/-!
# Reference counts under concurrent transactions

Sessions run `PutObjectWithRefCount`, `DeleteObjectWithRefCount` and
`PutPartWithRefCount` against one database, interleaved statement by statement
under row locks.  A transaction keeps the counters exact when it has locked the
row it replaces before it decides which blob loses a reference.  The locking query
of the overwriting paths locks nothing when it finds no row, so an upsert that then
meets a row someone else has committed overwrites a reference nobody gives back;
`UpsertsMeetNoRow` rules this out.
-/

namespace MiniS3.Db

open Lib RowLocks Interleaving Transition

variable {indexed : Bytes → Bytes}

/-! ## The counter images of a transaction -/

/-- The images `writes` of a transaction are counter images in rows it holds; on the
tables `base` they move a reference. -/
structure Pending (base : Tables) (held : Row → Prop) (writes : List Write)
    (old new : Option Bytes) : Prop where
  counters : ∀ write ∈ writes, ∃ casKey image, write = .casBlob casKey image ∧
    held (.casBlob casKey)
  moved : Moved old new base (base.applyAll writes)

/-- Counter images leave the other tables alone. -/
theorem applyAll_counters {held : Row → Prop} {writes : List Write}
    (counters : ∀ write ∈ writes, ∃ casKey image, write = .casBlob casKey image ∧
      held (.casBlob casKey)) (tables : Tables) :
    (tables.applyAll writes).objects = tables.objects ∧
      (tables.applyAll writes).multipartParts = tables.multipartParts := by
  induction writes generalizing tables with
  | nil => exact ⟨rfl, rfl⟩
  | cons write rest inductionHypothesis =>
      obtain ⟨casKey, image, rfl, -⟩ := counters write List.mem_cons_self
      exact inductionHypothesis (fun other member =>
        counters other (List.mem_cons_of_mem _ member)) _

/-- Counter images in held rows have the same effect on all tables that agree
there. -/
theorem refCount_applyAll_congr {held : Row → Prop} {writes : List Write}
    (counters : ∀ write ∈ writes, ∃ casKey image, write = .casBlob casKey image ∧
      held (.casBlob casKey)) {first second : Tables} {casKey : Bytes}
    (same : first.refCount casKey = second.refCount casKey) :
    (first.applyAll writes).refCount casKey = (second.applyAll writes).refCount casKey := by
  induction writes generalizing first second with
  | nil => exact same
  | cons write rest inductionHypothesis =>
      obtain ⟨written, image, rfl, -⟩ := counters write List.mem_cons_self
      apply inductionHypothesis fun other member => counters other (List.mem_cons_of_mem _ member)
      rw [refCount_apply_casBlob, refCount_apply_casBlob, same]

theorem refCount_applyAll_of_not_held {held : Row → Prop} {writes : List Write}
    (counters : ∀ write ∈ writes, ∃ casKey image, write = .casBlob casKey image ∧
      held (.casBlob casKey)) (tables : Tables) {casKey : Bytes}
    (free : ¬held (.casBlob casKey)) :
    (tables.applyAll writes).refCount casKey = tables.refCount casKey := by
  induction writes generalizing tables with
  | nil => rfl
  | cons write rest inductionHypothesis =>
      obtain ⟨written, image, rfl, writtenHeld⟩ := counters write List.mem_cons_self
      have apart : casKey ≠ written := by
        rintro rfl
        exact free writtenHeld
      rw [Tables.applyAll_cons, inductionHypothesis (fun other member =>
        counters other (List.mem_cons_of_mem _ member)), refCount_apply_casBlob, if_neg apart]

namespace Pending

variable {base data : Tables} {held : Row → Prop} {writes : List Write} {old new : Option Bytes}

theorem nil (base : Tables) (held : Row → Prop) : Pending base held [] none none :=
  ⟨by simp, Moved.refl none base⟩

/-- Only the counters have changed. -/
theorem untouched (pending : Pending base held writes old new) (tables : Tables) :
    (tables.applyAll writes).objects = tables.objects ∧
      (tables.applyAll writes).multipartParts = tables.multipartParts :=
  applyAll_counters pending.counters tables

/-- What a transaction has written means the same after commits of others. -/
theorem stable (pending : Pending base held writes old new)
    (agree : ∀ row, held row → Tables.Same row base data) :
    Pending data held writes old new := by
  refine ⟨pending.counters, ?_⟩
  intro casKey
  by_cases own : held (.casBlob casKey)
  · have same : base.refCount casKey = data.refCount casKey := by
      have rows : base.casBlobs.lookup casKey = data.casBlobs.lookup casKey := agree _ own
      simp only [Tables.refCount, rows]
    have moved := pending.moved casKey
    rw [refCount_applyAll_congr pending.counters same, same] at moved
    exact moved
  · have moved := pending.moved casKey
    rw [refCount_applyAll_of_not_held pending.counters base own] at moved
    rw [refCount_applyAll_of_not_held pending.counters data own]
    omega

theorem mono (pending : Pending base held writes old new) {held' : Row → Prop}
    (grows : ∀ row, held row → held' row) : Pending base held' writes old new := by
  refine ⟨?_, pending.moved⟩
  intro write member
  obtain ⟨casKey, image, rfl, own⟩ := pending.counters write member
  exact ⟨casKey, image, rfl, grows _ own⟩

theorem append_counter (pending : Pending base held writes old new) {casKey : Bytes}
    {image : Option CasBlobRow} {held' : Row → Prop} (own : held' (.casBlob casKey))
    (grows : ∀ row, held row → held' row) {old' new' : Option Bytes}
    (moved : Moved old' new' base ((base.applyAll writes).apply (.casBlob casKey image))) :
    Pending base held' (writes ++ [.casBlob casKey image]) old' new' := by
  refine ⟨?_, ?_⟩
  · intro write member
    rcases List.mem_append.mp member with earlier | last
    · obtain ⟨other, otherImage, rfl, otherHeld⟩ := pending.counters write earlier
      exact ⟨other, otherImage, rfl, grows _ otherHeld⟩
    · rw [List.mem_singleton] at last
      exact ⟨casKey, image, last, own⟩
  · simpa using moved

end Pending

/-! ## Moving a reference inside a transaction -/

/-- The blob an overwritten row refers to: none when the row is missing or, as the
metadata store reads it, when its key is empty. -/
def referred (oldCas : Bytes) : Option Bytes :=
  if oldCas = [] then none else some oldCas

section Move

variable {good : Tables → Prop} {permitted : Stmt → (Row → Prop) → Tables → Prop}
variable {known : Tables} {held : Row → Prop}

/-- `heldAfter` are the rows of `held` and counter rows. -/
structure Grows (held heldAfter : Row → Prop) : Prop where
  keeps : ∀ row, held row → heldAfter row
  adds : ∀ row, heldAfter row → held row ∨ ∃ casKey, row = .casBlob casKey

theorem Grows.refl (held : Row → Prop) : Grows held held :=
  ⟨fun _ own => own, fun _ own => .inl own⟩

/-- A statement on counters locks counter rows only. -/
theorem Grows.exec {heldAfter : Row → Prop} (grows : Grows held heldAfter)
    (indexed : Bytes → Bytes) (stmt : Stmt) (tables : Tables)
    (counters : ∀ row ∈ stmt.waits indexed tables, ∃ casKey, row = .casBlob casKey) :
    Grows held fun row => row ∈ stmt.locks indexed tables ∨ heldAfter row := by
  refine ⟨fun row own => .inr (grows.keeps row own), ?_⟩
  rintro row (locked | own)
  · exact .inr (counters row (Stmt.locks_subset_waits indexed stmt tables locked))
  · exact grows.adds row own

theorem Grows.agreeOn {heldAfter : Row → Prop} (grows : Grows held heldAfter)
    {first second third : Tables} (one : (engine indexed).AgreeOn held first second)
    (two : (engine indexed).AgreeOn heldAfter second third) :
    (engine indexed).AgreeOn held first third :=
  one.trans fun row own => two row (grows.keeps row own)

/-- A counter that is positive can be decremented. -/
theorem Pending.decrement (indexed : Bytes → Bytes) {base : Tables} {writes : List Write} {new : Option Bytes}
    {casKey : Bytes} {answered : Unit} {images : List Write}
    (pending : Pending base held writes none new) (positive : 0 < base.refCount casKey)
    (evaluated : (Stmt.decrementRefCount casKey).eval indexed (base.applyAll writes) =
      .ok (answered, images)) :
    Pending base
      (fun row => row ∈ (Stmt.decrementRefCount casKey).locks indexed (base.applyAll writes) ∨
        held row) (writes ++ images) (some casKey) new := by
  have counted := pending.moved casKey
  rw [refersTo_none] at counted
  cases stored : (base.applyAll writes).casBlobs.lookup casKey with
  | none =>
      have zero : (base.applyAll writes).refCount casKey = 0 := by
        simp [Tables.refCount, stored]
      omega
  | some row =>
      have value : (base.applyAll writes).refCount casKey = row.refCount := by
        simp [Tables.refCount, stored]
      simp only [Stmt.eval, stored] at evaluated
      cases evaluated
      refine pending.append_counter ?_ (fun _ own => .inr own) ?_
      · simp [Stmt.locks, Stmt.eval, stored, Write.target]
      · exact Moved.gain_lose pending.moved (moved_decrement stored (by omega))

/-- The new blob gets its reference. -/
theorem Pending.increment (indexed : Bytes → Bytes) (held : Row → Prop) {base : Tables} {casKey : Bytes} {size : Int} {answered : Unit}
    {images : List Write}
    (evaluated : (Stmt.upsertCasBlob casKey size).eval indexed base = .ok (answered, images)) :
    Pending base
      (fun row => row ∈ (Stmt.upsertCasBlob casKey size).locks indexed base ∨ held row)
      images none (some casKey) := by
  cases evaluated
  refine (Pending.nil base held).append_counter ?_ (fun _ own => .inr own) ?_
  · simp [Stmt.locks, Stmt.eval, Write.target]
  · exact moved_increment base casKey size

/-- A blob that keeps its reference moves it to itself. -/
theorem Pending.keep {base : Tables} {writes : List Write}
    (pending : Pending base held writes none none) (casKey : Bytes) :
    Pending base held writes (some casKey) (some casKey) := by
  refine ⟨pending.counters, ?_⟩
  intro other
  have moved := pending.moved other
  simp only [refersTo_none] at moved
  omega

/-- The second half of `moveReference`, after the new blob has its reference. -/
theorem safeThen_dropOld {oldCas newCas : Bytes} {writes : List Write}
    {post : Assertion (engine indexed) (Except SqlError (Option Bytes))}
    (failed : ∀ data err anyHeld anyTransaction, good data →
      post (.error err) data anyHeld anyTransaction)
    (positive : oldCas ≠ [] → ∀ data, good data → (engine indexed).AgreeOn held known data →
      0 < data.refCount oldCas)
    (goodKnown : good known)
    (pending : Pending known held writes none (if oldCas = newCas then none else some newCas))
    (nonempty : newCas ≠ [])
    (moved : ∀ data heldAfter images gcCandidate, good data →
      (engine indexed).AgreeOn held known data → Grows held heldAfter →
      Pending data heldAfter images (referred oldCas) (some newCas) →
      post (.ok gcCandidate) data heldAfter (some images)) :
    SafeThen (E := engine indexed) good permitted post
      (MetaStore.moveReference.dropOld oldCas newCas) known held (some writes) := by
  unfold MetaStore.moveReference.dropOld
  by_cases empty : oldCas = []
  · subst oldCas
    have fresh : Pending known held writes (referred []) (some newCas) := by
      simpa [referred, nonempty.symm] using pending
    simp only [List.isEmpty_nil, not_true_eq_false, false_and, if_false]
    exact moved known held writes none goodKnown (.refl _ _) (.refl _) fresh
  · by_cases same : oldCas = newCas
    · subst newCas
      have kept : Pending known held writes (referred oldCas) (some oldCas) := by
        simpa [referred, empty] using (show Pending known held writes none none by
          simpa using pending).keep oldCas
      simp only [ne_eq, not_true_eq_false, and_false, if_false]
      exact moved known held writes none goodKnown (.refl _ _) (.refl _) kept
    · have present : ¬oldCas.isEmpty = true := by simpa using empty
      simp only [if_neg same] at pending
      rw [if_pos ⟨present, same⟩]
      refine safeThen_exec (fun data err _ _ goodData => failed data err _ _ goodData) ?_
      intro data goodData agree _ answered images evaluated
      have lowered := (pending.stable agree).decrement indexed
        (positive empty data goodData agree) evaluated
      have grows := (Grows.refl held).exec indexed (.decrementRefCount oldCas)
        (data.applyAll writes) (by simp [Stmt.waits])
      refine safeThen_exec (fun data err _ _ goodData => failed data err _ _ goodData) ?_
      intro later goodLater agreeLater _ refCount noImages read
      cases read
      rw [List.append_nil]
      refine moved later _ _ _ goodLater (grows.agreeOn agree agreeLater) ?_ ?_
      · exact grows.exec indexed (.selectRefCount oldCas) _ (by simp [Stmt.waits])
      · have old : referred oldCas = some oldCas := if_neg empty
        rw [old]
        exact (lowered.stable agreeLater).mono fun _ own => .inr own

/-- `moveReference` in a transaction that has written nothing yet. -/
theorem safeThen_moveReference {oldCas newCas : Bytes} {size : Int}
    {post : Assertion (engine indexed) (Except SqlError (Option Bytes))}
    (failed : ∀ data err anyHeld anyTransaction, good data →
      post (.error err) data anyHeld anyTransaction)
    (positive : oldCas ≠ [] → ∀ data, good data → (engine indexed).AgreeOn held known data →
      0 < data.refCount oldCas)
    (goodKnown : good known) (nonempty : newCas ≠ [])
    (moved : ∀ data heldAfter images gcCandidate, good data →
      (engine indexed).AgreeOn held known data → Grows held heldAfter →
      Pending data heldAfter images (referred oldCas) (some newCas) →
      post (.ok gcCandidate) data heldAfter (some images)) :
    SafeThen (E := engine indexed) good permitted post
      (MetaStore.moveReference oldCas newCas size) known held (some []) := by
  unfold MetaStore.moveReference
  by_cases same : oldCas = newCas
  · subst newCas
    have present : ¬oldCas.isEmpty = true := by simpa using nonempty
    rw [if_neg (by simp [present])]
    refine safeThen_dropOld failed positive goodKnown ?_ nonempty moved
    simpa using Pending.nil known held
  · rw [if_pos (.inr same)]
    refine safeThen_exec (fun data err _ _ goodData => failed data err _ _ goodData) ?_
    intro data goodData agree _ answered images evaluated
    have raised : Pending data
        (fun row => row ∈ (Stmt.upsertCasBlob newCas size).locks indexed data ∨ held row)
        images none (some newCas) := Pending.increment indexed held evaluated
    have grows := (Grows.refl held).exec indexed (.upsertCasBlob newCas size) data
      (by simp [Stmt.waits])
    refine safeThen_dropOld failed ?_ goodData ?_ nonempty ?_
    · intro present later goodLater agreeLater
      exact positive present later goodLater (grows.agreeOn agree agreeLater)
    · rw [if_neg same]
      exact raised
    · intro later heldAfter laterImages gcCandidate goodLater agreeLater growsLater pending
      refine moved later heldAfter laterImages gcCandidate goodLater
        (grows.agreeOn agree agreeLater) ?_ pending
      exact ⟨fun row own => growsLater.keeps row (grows.keeps row own), fun row own =>
        (growsLater.adds row own).elim (grows.adds row) .inr⟩

end Move

/-! ## Commits that keep the counters exact -/

section Commit

variable {scope : Scope} {data : Tables} {held : Row → Prop} {images : List Write}

/-- Counter images and then an `objects` image. -/
theorem Exact.commit_object (exact : Exact scope data) (objects : scope.objects = true)
    {entry : Int × Bytes} {row : ObjectRow} (nonempty : row.casKey ≠ [])
    (pending : Pending data held images ((data.objects.lookup entry).map ObjectRow.casKey)
      (some row.casKey)) :
    Exact scope (data.applyAll (images ++ [.object entry (some row)])) := by
  obtain ⟨sameObjects, sameParts⟩ := pending.untouched data
  rw [Tables.applyAll_append]
  refine exact.of_object objects entry (some row) pending.moved ?_ ?_ sameParts
  · rintro _ ⟨⟩
    exact nonempty
  · exact congrArg (put entry (some row)) sameObjects

/-- Counter images and then a `multipart_parts` image. -/
theorem Exact.commit_part (exact : Exact scope data) (parts : scope.parts = true)
    {entry : Bytes × Int} {row : PartRow} (nonempty : row.casKey ≠ [])
    (pending : Pending data held images ((data.multipartParts.lookup entry).map PartRow.casKey)
      (some row.casKey)) :
    Exact scope (data.applyAll (images ++ [.part entry (some row)])) := by
  obtain ⟨sameObjects, sameParts⟩ := pending.untouched data
  rw [Tables.applyAll_append]
  refine exact.of_part parts entry (some row) pending.moved ?_ ?_ sameObjects
  · rintro _ ⟨⟩
    exact nonempty
  · exact congrArg (put entry (some row)) sameParts

/-- The removal of an `objects` row and then counter images. -/
theorem Exact.commit_removal (exact : Exact scope data) (objects : scope.objects = true)
    {entry : Int × Bytes}
    (pending : Pending (data.apply (.object entry none)) held images
      ((data.objects.lookup entry).map ObjectRow.casKey) none) :
    Exact scope (data.applyAll (.object entry none :: images)) := by
  obtain ⟨sameObjects, sameParts⟩ :=
    pending.untouched (data.apply (.object entry none))
  exact exact.of_object objects entry none pending.moved (by simp)
    sameObjects sameParts

end Commit

/-- An upsert that replaces a row has locked the row before; without a lock it meets no
row. -/
def UpsertsMeetNoRow (indexed : Bytes → Bytes) : Stmt → (Row → Prop) → Tables → Prop
  | .upsertObject bucketId row, held, tables =>
      ¬held (.object (bucketId, indexed row.objectKey)) →
        tables.objects.lookup (bucketId, indexed row.objectKey) = none
  | .upsertPart uploadId partNumber _, held, tables =>
      ¬held (.part (uploadId, partNumber)) →
        tables.multipartParts.lookup (uploadId, partNumber) = none
  | _, _, _ => True

/-! ## The functions of the metadata store are safe -/

section Functions

variable {scope : Scope}

/-- `Safe` for the accounting of `scope`. -/
abbrev KeepsExact (indexed : Bytes → Bytes) {α : Type} (scope : Scope) :
    MetaM indexed α → Tables → (Row → Prop) → Option (List Write) → Prop :=
  Safe (E := engine indexed) (Exact scope) (UpsertsMeetNoRow indexed)

theorem safe_retryOrFail {left : Nat} {again : MetaM indexed (Result (Option Bytes))}
    (safeAgain : ∀ data, Exact scope data → KeepsExact indexed scope again data (fun _ => False) none)
    {data : Tables} (exact : Exact scope data) (err : SqlError) (message : Bytes) :
    KeepsExact indexed scope (MetaStore.retryOrFail left again err message) data
      (fun _ => False) none := by
  unfold MetaStore.retryOrFail
  split
  · exact safeAgain data exact
  · exact ⟨rfl, fun _ => not_false⟩

/-- After a failed statement the transaction is rolled back. -/
theorem safe_rollback_retryOrFail {left : Nat} {again : MetaM indexed (Result (Option Bytes))}
    (safeAgain : ∀ data, Exact scope data → KeepsExact indexed scope again data (fun _ => False) none)
    (data : Tables) (held : Row → Prop) (transaction : Option (List Write)) (err : SqlError)
    (message : Bytes) :
    KeepsExact indexed scope (MetaM.rollback >>= fun _ => MetaStore.retryOrFail left again err message)
      data held transaction :=
  safeThen_rollback fun _ exact => safe_retryOrFail safeAgain exact err message

theorem upsertObject_writes {bucketId : Int} {row : ObjectRow} {tables : Tables}
    {answered : Unit} {writes : List Write}
    (evaluated : (Stmt.upsertObject bucketId row).eval indexed tables = .ok (answered, writes)) :
    ∃ image : ObjectRow, image.casKey = row.casKey ∧
      writes = [.object (bucketId, indexed row.objectKey) (some image)] := by
  simp only [Stmt.eval] at evaluated
  repeat' split at evaluated
  all_goals cases evaluated
  all_goals exact ⟨_, by rfl, rfl⟩

theorem insertObject_writes {bucketId : Int} {row : ObjectRow} {tables : Tables}
    {answered : Unit} {writes : List Write}
    (evaluated : (Stmt.insertObject bucketId row).eval indexed tables = .ok (answered, writes)) :
    tables.objects.lookup (bucketId, indexed row.objectKey) = none ∧
      writes = [.object (bucketId, indexed row.objectKey) (some row)] := by
  simp only [Stmt.eval] at evaluated
  repeat' split at evaluated
  all_goals cases evaluated
  exact ⟨by assumption, rfl⟩

/-- Rows the session holds after the locking query on `objects`. -/
def lockedObject (indexed : Bytes → Bytes) (bucketId : Int) (key : Bytes) (tables : Tables)
    (row : Row) : Prop :=
  row ∈ (Stmt.selectObjectCasKeyForUpdate bucketId key).locks indexed tables ∨ False

theorem lockedObject_iff {bucketId : Int} {key : Bytes} {tables : Tables} {row : Row} :
    lockedObject indexed bucketId key tables row ↔
      (tables.findObject indexed bucketId key).isSome = true ∧
        row = .object (bucketId, indexed key) := by
  simp only [lockedObject, Stmt.locks, Stmt.eval, Stmt.selected, or_false]
  split <;> simp_all

/-- The row a locking query found stays as it is while it is held. -/
theorem lookup_of_lockedObject {bucketId : Int} {key : Bytes} {known data : Tables}
    {found : ObjectRow} (foundEq : known.findObject indexed bucketId key = some found)
    (agree : (engine indexed).AgreeOn (lockedObject indexed bucketId key known) known data) :
    data.objects.lookup (bucketId, indexed key) = some found := by
  have stored : known.objects.lookup (bucketId, indexed key) = some found := by
    rw [Tables.findObject, Option.filter_eq_some_iff] at foundEq
    exact foundEq.1
  have same : known.objects.lookup (bucketId, indexed key) =
      data.objects.lookup (bucketId, indexed key) :=
    agree (.object (bucketId, indexed key)) (lockedObject_iff.mpr ⟨by simp [foundEq], rfl⟩)
  rw [← same, stored]

/-- The row an upsert replaces is the one the locking query found; where it found none
there is none, since the upsert meets no row without a lock. -/
theorem overwritten_object (objects : scope.objects = true) {bucketId : Int} {key : Bytes}
    {known data : Tables} {heldAfter : Row → Prop} (exact : Exact scope data)
    (grows : Grows (lockedObject indexed bucketId key known) heldAfter)
    (agree : (engine indexed).AgreeOn (lockedObject indexed bucketId key known) known data)
    (free : ¬heldAfter (.object (bucketId, indexed key)) →
      data.objects.lookup (bucketId, indexed key) = none) :
    (data.objects.lookup (bucketId, indexed key)).map ObjectRow.casKey =
      referred (((known.findObject indexed bucketId key).map ObjectRow.casKey).getD []) := by
  cases foundEq : known.findObject indexed bucketId key with
  | none =>
      have unlocked : ¬heldAfter (.object (bucketId, indexed key)) := by
        intro own
        rcases grows.adds _ own with locked | ⟨casKey, counter⟩
        · simp [lockedObject_iff, foundEq] at locked
        · contradiction
      rw [free unlocked]
      rfl
  | some found =>
      have stored := lookup_of_lockedObject foundEq agree
      have nonempty := exact.objectNonempty objects _ _ stored
      simp [stored, referred, nonempty]

/-- `PutObjectWithRefCount` after its locking query. -/
theorem safe_replaceObject (objects : scope.objects = true) {bucketId : Int} {row : ObjectRow}
    (nonempty : row.casKey ≠ []) {left : Nat} {again : MetaM indexed (Result (Option Bytes))}
    (safeAgain : ∀ data, Exact scope data → KeepsExact indexed scope again data (fun _ => False) none)
    {known : Tables} (exactKnown : Exact scope known) :
    KeepsExact indexed scope
      (MetaStore.replaceObject bucketId row left again
        (((known.findObject indexed bucketId row.objectKey).map ObjectRow.casKey).getD []))
      known (lockedObject indexed bucketId row.objectKey known) (some []) := by
  have failed : ∀ data err held transaction, KeepsExact indexed scope
      (MetaM.rollback >>= fun _ => MetaStore.retryOrFail left again err err) data held
        transaction := fun data err held transaction =>
    safe_rollback_retryOrFail safeAgain data held transaction err err
  unfold MetaStore.replaceObject
  refine safeThen_bind.mpr (safeThen_moveReference
    (fun data err _ _ _ => failed data err _ _) ?_ exactKnown nonempty ?_)
  · intro present data exact agree
    cases foundEq : known.findObject indexed bucketId row.objectKey with
    | none => simp [foundEq] at present
    | some found =>
        exact exact.refCount_pos_of_object objects (lookup_of_lockedObject foundEq agree)
  · intro moved heldAfter images gcCandidate exactMoved agreeMoved grows pending
    refine safeThen_exec (fun data err _ _ _ => failed data err _ _) ?_
    intro written exactWritten agreeWritten free answered writes evaluated
    obtain ⟨image, sameKey, rfl⟩ := upsertObject_writes evaluated
    refine safeThen_commit ?_ ?_
    · intro data exact agree
      have untouched := (pending.untouched written).1
      have old := overwritten_object objects exactWritten grows
        (grows.agreeOn agreeMoved agreeWritten) fun unheld => untouched ▸ free unheld
      have entryHeld := (engine indexed).target_mem_locks evaluated _ List.mem_cons_self
      have sameEntry : written.objects.lookup (bucketId, indexed row.objectKey) =
          data.objects.lookup (bucketId, indexed row.objectKey) :=
        agree (.object (bucketId, indexed row.objectKey)) (.inl entryHeld)
      have pendingNow := pending.stable
        (agreeWritten.trans fun other own => agree other (.inr own))
      rw [← old, sameEntry, ← sameKey] at pendingNow
      exact exact.commit_object objects (sameKey ▸ nonempty) pendingNow
    · intro data answered exact
      cases answered with
      | error err => exact safe_retryOrFail safeAgain exact err _
      | ok value => exact fun _ _ _ _ => ⟨rfl, fun _ => not_false⟩

theorem safe_putObjectSlow (objects : scope.objects = true) {bucketId : Int} {row : ObjectRow}
    (nonempty : row.casKey ≠ []) {left : Nat} {again : MetaM indexed (Result (Option Bytes))}
    (safeAgain : ∀ data, Exact scope data → KeepsExact indexed scope again data (fun _ => False) none)
    (known : Tables) :
    KeepsExact indexed scope (MetaStore.putObjectSlow bucketId row left again) known
      (fun _ => False) none := by
  unfold MetaStore.putObjectSlow
  refine safeThen_begin fun start _ _ => safeThen_exec (fun data err held transaction _ =>
    safe_rollback_retryOrFail safeAgain data held transaction err err) ?_
  intro data exact _ _ found writes evaluated
  cases evaluated
  exact safe_replaceObject objects nonempty safeAgain exact

/-- A new row, inserted after its blob has got the reference. -/
theorem safe_putObjectAttempt (objects : scope.objects = true) {bucketId : Int}
    {row : ObjectRow} (nonempty : row.casKey ≠ []) {left : Nat}
    {again : MetaM indexed (Result (Option Bytes))}
    (safeAgain : ∀ data, Exact scope data → KeepsExact indexed scope again data (fun _ => False) none)
    (known : Tables) :
    KeepsExact indexed scope (MetaStore.putObjectAttempt bucketId row left again) known
      (fun _ => False) none := by
  unfold MetaStore.putObjectAttempt
  refine safeThen_begin fun start _ _ => safeThen_exec (fun data err held transaction _ =>
    safe_rollback_retryOrFail safeAgain data held transaction err err) ?_
  intro counted exactCounted _ _ answered images evaluated
  have raised : Pending counted _ images none (some row.casKey) :=
    Pending.increment indexed (fun _ => False) evaluated
  refine safeThen_exec ?_ ?_
  · intro data err held transaction _
    refine safeThen_rollback fun data exact => ?_
    dsimp only [Program.bind]
    split
    · exact safe_putObjectSlow objects nonempty safeAgain data
    · exact safe_retryOrFail safeAgain exact err err
  · intro inserted exactInserted agreeInserted _ answered writes insertion
    obtain ⟨free, rfl⟩ := insertObject_writes insertion
    have raisedThen := raised.stable agreeInserted
    have untouched := (raisedThen.untouched inserted).1
    refine safeThen_commit ?_ ?_
    · intro data exact agree
      have entryHeld := (engine indexed).target_mem_locks insertion _ List.mem_cons_self
      have sameEntry : inserted.objects.lookup (bucketId, indexed row.objectKey) =
          data.objects.lookup (bucketId, indexed row.objectKey) :=
        agree (.object (bucketId, indexed row.objectKey)) (.inl entryHeld)
      have missing : data.objects.lookup (bucketId, indexed row.objectKey) = none := by
        rw [← sameEntry, ← untouched]
        exact free
      have pendingNow := raisedThen.stable fun other own => agree other (.inr own)
      have replacesNone : (data.objects.lookup (bucketId, indexed row.objectKey)).map
          ObjectRow.casKey = none := by
        rw [missing, Option.map_none]
      rw [← replacesNone] at pendingNow
      exact exact.commit_object objects nonempty pendingNow
    · intro data answered exact
      cases answered with
      | error err => exact safe_retryOrFail safeAgain exact err _
      | ok value => exact ⟨rfl, fun _ => not_false⟩

/-- The retry loop, by induction on the attempts that are left. -/
theorem safe_putObjectLoop (objects : scope.objects = true) {bucketId : Int} {row : ObjectRow}
    (nonempty : row.casKey ≠ []) (attempts : Nat) :
    ∀ data, Exact scope data → KeepsExact indexed scope
      (MetaStore.putObjectLoop bucketId row attempts) data
        (fun _ => False) none := by
  induction attempts with
  | zero => exact fun _ _ => ⟨rfl, fun _ => not_false⟩
  | succ left inductionHypothesis =>
      exact fun data _ => safe_putObjectAttempt objects nonempty inductionHypothesis data

/-! ### Deleting an object -/

/-- The blob of a removed row loses its reference. -/
theorem safeThen_dropReference {good : Tables → Prop}
    {permitted : Stmt → (Row → Prop) → Tables → Prop} {known : Tables} {held : Row → Prop}
    {removal : Write} {casKey : Bytes}
    {post : Assertion (engine indexed) (Except SqlError (Option Bytes))}
    (failed : ∀ data err anyHeld anyTransaction, good data →
      post (.error err) data anyHeld anyTransaction)
    (positive : ∀ data, good data → (engine indexed).AgreeOn held known data →
      0 < (data.apply removal).refCount casKey) (nonempty : casKey ≠ [])
    (lowered : ∀ data heldAfter images gcCandidate, good data →
      (engine indexed).AgreeOn held known data → Grows held heldAfter →
      Pending (data.apply removal) heldAfter images (some casKey) none →
      post (.ok gcCandidate) data heldAfter (some (removal :: images))) :
    SafeThen (E := engine indexed) good permitted post
      (MetaStore.dropReference casKey) known held (some [removal]) := by
  unfold MetaStore.dropReference
  have present : ¬casKey.isEmpty = true := by simpa using nonempty
  rw [if_neg present]
  refine safeThen_exec (fun data err _ _ goodData => failed data err _ _ goodData) ?_
  intro data goodData agree _ answered images evaluated
  have pending := (Pending.nil (data.apply removal) held).decrement indexed
    (positive data goodData agree) evaluated
  have grows := (Grows.refl held).exec indexed (.decrementRefCount casKey)
    (data.apply removal) (by simp [Stmt.waits])
  refine safeThen_exec (fun data err _ _ goodData => failed data err _ _ goodData) ?_
  intro later goodLater agreeLater _ refCount noImages read
  cases read
  rw [List.append_nil]
  refine lowered later _ _ _ goodLater (grows.agreeOn agree agreeLater) ?_ ?_
  · exact grows.exec indexed (.selectRefCount casKey) _ (by simp [Stmt.waits])
  · exact (pending.stable fun row own => (agreeLater row own).apply removal).mono
      fun _ own => .inr own

/-- `DeleteObjectWithRefCount` after its locking query has found a row. -/
theorem safe_removeObject (objects : scope.objects = true) {bucketId : Int} {key : Bytes}
    {known : Tables} {found : ObjectRow}
    (foundEq : known.findObject indexed bucketId key = some found) (exactKnown : Exact scope known) :
    KeepsExact indexed scope (MetaStore.removeObject bucketId key found.casKey) known
      (lockedObject indexed bucketId key known) (some []) := by
  have failed : ∀ data err held transaction, KeepsExact indexed scope
      (MetaM.rollback >>= fun _ => (pure (.err .DatabaseError err) :
        MetaM indexed (Result (Option Bytes)))) data held transaction := fun _ _ _ _ =>
    safeThen_rollback fun _ _ => ⟨rfl, fun _ => not_false⟩
  have whole : found.objectKey = key := by
    rw [Tables.findObject, Option.filter_eq_some_iff] at foundEq
    simpa using foundEq.2
  unfold MetaStore.removeObject
  refine safeThen_exec (fun data err _ _ _ => failed data err _ _) ?_
  intro removed exactRemoved agreeRemoved _ affected writes removal
  have stored := lookup_of_lockedObject foundEq agreeRemoved
  have foundAgain : removed.findObject indexed bucketId key = some found := by
    simp [Tables.findObject, stored, whole]
  have removalWrites : writes = [.object (bucketId, indexed key) none] := by
    change (Stmt.deleteObject bucketId key).eval indexed removed = _ at removal
    simp only [Stmt.eval, foundAgain] at removal
    cases removal
    rfl
  subst writes
  dsimp only [Program.bind]
  refine safeThen_bind.mpr (safeThen_dropReference (fun data err _ _ _ => failed data err _ _)
    ?_ (exactKnown.objectNonempty objects _ _ (lookup_of_lockedObject foundEq (.refl _ _))) ?_)
  · intro data exact agree
    have storedNow := lookup_of_lockedObject foundEq
      (agreeRemoved.trans fun row own => agree row (.inr own))
    exact exact.refCount_pos_of_object objects storedNow
  · intro lowered heldAfter images gcCandidate exactLowered agreeLowered grows pending
    refine safeThen_commit ?_ ?_
    · intro data exact agree
      have agreeNow := agreeRemoved.trans fun row own =>
        (grows.agreeOn agreeLowered agree) row (.inr own)
      have pendingNow := pending.stable fun row own =>
        (agree row own).apply (.object (bucketId, indexed key) none)
      have storedNow : (data.objects.lookup (bucketId, indexed key)).map ObjectRow.casKey =
          some found.casKey := by
        rw [lookup_of_lockedObject foundEq agreeNow, Option.map_some]
      rw [← storedNow] at pendingNow
      exact exact.commit_removal objects pendingNow
    · intro data answered exact
      cases answered with
      | error err => exact ⟨rfl, fun _ => not_false⟩
      | ok value => exact fun _ _ _ _ => ⟨rfl, fun _ => not_false⟩

theorem safe_deleteObjectWithRefCount (objects : scope.objects = true) (bucketId : Int)
    (key : Bytes) (known : Tables) :
    KeepsExact indexed scope (MetaStore.deleteObjectWithRefCount bucketId key) known
      (fun _ => False) none := by
  unfold MetaStore.deleteObjectWithRefCount
  refine safeThen_begin fun start _ _ => safeThen_exec (fun _ _ _ _ _ =>
    safeThen_rollback fun _ _ => ⟨rfl, fun _ => not_false⟩) ?_
  intro data exact _ _ answered writes evaluated
  obtain ⟨rfl, read⟩ : writes = [] ∧
      answered = (data.findObject indexed bucketId key).map ObjectRow.casKey := by
    cases evaluated
    exact ⟨rfl, rfl⟩
  cases foundEq : data.findObject indexed bucketId key with
  | none =>
      rw [foundEq] at read
      subst read
      exact safeThen_rollback fun _ _ => ⟨rfl, fun _ => not_false⟩
  | some found =>
      rw [foundEq] at read
      subst read
      exact safe_removeObject objects foundEq exact

/-! ### Uploading a part -/

/-- Rows the session holds after the locking query on `multipart_parts`. -/
def lockedPart (indexed : Bytes → Bytes) (uploadId : Bytes) (partNumber : Int) (tables : Tables)
    (row : Row) : Prop :=
  row ∈ (Stmt.selectPartCasKeyForUpdate uploadId partNumber).locks indexed tables ∨ False

theorem lockedPart_iff {uploadId : Bytes} {partNumber : Int} {tables : Tables} {row : Row} :
    lockedPart indexed uploadId partNumber tables row ↔
      (tables.multipartParts.lookup (uploadId, partNumber)).isSome = true ∧
        row = .part (uploadId, partNumber) := by
  simp only [lockedPart, Stmt.locks, Stmt.eval, Stmt.selected, or_false]
  split <;> simp_all

theorem lookup_of_lockedPart {uploadId : Bytes} {partNumber : Int} {known data : Tables}
    {found : PartRow} (foundEq : known.multipartParts.lookup (uploadId, partNumber) = some found)
    (agree : (engine indexed).AgreeOn (lockedPart indexed uploadId partNumber known) known
      data) :
    data.multipartParts.lookup (uploadId, partNumber) = some found := by
  have same : known.multipartParts.lookup (uploadId, partNumber) =
      data.multipartParts.lookup (uploadId, partNumber) :=
    agree (.part (uploadId, partNumber)) (lockedPart_iff.mpr ⟨by simp [foundEq], rfl⟩)
  rw [← same, foundEq]

/-- The row an upsert replaces is the one the locking query found. -/
theorem overwritten_part (parts : scope.parts = true) {uploadId : Bytes} {partNumber : Int}
    {known data : Tables} {heldAfter : Row → Prop} (exact : Exact scope data)
    (grows : Grows (lockedPart indexed uploadId partNumber known) heldAfter)
    (agree : (engine indexed).AgreeOn (lockedPart indexed uploadId partNumber known) known data)
    (free : ¬heldAfter (.part (uploadId, partNumber)) →
      data.multipartParts.lookup (uploadId, partNumber) = none) :
    (data.multipartParts.lookup (uploadId, partNumber)).map PartRow.casKey =
      referred (((known.multipartParts.lookup (uploadId, partNumber)).map PartRow.casKey).getD
        []) := by
  cases foundEq : known.multipartParts.lookup (uploadId, partNumber) with
  | none =>
      have unlocked : ¬heldAfter (.part (uploadId, partNumber)) := by
        intro own
        rcases grows.adds _ own with locked | ⟨casKey, counter⟩
        · simp [lockedPart_iff, foundEq] at locked
        · contradiction
      rw [free unlocked]
      rfl
  | some found =>
      have stored := lookup_of_lockedPart foundEq agree
      have nonempty := exact.partNonempty parts _ _ stored
      simp [stored, referred, nonempty]

theorem upsertPart_writes (indexed : Bytes → Bytes) {uploadId : Bytes} {partNumber : Int} {row : PartRow}
    {tables : Tables} {answered : Unit} {writes : List Write}
    (evaluated : (Stmt.upsertPart uploadId partNumber row).eval indexed tables =
      .ok (answered, writes)) : writes = [.part (uploadId, partNumber) (some row)] := by
  simp only [Stmt.eval] at evaluated
  split at evaluated
  all_goals cases evaluated
  rfl

/-- `PutPartWithRefCount` after its locking query. -/
theorem safe_replacePart (parts : scope.parts = true) {uploadId : Bytes} {partNumber : Int}
    {row : PartRow} (nonempty : row.casKey ≠ []) {left : Nat}
    {again : MetaM indexed (Result (Option Bytes))}
    (safeAgain : ∀ data, Exact scope data →
      KeepsExact indexed scope again data (fun _ => False) none)
    {known : Tables} (exactKnown : Exact scope known) :
    KeepsExact indexed scope
      (MetaStore.replacePart uploadId partNumber row left again
        (((known.multipartParts.lookup (uploadId, partNumber)).map PartRow.casKey).getD []))
      known (lockedPart indexed uploadId partNumber known) (some []) := by
  have failed : ∀ data err held transaction, KeepsExact indexed scope
      (MetaM.rollback >>= fun _ => MetaStore.retryOrFail left again err err) data held
        transaction := fun data err held transaction =>
    safe_rollback_retryOrFail safeAgain data held transaction err err
  unfold MetaStore.replacePart
  refine safeThen_bind.mpr (safeThen_moveReference
    (fun data err _ _ _ => failed data err _ _) ?_ exactKnown nonempty ?_)
  · intro present data exact agree
    cases foundEq : known.multipartParts.lookup (uploadId, partNumber) with
    | none => simp [foundEq] at present
    | some found =>
        exact exact.refCount_pos_of_part parts (lookup_of_lockedPart foundEq agree)
  · intro moved heldAfter images gcCandidate exactMoved agreeMoved grows pending
    refine safeThen_exec (fun data err _ _ _ => failed data err _ _) ?_
    intro written exactWritten agreeWritten free answered writes evaluated
    obtain rfl := upsertPart_writes indexed evaluated
    refine safeThen_commit ?_ ?_
    · intro data exact agree
      have untouched := (pending.untouched written).2
      have old := overwritten_part parts exactWritten grows
        (grows.agreeOn agreeMoved agreeWritten) fun unheld => untouched ▸ free unheld
      have entryHeld := (engine indexed).target_mem_locks evaluated _ List.mem_cons_self
      have sameEntry : written.multipartParts.lookup (uploadId, partNumber) =
          data.multipartParts.lookup (uploadId, partNumber) :=
        agree (.part (uploadId, partNumber)) (.inl entryHeld)
      have pendingNow := pending.stable
        (agreeWritten.trans fun other own => agree other (.inr own))
      rw [← old, sameEntry] at pendingNow
      exact exact.commit_part parts nonempty pendingNow
    · intro data answered exact
      cases answered with
      | error err => exact safe_retryOrFail safeAgain exact err _
      | ok value => exact ⟨rfl, fun _ => not_false⟩

theorem safe_putPartAttempt (parts : scope.parts = true) {uploadId : Bytes} {partNumber : Int}
    {row : PartRow} (nonempty : row.casKey ≠ []) {left : Nat}
    {again : MetaM indexed (Result (Option Bytes))}
    (safeAgain : ∀ data, Exact scope data →
      KeepsExact indexed scope again data (fun _ => False) none) (known : Tables) :
    KeepsExact indexed scope (MetaStore.putPartAttempt uploadId partNumber row left again) known
      (fun _ => False) none := by
  unfold MetaStore.putPartAttempt
  refine safeThen_begin fun start _ _ => safeThen_exec (fun data err held transaction _ =>
    safe_rollback_retryOrFail safeAgain data held transaction err err) ?_
  intro data exact _ _ found writes evaluated
  cases evaluated
  exact safe_replacePart parts nonempty safeAgain exact

theorem safe_putPartLoop (parts : scope.parts = true) {uploadId : Bytes} {partNumber : Int}
    {row : PartRow} (nonempty : row.casKey ≠ []) (attempts : Nat) :
    ∀ data, Exact scope data → KeepsExact indexed scope
      (MetaStore.putPartLoop uploadId partNumber row attempts) data (fun _ => False) none := by
  induction attempts with
  | zero => exact fun _ _ => ⟨rfl, fun _ => not_false⟩
  | succ left inductionHypothesis =>
      exact fun data _ => safe_putPartAttempt parts nonempty inductionHypothesis data

end Functions

/-! ## Interleaved calls -/

/-- Calls of the metadata store that run against one database. -/
abbrev SessionPool (indexed : Bytes → Bytes) :=
  Pool (engine indexed).sig (Result (Option Bytes)) (Store (engine indexed))

/-- The session statements that a pool is about to perform meet `UpsertsMeetNoRow`. -/
def UpsertAllowed (indexed : Bytes → Bytes)
    (pool : SessionPool indexed)
    (session : Nat) : Prop :=
  ∀ stmt next, pool.running.lookup session = some (.call (.exec stmt) next) →
    UpsertsMeetNoRow indexed stmt (fun row => pool.shared.owner row = some session)
      (pool.shared.view session)

/-- `UpsertAllowed` as a check. -/
def upsertAllowed (indexed : Bytes → Bytes)
    (pool : SessionPool indexed)
    (session : Nat) : Bool :=
  match pool.running.lookup session with
  | some (.call (.exec (.upsertObject bucketId row)) _) =>
      pool.shared.owner (.object (bucketId, indexed row.objectKey)) == some session ||
        ((pool.shared.view session).objects.lookup (bucketId, indexed row.objectKey)).isNone
  | some (.call (.exec (.upsertPart uploadId partNumber _)) _) =>
      pool.shared.owner (.part (uploadId, partNumber)) == some session ||
        ((pool.shared.view session).multipartParts.lookup (uploadId, partNumber)).isNone
  | _ => true

theorem UpsertAllowed.of_check
    {pool : SessionPool indexed}
    {session : Nat} (checked : upsertAllowed indexed pool session = true) :
    UpsertAllowed indexed pool session := by
  intro stmt next stored
  unfold upsertAllowed at checked
  rw [stored] at checked
  cases stmt <;> simp_all [UpsertsMeetNoRow]
  all_goals exact fun unheld => checked.resolve_left unheld

/-- Calls that write or delete an object. -/
inductive ObjectCall
  | put (bucketId : Int) (key : Bytes) (size : Int) (etag contentType sha256Hash : Bytes)
  | delete (bucketId : Int) (key : Bytes)

namespace ObjectCall

/-- The program of a call. -/
def code : ObjectCall → MetaM indexed (Result (Option Bytes))
  | .put bucketId key size etag contentType sha256Hash =>
      MetaStore.putObjectWithRefCount bucketId key size etag contentType sha256Hash
  | .delete bucketId key => MetaStore.deleteObjectWithRefCount bucketId key

/-- One step of a pool of calls. -/
abbrev steps (indexed : Bytes → Bytes) :
    Step (SessionPool indexed) (Action ObjectCall (Choice (engine indexed))) :=
  next code Store.answer

/-- No call stores an empty blob key, and an upsert without the lock on its row meets no
row. -/
def Allowed (indexed : Bytes → Bytes)
    (pool : SessionPool indexed) :
    Action ObjectCall (Choice (engine indexed)) → Prop
  | .start _ (.put _ _ _ _ _ sha256Hash) => sha256Hash ≠ []
  | .start _ (.delete _ _) => True
  | .advance session .proceed => UpsertAllowed indexed pool session
  | .advance _ _ => True

/-- `Allowed` as a check. -/
def allowed (indexed : Bytes → Bytes)
    (pool : SessionPool indexed) :
    Action ObjectCall (Choice (engine indexed)) → Bool
  | .start _ (.put _ _ _ _ _ sha256Hash) => sha256Hash != []
  | .advance session .proceed => upsertAllowed indexed pool session
  | _ => true

theorem Allowed.of_check
    (pool : SessionPool indexed)
    (action : Action ObjectCall (Choice (engine indexed)))
    (checked : allowed indexed pool action = true) : Allowed indexed pool action := by
  cases action with
  | start process call => cases call <;> simp_all [allowed, Allowed]
  | advance session choice =>
      cases choice with
      | proceed => exact UpsertAllowed.of_check checked
      | _ => trivial

end ObjectCall

/-- Concurrent calls of `PutObjectWithRefCount` and `DeleteObjectWithRefCount` keep the
counters exact as long as no upsert replaces a row its session has not locked. -/
theorem concurrent_objects_keep_refCounts (indexed : Bytes → Bytes) (data : Tables)
    (exactAtStart : ∀ casKey, data.refCount casKey = data.objectRefs casKey)
    (nonemptyAtStart : ∀ entry row, data.objects.lookup entry = some row → row.casKey ≠ [])
    (target : SessionPool indexed)
    (reachable : ReachableUnder (ObjectCall.steps indexed) (ObjectCall.Allowed indexed)
      ⟨Store.idle data, ∅⟩ target) (casKey : Bytes) :
    target.shared.committed.refCount casKey = target.shared.committed.objectRefs casKey := by
  have initial : Exact .objectsOnly data :=
    ⟨fun key => by simpa [references, Scope.objectsOnly] using exactAtStart key,
      fun _ => nonemptyAtStart, by simp [Scope.objectsOnly]⟩
  have permits : Permits (UpsertsMeetNoRow indexed) (ObjectCall.Allowed indexed) :=
    fun pool session stmt rest allowed stored => allowed stmt rest stored
  have safe : ∀ pool process call, ObjectCall.Allowed indexed pool (.start process call) →
      ∀ data, Exact .objectsOnly data →
        KeepsExact indexed .objectsOnly (ObjectCall.code call) data (fun _ => False) none := by
    intro pool process call allowed data exact
    cases call with
    | put bucketId key size etag contentType sha256Hash =>
        refine safe_putObjectLoop rfl ?_ kMaxRetries data exact
        exact allowed
    | delete bucketId key => exact safe_deleteObjectWithRefCount rfl bucketId key data
  have final : Exact .objectsOnly target.shared.committed :=
    good_of_reachable permits safe initial reachable
  simpa [references, Scope.objectsOnly] using final.counted casKey

/-! ### Runs on one object -/

section ObjectRuns

/-- The index `uk_bucket_key (bucket_id, object_key(255))` on ASCII keys. -/
def declaredIndex : Bytes → Bytes :=
  List.take 255

/-- The answers of caches that hold nothing. -/
def noCaches : Choice (engine declaredIndex) :=
  .answer fun op => ((Caches.mk ∅ none).answer ⟨0, 0⟩ op).1

/-- One bucket with one object, stored in the blob `aa...a`. -/
def oneObject : Tables :=
  { Tables.empty with
    buckets := Table.set 1 (ascii "default") ∅
    casBlobs := Table.set (blobKey 'a') ⟨5, 1⟩ ∅
    objects := Table.set (1, ascii "k") ⟨ascii "k", blobKey 'a', 5, ascii "text/plain",
      ascii "e"⟩ ∅ }

/-- A call that stores the key `k` with the blob of a digit. -/
def putCall (digit : Char) : ObjectCall :=
  .put 1 (ascii "k") 5 (ascii "e") (ascii "text/plain") (blobKey digit)

/-- Let a session perform a number of statements. -/
def statements {ι : Type} (session count : Nat) :
    List (Action ι (Choice (engine declaredIndex))) :=
  List.replicate count (.advance session .proceed)

/-- Session 0 overwrites: its insert fails as duplicate, and it starts its second
transaction.  Session 1 then deletes the row.  Session 0 finds no row to lock and
counts the blob `bb...b`; session 2 inserts the key with the blob `cc...c`; and session
0 upserts over that row. -/
def lostReference : List (Action ObjectCall (Choice (engine declaredIndex))) :=
  [.start 0 (putCall 'b')] ++ statements 0 5 ++
  [.start 1 (.delete 1 (ascii "k"))] ++ statements 1 6 ++ [.advance 1 noCaches] ++
  statements 0 2 ++
  [.start 2 (putCall 'c')] ++ statements 2 4 ++
  statements 0 2 ++ [.advance 0 noCaches]

/-- Session 0 overwrites the row while session 1 waits for it and deletes it after. -/
def overwriteThenDelete : List (Action ObjectCall (Choice (engine declaredIndex))) :=
  [.start 0 (putCall 'b')] ++ statements 0 6 ++ [.start 1 (.delete 1 (ascii "k"))] ++
  statements 1 1 ++ statements 0 5 ++ [.advance 0 noCaches] ++ statements 1 5 ++
  [.advance 1 noCaches]

theorem oneObject_refCount (casKey : Bytes) :
    oneObject.refCount casKey = oneObject.objectRefs casKey := by
  by_cases same : casKey = blobKey 'a'
  · subst casKey
    decide +kernel
  · have missing : oneObject.casBlobs.lookup casKey = none :=
      Table.lookup_set_ne _ _ same
    have uncounted : oneObject.objectRefs casKey = 0 := by
      have different : (decide (blobKey 'a' = casKey)) = false := by simp [Ne.symm same]
      change [_].countP _ = 0
      simp only [List.countP_cons, List.countP_nil, different]
      rfl
    rw [uncounted, Tables.refCount, missing]
    rfl

/-- The counters do not stay exact in every interleaving: the run `lostReference` ends
with no call in progress, and the blob `cc...c` has a reference no row accounts for. -/
theorem concurrent_objects_can_lose_a_reference :
    (∀ casKey, oneObject.refCount casKey = oneObject.objectRefs casKey) ∧
    ∃ target, Reachable (ObjectCall.steps declaredIndex) ⟨Store.idle oneObject, ∅⟩ target ∧
      target.running.rows = [] ∧
      target.shared.committed.refCount (blobKey 'c') ≠
        target.shared.committed.objectRefs (blobKey 'c') := by
  refine ⟨oneObject_refCount, ?_⟩
  have performed : (run (ObjectCall.steps declaredIndex) ⟨Store.idle oneObject, ∅⟩
      lostReference).any (fun pool => pool.running.rows.isEmpty &&
        pool.shared.committed.refCount (blobKey 'c') !=
          pool.shared.committed.objectRefs (blobKey 'c')) = true := by
    decide +kernel
  obtain ⟨target, reachable, final⟩ := exists_reachable_of_run _ performed
  simp only [Bool.and_eq_true, List.isEmpty_iff, bne_iff_ne] at final
  exact ⟨target, reachable, final.1, final.2⟩

/-- The theorem at the run `overwriteThenDelete`, which ends with the blob `bb...b` free. -/
theorem concurrent_objects_keep_refCounts_overwriteThenDelete :
    ∃ target, ReachableUnder (ObjectCall.steps declaredIndex)
        (ObjectCall.Allowed declaredIndex) ⟨Store.idle oneObject, ∅⟩ target ∧
      target.shared.committed.refCount (blobKey 'b') = 0 ∧
      ∀ casKey, target.shared.committed.refCount casKey =
        target.shared.committed.objectRefs casKey := by
  have performed : (run (fun pool action =>
      if ObjectCall.allowed declaredIndex pool action then
        ObjectCall.steps declaredIndex pool action else none)
      ⟨Store.idle oneObject, ∅⟩ overwriteThenDelete).any (fun pool =>
        pool.running.rows.isEmpty && pool.shared.committed.refCount (blobKey 'b') == 0) =
          true := by
    decide +kernel
  obtain ⟨target, reachable, final⟩ :=
    exists_reachableUnder_of_run _ ObjectCall.Allowed.of_check _ performed
  simp only [Bool.and_eq_true, beq_iff_eq] at final
  refine ⟨target, reachable, final.2, ?_⟩
  refine concurrent_objects_keep_refCounts declaredIndex oneObject oneObject_refCount ?_
    target reachable
  intro entry row stored
  obtain rfl : row = ⟨ascii "k", blobKey 'a', 5, ascii "text/plain", ascii "e"⟩ := by
    rw [oneObject, Table.lookup_set] at stored
    split at stored
    · exact (Option.some.inj stored).symm
    · contradiction
  decide

end ObjectRuns

/-- Calls that upload a part. -/
structure PartCall where
  uploadId : Bytes
  partNumber : Int
  sha256Hash : Bytes
  size : Int
  etag : Bytes

namespace PartCall

/-- The program of a call. -/
def code (call : PartCall) : MetaM indexed (Result (Option Bytes)) :=
  MetaStore.putPartWithRefCount call.uploadId call.partNumber call.sha256Hash call.size call.etag

/-- One step of a pool of calls. -/
abbrev steps (indexed : Bytes → Bytes) :
    Step (SessionPool indexed) (Action PartCall (Choice (engine indexed))) :=
  next code Store.answer

/-- No call stores an empty blob key, and an upsert without the lock on its row meets no
row. -/
def Allowed (indexed : Bytes → Bytes)
    (pool : SessionPool indexed) :
    Action PartCall (Choice (engine indexed)) → Prop
  | .start _ call => call.sha256Hash ≠ []
  | .advance session .proceed => UpsertAllowed indexed pool session
  | .advance _ _ => True

/-- `Allowed` as a check. -/
def allowed (indexed : Bytes → Bytes) (pool : SessionPool indexed) :
    Action PartCall (Choice (engine indexed)) → Bool
  | .start _ call => call.sha256Hash != []
  | .advance session .proceed => upsertAllowed indexed pool session
  | _ => true

theorem Allowed.of_check (pool : SessionPool indexed)
    (action : Action PartCall (Choice (engine indexed)))
    (checked : allowed indexed pool action = true) : Allowed indexed pool action := by
  cases action with
  | start process call => simp_all [allowed, Allowed]
  | advance session choice =>
      cases choice with
      | proceed => exact UpsertAllowed.of_check checked
      | _ => trivial

end PartCall

/-- Concurrent calls of `PutPartWithRefCount` keep the counters exact as long as no upsert
replaces a row its session has not locked. -/
theorem concurrent_parts_keep_refCounts (indexed : Bytes → Bytes) (data : Tables)
    (exactAtStart : ∀ casKey, data.refCount casKey = data.partRefs casKey)
    (nonemptyAtStart : ∀ entry row, data.multipartParts.lookup entry = some row →
      row.casKey ≠ [])
    (target : SessionPool indexed)
    (reachable : ReachableUnder (PartCall.steps indexed) (PartCall.Allowed indexed)
      ⟨Store.idle data, ∅⟩ target) (casKey : Bytes) :
    target.shared.committed.refCount casKey = target.shared.committed.partRefs casKey := by
  have initial : Exact .partsOnly data :=
    ⟨fun key => by simpa [references, Scope.partsOnly] using exactAtStart key,
      by simp [Scope.partsOnly], fun _ => nonemptyAtStart⟩
  have permits : Permits (UpsertsMeetNoRow indexed) (PartCall.Allowed indexed) :=
    fun pool session stmt rest allowed stored => allowed stmt rest stored
  have safe : ∀ pool process call, PartCall.Allowed indexed pool (.start process call) →
      ∀ data, Exact .partsOnly data →
        KeepsExact indexed .partsOnly (PartCall.code call) data (fun _ => False) none := by
    intro pool process call allowed data exact
    refine safe_putPartLoop rfl ?_ kMaxRetries data exact
    exact allowed
  have final : Exact .partsOnly target.shared.committed :=
    good_of_reachable permits safe initial reachable
  simpa [references, Scope.partsOnly] using final.counted casKey

/-! ### Runs on one part -/

section PartRuns

/-- One bucket with one upload that has no parts yet. -/
def oneUpload : Tables :=
  { Tables.empty with
    buckets := Table.set 1 (ascii "default") ∅
    multipartUploads := Table.set (ascii "u") ⟨1, ascii "k", ascii "text/plain", 0⟩ ∅ }

/-- A call that stores part 1 of the upload with the blob of a digit. -/
def partCall (digit : Char) : PartCall :=
  ⟨ascii "u", 1, blobKey digit, 5, ascii "e"⟩

/-- Both sessions look for the part and find none; session 1 stores it first. -/
def samePartTwice : List (Action PartCall (Choice (engine declaredIndex))) :=
  [.start 0 (partCall 'a')] ++ statements 0 3 ++ [.start 1 (partCall 'b')] ++
  statements 1 5 ++ statements 0 2

/-- Session 1 replaces the part after session 0 has stored it. -/
def partThenReplacement : List (Action PartCall (Choice (engine declaredIndex))) :=
  [.start 0 (partCall 'a')] ++ statements 0 5 ++ [.start 1 (partCall 'b')] ++ statements 1 7

theorem oneUpload_refCount (casKey : Bytes) :
    oneUpload.refCount casKey = oneUpload.partRefs casKey :=
  rfl

/-- The counters do not stay exact in every interleaving: after `samePartTwice` no call is
in progress, and the blob `bb...b` has a reference no part accounts for. -/
theorem concurrent_parts_can_lose_a_reference :
    (∀ casKey, oneUpload.refCount casKey = oneUpload.partRefs casKey) ∧
    ∃ target, Reachable (PartCall.steps declaredIndex) ⟨Store.idle oneUpload, ∅⟩ target ∧
      target.running.rows = [] ∧
      target.shared.committed.refCount (blobKey 'b') ≠
        target.shared.committed.partRefs (blobKey 'b') := by
  refine ⟨oneUpload_refCount, ?_⟩
  have performed : (run (PartCall.steps declaredIndex) ⟨Store.idle oneUpload, ∅⟩
      samePartTwice).any (fun pool => pool.running.rows.isEmpty &&
        pool.shared.committed.refCount (blobKey 'b') !=
          pool.shared.committed.partRefs (blobKey 'b')) = true := by
    decide +kernel
  obtain ⟨target, reachable, final⟩ := exists_reachable_of_run _ performed
  simp only [Bool.and_eq_true, List.isEmpty_iff, bne_iff_ne] at final
  exact ⟨target, reachable, final.1, final.2⟩

/-- The theorem at the run `partThenReplacement`, which ends with the blob `aa...a` free. -/
theorem concurrent_parts_keep_refCounts_partThenReplacement :
    ∃ target, ReachableUnder (PartCall.steps declaredIndex)
        (PartCall.Allowed declaredIndex) ⟨Store.idle oneUpload, ∅⟩ target ∧
      target.shared.committed.refCount (blobKey 'b') = 1 ∧
      ∀ casKey, target.shared.committed.refCount casKey =
        target.shared.committed.partRefs casKey := by
  have performed : (run (fun pool action =>
      if PartCall.allowed declaredIndex pool action then
        PartCall.steps declaredIndex pool action else none)
      ⟨Store.idle oneUpload, ∅⟩ partThenReplacement).any (fun pool =>
        pool.running.rows.isEmpty && pool.shared.committed.refCount (blobKey 'b') == 1) =
          true := by
    decide +kernel
  obtain ⟨target, reachable, final⟩ :=
    exists_reachableUnder_of_run _ PartCall.Allowed.of_check _ performed
  simp only [Bool.and_eq_true, beq_iff_eq] at final
  refine ⟨target, reachable, final.2, ?_⟩
  refine concurrent_parts_keep_refCounts declaredIndex oneUpload oneUpload_refCount ?_
    target reachable
  intro entry row stored
  contradiction

end PartRuns

end MiniS3.Db
