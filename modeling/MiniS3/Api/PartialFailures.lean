import MiniS3.Api.BucketDeletion
import MiniS3.Api.RefCounts

/-!
# Completing and aborting when calls fail

`CompleteUpload` and `AbortUpload` give the references of the parts back in calls of
their own, one for each part, and remove the upload in yet another.  Here one such
request runs alone while any of its calls may fail, as long as a failed call leaves the
tables as they were.

A run gives back the blobs whose decrement succeeded, and it takes the rows of all parts
away if the upload is deleted.  The counters are exact afterwards just when the two
agree: either nothing fails, or the deletion fails and every decrement with it.
-/

namespace MiniS3

open Lib Db

/-! ## Tables whose counters count -/

namespace Db.Tables

/-- Every counter equals the number of rows that refer to the blob. -/
def Counted (tables : Tables) : Prop :=
  ∀ casKey, tables.refCount casKey = tables.objectRefs casKey + tables.partRefs casKey

/-- The reference that `PutObjectWithRefCount` forgets when it completes an upload: the one
of a row with another key, or without a blob key, at the index entry it writes.  The key is that
of the upload as it is read. -/
def displaced (indexed : Bytes → Bytes) (uploadId : Bytes) (tables : Tables) : List Bytes :=
  match tables.multipartUploads.lookup uploadId with
  | none => []
  | some upload =>
      match tables.objects.lookup (upload.bucketId, indexed upload.objectKey.cString) with
      | none => []
      | some row =>
          if row.objectKey = upload.objectKey.cString ∧ row.casKey ≠ [] then [] else [row.casKey]

/-- Every part of the upload is among those that `ListParts` shows to the handlers. -/
def ListsAll (uploadId : Bytes) (tables : Tables) : Prop :=
  (tables.partsOf uploadId).length ≤ 10000 ∧ ∀ part ∈ tables.partsOf uploadId, 0 < part.1

/-- The blobs of the parts that `ListParts` shows to the handlers. -/
def listedBlobs (uploadId : Bytes) (tables : Tables) : List Bytes :=
  ((tables.listedParts uploadId 0 (10000 + 1)).take (10000 : Int).toNat).map
    fun part => part.2.casKey

theorem listedBlobs_eq (uploadId : Bytes) (tables : Tables) :
    tables.listedBlobs uploadId = ((((tables.partsOf uploadId).filter
      fun part => (0 : Int) < part.1).insertionSort fun one two => one.1 ≤ two.1).take
        10000).map fun part => part.2.casKey := by
  unfold listedBlobs listedParts
  rw [List.take_take]
  rfl

/-- No part is listed twice. -/
theorem subperm_listedBlobs (uploadId : Bytes) (tables : Tables) :
    (tables.listedBlobs uploadId).Subperm (tables.heldBy uploadId) := by
  rw [listedBlobs_eq, heldBy]
  have sorted := List.perm_insertionSort (fun one two : Int × PartRow => one.1 ≤ two.1)
    ((tables.partsOf uploadId).filter fun part => (0 : Int) < part.1)
  have shown := ((List.take_sublist 10000 (((tables.partsOf uploadId).filter
    fun part => (0 : Int) < part.1).insertionSort fun one two => one.1 ≤ two.1)).map
      fun part => part.2.casKey).subperm
  have all := (sorted.map fun part => part.2.casKey).subperm
  exact shown.trans (all.trans (List.filter_sublist.map _).subperm)

/-- The list is complete when it is as long as the upload has parts. -/
theorem perm_listedBlobs_iff (uploadId : Bytes) (tables : Tables) :
    (tables.listedBlobs uploadId).Perm (tables.heldBy uploadId) ↔
      tables.ListsAll uploadId := by
  have length : (tables.listedBlobs uploadId).length =
      min 10000 ((tables.partsOf uploadId).filter fun part => (0 : Int) < part.1).length := by
    rw [listedBlobs_eq, List.length_map, List.length_take, List.length_insertionSort]
  have held : (tables.heldBy uploadId).length = (tables.partsOf uploadId).length :=
    List.length_map _
  have bound := List.length_filter_le (fun part : Int × PartRow => decide ((0 : Int) < part.1))
    (tables.partsOf uploadId)
  constructor
  · intro perm
    have same := perm.length_eq
    refine ⟨by omega, ?_⟩
    have all := List.length_filter_eq_length_iff.mp (show
      ((tables.partsOf uploadId).filter fun part => decide ((0 : Int) < part.1)).length = _ by
        omega)
    simpa using all
  · rintro ⟨short, positive⟩
    have all : ((tables.partsOf uploadId).filter fun part => decide ((0 : Int) < part.1)).length =
        (tables.partsOf uploadId).length := by
      rw [List.length_filter_eq_length_iff]
      simpa using positive
    exact (tables.subperm_listedBlobs uploadId).perm_of_length_le (by omega)

/-- The reference that `PutObjectWithRefCount` gives back when it writes an object. -/
def replacedCas (indexed : Bytes → Bytes) (bucketId : Int) (key : Bytes) (tables : Tables) :
    Option Bytes :=
  ((tables.findObject indexed bucketId key).map ObjectRow.casKey).filter (· ≠ [])

theorem getD_replacedCas (indexed : Bytes → Bytes) (bucketId : Int) (key : Bytes)
    (tables : Tables) :
    (tables.replacedCas indexed bucketId key).getD [] =
      tables.objectCas indexed bucketId key := by
  unfold replacedCas objectCas
  cases (tables.findObject indexed bucketId key).map ObjectRow.casKey with
  | none => rfl
  | some casKey => by_cases empty : casKey = [] <;> simp [Option.filter_some, empty]

theorem refCount_pos_of_replacedCas {indexed : Bytes → Bytes} {bucketId : Int} {key : Bytes}
    {tables : Tables} (counted : tables.Counted) {casKey : Bytes}
    (replaced : tables.replacedCas indexed bucketId key = some casKey) :
    casKey ≠ [] ∧ 0 < tables.refCount casKey := by
  obtain ⟨found, nonempty⟩ := Option.filter_eq_some_iff.mp replaced
  obtain ⟨row, named, rfl⟩ := Option.map_eq_some_iff.mp found
  have stored := (Option.filter_eq_some_iff.mp named).1
  have referred : 0 < tables.objectRefs row.casKey := Table.count_pos_of_lookup stored (by simp)
  have total := counted row.casKey
  exact ⟨by simpa using nonempty, by omega⟩

/-- The row at the index entry of the completed object holds the reference that is given
back, or the displaced one. -/
theorem refersTo_replaced (indexed : Bytes → Bytes) {uploadId : Bytes} {tables : Tables}
    {upload : UploadRow} (stored : tables.multipartUploads.lookup uploadId = some upload)
    (casKey : Bytes) :
    refersTo ((tables.objects.lookup (upload.bucketId, indexed upload.objectKey.cString)).map
        ObjectRow.casKey) casKey =
      refersTo (tables.replacedCas indexed upload.bucketId upload.objectKey.cString) casKey +
        (tables.displaced indexed uploadId).count casKey := by
  simp only [displaced, stored, replacedCas, findObject]
  cases tables.objects.lookup (upload.bucketId, indexed upload.objectKey.cString) with
  | none => rfl
  | some row =>
      by_cases sameName : row.objectKey = upload.objectKey.cString <;>
        by_cases empty : row.casKey = [] <;>
          simp [Option.filter_some, sameName, empty, refersTo_some, List.count_singleton]

/-- Storing the completed object counts its blob, and leaves the displaced reference
counted. -/
theorem counted_putObject {indexed : Bytes → Bytes} {uploadId : Bytes} {tables : Tables}
    (counted : tables.Counted) {upload : UploadRow}
    (stored : tables.multipartUploads.lookup uploadId = some upload) {row : ObjectRow}
    (sameKey : row.objectKey = upload.objectKey.cString) (casKey : Bytes) :
    (tables.putObject indexed upload.bucketId row).refCount casKey =
      (tables.putObject indexed upload.bucketId row).objectRefs casKey +
        (tables.putObject indexed upload.bucketId row).partRefs casKey +
          (tables.displaced indexed uploadId).count casKey := by
  have total := counted casKey
  have moved := moved_move row.casKey row.size
    (fun _ (replaced : tables.replacedCas indexed upload.bucketId upload.objectKey.cString = _) =>
      refCount_pos_of_replacedCas counted replaced) casKey
  have rows := objectRefs_apply_object tables (upload.bucketId, indexed upload.objectKey.cString)
    (some (tables.upserted (upload.bucketId, indexed upload.objectKey.cString) row)) casKey
  have held := refersTo_replaced indexed stored casKey
  have objects : (tables.putObject indexed upload.bucketId row).objectRefs casKey =
      (tables.apply (.object (upload.bucketId, indexed upload.objectKey.cString)
        (some (tables.upserted (upload.bucketId, indexed upload.objectKey.cString)
          row)))).objectRefs casKey := by
    simp [objectRefs, putObject, apply, sameKey]
  have parts : (tables.putObject indexed upload.bucketId row).partRefs casKey =
      tables.partRefs casKey := by
    simp [partRefs, putObject, apply]
  have written : (some (tables.upserted (upload.bucketId, indexed upload.objectKey.cString)
      row)).map ObjectRow.casKey = some row.casKey := rfl
  rw [getD_replacedCas] at moved
  rw [written] at rows
  rw [objects, parts]
  simp only [putObject, sameKey, refCount_apply_object]
  omega

/-- Removing an upload removes the references of its parts. -/
theorem partRefs_removeUpload (uploadId : Bytes) (tables : Tables) (casKey : Bytes) :
    (tables.removeUpload uploadId).partRefs casKey + (tables.heldBy uploadId).count casKey =
      tables.partRefs casKey := by
  have gone : (tables.removeUpload uploadId).heldBy uploadId = [] := by
    rw [heldBy, List.map_eq_nil_iff, List.eq_nil_iff_forall_not_mem]
    intro part member
    rw [mem_partsOf, lookup_removeUpload] at member
    simp at member
  have outside : (tables.removeUpload uploadId).outsideRefs uploadId casKey =
      tables.outsideRefs uploadId casKey := by
    rw [removeUpload_eq]
    exact count_foldl_erase _ _ _ _
  rw [partRefs_eq uploadId, partRefs_eq uploadId tables, gone, outside]
  simp

/-- Two contents agree on uploads, parts and objects. -/
def SameRows (first second : Tables) : Prop :=
  second.multipartUploads = first.multipartUploads ∧
    second.multipartParts = first.multipartParts ∧ second.objects = first.objects

theorem SameRows.refl (tables : Tables) : tables.SameRows tables :=
  ⟨rfl, rfl, rfl⟩

theorem SameRows.trans {first second third : Tables} (one : first.SameRows second)
    (two : second.SameRows third) : first.SameRows third :=
  ⟨two.1.trans one.1, two.2.1.trans one.2.1, two.2.2.trans one.2.2⟩

end Db.Tables

namespace Api.MultipartHandlers

open Net

/-! ## Calls that fail -/

/-- The calls of a run, with their answers. -/
abbrev Calls :=
  List (Program.Event ioSig)

/-- The requests that release the parts of an upload. -/
inductive Ending
  | complete
  | abort

/-- The handler of each request. -/
def Ending.handler (setup : Setup) (request : HttpRequest) : Ending → Handler
  | .complete => completeUpload setup request
  | .abort => abortUpload setup request

/-- A call of the metadata store that changes tables or lists parts, and failed. -/
def failed : Program.Event ioSig → Bool
  | ⟨.metaStore (.listParts _ _ _), .error _⟩ => true
  | ⟨.metaStore (.putObjectWithRefCount _ _ _ _ _ _), .error _⟩ => true
  | ⟨.metaStore (.decrementRefCountAndCheckZero _), .error _⟩ => true
  | ⟨.metaStore (.deleteMultipartUpload _), .error _⟩ => true
  | _ => false

/-- `PutObjectWithRefCount` was called and succeeded. -/
def stores (calls : Calls) : Bool :=
  calls.any fun
    | ⟨.metaStore (.putObjectWithRefCount _ _ _ _ _ _), .ok _⟩ => true
    | _ => false

/-- `DeleteMultipartUpload` was called and succeeded. -/
def deletes (calls : Calls) : Bool :=
  calls.any fun
    | ⟨.metaStore (.deleteMultipartUpload _), .ok _⟩ => true
    | _ => false

/-- The blobs for which `DecrementRefCountAndCheckZero` was called and succeeded. -/
def givenBack (calls : Calls) : List Bytes :=
  calls.filterMap fun
    | ⟨.metaStore (.decrementRefCountAndCheckZero casKey), .ok _⟩ => some casKey
    | _ => none

variable (setup : Setup) (process : Nat)

/-- How a call is answered when a call that fails leaves the tables as they were.  The calls
are recorded. -/
def answerCleanly : Program.Interface ioSig Choice (World × Calls) :=
  fun op choice state =>
    (answer setup process op choice state.1).bind fun answered =>
      if failed ⟨op, answered.1⟩ ∧ answered.2.tables ≠ state.1.tables then none
      else some (answered.1, answered.2, state.2 ++ [⟨op, answered.1⟩])

variable {setup process}

theorem answerCleanly_eq_some {op : IoOp} {choice : Choice} {state after : World × Calls}
    {answered : op.Ans}
    (step : answerCleanly setup process op choice state = some (answered, after)) :
    answer setup process op choice state.1 = some (answered, after.1) ∧
      after.2 = state.2 ++ [⟨op, answered⟩] ∧
      (failed ⟨op, answered⟩ = true → after.1.tables = state.1.tables) := by
  obtain ⟨⟨result, world⟩, performed, checked⟩ := Option.bind_eq_some_iff.mp step
  split at checked
  · contradiction
  · rename_i clean
    cases checked
    exact ⟨performed, rfl, fun fails => by_contra fun moved => clean ⟨fails, moved⟩⟩

/-- What a call of the metadata store does, whether it fails or not. -/
theorem effect_of_answerCleanly {call : MetaCall} {choice : Choice}
    {state after : World × Calls} {answered : call.Ans}
    (step : answerCleanly setup process (.metaStore call) choice state = some (answered, after)) :
    call.Effect setup.indexed True state.1.tables state.1.caches answered after.1.tables
      after.1.caches := by
  obtain ⟨faults, clock, -, -, effect⟩ := answer_metaStore (answerCleanly_eq_some step).1
  exact effect True (.inl trivial)

/-! ## Calls that decide nothing -/

/-- The tables are as they were, and so is what the calls say about them. -/
structure Unmoved (before after : World × Calls) : Prop where
  tables : after.1.tables = before.1.tables
  givenBack : givenBack after.2 = givenBack before.2
  failures : after.2.any failed = before.2.any failed
  stores : stores after.2 = stores before.2
  deletes : deletes after.2 = deletes before.2

theorem Unmoved.refl (state : World × Calls) : Unmoved state state :=
  ⟨rfl, rfl, rfl, rfl, rfl⟩

theorem Unmoved.trans {first second third : World × Calls} (one : Unmoved first second)
    (two : Unmoved second third) : Unmoved first third :=
  ⟨two.tables.trans one.tables, two.givenBack.trans one.givenBack,
    two.failures.trans one.failures, two.stores.trans one.stores, two.deletes.trans one.deletes⟩

/-- Calls that neither change the tables nor decide what is released. -/
def Silent : IoOp → Prop
  | .metaStore (.getCasBlob _) | .metaStore (.getMultipartUpload _) => True
  | .metaStore _ => False
  | _ => True

theorem unmoved_of_silent {op : IoOp} (silent : Silent op) {choice : Choice}
    {state after : World × Calls} {answered : op.Ans}
    (step : answerCleanly setup process op choice state = some (answered, after)) :
    Unmoved state after := by
  obtain ⟨performed, recorded, -⟩ := answerCleanly_eq_some step
  have tables : after.1.tables = state.1.tables := by
    by_cases store : ∃ call, op = .metaStore call
    · obtain ⟨call, rfl⟩ := store
      have effect := effect_of_answerCleanly step
      cases call with
      | getCasBlob | getMultipartUpload => exact effect.1
      | _ => exact silent.elim
    · exact tables_answer (fun call same => store ⟨call, same⟩) performed
  refine ⟨tables, ?_, ?_, ?_, ?_⟩
  all_goals
    rw [recorded]
    cases op with
    | metaStore call =>
        cases call with
        | getCasBlob | getMultipartUpload => simp [givenBack, failed, stores, deletes]
        | _ => exact silent.elim
    | _ => simp [givenBack, failed, stores, deletes]

/-- A program of such calls. -/
theorem ensures_silent {α : Type} {program : ServerM α} {result : α → Prop}
    {start state : World × Calls} (only : Program.Only Silent result program)
    (unmoved : Unmoved start state) :
    Program.Ensures (answerCleanly setup process) (fun _ => True)
      (fun value after => result value ∧ Unmoved start after) program state :=
  only.ensures (fun _ _ _ _ _ silent _ moved step =>
    moved.trans (unmoved_of_silent silent step)) unmoved

theorem silent_of_storageOp {op : IoOp} (storage : DataStore.StorageOp setup op) : Silent op := by
  cases storage <;> trivial

theorem silent_cleanupUnreferencedCas (casKey : Bytes) :
    Program.Only Silent (fun _ => True) (cleanupUnreferencedCas setup casKey) := by
  refine ⟨trivial, fun answer => ?_⟩
  cases answer with
  | error status =>
      simp only [Program.bind]
      split
      · exact ⟨trivial, fun _ => trivial⟩
      · trivial
  | ok row =>
      simp only [Program.bind]
      split
      · exact ⟨trivial, fun _ => trivial⟩
      · trivial

theorem silent_reportFree (candidate : Option Bytes) :
    Program.Only Silent (fun _ => True) (reportFree setup candidate) := by
  unfold reportFree
  split
  · split
    · exact ⟨trivial, fun _ => trivial⟩
    · trivial
  · trivial

/-! ## Releasing parts -/

/-- Of the blobs `casKeys`, the references of `back` were given back, and the decrements of
the others failed. -/
structure Released (casKeys back : List Bytes) (before after : World × Calls) : Prop where
  sublist : back.Sublist casKeys
  counters : ∀ casKey, after.1.tables.refCount casKey + back.count casKey =
    before.1.tables.refCount casKey
  rows : before.1.tables.SameRows after.1.tables
  givenBack : givenBack after.2 = givenBack before.2 ++ back
  failures : after.2.any failed = false ↔ before.2.any failed = false ∧ back = casKeys
  stores : stores after.2 = stores before.2
  deletes : deletes after.2 = deletes before.2

namespace Released

variable {casKeys back : List Bytes} {before middle after : World × Calls}

theorem nil (state : World × Calls) : Released [] [] state state where
  sublist := .refl _
  counters _ := rfl
  rows := .refl _
  givenBack := by simp
  failures := by simp
  stores := rfl
  deletes := rfl

/-- Calls that decide nothing come first. -/
theorem of_unmoved (rest : Released casKeys back middle after) (unmoved : Unmoved before middle) :
    Released casKeys back before after where
  sublist := rest.sublist
  counters := by
    rw [← unmoved.tables]
    exact rest.counters
  rows := by
    rw [← unmoved.tables]
    exact rest.rows
  givenBack := by rw [rest.givenBack, unmoved.givenBack]
  failures := by rw [rest.failures, unmoved.failures]
  stores := rest.stores.trans unmoved.stores
  deletes := rest.deletes.trans unmoved.deletes

/-- A decrement that failed comes first. -/
theorem cons_failed (rest : Released casKeys back middle after) (casKey : Bytes)
    {status : Status} (tables : middle.1.tables = before.1.tables)
    (recorded : middle.2 = before.2 ++
      [⟨.metaStore (.decrementRefCountAndCheckZero casKey), .error status⟩]) :
    Released (casKey :: casKeys) back before after where
  sublist := rest.sublist.cons casKey
  counters := by
    rw [← tables]
    exact rest.counters
  rows := by
    rw [← tables]
    exact rest.rows
  givenBack := by
    rw [rest.givenBack, recorded]
    simp [MultipartHandlers.givenBack]
  failures := by
    have shorter : back ≠ casKey :: casKeys := by
      rintro rfl
      have bound := rest.sublist.length_le
      simp at bound
    rw [rest.failures, recorded]
    simp [failed, shorter]
  stores := by
    rw [rest.stores, recorded]
    simp [MultipartHandlers.stores]
  deletes := by
    rw [rest.deletes, recorded]
    simp [MultipartHandlers.deletes]

/-- A decrement that succeeded comes first. -/
theorem cons_gave (rest : Released casKeys back middle after) {casKey : Bytes} {zero : Bool}
    (positive : 0 < before.1.tables.refCount casKey)
    (tables : middle.1.tables = before.1.tables.lose casKey)
    (recorded : middle.2 = before.2 ++
      [⟨.metaStore (.decrementRefCountAndCheckZero casKey), .ok zero⟩]) :
    Released (casKey :: casKeys) (casKey :: back) before after where
  sublist := rest.sublist.cons_cons casKey
  counters other := by
    have lost := moved_lose positive other
    have left := rest.counters other
    rw [tables] at left
    rw [refersTo_some, refersTo_none] at lost
    rw [List.count_cons]
    by_cases same : casKey = other
    · simp only [same, if_true, beq_self_eq_true] at lost left ⊢
      omega
    · simp only [if_neg same, beq_iff_eq] at lost ⊢
      omega
  rows := by
    refine Tables.SameRows.trans ?_ rest.rows
    rw [tables]
    simp [Tables.SameRows]
  givenBack := by
    rw [rest.givenBack, recorded]
    simp [MultipartHandlers.givenBack]
  failures := by
    rw [rest.failures, recorded]
    simp [failed]
  stores := by
    rw [rest.stores, recorded]
    simp [MultipartHandlers.stores]
  deletes := by
    rw [rest.deletes, recorded]
    simp [MultipartHandlers.deletes]

end Released

/-- Releasing blobs that are counted often enough. -/
theorem released_releaseParts (casKeys : List Bytes) {state : World × Calls}
    (enough : ∀ casKey, casKeys.count casKey ≤ state.1.tables.refCount casKey) :
    Program.Ensures (answerCleanly setup process) (fun _ => True)
      (fun _ after => ∃ back, Released casKeys back state after)
      (releaseParts setup casKeys) state := by
  induction casKeys generalizing state with
  | nil => exact ⟨[], .nil state⟩
  | cons casKey casKeys inductionHypothesis =>
      intro choice answered after _ step
      obtain ⟨-, recorded, clean⟩ := answerCleanly_eq_some step
      obtain ⟨-, effect⟩ := effect_of_answerCleanly step
      have positive : 0 < state.1.tables.refCount casKey := by
        have counted := enough casKey
        rw [List.count_cons_self] at counted
        omega
      cases answered with
      | error status =>
          have same : after.1.tables = state.1.tables := clean rfl
          refine (inductionHypothesis ?_).mono fun _ last released => ?_
          · intro other
            have counted := enough other
            rw [same]
            exact le_trans (List.count_le_count_cons) counted
          · obtain ⟨back, released⟩ := released
            exact ⟨back, released.cons_failed casKey same recorded⟩
      | ok zero =>
          have lost : after.1.tables = state.1.tables.lose casKey := by
            rcases effect with ⟨-, -, message, ⟨⟩⟩ | ⟨lost, -⟩
            exact lost
          have left : ∀ other, casKeys.count other ≤ after.1.tables.refCount other := by
            intro other
            have counted := enough other
            have moved := moved_lose positive other
            rw [← lost, refersTo_some, refersTo_none] at moved
            rw [List.count_cons] at counted
            by_cases same : casKey = other
            · simp only [same, if_true, beq_self_eq_true] at moved counted
              omega
            · simp only [if_neg same, beq_iff_eq] at moved counted
              omega
          cases zero with
          | false =>
              refine (inductionHypothesis left).mono fun _ last released => ?_
              obtain ⟨back, released⟩ := released
              exact ⟨casKey :: back, released.cons_gave positive lost recorded⟩
          | true =>
              change Program.Ensures _ _ _ (reportFree setup (some casKey) >>= _) after
              rw [Program.ensures_bind]
              refine (ensures_silent (silent_reportFree (some casKey)) (.refl after)).mono ?_
              rintro _ reported ⟨-, unmoved⟩
              refine (inductionHypothesis ?_).mono fun _ last released => ?_
              · rw [unmoved.tables]
                exact left
              · obtain ⟨back, released⟩ := released
                exact ⟨casKey :: back,
                  (released.of_unmoved unmoved).cons_gave positive lost recorded⟩

/-! ## What a run leaves -/

/-- The reference that the calls of a run have forgotten. -/
def forgotten (indexed : Bytes → Bytes) (uploadId : Bytes) (tables : Tables) (calls : Calls) :
    List Bytes :=
  if stores calls then tables.displaced indexed uploadId else []

/-- Either the upload is deleted after every part was listed and given back, or it is kept and
nothing is given back.  A reference that the run has forgotten stands for one more that is
not given back. -/
def AllOrNothing (indexed : Bytes → Bytes) (uploadId : Bytes) (tables : Tables)
    (calls : Calls) : Prop :=
  (deletes calls = true →
    (calls.any failed = false ∨ tables.partsOf uploadId = []) ∧ tables.ListsAll uploadId ∧
      forgotten indexed uploadId tables calls = []) ∧
  (deletes calls = false → givenBack calls = forgotten indexed uploadId tables calls)

/-- The counters are exact, and an answer that reports a failure leaves the upload, its parts
and the object as they were. -/
def Safe (before after : Tables) (response : HttpResponse) : Prop :=
  after.Counted ∧ (response.isSuccess = false → before.SameRows after)

theorem length_forgotten_le (indexed : Bytes → Bytes) (uploadId : Bytes) (tables : Tables)
    (calls : Calls) : (forgotten indexed uploadId tables calls).length ≤ 1 := by
  unfold forgotten Tables.displaced
  repeat' split
  all_goals simp

namespace Released

variable {casKeys back excess : List Bytes} {before after : World × Calls}

/-- Where the upload is kept, what was given back must be what was counted too much. -/
theorem counted_iff (released : Released casKeys back before after) (single : excess.length ≤ 1)
    (counts : ∀ casKey, before.1.tables.refCount casKey = before.1.tables.objectRefs casKey +
      before.1.tables.partRefs casKey + excess.count casKey) :
    after.1.tables.Counted ↔ back = excess := by
  obtain ⟨-, parts, objects⟩ := released.rows
  have balance : after.1.tables.Counted ↔ ∀ casKey, back.count casKey = excess.count casKey := by
    refine forall_congr' fun casKey => ?_
    have counters := released.counters casKey
    have total := counts casKey
    simp only [Tables.objectRefs, Tables.partRefs, parts, objects] at total ⊢
    omega
  rw [balance, ← List.perm_iff_count]
  rcases excess with _ | ⟨casKey, _ | ⟨second, rest⟩⟩
  · exact List.perm_nil
  · exact List.perm_singleton
  · simp at single

/-- Where the upload is deleted, the references of all its parts must have been given
back. -/
theorem counted_removeUpload_iff (released : Released casKeys back before after)
    {uploadId : Bytes} (inside : casKeys.Subperm (before.1.tables.heldBy uploadId))
    (counts : ∀ casKey, before.1.tables.refCount casKey = before.1.tables.objectRefs casKey +
      before.1.tables.partRefs casKey + excess.count casKey) :
    (after.1.tables.removeUpload uploadId).Counted ↔
      back = casKeys ∧ casKeys.Perm (before.1.tables.heldBy uploadId) ∧ excess = [] := by
  obtain ⟨-, parts, objects⟩ := released.rows
  have held : after.1.tables.heldBy uploadId = before.1.tables.heldBy uploadId := by
    simp only [Tables.heldBy, Tables.partsOf, parts]
  have balance : (after.1.tables.removeUpload uploadId).Counted ↔ ∀ casKey,
      back.count casKey = (before.1.tables.heldBy uploadId ++ excess).count casKey := by
    refine forall_congr' fun casKey => ?_
    have counters := released.counters casKey
    have total := counts casKey
    have removed := after.1.tables.partRefs_removeUpload uploadId casKey
    have sameCounters : (after.1.tables.removeUpload uploadId).refCount casKey =
        after.1.tables.refCount casKey := by
      rw [removeUpload_eq]
      rfl
    have sameObjects : (after.1.tables.removeUpload uploadId).objectRefs casKey =
        before.1.tables.objectRefs casKey := by
      rw [removeUpload_eq]
      simp only [Tables.objectRefs, objects]
    have sameParts : after.1.tables.partRefs casKey = before.1.tables.partRefs casKey := by
      simp only [Tables.partRefs, parts]
    rw [sameCounters, sameObjects, List.count_append]
    rw [held, sameParts] at removed
    omega
  rw [balance, ← List.perm_iff_count]
  constructor
  · intro perm
    -- What was given back is no longer than the list, and the list no longer than the parts.
    have total := perm.length_eq
    rw [List.length_append] at total
    have shorter := released.sublist.length_le
    have bounded := inside.length_le
    have none : excess = [] := List.eq_nil_of_length_eq_zero (by omega)
    exact ⟨released.sublist.eq_of_length (by omega), inside.perm_of_length_le (by omega), none⟩
  · rintro ⟨rfl, perm, rfl⟩
    rw [List.append_nil]
    exact perm

end Released

/-- What is known when the release of an upload starts. -/
structure Ready (indexed : Bytes → Bytes) (uploadId : Bytes) (start : Tables)
    (casKeys : List Bytes) (state : World × Calls) : Prop where
  counts : ∀ casKey, state.1.tables.refCount casKey = state.1.tables.objectRefs casKey +
    state.1.tables.partRefs casKey + (forgotten indexed uploadId start state.2).count casKey
  uploads : state.1.tables.multipartUploads = start.multipartUploads
  parts : state.1.tables.multipartParts = start.multipartParts
  givenBack : givenBack state.2 = []
  deletes : deletes state.2 = false
  listing : (state.2.any failed = false ∧ casKeys = start.listedBlobs uploadId) ∨
    (state.2.any failed = true ∧ casKeys = [])

namespace Ready

variable {indexed : Bytes → Bytes} {uploadId : Bytes} {start : Tables} {casKeys back : List Bytes}
  {state released after : World × Calls}

theorem held (ready : Ready indexed uploadId start casKeys state) :
    state.1.tables.heldBy uploadId = start.heldBy uploadId := by
  simp only [Tables.heldBy, Tables.partsOf, ready.parts]

theorem inside (ready : Ready indexed uploadId start casKeys state) :
    casKeys.Subperm (state.1.tables.heldBy uploadId) := by
  rw [ready.held]
  rcases ready.listing with ⟨-, rfl⟩ | ⟨-, rfl⟩
  · exact start.subperm_listedBlobs uploadId
  · exact List.nil_subperm

/-- There are references enough to give back. -/
theorem enough (ready : Ready indexed uploadId start casKeys state) (casKey : Bytes) :
    casKeys.count casKey ≤ state.1.tables.refCount casKey := by
  have listed := ready.inside.count_le casKey
  have total := ready.counts casKey
  rw [state.1.tables.partRefs_eq uploadId] at total
  omega

/-- Where the upload is kept. -/
theorem counted_iff_of_kept (ready : Ready indexed uploadId start casKeys state)
    (release : Released casKeys back state released)
    (tables : after.1.tables = released.1.tables) {status : Status}
    (recorded : after.2 = released.2 ++
      [⟨.metaStore (.deleteMultipartUpload uploadId), .error status⟩]) :
    after.1.tables.Counted ↔ AllOrNothing indexed uploadId start after.2 := by
  have kept : MultipartHandlers.deletes after.2 = false := by
    have before := release.deletes.trans ready.deletes
    rw [recorded]
    simpa [MultipartHandlers.deletes] using before
  have stored : stores after.2 = stores state.2 := by
    rw [recorded, ← release.stores]
    simp [stores]
  have gave : MultipartHandlers.givenBack after.2 = back := by
    have before := release.givenBack
    rw [ready.givenBack, List.nil_append] at before
    rw [recorded, ← before]
    simp [MultipartHandlers.givenBack]
  rw [tables, release.counted_iff (length_forgotten_le _ _ _ _) ready.counts]
  simp only [AllOrNothing, kept, gave, forgotten, stored, Bool.false_eq_true, false_imp_iff,
    true_and, true_imp_iff]

/-- Where the upload is deleted. -/
theorem counted_iff_of_deleted (ready : Ready indexed uploadId start casKeys state)
    (release : Released casKeys back state released)
    (tables : after.1.tables = released.1.tables.removeUpload uploadId)
    (recorded : after.2 = released.2 ++
      [⟨.metaStore (.deleteMultipartUpload uploadId), .ok ()⟩]) :
    after.1.tables.Counted ↔ AllOrNothing indexed uploadId start after.2 := by
  have deleted : MultipartHandlers.deletes after.2 = true := by
    rw [recorded]
    simp [MultipartHandlers.deletes]
  have stored : stores after.2 = stores state.2 := by
    rw [recorded, ← release.stores]
    simp [stores]
  have failures : after.2.any failed = false ↔
      state.2.any failed = false ∧ back = casKeys := by
    rw [← release.failures, recorded]
    simp [failed]
  have noParts : start.heldBy uploadId = [] ↔ start.partsOf uploadId = [] := List.map_eq_nil_iff
  rw [tables, release.counted_removeUpload_iff ready.inside ready.counts, ready.held]
  simp only [AllOrNothing, deleted, failures, forgotten, stored, true_imp_iff,
    Bool.true_eq_false, false_imp_iff, and_true]
  rcases ready.listing with ⟨clean, rfl⟩ | ⟨dirty, rfl⟩
  · have all := start.perm_listedBlobs_iff uploadId
    have empty : start.partsOf uploadId = [] → back = start.listedBlobs uploadId := by
      intro none
      have listed := start.subperm_listedBlobs uploadId
      rw [noParts.mpr none] at listed
      have nothing := List.subperm_nil.mp listed
      have sublist := release.sublist
      rw [nothing] at sublist ⊢
      exact List.sublist_nil.mp sublist
    rw [all]
    tauto
  · have nothing : back = [] := List.sublist_nil.mp release.sublist
    have all : start.partsOf uploadId = [] → start.ListsAll uploadId := by
      intro none
      simp [Tables.ListsAll, none]
    have empty : [].Perm (start.heldBy uploadId) ↔ start.partsOf uploadId = [] := by
      rw [List.nil_perm, noParts]
    rw [empty]
    simp only [nothing, dirty]
    tauto

/-- The deletion of the upload ends the release. -/
theorem counted_iff (ready : Ready setup.indexed uploadId start casKeys state)
    (release : Released casKeys back state released) {choice : Choice} {answered : Result Unit}
    (step : answerCleanly setup process (.metaStore (.deleteMultipartUpload uploadId)) choice
      released = some (answered, after)) :
    (after.1.tables.Counted ↔ AllOrNothing setup.indexed uploadId start after.2) ∧
      (answered.isOk = false → after.1.tables = released.1.tables) := by
  obtain ⟨-, recorded, -⟩ := answerCleanly_eq_some step
  obtain ⟨-, -, tables⟩ := effect_of_answerCleanly step
  cases answered with
  | error status => exact ⟨ready.counted_iff_of_kept release tables recorded, fun _ => tables⟩
  | ok =>
      refine ⟨ready.counted_iff_of_deleted release tables recorded, ?_⟩
      rintro ⟨⟩

end Ready

/-! ## The requests -/

/-- What a run that returns says about the tables before it and after. -/
def Judged (indexed : Bytes → Bytes) (uploadId : Bytes) (start : Tables)
    (result : Option HttpResponse) (after : World × Calls) : Prop :=
  ∀ response, result = some response →
    (Safe start after.1.tables response ↔ AllOrNothing indexed uploadId start after.2)

section Requests

variable {uploadId : Bytes} {start : Tables}

/-- A run that changes nothing is safe. -/
theorem judged_of_refused {result : Option HttpResponse} {after : World × Calls}
    (counted : start.Counted) (tables : after.1.tables = start)
    (nothing : givenBack after.2 = [] ∧ stores after.2 = false ∧ deletes after.2 = false) :
    Judged setup.indexed uploadId start result after := by
  rintro response -
  obtain ⟨gave, stored, deleted⟩ := nothing
  subst start
  constructor
  · rintro -
    simp [AllOrNothing, forgotten, gave, stored, deleted]
  · rintro -
    exact ⟨counted, fun _ => .refl _⟩

/-- `ListParts` shows the parts of the upload, or fails. -/
theorem listed_of_answerCleanly {choice : Choice} {state after : World × Calls}
    {answered : Result MetaStore.ListPartsResult}
    (step : answerCleanly setup process (.metaStore (.listParts uploadId 0 10000)) choice state =
      some (answered, after)) :
    after.1.tables = state.1.tables ∧ ∀ listed, answered = .ok listed →
      listed.parts.map MetaStore.MultipartPartInfo.sha256Hash =
        state.1.tables.listedBlobs uploadId := by
  obtain ⟨same, -, answers⟩ := effect_of_answerCleanly step
  refine ⟨same, ?_⟩
  rintro listed rfl
  rcases answers with ⟨-, message, ⟨⟩⟩ | ⟨_, ⟨⟩, parts⟩
  rw [parts, List.map_map]
  rfl

theorem judged_finish {casKeys back : List Bytes} {state released : World × Calls}
    (ready : Ready setup.indexed uploadId start casKeys state)
    (objects : state.1.tables.objects = start.objects)
    (release : Released casKeys back state released) :
    Program.Ensures (answerCleanly setup process) (fun _ => True)
      (Judged setup.indexed uploadId start) (abortUploadOf.finish setup uploadId) released := by
  intro choice answered after _ step
  obtain ⟨counted, kept⟩ := ready.counted_iff release step
  cases answered with
  | error status =>
      rintro response -
      have rows : start.SameRows after.1.tables := by
        rw [kept rfl]
        exact Tables.SameRows.trans ⟨ready.uploads, ready.parts, objects⟩ release.rows
      rw [← counted]
      exact ⟨fun safe => safe.1, fun exact => ⟨exact, fun _ => rows⟩⟩
  | ok =>
      rintro response ⟨⟩
      rw [← counted]
      exact ⟨fun safe => safe.1, fun exact => ⟨exact, fun refused => by cases refused⟩⟩

theorem judged_abortUploadOf {state : World × Calls} (counted : start.Counted)
    (tables : state.1.tables = start) (fresh : state.2.any failed = false)
    (nothing : givenBack state.2 = [] ∧ stores state.2 = false ∧ deletes state.2 = false) :
    Program.Ensures (answerCleanly setup process) (fun _ => True)
      (Judged setup.indexed uploadId start) (abortUploadOf setup uploadId) state := by
  intro choice answered after _ step
  obtain ⟨-, recorded, -⟩ := answerCleanly_eq_some step
  obtain ⟨same, listing⟩ := listed_of_answerCleanly step
  obtain ⟨gave, stored, deleted⟩ := nothing
  have sameStart : after.1.tables = start := same.trans tables
  have unstored : stores after.2 = false := by
    rw [recorded]
    simpa [stores] using stored
  have ready : ∀ casKeys, (after.2.any failed = false ∧ casKeys = start.listedBlobs uploadId ∨
      after.2.any failed = true ∧ casKeys = []) →
      Ready setup.indexed uploadId start casKeys after := by
    intro casKeys listing
    refine ⟨?_, by rw [sameStart], by rw [sameStart], ?_, ?_, listing⟩
    · intro casKey
      rw [sameStart, forgotten, unstored]
      exact counted casKey
    · rw [recorded]
      simpa [givenBack] using gave
    · rw [recorded]
      simpa [deletes] using deleted
  have objects : after.1.tables.objects = start.objects := by rw [sameStart]
  cases answered with
  | error status =>
      have dirty : after.2.any failed = true := by
        rw [recorded]
        simp [failed]
      exact judged_finish (ready [] (.inr ⟨dirty, rfl⟩)) objects (.nil after)
  | ok listed =>
      have clean : after.2.any failed = false := by
        rw [recorded]
        simpa [failed] using fresh
      have all := listing listed rfl
      rw [tables] at all
      have allReady := ready _ (.inl ⟨clean, all⟩)
      change Program.Ensures _ _ _ (releaseParts setup _ >>= _) after
      rw [Program.ensures_bind]
      refine (released_releaseParts _ allReady.enough).mono ?_
      rintro _ released ⟨back, release⟩
      exact judged_finish allReady objects release

theorem judged_completeWith {bucketName objectKey : Bytes} {row : UploadRow}
    {casKeys : List Bytes} {totalSize : Nat} {finalCasKey : Bytes} {state : World × Calls}
    (counted : start.Counted) (tables : state.1.tables = start)
    (found : start.multipartUploads.lookup uploadId = some row)
    (fresh : state.2.any failed = false)
    (nothing : givenBack state.2 = [] ∧ stores state.2 = false ∧ deletes state.2 = false)
    (listing : casKeys = start.listedBlobs uploadId) :
    Program.Ensures (answerCleanly setup process) (fun _ => True)
      (Judged setup.indexed uploadId start)
      (completeWith setup bucketName objectKey (row.read uploadId) casKeys totalSize finalCasKey)
      state := by
  intro choice answered after _ step
  obtain ⟨-, recorded, -⟩ := answerCleanly_eq_some step
  have effect := effect_of_answerCleanly step
  obtain ⟨gave, stored, deleted⟩ := nothing
  have gaveNone : givenBack after.2 = [] := by
    rw [recorded]
    simpa [givenBack] using gave
  have deletedNone : deletes after.2 = false := by
    rw [recorded]
    simpa [deletes] using deleted
  cases answered with
  | error status =>
      have same : after.1.tables = start := effect.1.trans tables
      have unstored : stores after.2 = false := by
        rw [recorded]
        simpa [stores] using stored
      change Program.Ensures _ _ _ (cleanupUnreferencedCas setup finalCasKey >>= _) after
      rw [Program.ensures_bind]
      refine (ensures_silent (silent_cleanupUnreferencedCas finalCasKey) (.refl after)).mono ?_
      rintro _ last ⟨-, unmoved⟩
      exact judged_of_refused counted (unmoved.tables.trans same)
        ⟨unmoved.givenBack.trans gaveNone, unmoved.stores.trans unstored,
          unmoved.deletes.trans deletedNone⟩
  | ok candidate =>
      have written := effect.1
      rw [tables] at written
      have storedOne : stores after.2 = true := by
        rw [recorded]
        simp [stores]
      have clean : after.2.any failed = false := by
        rw [recorded]
        simpa [failed] using fresh
      have ready : Ready setup.indexed uploadId start casKeys after := by
        refine ⟨?_, ?_, ?_, gaveNone, deletedNone, .inl ⟨clean, listing⟩⟩
        · intro casKey
          rw [written, forgotten, if_pos storedOne]
          exact Tables.counted_putObject counted found rfl casKey
        · rw [written]
          simp [Tables.putObject, Tables.apply]
        · rw [written]
          simp [Tables.putObject, Tables.apply]
      change Program.Ensures _ _ _ (reportFree setup candidate >>= _) after
      rw [Program.ensures_bind]
      refine (ensures_silent (silent_reportFree candidate) (.refl after)).mono ?_
      rintro _ reported ⟨-, unmoved⟩
      change Program.Ensures _ _ _ (releaseParts setup casKeys >>= _) reported
      rw [Program.ensures_bind]
      refine (released_releaseParts casKeys ?_).mono ?_
      · rw [unmoved.tables]
        exact ready.enough
      · rintro _ released ⟨back, release⟩ choice answered last - step
        obtain ⟨exactly, -⟩ := ready.counted_iff (release.of_unmoved unmoved) step
        rintro response answer
        obtain ⟨body, -, rfl⟩ := Option.map_eq_some_iff.mp answer
        rw [← exactly]
        exact ⟨fun safe => safe.1, fun exact => ⟨exact, fun refused => by cases refused⟩⟩

theorem judged_completeParts {bucketName objectKey : Bytes} {row : UploadRow}
    {client : List (Int × Bytes)} {server : List MetaStore.MultipartPartInfo}
    {state : World × Calls} (counted : start.Counted) (tables : state.1.tables = start)
    (found : start.multipartUploads.lookup uploadId = some row)
    (fresh : state.2.any failed = false)
    (nothing : givenBack state.2 = [] ∧ stores state.2 = false ∧ deletes state.2 = false)
    (listing : server.map MetaStore.MultipartPartInfo.sha256Hash = start.listedBlobs uploadId) :
    Program.Ensures (answerCleanly setup process) (fun _ => True)
      (Judged setup.indexed uploadId start)
      (completeParts setup bucketName objectKey (row.read uploadId) client server) state := by
  unfold completeParts
  split
  · exact judged_of_refused counted tables nothing
  · split
    · exact judged_of_refused counted tables nothing
    · dsimp only
      rw [Program.ensures_bind]
      have silent : Program.Only Silent (DataStore.ReturnsDigest setup) (DataStore.merge setup
          (server.map MetaStore.MultipartPartInfo.sha256Hash)) :=
        (DataStore.only_merge _).mono (fun _ => silent_of_storageOp) fun _ => id
      refine (ensures_silent silent (.refl state)).mono ?_
      rintro result merged ⟨-, unmoved⟩
      have same : merged.1.tables = start := unmoved.tables.trans tables
      have still : givenBack merged.2 = [] ∧ stores merged.2 = false ∧
          deletes merged.2 = false :=
        ⟨unmoved.givenBack.trans nothing.1, unmoved.stores.trans nothing.2.1,
          unmoved.deletes.trans nothing.2.2⟩
      cases result with
      | error status => exact judged_of_refused counted same still
      | ok finalCasKey =>
          exact judged_completeWith counted same found (unmoved.failures.trans fresh) still
            listing

theorem judged_completeUploadOf {request : HttpRequest} {bucketName objectKey : Bytes}
    {row : UploadRow} {state : World × Calls} (counted : start.Counted)
    (tables : state.1.tables = start)
    (found : start.multipartUploads.lookup uploadId = some row)
    (fresh : state.2.any failed = false)
    (nothing : givenBack state.2 = [] ∧ stores state.2 = false ∧ deletes state.2 = false) :
    Program.Ensures (answerCleanly setup process) (fun _ => True)
      (Judged setup.indexed uploadId start)
      (completeUploadOf setup request bucketName objectKey (row.read uploadId)) state := by
  unfold completeUploadOf
  split
  · exact judged_of_refused counted tables nothing
  · split
    · split
      · exact judged_of_refused counted tables nothing
      · exact judged_of_refused counted tables nothing
      · intro choice answered after _ step
        obtain ⟨-, recorded, -⟩ := answerCleanly_eq_some step
        obtain ⟨same, listing⟩ := listed_of_answerCleanly step
        have sameStart : after.1.tables = start := same.trans tables
        have still : givenBack after.2 = [] ∧ stores after.2 = false ∧
            deletes after.2 = false := by
          obtain ⟨gave, stored, deleted⟩ := nothing
          rw [recorded]
          exact ⟨by simpa [givenBack] using gave, by simpa [stores] using stored,
            by simpa [deletes] using deleted⟩
        cases answered with
        | error status => exact judged_of_refused counted sameStart still
        | ok listed =>
            have clean : after.2.any failed = false := by
              rw [recorded]
              simpa [failed] using fresh
            exact judged_completeParts counted sameStart found clean still
              (by rw [listing listed rfl, tables, UploadRow.read_uploadId])
    · exact judged_of_refused counted tables nothing

/-- What a handler knows once it has asked for the upload. -/
theorem upload_of_answerCleanly {choice : Choice} {after : World × Calls} {world : World}
    {answered : Result MetaStore.MultipartUploadInfo}
    (step : answerCleanly setup process (.metaStore (.getMultipartUpload uploadId)) choice
      (world, []) = some (answered, after)) :
    Unmoved (world, []) after ∧ ∀ upload, answered = .ok upload →
      ∃ row, world.tables.multipartUploads.lookup uploadId = some row ∧
        upload = row.read uploadId := by
  have silent : Silent (.metaStore (.getMultipartUpload uploadId)) := trivial
  refine ⟨unmoved_of_silent silent step, ?_⟩
  rintro upload rfl
  obtain ⟨-, -, answers⟩ := effect_of_answerCleanly step
  rcases answers with ⟨-, message, ⟨⟩⟩ | answers
  cases stored : world.tables.multipartUploads.lookup uploadId with
  | none =>
      rw [stored] at answers
      obtain ⟨message, ⟨⟩⟩ := answers
  | some row =>
      rw [stored] at answers
      cases answers
      exact ⟨row, rfl, rfl⟩

theorem judged_handler (ending : Ending) (request : HttpRequest) {world : World}
    (counted : world.tables.Counted) :
    Program.Ensures (answerCleanly setup process) (fun _ => True)
      (Judged setup.indexed (request.getPathParam (ascii "upload_id")) world.tables)
      (ending.handler setup request) (world, []) := by
  have untouched : givenBack [] = [] ∧ stores [] = false ∧ deletes [] = false :=
    ⟨rfl, rfl, rfl⟩
  have silent : ∀ after : World × Calls, Unmoved (world, []) after →
      givenBack after.2 = [] ∧ stores after.2 = false ∧ deletes after.2 = false :=
    fun _ unmoved => ⟨unmoved.givenBack, unmoved.stores, unmoved.deletes⟩
  cases ending with
  | complete =>
      unfold Ending.handler completeUpload
      dsimp only
      split
      · exact judged_of_refused counted rfl untouched
      · intro choice answered after _ step
        obtain ⟨unmoved, found⟩ := upload_of_answerCleanly step
        cases answered with
        | error status =>
            simp only [Program.bind]
            split <;> exact judged_of_refused counted unmoved.tables (silent after unmoved)
        | ok upload =>
            obtain ⟨row, stored, rfl⟩ := found upload rfl
            exact judged_completeUploadOf counted unmoved.tables stored unmoved.failures
              (silent after unmoved)
  | abort =>
      unfold Ending.handler abortUpload
      dsimp only
      split
      · exact judged_of_refused counted rfl untouched
      · intro choice answered after _ step
        obtain ⟨unmoved, -⟩ := upload_of_answerCleanly step
        cases answered with
        | error status =>
            simp only [Program.bind]
            split <;> exact judged_of_refused counted unmoved.tables (silent after unmoved)
        | ok upload =>
            exact judged_abortUploadOf counted unmoved.tables unmoved.failures
              (silent after unmoved)

end Requests

/-- A request that completes or aborts an upload keeps the counters exact, and is not
half-done when it reports a failure, just when its calls succeed or fail together. -/
theorem release_is_safe_iff (setup : Setup) (process : Nat) (ending : Ending)
    (request : HttpRequest) {start after : World} {choices : List Choice} {calls : Calls}
    {response : HttpResponse} (counted : start.tables.Counted)
    (executed : Program.execute (answerCleanly setup process) (ending.handler setup request)
      choices (start, []) = some (some response, after, calls)) :
    Safe start.tables after.tables response ↔
      AllOrNothing setup.indexed (request.getPathParam (ascii "upload_id")) start.tables calls :=
  (judged_handler ending request counted).of_execute (fun _ _ => trivial) executed response rfl

/-! ### Aborting an upload of one part -/

/-- `DELETE` of the upload `u`. -/
def abortOfU : HttpRequest :=
  { ((HttpRequest.empty.setPathParam (ascii "bucket") (ascii "abc")).setPathParam
      (ascii "object") (ascii "k")).setPathParam (ascii "upload_id") (ascii "u") with
    method := .DELETE
    path := ascii "/buckets/abc/objects/k/uploads/u" }

/-- A world with the upload `u`, which has one part. -/
def worldOfU : World where
  tables := unfinishedUpload
  caches := ⟨∅, none⟩
  files := ∅
  makers := ∅
  pendingDeletes := []
  uploads := ∅

/-- A call of the metadata store that succeeds. -/
def succeeds : Choice :=
  .sql [] ⟨0, 0⟩

/-- A call of the metadata store whose first statement fails. -/
def fails : Choice :=
  .sql [some (ascii "gone")] ⟨0, 0⟩

/-- A run of the abort. -/
def abortRun (choices : List Choice) : Option (Option HttpResponse × World × Calls) :=
  Program.execute (answerCleanly bucketSetup 0) (Ending.abort.handler bucketSetup abortOfU)
    choices (worldOfU, [])

/-- When nothing fails, the abort is safe; and so it is when both the decrement and the deletion of
the upload fail, which is answered with an error. -/
theorem release_is_safe_sample :
    (∃ response after calls,
      abortRun [succeeds, succeeds, succeeds, .done, succeeds] =
        some (some response, after, calls) ∧
        Safe unfinishedUpload after.tables response) ∧
    ∃ response after calls,
      abortRun [succeeds, succeeds, fails, fails] = some (some response, after, calls) ∧
        response.isSuccess = false ∧ Safe unfinishedUpload after.tables response := by
  have counted : worldOfU.tables.Counted := unfinishedUpload_refCount
  have safe : ∀ choices response after calls,
      abortRun choices = some (some response, after, calls) →
        AllOrNothing id (ascii "u") unfinishedUpload calls →
          Safe unfinishedUpload after.tables response := fun _ _ _ _ run settled =>
    (release_is_safe_iff bucketSetup 0 .abort abortOfU counted run).mpr settled
  constructor
  · refine ⟨_, _, _, rfl, safe [succeeds, succeeds, succeeds, .done, succeeds] _ _ _ rfl ⟨?_, ?_⟩⟩
    · rintro -
      exact ⟨.inl rfl, ⟨by decide +kernel, by decide +kernel⟩, rfl⟩
    · intro kept
      exact absurd kept (by decide +kernel)
  · refine ⟨_, _, _, rfl, ?_, safe [succeeds, succeeds, fails, fails] _ _ _ rfl ⟨?_, ?_⟩⟩
    · rfl
    · intro deleted
      exact absurd deleted (by decide +kernel)
    · rintro -
      decide +kernel

/-- When only the decrement fails, the abort is answered with success, and the blob keeps a
reference that no row has. -/
theorem failed_decrement_is_forgotten :
    unfinishedUpload.Counted ∧ ∃ response after calls,
      abortRun [succeeds, succeeds, fails, succeeds] = some (some response, after, calls) ∧
        ¬Safe unfinishedUpload after.tables response := by
  refine ⟨unfinishedUpload_refCount, _, _, _, rfl, ?_⟩
  rintro ⟨counted, -⟩
  exact absurd (counted (blobKey 'a')) (by decide +kernel)

end Api.MultipartHandlers

end MiniS3
