import MiniS3.Api.HandlerOps
import MiniS3.Db.Accounting
import MiniS3.Storage.Commit

/-!
# Reference counts over whole runs

Handlers and batches of the collector are executed one after the other, each from its
first call to its last, while every SQL statement succeeds and file operations turn out
in any way.  `Sound` is what holds of the tables between two of them: the counters are
exact, rows stand under their own keys, and part numbers are in range.

Every call but two keeps `Sound` by itself.  `CompleteUpload` and `AbortUpload` give
the references of the parts back one at a time, and the tables are sound again only
once the upload is removed.
-/

namespace MiniS3.Api

open Lib Db Net Transition DataStore

/-- What holds of the tables between two executions. -/
structure Sound (tables : Tables) : Prop where
  exact : Exact .all tables
  keyed : ∀ bucketId key row, tables.objects.lookup (bucketId, key) = some row →
    row.objectKey = key
  numbered : ∀ uploadId, Numbered uploadId tables

/-! ## Calls that keep the tables sound -/

namespace Sound

variable {tables after : Tables}

/-- Tables that agree on rows and counters are equally sound. -/
theorem congr (sound : Sound tables) (casBlobs : after.casBlobs = tables.casBlobs)
    (objects : after.objects = tables.objects)
    (parts : after.multipartParts = tables.multipartParts) : Sound after where
  exact := sound.exact.congr casBlobs objects parts
  keyed := by
    rw [objects]
    exact sound.keyed
  numbered uploadId number row stored := by
    rw [parts] at stored
    exact sound.numbered uploadId number row stored

theorem putObject (sound : Sound tables) {bucketId : Int} {row : ObjectRow}
    (nonempty : row.casKey ≠ []) : Sound (tables.putObject id bucketId row) := by
  have sameKey : ∀ old, tables.objects.lookup (bucketId, id row.objectKey) = some old →
      old.objectKey = row.objectKey := fun old stored => sound.keyed _ _ old stored
  have owes := (sound.exact.owes []).putObject nonempty sameKey
  refine ⟨owes.exact ?_, ?_, ?_⟩
  · simp [Tables.heldBy, Tables.partsOf, Tables.putObject, Tables.apply]
  · intro otherBucket key other stored
    have rows : (tables.putObject id bucketId row).objects =
        put (bucketId, row.objectKey) (some (tables.upserted (bucketId, row.objectKey) row))
          tables.objects := by
      simp [Tables.putObject, Tables.apply]
    rw [rows] at stored
    by_cases same : (otherBucket, key) = (bucketId, row.objectKey)
    · rw [same, lookup_put_self, Option.some.injEq] at stored
      subst stored
      cases same
      cases old : tables.objects.lookup (bucketId, row.objectKey) with
      | none => simp [Tables.upserted, old]
      | some oldRow => simpa [Tables.upserted, old] using sound.keyed _ _ _ old
    · rw [lookup_put_ne _ _ same] at stored
      exact sound.keyed _ _ _ stored
  · intro uploadId number part stored
    refine sound.numbered uploadId number part ?_
    simpa [Tables.putObject, Tables.apply] using stored

theorem removeObject (sound : Sound tables) {bucketId : Int} {key : Bytes} {row : ObjectRow}
    (found : tables.findObject id bucketId key = some row) :
    Sound (tables.removeObject id bucketId key row.casKey) := by
  have stored : tables.objects.lookup (bucketId, key) = some row :=
    (Option.filter_eq_some_iff.mp found).1
  have nonempty : row.casKey ≠ [] := sound.exact.objectNonempty rfl _ _ stored
  have removed : tables.removeObject id bucketId key row.casKey =
      (tables.apply (.object (bucketId, key) none)).lose row.casKey := by
    simp [Tables.removeObject, nonempty]
  have moved : Moved (some row.casKey) none (tables.apply (.object (bucketId, key) none))
      ((tables.apply (.object (bucketId, key) none)).lose row.casKey) :=
    moved_lose (sound.exact.refCount_pos_of_object rfl stored)
  have rows : ((tables.apply (.object (bucketId, key) none)).lose row.casKey).objects =
      put (bucketId, key) none tables.objects := by simp [Tables.apply]
  have parts : ((tables.apply (.object (bucketId, key) none)).lose row.casKey).multipartParts =
      tables.multipartParts := by simp [Tables.apply]
  rw [removed]
  refine ⟨?_, ?_, ?_⟩
  · refine sound.exact.of_object rfl (bucketId, key) none ?_ (by simp) rows parts
    intro casKey
    have counters := moved casKey
    simpa [stored] using counters
  · intro otherBucket other otherRow lookup
    rw [rows] at lookup
    by_cases same : (otherBucket, other) = (bucketId, key)
    · rw [same, lookup_put_self] at lookup
      contradiction
    · rw [lookup_put_ne _ _ same] at lookup
      exact sound.keyed _ _ _ lookup
  · intro uploadId number part lookup
    rw [parts] at lookup
    exact sound.numbered uploadId number part lookup

theorem putPart (sound : Sound tables) {uploadId : Bytes} {partNumber : Int} {row : PartRow}
    (nonempty : row.casKey ≠ []) (range : 1 ≤ partNumber ∧ partNumber ≤ 10000) :
    Sound (tables.putPart uploadId partNumber row) := by
  have parts : (tables.putPart uploadId partNumber row).multipartParts =
      put (uploadId, partNumber) (some row) tables.multipartParts := by
    simp [Tables.putPart, Tables.apply]
  refine ⟨sound.exact.putPart nonempty, ?_, ?_⟩
  · simpa [Tables.putPart, Tables.apply] using sound.keyed
  · intro otherUpload number part stored
    rw [parts] at stored
    by_cases same : (otherUpload, number) = (uploadId, partNumber)
    · cases same
      exact range
    · rw [lookup_put_ne _ _ same] at stored
      exact sound.numbered otherUpload number part stored

theorem deleteCasBlob (sound : Sound tables) {casKey : Bytes}
    (noObject : tables.objectRefs casKey = 0) (noPart : tables.partRefs casKey = 0) :
    Sound (tables.apply (.casBlob casKey none)) :=
  ⟨sound.exact.deleteCasBlob noObject noPart, sound.keyed, sound.numbered⟩

/-- Every call that gives no reference back by itself keeps the tables sound. -/
theorem call (sound : Sound tables) {call : MetaCall} (plain : PlainCall (· ≠ []) call)
    {caches cachesAfter : Caches} {answered : call.Ans}
    (effect : call.Effect id False tables caches answered after cachesAfter) : Sound after := by
  cases call with
  | createBucket name ownerId =>
      cases answered with
      | error status => exact effect ▸ sound
      | ok id => rw [effect]; exact sound.congr rfl rfl rfl
  | getBucket | getBucketById | listBuckets | isBucketEmpty | getObject | listObjects | getCasBlob | canDeleteCasBlob | getMultipartUpload
  | listParts | checkIdempotency => exact effect.1 ▸ sound
  | putObjectWithRefCount bucketId key size etag contentType sha256Hash =>
      cases answered with
      | error status => exact effect.1 ▸ sound
      | ok candidate => rw [effect.1]; exact sound.putObject plain
  | deleteObjectWithRefCount bucketId key =>
      cases answered with
      | error status => exact effect.1 ▸ sound
      | ok candidate =>
          obtain ⟨row, found, rfl, -⟩ := effect
          exact sound.removeObject found
  | decrementRefCountAndCheckZero | deleteMultipartUpload | deleteBucket => exact plain.elim
  | deleteCasBlob sha256Hash =>
      cases answered with
      | error status => exact effect.2 ▸ sound
      | ok =>
          obtain ⟨-, noObject, noPart, rfl⟩ := effect
          exact sound.deleteCasBlob noObject noPart
  | createMultipartUpload uploadId bucketId key contentType expiresAt =>
      cases answered with
      | error status => exact effect.2 ▸ sound
      | ok => rw [effect.2]; exact sound.congr rfl rfl rfl
  | putPartWithRefCount uploadId partNumber sha256Hash size etag =>
      cases answered with
      | error status => exact effect ▸ sound
      | ok candidate => rw [effect.1]; exact sound.putPart plain.1 plain.2
  | recordIdempotency idempotencyKey requestHash responseStatus responseBody ttlSeconds =>
      cases answered with
      | error status => exact effect.2 ▸ sound
      | ok =>
          obtain ⟨-, row, rfl⟩ := effect
          exact sound.congr rfl rfl rfl

end Sound

/-- Calls that keep the tables sound: everything outside the metadata store, and its plain
calls. -/
def KeepsSound (op : IoOp) : Prop :=
  ∀ call, op = .metaStore call → PlainCall (· ≠ []) call

section Executions

variable {setup : Setup} {process : Nat}

theorem keepsSound_of_handlerOp {op : IoOp} (handler : HandlerOp setup (· ≠ []) op) :
    KeepsSound op := by
  rintro call rfl
  cases handler with
  | storage storage => cases storage
  | metaStore plain => exact plain

theorem effect_of_faultless {call : MetaCall} {choice : Choice} {world after : World}
    {answered : call.Ans} (fullIndex : setup.indexed = id) (faultless : Faultless choice)
    (step : answer setup process (.metaStore call) choice world = some (answered, after)) :
    call.Effect id False world.tables world.caches answered after.tables after.caches := by
  obtain ⟨faults, clock, rfl, -, effect⟩ := answer_metaStore step
  rw [← fullIndex]
  exact effect False (.inr faultless)

theorem sound_answer (fullIndex : setup.indexed = id) (op : IoOp) (choice : Choice)
    (world : World) (answered : op.Ans) (after : World) (keeps : KeepsSound op)
    (faultless : Faultless choice) (sound : Sound world.tables)
    (step : answer setup process op choice world = some (answered, after)) :
    Sound after.tables := by
  by_cases store : ∃ call, op = .metaStore call
  · obtain ⟨call, rfl⟩ := store
    exact sound.call (keeps call rfl) (effect_of_faultless fullIndex faultless step)
  · rw [tables_answer (fun call same => store ⟨call, same⟩) step]
    exact sound

/-- A program of such calls keeps the tables sound. -/
theorem ensures_of_only {α : Type} {program : ServerM α} {result : α → Prop} {world : World}
    (fullIndex : setup.indexed = id) (only : Program.Only KeepsSound result program)
    (sound : Sound world.tables) :
    Program.Ensures (answer setup process) Faultless
      (fun value after => result value ∧ Sound after.tables) program world :=
  only.ensures (sound_answer fullIndex) sound

/-! ## The collector -/

theorem only_deleteCallback {casKey : Bytes} {success : Bool} {rest : ServerM Unit}
    (restOnly : Program.Only KeepsSound (fun _ => True) rest) :
    Program.Only KeepsSound (fun _ => True)
      (GarbageCollector.deleteCallback casKey success rest) := by
  have plain : ∀ call, PlainCall (· ≠ []) call → KeepsSound (.metaStore call) := by
    rintro call holds _ ⟨⟩
    exact holds
  unfold GarbageCollector.deleteCallback
  split
  · refine ⟨plain _ trivial, fun answer => ?_⟩
    match answer with
    | .ok true => exact ⟨plain _ trivial, fun _ => restOnly⟩
    | .ok false => exact restOnly
    | .error status => exact restOnly
  · exact restOnly

theorem only_recheck {casKey uuid : Bytes} {renamed : Bool} {rest : ServerM Unit}
    (restOnly : Program.Only KeepsSound (fun _ => True) rest) :
    Program.Only KeepsSound (fun _ => True)
      (GarbageCollector.recheck setup casKey uuid renamed rest) := by
  have restored : Program.Only KeepsSound (fun _ => True)
      (if renamed then do
        let _ ← perform (.atomicRename (setup.quarantinePath casKey uuid)
          (setup.getCasPath casKey))
        rest
      else rest) := by
    split
    · exact ⟨by rintro call ⟨⟩, fun _ => restOnly⟩
    · exact restOnly
  refine ⟨by rintro call ⟨⟩; trivial, fun answer => ?_⟩
  match answer with
  | .ok true =>
      change Program.Only _ _ (if renamed then _ else _)
      split
      · exact ⟨by rintro call ⟨⟩, fun _ => only_deleteCallback restOnly⟩
      · exact only_deleteCallback restOnly
  | .ok false => exact restored
  | .error status => exact restored

theorem only_processKeys (casKeys : List Bytes) :
    Program.Only KeepsSound (fun _ => True) (GarbageCollector.processKeys setup casKeys) := by
  induction casKeys with
  | nil => trivial
  | cons casKey casKeys inductionHypothesis =>
      refine ⟨by rintro call ⟨⟩; trivial, fun answer => ?_⟩
      match answer with
      | .error status => exact inductionHypothesis
      | .ok false => exact inductionHypothesis
      | .ok true =>
          refine ⟨by rintro call ⟨⟩, fun uuid => ⟨by rintro call ⟨⟩, fun present => ?_⟩⟩
          cases present with
          | false => exact only_recheck inductionHypothesis
          | true =>
              refine ⟨by rintro call ⟨⟩, fun renamed => ?_⟩
              cases renamed with
              | error text => exact inductionHypothesis
              | ok => exact only_recheck inductionHypothesis

theorem only_processBatch :
    Program.Only KeepsSound (fun _ => True) (GarbageCollector.processBatch setup) :=
  ⟨by rintro call ⟨⟩, fun batch => only_processKeys batch⟩

/-! ## Completing and aborting -/

/-- The tables while the upload is released: everything is sound but for the references
that were given back already. -/
structure Releasing (uploadId : Bytes) (owed : List Bytes) (tables : Tables) : Prop where
  owes : Owes uploadId owed tables
  keyed : ∀ bucketId key row, tables.objects.lookup (bucketId, key) = some row →
    row.objectKey = key
  numbered : ∀ upload, Numbered upload tables
  stored : (tables.multipartUploads.lookup uploadId).isSome

theorem Sound.releasing {tables : Tables} (sound : Sound tables) {uploadId : Bytes}
    (stored : (tables.multipartUploads.lookup uploadId).isSome) :
    Releasing uploadId (tables.heldBy uploadId) tables :=
  ⟨sound.exact.owes uploadId, sound.keyed, sound.numbered, stored⟩

namespace Releasing

variable {uploadId : Bytes} {owed : List Bytes} {tables : Tables}

theorem perm {other : List Bytes} (releasing : Releasing uploadId owed tables)
    (same : owed.Perm other) : Releasing uploadId other tables :=
  ⟨releasing.owes.perm same, releasing.keyed, releasing.numbered, releasing.stored⟩

theorem lose {casKey : Bytes} (releasing : Releasing uploadId (casKey :: owed) tables) :
    Releasing uploadId owed (tables.lose casKey) where
  owes := releasing.owes.lose
  keyed := by simpa using releasing.keyed
  numbered upload number row lookup :=
    releasing.numbered upload number row (by simpa using lookup)
  stored := by simpa using releasing.stored

theorem removeUpload (releasing : Releasing uploadId [] tables) :
    Sound (tables.removeUpload uploadId) where
  exact := releasing.owes.removeUpload
  keyed := by
    rw [removeUpload_eq]
    exact releasing.keyed
  numbered upload number row lookup := by
    rw [lookup_removeUpload] at lookup
    split at lookup
    · contradiction
    · exact releasing.numbered upload number row lookup

end Releasing

/-- The parts that are listed are all parts of the upload. -/
theorem perm_heldBy_listed {uploadId : Bytes} {tables : Tables}
    (numbered : Numbered uploadId tables) :
    ((((tables.listedParts uploadId 0 (10000 + 1)).take (10000 : Int).toNat).map
      fun part => (⟨uploadId, part.1, part.2.casKey, part.2.size, part.2.etag⟩ :
        MetaStore.MultipartPartInfo)).map MetaStore.MultipartPartInfo.sha256Hash).Perm
      (tables.heldBy uploadId) := by
  rw [List.map_map]
  exact (perm_listedParts numbered).map _

theorem ensures_reportFree {good : Tables → Prop} {candidate : Option Bytes} {world : World}
    (holds : good world.tables) :
    Program.Ensures (answer setup process) Faultless (fun _ after => good after.tables)
      (reportFree setup candidate) world := by
  unfold reportFree
  split
  · split
    · intro choice _ after _ step
      change good after.tables
      rw [tables_answer (by rintro call ⟨⟩) step]
      exact holds
    · exact holds
  · exact holds

theorem ensures_releaseParts {uploadId : Bytes} (fullIndex : setup.indexed = id)
    (casKeys : List Bytes) {world : World}
    (releasing : Releasing uploadId casKeys world.tables) :
    Program.Ensures (answer setup process) Faultless
      (fun _ after => Releasing uploadId [] after.tables)
      (MultipartHandlers.releaseParts setup casKeys) world := by
  induction casKeys generalizing world with
  | nil => exact releasing
  | cons casKey casKeys inductionHypothesis =>
      intro choice answered after faultless step
      obtain ⟨-, effect⟩ := effect_of_faultless fullIndex faultless step
      have lost : after.tables = world.tables.lose casKey := by
        rcases effect with ⟨⟨⟩, -⟩ | ⟨lost, -⟩
        exact lost
      have rest : Releasing uploadId casKeys after.tables := lost ▸ releasing.lose
      match answered with
      | .ok true =>
          change Program.Ensures _ _ _ (reportFree setup (some casKey) >>= _) after
          rw [Program.ensures_bind]
          exact (ensures_reportFree rest).mono fun _ _ => inductionHypothesis
      | .ok false => exact inductionHypothesis rest
      | .error status => exact inductionHypothesis rest

/-- Once everything is given back, the upload is removed. -/
theorem sound_deleteMultipartUpload {uploadId : Bytes} {choice : Choice} {world after : World}
    {answered : Result Unit} (fullIndex : setup.indexed = id)
    (releasing : Releasing uploadId [] world.tables) (faultless : Faultless choice)
    (step : answer setup process (.metaStore (.deleteMultipartUpload uploadId)) choice world =
      some (answered, after)) : Sound after.tables := by
  obtain ⟨-, answers, removed⟩ := effect_of_faultless fullIndex faultless step
  obtain ⟨row, stored⟩ := Option.isSome_iff_exists.mp releasing.stored
  rcases answers with ⟨⟨⟩, -⟩ | answers
  rw [stored] at answers
  cases (show answered = .ok () from answers)
  rw [removed]
  exact releasing.removeUpload

theorem ensures_abortUploadOf {uploadId : Bytes} (fullIndex : setup.indexed = id)
    {world : World} (sound : Sound world.tables)
    (stored : (world.tables.multipartUploads.lookup uploadId).isSome) :
    Program.Ensures (answer setup process) Faultless (fun _ after => Sound after.tables)
      (MultipartHandlers.abortUploadOf setup uploadId) world := by
  intro choice answered after faultless step
  obtain ⟨sameTables, -, listed⟩ := effect_of_faultless fullIndex faultless step
  rcases listed with ⟨⟨⟩, -⟩ | ⟨listed, rfl, parts⟩
  have releasing : Releasing uploadId (listed.parts.map MetaStore.MultipartPartInfo.sha256Hash)
      after.tables := by
    rw [sameTables, parts]
    exact (sound.releasing stored).perm (perm_heldBy_listed (sound.numbered uploadId)).symm
  change Program.Ensures _ _ _ (MultipartHandlers.releaseParts setup _ >>= _) after
  rw [Program.ensures_bind]
  refine (ensures_releaseParts fullIndex _ releasing).mono ?_
  intro _ middle releasing choice answered last faultless step
  have finished := sound_deleteMultipartUpload fullIndex releasing faultless step
  cases answered <;> exact finished

theorem ensures_completeWith {bucketName objectKey : Bytes}
    {upload : MetaStore.MultipartUploadInfo} {casKeys : List Bytes} {totalSize : Nat}
    {finalCasKey : Bytes} (fullIndex : setup.indexed = id) (nonempty : finalCasKey ≠ [])
    {world : World} (sound : Sound world.tables)
    (stored : (world.tables.multipartUploads.lookup upload.uploadId).isSome)
    (allParts : casKeys.Perm (world.tables.heldBy upload.uploadId)) :
    Program.Ensures (answer setup process) Faultless (fun _ after => Sound after.tables)
      (MultipartHandlers.completeWith setup bucketName objectKey upload casKeys totalSize
        finalCasKey) world := by
  intro choice answered after faultless step
  have effect := effect_of_faultless fullIndex faultless step
  cases answered with
  | error status =>
      have same : after.tables = world.tables := effect.1
      change Program.Ensures _ _ _ (cleanupUnreferencedCas setup finalCasKey >>= _) after
      rw [Program.ensures_bind]
      refine (ensures_of_only fullIndex ((only_cleanupUnreferencedCas finalCasKey).mono
        (fun _ => keepsSound_of_handlerOp) fun _ => id) (same ▸ sound)).mono ?_
      exact fun _ _ holds => holds.2
  | ok candidate =>
      have written : after.tables = world.tables.putObject id upload.bucketId
          ⟨upload.key, finalCasKey, toInt64 totalSize, upload.contentType,
            quotedEtag finalCasKey⟩ := effect.1
      have releasing : Releasing upload.uploadId casKeys after.tables := by
        rw [written]
        refine ((sound.putObject (by exact nonempty)).releasing ?_).perm
          (allParts.trans ?_).symm
        · simpa [Tables.putObject, Tables.apply] using stored
        · simp [Tables.heldBy, Tables.partsOf, Tables.putObject, Tables.apply]
      change Program.Ensures _ _ _ (reportFree setup candidate >>= _) after
      rw [Program.ensures_bind]
      refine (ensures_reportFree releasing).mono fun _ reported releasing => ?_
      change Program.Ensures _ _ _ (MultipartHandlers.releaseParts setup casKeys >>= _) reported
      rw [Program.ensures_bind]
      refine (ensures_releaseParts fullIndex casKeys releasing).mono ?_
      intro _ middle releasing choice answered last faultless step
      exact sound_deleteMultipartUpload fullIndex releasing faultless step

theorem ensures_completeParts {bucketName objectKey : Bytes}
    {upload : MetaStore.MultipartUploadInfo} {client : List (Int × Bytes)}
    {server : List MetaStore.MultipartPartInfo} (fullIndex : setup.indexed = id)
    {world : World} (sound : Sound world.tables)
    (stored : (world.tables.multipartUploads.lookup upload.uploadId).isSome)
    (allParts : (server.map MetaStore.MultipartPartInfo.sha256Hash).Perm
      (world.tables.heldBy upload.uploadId)) :
    Program.Ensures (answer setup process) Faultless (fun _ after => Sound after.tables)
      (MultipartHandlers.completeParts setup bucketName objectKey upload client server)
      world := by
  unfold MultipartHandlers.completeParts
  split
  · exact sound
  · split
    · exact sound
    · dsimp only
      rw [Program.ensures_bind]
      have kept : ∀ op choice (before : World) answered (after : World), StorageOp setup op →
          Faultless choice → before.tables = world.tables →
          answer setup process op choice before = some (answered, after) →
          after.tables = world.tables := by
        intro op choice before answered after storage _ same step
        rw [tables_answer (by rintro call rfl; cases storage) step, same]
      refine ((only_merge _).ensures kept rfl).mono ?_
      rintro result merged ⟨digest, same⟩
      have soundMerged : Sound merged.tables := same ▸ sound
      cases result with
      | error status => exact soundMerged
      | ok finalCasKey =>
          obtain ⟨data, rfl⟩ := digest finalCasKey rfl
          exact ensures_completeWith fullIndex (setup.sha256Hex_ne_nil data) soundMerged
            (same ▸ stored) (same ▸ allParts)

theorem ensures_completeUploadOf {request : HttpRequest} {bucketName objectKey : Bytes}
    {upload : MetaStore.MultipartUploadInfo} (fullIndex : setup.indexed = id) {world : World}
    (sound : Sound world.tables)
    (stored : (world.tables.multipartUploads.lookup upload.uploadId).isSome) :
    Program.Ensures (answer setup process) Faultless (fun _ after => Sound after.tables)
      (MultipartHandlers.completeUploadOf setup request bucketName objectKey upload) world := by
  unfold MultipartHandlers.completeUploadOf
  split
  · exact sound
  · split
    · split
      · exact sound
      · exact sound
      · intro choice answered after faultless step
        obtain ⟨same, -, listed⟩ := effect_of_faultless fullIndex faultless step
        rcases listed with ⟨⟨⟩, -⟩ | ⟨listed, rfl, parts⟩
        refine ensures_completeParts fullIndex (same ▸ sound) (same ▸ stored) ?_
        rw [same, parts]
        exact perm_heldBy_listed (sound.numbered upload.uploadId)
    · exact sound

/-- What a handler knows once it has found an upload. -/
theorem stored_of_getMultipartUpload {uploadId : Bytes} {choice : Choice} {world after : World}
    {upload : MetaStore.MultipartUploadInfo} (fullIndex : setup.indexed = id)
    (faultless : Faultless choice)
    (step : answer setup process (.metaStore (.getMultipartUpload uploadId)) choice world =
      some (.ok upload, after)) :
    after.tables = world.tables ∧ upload.uploadId = uploadId ∧
      (world.tables.multipartUploads.lookup uploadId).isSome := by
  obtain ⟨same, -, answers⟩ := effect_of_faultless fullIndex faultless step
  rcases answers with ⟨⟨⟩, -⟩ | answers
  cases stored : world.tables.multipartUploads.lookup uploadId with
  | none =>
      rw [stored] at answers
      obtain ⟨message, ⟨⟩⟩ := answers
  | some row =>
      rw [stored] at answers
      cases answers
      exact ⟨same, rfl, rfl⟩

theorem ensures_completeUpload {request : HttpRequest} (fullIndex : setup.indexed = id)
    {world : World} (sound : Sound world.tables) :
    Program.Ensures (answer setup process) Faultless (fun _ after => Sound after.tables)
      (MultipartHandlers.completeUpload setup request) world := by
  unfold MultipartHandlers.completeUpload
  dsimp only
  split
  · exact sound
  · intro choice answered after faultless step
    have soundAfter : Sound after.tables :=
      sound.call (by exact trivial) (effect_of_faultless fullIndex faultless step)
    cases answered with
    | error status =>
        simp only [Program.bind]
        split <;> exact soundAfter
    | ok upload =>
        obtain ⟨same, named, stored⟩ := stored_of_getMultipartUpload fullIndex faultless step
        exact ensures_completeUploadOf fullIndex soundAfter (by rw [same, named]; exact stored)

theorem ensures_abortUpload {request : HttpRequest} (fullIndex : setup.indexed = id)
    {world : World} (sound : Sound world.tables) :
    Program.Ensures (answer setup process) Faultless (fun _ after => Sound after.tables)
      (MultipartHandlers.abortUpload setup request) world := by
  unfold MultipartHandlers.abortUpload
  dsimp only
  split
  · exact sound
  · intro choice answered after faultless step
    have soundAfter : Sound after.tables :=
      sound.call (by exact trivial) (effect_of_faultless fullIndex faultless step)
    cases answered with
    | error status =>
        simp only [Program.bind]
        split <;> exact soundAfter
    | ok upload =>
        obtain ⟨same, -, stored⟩ := stored_of_getMultipartUpload fullIndex faultless step
        exact ensures_abortUploadOf fullIndex soundAfter (by rw [same]; exact stored)

end Executions

/-! ## Whole runs -/

/-- What is executed as a whole. -/
inductive Execution
  | putObject (request : HttpRequest)
  | deleteObject (request : HttpRequest)
  | initUpload (request : HttpRequest)
  | uploadPart (request : HttpRequest)
  | completeUpload (request : HttpRequest)
  | abortUpload (request : HttpRequest)
  | processBatch

section

variable (setup : Setup) (process : Nat)

/-- The world after a whole execution of a program. -/
def executed {α : Type} (program : ServerM α) (choices : List Choice) (world : World) :
    Option World :=
  (Program.execute (answer setup process) program choices world).map Prod.snd

/-- One execution, with the outcome of each of its calls. -/
def nextExecution : Step World (Execution × List Choice)
  | world, (.putObject request, choices) =>
      executed setup process (ObjectHandlers.putObject setup request) choices world
  | world, (.deleteObject request, choices) =>
      executed setup process (ObjectHandlers.deleteObject setup request) choices world
  | world, (.initUpload request, choices) =>
      executed setup process (MultipartHandlers.initUpload setup request) choices world
  | world, (.uploadPart request, choices) =>
      executed setup process (MultipartHandlers.uploadPart setup request) choices world
  | world, (.completeUpload request, choices) =>
      executed setup process (MultipartHandlers.completeUpload setup request) choices world
  | world, (.abortUpload request, choices) =>
      executed setup process (MultipartHandlers.abortUpload setup request) choices world
  | world, (.processBatch, choices) =>
      executed setup process (GarbageCollector.processBatch setup) choices world

variable {setup process}

theorem sound_of_executed {α : Type} {program : ServerM α} {choices : List Choice}
    {world after : World}
    (ensures : Program.Ensures (answer setup process) Faultless
      (fun _ after => Sound after.tables) program world)
    (faultless : ∀ choice ∈ choices, Faultless choice)
    (step : executed setup process program choices world = some after) : Sound after.tables := by
  obtain ⟨⟨value, reached⟩, performed, rfl⟩ := Option.map_eq_some_iff.mp step
  exact ensures.of_execute faultless performed

/-- Every whole execution keeps the tables sound. -/
theorem sound_nextExecution (fullIndex : setup.indexed = id) {world after : World}
    {execution : Execution} {choices : List Choice} (sound : Sound world.tables)
    (faultless : ∀ choice ∈ choices, Faultless choice)
    (step : nextExecution setup process world (execution, choices) = some after) :
    Sound after.tables := by
  have plain : ∀ {program : Handler},
      Program.Only (HandlerOp setup (· ≠ [])) (fun _ => True) program →
      Program.Ensures (answer setup process) Faultless (fun _ after => Sound after.tables)
        program world := fun only =>
    (ensures_of_only fullIndex (only.mono (fun _ => keepsSound_of_handlerOp) fun _ => id)
      sound).mono fun _ _ holds => holds.2
  have handles : ∀ request, HandlesKeys setup (· ≠ []) request :=
    fun request => ⟨setup.sha256Hex_ne_nil, id⟩
  cases execution with
  | putObject request =>
      exact sound_of_executed (plain (only_putObject (handles request))) faultless step
  | deleteObject request => exact sound_of_executed (plain only_deleteObject) faultless step
  | initUpload request => exact sound_of_executed (plain only_initUpload) faultless step
  | uploadPart request =>
      exact sound_of_executed (plain (only_uploadPart (handles request))) faultless step
  | completeUpload request =>
      exact sound_of_executed (ensures_completeUpload fullIndex sound) faultless step
  | abortUpload request =>
      exact sound_of_executed (ensures_abortUpload fullIndex sound) faultless step
  | processBatch =>
      exact sound_of_executed ((ensures_of_only fullIndex only_processBatch sound).mono
        fun _ _ holds => holds.2) faultless step

end

/-- Tables that hold buckets and nothing else. -/
def OnlyBuckets (tables : Tables) : Prop :=
  tables.casBlobs = ∅ ∧ tables.objects = ∅ ∧ tables.multipartUploads = ∅ ∧
    tables.multipartParts = ∅ ∧ tables.idempotencyRecords = ∅

theorem OnlyBuckets.sound {tables : Tables} (onlyBuckets : OnlyBuckets tables) :
    Sound tables := by
  obtain ⟨casBlobs, objects, -, parts, -⟩ := onlyBuckets
  refine ⟨⟨?_, ?_, ?_⟩, ?_, ?_⟩
  · intro casKey
    simp [references, Tables.refCount, Tables.objectRefs, Tables.partRefs, casBlobs, objects,
      parts]
  · simp [objects]
  · simp [parts]
  · simp [objects]
  · intro uploadId number row stored
    simp [parts] at stored

/-- Reference counts are exact between any two executions of a run, and every blob that is
referred to has a row. -/
theorem refCounts_stay_exact (setup : Setup) (process : Nat) (fullIndex : setup.indexed = id)
    {source target : World} (onlyBuckets : OnlyBuckets source.tables)
    (reachable : ReachableUnder (nextExecution setup process)
      (fun _ action => ∀ choice ∈ action.2, Faultless choice) source target) (casKey : Bytes) :
    target.tables.refCount casKey =
        target.tables.objectRefs casKey + target.tables.partRefs casKey ∧
      (0 < target.tables.objectRefs casKey + target.tables.partRefs casKey →
        (target.tables.casBlobs.lookup casKey).isSome) := by
  have sound : Sound target.tables := by
    refine reachable.invariant (fun world => Sound world.tables) onlyBuckets.sound ?_
    rintro world ⟨execution, choices⟩ after sound faultless step
    exact sound_nextExecution fullIndex sound faultless step
  have total := sound.exact.counted casKey
  simp only [references, Scope.all, if_true] at total
  refine ⟨total, ?_⟩
  intro referred
  cases stored : target.tables.casBlobs.lookup casKey with
  | some row => rfl
  | none =>
      rw [← total] at referred
      simp [Tables.refCount, stored] at referred

/-- A server with one bucket. -/
def bucketOnly : World :=
  { World.empty with tables := Tables.empty.apply (.bucket 1 (some (ascii "b"))) }

/-- A request for an object of one byte. -/
def byteRequest : HttpRequest :=
  { (HttpRequest.empty.setPathParam (ascii "bucket") (ascii "b")).setPathParam (ascii "object")
      (ascii "k") with body := ascii "a" }

/-- The object is written, and then deleted. -/
def byteExecutions : List (Execution × List Choice) :=
  [(.putObject byteRequest, [.sql [] ⟨0, 0⟩, .done, .uuid sampleUuid, .done, .count 1, .done,
      .done, .done, .sql [] ⟨0, 0⟩]),
    (.deleteObject byteRequest, [.sql [] ⟨0, 0⟩, .sql [] ⟨0, 0⟩, .sql [] ⟨0, 0⟩, .done])]

/-- The outcomes of the calls of an execution, checked. -/
def noStatementFails (_ : World) (action : Execution × List Choice) : Bool :=
  action.2.all fun choice =>
    match choice with
    | .sql faults _ => faults.isEmpty
    | _ => true

theorem refCounts_stay_exact_sample :
    ∃ target : World,
      (target.tables.casBlobs.lookup (sampleSetup.sha256Hex (ascii "a"))).isSome = true ∧
      ∀ casKey, target.tables.refCount casKey =
          target.tables.objectRefs casKey + target.tables.partRefs casKey ∧
        (0 < target.tables.objectRefs casKey + target.tables.partRefs casKey →
          (target.tables.casBlobs.lookup casKey).isSome) := by
  have onlyBuckets : OnlyBuckets bucketOnly.tables := ⟨rfl, rfl, rfl, rfl, rfl⟩
  have sound : ∀ world (action : Execution × List Choice), noStatementFails world action = true →
      ∀ choice ∈ action.2, Faultless choice := by
    intro world action checked choice member
    have passed := List.all_eq_true.mp checked choice member
    cases choice with
    | sql faults clock => exact List.isEmpty_iff.mp passed
    | _ => trivial
  have performed : (run (fun state action =>
      if noStatementFails state action then nextExecution sampleSetup 0 state action else none)
        bucketOnly byteExecutions).any (fun target =>
          (target.tables.casBlobs.lookup (sampleSetup.sha256Hex (ascii "a"))).isSome) = true := by
    decide +kernel
  rcases exists_reachableUnder_of_run noStatementFails sound _ performed with
    ⟨target, reachable, stored⟩
  exact ⟨target, stored, refCounts_stay_exact sampleSetup 0 rfl onlyBuckets reachable⟩

end MiniS3.Api
