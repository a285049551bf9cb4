import MiniS3.Service.Effects
import MiniS3.Storage.Commit

/-!
# Reference counts under the service layer

The services write a row and change a counter in separate statements.  A call keeps the counters
exact only when the counter that it lowers is the one whose reference it takes away, and a call
that takes a reference away without lowering a counter leaves one that is too high: an object is
put again with its own content, a part is uploaded again, an upload is completed with parts in it
or onto an object.  For each call the condition on the state before it is named, and a run keeps
the counters exact exactly if each of its calls meets its condition.
-/

namespace MiniS3.Service

open Lib Db MetaStore Transition

/-! ## The conditions -/

section Conditions

variable (setup : Setup) (process : Nat)

/-- The blob of the row that an upsert of the object overwrites. -/
def overwritten (bucketId : Int) (key : Bytes) (world : World) : Option Bytes :=
  (world.tables.objects.lookup (bucketId, setup.indexed key)).map ObjectRow.casKey

/-- The blob whose counter is lowered for the object that is found. -/
def replaced (bucketId : Int) (key sha256 : Bytes) (world : World) : Option Bytes :=
  (found setup bucketId key world).bind fun old =>
    if old.sha256Hash ≠ sha256 then world.tables.lowered old.sha256Hash else none

/-- The content is there or is written. -/
def contentStored (content : Bytes) (choices : List Choice) (world : World) : Bool :=
  (Program.outcome (answer setup process) (storeContent setup content) choices world).any
    Except.isOk

/-- The parts that the services see of an upload. -/
def seenParts (uploadId : Bytes) (tables : Tables) : List (Int × PartRow) :=
  (tables.listedParts uploadId 0 (1000 + 1)).take (1000 : Int).toNat

/-- The parts as `ListParts` tells them. -/
def toldParts (uploadId : Bytes) (tables : Tables) : List MultipartPartInfo :=
  (seenParts uploadId tables).map fun part =>
    ⟨uploadId, part.1, part.2.casKey, part.2.size, part.2.etag⟩

/-- The list of the client fits the parts, and their contents are merged.  Two statements come
before the merge. -/
def partsMerged (uploadId : Bytes) (parts : List (Int × Bytes)) (choices : List Choice)
    (world : World) : Bool :=
  match MultipartService.partBlobs (toldParts uploadId world.tables) parts with
  | .error _ => false
  | .ok casKeys =>
      decide (parts.length = (toldParts uploadId world.tables).length) &&
        (Program.outcome (answer setup process) (DataStore.merge setup casKeys)
          (choices.drop 2) world).any Except.isOk

/-- The call keeps exact counters exact. -/
def callKeepsCounts (world : World) (shownId : Nat) (choices : List Choice) :
    ServiceCall → Bool
  | .putObject bucketId key content _ =>
      !contentStored setup process content choices world ||
        decide (overwritten setup bucketId key world =
          replaced setup bucketId key (setup.sha256Hex content) world)
  | .deleteObject bucketId key =>
      match found setup bucketId key world,
        world.tables.findObject setup.indexed bucketId key with
      | some info, some row => decide (info.sha256Hash = row.casKey)
      | _, _ => true
  | .copyObject srcBucketId srcKey dstBucketId dstKey =>
      match found setup srcBucketId srcKey world with
      | none => true
      | some src =>
          if Hidden setup shownId dstBucketId dstKey world.tables then
            decide (overwritten setup dstBucketId dstKey world = some src.sha256Hash ∧
              replaced setup dstBucketId dstKey src.sha256Hash world = none)
          else
            decide (overwritten setup dstBucketId dstKey world =
              replaced setup dstBucketId dstKey src.sha256Hash world)
  | .initiateMultipartUpload _ _ _ => true
  | .uploadPart uploadId partNumber content =>
      !((world.tables.multipartUploads.lookup uploadId).isSome &&
          decide (1 ≤ partNumber ∧ partNumber ≤ 10000) &&
          contentStored setup process content (choices.drop 1) world) ||
        decide (world.tables.multipartParts.lookup (uploadId, partNumber) = none)
  | .completeMultipartUpload uploadId parts =>
      match world.tables.multipartUploads.lookup uploadId with
      | none => true
      | some upload =>
          !partsMerged setup process uploadId parts choices world ||
            decide (overwritten setup upload.bucketId upload.objectKey.cString world = none ∧
              world.tables.heldBy uploadId = [])
  | .abortMultipartUpload uploadId =>
      if (world.tables.multipartUploads.lookup uploadId).isSome then
        decide ((seenParts uploadId world.tables).length =
          (world.tables.partsOf uploadId).length)
      else decide (seenParts uploadId world.tables = [])

/-- The step keeps exact counters exact. -/
def keepsCounts (world : World) : ServiceStep → Bool
  | .call call shownId choices => callKeepsCounts setup process world shownId choices call
  | .expire _ _ => true

end Conditions

/-! ## Executions of a part -/

section Executions

variable {setup : Setup} {process shownId : Nat} {α β : Type} {choices : List Choice}
variable {world : World}

/-- A call of a service that stores or merges contents first: it goes on from the same tables and
caches. -/
theorem execute_io_bind {program : ServerM α} {next : α → ServiceM β}
    {ended : β × World} (only : Program.Only Outside (fun _ => True) program)
    (executed : Program.execute (serviceAnswer setup process shownId) (io program >>= next) choices
      world = some ended) :
    ∃ back value middle, Program.outcome (answer setup process) program choices world = some value ∧
      middle.tables = world.tables ∧ middle.caches = world.caches ∧
      Program.execute (serviceAnswer setup process shownId) (next value) back middle =
        some ended := by
  rcases Program.execute_bind executed with ⟨front, back, value, middle, rfl, first, second⟩
  have alone := execute_io first
  rcases kept_of_execute only alone with ⟨tables, caches⟩
  exact ⟨back, value, middle, Program.outcome_of_execute alone back, tables, caches, second⟩

/-- A call of the metadata store, by its effect, and the rest of the execution. -/
theorem execute_metaCall {call : MetaCall} {next : call.Ans → ServiceM β} {ended : β × World}
    (executed : Program.execute (serviceAnswer setup process shownId) (metaCall call >>= next)
      choices world = some ended) :
    ∃ answered tables caches,
      call.Effect setup.indexed False world.tables world.caches answered tables caches ∧
      Program.execute (serviceAnswer setup process shownId) (next answered) (choices.drop 1)
        { world with tables, caches } = some ended := by
  cases choices with
  | nil => cases executed
  | cons choice choices =>
      rcases Option.bind_eq_some_iff.mp executed with ⟨⟨answered, after⟩, step, later⟩
      simp only [serviceAnswer, Option.ite_none_right_eq_some] at step
      rcases answer_metaStore step.2 with ⟨faults, clock, rfl, same, effect⟩
      refine ⟨answered, after.tables, after.caches,
        effect False (.inr (List.isEmpty_iff.mp step.1)), ?_⟩
      rw [← same]
      exact later

/-- What every execution ends in holds after this one. -/
theorem Serves.of_execute {good : World → Prop} {program : ServiceM α} {value : α}
    {after : World} (serves : Serves setup process shownId (fun _ after => good after) program world)
    (executed : Program.execute (serviceAnswer setup process shownId) program choices world =
      some (value, after)) : good after :=
  Program.Ensures.of_execute serves (fun _ _ => trivial) executed

/-- An execution of a program that has come to its end. -/
theorem after_eq_of_execute_ret {result value : α} {after : World}
    (executed : Program.execute (serviceAnswer setup process shownId) (.ret result) choices world =
      some (value, after)) : after = world := by
  cases choices with
  | nil =>
      cases executed
      rfl
  | cons choice choices => cases executed

end Executions

/-! ## The calls, one by one -/

section Calls

variable {setup : Setup} {process shownId : Nat} {choices : List Choice} {world : World}

/-- What is found depends on the objects and on the caches. -/
theorem found_congr {other : World} (bucketId : Int) (key : Bytes)
    (objects : other.tables.objects = world.tables.objects)
    (caches : other.caches = world.caches) :
    found setup bucketId key other = found setup bucketId key world := by
  unfold found Tables.foundObject Tables.findObject
  rw [objects, caches]

theorem surplus_dropped (bucketId : Int) (key sha256 casKey : Bytes) :
    (dropped setup bucketId key sha256 world).surplus casKey +
        refersTo (replaced setup bucketId key sha256 world) casKey =
      world.tables.surplus casKey := by
  unfold dropped replaced
  cases found setup bucketId key world with
  | none => simp
  | some old =>
      rw [Option.bind_some]
      dsimp only
      by_cases different : old.sha256Hash ≠ sha256
      · rw [if_pos different, if_pos different]
        exact Tables.surplus_lose old.sha256Hash casKey
      · rw [if_neg different, if_neg different]
        simp

theorem objects_dropped (bucketId : Int) (key sha256 : Bytes) :
    (dropped setup bucketId key sha256 world).objects = world.tables.objects := by
  unfold dropped
  split
  · rfl
  · split
    · simp
    · rfl

/-- What is replaced depends on the counters of other blobs than the new one. -/
theorem replaced_congr {other : World} (bucketId : Int) (key sha256 : Bytes)
    (sameFound : found setup bucketId key other = found setup bucketId key world)
    (counters : ∀ casKey, casKey ≠ sha256 →
      other.tables.refCount casKey = world.tables.refCount casKey) :
    replaced setup bucketId key sha256 other = replaced setup bucketId key sha256 world := by
  unfold replaced
  rw [sameFound]
  cases found setup bucketId key world with
  | none => rfl
  | some old =>
      rw [Option.bind_some, Option.bind_some]
      by_cases different : old.sha256Hash ≠ sha256
      · rw [if_pos different, if_pos different]
        unfold Tables.lowered
        rw [counters old.sha256Hash different]
      · rw [if_neg different, if_neg different]

/-- The row at the index entry is overwritten. -/
theorem surplus_upserted {bucketId : Int} {row : ObjectRow} {tables : Tables}
    (objects : tables.objects = world.tables.objects) (casKey : Bytes) :
    (upserted setup bucketId row tables).surplus casKey + refersTo (some row.casKey) casKey =
      tables.surplus casKey + refersTo (overwritten setup bucketId row.objectKey world) casKey := by
  have written := @Tables.surplus_object tables (bucketId, setup.indexed row.objectKey)
    (some (tables.upserted (bucketId, setup.indexed row.objectKey) row)) casKey
  unfold overwritten
  rw [← objects]
  exact written

/-- The counter of the object that is found is lowered, and the row at its index entry is
overwritten. -/
theorem surplus_exchanged {other : World} {bucketId : Int} {row : ObjectRow}
    (objects : other.tables.objects = world.tables.objects)
    (sameFound : found setup bucketId row.objectKey other =
      found setup bucketId row.objectKey world)
    (counters : ∀ casKey, casKey ≠ row.casKey →
      other.tables.refCount casKey = world.tables.refCount casKey) (casKey : Bytes) :
    (upserted setup bucketId row
        (dropped setup bucketId row.objectKey row.casKey other)).surplus casKey +
        refersTo (some row.casKey) casKey +
        refersTo (replaced setup bucketId row.objectKey row.casKey world) casKey =
      other.tables.surplus casKey +
        refersTo (overwritten setup bucketId row.objectKey world) casKey := by
  have lowered := @surplus_dropped setup other bucketId row.objectKey row.casKey casKey
  rw [replaced_congr bucketId row.objectKey row.casKey sameFound counters] at lowered
  have sameObjects : (dropped setup bucketId row.objectKey row.casKey other).objects =
      world.tables.objects := (objects_dropped bucketId row.objectKey row.casKey).trans objects
  generalize dropped setup bucketId row.objectKey row.casKey other = tables at *
  have written := @surplus_upserted setup world bucketId row tables sameObjects casKey
  omega

theorem balanced_putObject {bucketId : Int} {key content contentType : Bytes}
    {value : Result Bytes} {after : World} (balanced : world.tables.Balanced)
    (executed : Program.execute (serviceAnswer setup process shownId)
      (ObjectService.putObject setup bucketId key content contentType) choices world =
        some (value, after)) :
    after.tables.Balanced ↔ callKeepsCounts setup process world shownId choices
      (.putObject bucketId key content contentType) = true := by
  unfold ObjectService.putObject at executed
  rcases execute_io_bind (only_storeContent content) executed with
    ⟨back, stored, middle, outcome, tables, caches, rest⟩
  simp only [callKeepsCounts, contentStored, outcome, Option.any_some]
  cases stored with
  | error status =>
      rw [after_eq_of_execute_ret rest, tables]
      simp [Except.isOk, Except.toBool, balanced]
  | ok done =>
      simp only [Except.isOk, Except.toBool, Bool.not_true, Bool.false_or, decide_eq_true_eq]
      generalize setup.sha256Hex content = sha256 at *
      generalize Api.toInt64 content.length = size at *
      have objects : (middle.tables.gain sha256 size).objects = world.tables.objects := by
        rw [tables]
        rfl
      have exchanged := @surplus_exchanged setup world
        { middle with tables := middle.tables.gain sha256 size } bucketId
        ⟨key, sha256, size, contentType, wholeEtag sha256⟩ objects
        (found_congr bucketId key objects caches)
        (by
          intro other different
          rw [← tables]
          exact Tables.refCount_gain_of_ne size different)
      have kept : (upserted setup bucketId ⟨key, sha256, size, contentType, wholeEtag sha256⟩
          (dropped setup bucketId key sha256
            { middle with tables := middle.tables.gain sha256 size })).Balanced ↔
          overwritten setup bucketId key world = replaced setup bucketId key sha256 world := by
        apply Tables.balanced_iff_eq balanced
        intro casKey
        have gained := @Tables.surplus_gain middle.tables sha256 size casKey
        have step := exchanged casKey
        have same : middle.tables.surplus casKey = world.tables.surplus casKey := by rw [tables]
        dsimp only at step
        omega
      apply Serves.of_execute _ rest
      apply serves_registerCasBlob
      apply serves_dropReplaced
      intro found
      apply serves_putObject
      · intro registered notHidden
        exact kept
      · intro hidden status
        exact kept

theorem balanced_deleteObject {bucketId : Int} {key : Bytes} {value : Result Unit}
    {after : World} (balanced : world.tables.Balanced)
    (executed : Program.execute (serviceAnswer setup process shownId)
      (ObjectService.deleteObject bucketId key) choices world = some (value, after)) :
    after.tables.Balanced ↔ callKeepsCounts setup process world shownId choices
      (.deleteObject bucketId key) = true := by
  unfold ObjectService.deleteObject ObjectService.headObject at executed
  apply Serves.of_execute _ executed
  apply serves_getObject
  · intro isFound message caches _
    exact iff_of_true balanced (by simp [callKeepsCounts, isFound])
  · intro info isFound caches _
    apply serves_deleteObject
    · intro absent status
      exact iff_of_true balanced (by simp [callKeepsCounts, isFound, absent])
    · intro row stored
      rw [← Program.bind_ret (decrementRefCount info.sha256Hash)]
      apply serves_decrementRefCount
      intro answered
      have atEntry : world.tables.objects.lookup (bucketId, setup.indexed key) = some row :=
        (Option.filter_eq_some_iff.mp stored).1
      have positive := balanced.refCount_pos atEntry
      have kept : ((world.tables.apply (.object (bucketId, setup.indexed key) none)).lose
          info.sha256Hash).Balanced ↔
            some row.casKey = world.tables.lowered info.sha256Hash := by
        apply Tables.balanced_iff_eq balanced
        intro casKey
        have removed := @Tables.surplus_object world.tables (bucketId, setup.indexed key) none casKey
        have lost := @Tables.surplus_lose
          (world.tables.apply (.object (bucketId, setup.indexed key) none)) info.sha256Hash casKey
        have same : (world.tables.apply (.object (bucketId, setup.indexed key) none)).lowered
            info.sha256Hash = world.tables.lowered info.sha256Hash := rfl
        rw [atEntry, Option.map_none, Option.map_some, refersTo_none] at removed
        rw [same] at lost
        omega
      refine Iff.trans kept ?_
      simp only [callKeepsCounts, isFound, stored, decide_eq_true_eq]
      unfold Tables.lowered
      constructor
      · intro same
        split at same
        · exact (Option.some.inj same).symm
        · cases same
      · intro same
        rw [same, if_pos positive]

theorem balanced_copyObject {srcBucketId dstBucketId : Int} {srcKey dstKey : Bytes}
    {value : Result Bytes} {after : World} (balanced : world.tables.Balanced)
    (executed : Program.execute (serviceAnswer setup process shownId)
      (ObjectService.copyObject srcBucketId srcKey dstBucketId dstKey) choices world =
        some (value, after)) :
    after.tables.Balanced ↔ callKeepsCounts setup process world shownId choices
      (.copyObject srcBucketId srcKey dstBucketId dstKey) = true := by
  unfold ObjectService.copyObject ObjectService.headObject at executed
  apply Serves.of_execute _ executed
  apply serves_getObject
  · intro isFound message caches _
    exact iff_of_true balanced (by simp [callKeepsCounts, isFound])
  · intro src isFound caches alike
    simp only [callKeepsCounts, isFound]
    have exchanged := @surplus_exchanged setup world { world with caches } dstBucketId
      ⟨dstKey, src.sha256Hash, src.size, src.contentType, src.etag⟩ rfl
      (alike dstBucketId dstKey) fun _ _ => rfl
    have sameHidden : Hidden setup shownId dstBucketId dstKey
        (dropped setup dstBucketId dstKey src.sha256Hash { world with caches }) ↔
        Hidden setup shownId dstBucketId dstKey world.tables := by
      unfold Hidden
      rw [objects_dropped]
    apply serves_dropReplaced
    intro again
    dsimp only at exchanged
    generalize dropped setup dstBucketId dstKey src.sha256Hash { world with caches } = tables at *
    apply serves_putObject
    · intro registered notHidden
      have shown : ¬Hidden setup shownId dstBucketId dstKey world.tables :=
        fun hidden => notHidden (sameHidden.mpr hidden)
      have stillRegistered : ((upserted setup dstBucketId
          ⟨dstKey, src.sha256Hash, src.size, src.contentType, src.etag⟩ tables).casBlobs.lookup
            src.sha256Hash).isSome = true := registered
      apply serves_incrementRefCount stillRegistered
      intro answered
      have kept : ((upserted setup dstBucketId
          ⟨dstKey, src.sha256Hash, src.size, src.contentType, src.etag⟩ tables).gain
            src.sha256Hash 0).Balanced ↔ overwritten setup dstBucketId dstKey world =
              replaced setup dstBucketId dstKey src.sha256Hash world := by
        apply Tables.balanced_iff_eq balanced
        intro casKey
        have gained := @Tables.surplus_gain (upserted setup dstBucketId
          ⟨dstKey, src.sha256Hash, src.size, src.contentType, src.etag⟩ tables)
          src.sha256Hash 0 casKey
        have step := exchanged casKey
        omega
      simp only [if_neg shown, decide_eq_true_eq]
      cases answered with
      | error status => exact kept
      | ok done => exact kept
    · intro isHidden status
      simp only [if_pos (sameHidden.mp isHidden), decide_eq_true_eq]
      exact Tables.balanced_iff_only balanced exchanged

theorem balanced_initiateMultipartUpload {bucketId : Int} {key contentType : Bytes}
    {value : Result Bytes} {after : World} (balanced : world.tables.Balanced)
    (executed : Program.execute (serviceAnswer setup process shownId)
      (MultipartService.initiateMultipartUpload bucketId key contentType) choices world =
        some (value, after)) : after.tables.Balanced := by
  unfold MultipartService.initiateMultipartUpload at executed
  have outside : ∀ {op : IoOp}, Outside op → Program.Only Outside (fun _ => True) (perform op) :=
    fun outside => ⟨outside, fun _ => trivial⟩
  rcases execute_io_bind (@outside .generateUuid fun _ => nofun) executed with
    ⟨back, uploadId, middle, -, sameTables, -, later⟩
  rcases execute_io_bind (@outside .now fun _ => nofun) later with
    ⟨last, now, reached, -, stillSame, -, rest⟩
  apply Serves.of_execute _ rest
  rw [← Program.bind_ret (metaCall _)]
  apply serves_metaCall
  rintro answered tables caches ⟨-, created⟩
  have unchanged : reached.tables = world.tables := stillSame.trans sameTables
  cases answered with
  | error status =>
      rw [created, unchanged]
      exact balanced
  | ok made =>
      rw [created, unchanged]
      apply Tables.balanced_iff.mpr
      intro casKey
      rw [Tables.surplus_congr rfl rfl rfl]
      exact Tables.balanced_iff.mp balanced casKey

/-- Looking an upload up changes nothing. -/
theorem execute_getMultipartUpload {α : Type} {uploadId : Bytes}
    {next : Result MultipartUploadInfo → ServiceM α} {ended : α × World}
    (executed : Program.execute (serviceAnswer setup process shownId)
      (metaCall (.getMultipartUpload uploadId) >>= next) choices world = some ended) :
    (∃ message, world.tables.multipartUploads.lookup uploadId = none ∧
      Program.execute (serviceAnswer setup process shownId)
        (next (.err .NoSuchUpload message)) (choices.drop 1) world = some ended) ∨
    ∃ row, world.tables.multipartUploads.lookup uploadId = some row ∧
      Program.execute (serviceAnswer setup process shownId)
        (next (.ok (row.read uploadId))) (choices.drop 1) world = some ended := by
  rcases execute_metaCall executed with ⟨answered, tables, caches, effect, rest⟩
  rcases effect with ⟨rfl, rfl, ⟨⟨⟩, -⟩ | answers⟩
  cases stored : world.tables.multipartUploads.lookup uploadId with
  | none =>
      rw [stored] at answers
      rcases answers with ⟨message, rfl⟩
      exact .inl ⟨message, rfl, rest⟩
  | some row =>
      rw [stored] at answers
      cases answers
      exact .inr ⟨row, rfl, rest⟩

/-- Neither does listing its parts. -/
theorem execute_listParts {α : Type} {uploadId : Bytes}
    {next : Result ListPartsResult → ServiceM α} {ended : α × World}
    (executed : Program.execute (serviceAnswer setup process shownId)
      (metaCall (.listParts uploadId 0 1000) >>= next) choices world = some ended) :
    ∃ listed, listed.parts = toldParts uploadId world.tables ∧
      Program.execute (serviceAnswer setup process shownId) (next (.ok listed))
        (choices.drop 1) world = some ended := by
  rcases execute_metaCall executed with ⟨answered, tables, caches, effect, rest⟩
  rcases effect with ⟨rfl, rfl, ⟨⟨⟩, -⟩ | ⟨listed, rfl, parts⟩⟩
  exact ⟨listed, parts, rest⟩

theorem balanced_uploadPart {uploadId : Bytes} {partNumber : Int} {content : Bytes}
    {value : Result Bytes} {after : World} (balanced : world.tables.Balanced)
    (executed : Program.execute (serviceAnswer setup process shownId)
      (MultipartService.uploadPart setup uploadId partNumber content) choices world =
        some (value, after)) :
    after.tables.Balanced ↔ callKeepsCounts setup process world shownId choices
      (.uploadPart uploadId partNumber content) = true := by
  unfold MultipartService.uploadPart at executed
  simp only [callKeepsCounts]
  rcases execute_getMultipartUpload executed with ⟨message, absent, rest⟩ | ⟨row, present, rest⟩
  · rw [after_eq_of_execute_ret rest]
    exact iff_of_true balanced (by simp [absent])
  · dsimp only at rest
    by_cases range : partNumber < 1 ∨ partNumber > 10000
    · rw [if_pos range] at rest
      rw [after_eq_of_execute_ret rest]
      refine iff_of_true balanced ?_
      have outOfRange : ¬(1 ≤ partNumber ∧ partNumber ≤ 10000) := by omega
      simp [outOfRange]
    · rw [if_neg range] at rest
      have inRange : 1 ≤ partNumber ∧ partNumber ≤ 10000 := by omega
      rcases execute_io_bind (only_storeContent content) rest with
        ⟨back, stored, middle, outcome, tables, caches, last⟩
      simp only [contentStored, outcome, present, inRange, Option.any_some, Option.isSome_some,
        and_self, decide_true, Bool.true_and]
      cases stored with
      | error status =>
          rw [after_eq_of_execute_ret last, tables]
          simp [Except.isOk, Except.toBool, balanced]
      | ok done =>
          simp only [Except.isOk, Except.toBool, Bool.not_true, Bool.false_or, decide_eq_true_eq]
          generalize setup.sha256Hex content = sha256 at *
          generalize Api.toInt64 content.length = size at *
          have kept : ((middle.tables.gain sha256 size).apply (.part (uploadId, partNumber)
              (some ⟨sha256, size, wholeEtag sha256⟩))).Balanced ↔
              (world.tables.multipartParts.lookup (uploadId, partNumber)).map PartRow.casKey =
                none := by
            rw [tables]
            apply Tables.balanced_iff_eq balanced
            intro casKey
            have gained := @Tables.surplus_gain world.tables sha256 size casKey
            have written := @Tables.surplus_part (world.tables.gain sha256 size)
              (uploadId, partNumber) (some ⟨sha256, size, wholeEtag sha256⟩) casKey
            have parts : (world.tables.gain sha256 size).multipartParts =
                world.tables.multipartParts := rfl
            rw [parts, Option.map_some] at written
            rw [refersTo_none]
            dsimp only at written
            omega
          rw [Option.map_eq_none_iff] at kept
          apply Serves.of_execute _ last
          apply serves_registerCasBlob
          apply serves_createOrUpdatePart
          intro uploadPresent
          exact kept

/-- What follows the merge takes away the references of the object that is overwritten and of the
parts, and lowers no counter. -/
theorem serves_completeWith {uploadId sha256 : Bytes} {row : UploadRow} {totalSize : Int}
    (balanced : world.tables.Balanced)
    (present : world.tables.multipartUploads.lookup uploadId = some row) :
    Serves setup process shownId
      (fun _ after => after.tables.Balanced ↔
        overwritten setup row.bucketId row.objectKey.cString world = none ∧
          world.tables.heldBy uploadId = [])
      (MultipartService.completeWith uploadId (row.read uploadId) totalSize sha256) world := by
  have gained := @Tables.surplus_gain world.tables sha256 totalSize
  have written := @surplus_upserted setup world row.bucketId
    ⟨row.objectKey.cString, sha256, totalSize, row.contentType.cString, wholeEtag sha256⟩
    (world.tables.gain sha256 totalSize) rfl
  have samePart : (upserted setup row.bucketId
      ⟨row.objectKey.cString, sha256, totalSize, row.contentType.cString, wholeEtag sha256⟩
      (world.tables.gain sha256 totalSize)).heldBy uploadId = world.tables.heldBy uploadId := rfl
  have stillPresent : (upserted setup row.bucketId
      ⟨row.objectKey.cString, sha256, totalSize, row.contentType.cString, wholeEtag sha256⟩
      (world.tables.gain sha256 totalSize)).multipartUploads.lookup uploadId = some row := present
  dsimp only at written
  unfold MultipartService.completeWith
  apply serves_registerCasBlob
  apply serves_putObject
  · intro registered notHidden
    dsimp only [UploadRow.read]
    generalize upserted setup row.bucketId _ (world.tables.gain sha256 totalSize) = tables at *
    apply serves_metaCall
    rintro answered removed caches ⟨-, answers, rfl⟩
    rcases answers with ⟨⟨⟩, -⟩ | answers
    rw [stillPresent] at answers
    cases answers
    apply Tables.balanced_iff_none balanced
    intro casKey
    have released := @Tables.surplus_removeUpload tables uploadId casKey
    have gains := gained casKey
    have upserts := written casKey
    rw [samePart] at released
    change (tables.removeUpload uploadId).surplus casKey = _
    omega
  · rintro ⟨-, other, atEntry, -⟩ status
    have isOverwritten : overwritten setup row.bucketId row.objectKey.cString world =
        some other.casKey := by
      rw [UploadRow.read_bucketId, UploadRow.read_key] at atEntry
      rw [overwritten, show world.tables.objects.lookup _ = some other from atEntry]
      rfl
    change Tables.Balanced (upserted setup row.bucketId
      ⟨row.objectKey.cString, sha256, totalSize, row.contentType.cString, wholeEtag sha256⟩
      (world.tables.gain sha256 totalSize)) ↔ _
    generalize upserted setup row.bucketId _ (world.tables.gain sha256 totalSize) = tables at *
    have tooHigh : tables.Balanced ↔
        overwritten setup row.bucketId row.objectKey.cString world = none ∧ ([] : List Bytes) = [] := by
      apply Tables.balanced_iff_none balanced
      intro casKey
      have gains := gained casKey
      have upserts := written casKey
      rw [List.count_nil]
      omega
    rw [isOverwritten] at tooHigh ⊢
    simpa using tooHigh

theorem balanced_completeMultipartUpload {uploadId : Bytes} {parts : List (Int × Bytes)}
    {value : Result Bytes} {after : World} (balanced : world.tables.Balanced)
    (executed : Program.execute (serviceAnswer setup process shownId)
      (MultipartService.completeMultipartUpload setup uploadId parts) choices world =
        some (value, after)) :
    after.tables.Balanced ↔ callKeepsCounts setup process world shownId choices
      (.completeMultipartUpload uploadId parts) = true := by
  unfold MultipartService.completeMultipartUpload at executed
  simp only [callKeepsCounts]
  rcases execute_getMultipartUpload executed with ⟨message, absent, rest⟩ | ⟨row, present, rest⟩
  · rw [after_eq_of_execute_ret rest]
    exact iff_of_true balanced (by simp [absent])
  · rw [present]
    rcases execute_listParts rest with ⟨listed, told, rest⟩
    dsimp only at rest
    rw [told] at rest
    unfold partsMerged
    by_cases sameCount : parts.length ≠ (toldParts uploadId world.tables).length
    · rw [if_pos sameCount] at rest
      rw [after_eq_of_execute_ret rest]
      refine iff_of_true balanced ?_
      dsimp only
      split <;> simp [sameCount]
    · rw [if_neg sameCount] at rest
      rw [ne_eq, not_not] at sameCount
      cases blobs : MultipartService.partBlobs (toldParts uploadId world.tables) parts with
      | error status =>
          rw [blobs] at rest
          rw [after_eq_of_execute_ret rest]
          exact iff_of_true balanced (by simp)
      | ok casKeys =>
          rw [blobs] at rest
          rcases execute_io_bind (only_merge casKeys) rest with
            ⟨back, merged, middle, outcome, tables, caches, last⟩
          rw [List.drop_drop] at outcome
          simp only [sameCount, outcome, Option.any_some, decide_true, Bool.true_and]
          cases merged with
          | error status =>
              rw [after_eq_of_execute_ret last, tables]
              simp [Except.isOk, Except.toBool, balanced]
          | ok sha256 =>
              simp only [Except.isOk, Except.toBool, Bool.not_true, Bool.false_or,
                decide_eq_true_eq]
              have completes := @serves_completeWith setup process shownId middle uploadId sha256
                row ((toldParts uploadId world.tables).map MultipartPartInfo.size).sum
                (by rw [tables]; exact balanced) (by rw [tables]; exact present)
              unfold overwritten at completes ⊢
              rw [tables] at completes
              exact completes.of_execute last

/-- The blobs of the parts that are seen, in the order of the parts. -/
def seenBlobs (uploadId : Bytes) (tables : Tables) : List Bytes :=
  (toldParts uploadId tables).map MultipartPartInfo.sha256Hash

/-- The parts that are seen are some of the parts. -/
theorem subperm_seenParts (uploadId : Bytes) (tables : Tables) :
    (seenParts uploadId tables).Subperm (tables.partsOf uploadId) := by
  unfold seenParts Tables.listedParts
  rw [List.take_take]
  have sorted := List.perm_insertionSort (fun one two : Int × PartRow => one.1 ≤ two.1)
    ((tables.partsOf uploadId).filter fun part => (0 : Int) < part.1)
  exact (List.take_sublist _ _).subperm.trans
    (sorted.subperm.trans List.filter_sublist.subperm)

theorem subperm_seenBlobs (uploadId : Bytes) (tables : Tables) :
    (seenBlobs uploadId tables).Subperm (tables.heldBy uploadId) := by
  rcases subperm_seenParts uploadId tables with ⟨some, perm, part⟩
  unfold seenBlobs toldParts
  rw [List.map_map]
  exact ⟨some.map fun part => part.2.casKey, perm.map _, part.map _⟩

theorem serves_dropParts {α : Type} {post : α → World → Prop} {casKeys : List Bytes}
    {next : Unit → ServiceM α}
    (continues : Serves setup process shownId post (next ())
      { world with tables := world.tables.loseAll casKeys }) :
    Serves setup process shownId post (MultipartService.dropParts casKeys >>= next) world := by
  induction casKeys generalizing world with
  | nil => exact continues
  | cons casKey casKeys inductionHypothesis =>
      unfold MultipartService.dropParts
      rw [Program.bind_assoc]
      apply serves_decrementRefCount
      intro answered
      exact inductionHypothesis continues

theorem balanced_abortMultipartUpload {uploadId : Bytes} {value : Result Unit} {after : World}
    (balanced : world.tables.Balanced)
    (executed : Program.execute (serviceAnswer setup process shownId)
      (MultipartService.abortMultipartUpload uploadId) choices world = some (value, after)) :
    after.tables.Balanced ↔ callKeepsCounts setup process world shownId choices
      (.abortMultipartUpload uploadId) = true := by
  unfold MultipartService.abortMultipartUpload at executed
  rcases execute_listParts executed with ⟨listed, told, rest⟩
  dsimp only at rest
  rw [told] at rest
  have blobs := subperm_seenBlobs uploadId world.tables
  have enough : ∀ casKey, (seenBlobs uploadId world.tables).count casKey ≤
      world.tables.refCount casKey := by
    intro casKey
    have seen := blobs.count_le casKey
    have counted := balanced casKey
    have held := Tables.partRefs_eq uploadId world.tables casKey
    omega
  have lowered := Tables.surplus_loseAll enough
  rcases Tables.uploads_loseAll (seenBlobs uploadId world.tables) world.tables with
    ⟨parts, uploads⟩
  have sameHeld : (world.tables.loseAll (seenBlobs uploadId world.tables)).heldBy uploadId =
      world.tables.heldBy uploadId := by
    unfold Tables.heldBy Tables.partsOf
    rw [parts]
  have seenLength : (seenBlobs uploadId world.tables).length =
      (seenParts uploadId world.tables).length := by
    unfold seenBlobs toldParts
    rw [List.length_map, List.length_map]
  apply Serves.of_execute _ rest
  apply serves_dropParts
  change Serves setup process shownId _ _
    { world with tables := world.tables.loseAll (seenBlobs uploadId world.tables) }
  generalize world.tables.loseAll (seenBlobs uploadId world.tables) = tables at *
  rw [← Program.bind_ret (metaCall _)]
  apply serves_metaCall
  rintro answered removed caches ⟨-, answers, rfl⟩
  rcases answers with ⟨⟨⟩, -⟩ | answers
  dsimp only at answers
  rw [uploads] at answers
  simp only [callKeepsCounts]
  cases stored : world.tables.multipartUploads.lookup uploadId with
  | none =>
      rw [stored] at answers
      rcases answers with ⟨message, rfl⟩
      have kept : tables.Balanced ↔ ([] : List Bytes).Perm (seenBlobs uploadId world.tables) :=
        Tables.balanced_iff_perm balanced fun casKey => by
          rw [lowered casKey, List.count_nil, Nat.cast_zero, add_zero]
      rw [List.nil_perm, ← List.length_eq_zero_iff, seenLength, List.length_eq_zero_iff] at kept
      refine Iff.trans kept ?_
      simp
  | some row =>
      rw [stored] at answers
      cases answers
      have kept : (tables.removeUpload uploadId).Balanced ↔
          (world.tables.heldBy uploadId).Perm (seenBlobs uploadId world.tables) := by
        apply Tables.balanced_iff_perm balanced
        intro casKey
        have released := @Tables.surplus_removeUpload tables uploadId casKey
        have lost := lowered casKey
        rw [sameHeld] at released
        omega
      have all : (world.tables.heldBy uploadId).Perm (seenBlobs uploadId world.tables) ↔
          (seenParts uploadId world.tables).length = (world.tables.partsOf uploadId).length := by
        rw [← seenLength, ← List.length_map (fun part : Int × PartRow => part.2.casKey)]
        constructor
        · intro perm
          exact perm.length_eq.symm
        · intro sameLength
          exact (blobs.perm_of_length_le (Nat.le_of_eq sameLength.symm)).symm
      refine Iff.trans kept (all.trans ?_)
      simp

end Calls

/-! ## Runs -/

section Runs

variable {setup : Setup} {process : Nat}

theorem exists_execute_of_served {α : Type} {program : ServiceM α} {shownId : Nat}
    {choices : List Choice} {world after : World}
    (step : served setup process program shownId choices world = some after) :
    ∃ value, Program.execute (serviceAnswer setup process shownId) program choices world =
      some (value, after) := by
  rcases Option.map_eq_some_iff.mp step with ⟨⟨value, reached⟩, executed, rfl⟩
  exact ⟨value, executed⟩

/-- A step from exact counters leaves them exact exactly if it meets its condition. -/
theorem balanced_nextServed {world after : World} {step : ServiceStep}
    (balanced : world.tables.Balanced)
    (performed : nextServed setup process world step = some after) :
    after.tables.Balanced ↔ keepsCounts setup process world step = true := by
  cases step with
  | expire bucketId key =>
      cases performed
      exact iff_of_true balanced rfl
  | call call shownId choices =>
      cases call with
      | putObject bucketId key content contentType =>
          rcases exists_execute_of_served performed with ⟨value, executed⟩
          exact balanced_putObject balanced executed
      | deleteObject bucketId key =>
          rcases exists_execute_of_served performed with ⟨value, executed⟩
          exact balanced_deleteObject balanced executed
      | copyObject srcBucketId srcKey dstBucketId dstKey =>
          rcases exists_execute_of_served performed with ⟨value, executed⟩
          exact balanced_copyObject balanced executed
      | initiateMultipartUpload bucketId key contentType =>
          rcases exists_execute_of_served performed with ⟨value, executed⟩
          exact iff_of_true (balanced_initiateMultipartUpload balanced executed) rfl
      | uploadPart uploadId partNumber content =>
          rcases exists_execute_of_served performed with ⟨value, executed⟩
          exact balanced_uploadPart balanced executed
      | completeMultipartUpload uploadId parts =>
          rcases exists_execute_of_served performed with ⟨value, executed⟩
          exact balanced_completeMultipartUpload balanced executed
      | abortMultipartUpload uploadId =>
          rcases exists_execute_of_served performed with ⟨value, executed⟩
          exact balanced_abortMultipartUpload balanced executed

/-- Counters that are exact before a run of whole calls are exact after each of them exactly if
each call meets its condition. -/
theorem counts_stay_exact_iff {source target : World} {steps : List ServiceStep}
    (balanced : source.tables.Balanced)
    (performed : run (nextServed setup process) source steps = some target) :
    (∀ world, Visits (nextServed setup process) source steps world → world.tables.Balanced) ↔
      ∀ world step, Takes (nextServed setup process) source steps world step →
        keepsCounts setup process world step = true := by
  have avoided := good_iff_avoids performed (fun world => world.tables.Balanced)
    (fun world => world.tables.Balanced) (fun world step => !keepsCounts setup process world step)
    balanced (fun _ kept => kept)
    (by
      intro world step after before stepped spared
      rw [Bool.not_eq_false'] at spared
      exact (balanced_nextServed before stepped).mpr spared)
    (by
      intro world step after before stepped broken exactAfter
      rw [(balanced_nextServed before stepped).mp exactAfter] at broken
      cases broken)
  simpa only [Bool.not_eq_false'] using avoided

end Runs

/-! ## Two runs -/

/-- A server with one bucket. -/
def oneBucket : World :=
  { World.empty with tables := Tables.empty.apply (.bucket 1 (some (ascii "b"))) }

/-- The calls that write a content of this length. -/
def writesContent (length : Nat) : List Choice :=
  [.done, .uuid DataStore.sampleUuid, .done, .count length, .done, .done, .done]

/-- A call of the metadata store that succeeds. -/
def succeeds : Choice :=
  .sql [] ⟨0, 0⟩

/-- An object of one byte. -/
def putByte : ServiceStep :=
  .call (.putObject 1 (ascii "k") (ascii "a") []) 0 (writesContent 1 ++ [.done, succeeds, .done])

/-- The object is copied, and an upload of one part is begun and given up. -/
def evenSteps : List ServiceStep :=
  [putByte,
    .call (.copyObject 1 (ascii "k") 1 (ascii "l")) 0 [succeeds, succeeds, .done, .done],
    .call (.initiateMultipartUpload 1 (ascii "k") []) 0
      [.uuid DataStore.sampleUuid, .time 0, succeeds],
    .call (.uploadPart DataStore.sampleUuid 1 (ascii "ab")) 0
      (succeeds :: writesContent 2 ++ [.done, .done]),
    .call (.abortMultipartUpload DataStore.sampleUuid) 0 [succeeds, .done, succeeds],
    .call (.deleteObject 1 (ascii "k")) 0 [succeeds, .done, .done]]

theorem balanced_oneBucket : oneBucket.tables.Balanced :=
  fun _ => rfl

theorem counts_stay_exact_sample :
    ∃ target, run (nextServed DataStore.sampleSetup 0) oneBucket evenSteps = some target ∧
      ∀ world, Visits (nextServed DataStore.sampleSetup 0) oneBucket evenSteps world →
        world.tables.Balanced := by
  have performed : (run (fun world step =>
      if keepsCounts DataStore.sampleSetup 0 world step then
        nextServed DataStore.sampleSetup 0 world step else none) oneBucket evenSteps).isSome =
          true := by
    decide +kernel
  rcases Option.isSome_iff_exists.mp performed with ⟨target, checked⟩
  rcases run_checked checked with ⟨whole, passed⟩
  exact ⟨target, whole, (counts_stay_exact_iff balanced_oneBucket whole).mpr passed⟩

/-- Putting an object again with its own content raises the counter of its blob a second time. -/
theorem putting_again_counts_twice :
    ¬ ∀ (setup : Setup) (process : Nat) (source target : World) (steps : List ServiceStep),
      source.tables.Balanced → run (nextServed setup process) source steps = some target →
        ∀ world, Visits (nextServed setup process) source steps world →
          world.tables.Balanced := by
  intro exactAlways
  have counted : (run (nextServed DataStore.sampleSetup 0) oneBucket
      [putByte, .call (.putObject 1 (ascii "k") (ascii "a") []) 1
        [.done, .done, succeeds, succeeds, .done]]).any (fun target =>
          decide (target.tables.refCount (DataStore.sampleSetup.sha256Hex (ascii "a")) = 2 ∧
            target.tables.objectRefs (DataStore.sampleSetup.sha256Hex (ascii "a")) = 1 ∧
            target.tables.partRefs (DataStore.sampleSetup.sha256Hex (ascii "a")) = 0)) = true := by
    decide +kernel
  rcases (Option.any_eq_true _ _).mp counted with ⟨target, performed, counts⟩
  rw [decide_eq_true_eq] at counts
  rcases counts with ⟨counter, objects, parts⟩
  have balanced := exactAlways _ _ _ target _ balanced_oneBucket performed target
    ⟨_, List.prefix_refl _, performed⟩ (DataStore.sampleSetup.sha256Hex (ascii "a"))
  rw [counter, objects, parts] at balanced
  cases balanced

end MiniS3.Service
