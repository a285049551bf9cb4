import MiniS3.Db.Atomicity
import MiniS3.Service.ObjectMap
import MiniS3.Service.RefCounts
import MiniS3.Storage.Commit

/-!
# The object service is a map

Every call of `ObjectService` on tables and files that hold a map is answered as the map answers
it, and leaves tables and files that hold what the map has become.  So a caller that sees only
answers cannot tell the service from the map, in any run.
-/

namespace MiniS3.ObjectService

open Lib Db Service

/-! ## Storing a content -/

section Storing

variable {setup : Setup} {process : Nat} {allowed : IoOp → Choice → Bool} {content : Bytes}

/-- The files of blobs are the same. -/
def SameBlobs (setup : Setup) (before after : World) : Prop :=
  ∀ casKey, after.files.lookup (setup.getCasPath casKey) =
    before.files.lookup (setup.getCasPath casKey)

theorem SameBlobs.refl (world : World) : SameBlobs setup world world :=
  fun _ => rfl

theorem SameBlobs.trans {first second third : World} (one : SameBlobs setup first second)
    (two : SameBlobs setup second third) : SameBlobs setup first third :=
  fun casKey => (two casKey).trans (one casKey)

theorem SameBlobs.of_elsewhere {directory uuid : Bytes} {before after : World}
    (elsewhere : Elsewhere (setup.tmpPath directory uuid) before after) :
    SameBlobs setup before after :=
  fun casKey => elsewhere _ (setup.getCasPath_ne_tmpPath casKey directory uuid)

/-- What storing a content leads to: its blob is there, as it was if it was there before, and the
other blobs are the same; or a storage error, and all blobs are the same. -/
structure StoredAs (setup : Setup) {α : Type} (content : Bytes) (before : World)
    (result : Result α) (after : World) : Prop where
  stored : result.isOk = true → ∀ casKey,
    after.files.lookup (setup.getCasPath casKey) =
      if setup.getCasPath casKey = setup.getCasPath (setup.sha256Hex content) then
        some ((before.files.lookup (setup.getCasPath casKey)).getD content)
      else before.files.lookup (setup.getCasPath casKey)
  failed : ∀ status, result = .error status →
    SameBlobs setup before after ∧ ∃ message, result = .err .StorageError message

theorem StoredAs.of_same {α : Type} {result : Result α} {before middle after : World}
    (same : SameBlobs setup before middle) (storedAs : StoredAs setup content middle result after) :
    StoredAs setup content before result after := by
  constructor
  · intro isOk casKey
    rw [storedAs.stored isOk casKey, same casKey]
  · intro status failure
    obtain ⟨later, message⟩ := storedAs.failed status failure
    exact ⟨same.trans later, message⟩

theorem StoredAs.error {α : Type} {message : Bytes} {before after : World}
    (same : SameBlobs setup before after) :
    StoredAs setup content before (.err .StorageError message : Result α) after :=
  ⟨nofun, fun _ _ => ⟨same, message, rfl⟩⟩

/-- A blob that is there is stored. -/
theorem StoredAs.present {α : Type} {value : α} {before after : World}
    (same : SameBlobs setup before after)
    (there : (before.files.lookup
      (setup.getCasPath (setup.sha256Hex content))).isSome = true) :
    StoredAs setup content before (.ok value : Result α) after := by
  refine ⟨fun _ casKey => ?_, nofun⟩
  rw [same casKey]
  split_ifs with isBlob
  · rw [isBlob]
    obtain ⟨held, lookup⟩ := Option.isSome_iff_exists.mp there
    rw [lookup]
    rfl
  · rfl

/-- Removing a temporary file, whether it succeeds or not. -/
theorem leads_removeTmp {α : Type} {post : α → World → Prop} {directory uuid : Bytes}
    {world : World} {next : Except IoError Unit → ServerM α}
    (continues : ∀ answered after, SameBlobs setup world after →
      Leads setup process allowed post (next answered) after) :
    Leads setup process allowed post (.call (.removeFile (setup.tmpPath directory uuid)) next)
      world :=
  leads_removeFile (continues _ _ (.of_elsewhere (world.elsewhere_dropFile _)))
    fun _ _ => continues _ _ (.refl world)

theorem leads_place_stored {directory uuid : Bytes} {world : World}
    (complete : world.files.lookup (setup.tmpPath directory uuid) = some content) :
    Leads setup process allowed (StoredAs setup content world)
      (DataStore.place setup (setup.tmpPath directory uuid) (setup.sha256Hex content)) world := by
  refine leads_fileExists ?_
  cases present : world.files.lookup (setup.getCasPath (setup.sha256Hex content)) with
  | some held =>
      refine leads_removeTmp fun _ after same => ?_
      exact .present same (by rw [present]; rfl)
  | none =>
      refine leads_createDirectories ?_ fun text => leads_removeTmp fun _ _ same => .error same
      refine leads_atomicRename ?_ fun text _ => leads_removeTmp fun _ _ same => .error same
      intro moved isMoved
      obtain rfl := Option.some.inj (complete.symm.trans isMoved)
      refine ⟨fun _ casKey => ?_, nofun⟩
      rw [World.lookup_moveFile complete, if_neg (setup.getCasPath_ne_tmpPath _ _ _)]
      split_ifs with isBlob
      · rw [isBlob, present]
        rfl
      · rfl

theorem leads_write_stored (world : World) :
    Leads setup process allowed (StoredAs setup content world) (DataStore.write setup content)
      world := by
  refine leads_generateUuid fun uuid _ => leads_openNew ?_ fun text => .error (.refl world)
  intro _ makers
  have opened : SameBlobs setup world
      { world with files := world.files.set (setup.tmpPath (ascii "upload") uuid) [], makers } :=
    fun casKey => Table.lookup_set_ne _ _ (setup.getCasPath_ne_tmpPath _ _ _)
  change Leads setup process allowed _ (WriteSession.write content _ >>= _) _
  unfold WriteSession.write
  rw [Program.bind_assoc]
  refine DataStore.leads_writeAll (Nat.le_refl _) (Table.lookup_set_self _ _ _) ?_ ?_
  · intro after elsewhere written
    have same := opened.trans (.of_elsewhere elsewhere)
    exact (leads_place_stored written).mono fun _ _ storedAs => storedAs.of_same same
  · intro text after elsewhere
    have same := opened.trans (.of_elsewhere elsewhere)
    exact leads_removeTmp fun _ _ removed => .error (same.trans removed)

theorem leads_storeContent (world : World) :
    Leads setup process allowed (StoredAs setup content world) (storeContent setup content)
      world := by
  refine leads_fileExists ?_
  cases present : (world.files.lookup (setup.getCasPath (setup.sha256Hex content))).isSome with
  | true => exact .present (.refl world) present
  | false =>
      change Leads setup process allowed _ (DataStore.write setup content >>= _) world
      apply Program.ensures_bind.mpr
      refine (leads_write_stored world).mono fun result after storedAs => ?_
      cases result with
      | error status =>
          obtain ⟨same, message, isError⟩ := storedAs.failed status rfl
          obtain rfl := Except.error.inj isError
          exact .error same
      | ok casKey => exact ⟨fun _ => storedAs.stored rfl, nofun⟩

end Storing

/-! ## Calls without a Redis cache -/

section Uncached

variable {setup : Setup} {process shownId : Nat} {α β : Type} {world : World}

/-- A call of the metadata store makes no cache. -/
theorem uncached_perform (call : MetaCall) {indexed : Bytes → Bytes}
    (faults : List (Option SqlError)) (clock : Clock) (tables : Tables) {caches : Caches}
    (uncached : caches.redis = none) :
    (call.perform indexed faults clock tables caches).2.2.redis = none := by
  have kept : ∀ {α : Type} (program : MetaM indexed α) (state : Alone),
      state.caches.redis = none →
      (Program.run (Alone.answer indexed) program state).2.caches.redis = none := by
    intro α program
    induction program with
    | ret value => exact fun _ initial => initial
    | call op next inductionHypothesis =>
        intro state initial
        refine inductionHypothesis _ _ ?_
        cases op with
        | begin | rollback => exact initial
        | exec stmt =>
            simp only [Alone.answer]
            split
            · exact initial
            · split
              · exact initial
              · simp only [Alone.write, Alone.advance]
                split <;> exact initial
        | commit =>
            simp only [Alone.answer]
            split <;> exact initial
        | aux op =>
            cases op <;> simp [Alone.answer, Caches.answer, initial]
  exact kept _ _ uncached

theorem uncached_answer {op : IoOp} {choice : Choice} {after : World} {answered : op.Ans}
    (uncached : world.caches.redis = none)
    (step : answer setup process op choice world = some (answered, after)) :
    after.caches.redis = none := by
  cases op with
  | metaStore call =>
      cases choice <;> simp only [answer, reduceCtorEq, Option.some.injEq, Prod.mk.injEq] at step
      obtain ⟨-, rfl⟩ := step
      exact uncached_perform call _ _ world.tables uncached
  | _ =>
      rw [caches_answer (by rintro call ⟨⟩) step]
      exact uncached

/-- The services make no cache. -/
theorem serves_uncached (program : ServiceM α) (uncached : world.caches.redis = none) :
    Serves setup process shownId (fun _ after => after.caches.redis = none) program world := by
  induction program generalizing world with
  | ret value => exact uncached
  | call op next inductionHypothesis =>
      intro choice answered after _ step
      refine inductionHypothesis answered ?_
      cases op with
      | io op =>
          simp only [serviceAnswer, Option.ite_none_right_eq_some] at step
          exact uncached_answer uncached step.2
      | exec stmt =>
          cases choice <;> simp only [serviceAnswer, reduceCtorEq] at step
          split at step
          · cases step
          · cases step
            exact uncached

end Uncached

/-! ## What the tables hold -/

section Holding

variable {setup : Setup} {vocabulary : Vocabulary setup} {map : ObjectMap} {bucketId : Int}
variable {key : Bytes} {tables : Tables} {world : World}

theorem update_entry {entry other : Int × Bytes} (stored : Option StoredObject)
    (different : other ≠ entry) : Function.update map entry stored other = map other :=
  Function.update_of_ne different _ _

/-- What holds of all objects of a map and of the one that it gets, holds of all that it has
then. -/
theorem all_update {property : StoredObject → Prop} {entry : Int × Bytes}
    {changed : Option StoredObject}
    (all : ∀ entry stored, map entry = some stored → property stored)
    (new : ∀ stored, changed = some stored → property stored) :
    ∀ other stored, Function.update map entry changed other = some stored → property stored := by
  intro other stored isStored
  by_cases same : other = entry
  · rw [same, Function.update_self] at isStored
    exact new stored isStored
  · rw [update_entry _ same] at isStored
    exact all other stored isStored

namespace Listed

/-- Statements that change only counters. -/
theorem of_objects {after : Tables} (listed : Listed vocabulary tables map)
    (objects : after.objects = tables.objects)
    (registered : ∀ casKey, (tables.casBlobs.lookup casKey).isSome = true →
      (after.casBlobs.lookup casKey).isSome = true) : Listed vocabulary after map := by
  constructor
  · intro bucketId key member
    rw [objects]
    exact listed.rows bucketId key member
  · exact listed.typed
  · intro entry stored isStored
    exact registered _ (listed.registered entry stored isStored)

theorem gain (listed : Listed vocabulary tables map) (casKey : Bytes) (size : Int) :
    Listed vocabulary (tables.gain casKey size) map := by
  refine listed.of_objects rfl fun other present => ?_
  rw [lookup_gain]
  split_ifs
  · rfl
  · exact present

theorem lose (listed : Listed vocabulary tables map) (casKey : Bytes) :
    Listed vocabulary (tables.lose casKey) map := by
  refine listed.of_objects (Tables.objects_lose _ _) fun other present => ?_
  rw [lookup_lose]
  split_ifs with same
  · rw [Option.isSome_map, ← same]
    exact present
  · exact present

theorem row_at (listed : Listed vocabulary tables map) (member : key ∈ vocabulary.keys)
    {row : ObjectRow}
    (present : tables.objects.lookup (bucketId, setup.indexed key) = some row) :
    row.objectKey = key := by
  rw [listed.rows bucketId key member] at present
  obtain ⟨stored, -, rfl⟩ := Option.map_eq_some_iff.mp present
  rfl

/-- An upsert of a row whose blob is registered. -/
theorem put (listed : Listed vocabulary tables map) (member : key ∈ vocabulary.keys)
    (stored : StoredObject) (typed : stored.contentType ∈ vocabulary.contentTypes)
    (registered : (tables.casBlobs.lookup (setup.sha256Hex stored.content)).isSome = true) :
    Listed vocabulary (upserted setup bucketId (stored.row setup key) tables)
      (Function.update map (bucketId, key) (some stored)) := by
  have row_eq : tables.upserted (bucketId, setup.indexed key) (stored.row setup key) =
      stored.row setup key := by
    unfold Tables.upserted
    cases present : tables.objects.lookup (bucketId, setup.indexed key) with
    | none => rfl
    | some row =>
        rw [Option.elim_some, listed.row_at member present]
        rfl
  constructor
  · intro otherBucket other otherMember
    change (Db.put _ _ tables.objects).lookup _ = _
    rw [show (stored.row setup key).objectKey = key from rfl, row_eq]
    by_cases same : (otherBucket, other) = (bucketId, key)
    · cases same
      rw [lookup_put_self, Function.update_self]
      rfl
    · have apart : (otherBucket, setup.indexed other) ≠ (bucketId, setup.indexed key) := by
        intro entries
        obtain ⟨rfl, indexes⟩ := Prod.mk.inj entries
        exact same (by rw [vocabulary.apart otherMember member indexes])
      rw [lookup_put_ne _ _ apart, update_entry _ same]
      exact listed.rows otherBucket other otherMember
  · exact all_update listed.typed fun other isOther => Option.some.inj isOther ▸ typed
  · exact all_update listed.registered fun other isOther => Option.some.inj isOther ▸ registered

theorem erase (listed : Listed vocabulary tables map) (bucketId : Int)
    (member : key ∈ vocabulary.keys) :
    Listed vocabulary (tables.apply (.object (bucketId, setup.indexed key) none))
      (Function.update map (bucketId, key) none) := by
  constructor
  · intro otherBucket other otherMember
    change (Db.put _ _ tables.objects).lookup _ = _
    by_cases same : (otherBucket, other) = (bucketId, key)
    · cases same
      rw [lookup_put_self, Function.update_self]
      rfl
    · have apart : (otherBucket, setup.indexed other) ≠ (bucketId, setup.indexed key) := by
        intro entries
        obtain ⟨rfl, indexes⟩ := Prod.mk.inj entries
        exact same (by rw [vocabulary.apart otherMember member indexes])
      rw [lookup_put_ne _ _ apart, update_entry _ same]
      exact listed.rows otherBucket other otherMember
  · exact all_update listed.typed nofun
  · exact all_update listed.registered nofun

theorem findObject (listed : Listed vocabulary tables map) (bucketId : Int)
    (member : key ∈ vocabulary.keys) :
    tables.findObject setup.indexed bucketId key =
      (map (bucketId, key)).map (StoredObject.row setup key) := by
  unfold Tables.findObject
  rw [listed.rows bucketId key member]
  cases map (bucketId, key) with
  | none => rfl
  | some stored => simp [StoredObject.row]

end Listed

namespace Filed

theorem of_same {after : World} (filed : Filed vocabulary world map)
    (same : SameBlobs setup world after) : Filed vocabulary after map := by
  constructor
  · intro casKey content length present
    rw [same casKey] at present
    exact filed.named casKey content length present
  · intro entry stored isStored
    rw [same _]
    exact filed.stored entry stored isStored

/-- A content that is stored is found under its digest, and nothing else is lost. -/
theorem of_stored {α : Type} {value : α} {content : Bytes} {after : World}
    (filed : Filed vocabulary world map) (member : content ∈ vocabulary.contents)
    (storedAs : StoredAs setup content world (.ok value : Result α) after) :
    Filed vocabulary after map ∧
      after.files.lookup (setup.getCasPath (setup.sha256Hex content)) = some content := by
  have held : (world.files.lookup
      (setup.getCasPath (setup.sha256Hex content))).getD content = content := by
    cases present : world.files.lookup (setup.getCasPath (setup.sha256Hex content)) with
    | none => rfl
    | some other =>
        obtain ⟨digest, isOther⟩ := filed.named _ other (setup.length_sha256Hex content) present
        exact vocabulary.unlike isOther member digest
  have files := storedAs.stored rfl
  have itself := files (setup.sha256Hex content)
  rw [if_pos rfl, held] at itself
  refine ⟨⟨fun casKey other length present => ?_, fun entry stored isStored => ?_⟩, itself⟩
  · rw [files casKey] at present
    split_ifs at present with samePath
    · rw [samePath, held, Option.some.injEq] at present
      subst present
      exact ⟨(setup.getCasPath_injective length (setup.length_sha256Hex content) samePath).symm,
        member⟩
    · exact filed.named casKey other length present
  · rw [files, filed.stored entry stored isStored]
    split_ifs <;> rfl

/-- The map gets an object whose content is there. -/
theorem put (filed : Filed vocabulary world map) {entry : Int × Bytes} {stored : StoredObject}
    (there : world.files.lookup (setup.getCasPath (setup.sha256Hex stored.content)) =
      some stored.content) :
    Filed vocabulary world (Function.update map entry (some stored)) :=
  ⟨filed.named, all_update filed.stored fun _ isOther => Option.some.inj isOther ▸ there⟩

theorem erase (filed : Filed vocabulary world map) (entry : Int × Bytes) :
    Filed vocabulary world (Function.update map entry none) :=
  ⟨filed.named, all_update filed.stored nofun⟩

end Filed

/-- Without a cache, what is found is what is in the map. -/
theorem found_eq (listed : Listed vocabulary world.tables map)
    (uncached : world.caches.redis = none) (member : key ∈ vocabulary.keys) :
    found setup bucketId key world =
      (map (bucketId, key)).map (StoredObject.info setup bucketId key) := by
  unfold found Tables.foundObject
  rw [uncached, listed.findObject bucketId member]
  cases isStored : map (bucketId, key) with
  | none => rfl
  | some stored =>
      -- neither the key nor the content type is cut
      have wholeKey := vocabulary.wholeKeys key member
      have wholeType := vocabulary.wholeTypes _ (listed.typed _ _ isStored)
      rw [← Bytes.cString_eq_self_iff] at wholeKey wholeType
      simp [ObjectRow.read, StoredObject.row, StoredObject.info, wholeKey, wholeType]

end Holding

/-! ## The calls, one by one -/

section Calls

variable {setup : Setup} {process shownId : Nat} {vocabulary : Vocabulary setup}
variable {map : ObjectMap} {world : World} {bucketId : Int} {key : Bytes}

/-- The answer is the one of the map, and the tables and the files hold what it has become. -/
def Refined (vocabulary : Vocabulary setup) (map : ObjectMap) (call : ObjectCall)
    (answer : call.Ans) (after : World) : Prop :=
  ∃ next, Answers setup map ⟨call, answer⟩ next ∧ Listed vocabulary after.tables next ∧
    Filed vocabulary after next

theorem map_of_found_none (holds : Holds vocabulary world map) (member : key ∈ vocabulary.keys)
    (isFound : found setup bucketId key world = none) : map (bucketId, key) = none := by
  rwa [found_eq holds.listed holds.uncached member, Option.map_eq_none_iff] at isFound

theorem map_of_found (holds : Holds vocabulary world map) (member : key ∈ vocabulary.keys)
    {info : ObjectInfo} (isFound : found setup bucketId key world = some info) :
    ∃ stored, map (bucketId, key) = some stored ∧ info = stored.info setup bucketId key := by
  rw [found_eq holds.listed holds.uncached member] at isFound
  obtain ⟨stored, isStored, rfl⟩ := Option.map_eq_some_iff.mp isFound
  exact ⟨stored, isStored, rfl⟩

theorem serves_headObject (holds : Holds vocabulary world map) (member : key ∈ vocabulary.keys) :
    Serves setup process shownId (Refined vocabulary map (.headObject bucketId key))
      (headObject bucketId key) world := by
  unfold headObject
  rw [← Program.bind_ret (metaCall _)]
  apply serves_getObject
  · intro isFound message caches _
    have absent := map_of_found_none holds member isFound
    exact ⟨map, .headAbsent _ _ absent ⟨_, rfl, rfl⟩, holds.listed,
      holds.filed.of_same (.refl _)⟩
  · intro info isFound caches _
    obtain ⟨stored, isStored, rfl⟩ := map_of_found holds member isFound
    exact ⟨map, .head _ _ isStored, holds.listed, holds.filed.of_same (.refl _)⟩

theorem serves_objectExists (holds : Holds vocabulary world map)
    (member : key ∈ vocabulary.keys) :
    Serves setup process shownId (Refined vocabulary map (.objectExists bucketId key))
      (objectExists bucketId key) world := by
  have tells : Answers setup map
      ⟨.objectExists bucketId key, .ok (map (bucketId, key)).isSome⟩ map :=
    .tellsExistence bucketId key
  unfold objectExists
  apply serves_getObject
  · intro isFound message caches _
    rw [map_of_found_none holds member isFound] at tells
    exact ⟨map, tells, holds.listed, holds.filed.of_same (.refl _)⟩
  · intro info isFound caches _
    obtain ⟨stored, isStored, rfl⟩ := map_of_found holds member isFound
    rw [isStored] at tells
    exact ⟨map, tells, holds.listed, holds.filed.of_same (.refl _)⟩

/-- A counter of a registered blob is lowered. -/
theorem serves_decremented {post : Result Unit → World → Prop} {casKey : Bytes}
    (registered : (world.tables.casBlobs.lookup casKey).isSome = true)
    (done : post (.ok ()) { world with tables := world.tables.lose casKey }) :
    Serves setup process shownId post (decrementRefCount casKey) world := by
  obtain ⟨row, stored⟩ := Option.isSome_iff_exists.mp registered
  unfold decrementRefCount
  apply serves_send
  intro answered writes evaluated
  rw [PlainStmt.eval, stored] at evaluated
  cases evaluated
  have lost : world.tables.applyAll [.casBlob casKey (some row.decremented)] =
      world.tables.lose casKey := by simp [Tables.lose, stored]
  rw [lost]
  exact done

/-- A counter of a registered blob is raised. -/
theorem serves_incremented {α : Type} {post : α → World → Prop} {casKey : Bytes}
    {next : Result Unit → ServiceM α}
    (registered : (world.tables.casBlobs.lookup casKey).isSome = true)
    (continues : Serves setup process shownId post (next (.ok ()))
      { world with tables := world.tables.gain casKey 0 }) :
    Serves setup process shownId post (incrementRefCount casKey >>= next) world := by
  obtain ⟨row, stored⟩ := Option.isSome_iff_exists.mp registered
  unfold incrementRefCount
  rw [Program.bind_assoc]
  apply serves_send
  intro answered writes evaluated
  rw [PlainStmt.eval, stored] at evaluated
  cases evaluated
  have gained : world.tables.applyAll
      [.casBlob casKey (some { row with refCount := row.refCount + 1 })] =
        world.tables.gain casKey 0 := by simp [Tables.gain, CasBlobRow.incremented, stored]
  rw [gained]
  exact continues

theorem serves_deleteObject_refined (holds : Holds vocabulary world map)
    (member : key ∈ vocabulary.keys) :
    Serves setup process shownId (Refined vocabulary map (.deleteObject bucketId key))
      (deleteObject bucketId key) world := by
  unfold deleteObject headObject
  apply serves_getObject
  · intro isFound message caches _
    have absent := map_of_found_none holds member isFound
    exact ⟨map, .deleteAbsent _ _ absent ⟨_, rfl, rfl⟩, holds.listed,
      holds.filed.of_same (.refl _)⟩
  · intro info isFound caches _
    obtain ⟨stored, isStored, rfl⟩ := map_of_found holds member isFound
    have present := holds.listed.findObject bucketId member
    rw [isStored] at present
    apply serves_deleteObject
    · intro absent
      rw [present] at absent
      cases absent
    · intro row _
      have erased := holds.listed.erase bucketId member
      refine serves_decremented (holds.listed.registered _ stored isStored) ?_
      refine ⟨_, .delete bucketId key (by rw [isStored]; simp), erased.lose _, ?_⟩
      exact (holds.filed.erase _).of_same (.refl _)

/-- The row of another key is never in the way of a key of the run. -/
theorem not_hidden {tables : Tables} (listed : Listed vocabulary tables map)
    (member : key ∈ vocabulary.keys) : ¬Hidden setup shownId bucketId key tables := by
  rintro ⟨-, row, present, different⟩
  exact different (listed.row_at member present)

theorem listed_dropped (listed : Listed vocabulary world.tables map) (bucketId : Int)
    (key sha256 : Bytes) : Listed vocabulary (dropped setup bucketId key sha256 world) map := by
  unfold dropped
  split
  · exact listed
  · split_ifs
    · exact listed.lose _
    · exact listed

/-- Writing the row of an object whose content is there. -/
theorem serves_putRow {α : Type} {post : α → World → Prop} (stored : StoredObject)
    {next : Result Unit → ServiceM α} (listed : Listed vocabulary world.tables map)
    (member : key ∈ vocabulary.keys) (typed : stored.contentType ∈ vocabulary.contentTypes)
    (continues : (world.tables.casBlobs.lookup
        (setup.sha256Hex stored.content)).isSome = true →
      Listed vocabulary (upserted setup bucketId (stored.row setup key) world.tables)
        (Function.update map (bucketId, key) (some stored)) →
      Serves setup process shownId post (next (.ok ()))
        { world with tables := upserted setup bucketId (stored.row setup key) world.tables }) :
    Serves setup process shownId post
      (Service.putObject bucketId key stored.content.length
        (wholeEtag (setup.sha256Hex stored.content)) stored.contentType
        (setup.sha256Hex stored.content) >>= next) world := by
  apply serves_putObject
  · intro registered _
    exact continues registered (listed.put member stored typed registered)
  · intro hidden
    exact absurd hidden (not_hidden listed member)

theorem serves_copyObject {dstBucketId : Int} {dstKey : Bytes}
    (holds : Holds vocabulary world map) (member : key ∈ vocabulary.keys)
    (dstMember : dstKey ∈ vocabulary.keys) :
    Serves setup process shownId
      (Refined vocabulary map (.copyObject bucketId key dstBucketId dstKey))
      (copyObject bucketId key dstBucketId dstKey) world := by
  unfold copyObject headObject
  apply serves_getObject
  · intro isFound message caches _
    have absent := map_of_found_none holds member isFound
    exact ⟨map, .copyAbsent _ _ _ _ absent ⟨_, rfl, rfl⟩, holds.listed,
      holds.filed.of_same (.refl _)⟩
  · intro info isFound caches _
    obtain ⟨stored, isStored, rfl⟩ := map_of_found holds member isFound
    apply serves_dropReplaced
    intro again
    refine serves_putRow stored (listed_dropped (by exact holds.listed) _ _ _) dstMember
      (holds.listed.typed _ _ isStored) fun registered listed => ?_
    apply serves_incremented (by exact registered)
    refine ⟨_, .copy _ _ _ _ isStored, listed.gain _ _, ?_⟩
    exact (holds.filed.put (holds.filed.stored _ _ isStored)).of_same (.refl _)

theorem toInt64_length {content : Bytes} (short : content.length < 2 ^ 63) :
    Api.toInt64 content.length = content.length := by
  unfold Api.toInt64
  rw [Int.bmod_def]
  split <;> omega

theorem refined_putObject {content contentType : Bytes} {choices : List Choice}
    {answered : Result Bytes} {after : World} (holds : Holds vocabulary world map)
    (member : key ∈ vocabulary.keys) (isContent : content ∈ vocabulary.contents)
    (isType : contentType ∈ vocabulary.contentTypes)
    (executed : Program.execute (serviceAnswer setup process shownId)
      (putObject setup bucketId key content contentType) choices world =
        some (answered, after)) :
    Refined vocabulary map (.putObject bucketId key content contentType) answered after := by
  unfold putObject at executed
  obtain ⟨front, back, result, middle, -, first, rest⟩ := Program.execute_bind executed
  have alone := execute_io first
  obtain ⟨tables, -⟩ := kept_of_execute (only_storeContent content) alone
  have leads := @leads_storeContent setup process anything content world
  rw [Leads, restrict_anything] at leads
  have storedAs := leads.of_execute (fun _ _ => trivial) alone
  have listed : Listed vocabulary middle.tables map := by
    rw [tables]
    exact holds.listed
  cases result with
  | error status =>
      obtain ⟨same, message, isError⟩ := storedAs.failed status rfl
      obtain rfl := Except.error.inj isError
      have ended : (.err .StorageError message, middle) = (answered, after) := by
        cases back with
        | nil => exact Option.some.inj rest
        | cons choice back => cases rest
      cases ended
      exact ⟨map, .putFails _ _ _ _ _, listed, holds.filed.of_same same⟩
  | ok done =>
      obtain ⟨filed, there⟩ := holds.filed.of_stored isContent storedAs
      refine Program.Ensures.of_execute ?_ (fun _ _ => trivial) rest
      rw [toInt64_length (vocabulary.short content isContent)]
      apply serves_registerCasBlob
      apply serves_dropReplaced
      intro caches
      have gained := listed.gain (setup.sha256Hex content) content.length
      refine serves_putRow ⟨content, contentType⟩ (listed_dropped (by exact gained) _ _ _) member
        isType fun registered written => ?_
      exact ⟨_, .put _ _ _ _, written, (filed.put there).of_same (.refl _)⟩

end Calls

/-! ## Reading -/

section Reads

variable {setup : Setup} {vocabulary : Vocabulary setup} {map : ObjectMap} {world after : World}
variable {bucketId : Int} {key : Bytes}

/-- Reading changes no table and no file, and makes no cache. -/
theorem untouched_by_reads {α : Type} (program : ReadM α) {reader : Reader}
    (uncached : reader.world.caches.redis = none) :
    Program.Ensures (Reader.answer setup) ReadChoice.Untroubled
      (fun _ after => after.world.tables = reader.world.tables ∧
        after.world.files = reader.world.files ∧ after.world.caches.redis = none)
      program reader := by
  induction program generalizing reader with
  | ret value => exact ⟨rfl, rfl, uncached⟩
  | call op next inductionHypothesis =>
      intro choice answered middle _ step
      have kept : middle.world.tables = reader.world.tables ∧
          middle.world.files = reader.world.files ∧ middle.world.caches.redis = none := by
        cases op with
        | getObject bucketId key =>
            cases choice with
            | sql faults clock =>
                simp only [Reader.answer, Option.some.injEq, Prod.mk.injEq] at step
                obtain ⟨-, rfl⟩ := step
                have effect := @MetaCall.effect_perform setup.indexed (.getObject bucketId key)
                  True faults clock reader.world.tables reader.world.caches (.inl trivial)
                exact ⟨effect.1, rfl, uncached_perform _ _ _ _ uncached⟩
            | _ => simp [Reader.answer] at step
        | _ =>
            cases choice <;> simp only [Reader.answer, reduceCtorEq, Option.some.injEq,
              Prod.mk.injEq, Option.map_eq_some_iff, Option.ite_none_left_eq_some,
              Option.ite_none_right_eq_some] at step <;> grind
      refine (inductionHypothesis answered kept.2.2).mono fun _ last keeps => ?_
      exact ⟨keeps.1.trans kept.1, keeps.2.1.trans kept.2.1, keeps.2.2⟩

/-- An object that is not there. -/
theorem reads_absent {α : Type} {post : α → Prop} {reader : Reader}
    {next : Result ObjectInfo → ReadM α}
    (absent : found setup bucketId key reader.world = none)
    (continues : ∀ message after, Reads setup post (next (.err .NoSuchKey message)) after) :
    Reads setup post (.call (.getObject bucketId key) next) reader := by
  intro choice answered after untroubled step
  cases choice with
  | sql faults clock =>
      simp only [Reader.answer, Option.some.injEq, Prod.mk.injEq] at step
      obtain ⟨rfl, rfl⟩ := step
      have effect := @MetaCall.effect_perform setup.indexed (.getObject bucketId key) False faults
        clock reader.world.tables reader.world.caches (.inr untroubled)
      obtain ⟨-, ⟨impossible, -⟩ | answers⟩ := effect
      · exact impossible.elim
      · unfold found at absent
        rw [absent] at answers
        obtain ⟨message, isError⟩ := answers
        rw [isError]
        exact continues message _
  | _ => simp [Reader.answer] at step

/-- A call that only reads: its answer is one of the map, which stays what it is. -/
theorem refined_reading {α : Type} {program : Nat → ReadM (Option α)} {answered : α}
    (post : α → Prop) (holds : Holds vocabulary world map)
    (reads : ∀ calls reader, reader.world = world →
      (∀ path content, world.files.lookup path = some content →
        reader.signals + content.length < calls) →
      Reads setup (fun result => ∃ answered, result = some answered ∧ post answered)
        (program calls) reader)
    (reading : Reading setup program world answered after) :
    post answered ∧ Holds vocabulary after map := by
  obtain ⟨calls, signals, choices, reader, enough, untroubled, executed, rfl⟩ := reading
  obtain ⟨_, isAnswer, answers⟩ :=
    (reads calls ⟨world, [], 0, signals⟩ rfl enough).of_execute untroubled executed
  cases isAnswer
  obtain ⟨tables, files, uncached⟩ :=
    (untouched_by_reads (program calls) (by exact holds.uncached)).of_execute untroubled executed
  refine ⟨answers, ?_, holds.filed.of_same fun casKey => by rw [files], uncached⟩
  rw [tables]
  exact holds.listed

theorem refined_getObject {answered : Result (Bytes × ObjectInfo)}
    (holds : Holds vocabulary world map) (member : key ∈ vocabulary.keys)
    (reading : Reading setup (fun calls => getObject setup calls bucketId key) world answered
      after) :
    Answers setup map ⟨.getObject bucketId key, answered⟩ map ∧ Holds vocabulary after map := by
  refine refined_reading (fun answered => Answers setup map ⟨.getObject bucketId key, answered⟩ map)
    holds (fun calls reader isWorld enough => ?_) reading
  subst isWorld
  cases isFound : found setup bucketId key reader.world with
  | none =>
      have absent := map_of_found_none holds member isFound
      exact reads_absent isFound fun message _ =>
        ⟨_, rfl, .getAbsent _ _ absent ⟨_, rfl, rfl⟩⟩
  | some info =>
      obtain ⟨stored, isStored, rfl⟩ := map_of_found holds member isFound
      have there := holds.filed.stored _ _ isStored
      apply reads_getObject isFound
      intro opened sameFiles sameSignals
      have few := enough _ _ there
      rw [← sameFiles] at there
      rw [← sameSignals] at few
      change Reads setup _ (DataStore.read setup calls _ >>= _) opened
      apply Program.ensures_bind.mpr
      refine (DataStore.reads_readBlob there few).mono ?_
      rintro result - rfl
      exact ⟨_, rfl, .get _ _ isStored⟩

theorem refined_getObjectRange {start end_ : Int} {answered : Result (Bytes × ObjectInfo)}
    (holds : Holds vocabulary world map) (member : key ∈ vocabulary.keys)
    (reading : Reading setup (fun calls => getObjectRange setup calls bucketId key start end_)
      world answered after) :
    Answers setup map ⟨.getObjectRange bucketId key start end_, answered⟩ map ∧
      Holds vocabulary after map := by
  refine refined_reading
    (fun answered => Answers setup map ⟨.getObjectRange bucketId key start end_, answered⟩ map)
    holds (fun calls reader isWorld enough => ?_) reading
  subst isWorld
  cases isFound : found setup bucketId key reader.world with
  | none =>
      have absent := map_of_found_none holds member isFound
      exact reads_absent isFound fun message _ =>
        ⟨_, rfl, .getRangeAbsent _ _ _ _ absent ⟨_, rfl, rfl⟩⟩
  | some info =>
      obtain ⟨stored, isStored, rfl⟩ := map_of_found holds member isFound
      have there := holds.filed.stored _ _ isStored
      apply reads_getObject isFound
      intro opened sameFiles sameSignals
      have few := enough _ _ there
      rw [← sameFiles] at there
      rw [← sameSignals] at few
      refine (DataStore.reads_streamRange there few start end_).mono ?_
      rintro result - ⟨range, rfl, isRange⟩
      exact ⟨range, rfl, .getRange _ _ _ _ isStored isRange⟩

end Reads

/-! ## Whole runs -/

section Runs

variable {setup : Setup} {process : Nat} {vocabulary : Vocabulary setup} {map : ObjectMap}
variable {world after : World}

theorem holds_of_refined {call : ObjectCall} {program : ServiceM call.Ans} {shownId : Nat}
    {choices : List Choice} {answered : call.Ans} (holds : Holds vocabulary world map)
    (executed : Program.execute (serviceAnswer setup process shownId) program choices world =
      some (answered, after))
    (refined : Refined vocabulary map call answered after) :
    ∃ next, Answers setup map ⟨call, answered⟩ next ∧ Holds vocabulary after next := by
  obtain ⟨next, answers, listed, filed⟩ := refined
  have uncached := (serves_uncached program holds.uncached).of_execute executed
  exact ⟨next, answers, listed, filed, uncached⟩

/-- Every call is answered as the map answers it. -/
theorem answers_of_performs {exchange : Exchange} (within : exchange.call.Within vocabulary)
    (holds : Holds vocabulary world map) (performs : Performs setup process world exchange after) :
    ∃ next, Answers setup map exchange next ∧ Holds vocabulary after next := by
  rcases exchange with ⟨call, answered⟩
  cases call with
  | putObject bucketId key content contentType =>
      obtain ⟨shownId, choices, executed⟩ := performs
      exact holds_of_refined holds executed
        (refined_putObject holds within.1 within.2.1 within.2.2 executed)
  | deleteObject bucketId key =>
      obtain ⟨shownId, choices, executed⟩ := performs
      have serves := @serves_deleteObject_refined setup process shownId vocabulary
      exact holds_of_refined holds executed
        (Program.Ensures.of_execute (serves holds within) (fun _ _ => trivial) executed)
  | copyObject srcBucketId srcKey dstBucketId dstKey =>
      obtain ⟨shownId, choices, executed⟩ := performs
      have serves := @serves_copyObject setup process shownId vocabulary
      exact holds_of_refined holds executed
        (Program.Ensures.of_execute (serves holds within.1 within.2) (fun _ _ => trivial) executed)
  | headObject bucketId key =>
      obtain ⟨shownId, choices, executed⟩ := performs
      have serves := @serves_headObject setup process shownId vocabulary
      exact holds_of_refined holds executed
        (Program.Ensures.of_execute (serves holds within) (fun _ _ => trivial) executed)
  | objectExists bucketId key =>
      obtain ⟨shownId, choices, executed⟩ := performs
      have serves := @serves_objectExists setup process shownId vocabulary
      exact holds_of_refined holds executed
        (Program.Ensures.of_execute (serves holds within) (fun _ _ => trivial) executed)
  | getObject bucketId key => exact ⟨map, refined_getObject holds within performs⟩
  | getObjectRange bucketId key start end_ =>
      exact ⟨map, refined_getObjectRange holds within performs⟩

/-- In every run, the answers of the service are those of a map, and at the end the tables and the
files hold what the map has become. -/
theorem service_answers_as_a_map {exchanges : List Exchange} (initial : Holds vocabulary world map)
    (within : ∀ exchange ∈ exchanges, exchange.call.Within vocabulary)
    (run : Refinement.Trace (Performs setup process) world exchanges after) :
    ∃ final, Refinement.Trace (Answers setup) map exchanges final ∧
      Holds vocabulary after final := by
  have simulates : ∀ ⦃before exchange next model⦄, exchange.call.Within vocabulary →
      Holds vocabulary before model → Performs setup process before exchange next →
      ∃ changed, Answers setup model exchange changed ∧ Holds vocabulary next changed :=
    fun _ _ _ _ => answers_of_performs
  exact run.simulated simulates within initial

/-- Two keys, two contents and two content types. -/
def twoOfEach : Vocabulary DataStore.sampleSetup where
  keys := {ascii "k", ascii "l"}
  contents := {ascii "a", ascii "b"}
  contentTypes := {[], ascii "text/plain"}
  apart := fun _ _ _ _ same => same
  unlike := by
    rw [Set.injOn_pair]
    exact fun same => absurd same (by decide +kernel)
  wholeKeys := by
    rintro key (rfl | rfl) <;> decide
  wholeTypes := by
    rintro contentType (rfl | rfl) <;> decide
  short := by
    rintro content (rfl | rfl) <;> decide

/-- A text of one letter. -/
def firstLetter : StoredObject :=
  ⟨ascii "a", ascii "text/plain"⟩

/-- Another letter, without a content type. -/
def secondLetter : StoredObject :=
  ⟨ascii "b", []⟩

/-- The two objects. -/
def twoLetters : ObjectMap :=
  Function.update (Function.update (fun _ => none) (1, ascii "k") (some firstLetter))
    (1, ascii "l") (some secondLetter)

/-- The path of a blob. -/
def pathOf (content : Bytes) : Bytes :=
  DataStore.sampleSetup.getCasPath (DataStore.sampleSetup.sha256Hex content)

/-- A server with these objects. -/
def twoObjects : World :=
  { oneBucket with
    files := Table.set (pathOf (ascii "b")) (ascii "b") (Table.set (pathOf (ascii "a")) (ascii "a") ∅)
    tables := upserted DataStore.sampleSetup 1 (secondLetter.row DataStore.sampleSetup (ascii "l"))
      ((upserted DataStore.sampleSetup 1 (firstLetter.row DataStore.sampleSetup (ascii "k"))
        (oneBucket.tables.gain (DataStore.sampleSetup.sha256Hex (ascii "a")) 1)).gain
          (DataStore.sampleSetup.sha256Hex (ascii "b")) 1) }

theorem path_of_twoObjects {path content : Bytes}
    (present : twoObjects.files.lookup path = some content) :
    path = pathOf content ∧ content ∈ twoOfEach.contents := by
  rw [twoObjects, Table.lookup_set, Table.lookup_set] at present
  split_ifs at present with isSecond isFirst
  · cases present
    exact ⟨isSecond, .inr rfl⟩
  · cases present
    exact ⟨isFirst, .inl rfl⟩
  · cases present

theorem holds_twoObjects : Holds twoOfEach twoObjects twoLetters := by
  have empty : Listed twoOfEach oneBucket.tables fun _ => none := ⟨fun _ _ _ => rfl, nofun, nofun⟩
  have first : Listed twoOfEach _ (Function.update _ (1, ascii "k") (some firstLetter)) :=
    (empty.gain (DataStore.sampleSetup.sha256Hex (ascii "a")) 1).put (.inl rfl) _ (.inr rfl) rfl
  have second : Listed twoOfEach twoObjects.tables twoLetters :=
    (first.gain (DataStore.sampleSetup.sha256Hex (ascii "b")) 1).put (.inr rfl) _ (.inl rfl) rfl
  have named : ∀ casKey content, casKey.length = 64 →
      twoObjects.files.lookup (DataStore.sampleSetup.getCasPath casKey) = some content →
      DataStore.sampleSetup.sha256Hex content = casKey ∧ content ∈ twoOfEach.contents := by
    intro casKey content length present
    obtain ⟨isBlob, member⟩ := path_of_twoObjects present
    exact ⟨(DataStore.sampleSetup.getCasPath_injective length
      (DataStore.sampleSetup.length_sha256Hex _) isBlob).symm, member⟩
  have filed : Filed twoOfEach twoObjects fun _ => none := ⟨named, nofun⟩
  refine ⟨second, (filed.put ?_).put ?_, rfl⟩
  · rfl
  · rfl

/-- Both objects are read, the first is copied over the second and gets the content of the other
one, and the second is deleted. -/
def readCopyPutDelete : List Exchange :=
  [⟨.getObject 1 (ascii "k"),
      .ok (ascii "a", firstLetter.info DataStore.sampleSetup 1 (ascii "k"))⟩,
    ⟨.getObject 1 (ascii "l"),
      .ok (ascii "b", secondLetter.info DataStore.sampleSetup 1 (ascii "l"))⟩,
    ⟨.copyObject 1 (ascii "k") 1 (ascii "l"), .ok (DataStore.sampleSetup.sha256Hex (ascii "a"))⟩,
    ⟨.putObject 1 (ascii "k") (ascii "b") [], .ok (DataStore.sampleSetup.sha256Hex (ascii "b"))⟩,
    ⟨.headObject 1 (ascii "l"), .ok (firstLetter.info DataStore.sampleSetup 1 (ascii "l"))⟩,
    ⟨.deleteObject 1 (ascii "l"), .ok ()⟩, ⟨.objectExists 1 (ascii "l"), .ok false⟩]

theorem service_answers_as_a_map_sample :
    ∃ after final,
      Refinement.Trace (Performs DataStore.sampleSetup 0) twoObjects readCopyPutDelete after ∧
      Refinement.Trace (Answers DataStore.sampleSetup) twoLetters readCopyPutDelete final ∧
      Holds twoOfEach after final := by
  have within : ∀ exchange ∈ readCopyPutDelete, exchange.call.Within twoOfEach := by
    simp [readCopyPutDelete, ObjectCall.Within, twoOfEach]
  have enough : ∀ path content, twoObjects.files.lookup path = some content →
      0 + content.length < 2 := by
    intro path content present
    rcases (path_of_twoObjects present).2 with rfl | rfl <;> decide
  have run : ∃ after,
      Refinement.Trace (Performs DataStore.sampleSetup 0) twoObjects readCopyPutDelete after := by
    constructor
    apply Refinement.Trace.cons
    · refine ⟨2, 0, [.sql [] ⟨0, 0⟩, .done, .done, .count 1], _, enough, ?_, rfl, rfl⟩
      simp [ReadChoice.Untroubled]
    apply Refinement.Trace.cons
    · refine ⟨2, 0, [.sql [] ⟨0, 0⟩, .done, .done, .count 1], _, enough, ?_, rfl, rfl⟩
      simp [ReadChoice.Untroubled]
    apply Refinement.Trace.cons
    · exact ⟨1, [succeeds, succeeds, succeeds, .done, .done, .done], rfl⟩
    apply Refinement.Trace.cons
    · exact ⟨1, [.done, .done, succeeds, succeeds, .done, .done], rfl⟩
    apply Refinement.Trace.cons
    · exact ⟨0, [succeeds], rfl⟩
    apply Refinement.Trace.cons
    · exact ⟨0, [succeeds, .done, .done], rfl⟩
    apply Refinement.Trace.cons
    · exact ⟨0, [succeeds], rfl⟩
    exact .nil _
  obtain ⟨after, run⟩ := run
  obtain ⟨final, answers, holds⟩ := service_answers_as_a_map holds_twoObjects within run
  exact ⟨after, final, run, answers, holds⟩

end Runs

end MiniS3.ObjectService
