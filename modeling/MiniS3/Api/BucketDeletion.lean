import MiniS3.Api.BucketHandlers
import MiniS3.Api.HandlerOps
import MiniS3.Db.BucketDeletion

/-!
# Deleting a bucket beside other requests

One process serves `DeleteBucket` while others serve uploads, each of them interleaved with
the others statement by statement.  A handler becomes a session program: a call of the
metadata store is carried out by its statements, and everything else it asks of its
surroundings is answered in any way.

`DeleteBucket` counts the objects of the bucket before it deletes it, in a statement of its
own, and it never looks at the parts of unfinished uploads.  The counters stay exact in the
runs where the deletion meets neither.
-/

namespace MiniS3.Api

open Lib Db Net RowLocks Interleaving Transition

/-! ## Handlers, statement by statement -/

/-- The database, with the other calls of a handler beside it. -/
abbrev serverEngine (indexed : Bytes → Bytes) : Engine :=
  (engine indexed).extend IoOp IoOp.Ans

/-- A handler whose calls of the metadata store are carried out by their statements. -/
def byStatement (indexed : Bytes → Bytes) {α : Type} :
    ServerM α → Program (serverEngine indexed).sig α :=
  Program.interpret fun op =>
    match op with
    | .metaStore call => Engine.lift (call.code indexed)
    | op => Program.perform (S := (serverEngine indexed).sig) (.aux (.inr op))

/-- Calls of the metadata store that keep the counters exact, and everything else. -/
def KeepsCounters (op : IoOp) : Prop :=
  ∀ call, op = .metaStore call → call.KeepsCounters

theorem safe_byStatement {indexed : Bytes → Bytes} {α : Type} {result : α → Prop}
    {program : ServerM α} (only : Program.Only KeepsCounters result program) (known : Tables) :
    Safe (E := serverEngine indexed) (Exact .all) (KeepsReferences indexed)
      (byStatement indexed program) known (fun _ => False) none := by
  refine safe_interpret (E := serverEngine indexed) only ?_ known
  intro op keeps data exact
  cases op with
  | metaStore call => exact (safe_call (keeps call rfl) data exact).lift
  | _ => exact fun _ _ _ _ => ⟨rfl, fun _ => not_false⟩

theorem keepsCounters_of_handlerOp {setup : Setup} {op : IoOp}
    (handler : HandlerOp setup (· ≠ []) op) : KeepsCounters op := by
  rintro call rfl
  cases handler with
  | storage storage => cases storage
  | metaStore plain =>
      cases call with
      | putPartWithRefCount uploadId partNumber sha256Hash size etag => exact plain.1
      | putObjectWithRefCount bucketId key size etag contentType sha256Hash => exact plain
      | decrementRefCountAndCheckZero sha256Hash => exact plain
      | deleteMultipartUpload uploadId => exact plain
      | _ => exact trivial

/-! ## The deletion -/

/-- The calls of `DeleteBucket`. -/
def DeletionOp : IoOp → Prop
  | .metaStore (.getBucket _) | .metaStore (.isBucketEmpty _) | .metaStore (.deleteBucket _) =>
      True
  | _ => False

theorem only_deleteBucket (setup : Setup) (request : HttpRequest) :
    Program.Only DeletionOp (fun _ => True) (BucketHandlers.deleteBucket setup request) := by
  unfold BucketHandlers.deleteBucket
  dsimp only
  split
  · trivial
  · refine ⟨trivial, fun answer => ?_⟩
    cases answer with
    | error status =>
        simp only [Program.bind]
        split <;> trivial
    | ok bucket =>
        refine ⟨trivial, fun counted => ?_⟩
        cases counted with
        | error status => trivial
        | ok isEmpty =>
            change Program.Only _ _ (if isEmpty = true then _ else _)
            split
            · refine ⟨trivial, fun deleted => ?_⟩
              cases deleted <;> trivial
            · trivial

theorem keepsCounters_of_deletionOp {op : IoOp} (deletion : DeletionOp op) :
    KeepsCounters op := by
  rintro call rfl
  cases call <;> first | exact trivial | exact deletion.elim

/-- The statements of `DeleteBucket`. -/
def DeletionStmt : Stmt → Prop
  | .selectBucketByName _ | .countObjectsInBucket _ | .deleteBucket _ => True
  | _ => False

theorem only_deletionStmt {indexed : Bytes → Bytes} {α : Type} {result : α → Prop}
    {program : ServerM α} (only : Program.Only DeletionOp result program) :
    Program.Only (Autocommit (E := serverEngine indexed) DeletionStmt) result
      (byStatement indexed program) := by
  refine only.interpret ?_
  intro op deletion
  cases op with
  | metaStore call =>
      cases call with
      | getBucket name =>
          apply only_lift
          refine ⟨trivial, fun cached => ?_⟩
          cases cached with
          | some info => trivial
          | none =>
              refine ⟨trivial, fun answer => ?_⟩
              match answer with
              | .error err => trivial
              | .ok none => trivial
              | .ok (some (id, storedName)) => exact ⟨trivial, fun _ => trivial⟩
      | isBucketEmpty bucketId =>
          apply only_lift
          refine ⟨trivial, fun answer => ?_⟩
          cases answer <;> trivial
      | deleteBucket name =>
          apply only_lift
          refine ⟨trivial, fun answer => ?_⟩
          cases answer with
          | error err => trivial
          | ok affected =>
              change Program.Only _ _ (if (affected : Nat) = 0 then _ else _)
              split
              · trivial
              · exact ⟨trivial, fun _ => trivial⟩
      | _ => exact deletion.elim
  | _ => exact deletion.elim

/-! ## Requests -/

/-- The requests that run beside each other. -/
inductive BucketRequest
  | deleteBucket (request : HttpRequest)
  | putObject (request : HttpRequest)
  | deleteObject (request : HttpRequest)
  | initUpload (request : HttpRequest)
  | uploadPart (request : HttpRequest)

namespace BucketRequest

variable (setup : Setup)

/-- The handler of a request. -/
def handler : BucketRequest → Handler
  | .deleteBucket request => BucketHandlers.deleteBucket setup request
  | .putObject request => ObjectHandlers.putObject setup request
  | .deleteObject request => ObjectHandlers.deleteObject setup request
  | .initUpload request => MultipartHandlers.initUpload setup request
  | .uploadPart request => MultipartHandlers.uploadPart setup request

/-- Handlers that run on one database. -/
abbrev HandlerPool (indexed : Bytes → Bytes) :=
  Pool (serverEngine indexed).sig (Option HttpResponse) (Store (serverEngine indexed))

/-- What a pool of handlers does next. -/
abbrev PoolAction (indexed : Bytes → Bytes) :=
  Action BucketRequest (RowLocks.Choice (serverEngine indexed))

/-- One step of a pool of handlers. -/
abbrev steps : Step (HandlerPool setup.indexed) (PoolAction setup.indexed) :=
  next (fun request => byStatement setup.indexed (handler setup request)) Store.answer

/-- The process `deleter` serves the deletions and nothing else; and the statement that a
process performs keeps the references of all blobs accounted for. -/
def Allowed (indexed : Bytes → Bytes) (deleter : Nat) (pool : HandlerPool indexed) :
    PoolAction indexed → Prop
  | .start process (.deleteBucket _) => process = deleter
  | .start process _ => process ≠ deleter
  | .advance session .proceed =>
      ∀ stmt next, pool.running.lookup session = some (.call (.exec stmt) next) →
        KeepsReferences indexed stmt (fun row => pool.shared.owner row = some session)
          (pool.shared.view session)
  | .advance _ _ => True

variable {setup}

theorem keepsCounters_handler (request : BucketRequest) :
    Program.Only KeepsCounters (fun _ => True) (handler setup request) := by
  have handles : ∀ request, HandlesKeys setup (· ≠ []) request :=
    fun request => ⟨setup.sha256Hex_ne_nil, id⟩
  have plain : ∀ {program : Handler},
      Program.Only (HandlerOp setup (· ≠ [])) (fun _ => True) program →
      Program.Only KeepsCounters (fun _ => True) program :=
    fun only => only.mono (fun _ => keepsCounters_of_handlerOp) fun _ => id
  cases request with
  | deleteBucket request =>
      exact (only_deleteBucket setup request).mono (fun _ => keepsCounters_of_deletionOp)
        fun _ => id
  | putObject request => exact plain (only_putObject (handles request))
  | deleteObject request => exact plain only_deleteObject
  | initUpload request => exact plain only_initUpload
  | uploadPart request => exact plain (only_uploadPart (handles request))

/-- A step of a process that only deletes buckets leaves the objects alone. -/
theorem objects_of_deletion {indexed : Bytes → Bytes} {session : Nat}
    {store after : Store (serverEngine indexed)} {op : (serverEngine indexed).Op}
    {choice : RowLocks.Choice (serverEngine indexed)} {answered : (serverEngine indexed).OpAns op}
    (autocommit : store.transaction session = none)
    (deletion : Autocommit (E := serverEngine indexed) DeletionStmt op)
    (keeps : ∀ stmt, op = .exec stmt → choice = .proceed →
      CascadeTakesNoReference stmt store.committed)
    (step : Store.answer session op choice store = some (answered, after)) :
    after.committed.objects = store.committed.objects := by
  rcases (Store.answer_autocommit autocommit deletion step).2 with
    same | ⟨stmt, value, writes, performed, proceeds, deletes, evaluated, applied⟩
  · rw [same]
  · rw [applied]
    change stmt.eval indexed store.committed = _ at evaluated
    change (store.committed.applyAll writes).objects = store.committed.objects
    cases stmt with
    | deleteBucket name =>
        have neutral := neutral_deleteBucket (keeps _ performed proceeds) evaluated
        exact (applyAll_neutral neutral _).2.1
    | selectBucketByName name =>
        cases evaluated
        rfl
    | countObjectsInBucket bucketId =>
        cases evaluated
        rfl
    | _ => exact deletes.elim

/-- The process that deletes buckets is never in a transaction. -/
theorem inAutocommit_of_reachable {deleter : Nat} {data : Tables}
    {target : HandlerPool setup.indexed}
    (reachable : ReachableUnder (steps setup) (Allowed setup.indexed deleter)
      ⟨Store.idle data, ∅⟩ target) :
    InAutocommit (E := serverEngine setup.indexed) DeletionStmt deleter deleter target.shared
      (target.running.lookup deleter) := by
  have respects : Respects (fun request => byStatement setup.indexed (handler setup request))
      Store.answer (Allowed setup.indexed deleter) (fun _ => True)
      (InAutocommit (E := serverEngine setup.indexed) DeletionStmt deleter) := by
    apply respects_of_autocommit
    intro pool request allowed
    cases request with
    | deleteBucket request => exact only_deletionStmt (only_deleteBucket setup request)
    | _ => exact absurd rfl allowed
  refine (respects.invariant ⟨trivial, ?_⟩ reachable).point deleter
  rintro process rfl
  constructor
  · rfl
  · intro program running
    contradiction

/-- `Allowed` as a check. -/
def allowed (indexed : Bytes → Bytes) (deleter : Nat) (pool : HandlerPool indexed) :
    PoolAction indexed → Bool
  | .start process (.deleteBucket _) => process == deleter
  | .start process _ => process != deleter
  | .advance session .proceed =>
      match pool.running.lookup session with
      | some (.call (.exec (.upsertObject bucketId row)) _) =>
          pool.shared.owner (.object (bucketId, indexed row.objectKey)) == some session ||
            ((pool.shared.view session).objects.lookup (bucketId, indexed row.objectKey)).isNone
      | some (.call (.exec (.upsertPart uploadId partNumber _)) _) =>
          pool.shared.owner (.part (uploadId, partNumber)) == some session ||
            ((pool.shared.view session).multipartParts.lookup (uploadId, partNumber)).isNone
      | some (.call (.exec (.deleteBucket name)) _) =>
          ((pool.shared.view session).bucketNamed name).all fun bucket =>
            (pool.shared.view session).objectsIn bucket.1 == 0 &&
              (pool.shared.view session).partsIn bucket.1 == 0
      | _ => true
  | .advance _ _ => true

theorem Allowed.of_check {indexed : Bytes → Bytes} {deleter : Nat} (pool : HandlerPool indexed)
    (action : PoolAction indexed) (checked : allowed indexed deleter pool action = true) :
    Allowed indexed deleter pool action := by
  cases action with
  | start process request => cases request <;> simp_all [allowed, Allowed]
  | advance session choice =>
      cases choice with
      | proceed =>
          intro stmt next stored
          simp only [allowed] at checked
          rw [stored] at checked
          constructor
          · cases stmt with
            | upsertObject bucketId row =>
                intro unheld
                simpa [unheld] using checked
            | upsertPart uploadId partNumber row =>
                intro unheld
                simpa [unheld] using checked
            | _ => exact trivial
          · cases stmt with
            | deleteBucket name =>
                intro bucket named
                change (Option.all _ (Tables.bucketNamed _ name)) = true at checked
                rw [named] at checked
                simpa using checked
            | _ => exact trivial
      | _ => trivial

end BucketRequest

/-- Beside any other requests, the deletion of a bucket removes no object and leaves the
counters exact, as long as it meets no object and no part of the bucket when it is performed
and no upsert replaces a row that its session has not locked. -/
theorem bucket_deletion_keeps_refCounts (setup : Setup) (deleter : Nat) (data : Tables)
    (exactAtStart : ∀ casKey,
      data.refCount casKey = data.objectRefs casKey + data.partRefs casKey)
    (objectsNonempty : ∀ entry row, data.objects.lookup entry = some row → row.casKey ≠ [])
    (partsNonempty : ∀ entry row, data.multipartParts.lookup entry = some row →
      row.casKey ≠ [])
    (target : BucketRequest.HandlerPool setup.indexed)
    (reachable : ReachableUnder (BucketRequest.steps setup)
      (BucketRequest.Allowed setup.indexed deleter) ⟨Store.idle data, ∅⟩ target) :
    (∀ casKey, target.shared.committed.refCount casKey =
      target.shared.committed.objectRefs casKey + target.shared.committed.partRefs casKey) ∧
    ∀ choice after, BucketRequest.Allowed setup.indexed deleter target (.advance deleter choice) →
      BucketRequest.steps setup target (.advance deleter choice) = some after →
      after.shared.committed.objects = target.shared.committed.objects := by
  constructor
  · have initial : Exact .all data :=
      ⟨fun key => by simpa [references, Scope.all] using exactAtStart key,
        fun _ => objectsNonempty, fun _ => partsNonempty⟩
    have permits : Permits (E := serverEngine setup.indexed) (KeepsReferences setup.indexed)
        (BucketRequest.Allowed setup.indexed deleter) :=
      fun pool session stmt rest allowed stored => allowed stmt rest stored
    have final : Exact .all target.shared.committed :=
      good_of_reachable (E := serverEngine setup.indexed) permits
        (fun pool process request allowed data exact =>
          safe_byStatement (BucketRequest.keepsCounters_handler request) data) initial reachable
    intro casKey
    simpa [references, Scope.all] using final.counted casKey
  · intro choice after allowed step
    obtain ⟨op, rest, answered, shared, stored, answeredEq, rfl⟩ := next_advance step
    obtain ⟨autocommit, only⟩ := BucketRequest.inAutocommit_of_reachable reachable rfl
    refine BucketRequest.objects_of_deletion autocommit (only _ stored).1 ?_ answeredEq
    rintro stmt rfl rfl
    have view : target.shared.view deleter = target.shared.committed := by
      simp [Store.view, Store.pending, autocommit, Engine.applyAll]
    rw [← view]
    exact (allowed stmt rest stored).2

/-! ### Runs on one bucket -/

section BucketRuns

/-- A configuration in which every digest is zero. -/
def bucketSetup : Setup :=
  Setup.sample [] []

/-- A request about the bucket `abc`. -/
def bucketRequest (method : HttpMethod) (path : Bytes) : HttpRequest :=
  { HttpRequest.empty.setPathParam (ascii "bucket") (ascii "abc") with method, path }

/-- `DELETE /buckets/abc`. -/
def deleteAbc : BucketRequest :=
  .deleteBucket (bucketRequest .DELETE (ascii "/buckets/abc"))

/-- `PUT /buckets/abc/objects/k` with one byte. -/
def putIntoAbc : BucketRequest :=
  .putObject { (bucketRequest .PUT (ascii "/buckets/abc/objects/k")).setPathParam
    (ascii "object") (ascii "k") with body := ascii "x" }

/-- The bucket `abc`, which is empty. -/
def emptyBucket : Tables :=
  { Tables.empty with buckets := Table.set 1 (ascii "abc") ∅ }

/-- The bucket `abc` with an unfinished upload that has one part. -/
def unfinishedUpload : Tables :=
  { emptyBucket with
    casBlobs := Table.set (blobKey 'a') ⟨5, 1⟩ ∅
    multipartUploads := Table.set (ascii "u") ⟨1, ascii "k", ascii "text/plain", 0⟩ ∅
    multipartParts := Table.set (ascii "u", 1) ⟨blobKey 'a', 5, ascii "e"⟩ ∅ }

/-- Answers of surroundings in which everything goes well, and nothing is cached. -/
def calm : (op : CacheOp ⊕ IoOp) → Sum.elim CacheOp.Ans IoOp.Ans op
  | .inl op => ((Caches.mk ∅ none).answer ⟨0, 0⟩ op).1
  | .inr (.metaStore call) => (call.perform id [] ⟨0, 0⟩ Tables.empty ⟨∅, none⟩).1
  | .inr (.fileExists _) => false
  | .inr (.createDirectories _) | .inr (.atomicRename _ _) | .inr (.removeFile _)
  | .inr (.openNew _) => .ok ()
  | .inr (.write _ data) => .ok data.length
  | .inr (.read rest) => .ok rest.length
  | .inr (.openRead _) => none
  | .inr .generateUuid => List.replicate 36 48
  | .inr .exportMetrics => ([] : Bytes)
  | .inr .now | .inr .createdAt => (0 : Int)
  | .inr (.addPendingDelete _) | .inr (.storeUpload _) | .inr .eraseUpload => ()
  | .inr (.takePendingDeletes _) => ([] : List Bytes)
  | .inr .findUpload => none

/-- Let a process perform statements. -/
def performs (process count : Nat) : List (BucketRequest.PoolAction id) :=
  List.replicate count (.advance process .proceed)

/-- Let the surroundings answer a process. -/
def asks (process count : Nat) : List (BucketRequest.PoolAction id) :=
  List.replicate count (.advance process (.answer calm))

/-- `GetBucket` and `IsBucketEmpty` of a deletion. -/
def deletionChecks : List (BucketRequest.PoolAction id) :=
  [.start 0 deleteAbc] ++ asks 0 1 ++ performs 0 1 ++ asks 0 1 ++ performs 0 1

/-- A whole upload of an object to the bucket. -/
def wholeUpload : List (BucketRequest.PoolAction id) :=
  [.start 1 putIntoAbc] ++ asks 1 1 ++ performs 1 1 ++ asks 1 8 ++ performs 1 4

theorem unfinishedUpload_refCount (casKey : Bytes) :
    unfinishedUpload.refCount casKey =
      unfinishedUpload.objectRefs casKey + unfinishedUpload.partRefs casKey := by
  have counted : unfinishedUpload.partRefs casKey =
      [blobKey 'a'].countP fun referred => decide (referred = casKey) := rfl
  have unreferred : unfinishedUpload.objectRefs casKey = 0 := rfl
  rw [counted, unreferred, Tables.refCount, unfinishedUpload, Table.lookup_set]
  by_cases same : casKey = blobKey 'a'
  · simp [same]
  · simp [same, Ne.symm same]

/-- The counters do not stay exact: the deletion of `abc` takes the part of an unfinished
upload with it, and its blob keeps a reference that no row accounts for.  And it does remove
objects: one that is stored after the objects were counted is gone with the bucket. -/
theorem bucket_deletion_can_lose_references :
    ((∀ casKey, unfinishedUpload.refCount casKey =
        unfinishedUpload.objectRefs casKey + unfinishedUpload.partRefs casKey) ∧
      ∃ target, Reachable (BucketRequest.steps bucketSetup)
          ⟨Store.idle unfinishedUpload, ∅⟩ target ∧
        target.running.rows = [] ∧
        target.shared.committed.refCount (blobKey 'a') ≠
          target.shared.committed.objectRefs (blobKey 'a') +
            target.shared.committed.partRefs (blobKey 'a')) ∧
    ∃ target, Reachable (BucketRequest.steps bucketSetup) ⟨Store.idle emptyBucket, ∅⟩ target ∧
      (target.shared.committed.objects.lookup (1, ascii "k")).isSome ∧
      ∃ after, BucketRequest.steps bucketSetup target (.advance 0 .proceed) = some after ∧
        after.shared.committed.objects.lookup (1, ascii "k") = none := by
  constructor
  · refine ⟨unfinishedUpload_refCount, ?_⟩
    have performed : (run (BucketRequest.steps bucketSetup) ⟨Store.idle unfinishedUpload, ∅⟩
        (deletionChecks ++ performs 0 1 ++ asks 0 1)).any (fun pool =>
          pool.running.rows.isEmpty && pool.shared.committed.refCount (blobKey 'a') !=
            pool.shared.committed.objectRefs (blobKey 'a') +
              pool.shared.committed.partRefs (blobKey 'a')) = true := by
      decide +kernel
    obtain ⟨target, reachable, final⟩ := exists_reachable_of_run _ performed
    simp only [Bool.and_eq_true, List.isEmpty_iff, bne_iff_ne] at final
    exact ⟨target, reachable, final.1, final.2⟩
  · have performed : (run (BucketRequest.steps bucketSetup) ⟨Store.idle emptyBucket, ∅⟩
        (deletionChecks ++ wholeUpload)).any (fun pool =>
          (pool.shared.committed.objects.lookup (1, ascii "k")).isSome &&
            (BucketRequest.steps bucketSetup pool (.advance 0 .proceed)).any fun after =>
              (after.shared.committed.objects.lookup (1, ascii "k")).isNone) = true := by
      decide +kernel
    obtain ⟨target, reachable, final⟩ := exists_reachable_of_run _ performed
    rw [Bool.and_eq_true] at final
    obtain ⟨after, step, gone⟩ := (Option.any_eq_true _ _).mp final.2
    exact ⟨target, reachable, final.1, after, step, by simpa using gone⟩

/-- The bucket `abc`, which is empty, beside a bucket with an object and a part of one blob. -/
def emptyBesideFull : Tables :=
  { Tables.empty with
    buckets := Table.set 2 (ascii "def") (Table.set 1 (ascii "abc") ∅)
    casBlobs := Table.set (blobKey 'a') ⟨5, 2⟩ ∅
    objects := Table.set (2, ascii "k") ⟨ascii "k", blobKey 'a', 5, ascii "text/plain", ascii "e"⟩ ∅
    multipartUploads := Table.set (ascii "u") ⟨2, ascii "l", ascii "text/plain", 0⟩ ∅
    multipartParts := Table.set (ascii "u", 1) ⟨blobKey 'a', 5, ascii "e"⟩ ∅ }

theorem emptyBesideFull_refCount (casKey : Bytes) :
    emptyBesideFull.refCount casKey =
      emptyBesideFull.objectRefs casKey + emptyBesideFull.partRefs casKey := by
  have parts : emptyBesideFull.partRefs casKey =
      [blobKey 'a'].countP fun referred => decide (referred = casKey) := rfl
  have objects : emptyBesideFull.objectRefs casKey =
      [blobKey 'a'].countP fun referred => decide (referred = casKey) := rfl
  rw [parts, objects, Tables.refCount, emptyBesideFull, Table.lookup_set]
  by_cases same : casKey = blobKey 'a'
  · simp [same]
  · simp [same, Ne.symm same]

/-- The theorem at a run in which the deletion comes before the upload, which then fails, and
leaves the other bucket alone. -/
theorem bucket_deletion_keeps_refCounts_empty :
    ∃ target, ReachableUnder (BucketRequest.steps bucketSetup)
        (BucketRequest.Allowed id 0) ⟨Store.idle emptyBesideFull, ∅⟩ target ∧
      target.running.rows = [] ∧ target.shared.committed.buckets.rows = [⟨2, ascii "def"⟩] ∧
      target.shared.committed.refCount (blobKey 'a') = 2 ∧
      ∀ casKey, target.shared.committed.refCount casKey =
        target.shared.committed.objectRefs casKey +
          target.shared.committed.partRefs casKey := by
  have performed : (run (fun pool action =>
      if BucketRequest.allowed id 0 pool action then
        BucketRequest.steps bucketSetup pool action else none)
      ⟨Store.idle emptyBesideFull, ∅⟩ (deletionChecks ++ [.start 1 putIntoAbc] ++ asks 1 1 ++
        performs 0 1 ++ asks 0 1 ++ performs 1 1)).any (fun pool =>
          pool.running.rows.isEmpty &&
            (decide (pool.shared.committed.buckets.rows = [⟨2, ascii "def"⟩]) &&
              decide (pool.shared.committed.refCount (blobKey 'a') = 2))) = true := by
    decide +kernel
  obtain ⟨target, reachable, final⟩ :=
    exists_reachableUnder_of_run _ BucketRequest.Allowed.of_check _ performed
  simp only [Bool.and_eq_true, List.isEmpty_iff, decide_eq_true_eq] at final
  refine ⟨target, reachable, final.1, final.2.1, final.2.2, ?_⟩
  refine (bucket_deletion_keeps_refCounts bucketSetup 0 emptyBesideFull emptyBesideFull_refCount
    ?_ ?_ target reachable).1
  all_goals
    rintro entry row stored nil
    rw [emptyBesideFull, Table.lookup_set] at stored
    split_ifs at stored
    · cases stored
      cases nil
    · cases stored

end BucketRuns

end MiniS3.Api
