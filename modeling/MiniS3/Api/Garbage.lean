import MiniS3.Api.RefCounts
import MiniS3.Api.PartLists
import MiniS3.Storage.GcBatch

/-!
# Reporting garbage

A blob without references has to be in the queue of the collector.  A call that takes the last
reference of a blob names it in its answer, and the handler then owes a report.  `Reports` says of a
program, whatever it is answered, that the next call is the report that is owed; `Covered` says of a
world that each blob without references is in the queue or is the one that is owed.  One step keeps
the two together, and so does a whole run.
-/

namespace MiniS3.Api

open Lib Db Net DataStore

/-- The blob that lost its last reference in a call of the metadata store, as the answer tells. -/
def freedBy : (call : MetaCall) → call.Ans → Option Bytes
  | .putObjectWithRefCount .., .ok candidate => candidate
  | .deleteObjectWithRefCount .., .ok candidate => candidate
  | .putPartWithRefCount .., .ok candidate => candidate
  | .decrementRefCountAndCheckZero casKey, .ok true => some casKey
  | _, _ => none

/-- The blob that lost its last reference in a call. -/
def owedBy : (op : IoOp) → op.Ans → Option Bytes
  | .metaStore call, answered => freedBy call answered
  | _, _ => none

/-- Each blob without references is in the queue, or is owed. -/
def Covered (owed : Option Bytes) (world : World) : Prop :=
  ∀ casKey row, world.tables.casBlobs.lookup casKey = some row → row.refCount = 0 →
    casKey ∈ world.pendingDeletes ∨ owed = some casKey

/-- The blobs without references in `after` are those in `before`, and the one that was freed. -/
def FreesOnly (freed : Option Bytes) (before after : Tables) : Prop :=
  ∀ casKey row, after.casBlobs.lookup casKey = some row → row.refCount = 0 →
    (∃ old, before.casBlobs.lookup casKey = some old ∧ old.refCount = 0) ∨ freed = some casKey

/-! ## What a call frees -/

theorem casBlobs_applyAll {writes : List Write} {tables : Tables}
    (others : ∀ write ∈ writes, ∀ casKey image, write ≠ .casBlob casKey image) :
    (tables.applyAll writes).casBlobs = tables.casBlobs := by
  induction writes generalizing tables with
  | nil => rfl
  | cons write writes inductionHypothesis =>
      rw [List.forall_mem_cons] at others
      rw [Tables.applyAll_cons, inductionHypothesis others.2]
      cases write with
      | casBlob casKey image => exact absurd rfl (others.1 casKey image)
      | _ => rfl

section Calls

variable {tables : Tables}

theorem FreesOnly.of_same {freed : Option Bytes} {after : Tables}
    (same : after.casBlobs = tables.casBlobs) : FreesOnly freed tables after := by
  intro casKey row stored zero
  rw [same] at stored
  exact .inl ⟨row, stored, zero⟩

/-- A reference that is gained frees nothing. -/
theorem freesOnly_gain (casKey : Bytes) (size : Int) :
    FreesOnly none tables (tables.gain casKey size) := by
  intro other row stored zero
  by_cases same : other = casKey
  · subst same
    rw [Tables.gain, Tables.apply, lookup_put_self, Option.some.injEq] at stored
    subst stored
    cases old : tables.casBlobs.lookup other <;> simp [CasBlobRow.incremented, old] at zero
  · rw [Tables.gain, Tables.apply, lookup_put_ne _ _ same] at stored
    exact .inl ⟨row, stored, zero⟩

/-- A reference that is lost can free its blob. -/
theorem freesOnly_lose (casKey : Bytes) :
    FreesOnly (if ((tables.lose casKey).casBlobs.lookup casKey).map CasBlobRow.refCount = some 0
      then some casKey else none) tables (tables.lose casKey) := by
  intro other row stored zero
  by_cases same : other = casKey
  · subst same
    right
    rw [if_pos]
    rw [stored, Option.map_some, zero]
  · left
    unfold Tables.lose at stored
    split at stored
    · exact ⟨row, stored, zero⟩
    · rw [Tables.apply, lookup_put_ne _ _ same] at stored
      exact ⟨row, stored, zero⟩

/-- A reference that moves frees nothing but the blob it has left. -/
theorem freesOnly_move (old new : Bytes) (size : Int) :
    FreesOnly ((tables.move old new size).freed old new) tables (tables.move old new size) := by
  unfold Tables.move
  split
  · rename_i empty
    rw [List.isEmpty_iff] at empty
    subst empty
    rw [Tables.freed_nil]
    exact freesOnly_gain new size
  · split
    · exact FreesOnly.of_same rfl
    · rename_i nonempty different
      rw [Tables.freed_of_ne nonempty different]
      intro casKey row stored zero
      rcases freesOnly_lose old casKey row stored zero with ⟨before, gained, wasZero⟩ | freed
      · rcases freesOnly_gain new size casKey before gained wasZero with unchanged | ⟨⟨⟩⟩
        exact .inl unchanged
      · exact .inr freed

theorem freesOnly_removeObject (bucketId : Int) (key casKey : Bytes) :
    FreesOnly ((tables.removeObject id bucketId key casKey).freed casKey []) tables
      (tables.removeObject id bucketId key casKey) := by
  unfold Tables.removeObject
  dsimp only
  split
  · exact .of_same rfl
  · rename_i nonempty
    have notNil : casKey ≠ [] := fun empty => nonempty (List.isEmpty_iff.mpr empty)
    rw [Tables.freed_of_ne nonempty notNil]
    exact @freesOnly_lose (tables.apply (.object (bucketId, id key) none)) casKey

/-- The answer of a decrement tells whether the blob has lost its last reference. -/
theorem freesOnly_decrement {casKey : Bytes} {answered : Result Bool}
    (answers : Answers False (((tables.lose casKey).casBlobs.lookup casKey).map
      fun row => row.refCount == 0) .NoSuchKey answered) :
    FreesOnly (freedBy (.decrementRefCountAndCheckZero casKey) answered) tables
      (tables.lose casKey) := by
  have frees := @freesOnly_lose tables casKey
  rcases answers with ⟨⟨⟩, -⟩ | answers
  cases stored : (tables.lose casKey).casBlobs.lookup casKey with
  | none =>
      rw [stored] at answers frees
      rcases answers with ⟨message, rfl⟩
      exact frees
  | some row =>
      rw [stored] at answers frees
      have told : answered = .ok (row.refCount == 0) := answers
      by_cases zero : row.refCount = 0
      · have shown : answered = .ok true := by rw [told, zero]; rfl
        rw [Option.map_some, zero, if_pos rfl] at frees
        rw [shown]
        exact frees
      · have shown : answered = .ok false := by rw [told, beq_false_of_ne zero]
        rw [Option.map_some, if_neg (by simpa using zero)] at frees
        rw [shown]
        exact frees

theorem freesOnly_deleteCasBlob (casKey : Bytes) :
    FreesOnly none tables (tables.apply (.casBlob casKey none)) := by
  intro other row stored zero
  by_cases same : other = casKey
  · rw [same, Tables.apply, lookup_put_self] at stored
    cases stored
  · rw [Tables.apply, lookup_put_ne _ _ same] at stored
    exact .inl ⟨row, stored, zero⟩

theorem casBlobs_bucketCascade (bucketId : Int) :
    (tables.applyAll (tables.bucketCascade bucketId)).casBlobs = tables.casBlobs := by
  apply casBlobs_applyAll
  intro write member casKey image isBlob
  subst isBlob
  simp [Tables.bucketCascade, Tables.uploadCascade, List.mem_flatMap] at member

/-- A call frees the blob that its answer names, and no other. -/
theorem freesOnly_effect {call : MetaCall} {caches cachesAfter : Caches} {answered : call.Ans}
    {after : Tables} (effect : call.Effect id False tables caches answered after cachesAfter) :
    FreesOnly (freedBy call answered) tables after := by
  cases call with
  | createBucket =>
      cases answered with
      | error status => exact .of_same (congrArg Tables.casBlobs effect)
      | ok id =>
          rw [effect]
          exact .of_same rfl
  | getBucket | getBucketById | listBuckets | isBucketEmpty | getObject | listObjects | getCasBlob
  | canDeleteCasBlob | getMultipartUpload | listParts | checkIdempotency =>
      exact .of_same (congrArg Tables.casBlobs effect.1)
  | deleteBucket name =>
      apply FreesOnly.of_same
      rw [effect.2.2]
      split
      · cases found : tables.bucketNamed name with
        | none => rfl
        | some bucket => exact casBlobs_bucketCascade bucket.1
      · rfl
  | putObjectWithRefCount =>
      cases answered with
      | error status => exact .of_same (congrArg Tables.casBlobs effect.1)
      | ok candidate =>
          rcases effect with ⟨rfl, rfl, -⟩
          exact freesOnly_move _ _ _
  | deleteObjectWithRefCount bucketId key =>
      cases answered with
      | error status => exact .of_same (congrArg Tables.casBlobs effect.1)
      | ok candidate =>
          rcases effect with ⟨row, -, rfl, rfl⟩
          exact freesOnly_removeObject bucketId key row.casKey
  | decrementRefCountAndCheckZero casKey =>
      rcases effect with ⟨-, ⟨⟨⟩, -⟩ | ⟨rfl, answers⟩⟩
      exact freesOnly_decrement answers
  | deleteCasBlob casKey =>
      cases answered with
      | error status => exact .of_same (congrArg Tables.casBlobs effect.2)
      | ok =>
          rcases effect with ⟨-, -, -, rfl⟩
          exact freesOnly_deleteCasBlob casKey
  | createMultipartUpload =>
      cases answered with
      | error status => exact .of_same (congrArg Tables.casBlobs effect.2)
      | ok =>
          rw [effect.2]
          exact .of_same rfl
  | deleteMultipartUpload uploadId =>
      apply FreesOnly.of_same
      rw [effect.2.2]
      split
      · rw [removeUpload_eq]
      · rfl
  | putPartWithRefCount =>
      cases answered with
      | error status => exact .of_same (congrArg Tables.casBlobs effect)
      | ok candidate =>
          rcases effect with ⟨rfl, rfl, -⟩
          exact freesOnly_move _ _ _
  | recordIdempotency =>
      cases answered with
      | error status => exact .of_same (congrArg Tables.casBlobs effect.2)
      | ok =>
          rcases effect with ⟨-, row, rfl⟩
          exact .of_same rfl

end Calls

/-! ## Handing a freed blob over -/

/-- The call of the collector on its queue. -/
def takesPending : IoOp → Bool
  | .takePendingDeletes _ => true
  | _ => false

/-- Whatever the program is answered, it reports the blob that is owed before it makes another
call, and it takes nothing from the queue. -/
def Reports {α : Type} : Option Bytes → ServerM α → Prop
  | owed, .ret _ => owed = none
  | none, .call op next =>
      takesPending op = false ∧ ∀ answered, Reports (owedBy op answered) (next answered)
  | some casKey, .call op next =>
      op = .addPendingDelete casKey ∧ ∀ answered, Reports none (next answered)

/-- A call that frees nothing. -/
def FreesNothing (op : IoOp) : Prop :=
  takesPending op = false ∧ ∀ answered, owedBy op answered = none

section Programs

variable {setup : Setup} {process : Nat} {α β : Type} {world after : World}

/-- Only the collector takes blobs from the queue. -/
theorem pendingDeletes_answer {op : IoOp} {choice : Choice} {answered : op.Ans}
    (notTaken : takesPending op = false)
    (step : answer setup process op choice world = some (answered, after)) :
    ∀ casKey ∈ world.pendingDeletes, casKey ∈ after.pendingDeletes := by
  intro casKey queued
  cases op with
  | metaStore call =>
      rcases answer_metaStore step with ⟨faults, clock, -, same, -⟩
      rw [same]
      exact queued
  | takePendingDeletes limit => cases notTaken
  | atomicRename source target =>
      cases choice <;> simp only [answer] at step <;>
        grind [GarbageCollector.pendingDeletes_moveFile]
  | write path data =>
      cases choice <;> simp only [answer, World.appendFile] at step <;> grind
  | removeFile path =>
      cases choice <;> simp only [answer, World.dropFile] at step <;> grind
  | _ => cases choice <;> simp only [answer] at step <;> grind [Option.map_eq_some_iff]

/-- A call that succeeds covers the blobs without references, once what it owes is reported. -/
theorem covered_answer {op : IoOp} {choice : Choice} {answered : op.Ans}
    (fullIndex : setup.indexed = id) (notTaken : takesPending op = false)
    (faultless : Faultless choice) (covered : Covered none world)
    (step : answer setup process op choice world = some (answered, after)) :
    Covered (owedBy op answered) after := by
  have frees : FreesOnly (owedBy op answered) world.tables after.tables := by
    by_cases store : ∃ call, op = .metaStore call
    · rcases store with ⟨call, rfl⟩
      exact freesOnly_effect (effect_of_faultless fullIndex faultless step)
    · have same := tables_answer (fun call isCall => store ⟨call, isCall⟩) step
      exact .of_same (congrArg Tables.casBlobs same)
  intro casKey row stored zero
  rcases frees casKey row stored zero with ⟨old, wasStored, wasZero⟩ | freed
  · rcases covered casKey old wasStored wasZero with queued | ⟨⟨⟩⟩
    exact .inl (pendingDeletes_answer notTaken step casKey queued)
  · exact .inr freed

/-- The report that is owed settles the debt. -/
theorem covered_addPendingDelete {casKey : Bytes} {choice : Choice} {answered : Unit}
    (covered : Covered (some casKey) world)
    (step : answer setup process (.addPendingDelete casKey) choice world =
      some (answered, after)) : Covered none after := by
  cases choice <;> simp only [answer, reduceCtorEq, Option.some.injEq, Prod.mk.injEq] at step
  rcases step with ⟨-, rfl⟩
  intro other row stored zero
  left
  rcases covered other row stored zero with queued | owed
  · exact List.mem_append_left _ queued
  · rw [Option.some.injEq] at owed
    exact List.mem_append_right _ (List.mem_singleton.mpr owed.symm)

/-- A program that reports what it frees leaves no blob without references uncovered.  The
induction is on the program, and what is owed before each call carries it. -/
theorem ensures_of_reports {program : ServerM α} {owed : Option Bytes}
    (fullIndex : setup.indexed = id) (reports : Reports owed program)
    (covered : Covered owed world) :
    Program.Ensures (answer setup process) Faultless (fun _ after => Covered none after) program
      world := by
  induction program generalizing owed world with
  | ret value =>
      cases owed with
      | none => exact covered
      | some casKey => cases reports
  | call op next inductionHypothesis =>
      intro choice answered after faultless step
      cases owed with
      | none =>
          rcases reports with ⟨notTaken, rest⟩
          apply inductionHypothesis answered (rest answered)
          exact covered_answer fullIndex notTaken faultless covered step
      | some casKey =>
          rcases reports with ⟨rfl, rest⟩
          apply inductionHypothesis answered (rest answered)
          exact covered_addPendingDelete covered step

/-! ## Programs that report -/

theorem reports_bind {program : ServerM α} {rest : α → ServerM β} {owed : Option Bytes}
    (reports : Reports owed program) (restReports : ∀ value, Reports none (rest value)) :
    Reports owed (program >>= rest) := by
  induction program generalizing owed with
  | ret value =>
      cases owed with
      | none => exact restReports value
      | some casKey => cases reports
  | call op next inductionHypothesis =>
      cases owed with
      | none =>
          exact ⟨reports.1, fun answered => inductionHypothesis answered (reports.2 answered)⟩
      | some casKey =>
          exact ⟨reports.1, fun answered => inductionHypothesis answered (reports.2 answered)⟩

theorem reports_call {op : IoOp} {next : op.Ans → ServerM α} (nothing : FreesNothing op)
    (continues : ∀ answered, Reports none (next answered)) : Reports none (.call op next) := by
  refine ⟨nothing.1, fun answered => ?_⟩
  rw [nothing.2 answered]
  exact continues answered

theorem reports_of_only {result : α → Prop} {program : ServerM α}
    (only : Program.Only FreesNothing result program) : Reports none program := by
  induction program with
  | ret value => rfl
  | call op next inductionHypothesis =>
      apply reports_call only.1
      intro answered
      exact inductionHypothesis answered (only.2 answered)

theorem freesNothing_storage {op : IoOp} (storage : StorageOp setup op) : FreesNothing op := by
  cases storage <;> exact ⟨rfl, fun _ => rfl⟩

theorem reports_reportFree (enabled : setup.gcEnabled = true) (candidate : Option Bytes) :
    Reports candidate (reportFree setup candidate) := by
  cases candidate with
  | none => rfl
  | some casKey =>
      unfold reportFree
      dsimp only
      rw [if_pos enabled]
      exact ⟨rfl, fun _ => rfl⟩

/-! ## The handlers -/

theorem reports_cleanupUnreferencedCas (casKey : Bytes) :
    Reports none (cleanupUnreferencedCas setup casKey) := by
  have removes : FreesNothing (.removeFile (setup.getCasPath casKey)) :=
    ⟨rfl, fun _ => rfl⟩
  apply reports_call ⟨rfl, fun _ => rfl⟩
  intro answered
  cases answered with
  | error status =>
      simp only [Program.bind]
      split
      · exact reports_call removes fun _ => rfl
      · rfl
  | ok row =>
      simp only [Program.bind]
      split
      · exact reports_call removes fun _ => rfl
      · rfl

theorem reports_cleanupContent (content : Content) :
    Reports none (cleanupContent setup content) := by
  unfold cleanupContent
  split
  · exact reports_cleanupUnreferencedCas content.casKey
  · rfl

theorem reports_uploadContent (request : HttpRequest) :
    Reports none (uploadContent setup request) := by
  unfold uploadContent
  dsimp only
  split
  · apply reports_call ⟨rfl, fun _ => rfl⟩
    intro existedBefore
    apply reports_bind (reports_of_only
      ((only_write request.body).mono (fun _ => freesNothing_storage) fun _ => id))
    intro written
    cases written <;> rfl
  · rfl

theorem reports_storeObject (enabled : setup.gcEnabled = true) (request : HttpRequest)
    (bucketName objectKey : Bytes) (bucketId : Int) (content : Content)
    (idempotencyKey hash : Bytes) :
    Reports none (ObjectHandlers.storeObject setup request bucketName objectKey bucketId content
      idempotencyKey hash) := by
  refine ⟨rfl, fun answered => ?_⟩
  cases answered with
  | error status =>
      change Reports none (cleanupContent setup content >>= _)
      exact reports_bind (reports_cleanupContent content) fun _ => rfl
  | ok candidate =>
      change Reports candidate (reportFree setup candidate >>= _)
      apply reports_bind (reports_reportFree enabled candidate)
      intro _
      split
      · rfl
      · split
        · rfl
        · exact reports_call ⟨rfl, fun _ => rfl⟩ fun _ => rfl

theorem reports_putIdempotently (enabled : setup.gcEnabled = true) (request : HttpRequest)
    (bucketName objectKey : Bytes) (bucketId : Int) (content : Content) :
    Reports none
      (ObjectHandlers.putIdempotently setup request bucketName objectKey bucketId content) := by
  unfold ObjectHandlers.putIdempotently
  dsimp only
  split
  · exact reports_storeObject enabled ..
  · apply reports_call ⟨rfl, fun _ => rfl⟩
    intro answered
    match answered with
    | .error status => rfl
    | .ok none => exact reports_storeObject enabled ..
    | .ok (some record) =>
        simp only [Program.bind]
        split <;> rfl

theorem reports_putObject (enabled : setup.gcEnabled = true) (request : HttpRequest) :
    Reports none (ObjectHandlers.putObject setup request) := by
  unfold ObjectHandlers.putObject
  dsimp only
  split
  · rfl
  · apply reports_call ⟨rfl, fun _ => rfl⟩
    intro answered
    cases answered with
    | error status =>
        simp only [Program.bind]
        split <;> rfl
    | ok bucket =>
        simp only [Program.bind]
        split
        · rfl
        · apply reports_bind (reports_uploadContent request)
          intro result
          cases result with
          | error status => rfl
          | ok content =>
              simp only
              split
              · exact reports_bind (reports_cleanupContent content) fun _ => rfl
              · exact reports_putIdempotently enabled ..

theorem reports_deleteObject (enabled : setup.gcEnabled = true) (request : HttpRequest) :
    Reports none (ObjectHandlers.deleteObject setup request) := by
  unfold ObjectHandlers.deleteObject
  dsimp only
  split
  · rfl
  · apply reports_call ⟨rfl, fun _ => rfl⟩
    intro answered
    cases answered with
    | error status =>
        simp only [Program.bind]
        split <;> rfl
    | ok bucket =>
        apply reports_call ⟨rfl, fun _ => rfl⟩
        intro found
        cases found with
        | error status =>
            simp only [Program.bind]
            split <;> rfl
        | ok info =>
            refine ⟨rfl, fun removed => ?_⟩
            cases removed with
            | error status => rfl
            | ok candidate =>
                change Reports candidate (reportFree setup candidate >>= _)
                exact reports_bind (reports_reportFree enabled candidate) fun _ => rfl

theorem reports_initUpload (request : HttpRequest) :
    Reports none (MultipartHandlers.initUpload setup request) := by
  unfold MultipartHandlers.initUpload
  dsimp only
  split
  · rfl
  · apply reports_call ⟨rfl, fun _ => rfl⟩
    intro answered
    cases answered with
    | error status =>
        simp only [Program.bind]
        split <;> rfl
    | ok bucket =>
        apply reports_call ⟨rfl, fun _ => rfl⟩
        intro uploadId
        apply reports_call ⟨rfl, fun _ => rfl⟩
        intro now
        apply reports_call ⟨rfl, fun _ => rfl⟩
        intro created
        cases created <;> rfl

theorem reports_storePart (enabled : setup.gcEnabled = true) (uploadId : Bytes)
    (partNumber : Int) (content : Content) :
    Reports none (MultipartHandlers.storePart setup uploadId partNumber content) := by
  refine ⟨rfl, fun answered => ?_⟩
  cases answered with
  | error status =>
      change Reports none (cleanupContent setup content >>= _)
      exact reports_bind (reports_cleanupContent content) fun _ => rfl
  | ok candidate =>
      change Reports candidate (reportFree setup candidate >>= _)
      exact reports_bind (reports_reportFree enabled candidate) fun _ => rfl

theorem reports_uploadPart (enabled : setup.gcEnabled = true) (request : HttpRequest) :
    Reports none (MultipartHandlers.uploadPart setup request) := by
  unfold MultipartHandlers.uploadPart
  dsimp only
  split
  · rfl
  · split
    · rfl
    · split
      · rfl
      · apply reports_call ⟨rfl, fun _ => rfl⟩
        intro answered
        cases answered with
        | error status =>
            simp only [Program.bind]
            split <;> rfl
        | ok upload =>
            apply reports_call ⟨rfl, fun _ => rfl⟩
            intro bucket
            simp only [Program.bind]
            split
            · rfl
            · split
              · rfl
              · split
                · rfl
                · apply reports_bind (reports_uploadContent request)
                  intro result
                  cases result with
                  | error status => rfl
                  | ok content => exact reports_storePart enabled ..

theorem reports_releaseParts (enabled : setup.gcEnabled = true) (casKeys : List Bytes) :
    Reports none (MultipartHandlers.releaseParts setup casKeys) := by
  induction casKeys with
  | nil => rfl
  | cons casKey casKeys inductionHypothesis =>
      refine ⟨rfl, fun answered => ?_⟩
      match answered with
      | .error status => exact inductionHypothesis
      | .ok false => exact inductionHypothesis
      | .ok true =>
          change Reports (some casKey) (reportFree setup (some casKey) >>= _)
          apply reports_bind (reports_reportFree enabled (some casKey))
          exact fun _ => inductionHypothesis

theorem reports_completeWith (enabled : setup.gcEnabled = true) (bucketName objectKey : Bytes)
    (upload : MetaStore.MultipartUploadInfo) (casKeys : List Bytes) (totalSize : Nat)
    (finalCasKey : Bytes) :
    Reports none (MultipartHandlers.completeWith setup bucketName objectKey upload casKeys
      totalSize finalCasKey) := by
  refine ⟨rfl, fun answered => ?_⟩
  cases answered with
  | error status =>
      change Reports none (cleanupUnreferencedCas setup finalCasKey >>= _)
      exact reports_bind (reports_cleanupUnreferencedCas finalCasKey) fun _ => rfl
  | ok candidate =>
      change Reports candidate (reportFree setup candidate >>= _)
      apply reports_bind (reports_reportFree enabled candidate)
      intro _
      apply reports_bind (reports_releaseParts enabled casKeys)
      intro _
      exact reports_call ⟨rfl, fun _ => rfl⟩ fun _ => rfl

theorem reports_completeParts (enabled : setup.gcEnabled = true) (bucketName objectKey : Bytes)
    (upload : MetaStore.MultipartUploadInfo) (client : List (Int × Bytes))
    (server : List MetaStore.MultipartPartInfo) :
    Reports none (MultipartHandlers.completeParts setup bucketName objectKey upload client
      server) := by
  unfold MultipartHandlers.completeParts
  split
  · rfl
  · split
    · rfl
    · apply reports_bind (reports_of_only
        ((only_merge _).mono (fun _ => freesNothing_storage) fun _ => id))
      intro merged
      cases merged with
      | error status => rfl
      | ok finalCasKey => exact reports_completeWith enabled ..

theorem reports_completeUpload (enabled : setup.gcEnabled = true) (request : HttpRequest) :
    Reports none (MultipartHandlers.completeUpload setup request) := by
  unfold MultipartHandlers.completeUpload
  dsimp only
  split
  · rfl
  · apply reports_call ⟨rfl, fun _ => rfl⟩
    intro answered
    cases answered with
    | error status =>
        simp only [Program.bind]
        split <;> rfl
    | ok upload =>
        change Reports none (MultipartHandlers.completeUploadOf setup request _ _ upload)
        unfold MultipartHandlers.completeUploadOf
        split
        · rfl
        · split
          · split
            · rfl
            · rfl
            · apply reports_call ⟨rfl, fun _ => rfl⟩
              intro listed
              cases listed with
              | error status => rfl
              | ok listed => exact reports_completeParts enabled ..
          · rfl

theorem reports_abortUpload (enabled : setup.gcEnabled = true) (request : HttpRequest) :
    Reports none (MultipartHandlers.abortUpload setup request) := by
  have finishes : ∀ uploadId,
      Reports none (MultipartHandlers.abortUploadOf.finish setup uploadId) := by
    intro uploadId
    apply reports_call ⟨rfl, fun _ => rfl⟩
    intro removed
    cases removed <;> rfl
  unfold MultipartHandlers.abortUpload
  dsimp only
  split
  · rfl
  · apply reports_call ⟨rfl, fun _ => rfl⟩
    intro answered
    cases answered with
    | error status =>
        simp only [Program.bind]
        split <;> rfl
    | ok upload =>
        apply reports_call ⟨rfl, fun _ => rfl⟩
        intro listed
        cases listed with
        | error status => exact finishes _
        | ok listed =>
            apply reports_bind (reports_releaseParts enabled _)
            exact fun _ => finishes _

end Programs

end MiniS3.Api
