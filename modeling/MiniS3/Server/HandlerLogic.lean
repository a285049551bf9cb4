import MiniS3.Db.CasKeys
import MiniS3.Server.Dispatch

/-!
# A logic for handlers

Handlers call the metadata store, write blobs, and look up and remove the files of blobs.
What is to be shown of all of them differs from one property of the server to the next;
the walk through them does not.  A `HandlerLogic` has the rules that the walk needs, with a
property `keys` of the blob keys that go around, and `holds_handler` is the walk.
-/

namespace MiniS3

open Lib Db

/-- The calls of handlers that are not calls on files. -/
def IoOp.Inner : IoOp → Prop
  | .metaStore _ | .generateUuid | .now | .createdAt | .exportMetrics | .addPendingDelete _ => True
  | _ => False

/-- The keys that a call hands on. -/
def IoOp.Gives (keys : Bytes → Prop) : IoOp → Prop
  | .metaStore call => call.Stores keys
  | .addPendingDelete casKey => keys casKey
  | _ => True

/-- The keys in the answer to a call. -/
def IoOp.Returns (keys : Bytes → Prop) : (op : IoOp) → op.Ans → Prop
  | .metaStore call, answer => call.Returns keys answer
  | _, _ => True

/-- A result that is such a key, if it is one. -/
def ReturnsKey (keys : Bytes → Prop) (result : Result Bytes) : Prop :=
  ∀ casKey, result = .ok casKey → keys casKey

namespace Api

open Net

/-- A property of programs with the rules that a walk through the handlers needs.
`Holds result program` says that the program finishes with a `result`, and what the logic
is about besides. -/
structure HandlerLogic (setup : Setup) (keys : Bytes → Prop) where
  Holds : {α : Type} → (α → Prop) → ServerM α → Prop
  ret : ∀ {α : Type} {result : α → Prop} {value : α}, result value → Holds result (.ret value)
  bind : ∀ {α β : Type} {middle : α → Prop} {result : β → Prop} {program : ServerM α}
    {rest : α → ServerM β}, Holds middle program →
    (∀ value, middle value → Holds result (rest value)) → Holds result (program >>= rest)
  call : ∀ {α : Type} {result : α → Prop} {op : IoOp} {next : op.Ans → ServerM α}, op.Inner →
    op.Gives keys → (∀ answer, op.Returns keys answer → Holds result (next answer)) →
    Holds result (.call op next)
  digest : ∀ data, keys (setup.sha256Hex data)
  blobExists : ∀ {casKey}, keys casKey → Holds (fun _ => True) (DataStore.blobExists setup casKey)
  delete : ∀ {casKey}, keys casKey → Holds (fun _ => True) (DataStore.delete setup casKey)
  write : ∀ data, Holds (ReturnsKey keys) (DataStore.write setup data)
  merge : ∀ {casKeys : List Bytes}, (∀ casKey ∈ casKeys, keys casKey) →
    Holds (ReturnsKey keys) (DataStore.merge setup casKeys)

/-- If the response has a file, it is that of a blob. -/
def SendsBlob (setup : Setup) (keys : Bytes → Prop) (response : Option HttpResponse) : Prop :=
  ∀ answer, response = some answer → answer.hasFile = true →
    ∃ casKey, keys casKey ∧ answer.filePath = setup.getCasPath casKey

/-- The request names no blob, or such a key. -/
def Named (keys : Bytes → Prop) (request : HttpRequest) : Prop :=
  request.getHeader (ascii "X-Internal-CAS-Key") = [] ∨
    keys (request.getHeader (ascii "X-Internal-CAS-Key"))

section Responses

variable {setup : Setup} {keys : Bytes → Prop}

theorem sendsBlob_of_noFile {response : HttpResponse} (noFile : response.hasFile = false) :
    SendsBlob setup keys (some response) := by
  rintro answer ⟨⟩ file
  rw [noFile] at file
  contradiction

theorem sendsBlob_none : SendsBlob setup keys none := by
  rintro answer ⟨⟩

theorem sendsBlob_map {printed : Option Bytes} {build : Bytes → HttpResponse}
    (noFile : ∀ body, (build body).hasFile = false) : SendsBlob setup keys (printed.map build) := by
  cases printed with
  | none => exact sendsBlob_none
  | some body => exact sendsBlob_of_noFile (noFile body)

theorem sendsBlob_withTraceId {response : Option HttpResponse}
    (sends : SendsBlob setup keys response) (request : HttpRequest) :
    SendsBlob setup keys (Server.withTraceId request response) := by
  intro answer same file
  obtain ⟨plain, rfl, rfl⟩ := Option.map_eq_some_iff.mp same
  exact sends plain rfl file

theorem sendsBlob_filter {response : Option HttpResponse} (sends : SendsBlob setup keys response)
    (logged : HttpResponse → Bool) : SendsBlob setup keys (response.filter logged) :=
  fun answer same => sends answer (Option.filter_eq_some_iff.mp same).1

theorem sendsBlob_sendObject {request : HttpRequest} {info : ObjectInfo}
    (known : keys info.sha256Hash) (createdAt : Int) :
    SendsBlob setup keys (ObjectHandlers.sendObject setup request info createdAt) := by
  intro answer same file
  unfold ObjectHandlers.sendObject at same
  dsimp only at same
  split at same
  · cases same
    exact ⟨info.sha256Hash, known, rfl⟩
  · obtain ⟨range, -, rfl⟩ := Option.map_eq_some_iff.mp same
    cases range with
    | none => simp [ObjectHandlers.rangeNotSatisfiable, HttpResponse.hasFile,
        HttpResponse.setHeader, HttpResponse.ofStatus, HttpResponse.empty] at file
    | some range => exact ⟨info.sha256Hash, known, rfl⟩

end Responses

namespace HandlerLogic

variable {setup : Setup} {keys : Bytes → Prop} (logic : HandlerLogic setup keys)
variable {request : HttpRequest}

/-! ## Leaves -/

theorem holds_true {α : Type} (value : α) : logic.Holds (fun _ => True) (pure value) :=
  logic.ret trivial

theorem holds_none : logic.Holds (SendsBlob setup keys) (pure none) :=
  logic.ret sendsBlob_none

theorem holds_some {response : HttpResponse} (noFile : response.hasFile = false) :
    logic.Holds (SendsBlob setup keys) (pure (some response)) :=
  logic.ret (sendsBlob_of_noFile noFile)

theorem holds_map {printed : Option Bytes} {build : Bytes → HttpResponse}
    (noFile : ∀ body, (build body).hasFile = false) :
    logic.Holds (SendsBlob setup keys) (pure (printed.map build)) :=
  logic.ret (sendsBlob_map noFile)

theorem holds_error (library : JsonLibrary) (statusCode : Nat) (code message traceId : Bytes) :
    logic.Holds (SendsBlob setup keys)
      (pure (HttpResponse.error library statusCode code message traceId)) :=
  logic.holds_map fun _ => rfl

/-- One of two error responses. -/
theorem holds_errors {condition : Prop} [Decidable condition] (library : JsonLibrary)
    {statusCode otherCode : Nat} {code message traceId other text id : Bytes} :
    logic.Holds (SendsBlob setup keys)
      (if condition then pure (HttpResponse.error library statusCode code message traceId)
      else pure (HttpResponse.error library otherCode other text id)) := by
  split
  · apply logic.holds_error
  · apply logic.holds_error

/-! ## Bucket handlers -/

section Buckets

open BucketHandlers

theorem holds_createBucket :
    logic.Holds (SendsBlob setup keys) (createBucket setup request) := by
  unfold createBucket
  dsimp only
  split
  · apply logic.holds_error
  · split
    · apply logic.holds_error
    · refine logic.call trivial trivial fun answer _ => ?_
      cases answer with
      | error status => apply logic.holds_errors
      | ok id =>
          refine logic.holds_map fun body => ?_
          unfold HttpResponse.created
          split <;> rfl

theorem holds_getBucket :
    logic.Holds (SendsBlob setup keys) (getBucket setup request) := by
  unfold getBucket
  dsimp only
  split
  · apply logic.holds_error
  · refine logic.call trivial trivial fun answer _ => ?_
    cases answer with
    | error status => apply logic.holds_errors
    | ok bucket =>
        exact logic.call trivial trivial fun createdAt _ => logic.holds_map fun _ => rfl

theorem holds_deleteBucket :
    logic.Holds (SendsBlob setup keys) (deleteBucket setup request) := by
  unfold deleteBucket
  dsimp only
  split
  · apply logic.holds_error
  · refine logic.call trivial trivial fun answer _ => ?_
    cases answer with
    | error status => apply logic.holds_errors
    | ok bucket =>
        refine logic.call trivial trivial fun answer _ => ?_
        match answer with
        | .error status => apply logic.holds_error
        | .ok false => apply logic.holds_error
        | .ok true =>
            refine logic.call trivial trivial fun answer _ => ?_
            cases answer with
            | error status => apply logic.holds_error
            | ok => exact logic.holds_some rfl

theorem holds_bucketEntries (buckets : List BucketInfo) :
    logic.Holds (fun _ => True) (bucketEntries buckets) := by
  induction buckets with
  | nil => exact logic.holds_true _
  | cons bucket buckets inductionHypothesis =>
      refine logic.call trivial trivial fun createdAt _ => ?_
      simp only [Program.bind]
      exact logic.bind inductionHypothesis fun _ _ => logic.holds_true _

theorem holds_listBuckets : logic.Holds (SendsBlob setup keys) (listBuckets setup) := by
  refine logic.call trivial trivial fun answer _ => ?_
  cases answer with
  | error status => apply logic.holds_error
  | ok buckets =>
      simp only [Program.bind]
      exact logic.bind (logic.holds_bucketEntries buckets) fun _ _ =>
        logic.holds_map fun _ => rfl

end Buckets

/-! ## Content -/

theorem holds_cleanupUnreferencedCas {casKey : Bytes} (known : keys casKey) :
    logic.Holds (fun _ => True) (cleanupUnreferencedCas setup casKey) := by
  have deleted : logic.Holds (fun _ => True) (do
      let _ ← DataStore.delete setup casKey
      return ()) :=
    logic.bind (logic.delete known) fun _ _ => logic.holds_true _
  refine logic.call trivial trivial fun answer _ => ?_
  cases answer with
  | error status =>
      change logic.Holds _ (if status.code = .NoSuchKey then _ else _)
      split
      · exact deleted
      · exact logic.holds_true _
  | ok row =>
      change logic.Holds _ (if row.refCount = 0 then _ else _)
      split
      · exact deleted
      · exact logic.holds_true _

theorem holds_reportFree {candidate : Option Bytes}
    (known : ∀ casKey, candidate = some casKey → keys casKey) :
    logic.Holds (fun _ => True) (reportFree setup candidate) := by
  cases candidate with
  | none => exact logic.holds_true _
  | some casKey =>
      unfold reportFree
      dsimp only
      split
      · exact logic.call trivial (known casKey rfl) fun _ _ => logic.holds_true _
      · exact logic.holds_true _

theorem holds_uploadContent (named : Named keys request) :
    logic.Holds (fun result => ∀ content, result = .ok content → keys content.casKey)
      (uploadContent setup request) := by
  unfold uploadContent
  dsimp only
  split
  · refine logic.bind (logic.blobExists (logic.digest _)) fun existed _ => ?_
    refine logic.bind (logic.write request.body) fun written known => ?_
    cases written with
    | error status =>
        refine logic.ret ?_
        rintro content ⟨⟩
    | ok casKey =>
        refine logic.ret ?_
        rintro content ⟨⟩
        exact known casKey rfl
  · rename_i given
    refine logic.ret ?_
    rintro content ⟨⟩
    exact named.resolve_left (by simpa using given)

theorem holds_cleanupContent {content : Content} (known : keys content.casKey) :
    logic.Holds (fun _ => True) (cleanupContent setup content) := by
  unfold cleanupContent
  split
  · exact logic.holds_cleanupUnreferencedCas known
  · exact logic.holds_true _

/-! ## Object handlers -/

section Objects

open ObjectHandlers

theorem holds_storeObject {content : Content} (known : keys content.casKey)
    (bucketName objectKey : Bytes) (bucketId : Int) (idempotencyKey hash : Bytes) :
    logic.Holds (SendsBlob setup keys)
      (storeObject setup request bucketName objectKey bucketId content idempotencyKey hash) := by
  refine logic.call trivial known fun answer told => ?_
  cases answer with
  | error status =>
      simp only [Program.bind]
      exact logic.bind (logic.holds_cleanupContent known) fun _ _ => logic.holds_error _ _ _ _ _
  | ok candidate =>
      simp only [Program.bind]
      refine logic.bind (logic.holds_reportFree fun casKey same =>
        told casKey (congrArg _ same)) fun _ _ => ?_
      split
      · exact logic.holds_none
      · split
        · exact logic.holds_some rfl
        · exact logic.call trivial trivial fun _ _ => logic.holds_some rfl

theorem holds_putIdempotently {content : Content} (known : keys content.casKey)
    (bucketName objectKey : Bytes) (bucketId : Int) :
    logic.Holds (SendsBlob setup keys)
      (putIdempotently setup request bucketName objectKey bucketId content) := by
  unfold putIdempotently
  dsimp only
  split
  · exact logic.holds_storeObject known ..
  · refine logic.call trivial trivial fun answer _ => ?_
    match answer with
    | .error status => apply logic.holds_error
    | .ok none => exact logic.holds_storeObject known ..
    | .ok (some record) =>
        change logic.Holds _ (if record.requestHash ≠ _ then _ else _)
        split
        · apply logic.holds_error
        · exact logic.holds_some rfl

theorem holds_putObject (named : Named keys request) :
    logic.Holds (SendsBlob setup keys) (putObject setup request) := by
  unfold putObject
  dsimp only
  split
  · apply logic.holds_error
  · refine logic.call trivial trivial fun answer _ => ?_
    cases answer with
    | error status => apply logic.holds_errors
    | ok bucket =>
        simp only [Program.bind]
        split
        · apply logic.holds_error
        · refine logic.bind (logic.holds_uploadContent named) fun result known => ?_
          cases result with
          | error status => apply logic.holds_error
          | ok content =>
              have own := known content rfl
              dsimp only
              split
              · refine logic.bind (logic.holds_cleanupContent own) fun _ _ => ?_
                apply logic.holds_error
              · exact logic.holds_putIdempotently own ..

theorem holds_getObject : logic.Holds (SendsBlob setup keys) (getObject setup request) := by
  unfold getObject
  dsimp only
  split
  · apply logic.holds_error
  · refine logic.call trivial trivial fun answer _ => ?_
    cases answer with
    | error status => apply logic.holds_errors
    | ok bucket =>
        refine logic.call trivial trivial fun answer told => ?_
        cases answer with
        | error status => apply logic.holds_errors
        | ok info =>
            have known : keys info.sha256Hash := told info rfl
            simp only [Program.bind]
            refine logic.bind (logic.blobExists known) fun present _ => ?_
            cases present with
            | true => exact logic.call trivial trivial fun createdAt _ =>
                logic.ret (sendsBlob_sendObject known createdAt)
            | false => apply logic.holds_error

theorem holds_headObject : logic.Holds (SendsBlob setup keys) (headObject setup request) := by
  unfold headObject
  dsimp only
  split
  · apply logic.holds_error
  · refine logic.call trivial trivial fun answer _ => ?_
    cases answer with
    | error status => apply logic.holds_errors
    | ok bucket =>
        refine logic.call trivial trivial fun answer _ => ?_
        cases answer with
        | error status => apply logic.holds_errors
        | ok info => exact logic.call trivial trivial fun createdAt _ => logic.holds_some rfl

theorem holds_deleteObject :
    logic.Holds (SendsBlob setup keys) (deleteObject setup request) := by
  unfold deleteObject
  dsimp only
  split
  · apply logic.holds_error
  · refine logic.call trivial trivial fun answer _ => ?_
    cases answer with
    | error status => apply logic.holds_errors
    | ok bucket =>
        refine logic.call trivial trivial fun answer _ => ?_
        cases answer with
        | error status => apply logic.holds_errors
        | ok info =>
            refine logic.call trivial trivial fun answer told => ?_
            cases answer with
            | error status => apply logic.holds_error
            | ok candidate =>
                simp only [Program.bind]
                refine logic.bind (logic.holds_reportFree fun casKey same =>
                  told casKey (congrArg _ same)) fun _ _ => ?_
                exact logic.holds_some rfl

theorem holds_objectEntries (objects : List ObjectInfo) :
    logic.Holds (fun _ => True) (objectEntries objects) := by
  induction objects with
  | nil => exact logic.holds_true _
  | cons info objects inductionHypothesis =>
      refine logic.call trivial trivial fun createdAt _ => ?_
      simp only [Program.bind]
      exact logic.bind inductionHypothesis fun _ _ => logic.holds_true _

theorem holds_listObjects : logic.Holds (SendsBlob setup keys) (listObjects setup request) := by
  unfold listObjects
  dsimp only
  split
  · apply logic.holds_error
  · refine logic.call trivial trivial fun answer _ => ?_
    cases answer with
    | error status => apply logic.holds_errors
    | ok bucket =>
        refine logic.call trivial trivial fun answer _ => ?_
        cases answer with
        | error status => apply logic.holds_error
        | ok listed =>
            simp only [Program.bind]
            exact logic.bind (logic.holds_objectEntries listed.objects) fun _ _ =>
              logic.holds_map fun _ => rfl

end Objects

/-! ## Multipart handlers -/

section Multipart

open MultipartHandlers MetaStore

theorem holds_initUpload : logic.Holds (SendsBlob setup keys) (initUpload setup request) := by
  unfold initUpload
  dsimp only
  split
  · apply logic.holds_error
  · refine logic.call trivial trivial fun answer _ => ?_
    cases answer with
    | error status => apply logic.holds_errors
    | ok bucket =>
        refine logic.call trivial trivial fun uploadId _ => ?_
        refine logic.call trivial trivial fun now _ => ?_
        refine logic.call trivial trivial fun answer _ => ?_
        cases answer with
        | error status => apply logic.holds_error
        | ok => exact logic.holds_map fun _ => rfl

theorem holds_storePart {content : Content} (known : keys content.casKey) (uploadId : Bytes)
    (partNumber : Int) :
    logic.Holds (SendsBlob setup keys) (storePart setup uploadId partNumber content) := by
  refine logic.call trivial known fun answer told => ?_
  cases answer with
  | error status =>
      simp only [Program.bind]
      exact logic.bind (logic.holds_cleanupContent known) fun _ _ => logic.holds_error _ _ _ _ _
  | ok candidate =>
      simp only [Program.bind]
      refine logic.bind (logic.holds_reportFree fun casKey same =>
        told casKey (congrArg _ same)) fun _ _ => ?_
      exact logic.holds_map fun _ => rfl

theorem holds_uploadPartOf (named : Named keys request) (bucketName objectKey : Bytes)
    (partNumber : Int) (found : MultipartUploadInfo) :
    logic.Holds (SendsBlob setup keys)
      (uploadPartOf setup request bucketName objectKey partNumber found) := by
  refine logic.call trivial trivial fun bucket _ => ?_
  simp only [Program.bind]
  split
  · apply logic.holds_error
  · split
    · apply logic.holds_error
    · split
      · apply logic.holds_error
      · refine logic.bind (logic.holds_uploadContent named) fun result known => ?_
        cases result with
        | error status => apply logic.holds_error
        | ok content => exact logic.holds_storePart (known content rfl) ..

theorem holds_uploadPart (named : Named keys request) :
    logic.Holds (SendsBlob setup keys) (uploadPart setup request) := by
  unfold uploadPart
  dsimp only
  split
  · apply logic.holds_error
  · split
    · apply logic.holds_error
    · split
      · apply logic.holds_error
      · refine logic.call trivial trivial fun answer _ => ?_
        cases answer with
        | error status => apply logic.holds_errors
        | ok found => exact logic.holds_uploadPartOf named ..

theorem holds_releaseParts {casKeys : List Bytes} (known : ∀ casKey ∈ casKeys, keys casKey) :
    logic.Holds (fun _ => True) (releaseParts setup casKeys) := by
  induction casKeys with
  | nil => exact logic.holds_true _
  | cons casKey casKeys inductionHypothesis =>
      have rest := inductionHypothesis fun other member =>
        known other (List.mem_cons_of_mem casKey member)
      refine logic.call trivial trivial fun answer _ => ?_
      match answer with
      | .error status => exact rest
      | .ok false => exact rest
      | .ok true =>
          simp only [Program.bind]
          refine logic.bind (logic.holds_reportFree ?_) fun _ _ => rest
          rintro other ⟨⟩
          exact known casKey List.mem_cons_self

theorem holds_completeWith (bucketName objectKey : Bytes) (found : MultipartUploadInfo)
    {casKeys : List Bytes} (known : ∀ casKey ∈ casKeys, keys casKey) (totalSize : Nat)
    {finalCasKey : Bytes} (merged : keys finalCasKey) :
    logic.Holds (SendsBlob setup keys)
      (completeWith setup bucketName objectKey found casKeys totalSize finalCasKey) := by
  refine logic.call trivial merged fun answer told => ?_
  cases answer with
  | error status =>
      simp only [Program.bind]
      exact logic.bind (logic.holds_cleanupUnreferencedCas merged) fun _ _ =>
        logic.holds_error _ _ _ _ _
  | ok candidate =>
      simp only [Program.bind]
      refine logic.bind (logic.holds_reportFree fun casKey same =>
        told casKey (congrArg _ same)) fun _ _ => ?_
      refine logic.bind (logic.holds_releaseParts known) fun _ _ => ?_
      exact logic.call trivial trivial fun _ _ => logic.holds_map fun _ => rfl

theorem holds_completeParts (bucketName objectKey : Bytes) (found : MultipartUploadInfo)
    (client : List (Int × Bytes)) {server : List MultipartPartInfo}
    (known : ∀ part ∈ server, keys part.sha256Hash) :
    logic.Holds (SendsBlob setup keys)
      (completeParts setup bucketName objectKey found client server) := by
  have casKeys : ∀ casKey ∈ server.map MultipartPartInfo.sha256Hash, keys casKey := by
    intro casKey member
    obtain ⟨part, listed, rfl⟩ := List.mem_map.mp member
    exact known part listed
  unfold completeParts
  split
  · apply logic.holds_error
  · split
    · apply logic.holds_error
    · refine logic.bind (logic.merge casKeys) fun result merged => ?_
      cases result with
      | error status => apply logic.holds_error
      | ok finalCasKey =>
          exact logic.holds_completeWith _ _ _ casKeys _ (merged finalCasKey rfl)

theorem holds_completeUpload :
    logic.Holds (SendsBlob setup keys) (completeUpload setup request) := by
  unfold completeUpload
  dsimp only
  split
  · apply logic.holds_error
  · refine logic.call trivial trivial fun answer _ => ?_
    cases answer with
    | error status => apply logic.holds_errors
    | ok found =>
        simp only [Program.bind]
        unfold completeUploadOf
        split
        · apply logic.holds_error
        · split
          · split
            · exact logic.holds_none
            · apply logic.holds_error
            · refine logic.call trivial trivial fun answer told => ?_
              cases answer with
              | error status => apply logic.holds_error
              | ok listed => exact logic.holds_completeParts _ _ _ _ (told listed rfl)
          · apply logic.holds_error

theorem holds_abortUpload : logic.Holds (SendsBlob setup keys) (abortUpload setup request) := by
  have finished (uploadId : Bytes) :
      logic.Holds (SendsBlob setup keys) (abortUploadOf.finish setup uploadId) := by
    refine logic.call trivial trivial fun answer _ => ?_
    cases answer with
    | error status => apply logic.holds_error
    | ok => exact logic.holds_some rfl
  unfold abortUpload
  dsimp only
  split
  · apply logic.holds_error
  · refine logic.call trivial trivial fun answer _ => ?_
    cases answer with
    | error status => apply logic.holds_errors
    | ok found =>
        refine logic.call trivial trivial fun answer told => ?_
        cases answer with
        | error status => exact finished _
        | ok listed =>
            simp only [Program.bind]
            refine logic.bind (logic.holds_releaseParts ?_) fun _ _ => finished _
            intro casKey member
            obtain ⟨part, stored, rfl⟩ := List.mem_map.mp member
            exact told listed rfl part stored

end Multipart

/-! ## All handlers -/

theorem holds_createPresignUrl :
    logic.Holds (SendsBlob setup keys) (PresignHandlers.createPresignUrl setup request) := by
  unfold PresignHandlers.createPresignUrl
  split
  · apply logic.holds_error
  · split
    · exact logic.holds_none
    · apply logic.holds_error
    · refine logic.call trivial trivial fun now _ => ?_
      simp only [Program.bind]
      split
      · apply logic.holds_error
      · exact logic.holds_map fun _ => rfl

end HandlerLogic

/-- Two endpoints take the key of a blob from a header. -/
def Endpoint.uploads : Endpoint → Bool
  | .putObject | .uploadPart => true
  | _ => false

namespace HandlerLogic

variable {setup : Setup} {keys : Bytes → Prop} (logic : HandlerLogic setup keys)
variable {request : HttpRequest}

/-- The walk through the handlers. -/
theorem holds_handler (endpoint : Endpoint)
    (named : endpoint.uploads = true → Named keys request) :
    logic.Holds (SendsBlob setup keys) (endpoint.handler setup request) := by
  cases endpoint with
  | healthCheck => exact logic.holds_map fun _ => rfl
  | readyCheck => exact logic.holds_map fun _ => rfl
  | metrics => exact logic.call trivial trivial fun _ _ => logic.holds_some rfl
  | createBucket => exact logic.holds_createBucket
  | getBucket => exact logic.holds_getBucket
  | deleteBucket => exact logic.holds_deleteBucket
  | listBuckets => exact logic.holds_listBuckets
  | putObject => exact logic.holds_putObject (named rfl)
  | getObject => exact logic.holds_getObject
  | headObject => exact logic.holds_headObject
  | deleteObject => exact logic.holds_deleteObject
  | listObjects => exact logic.holds_listObjects
  | initUpload => exact logic.holds_initUpload
  | uploadPart => exact logic.holds_uploadPart (named rfl)
  | completeUpload => exact logic.holds_completeUpload
  | abortUpload => exact logic.holds_abortUpload
  | createPresignUrl => exact logic.holds_createPresignUrl

/-! ## Routing -/

open Server

theorem mono {α : Type} {strong weak : α → Prop} {program : ServerM α}
    (holds : logic.Holds strong program) (implies : ∀ value, strong value → weak value) :
    logic.Holds weak program := by
  have rest := logic.bind holds fun value known => logic.ret (implies value known)
  rwa [Program.bind_ret] at rest

/-- A program of calls that hand on no key; how it ran is known as well. -/
theorem holds_of_only {α : Type} {result : α → Prop} {program : ServerM α}
    (only : Program.Only (fun op : IoOp => op.Inner ∧ op.Gives keys) result program) :
    logic.Holds (fun value => result value ∧ ∃ events, Program.Runs program events value)
      program := by
  induction program with
  | ret value => exact logic.ret ⟨only, [], .ret value⟩
  | call op next inductionHypothesis =>
      refine logic.call only.1.1 only.1.2 fun answer _ => ?_
      refine logic.mono (inductionHypothesis answer (only.2 answer)) ?_
      rintro value ⟨holds, events, runs⟩
      exact ⟨holds, _, .call runs⟩

theorem only_verifyPresignUrl (request : HttpRequest) :
    Program.Only (fun op : IoOp => op.Inner ∧ op.Gives keys) (fun _ => True)
      (PresignHandlers.verifyPresignUrl setup request) := by
  unfold PresignHandlers.verifyPresignUrl
  split
  · trivial
  · split
    · trivial
    · exact ⟨⟨trivial, trivial⟩, fun _ => trivial⟩

/-- A refusal has no file. -/
def RefusesPlainly (setup : Setup) (keys : Bytes → Prop) (decided : Decision × HttpRequest) :
    Prop :=
  ∀ response, decided.1 = .refused response → SendsBlob setup keys response

theorem only_authenticated (endpoint : Endpoint) (request : HttpRequest) :
    Program.Only (fun op : IoOp => op.Inner ∧ op.Gives keys) (RefusesPlainly setup keys)
      (authenticated setup endpoint request) := by
  unfold authenticated
  split
  · rintro response ⟨⟩
  · split
    · refine (only_verifyPresignUrl request).bind ?_
      rintro valid -
      cases valid with
      | true => rintro response ⟨⟩
      | false =>
          rintro response ⟨⟩
          exact sendsBlob_map fun _ => rfl
    · split
      · rintro response ⟨⟩
      · rintro response ⟨⟩
        exact sendsBlob_map fun _ => rfl

theorem only_dispatch (request : HttpRequest) :
    Program.Only (fun op : IoOp => op.Inner ∧ op.Gives keys) (RefusesPlainly setup keys)
      (dispatch setup request) := by
  unfold dispatch
  split
  · rintro response ⟨⟩
  · refine Program.only_bind.mpr ?_
    unfold traced
    dsimp only
    split
    · exact ⟨⟨trivial, trivial⟩, fun _ => only_authenticated _ _⟩
    · exact only_authenticated _ _

/-- A request is routed, served and logged. -/
theorem holds_respond (named : ∀ endpoint params,
      findRoute routes request.method request.path = some (endpoint, params) →
        endpoint.uploads = true → Named keys request) :
    logic.Holds (fun handled => SendsBlob setup keys handled.1) (respond setup request) := by
  have handled : logic.Holds (fun handled => SendsBlob setup keys handled.1)
      ((router setup).handle setup.json request) := by
    rw [handle_eq]
    refine logic.bind (logic.holds_of_only (only_dispatch request)) ?_
    rintro ⟨decision, served⟩ ⟨refused, events, runs⟩
    match decision with
    | .notFound => exact logic.ret (sendsBlob_map fun _ => rfl)
    | .refused response =>
        exact logic.ret (sendsBlob_withTraceId (refused response rfl) served)
    | .admitted endpoint =>
        obtain ⟨params, -, -, route, -, same, -⟩ := runs_dispatch setup runs
        have answers : logic.Holds (SendsBlob setup keys) (endpoint.handler setup served) := by
          refine logic.holds_handler endpoint fun uploads => ?_
          unfold Named
          rw [same.headers _ (by decide)]
          exact named endpoint params route uploads
        exact logic.bind answers fun response sends =>
          logic.ret (sendsBlob_withTraceId sends served)
  refine logic.bind handled ?_
  rintro ⟨response, served⟩ sends
  exact logic.ret (sendsBlob_filter sends _)

end HandlerLogic

end Api

end MiniS3
