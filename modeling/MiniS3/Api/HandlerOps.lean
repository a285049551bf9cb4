import MiniS3.Api.MultipartHandlers
import MiniS3.Storage.Gc

/-!
# The calls a handler makes

Which calls of the metadata store and which operations on files a handler can make,
whatever it is answered.  The handlers that never give a reference back by
themselves (`PutObject`, `DeleteObject`, `InitUpload`, `UploadPart`) and the collector
make `HandlerOp` calls only; `CompleteUpload` does so until it has stored the object.

The blob keys that a handler stores are digests, or what the request has in
`X-Internal-CAS-Key`; `keys` is any property that both have.
-/

namespace MiniS3.Api

open Lib Db Net DataStore

/-- Calls of the metadata store that store only keys of the given kind, store parts only
under valid numbers, and give no reference back outside a transaction. -/
def PlainCall (keys : Bytes → Prop) : MetaCall → Prop
  | .putObjectWithRefCount _ _ _ _ _ sha256Hash => keys sha256Hash
  | .putPartWithRefCount _ partNumber sha256Hash _ _ =>
      keys sha256Hash ∧ 1 ≤ partNumber ∧ partNumber ≤ 10000
  | .decrementRefCountAndCheckZero _ | .deleteMultipartUpload _ | .deleteBucket _ => False
  | _ => True

/-- The calls of a handler. -/
inductive HandlerOp (setup : Setup) (keys : Bytes → Prop) : IoOp → Prop
  | storage {op : IoOp} (storage : StorageOp setup op) : HandlerOp setup keys op
  | delete (casKey : Bytes) : HandlerOp setup keys (.removeFile (setup.getCasPath casKey))
  | addPendingDelete (casKey : Bytes) : HandlerOp setup keys (.addPendingDelete casKey)
  | now : HandlerOp setup keys .now
  | metaStore {call : MetaCall} (plain : PlainCall keys call) :
      HandlerOp setup keys (.metaStore call)

/-- The keys a handler can meet: digests, and the key the request brings. -/
structure HandlesKeys (setup : Setup) (keys : Bytes → Prop) (request : HttpRequest) : Prop where
  digest : ∀ data, keys (setup.sha256Hex data)
  header : request.getHeader (ascii "X-Internal-CAS-Key") ≠ [] →
    keys (request.getHeader (ascii "X-Internal-CAS-Key"))

section

variable {setup : Setup} {keys : Bytes → Prop} {request : HttpRequest}

theorem only_cleanupUnreferencedCas (casKey : Bytes) :
    Program.Only (HandlerOp setup keys) (fun _ => True) (cleanupUnreferencedCas setup casKey) := by
  refine ⟨.metaStore trivial, fun answer => ?_⟩
  cases answer with
  | error status =>
      simp only [Program.bind]
      split
      · exact ⟨.delete casKey, fun _ => trivial⟩
      · trivial
  | ok row =>
      simp only [Program.bind]
      split
      · exact ⟨.delete casKey, fun _ => trivial⟩
      · trivial

theorem only_reportFree (candidate : Option Bytes) :
    Program.Only (HandlerOp setup keys) (fun _ => True) (reportFree setup candidate) := by
  unfold reportFree
  split
  · split
    · exact ⟨.addPendingDelete _, fun _ => trivial⟩
    · trivial
  · trivial

theorem only_cleanupContent (content : Content) :
    Program.Only (HandlerOp setup keys) (fun _ => True) (cleanupContent setup content) := by
  unfold cleanupContent
  split
  · exact only_cleanupUnreferencedCas content.casKey
  · trivial

theorem only_uploadContent (handles : HandlesKeys setup keys request) :
    Program.Only (HandlerOp setup keys) (fun result => ∀ content, result = .ok content →
      keys content.casKey) (uploadContent setup request) := by
  unfold uploadContent
  dsimp only
  split
  · refine ⟨.storage (.fileExists _), fun existedBefore => ?_⟩
    refine ((only_write request.body).mono (fun _ => .storage) fun _ => id).bind ?_
    intro written digest
    cases written with
    | error status => rintro content ⟨⟩
    | ok casKey =>
        rintro content ⟨⟩
        obtain ⟨data, rfl⟩ := digest casKey rfl
        exact handles.digest data
  · rename_i nonempty
    rintro content ⟨⟩
    exact handles.header (by simpa using nonempty)

/-! ## Object handlers -/

theorem only_storeObject (bucketName objectKey : Bytes) (bucketId : Int) {content : Content}
    (known : keys content.casKey) (idempotencyKey hash : Bytes) :
    Program.Only (HandlerOp setup keys) (fun _ => True)
      (ObjectHandlers.storeObject setup request bucketName objectKey bucketId content
        idempotencyKey hash) := by
  refine ⟨.metaStore known, fun answer => ?_⟩
  cases answer with
  | error status => exact (only_cleanupContent content).bind fun _ _ => trivial
  | ok candidate =>
      refine (only_reportFree candidate).bind fun _ _ => ?_
      split
      · trivial
      · split
        · trivial
        · exact ⟨.metaStore trivial, fun _ => trivial⟩

theorem only_putIdempotently (bucketName objectKey : Bytes) (bucketId : Int) {content : Content}
    (known : keys content.casKey) :
    Program.Only (HandlerOp setup keys) (fun _ => True)
      (ObjectHandlers.putIdempotently setup request bucketName objectKey bucketId content) := by
  unfold ObjectHandlers.putIdempotently
  dsimp only
  split
  · exact only_storeObject bucketName objectKey bucketId known _ _
  · refine ⟨.metaStore trivial, fun answer => ?_⟩
    cases answer with
    | error status => trivial
    | ok found =>
        cases found with
        | none => exact only_storeObject bucketName objectKey bucketId known _ _
        | some record =>
            simp only [Program.bind]
            split <;> trivial

theorem only_putObject (handles : HandlesKeys setup keys request) :
    Program.Only (HandlerOp setup keys) (fun _ => True)
      (ObjectHandlers.putObject setup request) := by
  unfold ObjectHandlers.putObject
  dsimp only
  split
  · trivial
  · refine ⟨.metaStore trivial, fun answer => ?_⟩
    cases answer with
    | error status =>
        simp only [Program.bind]
        split <;> trivial
    | ok bucket =>
        simp only [Program.bind]
        split
        · trivial
        · refine (only_uploadContent handles).bind ?_
          intro result known
          cases result with
          | error status => trivial
          | ok content =>
              simp only
              split
              · exact (only_cleanupContent content).bind fun _ _ => trivial
              · exact only_putIdempotently _ _ _ (known content rfl)

theorem only_deleteObject :
    Program.Only (HandlerOp setup keys) (fun _ => True)
      (ObjectHandlers.deleteObject setup request) := by
  unfold ObjectHandlers.deleteObject
  dsimp only
  split
  · trivial
  · refine ⟨.metaStore trivial, fun answer => ?_⟩
    cases answer with
    | error status =>
        simp only [Program.bind]
        split <;> trivial
    | ok bucket =>
        refine ⟨.metaStore trivial, fun found => ?_⟩
        cases found with
        | error status =>
            simp only [Program.bind]
            split <;> trivial
        | ok info =>
            refine ⟨.metaStore trivial, fun removed => ?_⟩
            cases removed with
            | error status => trivial
            | ok candidate => exact (only_reportFree candidate).bind fun _ _ => trivial

/-! ## Multipart handlers -/

theorem only_initUpload :
    Program.Only (HandlerOp setup keys) (fun _ => True)
      (MultipartHandlers.initUpload setup request) := by
  unfold MultipartHandlers.initUpload
  dsimp only
  split
  · trivial
  · refine ⟨.metaStore trivial, fun answer => ?_⟩
    cases answer with
    | error status =>
        simp only [Program.bind]
        split <;> trivial
    | ok bucket =>
        refine ⟨.storage .generateUuid, fun uploadId => ⟨.now, fun now => ?_⟩⟩
        refine ⟨.metaStore trivial, fun created => ?_⟩
        cases created <;> trivial

theorem only_storePart {uploadId : Bytes} {partNumber : Int} (valid : 1 ≤ partNumber ∧
    partNumber ≤ 10000) {content : Content} (known : keys content.casKey) :
    Program.Only (HandlerOp setup keys) (fun _ => True)
      (MultipartHandlers.storePart setup uploadId partNumber content) := by
  refine ⟨.metaStore ⟨known, valid⟩, fun answer => ?_⟩
  cases answer with
  | error status => exact (only_cleanupContent content).bind fun _ _ => trivial
  | ok candidate => exact (only_reportFree candidate).bind fun _ _ => trivial

theorem only_uploadPartOf (handles : HandlesKeys setup keys request) (bucketName objectKey : Bytes)
    {partNumber : Int} (valid : 1 ≤ partNumber ∧ partNumber ≤ 10000)
    (upload : MetaStore.MultipartUploadInfo) :
    Program.Only (HandlerOp setup keys) (fun _ => True)
      (MultipartHandlers.uploadPartOf setup request bucketName objectKey partNumber upload) := by
  refine ⟨.metaStore trivial, fun bucket => ?_⟩
  simp only [Program.bind]
  split
  · trivial
  · split
    · trivial
    · split
      · trivial
      · refine (only_uploadContent handles).bind ?_
        intro result known
        cases result with
        | error status => trivial
        | ok content => exact only_storePart valid (known content rfl)

theorem only_uploadPart (handles : HandlesKeys setup keys request) :
    Program.Only (HandlerOp setup keys) (fun _ => True)
      (MultipartHandlers.uploadPart setup request) := by
  unfold MultipartHandlers.uploadPart
  dsimp only
  split
  · trivial
  · split
    · trivial
    · split
      · trivial
      · rename_i range
        refine ⟨.metaStore trivial, fun answer => ?_⟩
        cases answer with
        | error status =>
            simp only [Program.bind]
            split <;> trivial
        | ok upload => exact only_uploadPartOf handles _ _ (by omega) upload

end

end MiniS3.Api
