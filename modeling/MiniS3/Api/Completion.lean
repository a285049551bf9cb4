import MiniS3.Api.PartLists
import MiniS3.Storage.Successes

/-!
# Completing an upload

Where every call succeeds, `CompleteUpload` refuses a list that is not the list of the stored
parts, and otherwise writes the object of their concatenation before it releases them, which
touches neither the objects nor the files any more.  What it answers is known from the list and the
names in the path alone.
-/

namespace MiniS3.Api.MultipartHandlers

open Lib Db Net MetaStore DataStore

/-- The response to a completed upload; an exception, when a name cannot be printed. -/
def completion (setup : Setup) (bucketName objectKey : Bytes) (totalSize : Nat)
    (finalCasKey : Bytes) : Option HttpResponse :=
  (setup.json.dump (.object [(ascii "bucket", .string bucketName), (ascii "key", .string objectKey),
    (ascii "etag", .string (etagValue finalCasKey)), (ascii "size", .integer totalSize)])).map
      fun body => (HttpResponse.ok body).setHeader (ascii "ETag") (quotedEtag finalCasKey)

/-- The object that `CompleteUpload` writes. -/
def completedObject (key contentType : Bytes) (totalSize : Nat) (finalCasKey : Bytes) : ObjectRow :=
  ⟨key, finalCasKey, toInt64 totalSize, contentType, quotedEtag finalCasKey⟩

section Responses

variable {setup : Setup}

/-- A refusal is sent, since its text can be printed. -/
theorem statusCode_error (strict : setup.json.Strict) {statusCode : Nat} {code message : Bytes}
    (printable : Bytes.isUtf8 code = true ∧ Bytes.isUtf8 message = true) :
    (HttpResponse.error setup.json statusCode code message []).map HttpResponse.statusCode =
      some statusCode := by
  have printed : (setup.json.dump (HttpResponse.errorBody code message [])).isSome = true := by
    rw [strict]
    have names : Bytes.isUtf8 (ascii "error") = true ∧ Bytes.isUtf8 (ascii "code") = true ∧
        Bytes.isUtf8 (ascii "message") = true := by decide
    simp [HttpResponse.errorBody, Json.isUtf8, Json.texts, Json.textsOfFields, names, printable]
  obtain ⟨body, dumped⟩ := Option.isSome_iff_exists.mp printed
  rw [HttpResponse.error, dumped]
  rfl

/-- What the comparison finds can be printed. -/
theorem isUtf8_partMismatch {client : List (Int × Bytes)} {server : List MultipartPartInfo}
    {message : Bytes} (found : partMismatch client server = some message) :
    Bytes.isUtf8 message = true := by
  induction client generalizing server with
  | nil => cases found
  | cons entry client inductionHypothesis =>
      cases server with
      | nil => cases found
      | cons part server =>
          unfold partMismatch at found
          split at found
          · cases found
            decide
          · split at found
            · cases found
              rw [Bytes.isUtf8_append (by decide)]
              apply Bytes.isUtf8_of_ascii
              intro byte member
              rcases Bytes.mem_ofInt member with rfl | digit
              · decide
              · unfold Bytes.digit? at digit
                split at digit
                · rename_i range
                  exact UInt8.le_trans range.2 (by decide)
                · cases digit
            · exact inductionHypothesis found

theorem isUtf8_etagValue (data : Bytes) :
    Bytes.isUtf8 (etagValue (setup.sha256Hex data)) = true := by
  apply Bytes.isUtf8_of_ascii
  intro byte member
  rcases mem_toHexString (List.mem_of_mem_take member) with ⟨-, high⟩ | ⟨-, high⟩
  · exact UInt8.le_trans high (by decide)
  · exact UInt8.le_trans high (by decide)

/-- Both names can be printed. -/
abbrev Printable (bucketName objectKey : Bytes) : Prop :=
  Bytes.isUtf8 bucketName = true ∧ Bytes.isUtf8 objectKey = true

/-- A completed upload is answered with 200 when the names in the path can be printed. -/
theorem statusCode_completion (strict : setup.json.Strict) (bucketName objectKey : Bytes)
    (totalSize : Nat) (data : Bytes) :
    (completion setup bucketName objectKey totalSize (setup.sha256Hex data)).map
        HttpResponse.statusCode =
      if Printable bucketName objectKey then some 200 else none := by
  have printed := strict (.object [(ascii "bucket", .string bucketName),
    (ascii "key", .string objectKey),
    (ascii "etag", .string (etagValue (setup.sha256Hex data))),
    (ascii "size", .integer totalSize)])
  have names : Bytes.isUtf8 (ascii "bucket") = true ∧ Bytes.isUtf8 (ascii "key") = true ∧
      Bytes.isUtf8 (ascii "etag") = true ∧ Bytes.isUtf8 (ascii "size") = true := by decide
  simp only [Json.isUtf8, Json.texts, Json.textsOfFields, List.all_cons, List.all_nil, names,
    isUtf8_etagValue, List.cons_append, List.nil_append, List.append_nil, Bool.true_and,
    Bool.and_true] at printed
  unfold completion
  split
  · rename_i printable
    rw [printable.1, printable.2] at printed
    obtain ⟨body, dumped⟩ := Option.isSome_iff_exists.mp printed
    rw [dumped]
    rfl
  · rename_i unprintable
    rw [Printable, ← Bool.and_eq_true, Bool.not_eq_true] at unprintable
    rw [unprintable, Option.isSome_eq_false_iff, Option.isNone_iff_eq_none] at printed
    rw [printed]
    rfl

end Responses

/-! ## Releasing the parts -/

/-- The calls that are made once the object is written. -/
inductive ReleaseOp : IoOp → Prop
  | decrement (casKey : Bytes) : ReleaseOp (.metaStore (.decrementRefCountAndCheckZero casKey))
  | report (casKey : Bytes) : ReleaseOp (.addPendingDelete casKey)
  | delete (uploadId : Bytes) : ReleaseOp (.metaStore (.deleteMultipartUpload uploadId))

/-- Two worlds with the same objects and the same files. -/
structure SameContent (before after : World) : Prop where
  objects : after.tables.objects = before.tables.objects
  files : after.files = before.files

section Release

variable {setup : Setup} {process : Nat} {world : World}

theorem SameContent.trans {first second third : World} (one : SameContent first second)
    (two : SameContent second third) : SameContent first third :=
  ⟨two.objects.trans one.objects, two.files.trans one.files⟩

theorem objects_removeUpload (uploadId : Bytes) (tables : Tables) :
    (tables.removeUpload uploadId).objects = tables.objects := by
  rw [removeUpload_eq]

theorem sameContent_of_releaseOp {op : IoOp} {choice : Choice} {answered : op.Ans}
    {before after : World} (release : ReleaseOp op)
    (step : answer setup process op choice before = some (answered, after)) :
    SameContent before after := by
  cases release with
  | decrement casKey =>
      obtain ⟨_, _, -, same, effect⟩ := answer_metaStore step
      have files : after.files = before.files := by rw [same]
      obtain ⟨-, ⟨-, tables, -⟩ | ⟨tables, -⟩⟩ := effect True (.inl trivial)
      · exact ⟨by rw [tables], files⟩
      · exact ⟨by rw [tables, Tables.objects_lose], files⟩
  | report casKey =>
      cases choice <;> simp only [answer, reduceCtorEq, Option.some.injEq, Prod.mk.injEq] at step
      obtain ⟨-, rfl⟩ := step
      exact ⟨rfl, rfl⟩
  | delete uploadId =>
      obtain ⟨_, _, -, same, effect⟩ := answer_metaStore step
      have files : after.files = before.files := by rw [same]
      obtain ⟨-, -, tables⟩ := effect True (.inl trivial)
      refine ⟨?_, files⟩
      rw [tables]
      split
      · exact objects_removeUpload uploadId before.tables
      · rfl

theorem only_report (candidate : Option Bytes) :
    Program.Only ReleaseOp (fun _ => True) (reportFree setup candidate) := by
  unfold reportFree
  split
  · split
    · exact ⟨.report _, fun _ => trivial⟩
    · trivial
  · trivial

theorem only_release (casKeys : List Bytes) :
    Program.Only ReleaseOp (fun _ => True) (releaseParts setup casKeys) := by
  induction casKeys with
  | nil => trivial
  | cons casKey casKeys inductionHypothesis =>
      refine ⟨.decrement casKey, fun answered => ?_⟩
      match answered with
      | .error status => exact inductionHypothesis
      | .ok false => exact inductionHypothesis
      | .ok true => exact (only_report (some casKey)).bind fun _ _ => inductionHypothesis

/-- What is only released keeps the objects and the files. -/
theorem succeeds_of_only {α : Type} {result : α → Prop} {program : ServerM α}
    (only : Program.Only ReleaseOp result program) :
    Succeeds setup process (fun value after => result value ∧ SameContent world after) program
      world := by
  refine only.ensures ?_ ⟨rfl, rfl⟩
  intro op choice before answered after release _ same step
  have given := (Option.filter_eq_some_iff.mp step).1
  exact same.trans (sameContent_of_releaseOp release given)

/-- `completeWith` writes the object and answers. -/
theorem succeeds_completeWith {bucketName objectKey finalCasKey : Bytes}
    {upload : MultipartUploadInfo} {casKeys : List Bytes} {totalSize : Nat} :
    Succeeds setup process (fun answered after =>
        answered = completion setup bucketName objectKey totalSize finalCasKey ∧
        after.tables.objects = (world.tables.putObject setup.indexed upload.bucketId
          (completedObject upload.key upload.contentType totalSize finalCasKey)).objects ∧
        after.files = world.files)
      (completeWith setup bucketName objectKey upload casKeys totalSize finalCasKey) world := by
  refine succeeds_metaStore fun answered tables caches succeeded effect => ?_
  cases answered with
  | error status => cases succeeded
  | ok candidate =>
      obtain ⟨rfl, -⟩ := effect
      have released : Program.Only ReleaseOp
          (fun answered => answered = completion setup bucketName objectKey totalSize finalCasKey)
          (reportFree setup candidate >>= fun _ => releaseParts setup casKeys >>= fun _ =>
            callMeta (.deleteMultipartUpload upload.uploadId) >>= fun _ =>
              pure (completion setup bucketName objectKey totalSize finalCasKey)) := by
        apply (only_report candidate).bind
        rintro _ -
        apply (only_release casKeys).bind
        rintro _ -
        exact ⟨.delete _, fun _ => rfl⟩
      refine (succeeds_of_only released).mono ?_
      rintro value after ⟨rfl, content⟩
      exact ⟨rfl, content.objects, content.files⟩

end Release

/-! ## The place of the object -/

/-- The objects are those that an upsert of the row in the bucket of the upload leaves. -/
def Puts (setup : Setup) (upload : UploadRow) (row : ObjectRow) (before after : World) : Prop :=
  after.tables.objects = put (upload.bucketId, setup.indexed row.objectKey)
    (some (before.tables.upserted (upload.bucketId, setup.indexed row.objectKey) row))
    before.tables.objects

/-- The key of the upload, which is put as it is read, that is up to its first NUL, lies where it
would lie as a whole; and there is the row with this key, or none and no NUL in the key. -/
structure OwnEntry (setup : Setup) (upload : UploadRow) (tables : Tables) : Prop where
  read : setup.indexed upload.objectKey.cString = setup.indexed upload.objectKey
  free : tables.objects.lookup (upload.bucketId, setup.indexed upload.objectKey) = none →
    0 ∉ upload.objectKey
  taken : ∀ row, tables.objects.lookup (upload.bucketId, setup.indexed upload.objectKey) =
    some row → row.objectKey = upload.objectKey

/-- The key that is put lies elsewhere, and the row with the key of the upload, which is left alone,
is one that is wanted. -/
structure Spared (setup : Setup) (upload : UploadRow) (tables : Tables)
    (wanted : ObjectRow → Prop) : Prop where
  elsewhere : setup.indexed upload.objectKey.cString ≠ setup.indexed upload.objectKey
  found : ∃ row, tables.findObject setup.indexed upload.bucketId upload.objectKey = some row ∧
    wanted row

section Place

variable {setup : Setup} {upload : UploadRow} {row : ObjectRow} {before after : World}

/-- A key without a NUL is put as it is, unless another key is in its place. -/
theorem OwnEntry.of_whole {tables : Tables} (whole : 0 ∉ upload.objectKey)
    (taken : ∀ row, tables.objects.lookup (upload.bucketId, setup.indexed upload.objectKey) =
      some row → row.objectKey = upload.objectKey) : OwnEntry setup upload tables :=
  ⟨congrArg setup.indexed (Bytes.cString_eq_self_iff.mpr whole), fun _ => whole, taken⟩

/-- The row of the upload's key is the one that is put, where it has its entry for itself. -/
theorem Puts.findObject_of_own (puts : Puts setup upload row before after)
    (cut : row.objectKey = upload.objectKey.cString) (own : OwnEntry setup upload before.tables) :
    after.tables.findObject setup.indexed upload.bucketId upload.objectKey =
      some { row with objectKey := upload.objectKey } := by
  have written : before.tables.upserted (upload.bucketId, setup.indexed upload.objectKey) row =
      { row with objectKey := upload.objectKey } := by
    rw [Tables.upserted]
    cases stored : before.tables.objects.lookup
        (upload.bucketId, setup.indexed upload.objectKey) with
    | none =>
        have whole := Bytes.cString_eq_self_iff.mpr (own.free stored)
        rw [Option.elim_none, cut, whole]
    | some old => rw [Option.elim_some, own.taken old stored]
  unfold Puts at puts
  rw [cut, own.read, written] at puts
  rw [Tables.findObject, puts, lookup_put_self]
  simp [Option.filter]

/-- A key that is put elsewhere keeps its row. -/
theorem Puts.findObject_elsewhere (puts : Puts setup upload row before after)
    (cut : row.objectKey = upload.objectKey.cString)
    (elsewhere : setup.indexed upload.objectKey.cString ≠ setup.indexed upload.objectKey) :
    after.tables.findObject setup.indexed upload.bucketId upload.objectKey =
      before.tables.findObject setup.indexed upload.bucketId upload.objectKey := by
  have different : (upload.bucketId, setup.indexed upload.objectKey) ≠
      (upload.bucketId, setup.indexed row.objectKey) := by
    rw [cut]
    exact fun same => elsewhere (congrArg Prod.snd same).symm
  unfold Puts at puts
  rw [Tables.findObject, puts, lookup_put_ne _ _ different, Tables.findObject]

/-- Where something else is put in its place, there is no row of the upload's key. -/
theorem Puts.own_of_isSome (puts : Puts setup upload row before after)
    (cut : row.objectKey = upload.objectKey.cString)
    (read : setup.indexed upload.objectKey.cString = setup.indexed upload.objectKey)
    {found : ObjectRow} (isFound : after.tables.findObject setup.indexed upload.bucketId
      upload.objectKey = some found) : OwnEntry setup upload before.tables := by
  obtain ⟨present, sameKey⟩ := Option.filter_eq_some_iff.mp isFound
  unfold Puts at puts
  rw [cut, read] at puts
  rw [puts, lookup_put_self, Option.some.injEq] at present
  subst present
  refine ⟨read, fun free => ?_, fun old stored => ?_⟩
  · simpa [Tables.upserted, free, cut] using sameKey
  · simpa [Tables.upserted, stored] using sameKey

/-- The row with the upload's key is one that is wanted, when it is put there, or was there and is
left alone. -/
theorem Puts.exists_findObject_iff (puts : Puts setup upload row before after)
    (cut : row.objectKey = upload.objectKey.cString) (wanted : ObjectRow → Prop) :
    (∃ found, after.tables.findObject setup.indexed upload.bucketId upload.objectKey =
        some found ∧ wanted found) ↔
      (OwnEntry setup upload before.tables ∧ wanted { row with objectKey := upload.objectKey }) ∨
        Spared setup upload before.tables wanted := by
  constructor
  · rintro ⟨found, isFound, isWanted⟩
    by_cases read : setup.indexed upload.objectKey.cString = setup.indexed upload.objectKey
    · have own := puts.own_of_isSome cut read isFound
      rw [puts.findObject_of_own cut own, Option.some.injEq] at isFound
      rw [isFound]
      exact .inl ⟨own, isWanted⟩
    · rw [puts.findObject_elsewhere cut read] at isFound
      exact .inr ⟨read, found, isFound, isWanted⟩
  · rintro (⟨own, isWanted⟩ | spared)
    · exact ⟨_, puts.findObject_of_own cut own, isWanted⟩
    · rw [puts.findObject_elsewhere cut spared.elsewhere]
      exact spared.found

end Place

/-! ## The whole handler -/

/-- The upload is stored with its parts, whose blobs hold these contents in the order of the
part numbers. -/
structure Stored (setup : Setup) (uploadId : Bytes) (upload : UploadRow) (contents : List Bytes)
    (world : World) : Prop where
  upload : world.tables.multipartUploads.lookup uploadId = some upload
  numbered : Numbered uploadId world.tables
  blobs : List.Forall₂ (fun (part : Int × PartRow) content =>
    world.files.lookup (setup.getCasPath part.2.casKey) = some content ∧
      part.2.size = (content.length : Int)) (world.tables.sortedParts uploadId) contents

/-- The object is written, and its blob is there. -/
structure Completes (setup : Setup) (bucketName objectKey : Bytes) (upload : UploadRow)
    (content : Bytes) (before : World) (answered : Option HttpResponse) (after : World) :
    Prop where
  answered : answered = completion setup bucketName objectKey (content.length % 2 ^ 64)
    (setup.sha256Hex content)
  puts : Puts setup upload (completedObject upload.objectKey.cString upload.contentType.cString
    (content.length % 2 ^ 64) (setup.sha256Hex content)) before after
  files : ∀ path, after.files.lookup path =
    if path = setup.getCasPath (setup.sha256Hex content) then
      some ((before.files.lookup path).getD content)
    else before.files.lookup path

/-- The size that the handler adds up. -/
def partsSize (uploadId : Bytes) (tables : Tables) : Nat :=
  toSizeT ((tables.sortedParts uploadId).map fun part => part.2.size).sum

/-- The same, where nothing is known of the recorded sizes. -/
structure CompletesAs (setup : Setup) (bucketName objectKey : Bytes) (upload : UploadRow)
    (totalSize : Nat) (content : Bytes) (before : World) (answered : Option HttpResponse)
    (after : World) : Prop where
  answered : answered = completion setup bucketName objectKey totalSize (setup.sha256Hex content)
  puts : Puts setup upload (completedObject upload.objectKey.cString upload.contentType.cString
    totalSize (setup.sha256Hex content)) before after
  files : ∀ path, after.files.lookup path =
    if path = setup.getCasPath (setup.sha256Hex content) then
      some ((before.files.lookup path).getD content)
    else before.files.lookup path

/-- What the handler does with the list it has read, where nothing is known of the blobs. -/
def SettlesAs (setup : Setup) (bucketName objectKey uploadId : Bytes) (upload : UploadRow)
    (matching : Prop) (before : World) (answered : Option HttpResponse) (after : World) : Prop :=
  (matching → before.tables.sortedParts uploadId ≠ [] →
    ∃ contents, ContentsOf setup before
        ((before.tables.sortedParts uploadId).map fun part => part.2.casKey) contents ∧
      CompletesAs setup bucketName objectKey upload (partsSize uploadId before.tables)
        contents.flatten before answered after) ∧
  (matching → before.tables.sortedParts uploadId = [] →
    answered.map HttpResponse.statusCode = some 500) ∧
  (¬matching → answered.map HttpResponse.statusCode = some 400)

/-- What the handler does with the list it has read. -/
def Settles (setup : Setup) (bucketName objectKey uploadId : Bytes) (upload : UploadRow)
    (content : Bytes) (matching : Prop) (before : World) (answered : Option HttpResponse)
    (after : World) : Prop :=
  (matching → before.tables.sortedParts uploadId ≠ [] →
    Completes setup bucketName objectKey upload content before answered after) ∧
  (matching → before.tables.sortedParts uploadId = [] →
    answered.map HttpResponse.statusCode = some 500) ∧
  (¬matching → answered.map HttpResponse.statusCode = some 400)

section Handler

variable {setup : Setup} {process : Nat} {world : World} {uploadId : Bytes} {upload : UploadRow}
  {contents : List Bytes} {bucketName objectKey : Bytes}

/-- A merge that succeeds gives the concatenation a name, and leaves the tables alone. -/
theorem succeeds_mergeBlobs {casKeys : List Bytes} (some : casKeys ≠ []) :
    Succeeds setup process (fun result after => ∃ casKey, result = .ok casKey ∧
      Assembled setup casKeys world result after ∧ after.tables = world.tables)
      (merge setup casKeys) world := by
  have sameTables : Succeeds setup process (fun result after => ReturnsDigest setup result ∧
      after.tables = world.tables) (merge setup casKeys) world := by
    refine (only_merge casKeys).ensures ?_ rfl
    intro op choice before answered after storage _ same step
    have given := (Option.filter_eq_some_iff.mp step).1
    rw [tables_answer (by rintro call rfl; cases storage) given, same]
  have assembles : Succeeds setup process (Assembled setup casKeys world) (merge setup casKeys)
      world := succeeds_of_leads leads_assemble
  refine ((succeeds_merge some).and (assembles.and sameTables)).mono ?_
  rintro result after ⟨isOk, assembled, -, same⟩
  cases result with
  | error status => cases isOk
  | ok casKey => exact ⟨casKey, rfl, assembled, same⟩

theorem Stored.contentsOf (stored : Stored setup uploadId upload contents world) :
    ContentsOf setup world
      ((world.tables.sortedParts uploadId).map fun part => part.2.casKey) contents := by
  rw [ContentsOf, List.forall₂_map_left_iff]
  exact stored.blobs.imp fun _ _ both => both.1

/-- The files of blobs have one content. -/
theorem ContentsOf.unique {casKeys first second : List Bytes}
    (one : ContentsOf setup world casKeys first) (two : ContentsOf setup world casKeys second) :
    first = second := by
  induction one generalizing second with
  | nil =>
      cases two
      rfl
  | cons present _ inductionHypothesis =>
      cases two with
      | cons again rest =>
          rw [Option.some.inj (present.symm.trans again), inductionHypothesis rest]

/-- The sizes of the parts add up to the length of the concatenation. -/
theorem sum_sizes {parts : List (Int × PartRow)} (files : Table Bytes Bytes)
    (blobs : List.Forall₂ (fun (part : Int × PartRow) content =>
      files.lookup (setup.getCasPath part.2.casKey) = some content ∧
        part.2.size = (content.length : Int)) parts contents) :
    (parts.map fun part => part.2.size).sum = (contents.flatten.length : Int) := by
  induction blobs with
  | nil => rfl
  | cons both _ inductionHypothesis =>
      rw [List.map_cons, List.sum_cons, inductionHypothesis, both.2, List.flatten_cons,
        List.length_append, Int.natCast_add]

theorem Stored.totalSize (stored : Stored setup uploadId upload contents world) :
    partsSize uploadId world.tables = contents.flatten.length % 2 ^ 64 := by
  have sum := sum_sizes world.files stored.blobs
  rw [partsSize, sum, toSizeT]
  omega

/-- Where the blobs are known, so is what is assembled. -/
theorem SettlesAs.settles {matching : Prop} {answered : Option HttpResponse} {after : World}
    (settles : SettlesAs setup bucketName objectKey uploadId upload matching world answered after)
    (stored : Stored setup uploadId upload contents world) :
    Settles setup bucketName objectKey uploadId upload contents.flatten matching world answered
      after := by
  obtain ⟨completes, failed, refused⟩ := settles
  refine ⟨fun isMatch some => ?_, failed, refused⟩
  obtain ⟨others, isContents, completed⟩ := completes isMatch some
  obtain rfl := ContentsOf.unique isContents stored.contentsOf
  rw [stored.totalSize] at completed
  exact ⟨completed.answered, completed.puts, completed.files⟩

theorem succeeds_completeParts (strict : setup.json.Strict) (client : List (Int × Bytes)) :
    Succeeds setup process (SettlesAs setup bucketName objectKey uploadId upload
        (client = storedEntries world.tables uploadId) world)
      (completeParts setup bucketName objectKey (upload.read uploadId) client
        ((world.tables.sortedParts uploadId).map (partInfo uploadId))) world := by
  have entries : ((world.tables.sortedParts uploadId).map (partInfo uploadId)).map
      (fun part => unquoted (part.partNumber, part.etag)) =
        storedEntries world.tables uploadId := by
    rw [List.map_map]
    rfl
  have refused : ∀ {message : Bytes}, Bytes.isUtf8 message = true →
      client ≠ storedEntries world.tables uploadId →
      SettlesAs setup bucketName objectKey uploadId upload
        (client = storedEntries world.tables uploadId) world
        (HttpResponse.badRequest setup.json message []) world := by
    intro message printable different
    refine ⟨fun same => absurd same different, fun same => absurd same different, fun _ => ?_⟩
    exact statusCode_error strict ⟨by decide, printable⟩
  unfold completeParts
  by_cases sameLength :
      client.length = ((world.tables.sortedParts uploadId).map (partInfo uploadId)).length
  · rw [if_neg (not_not.mpr sameLength)]
    have compared := partMismatch_eq_none_iff sameLength
    rw [entries] at compared
    cases found : partMismatch client
        ((world.tables.sortedParts uploadId).map (partInfo uploadId)) with
    | some message =>
        have different : client ≠ storedEntries world.tables uploadId := by
          intro same
          rw [compared.mpr same] at found
          cases found
        exact refused (isUtf8_partMismatch found) different
    | none =>
        have same := compared.mp found
        apply Program.ensures_bind.mpr
        by_cases noParts : world.tables.sortedParts uploadId = []
        · have failed : (HttpResponse.internalError setup.json (ascii "Failed to merge parts")
              []).map HttpResponse.statusCode = some 500 := statusCode_error strict (by decide)
          simp only [noParts, List.map_nil]
          exact ⟨fun _ some => absurd noParts some, fun _ _ => failed, fun other => absurd same other⟩
        · refine (succeeds_mergeBlobs (by simpa using noParts)).mono ?_
          rintro result merged ⟨casKey, rfl, assembled, sameTables⟩
          obtain ⟨found, isContents, rfl, files⟩ := assembled.stored casKey rfl
          rw [List.map_map] at isContents
          refine succeeds_completeWith.mono ?_
          rintro answered after ⟨isCompletion, objects, sameFiles⟩
          have totalSize : toSizeT (((world.tables.sortedParts uploadId).map
              (partInfo uploadId)).map MultipartPartInfo.size).sum =
                partsSize uploadId world.tables := by
            rw [List.map_map]
            rfl
          rw [totalSize] at isCompletion objects
          rw [sameTables] at objects
          have puts := objects.trans (Tables.objects_putObject setup.indexed _ _ world.tables)
          refine ⟨fun _ _ => ⟨found, isContents, isCompletion, puts, ?_⟩,
            fun _ none => absurd none noParts, fun other => absurd same other⟩
          rw [sameFiles]
          exact files
  · rw [if_pos sameLength]
    apply refused (by decide)
    rintro rfl
    simp [storedEntries] at sameLength

/-- The request names the upload in its path. -/
structure Names (request : HttpRequest) (bucketName objectKey uploadId : Bytes) : Prop where
  bucket : request.getPathParam (ascii "bucket") = bucketName
  object : request.getPathParam (ascii "object") = objectKey
  upload : request.getPathParam (ascii "upload_id") = uploadId
  nonempty : bucketName ≠ [] ∧ objectKey ≠ [] ∧ uploadId ≠ []

/-- `CompleteUpload` where every call succeeds. -/
theorem succeeds_completeUploadAs (strict : setup.json.Strict)
    (present : world.tables.multipartUploads.lookup uploadId = some upload)
    (numbered : Numbered uploadId world.tables) {request : HttpRequest}
    (names : Names request bucketName objectKey uploadId) {entries : List (Int × Bytes)}
    (lists : Lists setup request entries) :
    Succeeds setup process (SettlesAs setup bucketName objectKey uploadId upload
        ((entries.map readEntry).Perm (storedEntries world.tables uploadId)) world)
      (completeUpload setup request) world := by
  obtain ⟨body, items, parsed, isArray, shown⟩ := lists
  obtain ⟨rfl, rfl, rfl, bucketNonempty, objectNonempty, idNonempty⟩ := names
  unfold completeUpload
  simp only [List.isEmpty_iff, bucketNonempty, objectNonempty, idNonempty, or_self, if_false]
  refine succeeds_metaStore fun answered tables caches succeeded effect => ?_
  obtain ⟨rfl, rfl, ⟨-, message, rfl⟩ | found⟩ := effect
  · cases succeeded
  · rw [present] at found
    obtain rfl : answered = .ok (upload.read (request.getPathParam (ascii "upload_id"))) := found
    change Succeeds _ _ _ (completeUploadOf setup request _ _ _) world
    unfold completeUploadOf
    simp only [parsed, isArray, clientParts_of_shows shown]
    refine succeeds_metaStore fun answered tables caches succeeded effect => ?_
    obtain ⟨rfl, rfl, ⟨-, message, rfl⟩ | ⟨listed, rfl, parts⟩⟩ := effect
    · cases succeeded
    · dsimp only [UploadRow.read] at parts
      rw [listed_eq numbered] at parts
      change Succeeds _ _ _ (completeParts setup _ _ _ _ listed.parts) world
      rw [parts, ← sorted_eq_iff (strict_storedEntries world.tables _)]
      exact succeeds_completeParts strict _

/-- The same, where the blobs of the parts are known. -/
theorem succeeds_completeUpload (strict : setup.json.Strict)
    (stored : Stored setup uploadId upload contents world) {request : HttpRequest}
    (names : Names request bucketName objectKey uploadId) {entries : List (Int × Bytes)}
    (lists : Lists setup request entries) :
    Succeeds setup process (Settles setup bucketName objectKey uploadId upload contents.flatten
        ((entries.map readEntry).Perm (storedEntries world.tables uploadId)) world)
      (completeUpload setup request) world :=
  (succeeds_completeUploadAs strict stored.upload stored.numbered names lists).mono
    fun _ _ settles => settles.settles stored

end Handler

end MiniS3.Api.MultipartHandlers
