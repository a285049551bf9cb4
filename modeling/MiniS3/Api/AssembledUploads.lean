import MiniS3.Api.Completion

/-!
# When completing an upload assembles its parts

`CompleteUpload` answers 200 when the list, as the handler reads it, is a list of the stored parts in
any order, and the names in the path can be printed in the response.  It stops with an exception
after its work is done when they cannot, it reads a part number that does not fit an `int` as
another one, it reads the key of the upload up to its first NUL, it writes over an object that the
unique index does not tell apart, and it takes what is stored under the digest for the
concatenation.  Where none of this is met, it assembles exactly the stored parts.
-/

namespace MiniS3.Api.MultipartHandlers

open Lib Db Net MetaStore DataStore

/-- The list is not empty, and shows the stored parts in some order. -/
def Matches (tables : Tables) (uploadId : Bytes) (entries : List (Int × Bytes)) : Prop :=
  entries ≠ [] ∧ (entries.map unquoted).Perm (storedEntries tables uploadId)

/-- The same, for the list as the handler reads it. -/
def ReadsAsMatch (tables : Tables) (uploadId : Bytes) (entries : List (Int × Bytes)) : Prop :=
  entries ≠ [] ∧ (entries.map readEntry).Perm (storedEntries tables uploadId)

/-- The status of the answer is 200. -/
def AnswersOk (answered : Option HttpResponse) : Prop :=
  answered.map HttpResponse.statusCode = some 200

/-- Completing the upload assembles exactly the stored parts; `again` is the answer to the same list
in another order. -/
structure AssemblesParts (setup : Setup) (uploadId : Bytes) (upload : UploadRow) (content : Bytes)
    (entries : List (Int × Bytes)) (before : World) (answered again : Option HttpResponse)
    (after : World) : Prop where
  accepted : AnswersOk answered ↔ Matches before.tables uploadId entries
  unordered : again.map HttpResponse.statusCode = answered.map HttpResponse.statusCode ∧
    (AnswersOk answered → again = answered)
  object : AnswersOk answered →
    ∃ row, after.tables.findObject setup.indexed upload.bucketId upload.objectKey = some row ∧
      row.casKey = setup.sha256Hex content ∧ row.size = (content.length : Int) ∧
      after.files.lookup (setup.getCasPath row.casKey) = some content

/-- The row of an object with this content. -/
def HasContent (setup : Setup) (content : Bytes) (row : ObjectRow) : Prop :=
  row.casKey = setup.sha256Hex content ∧ row.size = (content.length : Int)

/-- The object that is written is the object of the upload, or that object is there already and
left alone; and its blob holds the content. -/
structure OwnPlace (setup : Setup) (upload : UploadRow) (content : Bytes) (before : World) :
    Prop where
  entry : OwnEntry setup upload before.tables ∧ content.length < 2 ^ 63 ∨
    Spared setup upload before.tables (HasContent setup content)
  blob : ∀ stored, before.files.lookup (setup.getCasPath (setup.sha256Hex content)) =
    some stored → stored = content

/-- What the handler relies on: the names in the path can be printed, the part numbers are what they
are read as, and the object has a place of its own. -/
structure Assemblable (setup : Setup) (bucketName objectKey uploadId : Bytes) (upload : UploadRow)
    (content : Bytes) (entries : List (Int × Bytes)) (before : World) : Prop where
  printable : Matches before.tables uploadId entries → Printable bucketName objectKey
  read : ReadsAsMatch before.tables uploadId entries → Printable bucketName objectKey →
    Matches before.tables uploadId entries ∧ OwnPlace setup upload content before

section

variable {setup : Setup} {uploadId : Bytes} {upload : UploadRow} {bucketName objectKey : Bytes}
  {entries : List (Int × Bytes)} {before after : World} {answered : Option HttpResponse}

/-- The stored part numbers are ints. -/
theorem readsAsMatch_of_matches (numbered : Numbered uploadId before.tables)
    (isMatch : Matches before.tables uploadId entries) :
    ReadsAsMatch before.tables uploadId entries := by
  obtain ⟨nonempty, perm⟩ := isMatch
  refine ⟨nonempty, ?_⟩
  have same : entries.map readEntry = entries.map unquoted := by
    apply List.map_congr_left
    intro entry member
    have stored := perm.mem_iff.mp (List.mem_map_of_mem (f := unquoted) member)
    obtain ⟨part, isPart, equal⟩ := List.mem_map.mp stored
    have range := numbered part.1 part.2 (Tables.mem_sortedParts.mp isPart)
    have number : part.1 = entry.1 := congrArg Prod.fst equal
    rw [number] at range
    exact Prod.ext (Int.bmod_eq_of_le (by omega) (by omega)) rfl
  rw [same]
  exact perm

theorem entries_eq_nil_iff (perm : (entries.map readEntry).Perm
    (storedEntries before.tables uploadId)) :
    entries = [] ↔ before.tables.sortedParts uploadId = [] := by
  have lengths := perm.length_eq
  rw [storedEntries, List.length_map, List.length_map] at lengths
  rw [← List.length_eq_zero_iff, ← List.length_eq_zero_iff, lengths]

/-- The answer is 200 when the list is read as a match and the names can be printed. -/
theorem SettlesAs.answersOk_iff (strict : setup.json.Strict)
    (settles : SettlesAs setup bucketName objectKey uploadId upload
      ((entries.map readEntry).Perm (storedEntries before.tables uploadId)) before answered
      after) :
    AnswersOk answered ↔
      ReadsAsMatch before.tables uploadId entries ∧ Printable bucketName objectKey := by
  unfold AnswersOk ReadsAsMatch
  obtain ⟨completes, failed, refused⟩ := settles
  by_cases perm : (entries.map readEntry).Perm (storedEntries before.tables uploadId)
  · rw [and_iff_left perm, Ne, entries_eq_nil_iff perm]
    by_cases noParts : before.tables.sortedParts uploadId = []
    · rw [failed perm noParts]
      simp [noParts]
    · obtain ⟨contents, -, completed⟩ := completes perm noParts
      rw [completed.answered, statusCode_completion strict]
      by_cases printable : Printable bucketName objectKey
      · rw [if_pos printable]
        exact iff_of_true rfl ⟨noParts, printable⟩
      · rw [if_neg printable]
        exact iff_of_false (by simp) fun both => printable both.2
  · rw [refused perm]
    exact iff_of_false (by simp) fun both => perm both.1.2

/-- The row of the object and its blob are what they should be when the object has a place of its
own. -/
theorem Completes.object_iff {content : Bytes}
    (completes : Completes setup bucketName objectKey upload content before answered after) :
    (∃ row, after.tables.findObject setup.indexed upload.bucketId upload.objectKey = some row ∧
        row.casKey = setup.sha256Hex content ∧ row.size = (content.length : Int) ∧
        after.files.lookup (setup.getCasPath row.casKey) = some content) ↔
      OwnPlace setup upload content before := by
  have size : toInt64 (content.length % 2 ^ 64) = (content.length : Int) ↔
      content.length < 2 ^ 63 := by
    unfold toInt64
    rw [Int.bmod_def]
    split <;> omega
  have blob : after.files.lookup (setup.getCasPath (setup.sha256Hex content)) = some content ↔
      ∀ stored, before.files.lookup (setup.getCasPath (setup.sha256Hex content)) = some stored →
        stored = content := by
    rw [completes.files, if_pos rfl]
    cases before.files.lookup (setup.getCasPath (setup.sha256Hex content)) <;> simp
  have puts := completes.puts
  -- from here on, what the size is taken modulo must not be computed
  generalize content.length % 2 ^ 64 = total at size puts
  have placed := puts.exists_findObject_iff rfl (HasContent setup content)
  have written : HasContent setup content
      { completedObject upload.objectKey.cString upload.contentType.cString total
          (setup.sha256Hex content) with objectKey := upload.objectKey } ↔
        content.length < 2 ^ 63 := by
    simp only [HasContent, completedObject, true_and]
    exact size
  rw [written] at placed
  constructor
  · rintro ⟨row, isFound, isKey, isSize, stored⟩
    rw [isKey] at stored
    exact ⟨placed.mp ⟨row, isFound, isKey, isSize⟩, blob.mp stored⟩
  · rintro ⟨entry, ownBlob⟩
    obtain ⟨row, isFound, isKey, isSize⟩ := placed.mpr entry
    refine ⟨row, isFound, isKey, isSize, ?_⟩
    rw [isKey]
    exact blob.mpr ownBlob

/-- The same list in another order is answered alike. -/
theorem Settles.unordered {contents : List Bytes} {again : Option HttpResponse} {other : World}
    {matching : Prop}
    (settles : Settles setup bucketName objectKey uploadId upload contents.flatten matching before
      answered after)
    (settlesAgain : Settles setup bucketName objectKey uploadId upload contents.flatten matching
      before again other) :
    again.map HttpResponse.statusCode = answered.map HttpResponse.statusCode ∧
      (AnswersOk answered → again = answered) := by
  obtain ⟨completes, failed, refused⟩ := settles
  obtain ⟨completesAgain, failedAgain, refusedAgain⟩ := settlesAgain
  unfold AnswersOk
  by_cases isMatch : matching
  · by_cases noParts : before.tables.sortedParts uploadId = []
    · rw [failed isMatch noParts, failedAgain isMatch noParts]
      exact ⟨rfl, by simp⟩
    · rw [(completes isMatch noParts).answered, (completesAgain isMatch noParts).answered]
      exact ⟨rfl, fun _ => rfl⟩
  · rw [refused isMatch, refusedAgain isMatch]
    exact ⟨rfl, by simp⟩

end

/-- Where every call succeeds, completing an upload assembles exactly the stored parts if and only
if the names can be printed, the part numbers are what they are read as, and the object has a place
of its own. -/
theorem completeUpload_assembles_iff {setup : Setup} {process : Nat}
    {request reordered : HttpRequest} {bucketName objectKey uploadId : Bytes} {upload : UploadRow}
    {contents : List Bytes} {entries entriesAgain : List (Int × Bytes)}
    {before after afterAgain : World} {answered again : Option HttpResponse}
    {choices choicesAgain : List Choice} (strict : setup.json.Strict)
    (stored : Stored setup uploadId upload contents before)
    (names : Names request bucketName objectKey uploadId)
    (namesAgain : Names reordered bucketName objectKey uploadId)
    (lists : Lists setup request entries) (listsAgain : Lists setup reordered entriesAgain)
    (sameEntries : entriesAgain.Perm entries)
    (ran : Program.execute ((answer setup process).accept IoOp.succeeded)
      (completeUpload setup request) choices before = some (answered, after))
    (ranAgain : Program.execute ((answer setup process).accept IoOp.succeeded)
      (completeUpload setup reordered) choicesAgain before = some (again, afterAgain)) :
    AssemblesParts setup uploadId upload contents.flatten entries before answered again after ↔
      Assemblable setup bucketName objectKey uploadId upload contents.flatten entries before := by
  have settlesAs := (succeeds_completeUploadAs strict stored.upload stored.numbered names
    lists).of_execute (fun _ _ => trivial) ran
  have settles := settlesAs.settles stored
  have settlesAgain := (succeeds_completeUpload strict stored namesAgain listsAgain).of_execute
    (fun _ _ => trivial) ranAgain
  rw [show (entriesAgain.map readEntry).Perm (storedEntries before.tables uploadId) ↔
    (entries.map readEntry).Perm (storedEntries before.tables uploadId) from
      (sameEntries.map readEntry).congr_left _] at settlesAgain
  have ok := settlesAs.answersOk_iff strict
  have read : Matches before.tables uploadId entries → ReadsAsMatch before.tables uploadId entries :=
    readsAsMatch_of_matches stored.numbered
  have written : AnswersOk answered →
      Completes setup bucketName objectKey upload contents.flatten before answered after := by
    intro isOk
    obtain ⟨⟨nonempty, perm⟩, -⟩ := ok.mp isOk
    rw [Ne, entries_eq_nil_iff perm] at nonempty
    exact settles.1 perm nonempty
  constructor
  · intro assembles
    constructor
    · intro isMatch
      exact (ok.mp (assembles.accepted.mpr isMatch)).2
    · intro isRead printable
      have isOk := ok.mpr ⟨isRead, printable⟩
      exact ⟨assembles.accepted.mp isOk, (written isOk).object_iff.mp (assembles.object isOk)⟩
  · intro assemblable
    constructor
    · rw [ok]
      constructor
      · rintro ⟨isRead, printable⟩
        exact (assemblable.read isRead printable).1
      · intro isMatch
        exact ⟨read isMatch, assemblable.printable isMatch⟩
    · exact settles.unordered settlesAgain
    · intro isOk
      obtain ⟨isRead, printable⟩ := ok.mp isOk
      exact (written isOk).object_iff.mpr (assemblable.read isRead printable).2

/-! ## An upload of two parts -/

/-- The quoted entity tag of a part with this content. -/
def tagOf (content : Bytes) : Bytes :=
  quotedEtag (sampleSetup.sha256Hex content)

/-- A configuration in which these bodies read as these lists of parts. -/
def readsLists (bodies : List (Bytes × List (Int × Bytes))) : Setup :=
  { sampleSetup with
    json := .plain (bodies.map fun body => (body.1, .object [(ascii "parts", .array (body.2.map
      fun entry => .object [(ascii "part_number", .integer entry.1),
        (ascii "etag", .string entry.2)]))])) }

/-- An upload of the key `k`. -/
def sampleUpload : UploadRow :=
  ⟨1, ascii "k", [], 0⟩

/-- A world with that upload, whose parts, from number 1 on, have these contents. -/
def uploadOf (contents : List Bytes) : World :=
  { World.empty with
    files := contents.foldl (fun files content =>
      Table.set (sampleSetup.getCasPath (sampleSetup.sha256Hex content)) content files) ∅
    tables := Tables.empty.applyAll ([.bucket 1 (some (ascii "b")),
        .upload (ascii "u") (some sampleUpload)] ++
      contents.map (fun content => .casBlob (sampleSetup.sha256Hex content)
        (some ⟨content.length, contents.count content⟩)) ++
      contents.zipIdx.map fun (content, index) => .part (ascii "u", index + 1)
        (some ⟨sampleSetup.sha256Hex content, content.length, tagOf content⟩)) }

/-- The request that completes it, with a name of the object in its path. -/
def completeOf (objectKey body : Bytes) : HttpRequest :=
  { ((HttpRequest.empty.setPathParam (ascii "bucket") (ascii "b")).setPathParam (ascii "object")
      objectKey).setPathParam (ascii "upload_id") (ascii "u") with body := body }

/-- The parts are shown from the last to the first, the second with quotes. -/
def backwards : List (Int × Bytes) :=
  [(2, tagOf (ascii "b")), (1, etagValue (sampleSetup.sha256Hex (ascii "a")))]

/-- A configuration that reads this list, and the same in order. -/
def listSetup : Setup :=
  readsLists [(ascii "backwards", backwards), (ascii "forwards", backwards.reverse)]

/-- A run in which every call succeeds. -/
def completeRun (objectKey body : Bytes) : Option (Option HttpResponse × World) :=
  Program.execute ((answer listSetup 0).accept IoOp.succeeded)
    (completeUpload listSetup (completeOf objectKey body))
    ([.sql [] ⟨0, 0⟩, .sql [] ⟨0, 0⟩] ++ mergeChoices ++ [.sql [] ⟨0, 0⟩, .sql [] ⟨0, 0⟩, .done,
      .sql [] ⟨0, 0⟩, .done, .sql [] ⟨0, 0⟩]) (uploadOf [ascii "a", ascii "b"])

/-- What completing it with the list backwards has to lead to. -/
abbrev AssemblesTwoParts (answered again : Option HttpResponse) (after : World) : Prop :=
  AssemblesParts listSetup (ascii "u") sampleUpload (ascii "ab") backwards
    (uploadOf [ascii "a", ascii "b"]) answered again after

theorem stored_sample : Stored listSetup (ascii "u") sampleUpload [ascii "a", ascii "b"]
    (uploadOf [ascii "a", ascii "b"]) := by
  refine ⟨rfl, fun number row stored => ?_, .cons ⟨rfl, rfl⟩ (.cons ⟨rfl, rfl⟩ .nil)⟩
  have inRange : ∀ part ∈ (uploadOf [ascii "a", ascii "b"]).tables.sortedParts (ascii "u"),
      1 ≤ part.1 ∧ part.1 ≤ 10000 := by decide +kernel
  exact inRange _ (Tables.mem_sortedParts.mpr stored)

theorem names_completeOf {objectKey : Bytes} (nonempty : objectKey ≠ []) (body : Bytes) :
    Names (completeOf objectKey body) (ascii "b") objectKey (ascii "u") := by
  refine ⟨rfl, ?_, rfl, by decide, nonempty, by decide⟩
  rfl

theorem lists_backwards (objectKey : Bytes) :
    Lists listSetup (completeOf objectKey (ascii "backwards")) backwards :=
  ⟨_, _, rfl, rfl, .cons ⟨rfl, rfl⟩ (.cons ⟨rfl, rfl⟩ .nil)⟩

theorem matches_backwards :
    Matches (uploadOf [ascii "a", ascii "b"]).tables (ascii "u") backwards :=
  ⟨by decide, by decide +kernel⟩

theorem completeUpload_assembles_iff_sample :
    ∃ answered again after afterAgain,
      completeRun (ascii "k") (ascii "backwards") = some (answered, after) ∧
      completeRun (ascii "k") (ascii "forwards") = some (again, afterAgain) ∧
      AssemblesTwoParts answered again after := by
  have strict : listSetup.json.Strict := JsonLibrary.strict_plain _
  have forwards : Lists listSetup (completeOf (ascii "k") (ascii "forwards")) backwards.reverse :=
    ⟨_, _, rfl, rfl, .cons ⟨rfl, rfl⟩ (.cons ⟨rfl, rfl⟩ .nil)⟩
  have assembles : ∀ answered again after afterAgain,
      completeRun (ascii "k") (ascii "backwards") = some (answered, after) →
      completeRun (ascii "k") (ascii "forwards") = some (again, afterAgain) →
      Assemblable listSetup (ascii "b") (ascii "k") (ascii "u") sampleUpload (ascii "ab")
        backwards (uploadOf [ascii "a", ascii "b"]) → AssemblesTwoParts answered again after :=
    fun answered again after afterAgain ran ranAgain =>
      (completeUpload_assembles_iff strict stored_sample (names_completeOf (by decide) _)
        (names_completeOf (by decide) _) (lists_backwards _) forwards
        (List.reverse_perm backwards) ran ranAgain).mpr
  refine ⟨_, _, _, _, rfl, rfl, assembles _ _ _ _ rfl rfl ⟨fun _ => by decide, fun _ _ =>
    ⟨matches_backwards, .inl ⟨.of_whole (by decide) nofun, by decide⟩, nofun⟩⟩⟩

/-- With a name that cannot be printed the object is written, and then the handler stops with an
exception. -/
theorem unprintable_name_is_not_answered :
    ∃ answered after, completeRun [0xFF] (ascii "backwards") = some (answered, after) ∧
      ¬AssemblesTwoParts answered answered after := by
  refine ⟨_, _, rfl, ?_⟩
  rintro ⟨accepted, -, -⟩
  have ok := accepted.mpr matches_backwards
  unfold AnswersOk at ok
  revert ok
  decide +kernel

end MiniS3.Api.MultipartHandlers
