import MiniS3.Api.AssembledUploads
import MiniS3.Service.Completions

/-!
# When the two completions agree

`MultipartService::CompleteMultipartUpload` and `MultipartHandlers::CompleteUpload` check and merge
the same parts.  The handler sorts the list and compares it with all parts.  The service looks each
entry up among the first 1000 parts and merges in the order of the list, so that it never sees the
end of a longer upload, takes an entry twice, and gives a list in another order another content.
Where none of this matters for the list, the two accept it alike and leave the same object.
-/

namespace MiniS3

open Lib Db Net MetaStore Api Api.MultipartHandlers

namespace Service

/-- An entity tag in quotes. -/
def Quoted (etag : Bytes) : Prop :=
  ∃ text, etag = 34 :: (text ++ [34])

theorem normalizeEtagValue_quoted (text : Bytes) :
    normalizeEtagValue (34 :: (text ++ [34])) = text := by
  have closed : (34 :: (text ++ [34])).getLast? = some 34 := by
    rw [← List.cons_append, List.getLast?_concat]
  rw [normalizeEtagValue, if_pos ⟨by simp, rfl, closed⟩]
  simp

/-- A list that both can be given: its part numbers are ints, and the entity tags of the list and
of the stored parts are in quotes. -/
structure Comparable (uploadId : Bytes) (entries : List (Int × Bytes)) (tables : Tables) :
    Prop where
  numbers : ∀ entry ∈ entries, -2 ^ 31 ≤ entry.1 ∧ entry.1 < 2 ^ 31
  listed : ∀ entry ∈ entries, Quoted entry.2
  stored : ∀ part ∈ tables.sortedParts uploadId, Quoted part.2.etag

/-- The stored parts with their entity tags. -/
def rawEntries (tables : Tables) (uploadId : Bytes) : List (Int × Bytes) :=
  (tables.sortedParts uploadId).map fun part => (part.1, part.2.etag)

section Lists

variable {uploadId : Bytes} {entries : List (Int × Bytes)} {tables : Tables}

/-- In quotes, the entries are the same as without. -/
theorem Comparable.matches_iff (comparable : Comparable uploadId entries tables) :
    Matches tables uploadId entries ↔
      entries ≠ [] ∧ entries.Perm (rawEntries tables uploadId) := by
  have requoted : ∀ {list : List (Int × Bytes)}, (∀ entry ∈ list, Quoted entry.2) →
      (list.map unquoted).map (fun entry => (entry.1, 34 :: (entry.2 ++ [34]))) = list := by
    intro list quoted
    rw [List.map_map]
    refine (List.map_congr_left fun entry member => ?_).trans (List.map_id list)
    obtain ⟨text, isQuoted⟩ := quoted entry member
    have normalized := normalizeEtagValue_quoted text
    rw [← isQuoted] at normalized
    change (entry.1, 34 :: (normalizeEtagValue entry.2 ++ [34])) = entry
    rw [normalized, ← isQuoted]
  have stored : storedEntries tables uploadId = (rawEntries tables uploadId).map unquoted := by
    rw [rawEntries, List.map_map]
    rfl
  have quoted : ∀ entry ∈ rawEntries tables uploadId, Quoted entry.2 := by
    intro entry member
    obtain ⟨part, isPart, rfl⟩ := List.mem_map.mp member
    exact comparable.stored part isPart
  rw [Matches, stored]
  refine and_congr_right fun _ => ⟨fun perm => ?_, fun perm => perm.map unquoted⟩
  have again := perm.map fun entry => (entry.1, 34 :: (entry.2 ++ [34]))
  rw [requoted comparable.listed, requoted quoted] at again
  exact again

/-- The handler reads the entries as they are. -/
theorem Comparable.readsAsMatch_iff (comparable : Comparable uploadId entries tables) :
    ReadsAsMatch tables uploadId entries ↔ Matches tables uploadId entries := by
  have same : entries.map readEntry = entries.map unquoted := by
    apply List.map_congr_left
    intro entry member
    have range := comparable.numbers entry member
    exact Prod.ext (Int.bmod_eq_of_le (by omega) (by omega)) rfl
  rw [ReadsAsMatch, Matches, same]

theorem nodup_rawEntries (tables : Tables) (uploadId : Bytes) :
    (rawEntries tables uploadId).Nodup := by
  have numbers : ((rawEntries tables uploadId).map Prod.fst).Nodup := by
    rw [rawEntries, List.map_map]
    exact List.pairwise_map.mpr ((tables.strictParts uploadId).imp fun less => Int.ne_of_lt less)
  exact numbers.of_map _

/-- Where the service sees all parts, it takes the lists of the stored parts, and others that have
an entry twice. -/
theorem namesSeen_iff (numbered : Numbered uploadId tables)
    (short : (tables.sortedParts uploadId).length ≤ 1000) :
    NamesSeen uploadId entries tables ∧ entries.Nodup ↔
      entries ≠ [] ∧ entries.Perm (rawEntries tables uploadId) := by
  have seen : seenParts uploadId tables = tables.sortedParts uploadId := by
    rw [seenParts_eq numbered, List.take_of_length_le short]
  have length : (rawEntries tables uploadId).length = (tables.sortedParts uploadId).length :=
    List.length_map _
  have named : (∀ entry ∈ entries, ∃ part ∈ tables.sortedParts uploadId, IsEntryOf entry part) ↔
      entries ⊆ rawEntries tables uploadId := by
    refine forall₂_congr fun entry _ => ?_
    rw [rawEntries, List.mem_map]
    exact exists_congr fun part => and_congr_right fun _ => eq_comm
  rw [NamesSeen, seen, named]
  constructor
  · rintro ⟨⟨nonempty, sameLength, part⟩, distinct⟩
    refine ⟨nonempty, (List.subperm_of_subset distinct part).perm_of_length_le ?_⟩
    rw [length, sameLength]
  · rintro ⟨nonempty, perm⟩
    exact ⟨⟨nonempty, perm.length_eq.trans length, perm.subset⟩,
      perm.nodup_iff.mpr (nodup_rawEntries tables uploadId)⟩

/-- A list of all parts that the service takes is not longer than what it sees. -/
theorem short_of_namesSeen (numbered : Numbered uploadId tables)
    (seen : NamesSeen uploadId entries tables)
    (perm : entries.Perm (rawEntries tables uploadId)) :
    (tables.sortedParts uploadId).length ≤ 1000 := by
  have count := seen.2.1
  rw [seenParts_eq numbered, List.length_take, perm.length_eq, rawEntries, List.length_map]
    at count
  omega

end Lists

/-! ## The objects -/

section Objects

variable {setup : Setup} {uploadId : Bytes} {before : World}

/-- The numbers of the stored parts, in order. -/
def partNumbers (uploadId : Bytes) (tables : Tables) : List Int :=
  (tables.sortedParts uploadId).map Prod.fst

theorem flatten_eq_contentOf_parts {contents : List Bytes}
    (isContents : DataStore.ContentsOf setup before
      ((before.tables.sortedParts uploadId).map fun part => part.2.casKey) contents) :
    contents.flatten = contentOf setup uploadId before (partNumbers uploadId before.tables) := by
  have numbers : (rawEntries before.tables uploadId).map Prod.fst =
      partNumbers uploadId before.tables := by
    rw [rawEntries, List.map_map]
    rfl
  rw [← numbers]
  refine flatten_eq_contentOf ?_ isContents
  rw [rawEntries, List.forall₂_map_left_iff, List.forall₂_map_right_iff, List.forall₂_same]
  exact fun part member => ⟨part, member, rfl, rfl⟩

/-- The recorded sizes of the parts, added up. -/
def storedSize (uploadId : Bytes) (tables : Tables) : Int :=
  ((tables.sortedParts uploadId).map fun part => part.2.size).sum

/-- The size of the handler's object is the sum that the service takes, if it is an `int64_t`. -/
theorem toInt64_partsSize_iff (tables : Tables) :
    toInt64 (partsSize uploadId tables) = storedSize uploadId tables ↔
      -2 ^ 63 ≤ storedSize uploadId tables ∧ storedSize uploadId tables < 2 ^ 63 := by
  change toInt64 (toSizeT (storedSize uploadId tables)) = _ ↔ _
  generalize storedSize uploadId tables = total
  unfold toInt64 toSizeT
  rw [Int.toNat_of_nonneg (Int.emod_nonneg total (by decide)), Int.bmod_def]
  split <;> omega

end Objects

/-! ## Agreement -/

/-- The digest of the parts in the order of their numbers. -/
def partsDigest (setup : Setup) (uploadId : Bytes) (world : World) : Bytes :=
  setup.sha256Hex (contentOf setup uploadId world (partNumbers uploadId world.tables))

/-- The service succeeds when the handler answers 200, and then the upload's bucket and key have,
with both, an object of the parts, with one content key and one size. -/
structure Agrees (setup : Setup) (uploadId : Bytes) (upload : UploadRow) (before : World)
    (result : Result Bytes) (served : World) (answered : Option HttpResponse) (handled : World) :
    Prop where
  accepted : result.isOk = true ↔ AnswersOk answered
  object : result.isOk = true → AnswersOk answered → ∃ one two,
    served.tables.findObject setup.indexed upload.bucketId upload.objectKey = some one ∧
      handled.tables.findObject setup.indexed upload.bucketId upload.objectKey = some two ∧
      one.casKey = two.casKey ∧ one.size = two.size ∧
      two.casKey = partsDigest setup uploadId before

/-- The list leads to one object: no object with another key is in its place, the parts in the
order of the list have the digest of the parts in the order of their numbers, and their sizes add
up to an `int64_t`. -/
structure OneObject (setup : Setup) (uploadId : Bytes) (upload : UploadRow)
    (entries : List (Int × Bytes)) (before : World) : Prop where
  own : OwnEntry setup upload before.tables
  digest : setup.sha256Hex (contentOf setup uploadId before (entries.map Prod.fst)) =
    partsDigest setup uploadId before
  size : -2 ^ 63 ≤ storedSize uploadId before.tables ∧ storedSize uploadId before.tables < 2 ^ 63

/-- The list leads to one object, or the object of the parts is there already, and both leave it
alone. -/
def SameObject (setup : Setup) (uploadId : Bytes) (upload : UploadRow)
    (entries : List (Int × Bytes)) (before : World) : Prop :=
  OneObject setup uploadId upload entries before ∨
    Spared setup upload before.tables fun row => row.casKey = partsDigest setup uploadId before

/-- A list that the service takes has no entry twice and leads to one object, and the upload has no
parts out of sight; a list that the handler takes is one that the service takes. -/
structure Agreeable (setup : Setup) (shownId : Nat) (bucketName objectKey uploadId : Bytes)
    (upload : UploadRow) (entries : List (Int × Bytes)) (before : World) : Prop where
  served : NamesSeen uploadId entries before.tables →
    ¬Hidden setup shownId upload.bucketId upload.objectKey.cString before.tables →
    (before.tables.sortedParts uploadId).length ≤ 1000 ∧ entries.Nodup ∧
      Printable bucketName objectKey ∧ SameObject setup uploadId upload entries before
  handled : Matches before.tables uploadId entries → Printable bucketName objectKey →
    (before.tables.sortedParts uploadId).length ≤ 1000 ∧
      ¬Hidden setup shownId upload.bucketId upload.objectKey.cString before.tables

section

variable {setup : Setup} {shownId : Nat} {uploadId : Bytes} {upload : UploadRow}
variable {bucketName objectKey : Bytes} {entries : List (Int × Bytes)}
variable {before served handled : World} {result : Result Bytes} {answered : Option HttpResponse}

/-- Two objects that are put are found alike exactly when they are alike and put at the key of the
upload, or both put elsewhere. -/
theorem object_iff {first second : ObjectRow} {casKey : Bytes}
    (firstKey : first.objectKey = upload.objectKey.cString)
    (secondKey : second.objectKey = upload.objectKey.cString)
    (putFirst : Puts setup upload first before served)
    (putSecond : Puts setup upload second before handled) (isKey : second.casKey = casKey) :
    (∃ one two,
        served.tables.findObject setup.indexed upload.bucketId upload.objectKey = some one ∧
        handled.tables.findObject setup.indexed upload.bucketId upload.objectKey = some two ∧
        one.casKey = two.casKey ∧ one.size = two.size ∧ two.casKey = casKey) ↔
      (OwnEntry setup upload before.tables ∧ first.casKey = second.casKey ∧
        first.size = second.size) ∨
      Spared setup upload before.tables fun row => row.casKey = casKey := by
  constructor
  · rintro ⟨one, two, isOne, isTwo, sameKey, sameSize, isCasKey⟩
    by_cases read : setup.indexed upload.objectKey.cString = setup.indexed upload.objectKey
    · have own := putFirst.own_of_isSome firstKey read isOne
      rw [putFirst.findObject_of_own firstKey own, Option.some.injEq] at isOne
      rw [putSecond.findObject_of_own secondKey own, Option.some.injEq] at isTwo
      subst isOne isTwo
      exact .inl ⟨own, sameKey, sameSize⟩
    · rw [putSecond.findObject_elsewhere secondKey read] at isTwo
      exact .inr ⟨read, two, isTwo, isCasKey⟩
  · rintro (⟨own, sameKey, sameSize⟩ | ⟨elsewhere, row, isFound, isCasKey⟩)
    · exact ⟨_, _, putFirst.findObject_of_own firstKey own,
        putSecond.findObject_of_own secondKey own, sameKey, sameSize, isKey⟩
    · rw [putFirst.findObject_elsewhere firstKey elsewhere,
        putSecond.findObject_elsewhere secondKey elsewhere]
      exact ⟨row, row, isFound, isFound, rfl, rfl, isCasKey⟩

/-- The objects of the service and of the handler are alike exactly when the list leads to one
object. -/
theorem oneObject_iff (numbered : Numbered uploadId before.tables)
    (short : (before.tables.sortedParts uploadId).length ≤ 1000) :
    (OwnEntry setup upload before.tables ∧
        setup.sha256Hex (contentOf setup uploadId before (entries.map Prod.fst)) =
          partsDigest setup uploadId before ∧
        seenSize uploadId before.tables = toInt64 (partsSize uploadId before.tables)) ↔
      OneObject setup uploadId upload entries before := by
  have seenAll : seenSize uploadId before.tables = storedSize uploadId before.tables := by
    rw [seenSize, seenParts_eq numbered, List.take_of_length_le short, storedSize]
  rw [seenAll, @eq_comm _ (storedSize uploadId before.tables), toInt64_partsSize_iff]
  exact ⟨fun ⟨own, digest, size⟩ => ⟨own, digest, size⟩,
    fun oneObject => ⟨oneObject.own, oneObject.digest, oneObject.size⟩⟩

/-! ### From what each accepts -/

variable (serviceAccepts : result.isOk = true ↔ NamesSeen uploadId entries before.tables ∧
  ¬Hidden setup shownId upload.bucketId upload.objectKey.cString before.tables)
variable (handlerAccepts : AnswersOk answered ↔
  Matches before.tables uploadId entries ∧ Printable bucketName objectKey)
variable (alike : (before.tables.sortedParts uploadId).length ≤ 1000 → result.isOk = true →
  AnswersOk answered → ((∃ one two,
      served.tables.findObject setup.indexed upload.bucketId upload.objectKey = some one ∧
      handled.tables.findObject setup.indexed upload.bucketId upload.objectKey = some two ∧
      one.casKey = two.casKey ∧ one.size = two.size ∧
      two.casKey = partsDigest setup uploadId before) ↔
    SameObject setup uploadId upload entries before))

include serviceAccepts handlerAccepts alike

/-- Where the two agree, the upload has no parts out of sight. -/
theorem Agrees.agreeable (numbered : Numbered uploadId before.tables)
    (comparable : Comparable uploadId entries before.tables)
    (agrees : Agrees setup uploadId upload before result served answered handled) :
    Agreeable setup shownId bucketName objectKey uploadId upload entries before where
  served seen notHidden := by
    have isOk := serviceAccepts.mpr ⟨seen, notHidden⟩
    have answersOk := agrees.accepted.mp isOk
    obtain ⟨matched, printable⟩ := handlerAccepts.mp answersOk
    have stored := comparable.matches_iff.mp matched
    have short := short_of_namesSeen numbered seen stored.2
    exact ⟨short, ((namesSeen_iff numbered short).mpr stored).2, printable,
      (alike short isOk answersOk).mp (agrees.object isOk answersOk)⟩
  handled matched printable := by
    have isOk := agrees.accepted.mpr (handlerAccepts.mpr ⟨matched, printable⟩)
    obtain ⟨seen, notHidden⟩ := serviceAccepts.mp isOk
    exact ⟨short_of_namesSeen numbered seen (comparable.matches_iff.mp matched).2, notHidden⟩

/-- Where the upload has no parts out of sight and the list leads to one object, both accept it
or none does. -/
theorem Agreeable.agrees (numbered : Numbered uploadId before.tables)
    (comparable : Comparable uploadId entries before.tables)
    (agreeable : Agreeable setup shownId bucketName objectKey uploadId upload entries before) :
    Agrees setup uploadId upload before result served answered handled where
  accepted := by
    rw [serviceAccepts, handlerAccepts, comparable.matches_iff]
    constructor
    · rintro ⟨seen, notHidden⟩
      obtain ⟨short, distinct, printable, -⟩ := agreeable.served seen notHidden
      exact ⟨(namesSeen_iff numbered short).mp ⟨seen, distinct⟩, printable⟩
    · rintro ⟨stored, printable⟩
      obtain ⟨short, notHidden⟩ :=
        agreeable.handled (comparable.matches_iff.mpr stored) printable
      exact ⟨((namesSeen_iff numbered short).mpr stored).1, notHidden⟩
  object isOk answersOk := by
    obtain ⟨seen, notHidden⟩ := serviceAccepts.mp isOk
    obtain ⟨short, -, -, oneObject⟩ := agreeable.served seen notHidden
    exact (alike short isOk answersOk).mpr oneObject

end

/-- Where every call succeeds, the service and the handler agree on a list if and only if the list
has no entry twice, the service sees all parts, and both lead to one object at the upload's key. -/
theorem completions_agree_iff {setup : Setup} {process otherProcess shownId : Nat}
    {request : HttpRequest} {bucketName objectKey uploadId : Bytes} {upload : UploadRow}
    {entries : List (Int × Bytes)} {before served handled : World} {result : Result Bytes}
    {answered : Option HttpResponse} {choices otherChoices : List Choice}
    (strict : setup.json.Strict)
    (present : before.tables.multipartUploads.lookup uploadId = some upload)
    (numbered : Numbered uploadId before.tables)
    (comparable : Comparable uploadId entries before.tables)
    (names : Names request bucketName objectKey uploadId)
    (lists : Lists setup request entries)
    (serves : Program.execute ((serviceAnswer setup process shownId).accept ServiceOp.succeeded)
      (MultipartService.completeMultipartUpload setup uploadId entries) choices before =
        some (result, served))
    (handles : Program.execute ((answer setup otherProcess).accept IoOp.succeeded)
      (completeUpload setup request) otherChoices before = some (answered, handled)) :
    Agrees setup uploadId upload before result served answered handled ↔
      Agreeable setup shownId bucketName objectKey uploadId upload entries before := by
  have byService := (servesAll_completeMultipartUpload present numbered).of_execute
    (fun _ _ => trivial) serves
  have settles := (succeeds_completeUploadAs strict present numbered names lists).of_execute
    (fun _ _ => trivial) handles
  have ok := settles.answersOk_iff strict
  rw [comparable.readsAsMatch_iff] at ok
  -- where both accept the list, both have put their object
  have alike : (before.tables.sortedParts uploadId).length ≤ 1000 → result.isOk = true →
      AnswersOk answered → ((∃ one two,
          served.tables.findObject setup.indexed upload.bucketId upload.objectKey = some one ∧
          handled.tables.findObject setup.indexed upload.bucketId upload.objectKey = some two ∧
          one.casKey = two.casKey ∧ one.size = two.size ∧
          two.casKey = partsDigest setup uploadId before) ↔
        SameObject setup uploadId upload entries before) := by
    intro short isOk answersOk
    obtain ⟨nonempty, perm⟩ := comparable.readsAsMatch_iff.mpr (ok.mp answersOk).1
    rw [Ne, entries_eq_nil_iff perm] at nonempty
    obtain ⟨contents, isContents, completes⟩ := settles.1 perm nonempty
    have putSecond := completes.puts
    rw [flatten_eq_contentOf_parts isContents] at putSecond
    have found := object_iff rfl rfl (byService.object isOk) putSecond rfl
    dsimp only [putRow, completedObject] at found
    exact found.trans (or_congr_left (oneObject_iff numbered short))
  exact ⟨fun agrees => agrees.agreeable byService.accepted ok alike numbered comparable,
    fun agreeable => agreeable.agrees byService.accepted ok alike numbered comparable⟩

/-! ## An upload of two parts -/

/-- An upload of two parts whose contents may be joined in either order. -/
def uploadOfTwo : World :=
  uploadOf [ascii "a", ascii "aa"]

/-- The second part before the first. -/
def secondFirst : List (Int × Bytes) :=
  [(2, tagOf (ascii "aa")), (1, tagOf (ascii "a"))]

/-- The first part twice. -/
def firstTwice : List (Int × Bytes) :=
  List.replicate 2 (1, tagOf (ascii "a"))

/-- A configuration that reads this list. -/
def readsList (entries : List (Int × Bytes)) : Setup :=
  readsLists [(ascii "parts", entries)]

/-- The service is given the list. -/
def serviceRun (entries : List (Int × Bytes)) (merge : List Choice) :
    Option (Result Bytes × World) :=
  Program.execute ((serviceAnswer (readsList entries) 0 0).accept ServiceOp.succeeded)
    (MultipartService.completeMultipartUpload (readsList entries) (ascii "u") entries)
    ([succeeds, succeeds] ++ merge ++ [.done, .done, succeeds]) uploadOfTwo

/-- The handler is given the list. -/
def handlerRun (entries : List (Int × Bytes)) (rest : List Choice) :
    Option (Option HttpResponse × World) :=
  Program.execute ((answer (readsList entries) 0).accept IoOp.succeeded)
    (completeUpload (readsList entries) (completeOf (ascii "k") (ascii "parts")))
    ([succeeds, succeeds] ++ rest) uploadOfTwo

/-- The calls that merge blobs of these lengths. -/
def mergeOf (lengths : List Nat) : List Choice :=
  [.uuid DataStore.sampleUuid, .done] ++
    lengths.flatMap (fun length => [.done, .count length, .count length, .count 0]) ++
    [.done, .done, .done]

theorem completions_agree_iff_sample :
    ∃ result served answered handled,
      serviceRun secondFirst (mergeOf [2, 1]) = some (result, served) ∧
      handlerRun secondFirst (mergeOf [1, 2] ++
        [succeeds, succeeds, .done, succeeds, .done, succeeds]) = some (answered, handled) ∧
      Agrees (readsList secondFirst) (ascii "u") sampleUpload uploadOfTwo result served answered
        handled := by
  have parts : uploadOfTwo.tables.sortedParts (ascii "u") =
      [(1, ⟨DataStore.sampleSetup.sha256Hex (ascii "a"), 1, tagOf (ascii "a")⟩),
        (2, ⟨DataStore.sampleSetup.sha256Hex (ascii "aa"), 2, tagOf (ascii "aa")⟩)] := by
    decide +kernel
  have numbered : Numbered (ascii "u") uploadOfTwo.tables := by
    have inRange : ∀ part ∈ uploadOfTwo.tables.sortedParts (ascii "u"),
        1 ≤ part.1 ∧ part.1 ≤ 10000 := by
      rw [parts]
      decide
    exact fun number row stored => inRange _ (Tables.mem_sortedParts.mpr stored)
  have quoted : ∀ content, Quoted (tagOf content) := fun content =>
    ⟨etagValue (DataStore.sampleSetup.sha256Hex content), rfl⟩
  have comparable : Comparable (ascii "u") secondFirst uploadOfTwo.tables := by
    refine ⟨by decide, ?_, ?_⟩
    · simp [secondFirst, quoted]
    · simp [parts, quoted]
  have agrees : ∀ result served answered handled,
      serviceRun secondFirst (mergeOf [2, 1]) = some (result, served) →
      handlerRun secondFirst (mergeOf [1, 2] ++
        [succeeds, succeeds, .done, succeeds, .done, succeeds]) = some (answered, handled) →
      Agreeable (readsList secondFirst) 0 (ascii "b") (ascii "k") (ascii "u") sampleUpload
        secondFirst uploadOfTwo →
      Agrees (readsList secondFirst) (ascii "u") sampleUpload uploadOfTwo result served answered
        handled :=
    fun result served answered handled serves handles =>
      (completions_agree_iff (JsonLibrary.strict_plain _) rfl numbered comparable
        (names_completeOf (by decide) _)
        ⟨_, _, rfl, rfl, .cons ⟨rfl, rfl⟩ (.cons ⟨rfl, rfl⟩ .nil)⟩ serves handles).mpr
  have short : (uploadOfTwo.tables.sortedParts (ascii "u")).length ≤ 1000 := by
    rw [parts]
    decide
  refine ⟨_, _, _, _, rfl, rfl, agrees _ _ _ _ rfl rfl ⟨fun _ _ => ?_, fun _ _ => ?_⟩⟩
  · refine ⟨short, by decide +kernel, by decide, .inl ⟨.of_whole (by decide) nofun, ?_, ?_⟩⟩
    · decide +kernel
    · rw [storedSize, parts]
      decide
  · exact ⟨short, by decide⟩

/-- The service takes the first of two parts twice, whose blob it finds stored already, and the
handler refuses the list. -/
theorem repeated_part_is_taken_twice :
    ∃ result served answered handled,
      serviceRun firstTwice (mergeOf [1, 1]).dropLast = some (result, served) ∧
        handlerRun firstTwice [] = some (answered, handled) ∧
        ¬Agrees (readsList firstTwice) (ascii "u") sampleUpload uploadOfTwo result served answered
          handled := by
  refine ⟨_, _, _, _, rfl, rfl, ?_⟩
  rintro ⟨accepted, -⟩
  have ok := accepted.mp rfl
  unfold AnswersOk at ok
  revert ok
  decide +kernel

end Service

end MiniS3
