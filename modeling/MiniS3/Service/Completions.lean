import MiniS3.Api.Completion
import MiniS3.Service.RefCounts

/-!
# Completing an upload in the service

`MultipartService::CompleteMultipartUpload` where every call succeeds.  It sees the first 1000 parts
of the upload, takes a list with as many entries when each of them is one of these parts, merges
the blobs in the order of the list, and puts the object with the sizes of the parts it sees.
-/

namespace MiniS3

open Lib Db Api.MultipartHandlers

/-- A call of a service that reports no error. -/
def ServiceOp.succeeded : (op : ServiceOp) → op.Ans → Bool
  | .io op, answered => op.succeeded answered
  | .exec _, .ok _ => true
  | .exec _, .error _ => false

namespace Service

/-- Every execution of the program in which every call succeeds ends in `post`. -/
abbrev ServesAll (setup : Setup) (process shownId : Nat) {α : Type} (post : α → World → Prop)
    (program : ServiceM α) (world : World) : Prop :=
  Program.Ensures ((serviceAnswer setup process shownId).accept ServiceOp.succeeded)
    (fun _ => True) post program world

section Rules

variable {setup : Setup} {process shownId : Nat} {α : Type} {post : α → World → Prop}
variable {world : World}

theorem servesAll_of_serves {program : ServiceM α}
    (serves : Serves setup process shownId post program world) :
    ServesAll setup process shownId post program world :=
  Program.Ensures.narrow serves fun _ _ _ _ _ step => (Option.filter_eq_some_iff.mp step).1

/-- A call of the metadata store that a handler makes too, by its effect. -/
theorem servesAll_metaCall {call : MetaCall} {next : call.Ans → ServiceM α}
    (continues : ∀ answered tables caches, call.succeeded answered = true →
      call.Effect setup.indexed False world.tables world.caches answered tables caches →
      ServesAll setup process shownId post (next answered) { world with tables, caches }) :
    ServesAll setup process shownId post (metaCall call >>= next) world := by
  intro choice answered after _ step
  rcases Option.filter_eq_some_iff.mp step with ⟨given, succeeded⟩
  simp only [serviceAnswer, Option.ite_none_right_eq_some] at given
  rcases given with ⟨noFault, given⟩
  rcases answer_metaStore given with ⟨faults, clock, rfl, same, effect⟩
  rw [same]
  exact continues answered _ _ succeeded (effect False (.inr (List.isEmpty_iff.mp noFault)))

/-- A part that handlers make too. -/
theorem servesAll_io {program : ServerM α}
    (succeeds : Succeeds setup process post program world) :
    ServesAll setup process shownId post (io program) world := by
  induction program generalizing world with
  | ret value => exact succeeds
  | call op next inductionHypothesis =>
      intro choice answered after _ step
      rcases Option.filter_eq_some_iff.mp step with ⟨given, succeeded⟩
      simp only [serviceAnswer, Option.ite_none_right_eq_some] at given
      apply inductionHypothesis answered
      apply succeeds choice answered after trivial
      exact Option.filter_eq_some_iff.mpr ⟨given.2, succeeded⟩

end Rules

/-! ## The parts that the client names -/

/-- The parts that the service sees are the first of the stored ones. -/
theorem seenParts_eq {uploadId : Bytes} {tables : Tables} (numbered : Numbered uploadId tables) :
    seenParts uploadId tables = (tables.sortedParts uploadId).take 1000 := by
  rw [seenParts, listedParts_eq numbered, List.take_take]
  rfl

/-- The entry is the number and the entity tag of the part. -/
def IsEntryOf (entry : Int × Bytes) (part : Int × PartRow) : Prop :=
  entry = (part.1, part.2.etag)

/-- The list is not empty, has as many entries as there are parts in sight, and each of them names
one of these parts. -/
def NamesSeen (uploadId : Bytes) (entries : List (Int × Bytes)) (tables : Tables) : Prop :=
  entries ≠ [] ∧ entries.length = (seenParts uploadId tables).length ∧
    ∀ entry ∈ entries, ∃ part ∈ seenParts uploadId tables, IsEntryOf entry part

/-- Two parts of one number are one part. -/
theorem part_unique {parts : List (Int × PartRow)}
    (strict : parts.Pairwise fun one two => one.1 < two.1) {one two : Int × PartRow}
    (first : one ∈ parts) (second : two ∈ parts) (same : one.1 = two.1) : one = two := by
  have distinct : (parts.map Prod.fst).Nodup :=
    List.pairwise_map.mpr (strict.imp fun less => Int.ne_of_lt less)
  exact List.inj_on_of_nodup_map distinct first second same

/-- The blobs of a list are those of the parts that its entries name. -/
theorem partBlobs_eq_ok_iff {uploadId : Bytes} {parts : List (Int × PartRow)}
    (strict : parts.Pairwise fun one two => one.1 < two.1) {entries : List (Int × Bytes)}
    {casKeys : List Bytes} :
    MultipartService.partBlobs (parts.map (partInfo uploadId)) entries = .ok casKeys ↔
      List.Forall₂ (fun entry casKey => ∃ part ∈ parts, IsEntryOf entry part ∧ part.2.casKey = casKey)
        entries casKeys := by
  induction entries generalizing casKeys with
  | nil =>
      rw [MultipartService.partBlobs, List.forall₂_nil_left_iff, Except.ok.injEq, eq_comm]
  | cons entry entries inductionHypothesis =>
      obtain ⟨number, etag⟩ := entry
      rw [MultipartService.partBlobs, List.forall₂_cons_left_iff]
      cases found : (parts.map (partInfo uploadId)).find? fun part =>
          part.partNumber = number with
      | none =>
          refine iff_of_false nofun ?_
          rintro ⟨casKey, rest, ⟨part, member, named, -⟩, -⟩
          rw [List.find?_eq_none] at found
          refine found _ (List.mem_map_of_mem member) ?_
          exact decide_eq_true (congrArg Prod.fst named).symm
      | some info =>
          obtain ⟨part, member, rfl⟩ := List.mem_map.mp (List.mem_of_find?_eq_some found)
          have sameNumber : (partInfo uploadId part).partNumber = number := by
            simpa using List.find?_some found
          change part.1 = number at sameNumber
          by_cases sameEtag : part.2.etag = etag
          · have named : IsEntryOf (number, etag) part := Prod.ext sameNumber.symm sameEtag.symm
            simp only [partInfo, sameEtag, ne_eq, not_true_eq_false, if_false]
            constructor
            · intro mapped
              cases others : MultipartService.partBlobs (parts.map (partInfo uploadId))
                  entries with
              | error status =>
                  rw [others] at mapped
                  cases mapped
              | ok rest =>
                  rw [others] at mapped
                  cases mapped
                  exact ⟨_, rest, ⟨part, member, named, rfl⟩, inductionHypothesis.mp others, rfl⟩
            · rintro ⟨casKey, rest, ⟨other, isOther, otherNamed, rfl⟩, others, rfl⟩
              obtain rfl := part_unique strict member isOther
                (sameNumber.trans (congrArg Prod.fst otherNamed))
              rw [inductionHypothesis.mpr others]
              rfl
          · dsimp only [partInfo]
            rw [if_pos sameEtag]
            refine iff_of_false nofun ?_
            rintro ⟨casKey, rest, ⟨other, isOther, otherNamed, -⟩, -⟩
            obtain rfl := part_unique strict member isOther
              (sameNumber.trans (congrArg Prod.fst otherNamed))
            exact sameEtag (congrArg Prod.snd otherNamed).symm

/-- Every list of the parts in sight has blobs. -/
theorem exists_partBlobs_iff {uploadId : Bytes} {parts : List (Int × PartRow)}
    (strict : parts.Pairwise fun one two => one.1 < two.1) {entries : List (Int × Bytes)} :
    (∃ casKeys, MultipartService.partBlobs (parts.map (partInfo uploadId)) entries =
        .ok casKeys) ↔
      ∀ entry ∈ entries, ∃ part ∈ parts, IsEntryOf entry part := by
  simp only [partBlobs_eq_ok_iff strict]
  induction entries with
  | nil => exact iff_of_true ⟨[], .nil⟩ (by simp)
  | cons entry entries inductionHypothesis =>
      rw [List.forall_mem_cons, ← inductionHypothesis]
      constructor
      · rintro ⟨casKeys, blobs⟩
        cases blobs with
        | cons first others =>
            obtain ⟨part, member, named, -⟩ := first
            exact ⟨⟨part, member, named⟩, _, others⟩
      · rintro ⟨⟨part, member, named⟩, rest, others⟩
        exact ⟨part.2.casKey :: rest, .cons ⟨part, member, named, rfl⟩ others⟩

/-! ## The object that is put -/

/-- The content of a part, as it is stored. -/
def partContent (setup : Setup) (uploadId : Bytes) (world : World) (number : Int) : Bytes :=
  ((world.tables.multipartParts.lookup (uploadId, number)).bind fun part =>
    world.files.lookup (setup.getCasPath part.casKey)).getD []

/-- The contents of parts in the order of a list of their numbers. -/
def contentOf (setup : Setup) (uploadId : Bytes) (world : World) (numbers : List Int) : Bytes :=
  numbers.flatMap (partContent setup uploadId world)

section

variable {setup : Setup} {process shownId : Nat} {uploadId : Bytes} {world : World}

/-- What is merged is the contents of the parts that are named. -/
theorem flatten_eq_contentOf {entries : List (Int × Bytes)} {casKeys contents : List Bytes}
    (named : List.Forall₂ (fun entry casKey => ∃ part ∈ world.tables.sortedParts uploadId,
      entry.1 = part.1 ∧ part.2.casKey = casKey) entries casKeys)
    (isContents : DataStore.ContentsOf setup world casKeys contents) :
    contents.flatten = contentOf setup uploadId world (entries.map Prod.fst) := by
  induction named generalizing contents with
  | nil =>
      cases isContents
      rfl
  | cons first _ inductionHypothesis =>
      obtain ⟨part, member, number, rfl⟩ := first
      cases isContents with
      | cons present rest =>
          rw [List.flatten_cons, inductionHypothesis rest, List.map_cons, contentOf, contentOf,
            List.flatMap_cons, number, partContent, Tables.mem_sortedParts.mp member,
            Option.bind_some, present, Option.getD_some]

/-- The row that is put for a content. -/
def putRow (setup : Setup) (upload : UploadRow) (totalSize : Int) (content : Bytes) : ObjectRow :=
  ⟨upload.objectKey.cString, setup.sha256Hex content, totalSize, upload.contentType.cString,
    wholeEtag (setup.sha256Hex content)⟩

/-- `CompleteMultipartUpload` once the parts are merged puts the object, unless the id of its row
is not shown and cannot be found. -/
theorem serves_completeObject {upload : UploadRow} {totalSize : Int} {content : Bytes} :
    Serves setup process shownId (fun result after =>
        (Result.isOk result = true ↔
          ¬Hidden setup shownId upload.bucketId upload.objectKey.cString world.tables) ∧
        (Result.isOk result = true →
          Puts setup upload (putRow setup upload totalSize content) world after))
      (MultipartService.completeWith uploadId (upload.read uploadId) totalSize
        (setup.sha256Hex content)) world := by
  unfold MultipartService.completeWith
  apply serves_registerCasBlob
  apply serves_putObject
  · intro registered notHidden
    apply serves_metaCall
    rintro answered removed caches ⟨-, -, rfl⟩
    have objects : ∀ tables : Tables,
        (if answered.isOk then tables.removeUpload uploadId else tables).objects =
          tables.objects := by
      intro tables
      split
      · exact objects_removeUpload uploadId tables
      · rfl
    refine ⟨iff_of_true rfl notHidden, fun _ => ?_⟩
    unfold Puts
    dsimp only
    rw [objects]
    rfl
  · intro isHidden status
    exact ⟨iff_of_false nofun (not_not.mpr isHidden), nofun⟩

/-- The size that the service adds up. -/
def seenSize (uploadId : Bytes) (tables : Tables) : Int :=
  ((seenParts uploadId tables).map fun part => part.2.size).sum

/-- What the service does with a list: it takes one that names the parts in sight, and puts the
object of their contents in the order of the list. -/
structure Served (setup : Setup) (shownId : Nat) (uploadId : Bytes) (upload : UploadRow)
    (entries : List (Int × Bytes)) (before : World) (result : Result Bytes) (after : World) :
    Prop where
  accepted : result.isOk = true ↔ NamesSeen uploadId entries before.tables ∧
    ¬Hidden setup shownId upload.bucketId upload.objectKey.cString before.tables
  object : result.isOk = true →
    Puts setup upload (putRow setup upload (seenSize uploadId before.tables)
      (contentOf setup uploadId before (entries.map Prod.fst))) before after

theorem served_refused {upload : UploadRow} {entries : List (Int × Bytes)} {status : Status}
    {after : World} (other : ¬NamesSeen uploadId entries world.tables) :
    Served setup shownId uploadId upload entries world (.error status) after :=
  ⟨iff_of_false nofun fun both => other both.1, nofun⟩

/-- `CompleteMultipartUpload` where every call succeeds. -/
theorem servesAll_completeMultipartUpload {upload : UploadRow} {entries : List (Int × Bytes)}
    (present : world.tables.multipartUploads.lookup uploadId = some upload)
    (numbered : Numbered uploadId world.tables) :
    ServesAll setup process shownId (Served setup shownId uploadId upload entries world)
      (MultipartService.completeMultipartUpload setup uploadId entries) world := by
  have seen := seenParts_eq numbered
  have strict : (seenParts uploadId world.tables).Pairwise fun one two => one.1 < two.1 := by
    rw [seen]
    exact (world.tables.strictParts uploadId).sublist (List.take_sublist _ _)
  unfold MultipartService.completeMultipartUpload
  apply servesAll_metaCall
  rintro answered tables caches succeeded ⟨rfl, rfl, ⟨⟨⟩, -⟩ | answers⟩
  rw [present] at answers
  obtain rfl : answered = .ok (upload.read uploadId) := answers
  apply servesAll_metaCall
  rintro answered tables caches succeeded ⟨rfl, rfl, ⟨⟨⟩, -⟩ | ⟨listed, rfl, told⟩⟩
  replace told : listed.parts = (seenParts uploadId world.tables).map (partInfo uploadId) := told
  dsimp only
  rw [told, List.length_map]
  by_cases sameCount : entries.length = (seenParts uploadId world.tables).length
  · rw [if_neg (not_not.mpr sameCount)]
    have some := @exists_partBlobs_iff uploadId _ strict entries
    cases blobs : MultipartService.partBlobs
        ((seenParts uploadId world.tables).map (partInfo uploadId)) entries with
    | error status =>
        refine served_refused fun named => ?_
        obtain ⟨casKeys, found⟩ := some.mpr named.2.2
        rw [blobs] at found
        cases found
    | ok casKeys =>
        have named := (partBlobs_eq_ok_iff strict).mp blobs
        have namesParts := some.mp ⟨casKeys, blobs⟩
        apply Program.ensures_bind.mpr
        by_cases empty : entries = []
        · subst empty
          obtain rfl := List.forall₂_nil_left_iff.mp named
          exact served_refused fun named => named.1 rfl
        · have nonempty : casKeys ≠ [] := by
            rintro rfl
            exact empty (List.forall₂_nil_right_iff.mp named)
          refine (servesAll_io (succeeds_mergeBlobs nonempty)).mono ?_
          rintro result merged ⟨casKey, rfl, assembled, sameTables⟩
          obtain ⟨contents, isContents, rfl, -⟩ := assembled.stored casKey rfl
          have content : contents.flatten =
              contentOf setup uploadId world (entries.map Prod.fst) := by
            refine flatten_eq_contentOf (named.imp ?_) isContents
            rintro entry casKey ⟨part, member, isNamed, isBlob⟩
            rw [seen] at member
            exact ⟨part, List.mem_of_mem_take member, congrArg Prod.fst isNamed, isBlob⟩
          have sizes : (((seenParts uploadId world.tables).map (partInfo uploadId)).map
              MetaStore.MultipartPartInfo.size).sum = seenSize uploadId world.tables := by
            rw [List.map_map]
            rfl
          have completes := servesAll_of_serves (@serves_completeObject setup process shownId
            uploadId merged upload (seenSize uploadId world.tables) contents.flatten)
          dsimp only
          rw [sizes]
          refine completes.mono ?_
          rintro result after ⟨accepted, puts⟩
          unfold Puts at puts
          rw [sameTables] at accepted puts
          rw [content] at puts
          refine ⟨accepted.trans ?_, puts⟩
          exact (and_iff_right ⟨empty, sameCount, namesParts⟩).symm
  · rw [if_pos sameCount]
    exact served_refused fun named => sameCount named.2.1

end

end Service

end MiniS3
