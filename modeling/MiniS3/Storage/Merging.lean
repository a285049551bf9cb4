import MiniS3.Storage.Commit

/-!
# Merging blobs

The files of some blobs are read one after the other, in pieces of at most 64 KiB, and each piece
is fed to the digest and written to a temporary file.  What the digest was fed is always what is in
that file, and both are the contents of the blobs that were copied, whatever the pieces were.  At
the end the file gets the name of its blob; when a call fails it is removed, and no file has
changed.
-/

namespace MiniS3.DataStore

open Lib

/-- The contents of the files of blobs, in order. -/
def ContentsOf (setup : Setup) (world : World) : List Bytes → List Bytes → Prop :=
  List.Forall₂ fun casKey content =>
    world.files.lookup (setup.getCasPath casKey) = some content

/-- The merge file is there, and holds these bytes; no other file has changed. -/
structure Merging (tmpPath data : Bytes) (before world : World) : Prop where
  file : world.files.lookup tmpPath = some data
  elsewhere : Elsewhere tmpPath before world

/-- The merge file is gone, and no other file has changed. -/
structure Cleaned (tmpPath : Bytes) (before world : World) : Prop where
  file : world.files.lookup tmpPath = none
  elsewhere : Elsewhere tmpPath before world

section Copying

variable {setup : Setup} {process : Nat} {α : Type} {post : α → World → Prop}
variable {tmpPath : Bytes} {before : World}

theorem Merging.cleaned {data : Bytes} {world : World}
    (merging : Merging tmpPath data before world) :
    Cleaned tmpPath before (world.dropFile tmpPath) :=
  ⟨world.lookup_dropFile_self tmpPath,
    merging.elsewhere.trans (world.elsewhere_dropFile tmpPath)⟩

/-- Copying the rest of an open file: the digest and the merge file get the same bytes.  Each read
but the last takes at least one byte of what is left, so that the calls are enough. -/
theorem leads_copyRest {calls : Nat} {rest hashed : Bytes} {world : World}
    {next : Result Bytes → ServerM α} (enough : rest.length < calls)
    (merging : Merging tmpPath hashed before world)
    (done : ∀ after, Merging tmpPath (hashed ++ rest) before after →
      Leads setup process unlinkSucceeds post (next (.ok (hashed ++ rest))) after)
    (failed : ∀ status after, Cleaned tmpPath before after →
      Leads setup process unlinkSucceeds post (next (.error status)) after) :
    Leads setup process unlinkSucceeds post (copyRest tmpPath calls rest hashed >>= next)
      world := by
  induction calls generalizing rest hashed world with
  | zero => contradiction
  | succ calls inductionHypothesis =>
      refine leads_read ?_ ?_
      · intro length isReadable
        unfold readable at isReadable
        cases length with
        | zero =>
            have atEnd : rest = [] := by
              by_contra left
              simp [left] at isReadable
            subst atEnd
            rw [List.append_nil] at done
            exact done world merging
        | succ length =>
            have left : rest ≠ [] := by
              rintro rfl
              simp at isReadable
            have within : length + 1 ≤ rest.length := by
              simp only [List.isEmpty_iff, left, if_false, Bool.and_eq_true,
                decide_eq_true_eq] at isReadable
              exact isReadable.1.2
            change Leads _ _ _ _ ((writeAll tmpPath _ _ >>= _) >>= next) world
            rw [Program.bind_assoc]
            refine leads_writeAll (Nat.le_refl _) merging.file ?_ ?_
            · intro after elsewhere written
              have split : hashed ++ rest.take (length + 1) ++ rest.drop (length + 1) =
                  hashed ++ rest := by
                rw [List.append_assoc, List.take_append_drop]
              have shorter : (rest.drop (length + 1)).length < calls := by
                rw [List.length_drop]
                omega
              refine inductionHypothesis shorter ⟨written, merging.elsewhere.trans elsewhere⟩ ?_
              rw [split]
              exact done
            · intro text after elsewhere
              refine leads_unlink (failed _ _ ⟨after.lookup_dropFile_self tmpPath, ?_⟩)
              exact (merging.elsewhere.trans elsewhere).trans (after.elsewhere_dropFile tmpPath)
      · intro text
        exact leads_unlink (failed _ _ merging.cleaned)

/-- Copying blobs: the digest and the merge file get the contents of all of them. -/
theorem leads_copyAll {casKeys : List Bytes} {hashed : Bytes} {world : World}
    {next : Result Bytes → ServerM α} (different : ∀ casKey, setup.getCasPath casKey ≠ tmpPath)
    (merging : Merging tmpPath hashed before world)
    (done : ∀ contents after, ContentsOf setup before casKeys contents →
      Merging tmpPath (hashed ++ contents.flatten) before after →
      Leads setup process unlinkSucceeds post (next (.ok (hashed ++ contents.flatten))) after)
    (failed : ∀ status after, Cleaned tmpPath before after →
      Leads setup process unlinkSucceeds post (next (.error status)) after) :
    Leads setup process unlinkSucceeds post (copyAll setup tmpPath casKeys hashed >>= next)
      world := by
  induction casKeys generalizing hashed world with
  | nil =>
      have whole := done [] world .nil (by simpa using merging)
      rw [List.flatten_nil, List.append_nil] at whole
      exact whole
  | cons casKey casKeys inductionHypothesis =>
      refine leads_openRead ?_ ?_
      · intro content present
        change Leads _ _ _ _ ((copyRest tmpPath _ _ _ >>= _) >>= next) world
        rw [Program.bind_assoc]
        refine leads_copyRest (Nat.lt_succ_self _) merging ?_ failed
        intro after copied
        refine inductionHypothesis copied ?_
        intro contents last isContents mergingAll
        have source : before.files.lookup (setup.getCasPath casKey) = some content := by
          rw [← merging.elsewhere _ (different casKey)]
          exact present
        have whole := done (content :: contents) last (.cons source isContents)
        simp only [List.flatten_cons, ← List.append_assoc] at whole
        exact whole mergingAll
      · exact leads_unlink (failed _ _ merging.cleaned)

end Copying

/-- What a merge does to the files: nothing, or it gives the concatenation the name of its blob,
unless that file is there already. -/
structure Assembled (setup : Setup) (casKeys : List Bytes) (before : World) (result : Result Bytes)
    (after : World) : Prop where
  stored : ∀ casKey, result = .ok casKey → ∃ contents,
    ContentsOf setup before casKeys contents ∧ casKey = setup.sha256Hex contents.flatten ∧
      ∀ path, after.files.lookup path =
        if path = setup.getCasPath casKey then
          some ((before.files.lookup path).getD contents.flatten)
        else before.files.lookup path
  failed : ∀ status, result = .error status →
    ∀ path, after.files.lookup path = before.files.lookup path

/-- What a merge leads to. -/
structure Merged (setup : Setup) (casKeys : List Bytes) (before : World) (result : Result Bytes)
    (after : World) : Prop where
  stored : ∀ casKey, result = .ok casKey → ∃ contents,
    ContentsOf setup before casKeys contents ∧ casKey = setup.sha256Hex contents.flatten ∧
      after.files.lookup (setup.getCasPath casKey) = some contents.flatten ∧
      Elsewhere (setup.getCasPath casKey) before after
  failed : ∀ status, result = .error status →
    ∀ path, after.files.lookup path = before.files.lookup path
  sources : ∀ casKey content, before.files.lookup (setup.getCasPath casKey) = some content →
    after.files.lookup (setup.getCasPath casKey) = some content

/-- No file has the digest of the merged contents without holding them. -/
def NoMergeCollision (setup : Setup) (casKeys : List Bytes) (world : World) : Prop :=
  ∀ contents, ContentsOf setup world casKeys contents → NoCollision setup contents.flatten world

section Merge

variable {setup : Setup} {process : Nat} {casKeys : List Bytes} {world : World}

theorem assembled_of_failure {status : Status} {after : World}
    (same : ∀ path, after.files.lookup path = world.files.lookup path) :
    Assembled setup casKeys world (.error status) after := by
  constructor
  · rintro casKey ⟨⟩
  · exact fun _ _ => same

theorem Cleaned.same {tmpPath : Bytes} {after : World} (cleaned : Cleaned tmpPath world after)
    (absent : world.files.lookup tmpPath = none) (path : Bytes) :
    after.files.lookup path = world.files.lookup path := by
  by_cases isTmp : path = tmpPath
  · rw [isTmp, cleaned.file, absent]
  · exact cleaned.elsewhere path isTmp

/-- The merge file was given the name of its blob, or was not needed. -/
theorem Placed.assembled {tmpPath : Bytes} {contents : List Bytes} {merging after : World}
    {result : Result Bytes} (different : ∀ casKey, setup.getCasPath casKey ≠ tmpPath)
    (absent : world.files.lookup tmpPath = none) (isContents : ContentsOf setup world casKeys contents)
    (complete : Merging tmpPath contents.flatten world merging)
    (placed : Placed setup tmpPath (setup.sha256Hex contents.flatten) contents.flatten merging result
      after) : Assembled setup casKeys world result after := by
  constructor
  · intro returned isOk
    obtain ⟨rfl, files⟩ := placed.stored returned isOk
    refine ⟨contents, isContents, rfl, fun path => ?_⟩
    by_cases isTmp : path = tmpPath
    · rw [isTmp, if_neg (different _).symm, placed.noTemporary, absent]
    · rw [files path isTmp, complete.elsewhere path isTmp]
  · intro status isError path
    exact Cleaned.same ⟨placed.noTemporary,
      complete.elsewhere.trans (placed.failed status isError)⟩ absent path

theorem leads_assemble :
    Leads setup process unlinkSucceeds (Assembled setup casKeys world) (merge setup casKeys)
      world := by
  unfold merge
  split
  · exact assembled_of_failure fun _ => rfl
  · refine leads_generateUuid fun uuid _ => leads_openNew ?_ ?_
    · intro absent makers
      have different : ∀ casKey, setup.getCasPath casKey ≠ setup.tmpPath (ascii "merge") uuid :=
        fun casKey => setup.getCasPath_ne_tmpPath casKey _ _
      have fresh : Merging (setup.tmpPath (ascii "merge") uuid) [] world
          { world with
            files := world.files.set (setup.tmpPath (ascii "merge") uuid) [], makers } :=
        ⟨Table.lookup_set_self _ _ _, fun _ other => Table.lookup_set_ne _ _ other⟩
      refine leads_copyAll different fresh ?_ ?_
      · intro contents after isContents complete
        refine (leads_place (different _).symm complete.file).mono fun result last placed => ?_
        exact placed.assembled different absent isContents complete
      · intro status after cleaned
        exact assembled_of_failure (cleaned.same absent)
    · intro text
      exact assembled_of_failure fun _ => rfl

/-- What is at the name of the blob holds the concatenation, when no other content has its
digest. -/
theorem Assembled.merged {result : Result Bytes} {after : World}
    (assembled : Assembled setup casKeys world result after) (named : HoldNamed setup world)
    (noCollision : NoMergeCollision setup casKeys world) :
    Merged setup casKeys world result after := by
  cases result with
  | error status =>
      have same := assembled.failed status rfl
      refine ⟨?_, fun _ _ => same, ?_⟩
      · rintro casKey ⟨⟩
      · intro casKey content present
        rw [same, present]
  | ok casKey =>
      obtain ⟨contents, isContents, rfl, files⟩ := assembled.stored casKey rfl
      have there : ∀ content,
          world.files.lookup (setup.getCasPath (setup.sha256Hex contents.flatten)) =
            some content → content = contents.flatten := fun content present =>
        noCollision contents isContents _ content present
          (named _ content (setup.length_sha256Hex _) present)
      have final : after.files.lookup
          (setup.getCasPath (setup.sha256Hex contents.flatten)) = some contents.flatten := by
        rw [files, if_pos rfl]
        cases present : world.files.lookup
            (setup.getCasPath (setup.sha256Hex contents.flatten)) with
        | none => rfl
        | some content => rw [there content present]; rfl
      have others : Elsewhere (setup.getCasPath (setup.sha256Hex contents.flatten)) world after := by
        intro path other
        rw [files, if_neg other]
      refine ⟨?_, ?_, ?_⟩
      · rintro returned ⟨⟩
        exact ⟨contents, isContents, rfl, final, others⟩
      · rintro status ⟨⟩
      · intro casKey content present
        by_cases isFinal : setup.getCasPath casKey =
            setup.getCasPath (setup.sha256Hex contents.flatten)
        · rw [isFinal] at present ⊢
          rw [final, there content present]
        · rw [others _ isFinal, present]

end Merge

/-- `Merge` stores the concatenation of the blobs or does nothing. -/
theorem merge_concatenates_or_does_nothing {setup : Setup} {process : Nat} {casKeys : List Bytes}
    {world after : World} {result : Result Bytes} {choices : List Choice}
    (named : HoldNamed setup world) (noCollision : NoMergeCollision setup casKeys world)
    (merged : Program.execute ((answer setup process).restrict unlinkSucceeds)
      (merge setup casKeys) choices world = some (result, after)) :
    Merged setup casKeys world result after := by
  have assembled := leads_assemble.of_execute (fun _ _ => trivial) merged
  exact assembled.merged named noCollision

/-- The blob of one byte. -/
def oneBlob : World :=
  { World.empty with
    files := Table.set (sampleSetup.getCasPath (sampleSetup.sha256Hex (ascii "a"))) (ascii "a") ∅ }

/-- A merge of two blobs of one byte in which every call succeeds. -/
def mergeChoices : List Choice :=
  [.uuid sampleUuid, .done, .done, .count 1, .count 1, .count 0, .done, .count 1, .count 1,
    .count 0, .done, .done, .done]

theorem merge_concatenates_or_does_nothing_sample :
    ∃ result after, Program.execute ((answer sampleSetup 0).restrict unlinkSucceeds)
        (merge sampleSetup (List.replicate 2 (sampleSetup.sha256Hex (ascii "a")))) mergeChoices
        oneBlob = some (result, after) ∧
      Merged sampleSetup (List.replicate 2 (sampleSetup.sha256Hex (ascii "a"))) oneBlob result
        after := by
  have onlyBlob : ∀ path content, oneBlob.files.lookup path = some content →
      path = sampleSetup.getCasPath (sampleSetup.sha256Hex (ascii "a")) ∧ content = ascii "a" := by
    intro path content present
    by_cases isBlob : path = sampleSetup.getCasPath (sampleSetup.sha256Hex (ascii "a"))
    · rw [isBlob, oneBlob, Table.lookup_set_self] at present
      exact ⟨isBlob, (Option.some.inj present).symm⟩
    · rw [oneBlob, Table.lookup_set_ne _ _ isBlob] at present
      contradiction
  have named : HoldNamed sampleSetup oneBlob := by
    intro casKey content length present
    obtain ⟨samePath, rfl⟩ := onlyBlob _ _ present
    exact (sampleSetup.getCasPath_injective length (sampleSetup.length_sha256Hex _) samePath).symm
  have noCollision : NoMergeCollision sampleSetup
      (List.replicate 2 (sampleSetup.sha256Hex (ascii "a"))) oneBlob := by
    intro contents isContents path content present sameDigest
    obtain ⟨-, rfl⟩ := onlyBlob path content present
    cases isContents with
    | cons first others =>
        cases others with
        | cons second rest =>
            cases rest
            obtain ⟨-, rfl⟩ := onlyBlob _ _ first
            obtain ⟨-, rfl⟩ := onlyBlob _ _ second
            exact absurd sameDigest (by decide +kernel)
  have safe := fun result after => @merge_concatenates_or_does_nothing sampleSetup 0
    (List.replicate 2 (sampleSetup.sha256Hex (ascii "a"))) oneBlob after result
    mergeChoices named noCollision
  exact ⟨_, _, rfl, safe _ _ rfl⟩

end MiniS3.DataStore
