import MiniS3.Storage.FileCalls

/-!
# Committing an upload

A session is begun, data is written to it piece by piece, and it is committed.  Its temporary
file then holds what was written, and the digest was fed the same.  Committing it gives that file
the name of its blob, finds that the blob is there already, or fails; in each case no temporary
file is left, and no other file changes.
-/

namespace MiniS3

open Lib

/-- The files of blobs hold the contents that their keys name. -/
def HoldNamed (setup : Setup) (world : World) : Prop :=
  ∀ casKey content, casKey.length = 64 →
    world.files.lookup (setup.getCasPath casKey) = some content → setup.sha256Hex content = casKey

/-- No file has the digest of these bytes without holding them. -/
def NoCollision (setup : Setup) (data : Bytes) (world : World) : Prop :=
  ∀ path content, world.files.lookup path = some content →
    setup.sha256Hex content = setup.sha256Hex data → content = data

namespace DataStore

variable (setup : Setup)

/-- Write pieces to a session, until one fails. -/
def writePieces : List Bytes → WriteSession → ServerM (Result WriteSession)
  | [], session => pure (.ok session)
  | piece :: pieces, session => do
      match ← session.write piece with
      | .error status => return .error status
      | .ok session => writePieces pieces session

/-- Begin a session and write pieces to it. -/
def writeSession (pieces : List Bytes) : ServerM (Result WriteSession) := do
  match ← beginWrite setup with
  | .error status => return .error status
  | .ok session => writePieces pieces session

/-- The session has written these bytes: they are in its file, and its digest was fed them. -/
structure Wrote (session : WriteSession) (data : Bytes) (world : World) : Prop where
  temporary : ∃ uuid, session.tmpPath = setup.tmpPath (ascii "upload") uuid
  file : world.files.lookup session.tmpPath = some data
  hashed : session.hashed = data
  bytesWritten : session.bytesWritten = data.length

/-- What giving a complete temporary file the name of its blob leads to: the temporary file is
gone, and no other file has changed but that of the blob, which is there if it succeeded, as it was
if it was there before. -/
structure Placed (tmpPath casKey data : Bytes) (before : World) (result : Result Bytes)
    (after : World) : Prop where
  noTemporary : after.files.lookup tmpPath = none
  stored : ∀ returned, result = .ok returned → returned = casKey ∧
    ∀ path, path ≠ tmpPath → after.files.lookup path =
      if path = setup.getCasPath casKey then some ((before.files.lookup path).getD data)
      else before.files.lookup path
  failed : ∀ status, result = .error status → Elsewhere tmpPath before after

variable {setup} {process : Nat} {allowed : IoOp → Choice → Bool} {α : Type}
variable {post : α → World → Prop}

/-- Writing all of some data appends it to the file; a failure appends a part of it. -/
theorem leads_writeAll {path content : Bytes} {next : Except IoError Unit → ServerM α}
    {calls : Nat} {data : Bytes} {world : World} (enough : data.length ≤ calls)
    (present : world.files.lookup path = some content)
    (done : ∀ after, Elsewhere path world after →
      after.files.lookup path = some (content ++ data) →
      Leads setup process allowed post (next (.ok ())) after)
    (failed : ∀ text after, Elsewhere path world after →
      Leads setup process allowed post (next (.error text)) after) :
    Leads setup process allowed post (writeAll path calls data >>= next) world := by
  induction calls generalizing data content world with
  | zero =>
      obtain rfl : data = [] := List.length_eq_zero_iff.mp (Nat.le_zero.mp enough)
      exact done world (.refl path world) (by simpa using present)
  | succ calls inductionHypothesis =>
      cases data with
      | nil => exact done world (.refl path world) (by simpa using present)
      | cons byte data =>
          refine leads_write ?_ ?_
          · intro length some within
            have appended := world.elsewhere_appendFile path ((byte :: data).take length)
            refine inductionHypothesis (by rw [List.length_drop]; omega)
              (World.lookup_appendFile_self present _) ?_ ?_
            · intro after elsewhere written
              refine done after (appended.trans elsewhere) ?_
              rw [written, List.append_assoc, List.take_append_drop]
            · intro text after elsewhere
              exact failed text after (appended.trans elsewhere)
          · intro text
            exact failed text world (.refl path world)

/-- Each piece that is written is in the file and in the digest. -/
theorem leads_writePieces {pieces : List Bytes} {session : WriteSession} {data : Bytes}
    {world : World} (wrote : Wrote setup session data world) :
    Leads setup process allowed (fun result after => ∀ written, result = .ok written →
      Wrote setup written (data ++ pieces.flatten) after) (writePieces pieces session) world := by
  induction pieces generalizing session data world with
  | nil =>
      rintro written ⟨⟩
      simpa using wrote
  | cons piece pieces inductionHypothesis =>
      change Leads setup process allowed _ (WriteSession.write piece session >>= _) world
      unfold WriteSession.write
      rw [Program.bind_assoc]
      refine leads_writeAll (Nat.le_refl _) wrote.file ?_ ?_
      · intro after elsewhere file
        have next : Wrote setup { session with
            bytesWritten := session.bytesWritten + piece.length
            hashed := session.hashed ++ piece } (data ++ piece) after :=
          ⟨wrote.temporary, file, by rw [wrote.hashed], by
            rw [List.length_append, wrote.bytesWritten]⟩
        have rest := inductionHypothesis next
        rw [List.append_assoc] at rest
        rw [List.flatten_cons]
        exact rest
      · rintro text after elsewhere written ⟨⟩

theorem leads_writeSession (pieces : List Bytes) (world : World) :
    Leads setup process allowed (fun result after => ∀ session, result = .ok session →
      Wrote setup session pieces.flatten after) (writeSession setup pieces) world := by
  refine leads_generateUuid fun uuid _ => leads_openNew ?_ ?_
  · intro _ makers
    have fresh : Wrote setup ⟨setup.tmpPath (ascii "upload") uuid, 0, []⟩ []
        { world with files := world.files.set (setup.tmpPath (ascii "upload") uuid) [], makers } :=
      ⟨⟨uuid, rfl⟩, Table.lookup_set_self _ _ _, rfl, rfl⟩
    exact leads_writePieces fresh
  · rintro text session ⟨⟩

/-! ## Giving the file its name -/

/-- The exits of `place`: found, no directory, not renamed, and renamed. -/
theorem leads_place {tmpPath casKey data : Bytes} {world : World}
    (different : tmpPath ≠ setup.getCasPath casKey)
    (complete : world.files.lookup tmpPath = some data) :
    Leads setup process unlinkSucceeds (Placed setup tmpPath casKey data world)
      (place setup tmpPath casKey) world := by
  have removed : ∀ status, Placed setup tmpPath casKey data world (.error status)
      (world.dropFile tmpPath) := by
    intro status
    refine ⟨world.lookup_dropFile_self tmpPath, ?_, fun _ _ => world.elsewhere_dropFile tmpPath⟩
    rintro returned ⟨⟩
  refine leads_fileExists ?_
  cases present : world.files.lookup (setup.getCasPath casKey) with
  | some content =>
      refine leads_unlink ⟨world.lookup_dropFile_self tmpPath, ?_, ?_⟩
      · rintro returned ⟨⟩
        refine ⟨rfl, fun path other => ?_⟩
        rw [world.elsewhere_dropFile tmpPath path other]
        split
        · rename_i isFinal
          rw [isFinal, present]
          rfl
        · rfl
      · rintro status ⟨⟩
  | none =>
      refine leads_createDirectories ?_ fun text => leads_unlink (removed _)
      refine leads_atomicRename ?_ fun text _ => leads_unlink (removed _)
      intro content isContent
      rw [complete] at isContent
      obtain rfl := Option.some.inj isContent
      have moved : ∀ path, (world.moveFile tmpPath (setup.getCasPath casKey)).files.lookup path =
          _ := World.lookup_moveFile complete
      refine ⟨?_, ?_, ?_⟩
      · rw [moved, if_neg different, if_pos rfl]
      · rintro returned ⟨⟩
        refine ⟨rfl, fun path other => ?_⟩
        rw [moved, if_neg other]
        split
        · rename_i isFinal
          rw [isFinal, present]
          rfl
        · rfl
      · rintro status ⟨⟩

/-! ## Committing -/

/-- What a commit leads to. -/
structure Committed (setup : Setup) (session : WriteSession) (data expectedSha256 : Bytes)
    (before : World) (result : Result Bytes) (after : World) : Prop where
  noTemporary : after.files.lookup session.tmpPath = none
  stored : ∀ casKey, result = .ok casKey → casKey = setup.sha256Hex data ∧
    (expectedSha256 ≠ [] → casKey = expectedSha256) ∧
    after.files.lookup (setup.getCasPath casKey) = some data ∧
    (∀ content, before.files.lookup (setup.getCasPath casKey) = some content → content = data) ∧
    ∀ path, path ≠ session.tmpPath → path ≠ setup.getCasPath casKey →
      after.files.lookup path = before.files.lookup path
  failed : ∀ status, result = .error status → Elsewhere session.tmpPath before after

theorem leads_commitWrite {session : WriteSession} {data expectedSha256 : Bytes} {world : World}
    (wrote : Wrote setup session data world) (named : HoldNamed setup world)
    (noCollision : NoCollision setup data world) :
    Leads setup process unlinkSucceeds (Committed setup session data expectedSha256 world)
      (commitWrite setup session expectedSha256) world := by
  obtain ⟨uuid, temporary⟩ := wrote.temporary
  have different : session.tmpPath ≠ setup.getCasPath (setup.sha256Hex data) := by
    rw [temporary]
    exact (setup.getCasPath_ne_tmpPath _ _ _).symm
  have there : ∀ content,
      world.files.lookup (setup.getCasPath (setup.sha256Hex data)) = some content →
      content = data := fun content present =>
    noCollision _ content present (named _ content (setup.length_sha256Hex data) present)
  unfold commitWrite
  rw [wrote.hashed]
  dsimp only
  split
  · refine leads_unlink ⟨world.lookup_dropFile_self _, ?_, fun _ _ =>
      world.elsewhere_dropFile _⟩
    rintro casKey ⟨⟩
  · rename_i agrees
    refine (leads_place different wrote.file).mono fun result after placed => ?_
    refine ⟨placed.noTemporary, fun casKey isOk => ?_, placed.failed⟩
    obtain ⟨rfl, files⟩ := placed.stored casKey isOk
    refine ⟨rfl, fun expected => ?_, ?_, there, fun path other notFinal => ?_⟩
    · by_contra mismatch
      exact agrees ⟨by simpa using expected, mismatch⟩
    · rw [files _ different.symm, if_pos rfl]
      cases present : world.files.lookup (setup.getCasPath (setup.sha256Hex data)) with
      | none => rfl
      | some content => rw [there content present]; rfl
    · rw [files path other, if_neg notFinal]

/-- `CommitWrite` is atomic: the temporary file is gone, and either the blob of what was written is
there and no other file has changed, or no file has changed at all. -/
theorem commitWrite_is_atomic {setup : Setup} {process : Nat} {pieces : List Bytes}
    {session : WriteSession} {expectedSha256 : Bytes} {before written world after : World}
    {result : Result Bytes} {choices commits : List Choice}
    (began : Program.execute (answer setup process) (writeSession setup pieces) choices before =
      some (.ok session, written))
    (kept : world.files.lookup session.tmpPath = written.files.lookup session.tmpPath)
    (named : HoldNamed setup world) (noCollision : NoCollision setup pieces.flatten world)
    (committed : Program.execute ((answer setup process).restrict unlinkSucceeds)
      (commitWrite setup session expectedSha256) commits world = some (result, after)) :
    Committed setup session pieces.flatten expectedSha256 world result after := by
  have wrote : Wrote setup session pieces.flatten written := by
    have leads : Leads setup process anything _ (writeSession setup pieces) before :=
      leads_writeSession pieces before
    rw [Leads, restrict_anything] at leads
    exact leads.of_execute (fun _ _ => trivial) began session rfl
  have holds : Wrote setup session pieces.flatten world :=
    ⟨wrote.temporary, kept.trans wrote.file, wrote.hashed, wrote.bytesWritten⟩
  exact (leads_commitWrite holds named noCollision).of_execute (fun _ _ => trivial) committed

/-- A UUID. -/
def sampleUuid : Bytes :=
  ascii "00000000-0000-4000-8000-000000000000"

/-- A configuration with the digests of the texts below. -/
def sampleSetup : Setup :=
  Setup.sample
    [(ascii "a", "ca978112ca1bbdcafac231b39a23dc4da786eff8147c4e72b9807785afee48bb"),
      (ascii "aa", "961b6dd3ede3cb8ecbaacbd68de040cd78eb2ed5889130cceb4c49268ea4d506"),
      (ascii "aaa", "9834876dcfb05cb167a5c24953eba58c4ac89b1adf57f28f2f9d09af107ee8f0"),
      (ascii "ab", "fb8e20fc2e4c3f248c60c39bd652f3c1347298bb977b8b4d5903b85055620603"),
      (ascii "b", "3e23e8160039594a33894f6564e1b1348bbd7a0088d42c4acb73eeaed59c009d")] []

/-- The temporary file of an upload. -/
def samplePath : Bytes :=
  sampleSetup.tmpPath (ascii "upload") sampleUuid

/-- A world in which two bytes were written to that file. -/
def sampleWorld : World :=
  { World.empty with
    files := Table.set samplePath (ascii "ab") ∅
    makers := Table.set samplePath 0 ∅ }

theorem commitWrite_is_atomic_sample :
    ∃ result after, Program.execute ((answer sampleSetup 0).restrict unlinkSucceeds)
        (commitWrite sampleSetup ⟨samplePath, 2, ascii "ab"⟩ []) [.done, .done, .done]
        sampleWorld = some (result, after) ∧
      Committed sampleSetup ⟨samplePath, 2, ascii "ab"⟩ (ascii "ab") [] sampleWorld result
        after := by
  have onlyFile : ∀ path content, sampleWorld.files.lookup path = some content →
      path = samplePath ∧ content = ascii "ab" := by
    intro path content present
    by_cases isSample : path = samplePath
    · rw [isSample, sampleWorld, Table.lookup_set_self] at present
      exact ⟨isSample, (Option.some.inj present).symm⟩
    · rw [sampleWorld, Table.lookup_set_ne _ _ isSample] at present
      contradiction
  have safe : ∀ result after, Program.execute
      ((answer sampleSetup 0).restrict unlinkSucceeds)
      (commitWrite sampleSetup ⟨samplePath, 2, ascii "ab"⟩ []) [.done, .done, .done]
      sampleWorld = some (result, after) →
      Committed sampleSetup ⟨samplePath, 2, ascii "ab"⟩ (ascii "ab") [] sampleWorld result
        after := by
    intro result after committed
    refine @commitWrite_is_atomic _ 0 [ascii "a", ascii "b"] _ _ World.empty sampleWorld sampleWorld
      after result [.uuid sampleUuid, .done, .count 1, .count 1] _ rfl rfl ?_ ?_ committed
    · intro casKey content _ present
      exact absurd (onlyFile _ _ present).1 (Setup.getCasPath_ne_tmpPath _ _ _ _)
    · intro path content present _
      exact (onlyFile path content present).2
  exact ⟨_, _, rfl, safe _ _ rfl⟩

end DataStore

end MiniS3
