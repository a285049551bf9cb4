import MiniS3.Lib.Protocol
import MiniS3.Storage.Commit
import MiniS3.Storage.Gc

/-!
# The blob store under interleaving

Any number of writes, streamed uploads, merges, deletions and batches of the collector run beside
each other, one call at a time, and each call can fail.  A process writes only to a temporary file
of its own, and a blob gets its name only by a rename of a complete file.  So a blob that can be
seen under its name has the content that the name tells.

A session is dropped when a write to it fails, as its destructor does it.
-/

namespace MiniS3.DataStore

open Lib Lib.Interleaving Lib.Transition Db

/-! ## The tasks -/

/-- What is asked of the blob store. -/
inductive StoreTask
  | write (data : Bytes)
  /-- A session that is written piece by piece, and committed unless it is given up. -/
  | upload (pieces : List Bytes) (expectedSha256 : Option Bytes)
  | merge (casKeys : List Bytes)
  | delete (casKey : Bytes)
  /-- `GarbageCollector::AddPendingDelete`. -/
  | report (casKey : Bytes)
  /-- `GarbageCollector::ProcessBatch`. -/
  | collect

section

variable (setup : Setup)

/-- A session from its beginning to its end. -/
def upload (pieces : List Bytes) (expectedSha256 : Option Bytes) : ServerM Unit := do
  match ← beginWrite setup with
  | .error _ => pure ()
  | .ok begun =>
      match ← writePieces pieces begun with
      | .error _ =>
          let _ ← perform (.removeFile begun.tmpPath)
          pure ()
      | .ok session =>
          match expectedSha256 with
          | none =>
              let _ ← perform (.removeFile session.tmpPath)
              pure ()
          | some expectedSha256 =>
              let _ ← commitWrite setup session expectedSha256
              pure ()

/-- The code of a task. -/
def StoreTask.code : StoreTask → ServerM Unit
  | .write data => do
      let _ ← DataStore.write setup data
      pure ()
  | .upload pieces expectedSha256 => DataStore.upload setup pieces expectedSha256
  | .merge casKeys => do
      let _ ← DataStore.merge setup casKeys
      pure ()
  | .delete casKey => do
      let _ ← DataStore.delete setup casKey
      pure ()
  | .report casKey => perform (.addPendingDelete casKey)
  | .collect => GarbageCollector.processBatch setup

/-! ## What a process has -/

/-- A temporary file, with what has been written to it. -/
structure TmpFile where
  path : Bytes
  content : Bytes

/-- A call that changes no file. -/
def LeavesFiles : IoOp → Bool
  | .atomicRename _ _ | .removeFile _ | .openNew _ | .write _ _ => false
  | _ => true

/-- The calls that a process makes, by the temporary file it has. -/
inductive MayCall : Option TmpFile → IoOp → Prop
  | openNew (directory uuid : Bytes) : MayCall none (.openNew (setup.tmpPath directory uuid))
  | write (file : TmpFile) (data : Bytes) : MayCall (some file) (.write file.path data)
  /-- A complete file gets the name of its blob. -/
  | place (file : TmpFile) : MayCall (some file)
      (.atomicRename file.path (setup.getCasPath (setup.sha256Hex file.content)))
  | discard (file : TmpFile) : MayCall (some file) (.removeFile file.path)
  | setAside (held : Option TmpFile) (casKey : Bytes) {uuid : Bytes} : isUuid uuid = true →
      MayCall held (.atomicRename (setup.getCasPath casKey) (setup.quarantinePath casKey uuid))
  | restore (held : Option TmpFile) (casKey : Bytes) {uuid : Bytes} : isUuid uuid = true →
      MayCall held (.atomicRename (setup.quarantinePath casKey uuid) (setup.getCasPath casKey))
  | reclaim (held : Option TmpFile) (casKey : Bytes) {uuid : Bytes} : isUuid uuid = true →
      MayCall held (.removeFile (setup.quarantinePath casKey uuid))
  | delete (held : Option TmpFile) (casKey : Bytes) :
      MayCall held (.removeFile (setup.getCasPath casKey))
  | other (held : Option TmpFile) {op : IoOp} : LeavesFiles op = true → MayCall held op

/-- The answers to calls; `tidy` says that files can be removed. -/
def CanAnswer (tidy : Prop) : (op : IoOp) → op.Ans → Prop
  | .generateUuid, uuid => isUuid uuid = true
  | .write _ data, .ok length => 1 ≤ length ∧ length ≤ data.length
  | .removeFile _, .error _ => ¬tidy
  | _, _ => True

/-- The temporary file that a process has after a call. -/
def fileAfter : Option TmpFile → (op : IoOp) → op.Ans → Option TmpFile
  | _, .openNew path, .ok () => some ⟨path, []⟩
  | some file, .write _ data, .ok length => some ⟨file.path, file.content ++ data.take length⟩
  | some file, .atomicRename source _, .ok () => if source = file.path then none else some file
  | some file, .removeFile path, .ok () => if path = file.path then none else some file
  | held, _, _ => held

/-- What the processes of the blob store do with files. -/
def fileProtocol (tidy : Prop) : Protocol ioSig (Option TmpFile) where
  may := MayCall setup
  can := CanAnswer tidy
  after := fileAfter

end

/-! ## The tasks follow the protocol -/

section Tasks

variable {setup : Setup} {tidy : Prop} {α : Type}

/-- A process may be left without a temporary file, or with one that could not be removed. -/
def Released (tidy : Prop) (held : Option TmpFile) : Prop :=
  tidy → held = none

theorem follows_other {op : IoOp} {next : op.Ans → ServerM α} {held : Option TmpFile}
    {ends : α → Option TmpFile → Prop} (leaves : LeavesFiles op = true)
    (continues : ∀ answer, CanAnswer tidy op answer →
      (fileProtocol setup tidy).Follows ends (next answer) held) :
    (fileProtocol setup tidy).Follows ends (.call op next) held := by
  refine ⟨.other held leaves, fun answer can => ?_⟩
  have same : fileAfter held op answer = held := by
    cases op <;> first | contradiction | (cases held <;> rfl)
  change (fileProtocol setup tidy).Follows ends _ (fileAfter held op answer)
  rw [same]
  exact continues answer can

/-- Removing the temporary file, whether it succeeds or not. -/
theorem follows_discard {next : Except IoError Unit → ServerM α} {path content : Bytes}
    {ends : α → Option TmpFile → Prop}
    (continues : ∀ answer held, Released tidy held →
      (fileProtocol setup tidy).Follows ends (next answer) held) :
    (fileProtocol setup tidy).Follows ends (.call (.removeFile path) next)
      (some ⟨path, content⟩) := by
  refine ⟨.discard ⟨path, content⟩, fun answer can => continues answer _ ?_⟩
  intro isTidy
  cases answer with
  | error text => exact absurd isTidy can
  | ok => exact if_pos rfl

/-- Writing all of some data appends it to the file. -/
theorem follows_writeAll {calls : Nat} {data path : Bytes} (enough : data.length ≤ calls)
    (content : Bytes) :
    (fileProtocol setup tidy).Follows
      (fun result held => ∃ whole, held = some ⟨path, whole⟩ ∧
        (result = .ok () → whole = content ++ data))
      (writeAll path calls data) (some ⟨path, content⟩) := by
  induction calls generalizing data content with
  | zero =>
      obtain rfl : data = [] := List.length_eq_zero_iff.mp (Nat.le_zero.mp enough)
      exact ⟨content, rfl, fun _ => by simp⟩
  | succ calls inductionHypothesis =>
      cases data with
      | nil => exact ⟨content, rfl, fun _ => by simp⟩
      | cons byte data =>
          refine ⟨.write ⟨path, content⟩ _, fun answer can => ?_⟩
          cases answer with
          | error text => exact ⟨content, rfl, nofun⟩
          | ok length =>
              have fewer : ((byte :: data).drop length).length ≤ calls := by
                have some : 1 ≤ length := can.1
                rw [List.length_drop]
                omega
              refine Protocol.Follows.mono
                (inductionHypothesis fewer (content ++ (byte :: data).take length)) ?_
              rintro result held ⟨whole, isHeld, isWhole⟩
              refine ⟨whole, isHeld, fun done => ?_⟩
              rw [isWhole done, List.append_assoc, List.take_append_drop]

/-- What writing to a session comes to: everything is in its file and was fed to its digest, or the
file holds whatever was written before the failure. -/
def Written (tmpPath : Bytes) : Result WriteSession → Option TmpFile → Prop
  | .ok session, held => session.tmpPath = tmpPath ∧ held = some ⟨tmpPath, session.hashed⟩
  | .error _, held => ∃ content, held = some ⟨tmpPath, content⟩

theorem follows_sessionWrite (data : Bytes) (session : WriteSession) :
    (fileProtocol setup tidy).Follows (Written session.tmpPath) (session.write data)
      (some ⟨session.tmpPath, session.hashed⟩) := by
  refine Protocol.Follows.bind (follows_writeAll (le_refl _) session.hashed) ?_
  rintro result held ⟨content, rfl, whole⟩
  cases result with
  | error text => exact ⟨content, rfl⟩
  | ok =>
      rw [whole rfl]
      exact ⟨rfl, rfl⟩

theorem follows_writePieces (pieces : List Bytes) (session : WriteSession) :
    (fileProtocol setup tidy).Follows (Written session.tmpPath) (writePieces pieces session)
      (some ⟨session.tmpPath, session.hashed⟩) := by
  induction pieces generalizing session with
  | nil => exact ⟨rfl, rfl⟩
  | cons piece pieces inductionHypothesis =>
      refine Protocol.Follows.bind (follows_sessionWrite piece session) ?_
      intro result held written
      cases result with
      | error status => exact written
      | ok after =>
          obtain ⟨sameFile, rfl⟩ := written
          have rest := inductionHypothesis after
          rw [sameFile] at rest
          exact rest

/-- A session that is begun has an empty file. -/
theorem follows_beginWrite :
    (fileProtocol setup tidy).Follows
      (fun result held => match result with
        | .ok session => held = some ⟨session.tmpPath, session.hashed⟩
        | .error _ => held = none)
      (beginWrite setup) none := by
  refine follows_other rfl fun uuid _ => ⟨.openNew _ uuid, fun answer _ => ?_⟩
  cases answer with
  | error text => rfl
  | ok => rfl

/-- A complete file gets the name of its blob, or is removed. -/
theorem follows_place (path content : Bytes) :
    (fileProtocol setup tidy).Follows (fun _ => Released tidy)
      (place setup path (setup.sha256Hex content)) (some ⟨path, content⟩) := by
  refine follows_other rfl fun present _ => ?_
  cases present with
  | true => exact follows_discard fun _ _ released => released
  | false =>
      refine follows_other rfl fun created _ => ?_
      cases created with
      | error text => exact follows_discard fun _ _ released => released
      | ok =>
          refine ⟨.place ⟨path, content⟩, fun renamed _ => ?_⟩
          cases renamed with
          | error text => exact follows_discard fun _ _ released => released
          | ok => exact fun _ => if_pos rfl

theorem follows_commitWrite (session : WriteSession) (expectedSha256 : Bytes) :
    (fileProtocol setup tidy).Follows (fun _ => Released tidy)
      (commitWrite setup session expectedSha256) (some ⟨session.tmpPath, session.hashed⟩) := by
  unfold commitWrite
  dsimp only
  split
  · exact follows_discard fun _ _ released => released
  · exact follows_place session.tmpPath session.hashed

theorem follows_write (data : Bytes) :
    (fileProtocol setup tidy).Follows (fun _ => Released tidy) (DataStore.write setup data)
      none := by
  refine Protocol.Follows.bind follows_beginWrite ?_
  rintro result held begun
  cases result with
  | error status => exact fun _ => begun
  | ok session =>
      obtain rfl := begun
      refine Protocol.Follows.bind (follows_sessionWrite data session) ?_
      intro result held written
      cases result with
      | error status =>
          obtain ⟨content, rfl⟩ := written
          exact follows_discard fun _ _ released => released
      | ok after =>
          obtain ⟨sameFile, rfl⟩ := written
          rw [← sameFile]
          exact follows_commitWrite after []

theorem follows_upload (pieces : List Bytes) (expectedSha256 : Option Bytes) :
    (fileProtocol setup tidy).Follows (fun _ => Released tidy)
      (upload setup pieces expectedSha256) none := by
  refine Protocol.Follows.bind follows_beginWrite ?_
  rintro result held begun
  cases result with
  | error status => exact fun _ => begun
  | ok session =>
      obtain rfl := begun
      refine Protocol.Follows.bind (follows_writePieces pieces session) ?_
      intro result held written
      cases result with
      | error status =>
          obtain ⟨content, rfl⟩ := written
          exact follows_discard fun _ _ released => released
      | ok after =>
          obtain ⟨sameFile, rfl⟩ := written
          rw [← sameFile]
          cases expectedSha256 with
          | none =>
              exact follows_discard fun _ _ released => released
          | some expectedSha256 =>
              refine Protocol.Follows.bind (follows_commitWrite after expectedSha256) ?_
              exact fun _ _ released => released

/-- What is copied to the merge file is what its digest was fed. -/
def Copied (tidy : Prop) (path : Bytes) : Result Bytes → Option TmpFile → Prop
  | .ok hashed, held => held = some ⟨path, hashed⟩
  | .error _, held => Released tidy held

theorem follows_copyRest {path : Bytes} (calls : Nat) (rest hashed : Bytes) :
    (fileProtocol setup tidy).Follows (Copied tidy path) (copyRest path calls rest hashed)
      (some ⟨path, hashed⟩) := by
  induction calls generalizing rest hashed with
  | zero => exact rfl
  | succ calls inductionHypothesis =>
      refine follows_other rfl fun answer _ => ?_
      match answer with
      | .error text =>
          exact follows_discard fun _ _ released => released
      | .ok 0 => exact rfl
      | .ok (length + 1) =>
          change (fileProtocol setup tidy).Follows _ (writeAll path _ _ >>= _) _
          refine Protocol.Follows.bind (follows_writeAll (le_refl _) hashed) ?_
          rintro result held ⟨content, rfl, whole⟩
          cases result with
          | error text =>
              exact follows_discard fun _ _ released => released
          | ok =>
              rw [whole rfl]
              exact inductionHypothesis _ _

theorem follows_copyAll {path : Bytes} (casKeys : List Bytes) (hashed : Bytes) :
    (fileProtocol setup tidy).Follows (Copied tidy path) (copyAll setup path casKeys hashed)
      (some ⟨path, hashed⟩) := by
  induction casKeys generalizing hashed with
  | nil => exact rfl
  | cons casKey casKeys inductionHypothesis =>
      refine follows_other rfl fun opened _ => ?_
      cases opened with
      | none => exact follows_discard fun _ _ released => released
      | some content =>
          change (fileProtocol setup tidy).Follows _ (copyRest path _ content hashed >>= _) _
          refine Protocol.Follows.bind (follows_copyRest _ content hashed) ?_
          intro result held copied
          cases result with
          | error status => exact copied
          | ok hashed =>
              obtain rfl := copied
              exact inductionHypothesis hashed

theorem follows_merge (casKeys : List Bytes) :
    (fileProtocol setup tidy).Follows (fun _ => Released tidy) (merge setup casKeys) none := by
  unfold merge
  split
  · exact fun _ => rfl
  · refine follows_other rfl fun uuid _ => ⟨.openNew _ uuid, fun answer _ => ?_⟩
    cases answer with
    | error text => exact fun _ => rfl
    | ok =>
        change (fileProtocol setup tidy).Follows _ (copyAll setup _ casKeys [] >>= _) _
        refine Protocol.Follows.bind (follows_copyAll casKeys []) ?_
        intro result held copied
        cases result with
        | error status => exact copied
        | ok hashed =>
            obtain rfl := copied
            exact follows_place _ hashed

/-! ### The collector -/

theorem follows_deleteCallback {casKey : Bytes} {success : Bool} {rest : ServerM Unit}
    (continues : (fileProtocol setup tidy).Follows (fun _ => Released tidy) rest none) :
    (fileProtocol setup tidy).Follows (fun _ => Released tidy)
      (GarbageCollector.deleteCallback casKey success rest) none := by
  cases success with
  | false => exact continues
  | true =>
      refine follows_other rfl fun free _ => ?_
      match free with
      | .ok true => exact follows_other rfl fun _ _ => continues
      | .ok false => exact continues
      | .error status => exact continues

theorem follows_recheck {casKey uuid : Bytes} (valid : isUuid uuid = true) {renamed : Bool}
    {rest : ServerM Unit}
    (continues : (fileProtocol setup tidy).Follows (fun _ => Released tidy) rest none) :
    (fileProtocol setup tidy).Follows (fun _ => Released tidy)
      (GarbageCollector.recheck setup casKey uuid renamed rest) none := by
  have restored : (fileProtocol setup tidy).Follows (fun _ => Released tidy)
      (if renamed = true then
        perform (.atomicRename (setup.quarantinePath casKey uuid) (setup.getCasPath casKey)) >>=
          fun _ => rest
      else rest) none := by
    cases renamed with
    | false => exact continues
    | true => exact ⟨.restore none casKey valid, fun _ _ => continues⟩
  refine follows_other rfl fun free _ => ?_
  match free with
  | .ok true =>
      cases renamed with
      | false => exact @follows_deleteCallback setup tidy casKey true rest continues
      | true => exact ⟨.reclaim none casKey valid, fun _ _ => follows_deleteCallback continues⟩
  | .ok false => exact restored
  | .error status => exact restored

theorem follows_processKeys (casKeys : List Bytes) :
    (fileProtocol setup tidy).Follows (fun _ => Released tidy)
      (GarbageCollector.processKeys setup casKeys) none := by
  induction casKeys with
  | nil => exact fun _ => rfl
  | cons casKey casKeys inductionHypothesis =>
      refine follows_other rfl fun free _ => ?_
      match free with
      | .ok false => exact inductionHypothesis
      | .error status => exact inductionHypothesis
      | .ok true =>
          refine follows_other rfl fun uuid valid => follows_other rfl fun present _ => ?_
          cases present with
          | false => exact follows_recheck valid inductionHypothesis
          | true =>
              refine ⟨.setAside none casKey valid, fun renamed _ => ?_⟩
              cases renamed with
              | error text => exact inductionHypothesis
              | ok => exact follows_recheck valid inductionHypothesis

/-- Every task follows the protocol, and has no temporary file when it begins. -/
theorem follows_code (task : StoreTask) :
    (fileProtocol setup tidy).Follows (fun _ => Released tidy) (task.code setup) none := by
  cases task with
  | write data => exact Protocol.Follows.bind (follows_write data) fun _ _ released => released
  | upload pieces expectedSha256 => exact follows_upload pieces expectedSha256
  | merge casKeys =>
      exact Protocol.Follows.bind (follows_merge casKeys) fun _ _ released => released
  | delete casKey => exact ⟨.delete none casKey, fun _ _ _ => rfl⟩
  | report casKey => exact follows_other rfl fun _ _ _ => rfl
  | collect => exact follows_other rfl fun batch _ => follows_processKeys batch

end Tasks

/-! ## What the calls do -/

section World

variable {setup : Setup} {process : Nat} {tidy : Prop} {world after : World}

/-- The path is one of a blob, in its place or set aside. -/
def IsNameOf (setup : Setup) (casKey path : Bytes) : Prop :=
  path = setup.getCasPath casKey ∨
    ∃ uuid, isUuid uuid = true ∧ path = setup.quarantinePath casKey uuid

/-- A file of this content may have this name. -/
def NamedBy (setup : Setup) (path content : Bytes) : Prop :=
  ∀ casKey, casKey.length = 64 → IsNameOf setup casKey path → setup.sha256Hex content = casKey

/-- Blobs have the contents that their names tell, also when they are set aside, and temporary
files have been made by some process. -/
structure Intact (setup : Setup) (tidy : Prop) (world : World) : Prop where
  blobs : ∀ path content, world.files.lookup path = some content → NamedBy setup path content
  made : ∀ path maker, world.makers.lookup path = some maker →
    (∃ directory uuid, path = setup.tmpPath directory uuid) ∧
      (world.files.lookup path).isSome = true
  tidy : tidy → ∀ directory uuid,
    (world.files.lookup (setup.tmpPath directory uuid)).isSome = true →
    (world.makers.lookup (setup.tmpPath directory uuid)).isSome = true

/-- The temporary file that a process has is in the world as the process knows it; and if files can
be removed, it has no other. -/
structure Has (tidy : Prop) (process : Nat) (world : World) (held : Option TmpFile) : Prop where
  file : ∀ file, held = some file → world.makers.lookup file.path = some process ∧
    world.files.lookup file.path = some file.content
  only : tidy → ∀ path, world.makers.lookup path = some process →
    ∃ file, held = some file ∧ file.path = path

/-- What a process does leaves the files alone that other processes made. -/
structure Apart (process : Nat) (before after : World) : Prop where
  makers : ∀ path other, other ≠ process →
    (after.makers.lookup path = some other ↔ before.makers.lookup path = some other)
  files : ∀ path other, other ≠ process → before.makers.lookup path = some other →
    after.files.lookup path = before.files.lookup path

theorem Has.apart {other : Nat} {held : Option TmpFile} (has : Has tidy other world held)
    (different : other ≠ process) (apart : Apart process world after) :
    Has tidy other after held := by
  constructor
  · intro file isHeld
    obtain ⟨made, content⟩ := has.file file isHeld
    exact ⟨(apart.makers _ _ different).mpr made,
      (apart.files _ _ different made).trans content⟩
  · intro isTidy path made
    exact has.only isTidy path ((apart.makers _ _ different).mp made)

/-- The outcome of a call. -/
structure Kept (setup : Setup) (tidy : Prop) (process : Nat) (held : Option TmpFile)
    (before after : World) : Prop where
  intact : Intact setup tidy after
  has : Has tidy process after held
  apart : Apart process before after

theorem Kept.refl {held : Option TmpFile} (intact : Intact setup tidy world)
    (has : Has tidy process world held) : Kept setup tidy process held world world :=
  ⟨intact, has, fun _ _ _ => Iff.rfl, fun _ _ _ _ => rfl⟩

/-! ### Names -/

theorem IsNameOf.ne_tmpPath {casKey path : Bytes} (isName : IsNameOf setup casKey path)
    (directory uuid : Bytes) : path ≠ setup.tmpPath directory uuid := by
  rcases isName with rfl | ⟨other, valid, rfl⟩
  · exact setup.getCasPath_ne_tmpPath casKey directory uuid
  · exact setup.quarantinePath_ne_tmpPath valid

/-- A temporary file may hold anything. -/
theorem namedBy_tmpPath (directory uuid content : Bytes) :
    NamedBy setup (setup.tmpPath directory uuid) content :=
  fun _ _ isName => absurd rfl (isName.ne_tmpPath directory uuid)

theorem namedBy_place (content : Bytes) :
    NamedBy setup (setup.getCasPath (setup.sha256Hex content)) content := by
  rintro casKey length (same | ⟨uuid, valid, same⟩)
  · exact setup.getCasPath_injective (setup.length_sha256Hex content) length same
  · exact absurd same.symm (setup.quarantinePath_ne_getCasPath valid)

/-- A blob that is set aside keeps its name. -/
theorem NamedBy.setAside {casKey uuid content : Bytes} (valid : isUuid uuid = true)
    (named : NamedBy setup (setup.getCasPath casKey) content) :
    NamedBy setup (setup.quarantinePath casKey uuid) content := by
  rintro other length (same | ⟨otherUuid, otherValid, same⟩)
  · exact absurd same (setup.quarantinePath_ne_getCasPath valid)
  · refine named other length (.inl ?_)
    have lengths : (ascii ".gc." ++ uuid).length = (ascii ".gc." ++ otherUuid).length := by
      simp only [isUuid, Bool.and_eq_true, beq_iff_eq] at valid otherValid
      rw [List.length_append, List.length_append, valid.1, otherValid.1]
    simp only [Setup.quarantinePath, List.append_assoc] at same
    exact List.append_inj_left' same lengths

theorem NamedBy.restore {casKey uuid content : Bytes} (valid : isUuid uuid = true)
    (named : NamedBy setup (setup.quarantinePath casKey uuid) content) :
    NamedBy setup (setup.getCasPath casKey) content := by
  rintro other length (same | ⟨otherUuid, otherValid, same⟩)
  · refine named other length (.inr ⟨uuid, valid, ?_⟩)
    rw [Setup.quarantinePath, same, Setup.quarantinePath]
  · exact absurd same.symm (setup.quarantinePath_ne_getCasPath otherValid)

/-- Nobody has made the file of a blob. -/
theorem Intact.unmade (intact : Intact setup tidy world) {casKey path : Bytes}
    (isName : IsNameOf setup casKey path) : world.makers.lookup path = none := by
  rw [Option.eq_none_iff_forall_ne_some]
  intro maker isMaker
  obtain ⟨⟨directory, uuid, isTmp⟩, -⟩ := intact.made path maker isMaker
  exact isName.ne_tmpPath directory uuid isTmp

/-! ### Calls on files -/

theorem lookup_erase {κ ν : Type} [DecidableEq κ] (key other : κ) (table : Table κ ν) :
    (table.erase key).lookup other = if other = key then none else table.lookup other := by
  split
  · rename_i same
    rw [same, Table.lookup_erase_self]
  · rename_i different
    rw [Table.lookup_erase_ne _ different]

theorem lookup_makers_moveFile {source target content : Bytes}
    (present : world.files.lookup source = some content) (path : Bytes) :
    (world.moveFile source target).makers.lookup path =
      if path = source then none else world.makers.lookup path := by
  simp only [World.moveFile, present]
  exact lookup_erase source path world.makers

section Calls

variable {held : Option TmpFile}

/-- A call that touches no temporary file. -/
theorem Kept.of_same (intact : Intact setup tidy world) (has : Has tidy process world held)
    (makers : ∀ path, after.makers.lookup path = world.makers.lookup path)
    (temporary : ∀ directory uuid, after.files.lookup (setup.tmpPath directory uuid) =
      world.files.lookup (setup.tmpPath directory uuid))
    (blobs : ∀ path content, after.files.lookup path = some content →
      NamedBy setup path content) : Kept setup tidy process held world after := by
  have files : ∀ path maker, world.makers.lookup path = some maker →
      after.files.lookup path = world.files.lookup path := by
    intro path maker isMaker
    obtain ⟨⟨directory, uuid, rfl⟩, -⟩ := intact.made path maker isMaker
    exact temporary directory uuid
  refine ⟨⟨blobs, ?_, ?_⟩, ⟨?_, ?_⟩, ⟨fun path _ _ => by rw [makers], fun path other _ => ?_⟩⟩
  · intro path maker isMaker
    rw [makers] at isMaker
    rw [files path maker isMaker]
    exact intact.made path maker isMaker
  · intro isTidy directory uuid
    rw [temporary, makers]
    exact intact.tidy isTidy directory uuid
  · intro file isHeld
    obtain ⟨made, content⟩ := has.file file isHeld
    rw [makers, files _ _ made]
    exact ⟨made, content⟩
  · intro isTidy path
    rw [makers]
    exact has.only isTidy path
  · exact files path other

/-- A call on the temporary file of the process, which is there afterwards with this content, or
is there no more. -/
theorem Kept.of_own {path : Bytes} {now : Option Bytes} (intact : Intact setup tidy world)
    (has : Has tidy process world held) (isTmp : ∃ directory uuid, path = setup.tmpPath directory uuid)
    (noOther : ∀ file, held = some file → file.path = path)
    (own : ∀ maker, world.makers.lookup path = some maker → maker = process)
    (makers : ∀ other, after.makers.lookup other =
      if other = path then now.map fun _ => process else world.makers.lookup other)
    (itself : after.files.lookup path = now)
    (temporary : ∀ directory uuid, setup.tmpPath directory uuid ≠ path →
      after.files.lookup (setup.tmpPath directory uuid) =
        world.files.lookup (setup.tmpPath directory uuid))
    (blobs : ∀ path content, after.files.lookup path = some content →
      NamedBy setup path content) :
    Kept setup tidy process (now.map (TmpFile.mk path)) world after := by
  have files : ∀ other maker, other ≠ path → world.makers.lookup other = some maker →
      after.files.lookup other = world.files.lookup other := by
    intro other maker different isMaker
    obtain ⟨⟨directory, uuid, rfl⟩, -⟩ := intact.made other maker isMaker
    exact temporary directory uuid different
  refine ⟨⟨blobs, ?_, ?_⟩, ⟨?_, ?_⟩, ⟨?_, ?_⟩⟩
  · intro other maker isMaker
    rw [makers] at isMaker
    split_ifs at isMaker with same
    · rw [same, itself]
      rw [Option.map_eq_some_iff] at isMaker
      obtain ⟨content, isNow, -⟩ := isMaker
      exact ⟨isTmp, by rw [isNow]; rfl⟩
    · rw [files other maker same isMaker]
      exact intact.made other maker isMaker
  · intro isTidy directory uuid present
    rw [makers]
    split_ifs with same
    · rw [same, itself] at present
      rw [Option.isSome_map]
      exact present
    · rw [temporary directory uuid same] at present
      exact intact.tidy isTidy directory uuid present
  · intro file isHeld
    obtain ⟨content, isNow, rfl⟩ := Option.map_eq_some_iff.mp isHeld
    rw [makers, if_pos rfl, itself, isNow]
    exact ⟨rfl, rfl⟩
  · intro isTidy other made
    rw [makers] at made
    split_ifs at made with same
    · obtain ⟨content, isNow, -⟩ := Option.map_eq_some_iff.mp made
      exact ⟨⟨path, content⟩, by rw [isNow]; rfl, same.symm⟩
    · obtain ⟨file, isHeld, isPath⟩ := has.only isTidy other made
      exact absurd (isPath.symm.trans (noOther file isHeld)) same
  · intro other maker different
    rw [makers]
    split_ifs with same
    · rw [same]
      constructor
      · intro made
        obtain ⟨content, -, isProcess⟩ := Option.map_eq_some_iff.mp made
        exact absurd isProcess.symm different
      · intro made
        exact absurd (own maker made) different
    · exact Iff.rfl
  · intro other maker different made
    refine files other maker ?_ made
    rintro rfl
    exact different (own maker made)

/-- A blob is set aside, or put back. -/
theorem kept_moveBlob {source target content casKey other : Bytes}
    (intact : Intact setup tidy world) (has : Has tidy process world held)
    (sourceName : IsNameOf setup casKey source) (targetName : IsNameOf setup other target)
    (present : world.files.lookup source = some content)
    (named : NamedBy setup target content) :
    Kept setup tidy process held world (world.moveFile source target) := by
  refine .of_same intact has (fun path => ?_) (fun directory uuid => ?_) fun path moved found => ?_
  · rw [lookup_makers_moveFile present]
    split_ifs with same
    · rw [same, intact.unmade sourceName]
    · rfl
  · rw [World.lookup_moveFile present, if_neg (targetName.ne_tmpPath _ _).symm,
      if_neg (sourceName.ne_tmpPath _ _).symm]
  · rw [World.lookup_moveFile present] at found
    split_ifs at found with isTarget isSource
    · cases found
      rw [isTarget]
      exact named
    · exact intact.blobs path moved found

theorem kept_dropBlob {path casKey : Bytes} (intact : Intact setup tidy world)
    (has : Has tidy process world held) (isName : IsNameOf setup casKey path) :
    Kept setup tidy process held world (world.dropFile path) := by
  refine .of_same intact has (fun other => ?_) (fun directory uuid => ?_) fun other content found => ?_
  · rw [World.dropFile, lookup_erase]
    split_ifs with same
    · rw [same, intact.unmade isName]
    · rfl
  · rw [World.dropFile, lookup_erase, if_neg (isName.ne_tmpPath _ _).symm]
  · rw [World.dropFile, lookup_erase] at found
    split_ifs at found
    exact intact.blobs other content found

theorem kept_openNew {directory uuid : Bytes} (intact : Intact setup tidy world)
    (has : Has tidy process world none)
    (absent : world.files.lookup (setup.tmpPath directory uuid) = none) :
    Kept setup tidy process (some ⟨setup.tmpPath directory uuid, []⟩) world
      { world with
        files := world.files.set (setup.tmpPath directory uuid) []
        makers := world.makers.set (setup.tmpPath directory uuid) process } := by
  refine @Kept.of_own setup process tidy world _ none (setup.tmpPath directory uuid) (some []) intact
    has ⟨directory, uuid, rfl⟩ nofun (fun maker isMaker => ?_) (fun other => ?_) ?_
    (fun _ _ different => ?_) fun path content found => ?_
  · have present := (intact.made _ maker isMaker).2
    rw [absent] at present
    cases present
  · exact Table.lookup_set _ _ _ _
  · exact Table.lookup_set_self _ _ _
  · exact Table.lookup_set_ne _ _ different
  · rw [Table.lookup_set] at found
    split_ifs at found with same
    · rw [same]
      exact namedBy_tmpPath directory uuid content
    · exact intact.blobs path content found

/-- The file that a process has is a temporary one, and nobody else has made it. -/
theorem Has.own {file : TmpFile} (intact : Intact setup tidy world)
    (has : Has tidy process world (some file)) :
    (∃ directory uuid, file.path = setup.tmpPath directory uuid) ∧
      ∀ maker, world.makers.lookup file.path = some maker → maker = process := by
  obtain ⟨made, -⟩ := has.file file rfl
  refine ⟨(intact.made _ _ made).1, fun maker isMaker => ?_⟩
  exact Option.some.inj (isMaker.symm.trans made)

theorem kept_append {file : TmpFile} (intact : Intact setup tidy world)
    (has : Has tidy process world (some file)) (data : Bytes) :
    Kept setup tidy process (some ⟨file.path, file.content ++ data⟩) world
      (world.appendFile file.path data) := by
  obtain ⟨made, present⟩ := has.file file rfl
  obtain ⟨⟨directory, uuid, isTmp⟩, own⟩ := has.own intact
  have elsewhere := world.elsewhere_appendFile file.path data
  have makers : (world.appendFile file.path data).makers = world.makers := by
    simp [World.appendFile, present]
  refine @Kept.of_own setup process tidy world _ (some file) file.path
    (some (file.content ++ data)) intact has ⟨directory, uuid, isTmp⟩ ?_ own (fun other => ?_)
    (World.lookup_appendFile_self present data) (fun _ _ => elsewhere _)
    fun path content found => ?_
  · rintro _ ⟨⟩
    rfl
  · rw [makers]
    split_ifs with same
    · rw [same, made]
      rfl
    · rfl
  · by_cases same : path = file.path
    · rw [same, isTmp]
      exact namedBy_tmpPath directory uuid content
    · rw [elsewhere path same] at found
      exact intact.blobs path content found

theorem kept_place {file : TmpFile} (intact : Intact setup tidy world)
    (has : Has tidy process world (some file)) :
    Kept setup tidy process none world
      (world.moveFile file.path (setup.getCasPath (setup.sha256Hex file.content))) := by
  obtain ⟨made, present⟩ := has.file file rfl
  obtain ⟨⟨directory, uuid, isTmp⟩, own⟩ := has.own intact
  have notBlob : ∀ casKey, file.path ≠ setup.getCasPath casKey := by
    intro casKey same
    exact setup.getCasPath_ne_tmpPath casKey directory uuid (same.symm.trans isTmp)
  refine @Kept.of_own setup process tidy world _ (some file) file.path none intact has
    ⟨directory, uuid, isTmp⟩ ?_ own (fun other => lookup_makers_moveFile present other) ?_
    (fun otherDirectory other different => ?_) fun path content found => ?_
  · rintro _ ⟨⟩
    rfl
  · rw [World.lookup_moveFile present, if_neg (notBlob _), if_pos rfl]
  · rw [World.lookup_moveFile present, if_neg (setup.getCasPath_ne_tmpPath _ _ _).symm,
      if_neg different]
  · rw [World.lookup_moveFile present] at found
    split_ifs at found with isTarget isSource
    · cases found
      rw [isTarget]
      exact namedBy_place file.content
    · exact intact.blobs path content found

theorem kept_discard {file : TmpFile} (intact : Intact setup tidy world)
    (has : Has tidy process world (some file)) :
    Kept setup tidy process none world (world.dropFile file.path) := by
  obtain ⟨isTmp, own⟩ := has.own intact
  refine @Kept.of_own setup process tidy world _ (some file) file.path none intact has isTmp ?_ own
    (fun other => lookup_erase _ _ _) (world.lookup_dropFile_self _)
    (fun _ _ different => world.elsewhere_dropFile _ _ different) fun path content found => ?_
  · rintro _ ⟨⟩
    rfl
  · rw [World.dropFile, lookup_erase] at found
    split_ifs at found
    exact intact.blobs path content found

/-- The file of a blob is not the temporary file of a process. -/
theorem Has.ne_blob (intact : Intact setup tidy world) (has : Has tidy process world held)
    {casKey path : Bytes} (isName : IsNameOf setup casKey path) {file : TmpFile}
    (isHeld : held = some file) : path ≠ file.path := by
  subst isHeld
  obtain ⟨⟨directory, uuid, isTmp⟩, -⟩ := has.own intact
  rw [isTmp]
  exact isName.ne_tmpPath directory uuid

/-- A call on no file. -/
theorem kept_leaves {op : IoOp} {choice : Choice} {answered : op.Ans}
    (intact : Intact setup tidy world) (has : Has tidy process world held)
    (leaves : LeavesFiles op = true)
    (step : answer setup process op choice world = some (answered, after)) :
    Kept setup tidy process held world after := by
  have same : after.files = world.files ∧ after.makers = world.makers := by
    cases op <;> first
      | contradiction
      | (cases choice <;> simp only [answer] at step <;> grind [Option.map_eq_some_iff])
  refine .of_same intact has (fun path => by rw [same.2]) (fun _ _ => by rw [same.1]) ?_
  rw [same.1]
  exact intact.blobs

end Calls

end World

/-! ## Interleavings -/

/-- `unlink` does not fail. -/
def UnlinkWorks (allowed : IoOp → Choice → Bool) : Prop :=
  ∀ path text, allowed (.removeFile path) (.failed text) = false

section Pools

variable {setup : Setup} {allowed : IoOp → Choice → Bool}

section Calls

variable {process : Nat} {choice : Choice} {world after : World} {held : Option TmpFile}

theorem not_works {path : Bytes} {text : IoError}
    (fails : allowed (.removeFile path) (.failed text) = true) : ¬UnlinkWorks allowed := by
  intro works
  rw [works path text] at fails
  contradiction

theorem kept_renameBlob {source target casKey other : Bytes} {answered : Except IoError Unit}
    (intact : Intact setup (UnlinkWorks allowed) world)
    (has : Has (UnlinkWorks allowed) process world held) (sourceName : IsNameOf setup casKey source)
    (targetName : IsNameOf setup other target)
    (named : ∀ {content}, NamedBy setup source content → NamedBy setup target content)
    (step : answer setup process (.atomicRename source target) choice world =
      some (answered, after)) :
    Kept setup (UnlinkWorks allowed) process (fileAfter held (.atomicRename source target) answered)
      world after := by
  have same : fileAfter held (.atomicRename source target) answered = held := by
    cases answered with
    | error text => cases held <;> rfl
    | ok =>
        cases isHeld : held with
        | none => rfl
        | some file => exact if_neg (has.ne_blob intact sourceName isHeld)
  rw [same]
  cases choice <;> simp only [answer, reduceCtorEq, Option.ite_none_right_eq_some,
    Option.some.injEq, Prod.mk.injEq] at step
  · obtain ⟨present, rfl, rfl⟩ := step
    obtain ⟨content, isContent⟩ := Option.isSome_iff_exists.mp present
    exact kept_moveBlob intact has sourceName targetName isContent
      (named (intact.blobs _ _ isContent))
  · obtain ⟨rfl, rfl⟩ := step
    exact .refl intact has

theorem kept_removeBlob {path casKey : Bytes} {answered : Except IoError Unit}
    (intact : Intact setup (UnlinkWorks allowed) world)
    (has : Has (UnlinkWorks allowed) process world held) (isName : IsNameOf setup casKey path)
    (isAllowed : allowed (.removeFile path) choice = true)
    (step : answer setup process (.removeFile path) choice world = some (answered, after)) :
    CanAnswer (UnlinkWorks allowed) (.removeFile path) answered ∧
      Kept setup (UnlinkWorks allowed) process (fileAfter held (.removeFile path) answered) world
        after := by
  have same : fileAfter held (.removeFile path) answered = held := by
    cases answered with
    | error text => cases held <;> rfl
    | ok =>
        cases isHeld : held with
        | none => rfl
        | some file => exact if_neg (has.ne_blob intact isName isHeld)
  rw [same]
  cases choice <;> simp only [answer, reduceCtorEq, Option.some.injEq, Prod.mk.injEq] at step
  · obtain ⟨rfl, rfl⟩ := step
    exact ⟨trivial, kept_dropBlob intact has isName⟩
  · obtain ⟨rfl, rfl⟩ := step
    exact ⟨not_works isAllowed, .refl intact has⟩

/-- Each call changes the files as the protocol says. -/
theorem kept_call {op : IoOp} {answered : op.Ans}
    (intact : Intact setup (UnlinkWorks allowed) world)
    (has : Has (UnlinkWorks allowed) process world held) (may : MayCall setup held op)
    (isAllowed : allowed op choice = true)
    (step : answer setup process op choice world = some (answered, after)) :
    CanAnswer (UnlinkWorks allowed) op answered ∧
      Kept setup (UnlinkWorks allowed) process (fileAfter held op answered) world after := by
  cases may with
  | openNew directory uuid =>
      cases choice <;> simp only [answer, reduceCtorEq, Option.ite_none_left_eq_some,
        Option.some.injEq, Prod.mk.injEq] at step
      · obtain ⟨absent, rfl, rfl⟩ := step
        exact ⟨trivial, kept_openNew intact has (by simpa using absent)⟩
      · obtain ⟨rfl, rfl⟩ := step
        exact ⟨trivial, .refl intact has⟩
  | write file data =>
      cases choice <;> simp only [answer, reduceCtorEq, Option.ite_none_right_eq_some,
        Option.some.injEq, Prod.mk.injEq] at step
      · obtain ⟨rfl, rfl⟩ := step
        exact ⟨trivial, .refl intact has⟩
      · obtain ⟨within, rfl, rfl⟩ := step
        exact ⟨within, kept_append intact has _⟩
  | place file =>
      cases choice <;> simp only [answer, reduceCtorEq, Option.ite_none_right_eq_some,
        Option.some.injEq, Prod.mk.injEq] at step
      · obtain ⟨-, rfl, rfl⟩ := step
        refine ⟨trivial, ?_⟩
        rw [fileAfter, if_pos rfl]
        exact kept_place intact has
      · obtain ⟨rfl, rfl⟩ := step
        exact ⟨trivial, .refl intact has⟩
  | discard file =>
      cases choice <;> simp only [answer, reduceCtorEq, Option.some.injEq, Prod.mk.injEq] at step
      · obtain ⟨rfl, rfl⟩ := step
        refine ⟨trivial, ?_⟩
        rw [fileAfter, if_pos rfl]
        exact kept_discard intact has
      · obtain ⟨rfl, rfl⟩ := step
        exact ⟨not_works isAllowed, .refl intact has⟩
  | @setAside held casKey uuid valid =>
      exact ⟨trivial, kept_renameBlob intact has (.inl rfl) (.inr ⟨uuid, valid, rfl⟩)
        (fun named => named.setAside valid) step⟩
  | @restore held casKey uuid valid =>
      exact ⟨trivial, kept_renameBlob intact has (.inr ⟨uuid, valid, rfl⟩) (.inl rfl)
        (fun named => named.restore valid) step⟩
  | @reclaim held casKey uuid valid =>
      exact kept_removeBlob intact has (.inr ⟨uuid, valid, rfl⟩) isAllowed step
  | delete held casKey => exact kept_removeBlob intact has (.inl rfl) isAllowed step
  | other held leaves =>
      have same : fileAfter held op answered = held := by
        cases op <;> first | contradiction | (cases held <;> rfl)
      rw [same]
      refine ⟨?_, kept_leaves intact has leaves step⟩
      cases op with
      | generateUuid =>
          cases choice <;> simp only [answer, reduceCtorEq, Option.ite_none_right_eq_some,
            Option.some.injEq, Prod.mk.injEq] at step
          obtain ⟨valid, rfl, rfl⟩ := step
          exact valid
      | atomicRename | removeFile | openNew | write => contradiction
      | _ => trivial

end Calls

theorem sound (setup : Setup) (allowed : IoOp → Choice → Bool) :
    (fileProtocol setup (UnlinkWorks allowed)).Sound
      (fun process => (answer setup process).restrict allowed)
      (Intact setup (UnlinkWorks allowed)) (Has (UnlinkWorks allowed)) := by
  constructor
  intro process op choice world held answered after intact has may step
  simp only [Program.Interface.restrict, Option.ite_none_right_eq_some] at step
  obtain ⟨can, kept⟩ := kept_call intact has may step.1 step.2
  exact ⟨can, kept.intact, kept.has, fun other otherHeld different otherHas =>
    otherHas.apart different kept.apart⟩

/-- A process that has released its temporary file may begin a task. -/
theorem begins {process : Nat} {tidy : Prop} {world : World} {held : Option TmpFile}
    (has : Has tidy process world held) (released : Released tidy held) :
    Has tidy process world none := by
  refine ⟨nofun, fun isTidy path made => ?_⟩
  rw [released isTidy] at has
  exact has.only isTidy path made

end Pools

end MiniS3.DataStore
