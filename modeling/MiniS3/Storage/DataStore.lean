import MiniS3.Storage.World

/-!
# The blob store

`WriteSession` and `DataStore`: data goes to a temporary file while its digest is
computed, and the file is then renamed to the name of its blob, unless that file is
there already.  A session that is dropped unfinished removes its temporary file.
Synchronising a file to disk has no effect in the model.
-/

namespace MiniS3

open Lib

/-- Write all of `data`, in as many calls of `write` as it takes.  Each call writes at
least one byte, so the length of `data` bounds their number. -/
def writeAll (path : Bytes) : Nat → Bytes → ServerM (Except IoError Unit)
  | _, [] => pure (.ok ())
  | 0, _ :: _ => pure (.ok ())
  | calls + 1, data => do
      match ← perform (.write path data) with
      | .error text => return .error text
      | .ok length => writeAll path calls (data.drop length)

namespace WriteSession

/-- `WriteSession::Write`.  The digest and the count are fed only once everything is
written. -/
def write (data : Bytes) (session : WriteSession) : ServerM (Result WriteSession) := do
  match ← writeAll session.tmpPath data.length data with
  | .error text => return .err .StorageError (ascii "Write failed: " ++ text)
  | .ok () =>
      return .ok { session with
        bytesWritten := session.bytesWritten + data.length
        hashed := session.hashed ++ data }

end WriteSession

namespace DataStore

variable (setup : Setup)

/-- `DataStore::BeginWrite`. -/
def beginWrite : ServerM (Result WriteSession) := do
  let uuid ← perform .generateUuid
  let tmpPath := setup.tmpPath (ascii "upload") uuid
  match ← perform (.openNew tmpPath) with
  | .error text => return .err .StorageError (ascii "Failed to create temp file: " ++ text)
  | .ok () => return .ok ⟨tmpPath, 0, []⟩

/-- Give a complete temporary file the name of its blob, or remove it when the blob is
there already.  `CommitWrite` and `Merge` end with this code. -/
def place (tmpPath casKey : Bytes) : ServerM (Result Bytes) := do
  if ← perform (.fileExists (setup.getCasPath casKey)) then
    let _ ← perform (.removeFile tmpPath)
    return .ok casKey
  else
    match ← perform (.createDirectories (setup.getCasDir casKey)) with
    | .error text =>
        let _ ← perform (.removeFile tmpPath)
        return .err .StorageError (ascii "Failed to create directory: " ++ text)
    | .ok () =>
        match ← perform (.atomicRename tmpPath (setup.getCasPath casKey)) with
        | .error text =>
            let _ ← perform (.removeFile tmpPath)
            return .err .StorageError text
        | .ok () => return .ok casKey

/-- `DataStore::CommitWrite`. -/
def commitWrite (session : WriteSession) (expectedSha256 : Bytes) : ServerM (Result Bytes) := do
  let casKey := setup.sha256Hex session.hashed
  if ¬expectedSha256.isEmpty ∧ casKey ≠ expectedSha256 then
    let _ ← perform (.removeFile session.tmpPath)
    return .err .ChecksumMismatch
      (ascii "SHA256 mismatch: expected " ++ expectedSha256 ++ ascii ", got " ++ casKey)
  else place setup session.tmpPath casKey

/-- `DataStore::Write`. -/
def write (data : Bytes) : ServerM (Result Bytes) := do
  match ← beginWrite setup with
  | .error status => return .error status
  | .ok session =>
      match ← session.write data with
      | .error status =>
          let _ ← perform (.removeFile session.tmpPath)
          return .error status
      | .ok session => commitWrite setup session []

/-- `DataStore::Exists`. -/
def blobExists (casKey : Bytes) : ServerM Bool :=
  perform (.fileExists (setup.getCasPath casKey))

/-- `DataStore::Delete`; its callers only log a failure. -/
def delete (casKey : Bytes) : ServerM (Except IoError Unit) :=
  perform (.removeFile (setup.getCasPath casKey))

/-- Copy what is left of an open file to the merge file.  Each call of `read` but the
last returns at least one byte. -/
def copyRest (tmpPath : Bytes) : Nat → Bytes → Bytes → ServerM (Result Bytes)
  | 0, _, hashed => pure (.ok hashed)
  | calls + 1, rest, hashed => do
      match ← perform (.read rest) with
      | .error text =>
          let _ ← perform (.removeFile tmpPath)
          return .err .StorageError (ascii "Read failed: " ++ text)
      | .ok 0 => return .ok hashed
      | .ok (length + 1) =>
          let chunk := rest.take (length + 1)
          match ← writeAll tmpPath chunk.length chunk with
          | .error text =>
              let _ ← perform (.removeFile tmpPath)
              return .err .StorageError (ascii "Write failed: " ++ text)
          | .ok () => copyRest tmpPath calls (rest.drop (length + 1)) (hashed ++ chunk)

/-- Copy the files of all blobs to the merge file, and return what the digest was fed. -/
def copyAll (tmpPath : Bytes) : List Bytes → Bytes → ServerM (Result Bytes)
  | [], hashed => pure (.ok hashed)
  | casKey :: casKeys, hashed => do
      match ← perform (.openRead (setup.getCasPath casKey)) with
      | none =>
          let _ ← perform (.removeFile tmpPath)
          return .err .NoSuchKey (ascii "CAS not found: " ++ casKey)
      | some content =>
          match ← copyRest tmpPath (content.length + 1) content hashed with
          | .error status => return .error status
          | .ok hashed => copyAll tmpPath casKeys hashed

/-- `DataStore::Merge`. -/
def merge (casKeys : List Bytes) : ServerM (Result Bytes) := do
  if casKeys.isEmpty then return .err .InvalidArgument (ascii "No CAS keys to merge")
  else
    let uuid ← perform .generateUuid
    let tmpPath := setup.tmpPath (ascii "merge") uuid
    match ← perform (.openNew tmpPath) with
    | .error text => return .err .StorageError (ascii "Failed to create merge file: " ++ text)
    | .ok () =>
        match ← copyAll setup tmpPath casKeys [] with
        | .error status => return .error status
        | .ok hashed => place setup tmpPath (setup.sha256Hex hashed)

/-! ## The calls of the blob store -/

/-- The calls that the functions of this file make. -/
inductive StorageOp : IoOp → Prop
  | fileExists (path : Bytes) : StorageOp (.fileExists path)
  | createDirectories (path : Bytes) : StorageOp (.createDirectories path)
  | place (directory uuid data : Bytes) :
      StorageOp (.atomicRename (setup.tmpPath directory uuid)
        (setup.getCasPath (setup.sha256Hex data)))
  | removeTmp (directory uuid : Bytes) :
      StorageOp (.removeFile (setup.tmpPath directory uuid))
  | openNew (directory uuid : Bytes) : StorageOp (.openNew (setup.tmpPath directory uuid))
  | write (directory uuid data : Bytes) :
      StorageOp (.write (setup.tmpPath directory uuid) data)
  | openRead (path : Bytes) : StorageOp (.openRead path)
  | read (rest : Bytes) : StorageOp (.read rest)
  | generateUuid : StorageOp .generateUuid

/-- A result that is a digest, if it is one. -/
def ReturnsDigest (result : Result Bytes) : Prop :=
  ∀ casKey, result = .ok casKey → ∃ data, casKey = setup.sha256Hex data

variable {setup}

theorem only_writeAll {directory uuid : Bytes} (calls : Nat) (data : Bytes) :
    Program.Only (StorageOp setup) (fun _ => True)
      (writeAll (setup.tmpPath directory uuid) calls data) := by
  induction calls generalizing data with
  | zero => cases data <;> trivial
  | succ calls inductionHypothesis =>
      cases data with
      | nil => trivial
      | cons byte data =>
          refine ⟨.write directory uuid _, ?_⟩
          intro answer
          cases answer with
          | error text => trivial
          | ok length => exact inductionHypothesis _

theorem only_beginWrite :
    Program.Only (StorageOp setup) (fun result => ∀ session, result = .ok session →
      ∃ directory uuid, session.tmpPath = setup.tmpPath directory uuid) (beginWrite setup) := by
  refine ⟨.generateUuid, fun uuid => ⟨.openNew _ uuid, fun answer => ?_⟩⟩
  cases answer with
  | error text => rintro session ⟨⟩
  | ok =>
      rintro session ⟨⟩
      exact ⟨_, uuid, rfl⟩

theorem only_place (directory uuid data : Bytes) :
    Program.Only (StorageOp setup) (ReturnsDigest setup)
      (place setup (setup.tmpPath directory uuid) (setup.sha256Hex data)) := by
  have digest : ReturnsDigest setup (.ok (setup.sha256Hex data)) := by
    rintro casKey ⟨⟩
    exact ⟨data, rfl⟩
  have failed : ∀ status, ReturnsDigest setup (.error status) := by
    rintro status casKey ⟨⟩
  refine ⟨.fileExists _, fun present => ?_⟩
  cases present with
  | true => exact ⟨.removeTmp directory uuid, fun _ => digest⟩
  | false =>
      refine ⟨.createDirectories _, fun created => ?_⟩
      cases created with
      | error text => exact ⟨.removeTmp directory uuid, fun _ => failed _⟩
      | ok =>
          refine ⟨.place directory uuid data, fun renamed => ?_⟩
          cases renamed with
          | error text => exact ⟨.removeTmp directory uuid, fun _ => failed _⟩
          | ok => exact digest

theorem only_commitWrite {session : WriteSession} {directory uuid : Bytes}
    (temporary : session.tmpPath = setup.tmpPath directory uuid) (expectedSha256 : Bytes) :
    Program.Only (StorageOp setup) (ReturnsDigest setup)
      (commitWrite setup session expectedSha256) := by
  unfold commitWrite
  rw [temporary]
  dsimp only
  split
  · refine ⟨.removeTmp directory uuid, fun _ => ?_⟩
    rintro casKey ⟨⟩
  · exact only_place directory uuid session.hashed

theorem only_sessionWrite {directory uuid : Bytes} (data : Bytes) (session : WriteSession)
    (temporary : session.tmpPath = setup.tmpPath directory uuid) :
    Program.Only (StorageOp setup) (fun result => ∀ after, result = .ok after →
      after.tmpPath = setup.tmpPath directory uuid) (session.write data) := by
  unfold WriteSession.write
  rw [temporary]
  refine (only_writeAll data.length data).bind ?_
  rintro written -
  cases written with
  | error text => rintro after ⟨⟩
  | ok =>
      rintro after ⟨⟩
      rfl

theorem only_write (data : Bytes) :
    Program.Only (StorageOp setup) (ReturnsDigest setup) (write setup data) := by
  refine only_beginWrite.bind ?_
  intro result temporary
  cases result with
  | error status => rintro casKey ⟨⟩
  | ok session =>
      obtain ⟨tmpPath, bytesWritten, hashed⟩ := session
      obtain ⟨directory, uuid, same⟩ := temporary _ rfl
      simp only at same
      subst same
      refine (only_sessionWrite data _ rfl).bind ?_
      rintro written sameFile
      cases written with
      | error status =>
          refine ⟨.removeTmp directory uuid, fun _ => ?_⟩
          rintro casKey ⟨⟩
      | ok session => exact only_commitWrite (sameFile session rfl) []

theorem only_copyRest {directory uuid : Bytes} (calls : Nat) (rest hashed : Bytes) :
    Program.Only (StorageOp setup) (fun _ => True)
      (copyRest (setup.tmpPath directory uuid) calls rest hashed) := by
  induction calls generalizing rest hashed with
  | zero => trivial
  | succ calls inductionHypothesis =>
      refine ⟨.read rest, fun answer => ?_⟩
      match answer with
      | .error text => exact ⟨.removeTmp directory uuid, fun _ => trivial⟩
      | .ok 0 => trivial
      | .ok (length + 1) =>
          refine (only_writeAll _ _).bind ?_
          rintro written -
          cases written with
          | error text => exact ⟨.removeTmp directory uuid, fun _ => trivial⟩
          | ok => exact inductionHypothesis _ _

theorem only_copyAll {directory uuid : Bytes} (casKeys : List Bytes) (hashed : Bytes) :
    Program.Only (StorageOp setup) (fun _ => True)
      (copyAll setup (setup.tmpPath directory uuid) casKeys hashed) := by
  induction casKeys generalizing hashed with
  | nil => trivial
  | cons casKey casKeys inductionHypothesis =>
      refine ⟨.openRead _, fun content => ?_⟩
      cases content with
      | none => exact ⟨.removeTmp directory uuid, fun _ => trivial⟩
      | some content =>
          refine (only_copyRest _ _ _).bind ?_
          rintro copied -
          cases copied with
          | error status => trivial
          | ok hashed => exact inductionHypothesis hashed

theorem only_merge (casKeys : List Bytes) :
    Program.Only (StorageOp setup) (ReturnsDigest setup) (merge setup casKeys) := by
  unfold merge
  split
  · rintro casKey ⟨⟩
  · refine ⟨.generateUuid, fun uuid => ⟨.openNew _ uuid, fun opened => ?_⟩⟩
    cases opened with
    | error text => rintro casKey ⟨⟩
    | ok =>
        refine (only_copyAll casKeys []).bind ?_
        rintro copied -
        cases copied with
        | error status => rintro casKey ⟨⟩
        | ok hashed => exact only_place _ uuid hashed

end DataStore

end MiniS3
