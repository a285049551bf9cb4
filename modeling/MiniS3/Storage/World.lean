import MiniS3.Db.CallEffects
import MiniS3.Storage.CasLayout

/-!
# The surroundings of the server

A request handler and the collector are programs over the calls of this file: calls
of the metadata store, system calls on files, the clock, UUIDs, the collector's
queue and the upload context of a connection.  The world is what these calls act
on, and a choice says how one call turns out.

Files are known by their path.  A descriptor of a temporary file is the path it was
opened with, since nobody else renames or removes such a file while it is open;
reading goes through the content at the time of `open`, since the file of a blob is
never written again.  `EINTR`, and a `write` of zero bytes, leave everything as it
is and are tried again, so a call stands for the first outcome of another kind.
Directories are not modelled beyond the failure of creating them.
-/

namespace MiniS3

open Lib Db

/-- A `WriteSession`: its temporary file, the bytes it has counted, and the bytes its
digest has been fed. -/
structure WriteSession where
  tmpPath : Bytes
  bytesWritten : Nat
  hashed : Bytes
  deriving DecidableEq

/-- `Server::UploadContext`. -/
structure UploadContext where
  session : Option WriteSession
  expectedSha256 : Bytes
  bytesWritten : Nat
  streaming : Bool
  deriving DecidableEq

/-- The calls of the server on its surroundings. -/
inductive IoOp
  | metaStore (call : MetaCall)
  | fileExists (path : Bytes)
  | createDirectories (path : Bytes)
  /-- `FileSystem::AtomicRename`. -/
  | atomicRename (source target : Bytes)
  /-- `unlink`; a file that is not there counts as removed. -/
  | removeFile (path : Bytes)
  /-- `open` with `O_CREAT | O_EXCL`. -/
  | openNew (path : Bytes)
  | write (path data : Bytes)
  /-- `open` for reading, with the content of the file. -/
  | openRead (path : Bytes)
  /-- `read` of at most 64 KiB of what is left of an open file. -/
  | read (rest : Bytes)
  | generateUuid
  | now
  /-- `created_at` of a row that was read.  The column is not modelled, so that any time can
  be shown. -/
  | createdAt
  /-- `Metrics::Export`; the counters are not modelled. -/
  | exportMetrics
  | addPendingDelete (casKey : Bytes)
  | takePendingDeletes (limit : Int)
  /-- The entry of the connection in `uploads_`. -/
  | findUpload
  | storeUpload (context : UploadContext)
  | eraseUpload

/-- The message of a failed call on a file. -/
abbrev IoError :=
  Bytes

/-- The answers to the calls. -/
@[reducible]
def IoOp.Ans : IoOp → Type
  | .metaStore call => call.Ans
  | .fileExists _ => Bool
  | .createDirectories _ | .atomicRename _ _ | .removeFile _ | .openNew _ => Except IoError Unit
  | .write _ _ | .read _ => Except IoError Nat
  | .openRead _ => Option Bytes
  | .generateUuid | .exportMetrics => Bytes
  | .now | .createdAt => Int
  | .addPendingDelete _ | .storeUpload _ | .eraseUpload => Unit
  | .takePendingDeletes _ => List Bytes
  | .findUpload => Option UploadContext

/-- The signature of the server's calls. -/
abbrev ioSig : Signature where
  Op := IoOp
  Ans := IoOp.Ans

/-- A handler, or a part of one. -/
abbrev ServerM :=
  Program ioSig

/-- Make one call. -/
def perform (op : IoOp) : ServerM op.Ans :=
  Program.perform (S := ioSig) op

/-- What the calls act on.  `makers` only observes: it tells the process that created a
temporary file and still has it. -/
structure World where
  tables : Tables
  caches : Caches
  files : Table Bytes Bytes
  makers : Table Bytes Nat
  pendingDeletes : List Bytes
  uploads : Table Nat UploadContext

/-- How a call turns out. -/
inductive Choice
  /-- A call of the metadata store, with the statements of it that fail. -/
  | sql (faults : List (Option SqlError)) (clock : Clock)
  | done
  | failed (text : IoError)
  /-- The count a `write` or `read` returns. -/
  | count (length : Nat)
  | uuid (text : Bytes)
  | time (seconds : Int)
  | metrics (text : Bytes)

/-- No SQL statement fails by a fault of the engine. -/
def Faultless : Choice → Prop
  | .sql faults _ => faults = []
  | _ => True

namespace World

/-- Move a file, replacing the one that is there. -/
def moveFile (source target : Bytes) (world : World) : World :=
  match world.files.lookup source with
  | none => world
  | some content =>
      { world with
        files := (world.files.erase source).set target content
        makers := world.makers.erase source }

/-- Remove a file. -/
def dropFile (path : Bytes) (world : World) : World :=
  { world with files := world.files.erase path, makers := world.makers.erase path }

/-- Append to a file. -/
def appendFile (path data : Bytes) (world : World) : World :=
  match world.files.lookup path with
  | none => world
  | some content => { world with files := world.files.set path (content ++ data) }

@[simp, grind =]
theorem tables_moveFile (source target : Bytes) (world : World) :
    (world.moveFile source target).tables = world.tables := by
  unfold moveFile
  split <;> rfl

@[simp, grind =]
theorem tables_dropFile (path : Bytes) (world : World) :
    (world.dropFile path).tables = world.tables :=
  rfl

@[simp, grind =]
theorem tables_appendFile (path data : Bytes) (world : World) :
    (world.appendFile path data).tables = world.tables := by
  unfold appendFile
  split <;> rfl

end World

/-- How many bytes a `read` can return: none at the end, and otherwise some. -/
def readable (rest : Bytes) (length : Nat) : Bool :=
  if rest.isEmpty then length == 0
  else 1 ≤ length && length ≤ rest.length && length ≤ 65536

section

variable (setup : Setup)

/-- The answer to a call, made by the process `process`. -/
def answer (process : Nat) : Program.Interface ioSig Choice World
  | .metaStore call, .sql faults clock, world =>
      let (answered, tables, caches) :=
        call.perform setup.indexed faults clock world.tables world.caches
      some (answered, { world with tables, caches })
  | .fileExists path, .done, world => some ((world.files.lookup path).isSome, world)
  | .createDirectories _, .done, world => some (.ok (), world)
  | .createDirectories _, .failed text, world => some (.error text, world)
  | .atomicRename source target, .done, world =>
      if (world.files.lookup source).isSome then
        some (.ok (), world.moveFile source target)
      else none
  | .atomicRename _ _, .failed text, world => some (.error text, world)
  | .removeFile path, .done, world => some (.ok (), world.dropFile path)
  | .removeFile _, .failed text, world => some (.error text, world)
  | .openNew path, .done, world =>
      if (world.files.lookup path).isSome then none
      else
        some (.ok (), { world with
          files := world.files.set path []
          makers := world.makers.set path process })
  | .openNew _, .failed text, world => some (.error text, world)
  | .write path data, .count length, world =>
      if 1 ≤ length ∧ length ≤ data.length then
        some (.ok length, world.appendFile path (data.take length))
      else none
  | .write _ _, .failed text, world => some (.error text, world)
  | .openRead path, .done, world =>
      (world.files.lookup path).map fun content => (some content, world)
  | .openRead _, .failed _, world => some (none, world)
  | .read rest, .count length, world =>
      if readable rest length then some (.ok length, world) else none
  | .read _, .failed text, world => some (.error text, world)
  | .generateUuid, .uuid text, world => if isUuid text then some (text, world) else none
  | .now, .time seconds, world => some (seconds, world)
  | .createdAt, .time seconds, world => some (seconds, world)
  | .exportMetrics, .metrics text, world =>
      if (ascii "# HELP ").isPrefixOf text then some (text, world) else none
  | .addPendingDelete casKey, .done, world =>
      some ((), { world with pendingDeletes := world.pendingDeletes ++ [casKey] })
  | .takePendingDeletes limit, .done, world =>
      some (world.pendingDeletes.take limit.toNat,
        { world with pendingDeletes := world.pendingDeletes.drop limit.toNat })
  | .findUpload, .done, world => some (world.uploads.lookup process, world)
  | .storeUpload context, .done, world =>
      some ((), { world with uploads := world.uploads.set process context })
  | .eraseUpload, .done, world =>
      some ((), { world with uploads := world.uploads.erase process })
  | _, _, _ => none

end

/-! ## What a call changes -/

section

variable {setup : Setup} {process : Nat}

/-- A call of the metadata store has its effect on the tables and the caches, and changes
nothing else. -/
theorem answer_metaStore {call : MetaCall} {choice : Choice} {world after : World}
    {answered : call.Ans}
    (step : answer setup process (.metaStore call) choice world = some (answered, after)) :
    ∃ faults clock, choice = .sql faults clock ∧
      after = { world with tables := after.tables, caches := after.caches } ∧
      ∀ faulty, faulty ∨ faults = [] → call.Effect setup.indexed faulty world.tables
        world.caches answered after.tables after.caches := by
  cases choice with
  | sql faults clock =>
      simp only [answer, Option.some.injEq, Prod.mk.injEq] at step
      obtain ⟨rfl, rfl⟩ := step
      exact ⟨faults, clock, rfl, rfl, fun faulty mayFail =>
        call.effect_perform clock world.tables world.caches mayFail⟩
  | _ => simp [answer] at step

/-- No other call touches the tables. -/
theorem tables_answer {op : IoOp} (other : ∀ call, op ≠ .metaStore call) {choice : Choice}
    {world after : World} {answered : op.Ans}
    (step : answer setup process op choice world = some (answered, after)) :
    after.tables = world.tables := by
  cases op with
  | metaStore call => exact absurd rfl (other call)
  | _ => cases choice <;> simp only [answer] at step <;> grind [Option.map_eq_some_iff]

end

end MiniS3
