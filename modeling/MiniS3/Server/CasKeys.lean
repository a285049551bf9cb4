import MiniS3.Lib.Interleaving
import MiniS3.Server.KeyFlow

/-!
# Files stay in their directory

The callbacks of all connections and the collector as interleaved programs.  As long as the
keys of blobs come from digests, or are checked where a header brings them in, every file
that is opened, renamed or unlinked for a blob is below `cas` in the data directory, and no
two blobs share one.
-/

namespace MiniS3.Api.Server

open Lib Lib.Interleaving Lib.Transition Db Net

/-- What the server does for a connection, and the batches of the collector. -/
inductive Task
  | request (request : HttpRequest)
  | bodyData (request : HttpRequest) (data : Bytes)
  | close
  | processBatch

variable (setup : Setup)

/-- Open the file of a response, as `HttpConnection` does before it sends the response. -/
def openFile (response : Option HttpResponse) : ServerM Unit :=
  match response with
  | none => pure ()
  | some response =>
      if response.hasFile then do
        let _ ← perform (.openRead response.filePath)
        pure ()
      else pure ()

/-- The code of a task. -/
def Task.code : Task → ServerM Unit
  | .request received => do
      let (response, _) ← onRequest setup received
      openFile response
  | .bodyData received data => do
      let _ ← onBodyData setup received data
      pure ()
  | .close => onConnectionClose
  | .processBatch => GarbageCollector.processBatch setup

/-- The server with what runs on it, each connection under its descriptor. -/
abbrev ServerPool :=
  Pool ioSig Unit World

/-- A task is started, or a running one makes its next call. -/
abbrev ServerAction :=
  Action Task Choice

/-- One step of the server. -/
abbrev serverNext : Step ServerPool ServerAction :=
  next (S := ioSig) (Task.code setup) (answer setup)

/-- A pool on which nothing runs. -/
def idle (world : World) : ServerPool :=
  ⟨world, ∅⟩

/-- A header does not bring in a key that `IsValidCasKey` rejects: the body was streamed, and
its digest replaces the header, or the request is no upload, or the key is valid. -/
def KeepsKeys (pool : ServerPool) : ServerAction → Prop
  | .start process (.request request) =>
      Streamed (pool.shared.uploads.lookup process) ∨ RoutesValid request
  | _ => True

/-- Every key that is stored somewhere is valid, and uploads write to temporary files. -/
structure WorldKeyed (world : World) : Prop where
  tables : Keyed Valid world.tables
  caches : CachesKeyed Valid world.caches
  pending : ∀ casKey ∈ world.pendingDeletes, Valid casKey
  uploads : ∀ process context, world.uploads.lookup process = some context → context.Kept setup

variable {setup} {process : Nat} {world after : World}

/-- Calls on files, and questions, leave the tables, the caches, the queue and the uploads. -/
def Outward : IoOp → Prop
  | .metaStore _ | .addPendingDelete _ | .takePendingDeletes _ | .storeUpload _ | .eraseUpload =>
      False
  | _ => True

theorem stays_of_outward {op : IoOp} (outward : Outward op) {choice : Choice}
    {answered : op.Ans}
    (step : answer setup process op choice world = some (answered, after)) :
    after.tables = world.tables ∧ after.caches = world.caches ∧
      after.pendingDeletes = world.pendingDeletes ∧ after.uploads = world.uploads := by
  have moved (source target : Bytes) : (world.moveFile source target).caches = world.caches ∧
      (world.moveFile source target).pendingDeletes = world.pendingDeletes ∧
      (world.moveFile source target).uploads = world.uploads := by
    unfold World.moveFile
    split <;> exact ⟨rfl, rfl, rfl⟩
  have appended (path data : Bytes) : (world.appendFile path data).caches = world.caches ∧
      (world.appendFile path data).pendingDeletes = world.pendingDeletes ∧
      (world.appendFile path data).uploads = world.uploads := by
    unfold World.appendFile
    split <;> exact ⟨rfl, rfl, rfl⟩
  have dropped (path : Bytes) : (world.dropFile path).caches = world.caches ∧
      (world.dropFile path).pendingDeletes = world.pendingDeletes ∧
      (world.dropFile path).uploads = world.uploads := ⟨rfl, rfl, rfl⟩
  refine ⟨tables_answer (by rintro call rfl; exact outward) step, ?_⟩
  cases op with
  | metaStore | addPendingDelete | takePendingDeletes | storeUpload | eraseUpload =>
      exact outward.elim
  | _ => cases choice <;> simp only [answer] at step <;> grind [Option.map_eq_some_iff]

/-- What a permitted call does to the world. -/
theorem WorldKeyed.step (keyed : WorldKeyed setup world) {op : IoOp} (permitted : op.Permitted setup)
    {choice : Choice} {answered : op.Ans}
    (step : answer setup process op choice world = some (answered, after)) :
    WorldKeyed setup after ∧ op.Tells setup (world.uploads.lookup process) answered ∧
      after.uploads.lookup process = op.uploadAfter (world.uploads.lookup process) ∧
      ∀ other, other ≠ process → after.uploads.lookup other = world.uploads.lookup other := by
  have hands := permitted.hands
  have outward (outward : Outward op) : WorldKeyed setup after ∧
      after.uploads = world.uploads := by
    obtain ⟨tables, caches, pending, uploads⟩ := stays_of_outward outward step
    exact ⟨⟨tables ▸ keyed.tables, caches ▸ keyed.caches, pending ▸ keyed.pending,
      uploads ▸ keyed.uploads⟩, uploads⟩
  have quiet (quiet : Outward op) (after_eq : op.uploadAfter (world.uploads.lookup process) =
      world.uploads.lookup process) (told : op.Tells setup (world.uploads.lookup process) answered) :
      WorldKeyed setup after ∧ op.Tells setup (world.uploads.lookup process) answered ∧
      after.uploads.lookup process = op.uploadAfter (world.uploads.lookup process) ∧
      ∀ other, other ≠ process → after.uploads.lookup other = world.uploads.lookup other := by
    obtain ⟨keyedAfter, uploads⟩ := outward quiet
    exact ⟨keyedAfter, told, by rw [uploads, after_eq], fun _ _ => by rw [uploads]⟩
  cases op with
  | metaStore call =>
      cases choice with
      | sql faults clock =>
          simp only [answer, Option.some.injEq, Prod.mk.injEq] at step
          obtain ⟨rfl, rfl⟩ := step
          obtain ⟨told, tables, caches⟩ := @MetaCall.keyed_perform _ setup.indexed call hands
            faults clock _ _ keyed.tables keyed.caches
          exact ⟨⟨tables, caches, keyed.pending, keyed.uploads⟩, told, rfl, fun _ _ => rfl⟩
      | _ => simp [answer] at step
  | generateUuid =>
      refine quiet trivial rfl ?_
      cases choice with
      | uuid text =>
          simp only [answer, Option.ite_none_right_eq_some, Option.some.injEq, Prod.mk.injEq]
            at step
          obtain ⟨named, rfl, -⟩ := step
          exact named
      | _ => simp [answer] at step
  | findUpload =>
      refine quiet trivial rfl ?_
      cases choice with
      | done =>
          simp only [answer, Option.some.injEq, Prod.mk.injEq] at step
          obtain ⟨rfl, -⟩ := step
          exact ⟨rfl, keyed.uploads process⟩
      | _ => simp [answer] at step
  | addPendingDelete casKey =>
      cases choice with
      | done =>
          simp only [answer, Option.some.injEq, Prod.mk.injEq] at step
          obtain ⟨-, rfl⟩ := step
          refine ⟨⟨keyed.tables, keyed.caches, ?_, keyed.uploads⟩, trivial, rfl, fun _ _ => rfl⟩
          intro other member
          rcases List.mem_append.mp member with old | new
          · exact keyed.pending other old
          · rw [List.mem_singleton.mp new]
            exact hands
      | _ => simp [answer] at step
  | takePendingDeletes limit =>
      cases choice with
      | done =>
          simp only [answer, Option.some.injEq, Prod.mk.injEq] at step
          obtain ⟨rfl, rfl⟩ := step
          refine ⟨⟨keyed.tables, keyed.caches, ?_, keyed.uploads⟩, ?_, rfl, fun _ _ => rfl⟩
          · exact fun other member => keyed.pending other (List.mem_of_mem_drop member)
          · exact fun other member => keyed.pending other (List.mem_of_mem_take member)
      | _ => simp [answer] at step
  | storeUpload context =>
      cases choice with
      | done =>
          simp only [answer, Option.some.injEq, Prod.mk.injEq] at step
          obtain ⟨-, rfl⟩ := step
          refine ⟨⟨keyed.tables, keyed.caches, keyed.pending, ?_⟩, trivial,
            Table.lookup_set_self _ _ _, fun other different => Table.lookup_set_ne _ _ different⟩
          intro other found stored
          by_cases same : other = process
          · rw [same, Table.lookup_set_self] at stored
            cases stored
            exact hands
          · rw [Table.lookup_set_ne _ _ same] at stored
            exact keyed.uploads other found stored
      | _ => simp [answer] at step
  | eraseUpload =>
      cases choice with
      | done =>
          simp only [answer, Option.some.injEq, Prod.mk.injEq] at step
          obtain ⟨-, rfl⟩ := step
          refine ⟨⟨keyed.tables, keyed.caches, keyed.pending, ?_⟩, trivial,
            Table.lookup_erase_self _ _, fun other different => Table.lookup_erase_ne _ different⟩
          intro other found stored
          by_cases same : other = process
          · rw [same, Table.lookup_erase_self] at stored
            contradiction
          · rw [Table.lookup_erase_ne _ same] at stored
            exact keyed.uploads other found stored
      | _ => simp [answer] at step
  | _ => exact quiet trivial rfl trivial

/-! ## The tasks are careful -/

theorem careful_openFile {response : Option HttpResponse} (sends : SendsBlob setup Valid response)
    {upload : Option UploadContext} :
    Careful setup (fun _ => True) upload (openFile response) := by
  cases response with
  | none => trivial
  | some response =>
      unfold openFile
      dsimp only
      split
      · rename_i file
        obtain ⟨casKey, valid, path⟩ := sends response rfl file
        rw [path]
        exact ⟨permitted_openRead valid .blob, fun _ _ => trivial⟩
      · trivial

theorem careful_task {upload : Option UploadContext} (task : Task)
    (keeps : ∀ received, task = .request received →
      Streamed upload ∨ RoutesValid received) :
    Careful setup (fun _ => True) upload (task.code setup) := by
  cases task with
  | request received =>
      refine (careful_onRequest (keeps received rfl)).bind ?_
      rintro ⟨response, served⟩ later sends
      exact careful_openFile sends
  | bodyData received data =>
      exact (careful_onBodyData received data).bind fun _ _ _ => trivial
  | close => exact careful_onConnectionClose
  | processBatch => exact GarbageCollector.careful_processBatch

/-- A running task is careful with the upload of its connection. -/
def CarefulAt (setup : Setup) (process : Nat) (world : World) :
    Option (ServerM Unit) → Prop
  | none => True
  | some program =>
      Careful setup (fun _ => True) (world.uploads.lookup process) program

theorem carefulAt_unfinished {program : ServerM Unit}
    (careful : Careful setup (fun _ => True) (world.uploads.lookup process) program) :
    CarefulAt setup process world (unfinished program) := by
  cases program with
  | ret value => trivial
  | call op next => exact careful

theorem respects_keyed :
    Respects (S := ioSig) (Task.code setup) (answer setup) KeepsKeys (WorldKeyed setup)
      (CarefulAt setup) where
  started := by
    intro pool process task holds keeps free
    refine carefulAt_unfinished (careful_task task ?_)
    rintro received rfl
    exact keeps
  performed := by
    intro pool process choice op rest answered after holds _ running step
    have careful := holds.point process
    rw [running] at careful
    obtain ⟨keyed, told, own, others⟩ := holds.shared.step careful.1 step
    refine ⟨keyed, carefulAt_unfinished ?_, ?_⟩
    · rw [own]
      exact careful.2 answered told
    · intro other different
      have undisturbed := holds.point other
      cases present : pool.running.lookup other with
      | none => trivial
      | some program =>
          rw [present] at undisturbed
          change Careful _ _ _ _
          rw [others other different]
          exact undisturbed

/-! ## All runs -/

/-- The next calls of all running tasks name confined paths only. -/
def PathsConfined (setup : Setup) (working : List Bytes) (pool : ServerPool) : Prop :=
  ∀ process op rest, pool.running.lookup process = some (.call op rest) →
    ∀ path ∈ op.paths, Confined setup working path

/-- While every key that a header brings in is checked, no file outside the directory of
the blobs is touched for a blob, and no two blobs share a file. -/
theorem paths_are_confined (setup : Setup) (working : List Bytes) {world : World}
    {target : ServerPool} (keyed : WorldKeyed setup world)
    (reachable : ReachableUnder (serverNext setup) KeepsKeys (idle world) target) :
    PathsConfined setup working target := by
  have initial : Holds (S := ioSig) (WorldKeyed setup) (CarefulAt setup) (idle world) :=
    ⟨keyed, fun _ => trivial⟩
  have holds := respects_keyed.invariant initial reachable
  intro process op rest running
  have careful := holds.point process
  rw [running] at careful
  exact careful.1.confined working

section Runs

/-! ### A blob that is stored, deleted and collected -/

/-- A setup without authentication. -/
def plainSetup : Setup :=
  Setup.sample [] []

/-- The bucket `abc`, and one file. -/
def worldWithFile (path : Bytes) : World where
  tables := { Tables.empty with buckets := Table.set 1 (ascii "abc") ∅ }
  caches := ⟨∅, none⟩
  files := Table.set path (ascii "secret") ∅
  makers := ∅
  pendingDeletes := []
  uploads := ∅

/-- `PUT /buckets/abc/objects/k` without a body, and with the key of a blob. -/
def putNaming (casKey : Bytes) : HttpRequest :=
  { (HttpRequest.empty.setHeader (ascii "X-Request-Id") (ascii "1")).setHeader
      (ascii "X-Internal-CAS-Key") casKey with
    method := .PUT
    path := ascii "/buckets/abc/objects/k" }

/-- `DELETE /buckets/abc/objects/k`. -/
def deleteOfK : HttpRequest :=
  { HttpRequest.empty.setHeader (ascii "X-Request-Id") (ascii "2") with
    method := .DELETE
    path := ascii "/buckets/abc/objects/k" }

/-- A process makes calls that succeed. -/
def makes (process : Nat) (choices : List Choice) : List ServerAction :=
  choices.map (.advance process)

/-- A call of the metadata store that succeeds. -/
def stored : Choice :=
  .sql [] ⟨0, 0⟩

/-- The upload and the deletion on connection 1, and then the collector, as far as it has
found the file. -/
def collected (casKey : Bytes) : List ServerAction :=
  .start 1 (.request (putNaming casKey)) :: makes 1 [.done, stored, stored] ++
    .start 1 (.request deleteOfK) :: makes 1 [.done, stored, stored, stored, .done] ++
    .start 0 .processBatch :: makes 0 [.done, stored, .uuid (List.replicate 36 48), .done]

/-- The collector is about to rename a file. -/
def renames (path : Bytes) (pool : ServerPool) : Bool :=
  match pool.running.lookup 0 with
  | some (.call (.atomicRename source _) _) => source == path
  | _ => false

theorem confined_of_renames {setup : Setup} {working : List Bytes} {path : Bytes}
    {pool : ServerPool} (renamed : renames path pool = true)
    (confined : PathsConfined setup working pool) : Confined setup working path := by
  unfold renames at renamed
  split at renamed
  · rename_i source goal rest running
    rw [← eq_of_beq renamed]
    exact confined 0 _ _ running source List.mem_cons_self
  · contradiction

theorem worldKeyed_worldWithFile (path : Bytes) : WorldKeyed plainSetup (worldWithFile path) where
  tables := ⟨by rintro entry row ⟨⟩, by rintro entry row ⟨⟩⟩
  caches := by rintro redis ⟨⟩
  pending := by rintro casKey ⟨⟩
  uploads := by rintro process context ⟨⟩

/-- A check for `KeepsKeys`. -/
def namesValid : ServerAction → Bool
  | .start _ (.request received) =>
      (received.getHeader (ascii "X-Internal-CAS-Key")).isEmpty ||
        isValidCasKey (received.getHeader (ascii "X-Internal-CAS-Key"))
  | _ => true

theorem KeepsKeys.of_check (pool : ServerPool) (action : ServerAction)
    (checked : namesValid action = true) : KeepsKeys pool action := by
  match action with
  | .start process (.request received) =>
      refine .inr fun _ _ _ _ => ?_
      simpa [namesValid, NamesValid] using checked
  | .start process (.bodyData received data) => trivial
  | .start process .close => trivial
  | .start process .processBatch => trivial
  | .advance process choice => trivial

/-- The theorem at a run in which the key is that of a blob. -/
theorem paths_are_confined_sample :
    ∃ target, ReachableUnder (serverNext plainSetup) KeepsKeys
        (idle (worldWithFile (plainSetup.getCasPath (List.replicate 64 97)))) target ∧
      renames (plainSetup.getCasPath (List.replicate 64 97)) target = true ∧
      PathsConfined plainSetup [] target := by
  have performed : (run (fun pool action =>
      if namesValid action then serverNext plainSetup pool action else none)
      (idle (worldWithFile (plainSetup.getCasPath (List.replicate 64 97))))
      (collected (List.replicate 64 97))).any
        (renames (plainSetup.getCasPath (List.replicate 64 97))) = true := by
    decide +kernel
  obtain ⟨target, reachable, final⟩ :=
    exists_reachableUnder_of_run _ KeepsKeys.of_check _ performed
  exact ⟨target, reachable, final,
    paths_are_confined plainSetup [] (worldKeyed_worldWithFile _) reachable⟩

theorem not_confined_etc (working : List Bytes) :
    ¬Confined plainSetup working (ascii "/etc/x.blob") := by
  have notPart : ¬ascii ".part" <:+ ascii "/etc/x.blob" := by decide
  rintro (⟨uuid, -, same | same⟩ | ⟨⟨below, -, leads⟩, -⟩)
  · rw [same] at notPart
    exact notPart (plainSetup.suffix_tmpPath _ _)
  · rw [same] at notPart
    exact notPart (plainSetup.suffix_tmpPath _ _)
  · have components : Path.resolve 47 46 working (ascii "/etc/x.blob") =
        [ascii "etc", ascii "x.blob"] := rfl
    have directory : Path.resolve 47 46 working plainSetup.casDir =
        [ascii "data", ascii "cas"] := rfl
    rw [components, directory] at leads
    exact absurd (List.cons.inj leads).1 (by decide)

/-- A request without a body names the file of a blob outside the directory, and once its
object is deleted the collector renames that file. -/
theorem header_key_leaves_the_directory :
    WorldKeyed plainSetup (worldWithFile (ascii "/etc/x.blob")) ∧
      ∃ target, Reachable (serverNext plainSetup)
          (idle (worldWithFile (ascii "/etc/x.blob"))) target ∧
        ∀ working, ¬PathsConfined plainSetup working target := by
  have performed : (run (serverNext plainSetup) (idle (worldWithFile (ascii "/etc/x.blob")))
      (collected (ascii "/etc/x"))).any (renames (ascii "/etc/x.blob")) = true := by
    decide +kernel
  obtain ⟨target, reachable, final⟩ := exists_reachable_of_run _ performed
  refine ⟨worldKeyed_worldWithFile _, target, reachable, ?_⟩
  intro working confined
  exact not_confined_etc working (confined_of_renames final confined)

end Runs

end MiniS3.Api.Server
