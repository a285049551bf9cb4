import MiniS3.Server.HandlerLogic
import MiniS3.Storage.CasPaths
import MiniS3.Storage.Gc

/-!
# Where blob keys go

Which paths the programs of the server can name, as long as the keys they are given are
valid.  `Careful` follows a program with what is known of the answers: a key that comes
out of a table, a cache or the queue of the collector is valid if all keys that go in are.
A program that is careful names the files of valid keys and temporary files only, and lets
no other key out.
-/

namespace MiniS3

open Lib Db

/-- A key that `IsValidCasKey` accepts. -/
abbrev Valid (casKey : Bytes) : Prop :=
  isValidCasKey casKey = true

/-- The paths that a call opens, looks up, renames or unlinks. -/
def IoOp.paths : IoOp → List Bytes
  | .fileExists path | .removeFile path | .openNew path | .openRead path => [path]
  | .atomicRename source target => [source, target]
  | _ => []

/-- The files of a blob: under its own name, and set aside. -/
inductive FileOf (setup : Setup) (casKey : Bytes) : Bytes → Prop
  | blob : FileOf setup casKey (setup.getCasPath casKey)
  | quarantined {uuid : Bytes} (named : isUuid uuid = true) :
      FileOf setup casKey (setup.quarantinePath casKey uuid)

/-- A temporary file of an upload or of a merge. -/
def Temporary (setup : Setup) (path : Bytes) : Prop :=
  ∃ uuid, isUuid uuid = true ∧
    (path = setup.tmpPath (ascii "upload") uuid ∨ path = setup.tmpPath (ascii "merge") uuid)

/-- The session of an upload writes to a temporary file. -/
def UploadContext.Kept (setup : Setup) (context : UploadContext) : Prop :=
  ∀ session, context.session = some session → Temporary setup session.tmpPath

/-- What a call hands on is valid. -/
def IoOp.Hands (setup : Setup) : IoOp → Prop
  | .metaStore call => call.Stores Valid
  | .addPendingDelete casKey => Valid casKey
  | .storeUpload context => context.Kept setup
  | _ => True

/-- The call names the files of valid keys and temporary files only, and hands on what is
valid. -/
structure IoOp.Permitted (setup : Setup) (op : IoOp) : Prop where
  paths : ∀ path ∈ op.paths, Temporary setup path ∨ ∃ casKey, Valid casKey ∧
    FileOf setup casKey path
  hands : op.Hands setup

/-- What is known of the answer to a call of the connection whose upload is `upload`. -/
def IoOp.Tells (setup : Setup) (upload : Option UploadContext) : (op : IoOp) → op.Ans → Prop
  | .metaStore call, answer => call.Returns Valid answer
  | .generateUuid, answer => isUuid answer = true
  | .takePendingDeletes _, answer => ∀ casKey ∈ answer, Valid casKey
  | .findUpload, answer => answer = upload ∧ ∀ context, upload = some context → context.Kept setup
  | _, _ => True

/-- The upload of the connection after a call of it. -/
def IoOp.uploadAfter (upload : Option UploadContext) : IoOp → Option UploadContext
  | .storeUpload context => some context
  | .eraseUpload => none
  | _ => upload

variable (setup : Setup)

/-- Whatever it is answered, as far as answers tell what they should, the program makes
permitted calls only and finishes with a `result`. -/
def Careful {α : Type} (result : α → Prop) : Option UploadContext → ServerM α → Prop
  | _, .ret value => result value
  | upload, .call op next => op.Permitted setup ∧ ∀ answer, op.Tells setup upload answer →
      Careful result (op.uploadAfter upload) (next answer)

variable {setup}

namespace Careful

variable {α β : Type} {upload : Option UploadContext}

theorem mono {strong weak : α → Prop} {program : ServerM α}
    (careful : Careful setup strong upload program) (implies : ∀ value, strong value → weak value) :
    Careful setup weak upload program := by
  induction program generalizing upload with
  | ret value => exact implies value careful
  | call op next inductionHypothesis =>
      exact ⟨careful.1, fun answer told =>
        inductionHypothesis answer (careful.2 answer told)⟩

/-- The rule of sequencing. -/
theorem bind {middle : α → Prop} {result : β → Prop} {program : ServerM α}
    {rest : α → ServerM β} (careful : Careful setup middle upload program)
    (restCareful : ∀ value later, middle value → Careful setup result later (rest value)) :
    Careful setup result upload (program >>= rest) := by
  induction program generalizing upload with
  | ret value => exact restCareful value upload careful
  | call op next inductionHypothesis =>
      exact ⟨careful.1, fun answer told =>
        inductionHypothesis answer (careful.2 answer told)⟩

end Careful

/-! ## Paths -/

/-- The key of a blob can be read off each of its files. -/
theorem FileOf.unique {first second path : Bytes} (firstValid : Valid first)
    (secondValid : Valid second) (one : FileOf setup first path)
    (two : FileOf setup second path) : first = second := by
  have firstLength := (isValidCasKey_iff.mp firstValid).1
  have secondLength := (isValidCasKey_iff.mp secondValid).1
  cases one with
  | blob =>
      generalize same : setup.getCasPath first = path at two
      cases two with
      | blob => exact setup.getCasPath_injective firstLength secondLength same
      | quarantined named => exact absurd same.symm (setup.quarantinePath_ne_getCasPath named)
  | quarantined named =>
      rename_i uuid
      generalize same : setup.quarantinePath first uuid = path at two
      cases two with
      | blob => exact absurd same (setup.quarantinePath_ne_getCasPath named)
      | quarantined otherNamed =>
          rename_i other
          simp only [isUuid, Bool.and_eq_true, beq_iff_eq] at named otherNamed
          have fronts := List.append_inj_left' same (by rw [named.1, otherNamed.1])
          exact setup.getCasPath_injective firstLength secondLength
            (List.append_cancel_right fronts)

/-- The path is that of a temporary file, or it is below the directory of all blobs and
belongs to one key. -/
def Confined (setup : Setup) (working : List Bytes) (path : Bytes) : Prop :=
  Temporary setup path ∨ Inside working setup.casDir path ∧
    ∃! casKey, Valid casKey ∧ FileOf setup casKey path

theorem FileOf.inside {casKey path : Bytes} (file : FileOf setup casKey path)
    (valid : Valid casKey) (working : List Bytes) : Inside working setup.casDir path := by
  cases file with
  | blob => exact Setup.inside_getCasPath valid working
  | quarantined named => exact Setup.inside_quarantinePath valid working named

theorem IoOp.Permitted.confined {op : IoOp} (permitted : op.Permitted setup)
    (working : List Bytes) : ∀ path ∈ op.paths, Confined setup working path := by
  intro path member
  rcases permitted.paths path member with temporary | ⟨casKey, valid, file⟩
  · exact .inl temporary
  · refine .inr ⟨file.inside valid working, casKey, ⟨valid, file⟩, ?_⟩
    rintro other ⟨otherValid, otherFile⟩
    exact otherFile.unique otherValid valid file

/-! ## Calls without keys -/

/-- Calls that name no path and hand on no key. -/
def IoOp.Keyless : IoOp → Prop
  | .metaStore (.putObjectWithRefCount _ _ _ _ _ _) => False
  | .metaStore (.putPartWithRefCount _ _ _ _ _) => False
  | .fileExists _ | .removeFile _ | .openNew _ | .openRead _ | .atomicRename _ _ => False
  | .addPendingDelete _ | .storeUpload _ => False
  | _ => True

theorem IoOp.Keyless.permitted {op : IoOp} (keyless : op.Keyless) : op.Permitted setup := by
  cases op with
  | metaStore call =>
      refine ⟨by simp [IoOp.paths], ?_⟩
      cases call <;> first | exact trivial | exact keyless.elim
  | fileExists | removeFile | openNew | openRead | atomicRename | addPendingDelete
  | storeUpload => exact keyless.elim
  | _ => exact ⟨by simp [IoOp.paths], trivial⟩

/-- A program of such calls; how it ran is known as well. -/
theorem careful_of_keyless {α : Type} {result : α → Prop} {program : ServerM α}
    {upload : Option UploadContext}
    (only : Program.Only IoOp.Keyless result program) :
    Careful setup (fun value => result value ∧ ∃ events, Program.Runs program events value)
      upload program := by
  induction program generalizing upload with
  | ret value => exact ⟨only, [], .ret value⟩
  | call op next inductionHypothesis =>
      refine ⟨only.1.permitted, fun answer _ => ?_⟩
      refine (inductionHypothesis answer (only.2 answer)).mono ?_
      rintro value ⟨holds, events, runs⟩
      exact ⟨holds, _, .call runs⟩

/-- A call that neither names a path nor hands on a key. -/
theorem careful_call {α : Type} {result : α → Prop} {upload : Option UploadContext} {op : IoOp}
    {next : op.Ans → ServerM α} (keyless : op.Keyless)
    (rest : ∀ answer, op.Tells setup upload answer →
      Careful setup result (op.uploadAfter upload) (next answer)) :
    Careful setup result upload (.call op next) :=
  ⟨keyless.permitted, rest⟩

/-! ## Calls on files -/

theorem permitted_openNew {path : Bytes} (temporary : Temporary setup path) :
    (IoOp.openNew path).Permitted setup :=
  ⟨by simp [IoOp.paths, temporary], trivial⟩

theorem permitted_removeTmp {path : Bytes} (temporary : Temporary setup path) :
    (IoOp.removeFile path).Permitted setup :=
  ⟨by simp [IoOp.paths, temporary], trivial⟩

theorem permitted_removeFile {casKey path : Bytes} (valid : Valid casKey)
    (file : FileOf setup casKey path) : (IoOp.removeFile path).Permitted setup := by
  refine ⟨?_, trivial⟩
  intro other member
  rw [List.mem_singleton.mp member]
  exact .inr ⟨casKey, valid, file⟩

theorem permitted_fileExists {casKey : Bytes} (valid : Valid casKey) :
    (IoOp.fileExists (setup.getCasPath casKey)).Permitted setup := by
  refine ⟨?_, trivial⟩
  intro other member
  rw [List.mem_singleton.mp member]
  exact .inr ⟨casKey, valid, .blob⟩

theorem permitted_openRead {casKey path : Bytes} (valid : Valid casKey)
    (file : FileOf setup casKey path) : (IoOp.openRead path).Permitted setup := by
  refine ⟨?_, trivial⟩
  intro other member
  rw [List.mem_singleton.mp member]
  exact .inr ⟨casKey, valid, file⟩

theorem permitted_place {casKey path : Bytes} (valid : Valid casKey)
    (temporary : Temporary setup path) :
    (IoOp.atomicRename path (setup.getCasPath casKey)).Permitted setup := by
  refine ⟨?_, trivial⟩
  intro other member
  rcases List.mem_cons.mp member with rfl | member
  · exact .inl temporary
  · rw [List.mem_singleton.mp member]
    exact .inr ⟨casKey, valid, .blob⟩

theorem permitted_rename {casKey source target : Bytes} (valid : Valid casKey)
    (first : FileOf setup casKey source) (second : FileOf setup casKey target) :
    (IoOp.atomicRename source target).Permitted setup := by
  refine ⟨?_, trivial⟩
  intro other member
  rcases List.mem_cons.mp member with rfl | member
  · exact .inr ⟨casKey, valid, first⟩
  · rw [List.mem_singleton.mp member]
    exact .inr ⟨casKey, valid, second⟩

/-! ## The blob store -/

namespace DataStore

variable {upload : Option UploadContext}

/-- A result that is a valid key, if it is one. -/
def ReturnsValid (result : Result Bytes) : Prop :=
  ∀ casKey, result = .ok casKey → Valid casKey

theorem careful_writeAll (path : Bytes) (calls : Nat) (data : Bytes) :
    Program.Only IoOp.Keyless (fun _ => True) (writeAll path calls data) := by
  induction calls generalizing data with
  | zero => cases data <;> trivial
  | succ calls inductionHypothesis =>
      cases data with
      | nil => trivial
      | cons byte data =>
          refine ⟨trivial, fun answer => ?_⟩
          cases answer with
          | error text => trivial
          | ok length => exact inductionHypothesis _

theorem careful_beginWrite :
    Careful setup (fun result => ∀ session, result = .ok session →
      Temporary setup session.tmpPath) upload (beginWrite setup) := by
  refine ⟨IoOp.Keyless.permitted trivial, fun uuid named => ?_⟩
  have temporary : Temporary setup (setup.tmpPath (ascii "upload") uuid) :=
    ⟨uuid, named, .inl rfl⟩
  refine ⟨permitted_openNew temporary, fun answer _ => ?_⟩
  cases answer with
  | error text => rintro session ⟨⟩
  | ok =>
      rintro session ⟨⟩
      exact temporary

theorem careful_place {tmpPath casKey : Bytes} (temporary : Temporary setup tmpPath)
    (valid : Valid casKey) :
    Careful setup ReturnsValid upload (place setup tmpPath casKey) := by
  have done : ReturnsValid (.ok casKey) := by
    rintro other ⟨⟩
    exact valid
  have failed : ∀ status, ReturnsValid (.error status) := by
    rintro status other ⟨⟩
  refine ⟨permitted_fileExists valid, fun present _ => ?_⟩
  cases present with
  | true => exact ⟨permitted_removeTmp temporary, fun _ _ => done⟩
  | false =>
      refine ⟨IoOp.Keyless.permitted trivial, fun created _ => ?_⟩
      cases created with
      | error text => exact ⟨permitted_removeTmp temporary, fun _ _ => failed _⟩
      | ok =>
          refine ⟨permitted_place valid temporary, fun renamed _ => ?_⟩
          cases renamed with
          | error text => exact ⟨permitted_removeTmp temporary, fun _ _ => failed _⟩
          | ok => exact done

theorem careful_commitWrite {session : WriteSession}
    (temporary : Temporary setup session.tmpPath) (expectedSha256 : Bytes) :
    Careful setup ReturnsValid upload (commitWrite setup session expectedSha256) := by
  unfold commitWrite
  dsimp only
  split
  · refine ⟨permitted_removeTmp temporary, fun _ _ => ?_⟩
    rintro casKey ⟨⟩
  · exact careful_place temporary (setup.isValidCasKey_sha256Hex _)

theorem careful_sessionWrite (data : Bytes) (session : WriteSession) :
    Careful setup (fun result => ∀ after, result = .ok after → after.tmpPath = session.tmpPath)
      upload (session.write data) := by
  refine (careful_of_keyless (careful_writeAll session.tmpPath data.length data)).bind ?_
  rintro written later -
  cases written with
  | error text => rintro after ⟨⟩
  | ok =>
      rintro after ⟨⟩
      rfl

theorem careful_write (data : Bytes) :
    Careful setup ReturnsValid upload (write setup data) := by
  refine careful_beginWrite.bind fun result later temporary => ?_
  cases result with
  | error status => rintro casKey ⟨⟩
  | ok session =>
      refine (careful_sessionWrite data session).bind fun written last same => ?_
      cases written with
      | error status =>
          refine ⟨permitted_removeTmp (temporary session rfl), fun _ _ => ?_⟩
          rintro casKey ⟨⟩
      | ok after =>
          refine careful_commitWrite ?_ []
          rw [same after rfl]
          exact temporary session rfl

theorem careful_copyRest {tmpPath : Bytes} (temporary : Temporary setup tmpPath) (calls : Nat)
    (rest hashed : Bytes) :
    Careful setup (fun _ => True) upload (copyRest tmpPath calls rest hashed) := by
  induction calls generalizing rest hashed upload with
  | zero => trivial
  | succ calls inductionHypothesis =>
      refine ⟨IoOp.Keyless.permitted trivial, fun answer _ => ?_⟩
      match answer with
      | .error text => exact ⟨permitted_removeTmp temporary, fun _ _ => trivial⟩
      | .ok 0 => trivial
      | .ok (length + 1) =>
          refine (careful_of_keyless (careful_writeAll _ _ _)).bind ?_
          rintro written later -
          cases written with
          | error text => exact ⟨permitted_removeTmp temporary, fun _ _ => trivial⟩
          | ok => exact inductionHypothesis _ _

theorem careful_copyAll {tmpPath : Bytes} (temporary : Temporary setup tmpPath)
    {casKeys : List Bytes} (valid : ∀ casKey ∈ casKeys, Valid casKey) (hashed : Bytes) :
    Careful setup (fun _ => True) upload (copyAll setup tmpPath casKeys hashed) := by
  induction casKeys generalizing hashed upload with
  | nil => trivial
  | cons casKey casKeys inductionHypothesis =>
      refine ⟨permitted_openRead (valid casKey List.mem_cons_self) .blob, fun content _ => ?_⟩
      cases content with
      | none => exact ⟨permitted_removeTmp temporary, fun _ _ => trivial⟩
      | some content =>
          refine (careful_copyRest temporary _ _ _).bind ?_
          rintro copied later -
          cases copied with
          | error status => trivial
          | ok hashed =>
              exact inductionHypothesis
                (fun other member => valid other (List.mem_cons_of_mem _ member)) hashed

theorem careful_merge {casKeys : List Bytes} (valid : ∀ casKey ∈ casKeys, Valid casKey) :
    Careful setup ReturnsValid upload (merge setup casKeys) := by
  unfold merge
  split
  · rintro casKey ⟨⟩
  · refine ⟨IoOp.Keyless.permitted trivial, fun uuid named => ?_⟩
    have temporary : Temporary setup (setup.tmpPath (ascii "merge") uuid) :=
      ⟨uuid, named, .inr rfl⟩
    refine ⟨permitted_openNew temporary, fun opened _ => ?_⟩
    cases opened with
    | error text => rintro casKey ⟨⟩
    | ok =>
        refine (careful_copyAll temporary valid []).bind ?_
        rintro copied later -
        cases copied with
        | error status => rintro casKey ⟨⟩
        | ok hashed => exact careful_place temporary (setup.isValidCasKey_sha256Hex _)

end DataStore

/-! ## The collector -/

namespace GarbageCollector

variable {upload : Option UploadContext}

theorem careful_deleteCallback (casKey : Bytes) (success : Bool) {rest : ServerM Unit}
    (restCareful : Careful setup (fun _ => True) upload rest) :
    Careful setup (fun _ => True) upload (deleteCallback casKey success rest) := by
  unfold deleteCallback
  split
  · refine ⟨IoOp.Keyless.permitted trivial, fun answer _ => ?_⟩
    match answer with
    | .ok true => exact ⟨IoOp.Keyless.permitted trivial, fun _ _ => restCareful⟩
    | .ok false => exact restCareful
    | .error status => exact restCareful
  · exact restCareful

theorem careful_recheck {casKey uuid : Bytes} (valid : Valid casKey)
    (named : isUuid uuid = true) (renamed : Bool) {rest : ServerM Unit}
    (restCareful : Careful setup (fun _ => True) upload rest) :
    Careful setup (fun _ => True) upload (recheck setup casKey uuid renamed rest) := by
  have restored : Careful setup (fun _ => True) upload
      (if renamed then do
        let _ ← perform (.atomicRename (setup.quarantinePath casKey uuid)
          (setup.getCasPath casKey))
        rest
      else rest) := by
    split
    · exact ⟨permitted_rename valid (.quarantined named) .blob, fun _ _ => restCareful⟩
    · exact restCareful
  refine ⟨IoOp.Keyless.permitted trivial, fun answer _ => ?_⟩
  match answer with
  | .ok true =>
      change Careful _ _ _ (if renamed then _ else _)
      split
      · exact ⟨permitted_removeFile valid (.quarantined named),
          fun _ _ => careful_deleteCallback casKey _ restCareful⟩
      · exact careful_deleteCallback casKey _ restCareful
  | .ok false => exact restored
  | .error status => exact restored

theorem careful_processKeys {casKeys : List Bytes} (valid : ∀ casKey ∈ casKeys, Valid casKey) :
    Careful setup (fun _ => True) upload (processKeys setup casKeys) := by
  induction casKeys with
  | nil => trivial
  | cons casKey casKeys inductionHypothesis =>
      have rest := inductionHypothesis fun other member =>
        valid other (List.mem_cons_of_mem _ member)
      have own := valid casKey List.mem_cons_self
      refine ⟨IoOp.Keyless.permitted trivial, fun answer _ => ?_⟩
      match answer with
      | .error status => exact rest
      | .ok false => exact rest
      | .ok true =>
          refine ⟨IoOp.Keyless.permitted trivial, fun uuid named => ?_⟩
          refine ⟨permitted_fileExists own, fun present _ => ?_⟩
          cases present with
          | false => exact careful_recheck own named false rest
          | true =>
              refine ⟨permitted_rename own .blob (.quarantined named), fun renamed _ => ?_⟩
              cases renamed with
              | error text => exact rest
              | ok => exact careful_recheck own named true rest

theorem careful_processBatch :
    Careful setup (fun _ => True) upload (processBatch setup) :=
  ⟨IoOp.Keyless.permitted trivial, fun _ valid => careful_processKeys valid⟩

end GarbageCollector

/-! ## Handlers -/

namespace Api

open Net

theorem permitted_inner {op : IoOp} (inner : op.Inner) (gives : op.Gives Valid) :
    op.Permitted setup := by
  cases op with
  | metaStore call => exact ⟨by simp [IoOp.paths], gives⟩
  | addPendingDelete casKey => exact ⟨by simp [IoOp.paths], gives⟩
  | generateUuid | now | createdAt | exportMetrics => exact ⟨by simp [IoOp.paths], trivial⟩
  | _ => exact inner.elim

theorem returns_of_tells {op : IoOp} {later : Option UploadContext} {answer : op.Ans}
    (told : op.Tells setup later answer) : op.Returns Valid answer := by
  cases op with
  | metaStore call => exact told
  | _ => trivial

/-- The care of handlers, which do not look at the upload of their connection. -/
def carefulLogic (setup : Setup) : HandlerLogic setup Valid where
  Holds result program := ∀ upload, Careful setup result upload program
  ret holds _ := holds
  bind first rest upload := (first upload).bind fun value later holds => rest value holds later
  call inner gives rest _ :=
    ⟨permitted_inner inner gives, fun answer told => rest answer (returns_of_tells told) _⟩
  digest := setup.isValidCasKey_sha256Hex
  blobExists valid _ := ⟨permitted_fileExists valid, fun _ _ => trivial⟩
  delete valid _ := ⟨permitted_removeFile valid .blob, fun _ _ => trivial⟩
  write data _ := DataStore.careful_write data
  merge valid _ := DataStore.careful_merge valid

variable {upload : Option UploadContext}

/-- The request names no blob, or one with a valid key. -/
def NamesValid (request : HttpRequest) : Prop :=
  request.getHeader (ascii "X-Internal-CAS-Key") = [] ∨
    Valid (request.getHeader (ascii "X-Internal-CAS-Key"))

/-! ## The server -/

namespace Server

/-- If the route of a request is that of an upload, it names no blob or a valid key. -/
def RoutesValid (request : HttpRequest) : Prop :=
  ∀ endpoint params, findRoute routes request.method request.path = some (endpoint, params) →
    endpoint.uploads = true → NamesValid request

theorem careful_respond {request : HttpRequest} (named : RoutesValid request) :
    Careful setup (fun handled => SendsBlob setup Valid handled.1) upload
      (respond setup request) :=
  (carefulLogic setup).holds_respond named upload

/-- The body of the request was streamed to a session. -/
def Streamed (upload : Option UploadContext) : Prop :=
  ∃ context, upload = some context ∧ context.session.isSome = true ∧ context.streaming = true

theorem namesValid_withContent {casKey : Bytes} (valid : Valid casKey) (size : Nat)
    (request : HttpRequest) : NamesValid (withContent casKey size request) := by
  refine .inr ?_
  unfold withContent
  rw [HttpRequest.getHeader_setHeader_ne _ _ (by decide), HttpRequest.getHeader_setHeader_self]
  exact valid

/-- A request whose body was streamed gets its key from the digest, whatever its headers
name. -/
theorem careful_onRequest {request : HttpRequest}
    (named : Streamed upload ∨ RoutesValid request) :
    Careful setup (fun handled => SendsBlob setup Valid handled.1) upload
      (onRequest setup request) := by
  refine careful_call trivial ?_
  rintro found ⟨rfl, kept⟩
  cases found with
  | none =>
      refine careful_respond (named.resolve_left ?_)
      rintro ⟨context, ⟨⟩, -⟩
  | some context =>
      refine careful_call trivial fun _ _ => ?_
      have keeps := kept context rfl
      cases isSession : context.session with
      | none =>
          refine careful_respond (named.resolve_left ?_)
          rintro ⟨_, ⟨⟩, isSome, -⟩
          simp [isSession] at isSome
      | some session =>
          have temporary := keeps session isSession
          cases streaming : context.streaming with
          | true =>
              refine (DataStore.careful_commitWrite temporary _).bind fun result later valid => ?_
              cases result with
              | error status => exact sendsBlob_map fun _ => rfl
              | ok casKey =>
                  refine careful_respond fun endpoint params _ _ => ?_
                  exact namesValid_withContent (valid casKey rfl) _ _
          | false =>
              refine ⟨permitted_removeTmp temporary, fun _ _ => ?_⟩
              refine careful_respond (named.resolve_left ?_)
              rintro ⟨_, ⟨⟩, -, isStreaming⟩
              simp [streaming] at isStreaming

theorem careful_writeUpload {context : UploadContext} (kept : context.Kept setup)
    (request : HttpRequest) (data : Bytes) :
    Careful setup (fun _ => True) upload (writeUpload setup request context data) := by
  unfold writeUpload
  split
  · trivial
  · rename_i session isSession
    refine (DataStore.careful_sessionWrite data session).bind fun result later same => ?_
    cases result with
    | error status => trivial
    | ok after =>
        refine ⟨⟨by simp [IoOp.paths], ?_⟩, fun _ _ => trivial⟩
        rintro written ⟨⟩
        rw [same after rfl]
        exact kept session isSession

theorem careful_onBodyData (request : HttpRequest) (data : Bytes) :
    Careful setup (fun _ => True) upload (onBodyData setup request data) := by
  unfold onBodyData
  split
  · trivial
  · refine careful_call trivial ?_
    rintro found ⟨rfl, kept⟩
    simp only [Program.bind]
    split
    · rename_i context streaming
      exact careful_writeUpload (kept context (Option.filter_eq_some_iff.mp streaming).1) _ _
    · refine DataStore.careful_beginWrite.bind fun result later temporary => ?_
      cases result with
      | error status =>
          refine ⟨⟨by simp [IoOp.paths], ?_⟩, fun _ _ => trivial⟩
          rintro session ⟨⟩
      | ok session =>
          have begun : UploadContext.Kept setup
              ⟨some session, request.getHeader (ascii "X-Content-SHA256"), 0, true⟩ := by
            rintro other ⟨⟩
            exact temporary session rfl
          exact ⟨⟨by simp [IoOp.paths], begun⟩, fun _ _ => careful_writeUpload begun _ _⟩

theorem careful_onConnectionClose :
    Careful setup (fun _ => True) upload onConnectionClose := by
  refine careful_call trivial ?_
  rintro found ⟨rfl, kept⟩
  cases found with
  | none => trivial
  | some context =>
      refine careful_call trivial fun _ _ => ?_
      cases isSession : context.session with
      | none => trivial
      | some session => exact ⟨permitted_removeTmp (kept context rfl session isSession),
          fun _ _ => trivial⟩

end Server

end Api

end MiniS3
