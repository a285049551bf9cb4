import MiniS3.Db.Surplus
import MiniS3.Service.Services

/-!
# What the calls of a service do

One rule for each function of the metadata store that the services call, for runs in which every
statement succeeds: the tables after it.  The part of a call that stores or merges contents leaves
the tables and the caches alone, and looking an object up changes the cache, but not what is found
there.
-/

namespace MiniS3

open Lib Db

namespace Service

/-- What `GetObject` finds in a world. -/
def found (setup : Setup) (bucketId : Int) (key : Bytes) (world : World) : Option ObjectInfo :=
  world.tables.foundObject setup.indexed bucketId key world.caches

/-- The caches answer alike on these tables. -/
def AnswerAlike (indexed : Bytes → Bytes) (tables : Tables) (before after : Caches) : Prop :=
  ∀ bucketId key, tables.foundObject indexed bucketId key after =
    tables.foundObject indexed bucketId key before

/-! ## Looking an object up -/

section Lookup

variable {indexed : Bytes → Bytes} {tables : Tables} {caches : Caches} {bucketId : Int}
variable {key : Bytes}

/-- An entry without a blob is as good as none. -/
theorem answerAlike_redisDel
    (missed : (caches.redis.bind fun redis => redis.lookup (bucketId, key)).filter
      (fun info => !info.sha256Hash.isEmpty) = none) :
    AnswerAlike indexed tables caches
      { caches with redis := caches.redis.map fun redis => redis.erase (bucketId, key) } := by
  intro otherBucket other
  unfold Tables.foundObject
  cases enabled : caches.redis with
  | none => rfl
  | some redis =>
      by_cases same : (otherBucket, other) = (bucketId, key)
      · rw [enabled] at missed
        rw [same]
        rw [Option.map_some, Option.bind_some, Option.bind_some, Table.lookup_erase_self]
        rw [Option.bind_some] at missed
        rw [missed, Option.filter_none]
      · rw [Option.map_some, Option.bind_some, Option.bind_some, Table.lookup_erase_ne _ same]

/-- Filling the cache with a row that is not in it. -/
theorem answerAlike_redisSetEx {row : ObjectRow}
    (stored : tables.findObject indexed bucketId key = some row)
    (missed : (caches.redis.bind fun redis => redis.lookup (bucketId, key)).filter
      (fun info => !info.sha256Hash.isEmpty) = none) :
    AnswerAlike indexed tables caches
      { caches with
        redis := caches.redis.map fun redis => redis.set (bucketId, key) (row.read bucketId) } := by
  intro otherBucket other
  unfold Tables.foundObject
  cases enabled : caches.redis with
  | none => rfl
  | some redis =>
      rw [enabled, Option.bind_some] at missed
      rw [Option.map_some, Option.bind_some, Option.bind_some]
      by_cases same : (otherBucket, other) = (bucketId, key)
      · cases same
        rw [missed, Table.lookup_set_self, stored]
        cases empty : row.casKey.isEmpty <;> simp [Option.filter, ObjectRow.read, empty]
      · rw [Table.lookup_set_ne _ _ same]

theorem yields_fromDatabase {tried : Caches}
    (missed : (tried.redis.bind fun redis => redis.lookup (bucketId, key)).filter
      (fun info => !info.sha256Hash.isEmpty) = none)
    (alike : AnswerAlike indexed tables caches tried) :
    Yields False (fun _ _ after => AnswerAlike indexed tables caches after)
      (MetaStore.getObject.fromDatabase bucketId key : MetaM indexed _) tables none tried := by
  constructor
  · intro err failed
    exact alike
  · rintro found writes ⟨⟩
    simp only [Option.getD_none]
    cases stored : tables.findObject indexed bucketId key with
    | none => exact alike
    | some row =>
        intro clock otherBucket other
        exact (answerAlike_redisSetEx stored missed otherBucket other).trans
          (alike otherBucket other)

/-- Looking an object up does not change what is found. -/
theorem yields_getObject_alike :
    Yields False (fun _ _ after => AnswerAlike indexed tables caches after)
      ((MetaCall.getObject bucketId key).code indexed) tables none caches := by
  intro clock
  simp only [Caches.answer]
  cases cached : caches.redis.bind fun redis => redis.lookup (bucketId, key) with
  | none =>
      apply yields_fromDatabase
      · rw [cached]
        rfl
      · exact fun _ _ => rfl
  | some info =>
      change Yields False _ (if info.sha256Hash.isEmpty then _ else _) tables none caches
      by_cases empty : info.sha256Hash.isEmpty = true
      · have missed : (caches.redis.bind fun redis => redis.lookup (bucketId, key)).filter
            (fun info => !info.sha256Hash.isEmpty) = none := by
          rw [cached]
          simpa using empty
        rw [if_pos empty]
        intro clock
        apply yields_fromDatabase
        · cases enabled : caches.redis with
          | none =>
              simp [Caches.answer, enabled]
          | some redis =>
              simp [Caches.answer, enabled]
        · exact answerAlike_redisDel missed
      · rw [if_neg empty]
        exact fun _ _ => rfl

end Lookup

/-! ## The rules -/

section Rules

variable {setup : Setup} {process shownId : Nat} {α β : Type} {post : α → World → Prop}
variable {world : World}

/-- Every execution of the program ends in `post`. -/
abbrev Serves (setup : Setup) (process shownId : Nat) {α : Type} (post : α → World → Prop)
    (program : ServiceM α) (world : World) : Prop :=
  Program.Ensures (serviceAnswer setup process shownId) (fun _ => True) post program world

/-- A statement, by the images it writes. -/
theorem serves_send {stmt : PlainStmt} {next : Except SqlError stmt.Ans → ServiceM α}
    (continues : ∀ answered writes,
      stmt.eval setup.indexed shownId world.tables = .ok (answered, writes) →
      Serves setup process shownId post (next (.ok answered))
        { world with tables := world.tables.applyAll writes }) :
    Serves setup process shownId post (send stmt >>= next) world := by
  intro choice answered after _ step
  cases choice <;> simp only [serviceAnswer, reduceCtorEq] at step
  cases evaluated : stmt.eval setup.indexed shownId world.tables with
  | error err =>
      rw [evaluated] at step
      cases step
  | ok done =>
      rcases done with ⟨shown, writes⟩
      rw [evaluated] at step
      cases step
      exact continues shown writes evaluated

/-- A call of the metadata store that a handler makes too, by its effect. -/
theorem serves_metaCall {call : MetaCall} {next : call.Ans → ServiceM α}
    (continues : ∀ answered tables caches,
      call.Effect setup.indexed False world.tables world.caches answered tables caches →
      Serves setup process shownId post (next answered) { world with tables, caches }) :
    Serves setup process shownId post (metaCall call >>= next) world := by
  intro choice answered after _ step
  simp only [serviceAnswer, Option.ite_none_right_eq_some] at step
  rcases step with ⟨noFault, step⟩
  rcases answer_metaStore step with ⟨faults, clock, rfl, same, effect⟩
  rw [same]
  exact continues answered _ _ (effect False (.inr (List.isEmpty_iff.mp noFault)))

theorem serves_registerCasBlob {sha256Hash : Bytes} {size : Int}
    {next : Result Unit → ServiceM α}
    (continues : Serves setup process shownId post (next (.ok ()))
      { world with tables := world.tables.gain sha256Hash size }) :
    Serves setup process shownId post (registerCasBlob sha256Hash size >>= next) world := by
  unfold registerCasBlob
  rw [Program.bind_assoc]
  apply serves_send
  rintro answered writes ⟨⟩
  exact continues

theorem serves_decrementRefCount {sha256Hash : Bytes} {next : Result Unit → ServiceM α}
    (continues : ∀ answered, Serves setup process shownId post (next answered)
      { world with tables := world.tables.lose sha256Hash }) :
    Serves setup process shownId post (decrementRefCount sha256Hash >>= next) world := by
  unfold decrementRefCount
  rw [Program.bind_assoc]
  apply serves_send
  intro answered writes evaluated
  have written : world.tables.applyAll writes = world.tables.lose sha256Hash := by
    cases stored : world.tables.casBlobs.lookup sha256Hash <;>
      rw [PlainStmt.eval, stored] at evaluated <;> cases evaluated <;> simp [Tables.lose, stored]
  rw [written]
  exact continues _

/-- A counter is raised if its blob has a row. -/
theorem serves_incrementRefCount {sha256Hash : Bytes} {next : Result Unit → ServiceM α}
    (registered : (world.tables.casBlobs.lookup sha256Hash).isSome = true)
    (continues : ∀ answered, Serves setup process shownId post (next answered)
      { world with tables := world.tables.gain sha256Hash 0 }) :
    Serves setup process shownId post (incrementRefCount sha256Hash >>= next) world := by
  unfold incrementRefCount
  rw [Program.bind_assoc]
  apply serves_send
  intro answered writes evaluated
  have written : world.tables.applyAll writes = world.tables.gain sha256Hash 0 := by
    rcases Option.isSome_iff_exists.mp registered with ⟨row, stored⟩
    rw [PlainStmt.eval, stored] at evaluated
    cases evaluated
    simp [Tables.gain, CasBlobRow.incremented, stored]
  rw [written]
  exact continues _

/-- The tables after the upsert of an object. -/
def upserted (setup : Setup) (bucketId : Int) (row : ObjectRow) (tables : Tables) : Tables :=
  tables.apply (.object (bucketId, setup.indexed row.objectKey)
    (some (tables.upserted (bucketId, setup.indexed row.objectKey) row)))

/-- The row of another key is in the way, and its id is not shown. -/
def Hidden (setup : Setup) (shownId : Nat) (bucketId : Int) (key : Bytes) (tables : Tables) :
    Prop :=
  shownId = 0 ∧
    ∃ row, tables.objects.lookup (bucketId, setup.indexed key) = some row ∧ row.objectKey ≠ key

instance (setup : Setup) (shownId : Nat) (bucketId : Int) (key : Bytes) (tables : Tables) :
    Decidable (Hidden setup shownId bucketId key tables) :=
  decidable_of_iff (shownId = 0 ∧ (tables.objects.lookup (bucketId, setup.indexed key)).any
    (fun row => row.objectKey ≠ key) = true) (by simp [Hidden, Option.any_eq_true])

/-- The upsert of an object that succeeds: its blob has a row, and the id of a new row is
shown. -/
theorem upsertObject_succeeds {bucketId : Int} {row : ObjectRow} {tables : Tables}
    {insertId : Nat} {writes : List Write}
    (evaluated : (PlainStmt.upsertObject bucketId row).eval setup.indexed shownId tables =
      .ok (insertId, writes)) :
    (tables.casBlobs.lookup row.casKey).isSome = true ∧
      tables.applyAll writes = upserted setup bucketId row tables ∧
      (insertId = 0 ↔ shownId = 0 ∧
        (tables.objects.lookup (bucketId, setup.indexed row.objectKey)).isSome = true) := by
  unfold PlainStmt.eval at evaluated
  dsimp only at evaluated
  cases sent : (Stmt.upsertObject bucketId row).eval setup.indexed tables with
  | error err =>
      rw [sent] at evaluated
      cases evaluated
  | ok done =>
      rcases done with ⟨answered, written⟩
      rw [sent] at evaluated
      simp only [Except.map, Except.ok.injEq, Prod.mk.injEq] at evaluated
      rcases evaluated with ⟨shown, rfl⟩
      refine ⟨?_, ?_, ?_⟩
      · simp only [Stmt.eval] at sent
        cases blob : tables.casBlobs.lookup row.casKey with
        | some blobRow => rfl
        | none =>
            rw [blob] at sent
            cases atEntry : tables.objects.lookup (bucketId, setup.indexed row.objectKey) <;>
              simp [atEntry] at sent
      · rw [upsertObject_eval sent]
        rfl
      · rw [← shown]
        split
        · rename_i present
          rw [and_iff_left present]
        · rename_i absent
          constructor
          · rintro ⟨⟩
          · rintro ⟨-, present⟩
            exact absurd present absent

/-- The upsert of an object needs the row of its blob, and reports an error when the id of the
row is not shown and the row has another key. -/
theorem serves_putObject {bucketId : Int} {key : Bytes} {size : Int}
    {etag contentType sha256Hash : Bytes} {next : Result Unit → ServiceM α}
    (stored : (world.tables.casBlobs.lookup sha256Hash).isSome = true →
      ¬Hidden setup shownId bucketId key world.tables →
      Serves setup process shownId post (next (.ok ()))
        { world with
          tables := upserted setup bucketId ⟨key, sha256Hash, size, contentType, etag⟩
            world.tables })
    (hidden : Hidden setup shownId bucketId key world.tables → ∀ status,
      Serves setup process shownId post (next (.error status))
        { world with
          tables := upserted setup bucketId ⟨key, sha256Hash, size, contentType, etag⟩
            world.tables }) :
    Serves setup process shownId post
      (putObject bucketId key size etag contentType sha256Hash >>= next) world := by
  unfold putObject
  rw [Program.bind_assoc]
  apply serves_send
  intro insertId writes evaluated
  rcases upsertObject_succeeds evaluated with ⟨registered, written, zero⟩
  rw [written]
  dsimp only at zero ⊢
  split
  · rename_i shown
    apply stored registered
    rintro ⟨notShown, row, present, -⟩
    exact shown (zero.mpr ⟨notShown, by rw [present]; rfl⟩)
  · rename_i notShown
    rw [ne_eq, not_not] at notShown
    rcases zero.mp notShown with ⟨noId, present⟩
    rcases Option.isSome_iff_exists.mp present with ⟨row, lookup⟩
    rw [Program.bind_assoc]
    apply serves_send
    rintro found selected ⟨⟩
    have kept : (upserted setup bucketId ⟨key, sha256Hash, size, contentType, etag⟩
        world.tables).findObject setup.indexed bucketId key =
          if row.objectKey = key then
            some ⟨row.objectKey, sha256Hash, size, contentType, etag⟩ else none := by
      unfold Tables.findObject upserted
      rw [Tables.apply, lookup_put_self]
      simp only [Tables.upserted, lookup, Option.elim_some, Option.filter_some,
        decide_eq_true_eq]
    rw [kept]
    by_cases sameKey : row.objectKey = key
    · rw [if_pos sameKey]
      apply stored registered
      rintro ⟨-, other, isOther, different⟩
      rw [lookup] at isOther
      cases isOther
      exact different sameKey
    · rw [if_neg sameKey]
      exact hidden ⟨noId, row, lookup, sameKey⟩ _

theorem serves_deleteObject {bucketId : Int} {key : Bytes} {next : Result Unit → ServiceM α}
    (absent : world.tables.findObject setup.indexed bucketId key = none → ∀ status,
      Serves setup process shownId post (next (.error status)) world)
    (removed : ∀ row, world.tables.findObject setup.indexed bucketId key = some row →
      Serves setup process shownId post (next (.ok ()))
        { world with
          tables := world.tables.apply (.object (bucketId, setup.indexed key) none) }) :
    Serves setup process shownId post (deleteObject bucketId key >>= next) world := by
  unfold deleteObject
  rw [Program.bind_assoc]
  apply serves_send
  intro affected writes evaluated
  cases stored : world.tables.findObject setup.indexed bucketId key with
  | none =>
      rw [PlainStmt.eval, Stmt.eval, stored] at evaluated
      cases evaluated
      exact absent stored _
  | some row =>
      rw [PlainStmt.eval, Stmt.eval, stored] at evaluated
      cases evaluated
      exact removed row stored

/-- The upsert of a part needs the row of its upload. -/
theorem serves_createOrUpdatePart {uploadId : Bytes} {partNumber : Int} {sha256Hash : Bytes}
    {size : Int} {etag : Bytes} {next : Result Unit → ServiceM α}
    (stored : (world.tables.multipartUploads.lookup uploadId).isSome = true →
      Serves setup process shownId post (next (.ok ()))
        { world with
          tables := world.tables.apply
            (.part (uploadId, partNumber) (some ⟨sha256Hash, size, etag⟩)) }) :
    Serves setup process shownId post
      (createOrUpdatePart uploadId partNumber sha256Hash size etag >>= next) world := by
  unfold createOrUpdatePart
  rw [Program.bind_assoc]
  apply serves_send
  intro answered writes evaluated
  have sent : (Stmt.upsertPart uploadId partNumber ⟨sha256Hash, size, etag⟩).eval setup.indexed
      world.tables = .ok (answered, writes) := evaluated
  rcases upsertPart_eval sent with ⟨present, rfl⟩
  exact stored present

/-- Looking an object up. -/
theorem serves_getObject {bucketId : Int} {key : Bytes} {next : Result ObjectInfo → ServiceM α}
    (absent : found setup bucketId key world = none → ∀ message caches,
      AnswerAlike setup.indexed world.tables world.caches caches →
      Serves setup process shownId post (next (.err .NoSuchKey message)) { world with caches })
    (present : ∀ info, found setup bucketId key world = some info → ∀ caches,
      AnswerAlike setup.indexed world.tables world.caches caches →
      Serves setup process shownId post (next (.ok info)) { world with caches }) :
    Serves setup process shownId post (metaCall (.getObject bucketId key) >>= next) world := by
  intro choice answered after _ step
  simp only [serviceAnswer, Option.ite_none_right_eq_some] at step
  rcases step with ⟨noFault, step⟩
  cases choice with
  | sql faults clock =>
      obtain rfl : faults = [] := List.isEmpty_iff.mp noFault
      simp only [answer, Option.some.injEq, Prod.mk.injEq] at step
      rcases step with ⟨rfl, rfl⟩
      have alike := Yields.run ⟨world.tables, none, world.caches, [], clock⟩
        (@yields_getObject_alike setup.indexed world.tables world.caches bucketId key) (.inr rfl)
      rcases (MetaCall.getObject bucketId key).effect_perform clock world.tables world.caches
        (@Or.inr False _ rfl) with ⟨sameTables, ⟨⟨⟩, -⟩ | answers⟩
      rw [sameTables]
      cases isFound : found setup bucketId key world with
      | none =>
          unfold found at isFound
          rw [isFound] at answers
          rcases answers with ⟨message, shown⟩
          rw [shown]
          exact absent isFound message _ alike
      | some info =>
          unfold found at isFound
          rw [isFound] at answers
          rw [show _ = _ from answers]
          exact present info isFound _ alike
  | _ => simp [answer] at step

/-! ## Parts of the services -/

/-- The tables once the blob of the object that is overwritten has lost its reference. -/
def dropped (setup : Setup) (bucketId : Int) (key sha256 : Bytes) (world : World) : Tables :=
  match found setup bucketId key world with
  | none => world.tables
  | some old =>
      if old.sha256Hash ≠ sha256 then world.tables.lose old.sha256Hash else world.tables

theorem serves_dropReplaced {bucketId : Int} {key sha256 : Bytes}
    {next : Result Unit → ServiceM α}
    (continues : ∀ caches, Serves setup process shownId post (next (.ok ()))
      { world with tables := dropped setup bucketId key sha256 world, caches }) :
    Serves setup process shownId post
      (ObjectService.dropReplaced bucketId key sha256 >>= next) world := by
  unfold ObjectService.dropReplaced ObjectService.objectExists
  rw [Program.bind_assoc, Program.bind_assoc]
  apply serves_getObject
  · intro isFound message caches _
    unfold dropped at continues
    rw [isFound] at continues
    exact continues caches
  · intro info isFound caches alike
    unfold dropped at continues
    rw [isFound] at continues
    rw [Program.pure_eq, Program.ret_bind, Program.bind_assoc]
    have stillFound : found setup bucketId key { world with caches } = some info :=
      (alike bucketId key).trans isFound
    apply serves_getObject
    · intro lost
      rw [stillFound] at lost
      cases lost
    · intro old isOld again _
      rw [stillFound] at isOld
      cases isOld
      dsimp only at continues ⊢
      split
      · rename_i different
        rw [Program.bind_assoc]
        apply serves_decrementRefCount
        intro answered
        rw [if_pos different] at continues
        exact continues again
      · rename_i same
        rw [if_neg same] at continues
        exact continues again

end Rules

/-! ## Storing and merging -/

section Files

variable {setup : Setup} {process shownId : Nat} {α : Type}

/-- An execution of the part of a service that handlers have too. -/
theorem execute_io {program : ServerM α} {choices : List Choice} {world : World}
    {ended : α × World}
    (executed : Program.execute (serviceAnswer setup process shownId) (io program) choices world =
      some ended) :
    Program.execute (answer setup process) program choices world = some ended := by
  induction program generalizing choices world with
  | ret value =>
      cases choices with
      | nil => exact executed
      | cons choice choices => cases executed
  | call op next inductionHypothesis =>
      cases choices with
      | nil => cases executed
      | cons choice choices =>
          rcases Option.bind_eq_some_iff.mp executed with ⟨⟨answered, after⟩, step, later⟩
          simp only [serviceAnswer, Option.ite_none_right_eq_some] at step
          rw [Program.execute, step.2]
          exact inductionHypothesis answered later

/-- The call is not one of the metadata store. -/
def Outside (op : IoOp) : Prop :=
  ∀ call, op ≠ .metaStore call

/-- A call outside the metadata store leaves its tables and caches alone. -/
theorem caches_answer {op : IoOp} (other : Outside op) {choice : Choice}
    {world after : World} {answered : op.Ans}
    (step : answer setup process op choice world = some (answered, after)) :
    after.caches = world.caches := by
  cases op with
  | metaStore call => exact absurd rfl (other call)
  | atomicRename source target =>
      cases choice <;> simp only [answer, World.moveFile] at step <;> grind
  | write path data =>
      cases choice <;> simp only [answer, World.appendFile] at step <;> grind
  | removeFile path =>
      cases choice <;> simp only [answer, World.dropFile] at step <;> grind
  | _ => cases choice <;> simp only [answer] at step <;> grind [Option.map_eq_some_iff]

/-- A part that makes no call of the metadata store leaves it alone. -/
theorem kept_of_execute {program : ServerM α} {choices : List Choice} {world after : World}
    {value : α} (only : Program.Only Outside (fun _ => True) program)
    (executed : Program.execute (answer setup process) program choices world =
      some (value, after)) :
    after.tables = world.tables ∧ after.caches = world.caches := by
  have kept : ∀ op choice (before : World) answered (reached : World),
      Outside op → True →
      before.tables = world.tables ∧ before.caches = world.caches →
      answer setup process op choice before = some (answered, reached) →
      reached.tables = world.tables ∧ reached.caches = world.caches := by
    rintro op choice before answered reached outside - ⟨tables, caches⟩ step
    exact ⟨(tables_answer outside step).trans tables, (caches_answer outside step).trans caches⟩
  exact ((only.ensures kept ⟨rfl, rfl⟩).of_execute (fun _ _ => trivial) executed).2

theorem outside_of_storageOp {op : IoOp} (storage : DataStore.StorageOp setup op) : Outside op := by
  rintro call rfl
  cases storage

theorem only_storeContent (content : Bytes) :
    Program.Only Outside (fun _ => True) (storeContent setup content) := by
  refine ⟨fun _ => nofun, fun present => ?_⟩
  cases present with
  | true => trivial
  | false =>
      have writes := (@DataStore.only_write setup content).mono
        (fun _ => outside_of_storageOp) fun _ => id
      apply writes.bind
      intro written _
      cases written <;> trivial

theorem only_merge (casKeys : List Bytes) :
    Program.Only Outside (fun _ => True) (DataStore.merge setup casKeys) :=
  (DataStore.only_merge casKeys).mono (fun _ => outside_of_storageOp) fun _ _ => trivial

end Files

end Service

end MiniS3
