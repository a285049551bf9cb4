import MiniS3.Db.Sql
import MiniS3.Util.Status

/-!
# Sessions of the metadata store

A function of the metadata store is a program over SQL statements, transaction
control and its two caches.  This file gives the calls and two ways to answer
them: `engine`, under which many sessions interleave their statements over row
locks, and `Alone`, under which one call of the metadata store runs from its
first statement to its last while statements may fail by a given pattern.

`START TRANSACTION` and `ROLLBACK` are taken to succeed, and a connection is
always there.
-/

namespace MiniS3.Db

open Lib RowLocks

/-- What the metadata store keeps of a bucket.  The owner is known only while the bucket
stays in the cache of the process that created it; the remaining fields are constants and
times. -/
structure BucketInfo where
  id : Int
  name : Bytes
  ownerId : Bytes
  deriving DecidableEq

/-- What the metadata store keeps of an object; the other fields are constants. -/
structure ObjectInfo where
  bucketId : Int
  key : Bytes
  sha256Hash : Bytes
  size : Int
  etag : Bytes
  contentType : Bytes
  deriving DecidableEq

/-- Calls on the caches and on the clock.  The Redis keys are `ObjectMetaCacheKey`
values, taken as the pair they are built from; a lookup in a Redis cache that is
not enabled finds nothing, and the other calls on it do nothing. -/
inductive CacheOp
  | bucketCacheFind (name : Bytes)
  | bucketCacheStore (infos : List BucketInfo)
  | bucketCacheErase (name : Bytes)
  | redisGet (bucketId : Int) (key : Bytes)
  | redisSetEx (bucketId : Int) (key : Bytes) (info : ObjectInfo)
  | redisDel (bucketId : Int) (key : Bytes)
  | now
  /-- `mktime` of the date and time a `DATETIME` text shows. -/
  | mktime (shown : Int)

/-- The answers of the caches and of the clock. -/
@[reducible]
def CacheOp.Ans : CacheOp → Type
  | .bucketCacheFind _ => Option BucketInfo
  | .redisGet _ _ => Option ObjectInfo
  | .bucketCacheStore _ | .bucketCacheErase _ | .redisSetEx _ _ _ | .redisDel _ _ => Unit
  | .now | .mktime _ => Int

section

variable (indexed : Bytes → Bytes)

theorem Stmt.deleteBucket_writes {name : Bytes} {tables : Tables} {affected : Nat}
    {writes : List Write}
    (evaluated : (Stmt.deleteBucket name).eval indexed tables = .ok (affected, writes)) :
    (affected = 0 ∧ writes = [] ∧ tables.bucketNamed name = none) ∨
      ∃ bucket, tables.bucketNamed name = some bucket ∧ affected = 1 ∧
        writes = tables.bucketCascade bucket.1 := by
  cases named : tables.bucketNamed name with
  | none =>
      simp only [Stmt.eval, named] at evaluated
      cases evaluated
      exact .inl ⟨rfl, rfl, rfl⟩
  | some bucket =>
      simp only [Stmt.eval, named] at evaluated
      cases evaluated
      exact .inr ⟨bucket, rfl, rfl, rfl⟩

/-- A statement waits for every row it writes. -/
theorem Stmt.target_mem_waits {stmt : Stmt} {tables : Tables} {answer : stmt.Ans}
    {writes : List Write} (evaluated : stmt.eval indexed tables = .ok (answer, writes)) :
    ∀ write ∈ writes, write.target ∈ stmt.waits indexed tables := by
  -- The two cascades are the only statements that write several rows.
  by_cases cascade : ∃ name, stmt = .deleteBucket name
  · obtain ⟨name, rfl⟩ := cascade
    rcases Stmt.deleteBucket_writes indexed evaluated with
      ⟨-, rfl, -⟩ | ⟨bucket, named, -, rfl⟩
    · simp
    · intro write member
      simp only [Stmt.waits, named]
      exact List.mem_map_of_mem member
  · cases stmt <;> simp only [Stmt.eval] at evaluated <;> repeat' split at evaluated
    all_goals cases evaluated
    all_goals try simp [Stmt.waits, Write.target]
    · exact absurd ⟨_, rfl⟩ cascade
    · rintro write partNumber row member rfl
      exact .inr ⟨partNumber, ⟨row, member⟩, rfl⟩

/-- A locking query waits for every row it finds. -/
theorem Stmt.selected_subset_waits (stmt : Stmt) (tables : Tables) :
    stmt.selected indexed tables ⊆ stmt.waits indexed tables := by
  cases stmt <;> simp only [Stmt.selected, Stmt.waits] <;> (try split) <;> simp

theorem Stmt.locks_subset_waits (stmt : Stmt) (tables : Tables) :
    stmt.locks indexed tables ⊆ stmt.waits indexed tables := by
  intro row member
  unfold Stmt.locks at member
  split at member
  · contradiction
  · rename_i writes evaluated
    rcases List.mem_append.mp member with written | found
    · obtain ⟨write, writeMember, rfl⟩ := List.mem_map.mp written
      exact Stmt.target_mem_waits indexed evaluated write writeMember
    · exact Stmt.selected_subset_waits indexed stmt tables found

theorem Stmt.target_mem_locks {stmt : Stmt} {tables : Tables} {answer : stmt.Ans}
    {writes : List Write} (evaluated : stmt.eval indexed tables = .ok (answer, writes)) :
    ∀ write ∈ writes, write.target ∈ stmt.locks indexed tables := by
  intro write member
  simp only [Stmt.locks, evaluated]
  exact List.mem_append_left _ (List.mem_map_of_mem member)

/-- The database engine with the statements of the metadata store. -/
abbrev engine : Engine where
  Data := Tables
  Row := Row
  Write := Write
  Stmt := Stmt
  Ans := Stmt.Ans
  Error := SqlError
  Aux := CacheOp
  AuxAns := CacheOp.Ans
  rowEq := inferInstance
  target := Write.target
  apply := Tables.apply
  eval := Stmt.eval indexed
  waits := Stmt.waits indexed
  locks := Stmt.locks indexed
  Same := Tables.Same
  same_refl := Tables.Same.refl
  same_trans := Tables.Same.trans
  same_apply := Tables.same_apply
  target_mem_locks := Stmt.target_mem_locks indexed
  locks_subset_waits := Stmt.locks_subset_waits indexed

/-- A function of the metadata store: a program over statements and caches. -/
abbrev MetaM :=
  Program (engine indexed).sig

namespace MetaM

variable {indexed}

/-- `START TRANSACTION`. -/
def begin : MetaM indexed Unit :=
  Program.perform (S := (engine indexed).sig) Engine.Op.begin

/-- Send one statement. -/
def exec (stmt : Stmt) : MetaM indexed (Except SqlError stmt.Ans) :=
  Program.perform (S := (engine indexed).sig) (Engine.Op.exec stmt)

/-- `COMMIT`. -/
def commit : MetaM indexed (Except SqlError Unit) :=
  Program.perform (S := (engine indexed).sig) Engine.Op.commit

/-- `ROLLBACK`. -/
def rollback : MetaM indexed Unit :=
  Program.perform (S := (engine indexed).sig) Engine.Op.rollback

/-- Use a cache or the clock. -/
def cache (op : CacheOp) : MetaM indexed op.Ans :=
  Program.perform (S := (engine indexed).sig) (Engine.Op.aux op)

variable {α : Type}

@[simp]
theorem begin_bind (next : Unit → MetaM indexed α) :
    begin >>= next = .call .begin next :=
  rfl

@[simp]
theorem exec_bind (stmt : Stmt) (next : Except SqlError stmt.Ans → MetaM indexed α) :
    exec stmt >>= next = .call (.exec stmt) next :=
  rfl

@[simp]
theorem commit_bind (next : Except SqlError Unit → MetaM indexed α) :
    commit >>= next = .call .commit next :=
  rfl

@[simp]
theorem rollback_bind (next : Unit → MetaM indexed α) :
    rollback >>= next = .call .rollback next :=
  rfl

@[simp]
theorem cache_bind (op : CacheOp) (next : op.Ans → MetaM indexed α) :
    cache op >>= next = .call (.aux op) next :=
  rfl

end MetaM

/-! ## One call alone -/

/-- The caches of the metadata store; `redis` is `none` when it is not enabled. -/
structure Caches where
  bucketCache : Table Bytes BucketInfo
  redis : Option (Table (Int × Bytes) ObjectInfo)

/-- The clock of the server process: the time in seconds, and how far the standard time of
its zone is ahead of UTC. -/
structure Clock where
  now : Int
  standardOffset : Int

/-- The state of a call that runs alone.  `work` is the copy of the tables that an
open transaction changes; `faults` says which of the coming statements fail, and
how. -/
structure Alone where
  tables : Tables
  work : Option Tables
  caches : Caches
  faults : List (Option SqlError)
  clock : Clock

namespace Caches

/-- The answer of the caches and of the clock. -/
def answer (caches : Caches) (clock : Clock) : (op : CacheOp) → op.Ans × Caches
  | .bucketCacheFind name => (caches.bucketCache.lookup name, caches)
  | .bucketCacheStore infos =>
      ((), { caches with
        bucketCache := infos.foldl (fun bucketCache info => bucketCache.set info.name info)
          caches.bucketCache })
  | .bucketCacheErase name =>
      ((), { caches with bucketCache := caches.bucketCache.erase name })
  | .redisGet bucketId key => (caches.redis.bind fun redis => redis.lookup (bucketId, key), caches)
  | .redisSetEx bucketId key info =>
      ((), { caches with redis := caches.redis.map fun redis => redis.set (bucketId, key) info })
  | .redisDel bucketId key =>
      ((), { caches with redis := caches.redis.map fun redis => redis.erase (bucketId, key) })
  | .now => (clock.now, caches)
  | .mktime shown => (shown - clock.standardOffset, caches)

end Caches

namespace Alone

/-- The tables a statement sees. -/
def view (state : Alone) : Tables :=
  state.work.getD state.tables

/-- Write row images, in the open transaction or at once. -/
def write (state : Alone) (writes : List Write) : Alone :=
  match state.work with
  | some work => { state with work := some (work.applyAll writes) }
  | none => { state with tables := state.tables.applyAll writes }

/-- Move to the fault of the next statement. -/
def advance (state : Alone) : Alone :=
  { state with faults := state.faults.tail }

/-- The answer to a call. -/
def answer : (op : (engine indexed).Op) → Alone → (engine indexed).OpAns op × Alone
  | .begin, state => ((), { state with tables := state.view, work := some state.view })
  | .exec stmt, state =>
      match state.faults.head?.join with
      | some error => (.error error, state.advance)
      | none =>
          match stmt.eval indexed state.view with
          | .error error => (.error error, state.advance)
          | .ok (answered, writes) => (.ok answered, (state.write writes).advance)
  | .commit, state =>
      match state.faults.head?.join with
      | some error => (.error error, { state.advance with work := none })
      | none => (.ok (), { state.advance with tables := state.view, work := none })
  | .rollback, state => ((), { state with work := none })
  | .aux op, state =>
      ((state.caches.answer state.clock op).1,
        { state with caches := (state.caches.answer state.clock op).2 })

end Alone

end

end MiniS3.Db
