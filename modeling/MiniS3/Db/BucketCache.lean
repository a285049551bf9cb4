import MiniS3.Db.Collation
import MiniS3.Lib.Interleaving

/-!
# The bucket cache

`CreateBucket`, `GetBucket`, `ListBuckets` and `DeleteBucket` interleaved statement by
statement.  Each keeps the cache up to date after its statement, so that a call can store a
bucket in the cache that another has deleted in between, and that nobody will erase again.

Bucket names are compared as the collation of the database compares them.  The cache compares
them byte by byte, and takes the name of a row up to its first NUL.
-/

namespace MiniS3.Db.BucketCache

open Lib Interleaving Transition

variable {indexed : Bytes → Bytes}

/-- The calls that use the bucket cache. -/
inductive BucketCall
  | createBucket (name ownerId : Bytes)
  | getBucket (name : Bytes)
  | listBuckets
  | deleteBucket (name : Bytes)

variable (indexed) in
/-- The program of a call, without what it returns. -/
def BucketCall.code : BucketCall → MetaM indexed Unit
  | .createBucket name ownerId => do let _ ← MetaStore.createBucket name ownerId
  | .getBucket name => do let _ ← MetaStore.getBucket name
  | .listBuckets => do let _ ← MetaStore.listBuckets
  | .deleteBucket name => do let _ ← MetaStore.deleteBucket name

/-- The tables, and the caches of the process. -/
structure Shared where
  tables : Tables
  caches : Caches

/-- A call is answered, or a statement fails with an error. -/
inductive Choice
  | proceed
  | refuse (error : SqlError)

variable (indexed) in
/-- How a call is answered: each statement and each access to the cache is one step. -/
def answer (collation : Collation) (clock : Clock) :
    Program.Interface (engine indexed).sig Choice Shared
  | .exec stmt, .proceed, shared =>
      match stmt.evalUnder indexed collation shared.tables with
      | .error error => some (.error error, shared)
      | .ok (answered, writes) =>
          some (.ok answered, { shared with tables := shared.tables.applyAll writes })
  | .exec _, .refuse error, shared => some (.error error, shared)
  | .aux op, .proceed, shared =>
      let answered := shared.caches.answer clock op
      some (answered.1, { shared with caches := answered.2 })
  | _, _, _ => none

abbrev BucketPool (indexed : Bytes → Bytes) :=
  Pool (engine indexed).sig Unit Shared

/-- The buckets that a call is about to store in the cache. -/
def pending : Option (MetaM indexed Unit) → List BucketInfo
  | some (.call (.aux (.bucketCacheStore infos)) _) => infos
  | _ => []

/-- The name that a call is about to erase from the cache. -/
def erases : Option (MetaM indexed Unit) → Option Bytes
  | some (.call (.aux (.bucketCacheErase name)) _) => some name
  | _ => none

/-- A call other than `process` is about to erase the name. -/
def erasedBesides (process : Nat) (name : Bytes) (pool : BucketPool indexed) : Bool :=
  pool.running.rows.any fun entry =>
    entry.1 ≠ process && erases (some entry.2) == some name

/-- The row of the bucket is there. -/
def Live (tables : Tables) (info : BucketInfo) : Prop :=
  tables.buckets.lookup info.id = some info.name

instance (tables : Tables) (info : BucketInfo) : Decidable (Live tables info) :=
  inferInstanceAs (Decidable (_ = _))

/-- A call is about to store a bucket of this name that is gone. -/
def holdsDead (name : Bytes) (pool : BucketPool indexed) : Bool :=
  pool.running.rows.any fun entry =>
    (pending (some entry.2)).any fun info =>
      info.name == name && !decide (Live pool.shared.tables info)

/-- The bucket is in the cache, or a call is about to store it there. -/
def remembers (id : Int) (name : Bytes) (pool : BucketPool indexed) : Bool :=
  ((pool.shared.caches.bucketCache.lookup name).any fun info => info.id == id) ||
    pool.running.rows.any fun entry =>
      (pending (some entry.2)).any fun info => info.id == id && info.name == name

/-- After the action the cache is left with a bucket that has no row: its name is erased while a
call still holds it after its row is gone, its row is deleted under another spelling of the name, or
a query reads its name only up to a NUL. -/
def forgets (collation : Collation) (pool : BucketPool indexed) :
    Action BucketCall Choice → Bool
  | .advance process .proceed =>
      match pool.running.lookup process with
      | some (.call (.aux (.bucketCacheErase name)) _) =>
          holdsDead name pool && !erasedBesides process name pool
      | some (.call (.exec (.deleteBucket name)) _) =>
          (pool.shared.tables.bucketEqual collation name).any fun bucket =>
            bucket.2 != name && remembers bucket.1 bucket.2 pool &&
              !erasedBesides process bucket.2 pool
      | some (.call (.exec (.selectBucketByName name)) _) =>
          (pool.shared.tables.bucketEqual collation name).any fun bucket => decide (0 ∈ bucket.2)
      | some (.call (.exec .selectBuckets) _) =>
          pool.shared.tables.buckets.rows.any fun entry => decide (0 ∈ entry.2)
      | _ => false
  | _ => false

/-! ## The programs of the calls -/

/-- What the answer to a call says about a bucket. -/
def Told : (op : (engine indexed).Op) → (engine indexed).OpAns op → BucketInfo → Prop
  | .exec (.insertBucket name), .ok id, info => info.id = id ∧ info.name = name
  | .exec (.selectBucketByName _), .ok row, info =>
      ∃ stored, row = some (info.id, stored) ∧ info.name = stored.cString
  | .exec .selectBuckets, .ok rows, info =>
      ∃ stored, (info.id, stored) ∈ rows ∧ info.name = stored.cString
  | _, _, _ => False

/-- A program that stores what the last answer told it, and erases a name after it has deleted
its row. -/
def Follows : MetaM indexed Unit → Prop
  | .ret _ => True
  | .call op next =>
      (∀ answered, Follows (next answered)) ∧
        (∀ answered, ∀ info ∈ pending (some (next answered)), Told op answered info) ∧
        match op, next with
        | .exec (.deleteBucket name), next =>
            ∀ affected : Nat, affected ≠ 0 → erases (some (next (.ok affected))) = some name
        | .exec (.insertBucket _), _ => True
        | .exec (.selectBucketByName _), _ => True
        | .exec .selectBuckets, _ => True
        | .aux (.bucketCacheFind _), _ => True
        | .aux (.bucketCacheStore _), _ => True
        | .aux (.bucketCacheErase _), _ => True
        | _, _ => False

theorem code_createBucket (name ownerId : Bytes) :
    (BucketCall.createBucket name ownerId).code indexed =
      .call (.exec (.insertBucket name)) fun answered =>
        match answered with
        | .error _ => .ret ()
        | .ok id => .call (.aux (.bucketCacheStore [⟨id, name, ownerId⟩])) fun _ => .ret () := by
  change Program.call _ _ = _
  congr 1
  funext answered
  cases answered with
  | error error =>
      change (if Bytes.contains error (ascii "Duplicate") then
        (pure (.err .BucketAlreadyExists error) : MetaM indexed (Result Int))
        else pure (.err .DatabaseError error)) >>= _ = _
      split
      · rfl
      · rfl
  | ok id => rfl

theorem code_deleteBucket (name : Bytes) :
    (BucketCall.deleteBucket name).code indexed =
      .call (.exec (.deleteBucket name)) fun answered =>
        match answered with
        | .error _ => .ret ()
        | .ok affected =>
            if (affected : Nat) = 0 then .ret ()
            else .call (.aux (.bucketCacheErase name)) fun _ => .ret () := by
  change Program.call _ _ = _
  congr 1
  funext answered
  cases answered with
  | error error => rfl
  | ok affected =>
      change (if (affected : Nat) = 0 then
        (pure (.err .NoSuchBucket (ascii "Bucket not found")) : MetaM indexed (Result Unit))
        else MetaM.cache (.bucketCacheErase name) >>= fun _ => pure (.ok ())) >>= _ =
          if (affected : Nat) = 0 then _ else _
      by_cases none : (affected : Nat) = 0
      · rw [if_pos none, if_pos none]
        rfl
      · rw [if_neg none, if_neg none]
        rfl

theorem follows_code (call : BucketCall) : Follows (call.code indexed) := by
  have stores : ∀ infos : List BucketInfo,
      Follows (.call (.aux (.bucketCacheStore infos)) fun _ => .ret () : MetaM indexed Unit) :=
    fun _ => ⟨fun _ => trivial, fun _ _ member => absurd member List.not_mem_nil, trivial⟩
  cases call with
  | createBucket name ownerId =>
      rw [code_createBucket]
      refine ⟨?_, ?_, trivial⟩
      · rintro (error | id)
        · trivial
        · exact stores _
      · rintro (error | id) info member
        · cases member
        · cases List.mem_singleton.mp member
          exact ⟨rfl, rfl⟩
  | getBucket name =>
      refine ⟨?_, ?_, trivial⟩
      · rintro (_ | info)
        · refine ⟨?_, ?_, trivial⟩
          · rintro (error | _ | ⟨id, storedName⟩)
            · trivial
            · trivial
            · exact stores _
          · rintro (error | _ | ⟨id, storedName⟩) info member
            · cases member
            · cases member
            · cases List.mem_singleton.mp member
              exact ⟨storedName, rfl, rfl⟩
        · trivial
      · rintro (_ | found) info member
        · cases member
        · cases member
  | listBuckets =>
      refine ⟨?_, ?_, trivial⟩
      · rintro (error | rows)
        · trivial
        · exact stores _
      · rintro (error | rows) info member
        · cases member
        · rcases List.mem_map.mp member with ⟨row, stored, rfl⟩
          exact ⟨row.2, stored, rfl⟩
  | deleteBucket name =>
      rw [code_deleteBucket]
      refine ⟨?_, ?_, ?_⟩
      · rintro (error | affected)
        · trivial
        · change Follows (if (affected : Nat) = 0 then _ else _)
          split
          · trivial
          · exact ⟨fun _ => trivial, fun _ _ member => absurd member List.not_mem_nil, trivial⟩
      · rintro (error | affected) info member
        · cases member
        · change info ∈ pending (some (if (affected : Nat) = 0 then _ else _)) at member
          split at member
          · cases member
          · cases member
      · intro affected positive
        change erases (some (if affected = 0 then _ else _)) = some name
        rw [if_neg positive]
        rfl

/-! ## The tables -/

/-- Every bucket has an id that was given out. -/
def Numbered (tables : Tables) : Prop :=
  ∀ id name, tables.buckets.lookup id = some name → id < tables.nextBucketId

/-- An image that is not of a bucket leaves the buckets alone. -/
theorem buckets_applyAll {writes : List Write} (others : ∀ write ∈ writes, ∀ id image,
    write ≠ .bucket id image) (tables : Tables) :
    (tables.applyAll writes).buckets = tables.buckets ∧
      (tables.applyAll writes).nextBucketId = tables.nextBucketId := by
  induction writes generalizing tables with
  | nil => exact ⟨rfl, rfl⟩
  | cons write rest inductionHypothesis =>
      rcases inductionHypothesis (fun other member => others other (List.mem_cons_of_mem _ member))
        (tables.apply write) with ⟨rows, next⟩
      rw [Tables.applyAll_cons, rows, next]
      cases write with
      | bucket id image => exact absurd rfl (others _ List.mem_cons_self id image)
      | casBlob casKey image => exact ⟨rfl, rfl⟩
      | object entry image => exact ⟨rfl, rfl⟩
      | upload uploadId image => exact ⟨rfl, rfl⟩
      | part entry image => exact ⟨rfl, rfl⟩
      | idempotency key image => exact ⟨rfl, rfl⟩

/-- The deletion of a bucket takes its row out of `buckets`. -/
theorem buckets_bucketCascade (tables : Tables) (id : Int) :
    (tables.applyAll (tables.bucketCascade id)).buckets = tables.buckets.erase id ∧
      tables.nextBucketId ≤ (tables.applyAll (tables.bucketCascade id)).nextBucketId := by
  have others : ∀ write ∈ (tables.bucketCascade id).tail, ∀ other image,
      write ≠ .bucket other image := by
    intro write member other image same
    subst same
    simp [Tables.bucketCascade, Tables.uploadCascade, List.mem_flatMap] at member
  rcases buckets_applyAll others (tables.apply (.bucket id none)) with ⟨rows, next⟩
  exact ⟨rows, (le_max_left _ _).trans_eq next.symm⟩

theorem mem_of_bucketEqual {collation : Collation} {tables : Tables} {name stored : Bytes}
    {id : Int} (found : tables.bucketEqual collation name = some (id, stored)) :
    tables.buckets.lookup id = some stored := by
  rcases Option.map_eq_some_iff.mp found with ⟨entry, first, equal⟩
  cases equal
  exact Table.mem_rows_iff.mp (List.mem_of_find?_eq_some first)

/-! ## The invariant -/

theorem pending_unfinished (program : MetaM indexed Unit) :
    pending (unfinished program) = pending (some program) := by
  cases program with
  | ret value => rfl
  | call op next => rfl

theorem erases_unfinished (program : MetaM indexed Unit) :
    erases (unfinished program) = erases (some program) := by
  cases program with
  | ret value => rfl
  | call op next => rfl

/-- A bucket of the cache, or one that a call is about to store there. -/
def Known (pool : BucketPool indexed) (info : BucketInfo) : Prop :=
  pool.shared.caches.bucketCache.lookup info.name = some info ∨
    ∃ process, info ∈ pending (pool.running.lookup process)

/-- A call is about to erase the name. -/
def Covered (pool : BucketPool indexed) (name : Bytes) : Prop :=
  ∃ process, erases (pool.running.lookup process) = some name

/-- Each bucket that is known has its row, or will be erased from the cache. -/
structure Coherent (pool : BucketPool indexed) : Prop where
  follows : ∀ process program, pool.running.lookup process = some program → Follows program
  numbered : Numbered pool.shared.tables
  named : ∀ name info, pool.shared.caches.bucketCache.lookup name = some info → info.name = name
  covered : ∀ info, Known pool info → Live pool.shared.tables info ∨ Covered pool info.name

/-- A bucket that was known before a step, other than to the call that makes it. -/
def Remains (pool : BucketPool indexed) (process : Nat) (cache : Table Bytes BucketInfo)
    (info : BucketInfo) : Prop :=
  (cache.lookup info.name = some info ∧ Known pool info) ∨
    ∃ other, other ≠ process ∧ info ∈ pending (pool.running.lookup other)

theorem Remains.known {pool : BucketPool indexed} {process : Nat}
    {cache : Table Bytes BucketInfo} {info : BucketInfo} (remains : Remains pool process cache info) :
    Known pool info := by
  rcases remains with ⟨-, known⟩ | ⟨other, -, member⟩
  · exact known
  · exact .inr ⟨other, member⟩

/-- A call moves on: what it is about to store is there, and what the others know is taken care
of. -/
theorem Coherent.settle {pool : BucketPool indexed} (coherent : Coherent pool) {process : Nat}
    {program : MetaM indexed Unit} {shared : Shared} (follows : Follows program)
    (numbered : Numbered shared.tables)
    (named : ∀ name info, shared.caches.bucketCache.lookup name = some info → info.name = name)
    (kept : ∀ info, shared.caches.bucketCache.lookup info.name = some info → Known pool info)
    (told : ∀ info ∈ pending (some program), Live shared.tables info)
    (cared : ∀ info, Remains pool process shared.caches.bucketCache info →
      Live shared.tables info ∨
        (∃ other, other ≠ process ∧ erases (pool.running.lookup other) = some info.name) ∨
        erases (some program) = some info.name) :
    Coherent ⟨shared, settle process program pool.running⟩ where
  follows := by
    intro other later running
    change (Interleaving.settle process program pool.running).lookup other = some later at running
    by_cases own : other = process
    · subst own
      rw [lookup_settle_self] at running
      cases program with
      | ret value => cases running
      | call op next =>
          cases running
          exact follows
    · rw [lookup_settle_ne _ _ own] at running
      exact coherent.follows other later running
  numbered := numbered
  named := named
  covered := by
    have covers : ∀ name, (∃ other, other ≠ process ∧
        erases (pool.running.lookup other) = some name) ∨ erases (some program) = some name →
        Covered ⟨shared, Interleaving.settle process program pool.running⟩ name := by
      rintro name (⟨other, different, erased⟩ | erased)
      · refine ⟨other, ?_⟩
        rw [lookup_settle_ne _ _ different]
        exact erased
      · refine ⟨process, ?_⟩
        rw [lookup_settle_self, erases_unfinished]
        exact erased
    rintro info (cached | ⟨other, member⟩)
    · exact (cared info (.inl ⟨cached, kept info cached⟩)).imp_right (covers info.name)
    · by_cases own : other = process
      · subst own
        rw [lookup_settle_self, pending_unfinished] at member
        exact .inl (told info member)
      · rw [lookup_settle_ne _ _ own] at member
        exact (cared info (.inr ⟨other, own, member⟩)).imp_right (covers info.name)

/-! ## Steps and runs -/

theorem erasedBesides_iff {process : Nat} {name : Bytes} {pool : BucketPool indexed} :
    erasedBesides process name pool = true ↔
      ∃ other, other ≠ process ∧ erases (pool.running.lookup other) = some name := by
  simp only [erasedBesides, List.any_eq_true, Bool.and_eq_true, decide_eq_true_eq, beq_iff_eq]
  constructor
  · rintro ⟨⟨other, program⟩, member, different, erased⟩
    refine ⟨other, different, ?_⟩
    rw [Table.mem_rows_iff.mp member]
    exact erased
  · rintro ⟨other, different, erased⟩
    cases running : pool.running.lookup other with
    | none =>
        rw [running] at erased
        cases erased
    | some program =>
        rw [running] at erased
        exact ⟨⟨other, program⟩, Table.mem_rows_iff.mpr running, different, erased⟩

/-- What a call is about to store is found among the running programs. -/
theorem mem_rows_of_pending {pool : BucketPool indexed} {process : Nat} {info : BucketInfo}
    (member : info ∈ pending (pool.running.lookup process)) :
    ∃ entry ∈ pool.running.rows, info ∈ pending (some entry.2) := by
  cases running : pool.running.lookup process with
  | none =>
      rw [running] at member
      cases member
  | some program =>
      rw [running] at member
      exact ⟨⟨process, program⟩, Table.mem_rows_iff.mpr running, member⟩

theorem remembers_of_known {pool : BucketPool indexed} {info : BucketInfo}
    (known : Known pool info) : remembers info.id info.name pool = true := by
  unfold remembers
  rw [Bool.or_eq_true]
  rcases known with cached | ⟨process, member⟩
  · left
    simp [cached]
  · right
    rcases mem_rows_of_pending member with ⟨entry, running, member⟩
    exact List.any_eq_true.mpr ⟨entry, running, List.any_eq_true.mpr ⟨info, member, by simp⟩⟩

theorem holdsDead_of_pending {pool : BucketPool indexed} {process : Nat} {info : BucketInfo}
    (member : info ∈ pending (pool.running.lookup process))
    (dead : ¬ Live pool.shared.tables info) : holdsDead info.name pool = true := by
  rcases mem_rows_of_pending member with ⟨entry, running, member⟩
  refine List.any_eq_true.mpr ⟨entry, running, List.any_eq_true.mpr ⟨info, member, ?_⟩⟩
  simpa using dead

/-- What is known stays taken care of by the others, where the call that moves erases nothing. -/
theorem Coherent.cared {pool : BucketPool indexed} (coherent : Coherent pool) {process : Nat}
    (erasesNothing : erases (pool.running.lookup process) = none) {cache : Table Bytes BucketInfo}
    {info : BucketInfo} (remains : Remains pool process cache info) :
    Live pool.shared.tables info ∨
      ∃ other, other ≠ process ∧ erases (pool.running.lookup other) = some info.name := by
  rcases coherent.covered info remains.known with live | ⟨other, erased⟩
  · exact .inl live
  · refine .inr ⟨other, ?_, erased⟩
    rintro rfl
    rw [erasesNothing] at erased
    cases erased

theorem Coherent.start {pool : BucketPool indexed} (coherent : Coherent pool) {process : Nat}
    (free : pool.running.lookup process = none) (call : BucketCall) :
    Coherent { pool with running := Interleaving.settle process (call.code indexed) pool.running } := by
  have silent : pending (some (call.code indexed)) = [] := by
    cases call with
    | createBucket name ownerId => rfl
    | getBucket name => rfl
    | listBuckets => rfl
    | deleteBucket name => rfl
  refine coherent.settle (follows_code call) coherent.numbered coherent.named ?_ ?_ ?_
  · intro info cached
    exact .inl cached
  · intro info member
    rw [silent] at member
    cases member
  · intro info remains
    exact (coherent.cared (by rw [free]; rfl) remains).imp_right .inl

/-- A call that asks the tables or the cache changes neither. -/
theorem Coherent.ask {pool : BucketPool indexed} (coherent : Coherent pool) {process : Nat}
    {op : (engine indexed).Op} {rest : (engine indexed).OpAns op → MetaM indexed Unit}
    (stored : pool.running.lookup process = some (.call op rest))
    (erasesNothing : erases (some (.call op rest)) = none) (answered : (engine indexed).OpAns op)
    (told : ∀ info, Told op answered info → Live pool.shared.tables info) :
    Coherent { pool with running := Interleaving.settle process (rest answered) pool.running } := by
  rcases coherent.follows process _ stored with ⟨follows, tells, -⟩
  refine coherent.settle (follows answered) coherent.numbered coherent.named ?_ ?_ ?_
  · intro info cached
    exact .inl cached
  · intro info member
    exact told info (tells answered info member)
  · intro info remains
    exact (coherent.cared (by rw [stored]; exact erasesNothing) remains).imp_right .inl

/-- What the cache holds after a list of buckets was stored. -/
theorem lookup_stored {infos : List BucketInfo} {cache : Table Bytes BucketInfo} {name : Bytes}
    {info : BucketInfo} (found : (infos.foldl (fun cache info => cache.set info.name info)
      cache).lookup name = some info) :
    cache.lookup name = some info ∨ (info ∈ infos ∧ info.name = name) := by
  induction infos generalizing cache with
  | nil => exact .inl found
  | cons first rest inductionHypothesis =>
      rcases inductionHypothesis found with before | ⟨member, named⟩
      · rw [Table.lookup_set] at before
        split at before
        · rename_i same
          cases before
          exact .inr ⟨List.mem_cons_self, same.symm⟩
        · exact .inl before
      · exact .inr ⟨List.mem_cons_of_mem _ member, named⟩

theorem Coherent.store {pool : BucketPool indexed} (coherent : Coherent pool) {process : Nat}
    {infos : List BucketInfo} {rest : Unit → MetaM indexed Unit}
    (stored : pool.running.lookup process = some (.call (.aux (.bucketCacheStore infos)) rest))
    (clock : Clock) :
    Coherent ⟨{ pool.shared with
        caches := (pool.shared.caches.answer clock (.bucketCacheStore infos)).2 },
      Interleaving.settle process (rest ()) pool.running⟩ := by
  rcases coherent.follows process _ stored with ⟨follows, tells, -⟩
  refine coherent.settle (follows ()) coherent.numbered ?_ ?_ ?_ ?_
  · intro name info found
    rcases lookup_stored found with before | ⟨-, named⟩
    · exact coherent.named name info before
    · exact named
  · intro info found
    rcases lookup_stored found with before | ⟨member, -⟩
    · exact .inl before
    · exact .inr ⟨process, by rw [stored]; exact member⟩
  · intro info member
    exact (tells () info member).elim
  · intro info remains
    exact (coherent.cared (by rw [stored]; rfl) remains).imp_right .inl

theorem Coherent.erase {pool : BucketPool indexed} (coherent : Coherent pool) {process : Nat}
    {name : Bytes} {rest : Unit → MetaM indexed Unit}
    (stored : pool.running.lookup process = some (.call (.aux (.bucketCacheErase name)) rest))
    (kept : holdsDead name pool = true → erasedBesides process name pool = true) (clock : Clock) :
    Coherent ⟨{ pool.shared with
        caches := (pool.shared.caches.answer clock (.bucketCacheErase name)).2 },
      Interleaving.settle process (rest ()) pool.running⟩ := by
  rcases coherent.follows process _ stored with ⟨follows, tells, -⟩
  have remains : ∀ other info, (pool.shared.caches.bucketCache.erase name).lookup other =
      some info → pool.shared.caches.bucketCache.lookup other = some info ∧ other ≠ name := by
    intro other info found
    by_cases own : other = name
    · subst own
      rw [Table.lookup_erase_self] at found
      cases found
    · rw [Table.lookup_erase_ne _ own] at found
      exact ⟨found, own⟩
  refine coherent.settle (follows ()) coherent.numbered ?_ ?_ ?_ ?_
  · intro other info found
    exact coherent.named other info (remains other info found).1
  · intro info found
    exact .inl (remains info.name info found).1
  · intro info member
    exact (tells () info member).elim
  · intro info left
    by_cases live : Live pool.shared.tables info
    · exact .inl live
    right
    left
    by_cases own : info.name = name
    · -- Only a call can still hold a bucket of this name, for the cache has none any more.
      rcases left with ⟨cached, -⟩ | ⟨other, -, member⟩
      · exact absurd own (remains info.name info cached).2
      · have dead := holdsDead_of_pending member live
        rw [own] at dead ⊢
        exact erasedBesides_iff.mp (kept dead)
    · rcases coherent.covered info left.known with alive | ⟨other, erased⟩
      · exact absurd alive live
      · refine ⟨other, ?_, erased⟩
        rintro rfl
        rw [stored] at erased
        exact own (Option.some.inj erased).symm

theorem Coherent.insert {pool : BucketPool indexed} (coherent : Coherent pool) {process : Nat}
    {name : Bytes} {rest : Except SqlError Int → MetaM indexed Unit}
    (stored : pool.running.lookup process = some (.call (.exec (.insertBucket name)) rest)) :
    Coherent ⟨{ pool.shared with
        tables := pool.shared.tables.applyAll
          [.bucket pool.shared.tables.nextBucketId (some name)] },
      Interleaving.settle process (rest (.ok pool.shared.tables.nextBucketId)) pool.running⟩ := by
  rcases coherent.follows process _ stored with ⟨follows, tells, -⟩
  have others : ∀ id, id ≠ pool.shared.tables.nextBucketId →
      (put pool.shared.tables.nextBucketId (some name) pool.shared.tables.buckets).lookup id =
        pool.shared.tables.buckets.lookup id := fun id => lookup_put_ne _ _
  have own := lookup_put_self pool.shared.tables.nextBucketId (some name)
    pool.shared.tables.buckets
  refine coherent.settle (follows _) ?_ coherent.named ?_ ?_ ?_
  · intro id stored found
    change (put pool.shared.tables.nextBucketId (some name)
      pool.shared.tables.buckets).lookup id = some stored at found
    change id < max pool.shared.tables.nextBucketId (pool.shared.tables.nextBucketId + 1)
    by_cases new : id = pool.shared.tables.nextBucketId
    · omega
    · rw [others id new] at found
      have known := coherent.numbered id stored found
      omega
  · intro info cached
    exact .inl cached
  · intro info member
    rcases tells _ info member with ⟨sameId, sameName⟩
    change (put pool.shared.tables.nextBucketId (some name)
      pool.shared.tables.buckets).lookup info.id = some info.name
    rw [sameId, sameName]
    exact own
  · intro info remains
    rcases coherent.cared (by rw [stored]; rfl) remains with live | erased
    · left
      have known := coherent.numbered info.id info.name live
      exact (others info.id known.ne).trans live
    · exact .inr (.inl erased)

theorem Coherent.delete {pool : BucketPool indexed} (coherent : Coherent pool) {process : Nat}
    {collation : Collation} {name spelled : Bytes} {id : Int}
    {rest : Except SqlError Nat → MetaM indexed Unit}
    (stored : pool.running.lookup process = some (.call (.exec (.deleteBucket name)) rest))
    (found : pool.shared.tables.bucketEqual collation name = some (id, spelled))
    (kept : spelled ≠ name → remembers id spelled pool = true →
      erasedBesides process spelled pool = true) :
    Coherent ⟨{ pool.shared with
        tables := pool.shared.tables.applyAll (pool.shared.tables.bucketCascade id) },
      Interleaving.settle process (rest (.ok 1)) pool.running⟩ := by
  rcases coherent.follows process _ stored with ⟨follows, tells, erasesName⟩
  rcases buckets_bucketCascade pool.shared.tables id with ⟨rows, next⟩
  refine coherent.settle (follows _) ?_ coherent.named ?_ ?_ ?_
  · intro other otherName present
    rw [rows] at present
    by_cases own : other = id
    · subst own
      rw [Table.lookup_erase_self] at present
      cases present
    · rw [Table.lookup_erase_ne _ own] at present
      exact (coherent.numbered other otherName present).trans_le next
  · intro info cached
    exact .inl cached
  · intro info member
    exact (tells _ info member).elim
  · intro info remains
    rcases coherent.cared (by rw [stored]; rfl) remains with live | erased
    · by_cases own : info.id = id
      · -- The deleted bucket itself: this call erases it, or one that is named differently does.
        right
        have same : info.name = spelled := by
          have row := mem_of_bucketEqual found
          rw [← own, live, Option.some.injEq] at row
          exact row
        by_cases spelling : spelled = name
        · right
          rw [same, spelling]
          exact erasesName 1 one_ne_zero
        · left
          have known := remembers_of_known remains.known
          rw [own, same] at known
          rw [same]
          exact erasedBesides_iff.mp (kept spelling known)
      · left
        change (pool.shared.tables.applyAll (pool.shared.tables.bucketCascade id)).buckets.lookup
          info.id = some info.name
        rw [rows, Table.lookup_erase_ne _ own]
        exact live
    · exact .inr (.inl erased)

/-- Every step that forgets no bucket keeps the cache coherent. -/
theorem Coherent.next {collation : Collation} {clock : Clock} {pool after : BucketPool indexed}
    {action : Action BucketCall Choice} (coherent : Coherent pool)
    (remembered : forgets collation pool action = false)
    (step : Interleaving.next (BucketCall.code indexed)
      (fun _ => answer indexed collation clock) pool action = some after) : Coherent after := by
  cases action with
  | start process call =>
      rcases next_start step with ⟨free, rfl⟩
      exact coherent.start free call
  | advance process choice =>
      rcases next_advance step with ⟨op, rest, answered, shared, stored, performed, rfl⟩
      have speaks := (coherent.follows process _ stored).2.2
      cases op with
      | begin => exact absurd speaks id
      | commit => exact absurd speaks id
      | rollback => exact absurd speaks id
      | exec stmt =>
          cases choice with
          | refuse error =>
              cases performed
              refine coherent.ask stored rfl _ ?_
              intro info told
              cases stmt <;> exact told.elim
          | proceed =>
              cases stmt with
              | insertBucket name =>
                  simp only [answer, Stmt.evalUnder] at performed
                  split at performed
                  · rename_i refused
                    split at refused
                    · cases refused
                      cases performed
                      exact coherent.ask stored rfl _ fun _ told => told.elim
                    · cases refused
                  · rename_i accepted
                    split at accepted
                    · cases accepted
                    · cases accepted
                      cases performed
                      exact coherent.insert stored
              | selectBucketByName name =>
                  cases performed
                  refine coherent.ask stored rfl _ ?_
                  rintro info ⟨spelled, found, cut⟩
                  simp only [forgets, stored, found, Option.any_some, decide_eq_false_iff_not]
                    at remembered
                  change pool.shared.tables.buckets.lookup info.id = some info.name
                  rw [cut, Bytes.cString_eq_self_iff.mpr remembered]
                  exact mem_of_bucketEqual found
              | selectBuckets =>
                  cases performed
                  refine coherent.ask stored rfl _ ?_
                  rintro info ⟨spelled, told, cut⟩
                  have listed := (List.mem_insertionSort _).mp told
                  rcases List.mem_map.mp listed with ⟨entry, row, equal⟩
                  rcases Prod.mk.inj equal with ⟨sameId, sameName⟩
                  simp only [forgets, stored, List.any_eq_false, decide_eq_true_eq] at remembered
                  change pool.shared.tables.buckets.lookup info.id = some info.name
                  rw [cut, ← sameId, ← sameName, Bytes.cString_eq_self_iff.mpr (remembered entry row)]
                  exact Table.mem_rows_iff.mp row
              | deleteBucket name =>
                  cases found : pool.shared.tables.bucketEqual collation name with
                  | none =>
                      simp only [answer, Stmt.evalUnder, found] at performed
                      cases performed
                      exact coherent.ask stored rfl _ fun _ told => told.elim
                  | some bucket =>
                      simp only [answer, Stmt.evalUnder, found] at performed
                      cases performed
                      refine coherent.delete stored found ?_
                      simp only [forgets, stored, found, Option.any_some] at remembered
                      intro spelling known
                      simpa [spelling, known] using remembered
              | _ => exact absurd speaks id
      | aux op =>
          cases choice with
          | refuse error => cases performed
          | proceed =>
              cases performed
              cases op with
              | bucketCacheFind name => exact coherent.ask stored rfl _ fun _ told => told.elim
              | bucketCacheStore infos => exact coherent.store stored clock
              | bucketCacheErase name =>
                  refine coherent.erase stored ?_ clock
                  simp only [forgets, stored] at remembered
                  intro dead
                  simpa [dead] using remembered
              | _ => exact absurd speaks id

/-- The cache agrees with the table: every bucket in it has its row. -/
def Agrees (shared : Shared) : Prop :=
  ∀ name info, shared.caches.bucketCache.lookup name = some info →
    info.name = name ∧ shared.tables.buckets.lookup info.id = some name

/-- In a run that forgets no bucket the cache agrees with the table whenever no call is in
progress. -/
theorem bucket_cache_agrees {collation : Collation} {clock : Clock}
    {source target : BucketPool indexed} (idle : source.running = ∅)
    (numbered : Numbered source.shared.tables) (agrees : Agrees source.shared)
    (reachable : ReachableUnder (Interleaving.next (BucketCall.code indexed)
      (fun _ => answer indexed collation clock))
      (fun pool action => forgets collation pool action = false) source target)
    (quiet : target.running = ∅) : Agrees target.shared := by
  have nobody : ∀ process, source.running.lookup process = none := by
    rw [idle]
    exact Table.lookup_empty
  have initially : Coherent source := by
    constructor
    · intro process program running
      rw [nobody process] at running
      cases running
    · exact numbered
    · intro name info cached
      exact (agrees name info cached).1
    · rintro info (cached | ⟨process, member⟩)
      · exact .inl (agrees info.name info cached).2
      · rw [nobody process] at member
        cases member
  have coherent := reachable.invariant Coherent initially
    fun _ _ _ coherent remembered step => coherent.next remembered step
  intro name info cached
  have named := coherent.named name info cached
  refine ⟨named, ?_⟩
  have known : Known target info := by
    left
    rw [named]
    exact cached
  rcases coherent.covered info known with live | ⟨process, erased⟩
  · rw [← named]
    exact live
  · rw [quiet] at erased
    cases erased

/-- A bucket, and a cache that is still empty. -/
def oneBucket : BucketPool id :=
  ⟨⟨Tables.empty.apply (.bucket 1 (some (ascii "b"))), ⟨∅, none⟩⟩, ∅⟩

theorem numbered_oneBucket : Numbered oneBucket.shared.tables := by
  intro bucketId name found
  change (put 1 (some (ascii "b")) (∅ : Table Int Bytes)).lookup bucketId = some name at found
  change bucketId < 2
  by_cases own : bucketId = 1
  · omega
  · rw [lookup_put_ne _ _ own] at found
    cases found

/-- The step of the sample runs. -/
abbrev sampleStep : Step (BucketPool id) (Action BucketCall Choice) :=
  Interleaving.next (BucketCall.code id) fun _ => answer id .caseless ⟨0, 0⟩

/-- `GetBucket` has stored the bucket when `DeleteBucket` begins. -/
theorem bucket_cache_agrees_sample :
    ∃ target, ReachableUnder sampleStep (fun pool action => forgets .caseless pool action = false)
        oneBucket target ∧
      target.shared.tables.buckets.lookup 1 = none ∧ Agrees target.shared := by
  have performed : (run (fun pool action =>
      if !forgets .caseless pool action then sampleStep pool action else none) oneBucket
      [.start 0 (.getBucket (ascii "b")), .advance 0 .proceed, .advance 0 .proceed,
        .advance 0 .proceed, .start 1 (.deleteBucket (ascii "b")), .advance 1 .proceed,
        .advance 1 .proceed]).any (fun pool =>
          pool.running.rows.isEmpty && pool.shared.tables.buckets.lookup 1 == none) = true := by
    decide +kernel
  rcases exists_reachableUnder_of_run _ (fun _ _ passed => by simpa using passed) _ performed with
    ⟨target, reachable, final⟩
  rw [Bool.and_eq_true, List.isEmpty_iff, beq_iff_eq] at final
  refine ⟨target, reachable, final.2, ?_⟩
  exact bucket_cache_agrees rfl numbered_oneBucket (fun _ _ cached => by cases cached) reachable
    (Table.eq_empty final.1)

/-- `GetBucket` reads the row, `DeleteBucket` runs from its first step to its last, and `GetBucket`
stores what it has read. -/
theorem deleted_bucket_stays_cached :
    ¬∀ (collation : Collation) (clock : Clock) (source target : BucketPool id),
      source.running = ∅ → Numbered source.shared.tables → Agrees source.shared →
      Reachable (Interleaving.next (BucketCall.code id) fun _ => answer id collation clock)
        source target →
      target.running = ∅ → Agrees target.shared := by
  intro agrees
  have performed : (run sampleStep oneBucket
      [.start 0 (.getBucket (ascii "b")), .advance 0 .proceed, .advance 0 .proceed,
        .start 1 (.deleteBucket (ascii "b")), .advance 1 .proceed, .advance 1 .proceed,
        .advance 0 .proceed]).any (fun pool =>
          pool.running.rows.isEmpty && pool.shared.tables.buckets.lookup 1 == none &&
            pool.shared.caches.bucketCache.lookup (ascii "b") == some ⟨1, ascii "b", []⟩) =
        true := by
    decide +kernel
  rcases exists_reachable_of_run _ performed with ⟨target, reachable, final⟩
  simp only [Bool.and_eq_true, List.isEmpty_iff, beq_iff_eq] at final
  rcases final with ⟨⟨quiet, gone⟩, cached⟩
  have row := (agrees .caseless ⟨0, 0⟩ oneBucket target rfl numbered_oneBucket
    (fun _ _ cached => by cases cached) reachable (Table.eq_empty quiet) _ _ cached).2
  rw [gone] at row
  cases row

end MiniS3.Db.BucketCache
