import MiniS3.Storage.Commit

/-!
# Reading blobs

`DataStore::Read` and `StreamRead`, and the range of an object that the service layer cuts out of
its blob.  Here a descriptor is its offset in the file it was opened for, and a `read` may return
fewer bytes than were asked for, or be interrupted and return none.  The loops count the calls they
are given, and return nothing when these are used up: a signal uses up a call, and every other
`read` but the last takes at least one byte.
-/

namespace MiniS3

open Lib Db

/-- What a call of `read` returns. -/
inductive ReadAnswer
  | bytes (data : Bytes)
  /-- `EINTR`. -/
  | interrupted
  | failed (text : IoError)

/-- The calls of the functions that read. -/
inductive ReadOp
  /-- `MetaStore::GetObject`. -/
  | getObject (bucketId : Int) (key : Bytes)
  | openRead (path : Bytes)
  /-- `fstat`, for the size of the file. -/
  | fstat
  | lseek (offset : Nat)
  | read (count : Nat)

/-- The answers to the calls. -/
@[reducible]
def ReadOp.Ans : ReadOp → Type
  | .getObject _ _ => Result ObjectInfo
  | .openRead _ => Bool
  | .fstat => Except IoError Nat
  | .lseek _ => Except IoError Unit
  | .read _ => ReadAnswer

/-- The signature of the calls of the functions that read. -/
abbrev readSig : Signature where
  Op := ReadOp
  Ans := ReadOp.Ans

/-- A function that reads. -/
abbrev ReadM :=
  Program readSig

/-- Make one call. -/
def performRead (op : ReadOp) : ReadM op.Ans :=
  Program.perform (S := readSig) op

/-- How a call turns out. -/
inductive ReadChoice
  | sql (faults : List (Option SqlError)) (clock : Clock)
  | done
  | count (length : Nat)
  | interrupted
  | failed (text : IoError)

/-- What a function reads from.  `content` is the file that is open, and `signals` is how many
signals there are still to come. -/
structure Reader where
  world : World
  content : Bytes
  position : Nat
  signals : Nat

namespace Reader

/-- What is left of the file. -/
def rest (reader : Reader) : Bytes :=
  reader.content.drop reader.position

/-- Whether a `read` of `count` bytes can return `length` bytes: none at the end, and otherwise
some. -/
def returns (reader : Reader) (count length : Nat) : Bool :=
  if reader.rest.isEmpty || count == 0 then length == 0
  else 1 ≤ length && length ≤ count && length ≤ reader.rest.length

/-- The answer to a call.  An offset of `2^63` or more is negative for `lseek`. -/
def answer (setup : Setup) : Program.Interface readSig ReadChoice Reader
  | .getObject bucketId key, .sql faults clock, reader =>
      let (answered, tables, caches) := (MetaCall.getObject bucketId key).perform setup.indexed
        faults clock reader.world.tables reader.world.caches
      some (answered, { reader with world := { reader.world with tables, caches } })
  | .openRead path, .done, reader =>
      (reader.world.files.lookup path).map fun content =>
        (true, { reader with content, position := 0 })
  | .openRead _, .failed _, reader => some (false, reader)
  | .fstat, .done, reader => some (.ok reader.content.length, reader)
  | .fstat, .failed text, reader => some (.error text, reader)
  | .lseek offset, .done, reader =>
      if offset < 2 ^ 63 then some (.ok (), { reader with position := offset }) else none
  | .lseek _, .failed text, reader => some (.error text, reader)
  | .read count, .count length, reader =>
      if reader.returns count length then
        some (.bytes (reader.rest.take length),
          { reader with position := reader.position + length })
      else none
  | .read _, .interrupted, reader =>
      if reader.signals = 0 then none
      else some (.interrupted, { reader with signals := reader.signals - 1 })
  | .read _, .failed text, reader => some (.failed text, reader)
  | _, _, _ => none

end Reader

namespace DataStore

variable (setup : Setup)

/-- The loop of `Read`. -/
def readLoop (size : Nat) : Nat → Bytes → ReadM (Option (Result Bytes))
  | 0, _ => pure none
  | calls + 1, data => do
      if data.length < size then
        match ← performRead (.read (size - data.length)) with
        | .interrupted => readLoop size calls data
        | .failed text => return some (.err .StorageError (ascii "Read failed: " ++ text))
        | .bytes [] => return some (.ok data)
        | .bytes (byte :: more) => readLoop size calls (data ++ byte :: more)
      else return some (.ok data)

/-- `DataStore::Read`. -/
def read (calls : Nat) (casKey : Bytes) : ReadM (Option (Result Bytes)) := do
  if ← performRead (.openRead (setup.getCasPath casKey)) then
    match ← performRead .fstat with
    | .error text =>
        return some (.err .StorageError (ascii "Failed to stat file: " ++ text))
    | .ok size => readLoop size calls []
  else return some (.err .NoSuchKey (ascii "CAS not found: " ++ casKey))

section

variable {σ : Type}

/-- The loop of `StreamRead`.  The callback tells whether it wants more; `remaining` is kept only
when there is a length. -/
def streamLoop (length : Nat) (callback : σ → Bytes → σ × Bool) :
    Nat → Nat → σ → ReadM (Option (Result Unit × σ))
  | 0, _, _ => pure none
  | calls + 1, remaining, state => do
      if length = 0 ∨ remaining > 0 then
        let toRead := if length > 0 ∧ remaining < 65536 then remaining else 65536
        match ← performRead (.read toRead) with
        | .interrupted => streamLoop length callback calls remaining state
        | .failed text =>
            return some (.err .StorageError (ascii "Read failed: " ++ text), state)
        | .bytes [] => return some (.ok (), state)
        | .bytes (byte :: more) =>
            match callback state (byte :: more) with
            | (state, false) => return some (.ok (), state)
            | (state, true) =>
                let remaining :=
                  if length > 0 then remaining - (byte :: more).length else remaining
                streamLoop length callback calls remaining state
      else return some (.ok (), state)

/-- `DataStore::StreamRead`. -/
def streamRead (calls : Nat) (casKey : Bytes) (offset length : Nat)
    (callback : σ → Bytes → σ × Bool) (state : σ) : ReadM (Option (Result Unit × σ)) := do
  if ← performRead (.openRead (setup.getCasPath casKey)) then
    if offset > 0 then
      match ← performRead (.lseek offset) with
      | .error text => return some (.err .StorageError (ascii "Seek failed: " ++ text), state)
      | .ok () => streamLoop length callback calls length state
    else streamLoop length callback calls length state
  else return some (.err .NoSuchKey (ascii "CAS not found: " ++ casKey), state)

end

end DataStore

namespace ObjectService

variable (setup : Setup)

/-- `GetObjectRange` once the object is found. -/
def streamRange (calls : Nat) (info : ObjectInfo) (start end_ : Int) :
    ReadM (Option (Result (Bytes × ObjectInfo))) := do
  if start < 0 ∨ start ≥ info.size then
    return some (.err .InvalidArgument (ascii "Invalid range start"))
  else
    let end_ := if end_ < 0 then info.size - 1 else end_
    let end_ := if end_ ≥ info.size then info.size - 1 else end_
    if start > end_ then
      return some (.err .InvalidArgument (ascii "Invalid range: start > end"))
    else
      let collect := fun (content data : Bytes) => (content ++ data, true)
      match ← DataStore.streamRead setup calls info.sha256Hash start.toNat
        (end_ - start + 1).toNat collect [] with
      | none => return none
      | some (.error status, _) => return some (.error status)
      | some (.ok (), content) => return some (.ok (content, info))

/-- `ObjectService::GetObject`. -/
def getObject (calls : Nat) (bucketId : Int) (key : Bytes) :
    ReadM (Option (Result (Bytes × ObjectInfo))) := do
  match ← performRead (.getObject bucketId key) with
  | .error status => return some (.error status)
  | .ok info =>
      match ← DataStore.read setup calls info.sha256Hash with
      | none => return none
      | some (.error status) => return some (.error status)
      | some (.ok content) => return some (.ok (content, info))

/-- `ObjectService::GetObjectRange`. -/
def getObjectRange (calls : Nat) (bucketId : Int) (key : Bytes) (start end_ : Int) :
    ReadM (Option (Result (Bytes × ObjectInfo))) := do
  match ← performRead (.getObject bucketId key) with
  | .error status => return some (.error status)
  | .ok info => streamRange setup calls info start end_

end ObjectService

/-! ## The rules -/

/-- No call but an interrupted one fails. -/
def ReadChoice.Untroubled : ReadChoice → Prop
  | .sql faults _ => faults = []
  | .failed _ => False
  | _ => True

section Rules

variable {setup : Setup} {α : Type} {post : α → Prop} {reader : Reader}

/-- Every execution in which no call fails ends in a value that is a `post`. -/
abbrev Reads (setup : Setup) {α : Type} (post : α → Prop) (program : ReadM α)
    (reader : Reader) : Prop :=
  Program.Ensures (Reader.answer setup) ReadChoice.Untroubled (fun value _ => post value) program
    reader

theorem reads_getObject {bucketId : Int} {key : Bytes} {info : ObjectInfo}
    {next : Result ObjectInfo → ReadM α}
    (found : reader.world.tables.foundObject setup.indexed bucketId key reader.world.caches =
      some info)
    (continues : ∀ after, after.world.files = reader.world.files →
      after.signals = reader.signals → Reads setup post (next (.ok info)) after) :
    Reads setup post (.call (.getObject bucketId key) next) reader := by
  intro choice answered after untroubled step
  cases choice with
  | sql faults clock =>
      simp only [Reader.answer, Option.some.injEq, Prod.mk.injEq] at step
      obtain ⟨rfl, rfl⟩ := step
      have effect := @MetaCall.effect_perform setup.indexed (.getObject bucketId key) False faults
        clock reader.world.tables reader.world.caches (.inr untroubled)
      obtain ⟨-, ⟨impossible, -⟩ | answers⟩ := effect
      · exact impossible.elim
      · rw [found] at answers
        simp only at answers
        rw [answers]
        exact continues _ rfl rfl
  | _ => simp [Reader.answer] at step

theorem reads_openRead {path content : Bytes} {next : Bool → ReadM α}
    (present : reader.world.files.lookup path = some content)
    (opened : Reads setup post (next true) { reader with content, position := 0 }) :
    Reads setup post (.call (.openRead path) next) reader := by
  intro choice answered after untroubled step
  cases choice <;> simp only [Reader.answer, reduceCtorEq, Option.map_eq_some_iff,
    Option.some.injEq, Prod.mk.injEq] at step
  · obtain ⟨_, isContent, rfl, rfl⟩ := step
    obtain rfl := Option.some.inj (isContent.symm.trans present)
    exact opened
  · exact untroubled.elim

theorem reads_fstat {next : Except IoError Nat → ReadM α}
    (continues : Reads setup post (next (.ok reader.content.length)) reader) :
    Reads setup post (.call .fstat next) reader := by
  intro choice answered after untroubled step
  cases choice <;> simp only [Reader.answer, reduceCtorEq, Option.some.injEq,
    Prod.mk.injEq] at step
  · obtain ⟨rfl, rfl⟩ := step
    exact continues
  · exact untroubled.elim

theorem reads_lseek {offset : Nat} {next : Except IoError Unit → ReadM α}
    (continues : Reads setup post (next (.ok ())) { reader with position := offset }) :
    Reads setup post (.call (.lseek offset) next) reader := by
  intro choice answered after untroubled step
  cases choice <;> simp only [Reader.answer, reduceCtorEq, Option.ite_none_right_eq_some,
    Option.some.injEq, Prod.mk.injEq] at step
  · obtain ⟨-, rfl, rfl⟩ := step
    exact continues
  · exact untroubled.elim

theorem reads_read {count : Nat} {next : ReadAnswer → ReadM α}
    (interrupted : ∀ signals, reader.signals = signals + 1 →
      Reads setup post (next .interrupted) { reader with signals })
    (read : ∀ length, reader.returns count length = true →
      Reads setup post (next (.bytes (reader.rest.take length)))
        { reader with position := reader.position + length }) :
    Reads setup post (.call (.read count) next) reader := by
  intro choice answered after untroubled step
  cases choice <;> simp only [Reader.answer, reduceCtorEq, Option.ite_none_left_eq_some,
    Option.ite_none_right_eq_some, Option.some.injEq, Prod.mk.injEq] at step
  · obtain ⟨returns, rfl, rfl⟩ := step
    exact read _ returns
  · obtain ⟨some, rfl, rfl⟩ := step
    exact interrupted _ (Nat.succ_pred_eq_of_ne_zero some).symm
  · exact untroubled.elim

end Rules

end MiniS3
