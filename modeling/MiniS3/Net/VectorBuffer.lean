import Mathlib.Order.Nat
import MiniS3.Lib.Overwrite
import MiniS3.Net.ByteBuffer

/-!
# The byte buffer as a queue

Here the byte buffer has all its operations, with the arithmetic of the machine: sizes wrap
around, a subtraction that would go below zero and a copy that would leave the vector are faults,
and a vector that is too large is refused with an exception.

A client sees a queue of bytes in every run, as long as the sizes that it asks for do not wrap
around when the buffer adds its own to them.
-/

namespace MiniS3.Net

open Lib

/-- What can end an operation: the exception of a vector that would be too large, a subtraction
of sizes that wraps around, or an index outside of the vector. -/
inductive Failure
  | lengthError
  | underflow
  | outOfRange
  deriving DecidableEq

/-- One more than the largest size. -/
def sizeLimit : Nat :=
  2 ^ 64

/-- `max_size` of a vector of bytes. -/
def maxSize : Nat :=
  2 ^ 63 - 1

/-- Addition of sizes. -/
def plus (first second : Nat) : Nat :=
  (first + second) % sizeLimit

/-- Subtraction of sizes. -/
def minus (first second : Nat) : Except Failure Nat :=
  if second ≤ first then .ok (first - second) else .error .underflow

/-- A new vector. -/
def newVector (size : Nat) : Except Failure Bytes :=
  if size ≤ maxSize then .ok (List.replicate size 0) else .error .lengthError

/-- `resize` of a vector. -/
def resize (size : Nat) (storage : Bytes) : Except Failure Bytes :=
  if size ≤ maxSize then .ok (storage.take size ++ List.replicate (size - storage.length) 0)
  else .error .lengthError

/-- Copy data to a position of a vector. -/
def copyTo (position : Nat) (data storage : Bytes) : Except Failure Bytes :=
  if position + data.length ≤ storage.length then .ok (overwrite position data storage)
  else .error .outOfRange

/-- `ByteBuffer`, with whatever values its fields have. -/
structure VectorBuffer where
  storage : Bytes
  readerIndex : Nat
  writerIndex : Nat
  deriving DecidableEq

namespace VectorBuffer

/-- `ByteBuffer(initial_size)`. -/
def new (initialSize : Nat) : Except Failure VectorBuffer := do
  let storage ← newVector (plus kPrependSize initialSize)
  return ⟨storage, kPrependSize, kPrependSize⟩

/-- `ReadableBytes`. -/
def readableBytes (buffer : VectorBuffer) : Except Failure Nat :=
  minus buffer.writerIndex buffer.readerIndex

/-- `WritableBytes`. -/
def writableBytes (buffer : VectorBuffer) : Except Failure Nat :=
  minus buffer.storage.length buffer.writerIndex

/-- So many bytes from `Peek()` on. -/
def bytes (length : Nat) (buffer : VectorBuffer) : Except Failure Bytes :=
  if buffer.readerIndex + length ≤ buffer.storage.length then
    .ok ((buffer.storage.drop buffer.readerIndex).take length)
  else .error .outOfRange

/-- `RetrieveAll`. -/
def retrieveAll (buffer : VectorBuffer) : VectorBuffer :=
  { buffer with readerIndex := kPrependSize, writerIndex := kPrependSize }

/-- `Retrieve`. -/
def retrieve (length : Nat) (buffer : VectorBuffer) : Except Failure VectorBuffer := do
  let readable ← buffer.readableBytes
  if length < readable then
    return { buffer with readerIndex := plus buffer.readerIndex length }
  else
    return buffer.retrieveAll

/-- `RetrieveAsString`. -/
def retrieveAsString (length : Nat) (buffer : VectorBuffer) :
    Except Failure (Bytes × VectorBuffer) := do
  let readable ← buffer.readableBytes
  let result ← buffer.bytes (min length readable)
  let rest ← buffer.retrieve length
  return (result, rest)

/-- `HasWritten`. -/
def hasWritten (length : Nat) (buffer : VectorBuffer) : VectorBuffer :=
  { buffer with writerIndex := plus buffer.writerIndex length }

/-- `Unwrite`. -/
def unwrite (length : Nat) (buffer : VectorBuffer) : Except Failure VectorBuffer := do
  let writerIndex ← minus buffer.writerIndex length
  return { buffer with writerIndex }

/-- `MakeSpace`. -/
def makeSpace (length : Nat) (buffer : VectorBuffer) : Except Failure VectorBuffer := do
  let writable ← buffer.writableBytes
  if plus writable buffer.readerIndex < plus length kPrependSize then
    let storage ← resize (plus buffer.writerIndex length) buffer.storage
    return { buffer with storage }
  else
    let readable ← buffer.readableBytes
    if max buffer.writerIndex (kPrependSize + readable) ≤ buffer.storage.length then
      return {
        storage := copyForward buffer.readerIndex kPrependSize readable buffer.storage
        readerIndex := kPrependSize
        writerIndex := plus kPrependSize readable }
    else
      throw .outOfRange

/-- `EnsureWritableBytes`. -/
def ensureWritableBytes (length : Nat) (buffer : VectorBuffer) : Except Failure VectorBuffer := do
  let writable ← buffer.writableBytes
  if writable < length then buffer.makeSpace length else return buffer

/-- Bytes copied to `BeginWrite()`. -/
def write (data : Bytes) (buffer : VectorBuffer) : Except Failure VectorBuffer := do
  let storage ← copyTo buffer.writerIndex data buffer.storage
  return { buffer with storage }

/-- `Append`. -/
def append (data : Bytes) (buffer : VectorBuffer) : Except Failure VectorBuffer := do
  let roomy ← buffer.ensureWritableBytes data.length
  let written ← roomy.write data
  return written.hasWritten data.length

/-- `Prepend`. -/
def prepend (data : Bytes) (buffer : VectorBuffer) : Except Failure VectorBuffer := do
  let readerIndex ← minus buffer.readerIndex data.length
  let storage ← copyTo readerIndex data buffer.storage
  return { buffer with storage, readerIndex }

/-- `Shrink`. -/
def shrink (reserve : Nat) (buffer : VectorBuffer) : Except Failure VectorBuffer := do
  let readable ← buffer.readableBytes
  let empty ← newVector (plus (plus kPrependSize readable) reserve)
  let data ← buffer.bytes readable
  let storage ← copyTo kPrependSize data empty
  return ⟨storage, kPrependSize, plus kPrependSize readable⟩

/-- Size of the second buffer of `ReadFd`. -/
def extraSize : Nat :=
  65536

/-- `ReadFd`, with the bytes that `readv` delivers: first to `BeginWrite()`, then to the second
buffer. -/
def readFd (received : Option Bytes) (buffer : VectorBuffer) : Except Failure VectorBuffer := do
  let writable ← buffer.writableBytes
  match received with
  | none => return buffer
  | some data =>
      let filled ← buffer.write (data.take writable)
      if data.length ≤ writable then
        return filled.hasWritten data.length
      else
        append (data.drop writable) { filled with writerIndex := filled.storage.length }

/-- `WriteFd`, with what `write` returns, and the bytes that it took. -/
def writeFd (taken : Option Nat) (buffer : VectorBuffer) :
    Except Failure (Bytes × VectorBuffer) := do
  let readable ← buffer.readableBytes
  let offered ← buffer.bytes readable
  match taken with
  | none => return ([], buffer)
  | some length =>
      let rest ← buffer.retrieve length
      return (offered.take length, rest)

/-- An operation with the answers of the system.  Before `HasWritten` the client puts its bytes
where `BeginWrite()` points to, and `RetrieveUntil` is given a pointer as far ahead of
`Peek()`. -/
inductive Operation
  | append (data : Bytes)
  | retrieve (length : Nat)
  | retrieveAll
  | retrieveUntil (offset : Nat)
  | retrieveAsString (length : Nat)
  | ensureWritableBytes (length : Nat)
  | hasWritten (data : Bytes)
  | unwrite (length : Nat)
  | prepend (data : Bytes)
  | shrink (reserve : Nat)
  | readFd (received : Option Bytes)
  | writeFd (taken : Option Nat)

/-- What the client is given, and the buffer after the operation. -/
def perform (buffer : VectorBuffer) : Operation → Except Failure (Bytes × VectorBuffer)
  | .append data => ([], ·) <$> buffer.append data
  | .retrieve length => ([], ·) <$> buffer.retrieve length
  | .retrieveAll => .ok ([], buffer.retrieveAll)
  | .retrieveUntil offset => ([], ·) <$> buffer.retrieve offset
  | .retrieveAsString length => buffer.retrieveAsString length
  | .ensureWritableBytes length => ([], ·) <$> buffer.ensureWritableBytes length
  | .hasWritten data => do
      let written ← buffer.write data
      return ([], written.hasWritten data.length)
  | .unwrite length => ([], ·) <$> buffer.unwrite length
  | .prepend data => ([], ·) <$> buffer.prepend data
  | .shrink reserve => ([], ·) <$> buffer.shrink reserve
  | .readFd received => ([], ·) <$> buffer.readFd received
  | .writeFd taken => buffer.writeFd taken

/-- What the operation is on a queue of bytes. -/
def Operation.onQueue (queue : Bytes) : Operation → Bytes × Bytes
  | append data => ([], queue ++ data)
  | retrieve length => ([], queue.drop length)
  | retrieveAll => ([], [])
  | retrieveUntil offset => ([], queue.drop offset)
  | retrieveAsString length => (queue.take length, queue.drop length)
  | ensureWritableBytes _ => ([], queue)
  | hasWritten data => ([], queue ++ data)
  | unwrite length => ([], queue.take (queue.length - length))
  | prepend data => ([], data ++ queue)
  | shrink _ => ([], queue)
  | readFd received => ([], queue ++ received.getD [])
  | writeFd taken => (queue.take (taken.getD 0), queue.drop (taken.getD 0))

/-- What the caller of an operation and the system promise. -/
def Operation.Allowed (buffer : VectorBuffer) : Operation → Prop
  | append data => data.length ≤ maxSize
  | retrieve length => length < sizeLimit
  | retrieveAll => True
  | retrieveUntil offset => buffer.readerIndex + offset ≤ buffer.writerIndex
  | retrieveAsString length => length < sizeLimit
  | ensureWritableBytes length => length < sizeLimit
  | hasWritten data => buffer.writerIndex + data.length ≤ buffer.storage.length
  | unwrite length => buffer.readerIndex + length ≤ buffer.writerIndex
  | prepend data => data.length ≤ buffer.readerIndex
  | shrink reserve => reserve < sizeLimit
  | readFd received =>
      ∀ data ∈ received, buffer.writerIndex + data.length ≤ buffer.storage.length +
        if buffer.storage.length - buffer.writerIndex < extraSize then extraSize else 0
  | writeFd taken => ∀ length ∈ taken, buffer.readerIndex + length ≤ buffer.writerIndex

/-- `MakeSpace` grows the vector to a size that does not wrap around, or moves the unread bytes to
the front. -/
def SpaceFits (length : Nat) (buffer : VectorBuffer) : Prop :=
  if buffer.storage.length - buffer.writerIndex + buffer.readerIndex < plus length kPrependSize then
    buffer.writerIndex + length < sizeLimit
  else kPrependSize ≤ buffer.readerIndex

/-- The size that is asked for does not wrap around. -/
def Operation.Fits (buffer : VectorBuffer) : Operation → Prop
  | ensureWritableBytes length =>
      buffer.storage.length < buffer.writerIndex + length → buffer.SpaceFits length
  | shrink reserve =>
      kPrependSize + (buffer.writerIndex - buffer.readerIndex) + reserve < sizeLimit
  | _ => True

/-- A run of operations, with what the client was given. -/
def run (buffer : VectorBuffer) : List Operation → Except Failure (List Bytes × VectorBuffer)
  | [] => .ok ([], buffer)
  | operation :: operations => do
      let (given, next) ← buffer.perform operation
      let (rest, last) ← next.run operations
      return (given :: rest, last)

/-- The same operations on a queue. -/
def queueRun (queue : Bytes) : List Operation → List Bytes × Bytes
  | [] => ([], queue)
  | operation :: operations =>
      let (given, next) := operation.onQueue queue
      let (rest, last) := queueRun next operations
      (given :: rest, last)

/-- A condition on every operation of a run, in the state before it. -/
def Throughout (condition : VectorBuffer → Operation → Prop) (buffer : VectorBuffer) :
    List Operation → Prop
  | [] => True
  | operation :: operations => condition buffer operation ∧
      ∀ given next, buffer.perform operation = .ok (given, next) →
        next.Throughout condition operations

/-- The unread bytes. -/
def peek (buffer : VectorBuffer) : Bytes :=
  (buffer.storage.take buffer.writerIndex).drop buffer.readerIndex

/-- The indices lie in the vector, which has room for the reserved bytes. -/
structure WellFormed (buffer : VectorBuffer) : Prop where
  reader_le_writer : buffer.readerIndex ≤ buffer.writerIndex
  writer_le_length : buffer.writerIndex ≤ buffer.storage.length
  prepend_le_length : kPrependSize ≤ buffer.storage.length
  length_le_max : buffer.storage.length ≤ maxSize

/-- The result is one with the property, or the exception of a vector that would be too large. -/
def Yields {α : Type} (property : α → Prop) : Except Failure α → Prop
  | .ok value => property value
  | .error failure => failure = .lengthError

section

variable {α β : Type} {property : α → Prop} {goal : β → Prop}

theorem Yields.bind {result : Except Failure α} (yields : Yields property result)
    {next : α → Except Failure β} (continues : ∀ value, property value → Yields goal (next value)) :
    Yields goal (result >>= next) := by
  cases result with
  | error failure => exact yields
  | ok value => exact continues value yields

theorem Yields.map {result : Except Failure α} (yields : Yields property result) {f : α → β}
    (maps : ∀ value, property value → goal (f value)) : Yields goal (f <$> result) := by
  cases result with
  | error failure => exact yields
  | ok value => exact maps value yields

theorem yields_newVector (size : Nat) : Yields
    (fun storage => storage.length = size ∧ size ≤ maxSize) (newVector size) := by
  rw [newVector]
  split
  · rename_i small
    exact ⟨List.length_replicate, small⟩
  · rfl

theorem minus_eq {first second : Nat} (least : second ≤ first) :
    minus first second = .ok (first - second) :=
  if_pos least

theorem plus_eq {first second : Nat} (small : first + second < sizeLimit) :
    plus first second = first + second :=
  Nat.mod_eq_of_lt small

end

variable {buffer : VectorBuffer}

theorem length_peek (wellFormed : buffer.WellFormed) :
    buffer.peek.length = buffer.writerIndex - buffer.readerIndex := by
  rw [peek, List.length_drop, List.length_take_of_le wellFormed.writer_le_length]

theorem WellFormed.readableBytes (wellFormed : buffer.WellFormed) :
    buffer.readableBytes = .ok (buffer.writerIndex - buffer.readerIndex) :=
  minus_eq wellFormed.reader_le_writer

theorem WellFormed.writableBytes (wellFormed : buffer.WellFormed) :
    buffer.writableBytes = .ok (buffer.storage.length - buffer.writerIndex) :=
  minus_eq wellFormed.writer_le_length

/-- Indices of the buffer are far from the largest size. -/
theorem WellFormed.writer_lt (wellFormed : buffer.WellFormed) :
    buffer.writerIndex ≤ maxSize :=
  wellFormed.writer_le_length.trans wellFormed.length_le_max

theorem WellFormed.bytes (wellFormed : buffer.WellFormed) {length : Nat}
    (readable : length ≤ buffer.writerIndex - buffer.readerIndex) :
    buffer.bytes length = .ok (buffer.peek.take length) := by
  have middle := wellFormed.reader_le_writer
  have upper := wellFormed.writer_le_length
  rw [VectorBuffer.bytes, if_pos (by omega), peek, List.drop_take, List.take_take,
    Nat.min_eq_left readable]

theorem WellFormed.retrieveAll (wellFormed : buffer.WellFormed) :
    buffer.retrieveAll.WellFormed ∧ buffer.retrieveAll.peek = [] := by
  refine ⟨⟨le_rfl, wellFormed.prepend_le_length, wellFormed.prepend_le_length,
    wellFormed.length_le_max⟩, ?_⟩
  simp [peek, VectorBuffer.retrieveAll]

theorem WellFormed.retrieve (wellFormed : buffer.WellFormed) (length : Nat) :
    Yields (fun rest => rest.WellFormed ∧ rest.peek = buffer.peek.drop length)
      (buffer.retrieve length) := by
  have upper := wellFormed.writer_lt
  rw [VectorBuffer.retrieve, wellFormed.readableBytes]
  change Yields _ (if _ then _ else _)
  split
  · rename_i short
    have small : buffer.readerIndex + length < sizeLimit := by
      simp only [maxSize, sizeLimit] at upper ⊢
      omega
    simp only [plus_eq small]
    refine ⟨⟨?_, wellFormed.writer_le_length, wellFormed.prepend_le_length,
      wellFormed.length_le_max⟩, ?_⟩
    · change buffer.readerIndex + length ≤ buffer.writerIndex
      omega
    · simp only [peek, List.drop_drop]
  · rename_i long
    rw [List.drop_eq_nil_of_le (by rw [length_peek wellFormed]; omega)]
    exact wellFormed.retrieveAll

/-- The buffer with bytes that were written where there is room for them, and then declared. -/
def extend (data : Bytes) (buffer : VectorBuffer) : VectorBuffer where
  storage := overwrite buffer.writerIndex data buffer.storage
  readerIndex := buffer.readerIndex
  writerIndex := buffer.writerIndex + data.length

theorem write_eq {data : Bytes}
    (room : buffer.writerIndex + data.length ≤ buffer.storage.length) :
    buffer.write data =
      .ok { buffer with storage := overwrite buffer.writerIndex data buffer.storage } := by
  rw [write, copyTo, if_pos room]
  rfl

theorem WellFormed.extend (wellFormed : buffer.WellFormed) {data : Bytes}
    (room : buffer.writerIndex + data.length ≤ buffer.storage.length) :
    (buffer.extend data).WellFormed ∧ (buffer.extend data).peek = buffer.peek ++ data := by
  have length := length_overwrite room
  refine ⟨⟨Nat.le_add_right_of_le wellFormed.reader_le_writer, length ▸ room,
    length ▸ wellFormed.prepend_le_length, length ▸ wellFormed.length_le_max⟩, ?_⟩
  simp only [peek, VectorBuffer.extend, take_overwrite_end room]
  apply List.drop_append_of_le_length
  rw [List.length_take_of_le wellFormed.writer_le_length]
  exact wellFormed.reader_le_writer

theorem WellFormed.write (wellFormed : buffer.WellFormed) {data : Bytes}
    (room : buffer.writerIndex + data.length ≤ buffer.storage.length) :
    Yields (fun written => written.hasWritten data.length = buffer.extend data)
      (buffer.write data) := by
  have upper := wellFormed.length_le_max
  have small : buffer.writerIndex + data.length < sizeLimit := by
    simp only [maxSize, sizeLimit] at upper ⊢
    omega
  rw [write_eq room]
  change hasWritten _ _ = _
  rw [hasWritten, plus_eq small, VectorBuffer.extend]

/-- Where no sum wraps around, there are read bytes before the unread ones that are moved. -/
theorem SpaceFits.of_small {length : Nat}
    (full : buffer.storage.length < buffer.writerIndex + length)
    (small : length + kPrependSize < sizeLimit ∧ buffer.writerIndex + length < sizeLimit) :
    buffer.SpaceFits length := by
  rw [SpaceFits, plus_eq small.1]
  split
  · exact small.2
  · omega

/-- The unread bytes are kept, and there is room for the length unless it wraps around. -/
theorem WellFormed.makeSpace (wellFormed : buffer.WellFormed) {length : Nat}
    (full : buffer.storage.length < buffer.writerIndex + length)
    (fits : buffer.SpaceFits length) :
    Yields (fun roomy => roomy.WellFormed ∧ roomy.peek = buffer.peek ∧
      (length + kPrependSize < sizeLimit → roomy.writerIndex + length ≤ roomy.storage.length))
      (buffer.makeSpace length) := by
  have lower := wellFormed.reader_le_writer
  have middle := wellFormed.writer_le_length
  have upper := wellFormed.length_le_max
  have reserved := wellFormed.prepend_le_length
  have unused : buffer.storage.length - buffer.writerIndex + buffer.readerIndex < sizeLimit := by
    simp only [maxSize, sizeLimit] at upper ⊢
    omega
  rw [VectorBuffer.makeSpace, wellFormed.writableBytes, wellFormed.readableBytes]
  change Yields _ (if _ then _ else _)
  rw [plus_eq unused]
  unfold SpaceFits at fits
  split
  · -- The vector grows at its end.
    rename_i tight
    rw [if_pos tight] at fits
    rw [plus_eq fits, resize]
    split
    · rename_i small
      have grown : (buffer.storage.take (buffer.writerIndex + length) ++ List.replicate
          (buffer.writerIndex + length - buffer.storage.length) 0).length =
            buffer.writerIndex + length := by
        simp only [List.length_append, List.length_take, List.length_replicate]
        omega
      refine ⟨⟨lower, ?_, ?_, ?_⟩, ?_, ?_⟩
      · exact (Nat.le_add_right _ _).trans grown.ge
      · exact (reserved.trans full.le).trans grown.ge
      · exact grown.le.trans small
      · have whole : buffer.storage.take (buffer.writerIndex + length) = buffer.storage :=
          List.take_of_length_le full.le
        simp only [peek]
        rw [whole, List.take_append_of_le_length middle]
      · exact fun _ => grown.ge
    · rfl
  · -- The unread bytes move to the front: there are read bytes before them, so what the copy
    -- writes comes before what it still has to read.
    rename_i roomy
    rw [if_neg roomy] at fits
    have front : kPrependSize ≤ buffer.readerIndex := fits
    have inside : buffer.readerIndex + (buffer.writerIndex - buffer.readerIndex) ≤
        buffer.storage.length := by omega
    have moved : (buffer.storage.drop buffer.readerIndex).take
        (buffer.writerIndex - buffer.readerIndex) = buffer.peek := by
      rw [peek, List.drop_take]
    have count := length_peek wellFormed
    have target : kPrependSize + buffer.peek.length ≤ buffer.storage.length := by omega
    have length := length_overwrite target
    change Yields _ (if _ then _ else _)
    rw [if_pos (by omega), copyForward_eq front inside, moved, ← count,
      plus_eq (by simp only [maxSize, sizeLimit] at upper ⊢; omega)]
    refine ⟨⟨Nat.le_add_right _ _, length ▸ target, length ▸ reserved, length ▸ upper⟩, ?_, ?_⟩
    · rw [peek]
      simp only [take_overwrite_end target]
      apply List.drop_left'
      rw [List.length_take_of_le reserved]
    · intro whole
      rw [plus_eq whole] at roomy
      simp only [length]
      omega

theorem WellFormed.ensureWritableBytes (wellFormed : buffer.WellFormed) {length : Nat}
    (fits : buffer.storage.length < buffer.writerIndex + length → buffer.SpaceFits length) :
    Yields (fun roomy => roomy.WellFormed ∧ roomy.peek = buffer.peek ∧
      (length + kPrependSize < sizeLimit → roomy.writerIndex + length ≤ roomy.storage.length))
      (buffer.ensureWritableBytes length) := by
  have middle := wellFormed.writer_le_length
  rw [VectorBuffer.ensureWritableBytes, wellFormed.writableBytes]
  change Yields _ (if _ then _ else _)
  split
  · rename_i full
    exact wellFormed.makeSpace (by omega) (fits (by omega))
  · rename_i roomy
    exact ⟨wellFormed, rfl, fun _ => by omega⟩

theorem WellFormed.append (wellFormed : buffer.WellFormed) {data : Bytes}
    (real : data.length ≤ maxSize) :
    Yields (fun longer => longer.WellFormed ∧ longer.peek = buffer.peek ++ data)
      (buffer.append data) := by
  have upper := wellFormed.writer_lt
  have fits : data.length + kPrependSize < sizeLimit ∧
      buffer.writerIndex + data.length < sizeLimit := by
    simp only [maxSize, sizeLimit, kPrependSize] at upper real ⊢
    omega
  rw [VectorBuffer.append]
  refine (wellFormed.ensureWritableBytes fun full => .of_small full fits).bind ?_
  rintro roomy ⟨still, same, space⟩
  have room := space fits.1
  refine (still.write room).bind ?_
  rintro written declared
  rcases still.extend room with ⟨longer, more⟩
  change WellFormed (written.hasWritten _) ∧ peek (written.hasWritten _) = _
  rw [declared]
  exact ⟨longer, by rw [more, same]⟩

theorem WellFormed.prepend (wellFormed : buffer.WellFormed) {data : Bytes}
    (room : data.length ≤ buffer.readerIndex) :
    Yields (fun longer => longer.WellFormed ∧ longer.peek = data ++ buffer.peek)
      (buffer.prepend data) := by
  have lower := wellFormed.reader_le_writer
  have middle := wellFormed.writer_le_length
  have target : buffer.readerIndex - data.length + data.length ≤ buffer.storage.length := by omega
  have length := length_overwrite target
  rw [VectorBuffer.prepend, minus_eq room]
  change Yields _ (copyTo _ _ _ >>= _)
  rw [copyTo, if_pos target]
  refine ⟨⟨?_, length ▸ middle, length ▸ wellFormed.prepend_le_length,
    length ▸ wellFormed.length_le_max⟩, ?_⟩
  · change buffer.readerIndex - data.length ≤ buffer.writerIndex
    omega
  · simp only [peek, List.drop_take, drop_overwrite target]
    rw [List.take_append, Nat.sub_add_cancel room]
    rw [List.take_of_length_le (by omega)]
    congr 2
    omega

theorem WellFormed.shrink (wellFormed : buffer.WellFormed) {reserve : Nat}
    (fits : kPrependSize + (buffer.writerIndex - buffer.readerIndex) + reserve < sizeLimit) :
    Yields (fun small => small.WellFormed ∧ small.peek = buffer.peek) (buffer.shrink reserve) := by
  have count := length_peek wellFormed
  rw [VectorBuffer.shrink, wellFormed.readableBytes]
  change Yields _ (newVector _ >>= _)
  rw [plus_eq (by omega : kPrependSize + (buffer.writerIndex - buffer.readerIndex) < sizeLimit),
    plus_eq fits]
  refine (yields_newVector _).bind ?_
  rintro empty ⟨size, least⟩
  rw [wellFormed.bytes le_rfl, ← count, List.take_length]
  have target : kPrependSize + buffer.peek.length ≤ empty.length := by omega
  have length := length_overwrite target
  change Yields _ (copyTo _ _ _ >>= _)
  rw [copyTo, if_pos target]
  refine ⟨⟨Nat.le_add_right _ _, length ▸ target, ?_, ?_⟩, ?_⟩
  · simp only [length]
    omega
  · simp only [length]
    omega
  · rw [peek]
    simp only [take_overwrite_end target]
    apply List.drop_left'
    rw [List.length_take_of_le (by omega)]

/-- What `readv` puts into the second buffer is appended after what it puts into the first. -/
theorem WellFormed.readFd (wellFormed : buffer.WellFormed) {received : Option Bytes}
    (allowed : (Operation.readFd received).Allowed buffer) :
    Yields (fun longer => longer.WellFormed ∧ longer.peek = buffer.peek ++ received.getD [])
      (buffer.readFd received) := by
  have middle := wellFormed.writer_le_length
  have upper := wellFormed.length_le_max
  rw [VectorBuffer.readFd, wellFormed.writableBytes]
  cases received with
  | none => exact ⟨wellFormed, (List.append_nil _).symm⟩
  | some data =>
      have bound := allowed data rfl
      let front := data.take (buffer.storage.length - buffer.writerIndex)
      have room : buffer.writerIndex + front.length ≤ buffer.storage.length := by
        rw [List.length_take]
        omega
      rcases wellFormed.extend room with ⟨longer, more⟩
      by_cases whole : data.length ≤ buffer.storage.length - buffer.writerIndex
      · have all : front = data := List.take_of_length_le whole
        refine (wellFormed.write room).bind ?_
        rintro written declared
        rw [if_pos whole]
        rw [all] at declared longer more
        change WellFormed (written.hasWritten _) ∧ peek (written.hasWritten _) = _
        rw [declared]
        exact ⟨longer, more⟩
      · -- The vector is full, and the rest is in the second buffer.
        have full : buffer.writerIndex + front.length = buffer.storage.length := by
          rw [List.length_take]
          omega
        have filled : { buffer with
            storage := overwrite buffer.writerIndex front buffer.storage
            writerIndex := (overwrite buffer.writerIndex front buffer.storage).length } =
              buffer.extend front := by
          rw [VectorBuffer.extend, length_overwrite room, full]
        have real : (data.drop (buffer.storage.length - buffer.writerIndex)).length ≤ maxSize := by
          have spare : (if buffer.storage.length - buffer.writerIndex < extraSize then extraSize
              else 0) ≤ extraSize := by
            split
            · exact le_rfl
            · exact Nat.zero_le _
          have most : extraSize ≤ maxSize := by decide
          rw [List.length_drop]
          omega
        change Yields _ (buffer.write front >>= _)
        rw [write_eq room]
        change Yields _ (if _ then _ else _)
        rw [if_neg whole, filled]
        refine Eq.mp ?_ (longer.append real)
        rw [more, List.append_assoc, List.take_append_drop]
        rfl

theorem WellFormed.perform (wellFormed : buffer.WellFormed) {operation : Operation}
    (allowed : operation.Allowed buffer) (fits : operation.Fits buffer) :
    Yields (fun result => result.2.WellFormed ∧
      (result.1, result.2.peek) = operation.onQueue buffer.peek) (buffer.perform operation) := by
  have count := length_peek wellFormed
  -- an operation that gives nothing to its caller
  have silent : ∀ {queue : Bytes} {after : VectorBuffer}, after.WellFormed ∧ after.peek = queue →
      after.WellFormed ∧ (([] : Bytes), after.peek) = ([], queue) :=
    fun both => ⟨both.1, congrArg ([], ·) both.2⟩
  cases operation with
  | append data =>
      exact (wellFormed.append allowed).map fun _ => silent
  | retrieve length =>
      exact (wellFormed.retrieve length).map fun _ => silent
  | retrieveAll => exact silent wellFormed.retrieveAll
  | retrieveUntil offset =>
      exact (wellFormed.retrieve offset).map fun _ => silent
  | retrieveAsString length =>
      simp only [VectorBuffer.perform, retrieveAsString, wellFormed.readableBytes]
      change Yields _ (buffer.bytes _ >>= _)
      rw [wellFormed.bytes (Nat.min_le_right ..), ← count]
      refine (wellFormed.retrieve length).bind ?_
      rintro rest ⟨still, less⟩
      exact ⟨still, by rw [less, ← List.take_eq_take_min]; rfl⟩
  | ensureWritableBytes length =>
      refine (wellFormed.ensureWritableBytes fits).map ?_
      rintro roomy ⟨still, same, -⟩
      exact silent ⟨still, same⟩
  | hasWritten data =>
      refine (wellFormed.write allowed).bind ?_
      rintro written declared
      change WellFormed (written.hasWritten _) ∧ ([], peek (written.hasWritten _)) = _
      rw [declared]
      exact silent (wellFormed.extend allowed)
  | unwrite length =>
      have least : buffer.readerIndex + length ≤ buffer.writerIndex := allowed
      have middle := wellFormed.writer_le_length
      simp only [VectorBuffer.perform, unwrite, minus_eq (Nat.le_of_add_left_le least)]
      refine ⟨⟨Nat.le_sub_of_add_le least, (Nat.sub_le _ _).trans middle,
        wellFormed.prepend_le_length, wellFormed.length_le_max⟩, congrArg ([], ·) ?_⟩
      change (buffer.storage.take (buffer.writerIndex - length)).drop buffer.readerIndex =
        buffer.peek.take (buffer.peek.length - length)
      rw [count, peek, List.take_drop, List.take_take]
      congr 2
      omega
  | prepend data =>
      exact (wellFormed.prepend allowed).map fun _ => silent
  | shrink reserve =>
      exact (wellFormed.shrink fits).map fun _ => silent
  | readFd received =>
      exact (wellFormed.readFd allowed).map fun _ => silent
  | writeFd taken =>
      simp only [VectorBuffer.perform, writeFd, wellFormed.readableBytes]
      change Yields _ (buffer.bytes _ >>= _)
      rw [wellFormed.bytes le_rfl, ← count, List.take_length]
      cases taken with
      | none => exact ⟨wellFormed, rfl⟩
      | some length =>
          refine (wellFormed.retrieve length).bind ?_
          rintro rest ⟨still, less⟩
          exact ⟨still, congrArg (buffer.peek.take length, ·) less⟩

/-- The run of the buffer is the run of its queue. -/
theorem WellFormed.run (wellFormed : buffer.WellFormed) {operations : List Operation}
    (allowed : buffer.Throughout Operation.Allowed operations)
    (fits : buffer.Throughout Operation.Fits operations) :
    Yields (fun result => result.2.WellFormed ∧
      (result.1, result.2.peek) = queueRun buffer.peek operations) (buffer.run operations) := by
  induction operations generalizing buffer with
  | nil => exact ⟨wellFormed, rfl⟩
  | cons operation operations inductionHypothesis =>
      rcases allowed with ⟨allowed, others⟩
      rcases fits with ⟨fits, otherFits⟩
      rw [VectorBuffer.run]
      have first := wellFormed.perform allowed fits
      cases performed : buffer.perform operation with
      | error failure =>
          rw [performed] at first
          exact first
      | ok result =>
          obtain ⟨given, next⟩ := result
          rw [performed] at first
          rcases first with ⟨still, same⟩
          refine (inductionHypothesis still (others given next performed)
            (otherFits given next performed)).bind ?_
          rintro ⟨rest, last⟩ ⟨ended, remains⟩
          refine ⟨ended, ?_⟩
          rw [queueRun, ← same]
          simp only [← remains]

theorem wellFormed_new {initialSize : Nat} (small : kPrependSize + initialSize < sizeLimit) :
    Yields (fun buffer => buffer.WellFormed ∧ buffer.peek = []) (new initialSize) := by
  rw [new, plus_eq small]
  refine (yields_newVector _).bind ?_
  rintro storage ⟨length, least⟩
  refine ⟨⟨le_rfl, ?_, ?_, ?_⟩, ?_⟩
  · simp only [length]
    omega
  · simp only [length]
    omega
  · simp only [length]
    exact least
  · rw [peek]
    apply List.drop_eq_nil_of_le
    rw [List.length_take]
    exact Nat.min_le_left _ _

/-- A run of a new buffer is the run of an empty queue, and ends with the indices in the vector,
if no vector that it asks for is too large. -/
def IsQueue (initialSize : Nat) (operations : List Operation) : Prop :=
  Yields (fun result => result.2.readerIndex ≤ result.2.writerIndex ∧
      result.2.writerIndex ≤ result.2.storage.length ∧
      (result.1, result.2.peek) = queueRun [] operations)
    (new initialSize >>= fun buffer => buffer.run operations)

/-- The promises and the sizes of a run of a new buffer. -/
def FromNew (condition : VectorBuffer → Operation → Prop) (initialSize : Nat)
    (operations : List Operation) : Prop :=
  ∀ buffer, new initialSize = .ok buffer → buffer.Throughout condition operations

/-- The byte buffer is a queue of bytes, in every run whose sizes do not wrap around. -/
theorem is_queue {initialSize : Nat} (small : kPrependSize + initialSize < sizeLimit)
    {operations : List Operation} (allowed : FromNew Operation.Allowed initialSize operations)
    (fits : FromNew Operation.Fits initialSize operations) : IsQueue initialSize operations := by
  have first := wellFormed_new small
  rw [IsQueue]
  cases made : new initialSize with
  | error failure =>
      rw [made] at first
      exact first
  | ok buffer =>
      rw [made] at first
      rcases first with ⟨wellFormed, empty⟩
      have ended := wellFormed.run (allowed buffer made) (fits buffer made)
      rw [empty] at ended
      change Yields _ (buffer.run operations)
      cases ran : buffer.run operations with
      | error failure =>
          rw [ran] at ended
          exact ended
      | ok result =>
          rw [ran] at ended
          exact ⟨ended.1.reader_le_writer, ended.1.writer_le_length, ended.2⟩

/-- A buffer of four bytes that is read, and moved together for more. -/
theorem is_queue_four : kPrependSize + 4 < sizeLimit ∧
    IsQueue 4 [.append [1, 2, 3], .retrieveAsString 2, .append [4, 5, 6]] := by
  have three : ∀ bytes : Bytes, bytes.length = 3 → bytes.length ≤ maxSize := by
    intro bytes length
    rw [length]
    decide
  refine ⟨by decide, is_queue (by decide) ?_ ?_⟩
  · rintro buffer -
    exact ⟨three _ rfl, fun _ _ _ => ⟨(by decide : 2 < sizeLimit), fun _ _ _ =>
      ⟨three _ rfl, fun _ _ _ => trivial⟩⟩⟩
  · rintro buffer -
    exact ⟨trivial, fun _ _ _ => ⟨trivial, fun _ _ _ => ⟨trivial, fun _ _ _ => trivial⟩⟩⟩

/-- One byte in the buffer, and a size that wraps around with it. -/
theorem not_is_queue : ¬ ∀ (initialSize : Nat) (operations : List Operation),
    kPrependSize + initialSize < sizeLimit →
      FromNew Operation.Allowed initialSize operations → IsQueue initialSize operations := by
  intro all
  have allowed : FromNew Operation.Allowed 4
      [.append [97], .ensureWritableBytes (2 ^ 64 - 9)] := by
    rintro buffer -
    exact ⟨(by decide : 1 ≤ maxSize), fun _ _ _ =>
      ⟨(by decide : 2 ^ 64 - 9 < sizeLimit), fun _ _ _ => trivial⟩⟩
  have bounds := all 4 _ (by decide) allowed
  have ran : (new 4 >>= fun buffer =>
      buffer.run [.append [97], .ensureWritableBytes (2 ^ 64 - 9)]) =
        .ok ([[], []], ⟨[], 8, 9⟩) := by
    rfl
  rw [IsQueue, ran] at bounds
  exact absurd bounds.2.1 (by decide)

end VectorBuffer

/-! ## The buffer of the parser -/

namespace ByteBuffer

open VectorBuffer

/-- A buffer that keeps its reserved bytes, as one that has to. -/
def toVector (buffer : ByteBuffer) : VectorBuffer :=
  ⟨buffer.storage, buffer.readerIndex, buffer.writerIndex⟩

variable {buffer : ByteBuffer}

theorem wellFormed_toVector (small : buffer.storage.length ≤ maxSize) :
    buffer.toVector.WellFormed :=
  ⟨buffer.reader_le_writer, buffer.writer_le_length,
    buffer.prepend_le_reader.trans (buffer.reader_le_writer.trans buffer.writer_le_length), small⟩

theorem retrieve_toVector (small : buffer.storage.length ≤ maxSize) (length : Nat) :
    buffer.toVector.retrieve length = .ok (buffer.retrieve length).toVector := by
  have middle := buffer.writer_le_length
  rw [VectorBuffer.retrieve, (wellFormed_toVector small).readableBytes, ByteBuffer.retrieve]
  change (if length < buffer.readableBytes then _ else _) = _
  by_cases short : length < buffer.readableBytes
  · have inside : buffer.readerIndex + length < sizeLimit := by
      simp only [readableBytes, maxSize, sizeLimit] at short small ⊢
      omega
    rw [if_pos short, dif_pos short]
    simp only [toVector, plus_eq inside]
    rfl
  · rw [if_neg short, dif_neg short]
    rfl

theorem makeSpace_toVector {length : Nat} (small : buffer.storage.length ≤ maxSize)
    (room : buffer.writerIndex + length ≤ maxSize) (full : buffer.writableBytes < length) :
    buffer.toVector.makeSpace length = .ok (buffer.makeSpace length).toVector := by
  have lower := buffer.prepend_le_reader
  have upper := buffer.writer_le_length
  have inner := buffer.reader_le_writer
  have total : buffer.writerIndex + length < sizeLimit := by
    simp only [maxSize, sizeLimit] at room ⊢
    omega
  have request : length + kPrependSize < sizeLimit := by omega
  have unused : buffer.writableBytes + buffer.readerIndex < sizeLimit := by
    simp only [writableBytes, maxSize, sizeLimit] at small ⊢
    omega
  rw [VectorBuffer.makeSpace, (wellFormed_toVector small).writableBytes,
    (wellFormed_toVector small).readableBytes, ByteBuffer.makeSpace]
  change (if plus buffer.writableBytes buffer.readerIndex < _ then _ else _) = _
  rw [plus_eq unused, plus_eq request]
  by_cases tight : buffer.writableBytes + buffer.readerIndex < length + kPrependSize
  · rw [if_pos tight, if_pos tight]
    simp only [toVector, plus_eq total, resize, if_pos room]
    rw [List.take_of_length_le (by simp only [writableBytes] at full; omega)]
    rfl
  · rw [if_neg tight, if_neg tight]
    have readable : kPrependSize + buffer.readableBytes < sizeLimit := by
      simp only [readableBytes, maxSize, sizeLimit] at small ⊢
      omega
    have moved : (buffer.storage.drop buffer.readerIndex).take buffer.readableBytes =
        buffer.peek := by
      rw [peek, readableBytes, List.drop_take]
    have inside : buffer.readerIndex + buffer.readableBytes ≤ buffer.storage.length := by
      rw [readableBytes]
      omega
    change (if max buffer.writerIndex (kPrependSize + buffer.readableBytes) ≤
      buffer.storage.length then _ else _) = _
    rw [if_pos (by rw [readableBytes]; omega)]
    simp only [toVector]
    rw [show buffer.writerIndex - buffer.readerIndex = buffer.readableBytes from rfl,
      copyForward_eq lower inside, moved, plus_eq readable, overwrite, length_peek]
    rfl

/-- Writing where there is room is writing as far as there is room. -/
theorem extend_toVector {data : Bytes} (room : data.length ≤ buffer.writableBytes) :
    buffer.toVector.extend data = (buffer.fill data).toVector := by
  simp only [VectorBuffer.extend, toVector, fill, overwrite, List.take_of_length_le room,
    Nat.min_eq_left room]

theorem ensureWritableBytes_toVector {length : Nat} (small : buffer.storage.length ≤ maxSize)
    (room : buffer.writerIndex + length ≤ maxSize) :
    buffer.toVector.ensureWritableBytes length =
      .ok (buffer.ensureWritableBytes length).toVector := by
  rw [VectorBuffer.ensureWritableBytes, (wellFormed_toVector small).writableBytes,
    ByteBuffer.ensureWritableBytes]
  change (if buffer.writableBytes < length then _ else _) = _
  by_cases full : buffer.writableBytes < length
  · rw [if_pos full, if_pos full]
    exact makeSpace_toVector small room full
  · rw [if_neg full, if_neg full]
    rfl

theorem append_toVector {data : Bytes} (small : buffer.storage.length ≤ maxSize)
    (room : buffer.writerIndex + data.length ≤ maxSize) :
    buffer.toVector.append data = .ok (buffer.append data).toVector := by
  have ensured := ensureWritableBytes_toVector small room
  have fits : data.length + kPrependSize < sizeLimit ∧
      buffer.writerIndex + data.length < sizeLimit := by
    simp only [maxSize, sizeLimit, kPrependSize] at room ⊢
    omega
  have roomy := (wellFormed_toVector small).ensureWritableBytes fun full => .of_small full fits
  rw [ensured] at roomy
  rcases roomy with ⟨wellFormed, -, space⟩
  have wide := space fits.1
  have written := wellFormed.write wide
  rw [write_eq wide] at written
  rw [VectorBuffer.append, ensured]
  change VectorBuffer.write data _ >>= _ = _
  rw [write_eq wide]
  change Except.ok (VectorBuffer.hasWritten _ _) = _
  rw [written, extend_toVector (Nat.le_sub_of_add_le' wide)]
  rfl

end ByteBuffer

end MiniS3.Net
