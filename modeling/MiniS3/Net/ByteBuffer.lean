import MiniS3.Util.Bytes

/-!
# The byte buffer

`ByteBuffer` keeps its unread bytes between two indices of a vector.  Appending
makes room first, either by growing the vector or by moving the unread bytes to the
front.  The lemmas say that a client sees a queue: `peek` grows at its end by what is
appended or received, and shrinks at its front by what is retrieved, however the
bytes are moved.
-/

namespace MiniS3.Net

/-- `kPrependSize`. -/
def kPrependSize : Nat :=
  8

/-- `kInitialSize`. -/
def kInitialSize : Nat :=
  1024

/-- `ByteBuffer`.  Nothing is ever prepended, so the reserved space stays free. -/
structure ByteBuffer where
  storage : List UInt8
  readerIndex : Nat
  writerIndex : Nat
  prepend_le_reader : kPrependSize ≤ readerIndex
  reader_le_writer : readerIndex ≤ writerIndex
  writer_le_length : writerIndex ≤ storage.length

namespace ByteBuffer

/-- `ByteBuffer()`. -/
def initial : ByteBuffer where
  storage := List.replicate (kPrependSize + kInitialSize) 0
  readerIndex := kPrependSize
  writerIndex := kPrependSize
  prepend_le_reader := Nat.le_refl _
  reader_le_writer := Nat.le_refl _
  writer_le_length := by simp

/-- `ReadableBytes`. -/
def readableBytes (buffer : ByteBuffer) : Nat :=
  buffer.writerIndex - buffer.readerIndex

/-- `WritableBytes`. -/
def writableBytes (buffer : ByteBuffer) : Nat :=
  buffer.storage.length - buffer.writerIndex

/-- The bytes from `Peek()` to `BeginWrite()`. -/
def peek (buffer : ByteBuffer) : Bytes :=
  (buffer.storage.take buffer.writerIndex).drop buffer.readerIndex

/-- `RetrieveAll`. -/
def retrieveAll (buffer : ByteBuffer) : ByteBuffer where
  storage := buffer.storage
  readerIndex := kPrependSize
  writerIndex := kPrependSize
  prepend_le_reader := Nat.le_refl _
  reader_le_writer := Nat.le_refl _
  writer_le_length :=
    Nat.le_trans buffer.prepend_le_reader
      (Nat.le_trans buffer.reader_le_writer buffer.writer_le_length)

/-- `Retrieve`. -/
def retrieve (length : Nat) (buffer : ByteBuffer) : ByteBuffer :=
  if short : length < buffer.readableBytes then
    { buffer with
      readerIndex := buffer.readerIndex + length
      prepend_le_reader := Nat.le_trans buffer.prepend_le_reader (Nat.le_add_right _ _)
      reader_le_writer := by
        unfold readableBytes at short
        omega }
  else buffer.retrieveAll

/-- `MakeSpace`: grow the vector, or move the unread bytes to its front. -/
def makeSpace (length : Nat) (buffer : ByteBuffer) : ByteBuffer :=
  if buffer.writableBytes + buffer.readerIndex < length + kPrependSize then
    { buffer with
      storage := buffer.storage ++
        List.replicate (buffer.writerIndex + length - buffer.storage.length) 0
      writer_le_length := by
        have bound := buffer.writer_le_length
        simp only [List.length_append, List.length_replicate]
        omega }
  else
    { storage := buffer.storage.take kPrependSize ++ buffer.peek ++
        buffer.storage.drop (kPrependSize + buffer.readableBytes)
      readerIndex := kPrependSize
      writerIndex := kPrependSize + buffer.readableBytes
      prepend_le_reader := Nat.le_refl _
      reader_le_writer := Nat.le_add_right _ _
      writer_le_length := by
        have lower := buffer.prepend_le_reader
        have middle := buffer.reader_le_writer
        have upper := buffer.writer_le_length
        simp only [peek, readableBytes, List.length_append, List.length_take, List.length_drop]
        omega }

/-- `EnsureWritableBytes`. -/
def ensureWritableBytes (length : Nat) (buffer : ByteBuffer) : ByteBuffer :=
  if buffer.writableBytes < length then buffer.makeSpace length else buffer

/-- Copy bytes to `BeginWrite()` and advance the writer index, as far as there is room. -/
def fill (data : Bytes) (buffer : ByteBuffer) : ByteBuffer where
  storage := buffer.storage.take buffer.writerIndex ++ data.take buffer.writableBytes ++
    buffer.storage.drop (buffer.writerIndex + data.length)
  readerIndex := buffer.readerIndex
  writerIndex := buffer.writerIndex + min data.length buffer.writableBytes
  prepend_le_reader := buffer.prepend_le_reader
  reader_le_writer := Nat.le_trans buffer.reader_le_writer (Nat.le_add_right _ _)
  writer_le_length := by
    have upper := buffer.writer_le_length
    simp only [List.length_append, List.length_take, List.length_drop]
    omega

/-- `Append`. -/
def append (data : Bytes) (buffer : ByteBuffer) : ByteBuffer :=
  (buffer.ensureWritableBytes data.length).fill data

/-- `ReadFd` when `readv` delivers `data`: what does not fit goes through the second
buffer. -/
def readFd (data : Bytes) (buffer : ByteBuffer) : ByteBuffer :=
  if data.length ≤ buffer.writableBytes then buffer.fill data
  else (buffer.fill data).append (data.drop buffer.writableBytes)

/-! ## What a client sees -/

@[simp]
theorem peek_initial : initial.peek = [] := by
  decide

@[simp]
theorem length_peek (buffer : ByteBuffer) : buffer.peek.length = buffer.readableBytes := by
  have upper := buffer.writer_le_length
  simp only [peek, readableBytes, List.length_drop, List.length_take]
  omega

@[simp]
theorem peek_retrieveAll (buffer : ByteBuffer) : buffer.retrieveAll.peek = [] := by
  simp [peek, retrieveAll]

@[simp]
theorem peek_retrieve (length : Nat) (buffer : ByteBuffer) :
    (buffer.retrieve length).peek = buffer.peek.drop length := by
  unfold retrieve
  split
  · simp [peek, List.drop_drop]
  · rename_i long
    rw [peek_retrieveAll, List.drop_eq_nil_of_le]
    simpa using long

@[simp]
theorem peek_makeSpace (length : Nat) (buffer : ByteBuffer) :
    (buffer.makeSpace length).peek = buffer.peek := by
  have lower := buffer.prepend_le_reader
  have middle := buffer.reader_le_writer
  have upper := buffer.writer_le_length
  unfold makeSpace
  split
  · simp only [peek, List.take_append_of_le_length upper]
  · -- The unread bytes lie between the reserved space and what is left of the vector.
    have reserved : (buffer.storage.take kPrependSize).length = kPrependSize := by
      rw [List.length_take]
      omega
    change ((buffer.storage.take kPrependSize ++ buffer.peek ++
      buffer.storage.drop (kPrependSize + buffer.readableBytes)).take
        (kPrependSize + buffer.readableBytes)).drop kPrependSize = buffer.peek
    rw [List.take_left' (by rw [List.length_append, reserved, length_peek]),
      List.drop_left' reserved]

theorem writable_makeSpace {length : Nat} {buffer : ByteBuffer}
    (small : buffer.writableBytes < length) :
    length ≤ (buffer.makeSpace length).writableBytes := by
  have lower := buffer.prepend_le_reader
  have middle := buffer.reader_le_writer
  have upper := buffer.writer_le_length
  unfold writableBytes at small
  unfold makeSpace
  split
  · simp only [writableBytes, List.length_append, List.length_replicate]
    omega
  · rename_i roomy
    simp only [writableBytes] at roomy
    simp only [writableBytes, peek, readableBytes, List.length_append, List.length_take,
      List.length_drop]
    omega

theorem peek_fill (data : Bytes) (buffer : ByteBuffer) :
    (buffer.fill data).peek = buffer.peek ++ data.take buffer.writableBytes := by
  have middle := buffer.reader_le_writer
  have upper := buffer.writer_le_length
  have front : (buffer.storage.take buffer.writerIndex).length = buffer.writerIndex := by
    rw [List.length_take]
    omega
  have written : (buffer.storage.take buffer.writerIndex ++
      data.take buffer.writableBytes).length =
      buffer.writerIndex + min data.length buffer.writableBytes := by
    simp only [List.length_append, front, List.length_take]
    omega
  simp only [peek, fill]
  rw [List.take_left' written, List.drop_append_of_le_length (by omega)]

@[simp]
theorem peek_append (data : Bytes) (buffer : ByteBuffer) :
    (buffer.append data).peek = buffer.peek ++ data := by
  unfold append ensureWritableBytes
  split
  · rename_i small
    rw [peek_fill, peek_makeSpace, List.take_of_length_le (writable_makeSpace small)]
  · rename_i roomy
    rw [peek_fill, List.take_of_length_le (Nat.le_of_not_lt roomy)]

@[simp]
theorem peek_readFd (data : Bytes) (buffer : ByteBuffer) :
    (buffer.readFd data).peek = buffer.peek ++ data := by
  unfold readFd
  split
  · rename_i fits
    rw [peek_fill, List.take_of_length_le fits]
  · rw [peek_append, peek_fill, List.append_assoc, List.take_append_drop]

end ByteBuffer

end MiniS3.Net
