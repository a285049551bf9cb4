import MiniS3.Storage.Reading

/-!
# The slice that a read returns

What is left of the file after some calls of `read` is what was left before them without the bytes
they returned, so that the pieces a loop has passed on are always a part of the slice, and what it
still has to pass on is the same slice of the rest.  The loop ends when that slice is empty, or when
`read` returns no byte, which it does only at the end of the file.
-/

namespace MiniS3

open Lib Db

namespace DataStore

/-- What is still to be passed on of the rest of a file; the length 0 asks for all of it. -/
def slice (length remaining : Nat) (rest : Bytes) : Bytes :=
  if length = 0 then rest else rest.take remaining

/-- A callback that always continues. -/
def Continues {σ : Type} (callback : σ → Bytes → σ × Bool) : Prop :=
  ∀ state data, (callback state data).2 = true

/-- The state of the callback after it was passed the pieces. -/
def passed {σ : Type} (callback : σ → Bytes → σ × Bool) (state : σ) (pieces : List Bytes) : σ :=
  pieces.foldl (fun state data => (callback state data).1) state

section Loops

variable {setup : Setup} {reader : Reader} {calls : Nat}

/-- A `read` that returns a byte returns a part of what is left. -/
theorem Reader.within_of_returns {count length : Nat}
    (returns : reader.returns count (length + 1) = true) :
    length + 1 ≤ count ∧ length + 1 ≤ reader.rest.length := by
  unfold Reader.returns at returns
  split at returns
  · simp at returns
  · simp only [Bool.and_eq_true, decide_eq_true_eq] at returns
    exact ⟨returns.1.2, returns.2⟩

/-- A `read` returns nothing only at the end of the file. -/
theorem Reader.rest_of_returns_zero {count : Nat} (asked : 0 < count)
    (returns : reader.returns count 0 = true) : reader.rest = [] := by
  unfold Reader.returns at returns
  split at returns
  · rename_i ended
    rcases (Bool.or_eq_true _ _).mp ended with isEmpty | isZero
    · exact List.isEmpty_iff.mp isEmpty
    · exact absurd (eq_of_beq isZero) (Nat.ne_of_gt asked)
  · simp at returns

theorem Reader.rest_advance (length : Nat) :
    Reader.rest { reader with position := reader.position + length } = reader.rest.drop length := by
  simp [Reader.rest, List.drop_drop]

/-- The bytes of one `read`, and what is still to be passed on after it. -/
theorem slice_append {length remaining count : Nat} (rest : Bytes)
    (asked : length ≠ 0 → count ≤ remaining) (within : count ≤ rest.length) :
    rest.take count ++ slice length
        (if length > 0 then remaining - (rest.take count).length else remaining)
        (rest.drop count) =
      slice length remaining rest := by
  have taken : (rest.take count).length = count := List.length_take_of_le within
  unfold slice
  by_cases whole : length = 0
  · rw [if_pos whole, if_pos whole, List.take_append_drop]
  · rw [if_neg whole, if_neg whole, if_pos (Nat.pos_of_ne_zero whole), taken, ← List.take_add,
      Nat.add_sub_cancel' (asked whole)]

/-- The loop of `StreamRead` passes on the slice that is left, whatever the calls return. -/
theorem reads_streamLoop {σ : Type} {callback : σ → Bytes → σ × Bool}
    (continues : Continues callback) {length remaining : Nat} {state : σ}
    (enough : reader.signals + reader.rest.length < calls) :
    Reads setup (fun result => ∃ pieces : List Bytes,
        pieces.flatten = slice length remaining reader.rest ∧
        result = some (.ok (), passed callback state pieces))
      (streamLoop length callback calls remaining state) reader := by
  induction calls generalizing reader remaining state with
  | zero => contradiction
  | succ calls inductionHypothesis =>
      unfold streamLoop
      by_cases wanted : length = 0 ∨ remaining > 0
      · rw [if_pos wanted]
        apply reads_read
        · intro signals interrupted
          have fewer : signals + reader.rest.length < calls := by omega
          exact @inductionHypothesis { reader with signals } _ _ fewer
        · intro count returns
          cases count with
          | zero =>
              have ended : reader.rest = [] := by
                apply Reader.rest_of_returns_zero _ returns
                split <;> omega
              refine ⟨[], ?_, rfl⟩
              simp [ended, slice]
          | succ count =>
              obtain ⟨asked, within⟩ := Reader.within_of_returns returns
              have fits : length ≠ 0 → count + 1 ≤ remaining := by
                intro some
                split at asked <;> omega
              have whole := slice_append reader.rest fits within
              have fewer : reader.signals + (reader.rest.drop (count + 1)).length < calls := by
                rw [List.length_drop]
                omega
              rw [← Reader.rest_advance] at fewer whole
              cases data : reader.rest.take (count + 1) with
              | nil => simp [List.ne_nil_of_length_pos (by omega : 0 < reader.rest.length)] at data
              | cons byte more =>
                  rw [data] at whole
                  have goesOn := continues state (byte :: more)
                  cases called : callback state (byte :: more) with
                  | mk after keeps =>
                      rw [called] at goesOn
                      cases goesOn
                      dsimp only [Program.bind]
                      rw [called]
                      refine (inductionHypothesis fewer).mono ?_
                      rintro result - ⟨pieces, rest, rfl⟩
                      refine ⟨(byte :: more) :: pieces, by rw [List.flatten_cons, rest, whole], ?_⟩
                      simp [passed, called]
      · rw [if_neg wanted]
        refine ⟨[], ?_, rfl⟩
        have some : length ≠ 0 := fun isZero => wanted (.inl isZero)
        have none : remaining = 0 := by omega
        simp [slice, some, none]

/-- The loop of `Read` appends what is left. -/
theorem reads_readLoop {size : Nat} {data : Bytes} (whole : data.length + reader.rest.length = size)
    (enough : reader.signals + reader.rest.length < calls) :
    Reads setup (fun result => result = some (.ok (data ++ reader.rest)))
      (readLoop size calls data) reader := by
  induction calls generalizing reader data with
  | zero => contradiction
  | succ calls inductionHypothesis =>
      unfold readLoop
      by_cases wanted : data.length < size
      · rw [if_pos wanted]
        apply reads_read
        · intro signals interrupted
          have fewer : signals + reader.rest.length < calls := by omega
          exact @inductionHypothesis { reader with signals } _ whole fewer
        · intro count returns
          cases count with
          | zero =>
              have ended : reader.rest = [] := Reader.rest_of_returns_zero (by omega) returns
              change some (Except.ok data) = some (Except.ok (data ++ reader.rest))
              rw [ended, List.append_nil]
          | succ count =>
              obtain ⟨-, within⟩ := Reader.within_of_returns returns
              have fewer : reader.signals + (reader.rest.drop (count + 1)).length < calls := by
                rw [List.length_drop]
                omega
              have split := List.take_append_drop (count + 1) reader.rest
              have lengths := congrArg List.length split
              rw [List.length_append] at lengths
              rw [← Reader.rest_advance] at fewer split lengths
              cases taken : reader.rest.take (count + 1) with
              | nil => simp [List.ne_nil_of_length_pos (by omega : 0 < reader.rest.length)] at taken
              | cons byte more =>
                  rw [taken] at split lengths
                  have stillWhole : (data ++ byte :: more).length +
                      (Reader.rest { reader with position := reader.position + (count + 1) }).length =
                        size := by
                    rw [List.length_append, Nat.add_assoc, lengths, whole]
                  have appended := inductionHypothesis stillWhole fewer
                  rw [List.append_assoc, split] at appended
                  exact appended
      · rw [if_neg wanted]
        have ended : reader.rest = [] := List.eq_nil_of_length_eq_zero (by omega)
        change some (Except.ok data) = some (Except.ok (data ++ reader.rest))
        rw [ended, List.append_nil]

end Loops

section Functions

variable {setup : Setup} {reader : Reader} {calls : Nat} {casKey content : Bytes}

theorem reads_readBlob (present : reader.world.files.lookup (setup.getCasPath casKey) = some content)
    (enough : reader.signals + content.length < calls) :
    Reads setup (fun result => result = some (.ok content)) (read setup calls casKey) reader := by
  apply reads_openRead present
  apply reads_fstat
  have appended := @reads_readLoop setup { reader with content, position := 0 } calls
    content.length [] (Nat.zero_add _) enough
  exact appended

theorem reads_streamRead {σ : Type} {callback : σ → Bytes → σ × Bool}
    (present : reader.world.files.lookup (setup.getCasPath casKey) = some content)
    (enough : reader.signals + content.length < calls) (continues : Continues callback)
    (offset length : Nat) (state : σ) :
    Reads setup (fun result => ∃ pieces : List Bytes,
        pieces.flatten = slice length length (content.drop offset) ∧
        result = some (.ok (), passed callback state pieces))
      (streamRead setup calls casKey offset length callback state) reader := by
  have stillEnough : reader.signals + (content.drop offset).length < calls := by
    rw [List.length_drop]
    omega
  have streams := @reads_streamLoop setup { reader with content, position := offset } calls σ
    callback continues length length state stillEnough
  apply reads_openRead present
  change Reads setup _ (if offset > 0 then _ else _) _
  by_cases seeks : offset > 0
  · rw [if_pos seeks]
    exact reads_lseek streams
  · rw [if_neg seeks]
    obtain rfl : offset = 0 := Nat.eq_zero_of_not_pos seeks
    exact streams

/-- The last byte of a range, clipped to the object; a negative end asks for all of it. -/
def clippedEnd (size end_ : Int) : Int :=
  if end_ < 0 then size - 1 else min end_ (size - 1)

/-- The answer to a range of an object with this content. -/
def RangeOf (content : Bytes) (info : ObjectInfo) (start end_ : Int)
    (result : Result (Bytes × ObjectInfo)) : Prop :=
  if start < 0 ∨ info.size ≤ start ∨ clippedEnd info.size end_ < start then
    ∃ status, result = .error status
  else
    result = .ok ((content.drop start.toNat).take
      (clippedEnd info.size end_ - start + 1).toNat, info)

/-- Collecting pieces appends them. -/
theorem passed_collect (state : Bytes) (pieces : List Bytes) :
    passed (fun content data => (content ++ data, true)) state pieces =
      state ++ pieces.flatten := by
  induction pieces generalizing state with
  | nil => exact (List.append_nil state).symm
  | cons piece pieces inductionHypothesis =>
      change passed _ (state ++ piece) pieces = _
      rw [inductionHypothesis, List.append_assoc, List.flatten_cons]

/-- The two steps in which the source clips the end. -/
theorem clip_twice (size end_ : Int) :
    (if (if end_ < 0 then size - 1 else end_) ≥ size then size - 1
      else if end_ < 0 then size - 1 else end_) = clippedEnd size end_ := by
  unfold clippedEnd
  split_ifs <;> omega

theorem reads_streamRange {info : ObjectInfo}
    (present : reader.world.files.lookup (setup.getCasPath info.sha256Hash) = some content)
    (enough : reader.signals + content.length < calls) (start end_ : Int) :
    Reads setup (fun result => ∃ answered, result = some answered ∧
        RangeOf content info start end_ answered)
      (ObjectService.streamRange setup calls info start end_) reader := by
  unfold ObjectService.streamRange RangeOf
  by_cases badStart : start < 0 ∨ start ≥ info.size
  · rw [if_pos badStart]
    refine ⟨_, rfl, ?_⟩
    rw [if_pos (badStart.imp_right .inl)]
    exact ⟨_, rfl⟩
  · simp only [if_neg badStart, clip_twice]
    by_cases badEnd : start > clippedEnd info.size end_
    · rw [if_pos badEnd]
      refine ⟨_, rfl, ?_⟩
      rw [if_pos (.inr (.inr badEnd))]
      exact ⟨_, rfl⟩
    · rw [if_neg badEnd]
      have isRange : ¬(start < 0 ∨ info.size ≤ start ∨ clippedEnd info.size end_ < start) := by
        omega
      have asksForSome : (clippedEnd info.size end_ - start + 1).toNat ≠ 0 := by omega
      have collects : Continues fun content data : Bytes => (content ++ data, true) :=
        fun _ _ => rfl
      apply Program.ensures_bind.mpr
      refine (reads_streamRead present enough collects _ _ _).mono ?_
      rintro result - ⟨pieces, isSlice, rfl⟩
      refine ⟨_, rfl, ?_⟩
      rw [if_neg isRange, passed_collect, isSlice, slice, if_neg asksForSome]
      rfl

end Functions

/-- The program ends in this value when the calls turn out in some way in which none fails. -/
def Returns (setup : Setup) {α : Type} (program : ReadM α) (reader : Reader) (value : α) : Prop :=
  ∃ choices after, (∀ choice ∈ choices, ReadChoice.Untroubled choice) ∧
    Program.execute (Reader.answer setup) program choices reader = some (value, after)

theorem Returns.of_reads {setup : Setup} {α : Type} {post : α → Prop} {program : ReadM α}
    {reader : Reader} {value : α} (returns : Returns setup program reader value)
    (reads : Reads setup post program reader) : post value := by
  obtain ⟨choices, after, untroubled, executed⟩ := returns
  exact reads.of_execute untroubled executed

/-- What the functions return that read a blob of this content. -/
structure ReadsSlices (setup : Setup) (calls : Nat) (casKey content : Bytes) (reader : Reader) :
    Prop where
  streamRead : ∀ {σ : Type} {callback : σ → Bytes → σ × Bool} {offset length : Nat} {state : σ}
    {result : Option (Result Unit × σ)}, Continues callback →
    Returns setup (streamRead setup calls casKey offset length callback state) reader result →
    ∃ pieces : List Bytes,
      pieces.flatten =
        (if length = 0 then content.drop offset else (content.drop offset).take length) ∧
      result = some (.ok (), passed callback state pieces)
  read : ∀ {result : Option (Result Bytes)},
    Returns setup (read setup calls casKey) reader result → result = some (.ok content)
  getObjectRange : ∀ {bucketId : Int} {key : Bytes} {info : ObjectInfo} {start end_ : Int}
    {result : Option (Result (Bytes × ObjectInfo))},
    reader.world.tables.foundObject setup.indexed bucketId key reader.world.caches = some info →
    info.sha256Hash = casKey → info.size = content.length →
    Returns setup (ObjectService.getObjectRange setup calls bucketId key start end_) reader
      result →
    ∃ answered, result = some answered ∧ RangeOf content info start end_ answered

/-- Whatever the reads return and however often they are interrupted, a slice of the blob is
read. -/
theorem reads_return_the_slice {setup : Setup} {calls : Nat} {casKey content : Bytes}
    {reader : Reader}
    (present : reader.world.files.lookup (setup.getCasPath casKey) = some content)
    (enough : reader.signals + content.length < calls) :
    ReadsSlices setup calls casKey content reader := by
  constructor
  · intro σ callback offset length state result continues returns
    exact returns.of_reads (reads_streamRead present enough continues offset length state)
  · intro result returns
    exact returns.of_reads (reads_readBlob present enough)
  · intro bucketId key info start end_ result found isKey _ returns
    subst isKey
    apply returns.of_reads
    apply reads_getObject found
    intro after sameFiles sameSignals
    rw [← sameFiles] at present
    rw [← sameSignals] at enough
    exact reads_streamRange present enough start end_

/-- A blob of two bytes, an object that refers to it, and one signal that is still to come. -/
def sampleReader : Reader where
  world := { World.empty with
    files := Table.set (sampleSetup.getCasPath (sampleSetup.sha256Hex (ascii "ab"))) (ascii "ab") ∅
    tables := Tables.empty.apply (.object (1, ascii "k")
      (some ⟨ascii "k", sampleSetup.sha256Hex (ascii "ab"), 2, [], []⟩)) }
  content := []
  position := 0
  signals := 1

/-- The second byte of it, with a read that is interrupted. -/
theorem reads_return_the_slice_sample :
    ReadsSlices sampleSetup 4 (sampleSetup.sha256Hex (ascii "ab")) (ascii "ab") sampleReader ∧
      ∃ info, Returns sampleSetup (ObjectService.getObjectRange sampleSetup 4 1 (ascii "k") 1 (-1))
        sampleReader (some (.ok (ascii "b", info))) := by
  constructor
  · exact reads_return_the_slice rfl (by decide)
  · refine ⟨_, [.sql [] ⟨0, 0⟩, .done, .done, .interrupted, .count 1], _, ?_, rfl⟩
    simp [ReadChoice.Untroubled]

end DataStore

end MiniS3
