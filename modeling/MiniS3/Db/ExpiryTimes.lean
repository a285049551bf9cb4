import MiniS3.Db.CallEffects
import MiniS3.Lib.Calendar
import MiniS3.Lib.Reader
import MiniS3.Util.Numeric

/-!
# Expiry times in the database

A time point goes into the database as a text that shows its date and time in UTC, and the text
is read back as a date and time of the local time zone.  `ParseMysqlTime` leaves `tm_isdst` at
zero, so that `mktime` takes it for standard time, in summer too.  So what comes back is the time
point only where standard time is UTC; anywhere else a record expires too early or too late, by as
much as standard time is ahead of UTC or behind it.

Time is in whole seconds here: a time of the clock that is compared with one of whole seconds can
be cut to whole seconds itself.
-/

namespace MiniS3.Db

open Lib

/-! ## Texts -/

/-- A number with zeros in front, up to a width. -/
def padded (width value : Nat) : Bytes :=
  List.replicate (width - (Bytes.ofNat value).length) 48 ++ Bytes.ofNat value

/-- `put_time` with the format `%Y-%m-%d %H:%M:%S`. -/
def putTime (time : CalendarTime) : Bytes :=
  Bytes.ofNat time.year ++ (45 :: padded 2 (time.month + 1)) ++ (45 :: padded 2 time.day) ++
    (32 :: padded 2 time.hour) ++ (58 :: padded 2 time.minute) ++ (58 :: padded 2 time.second)

/-- A number of at most so many digits, in a range. -/
def readNumber (width low high : Nat) : Reader UInt8 Nat := fun text =>
  let digits := (text.take width).takeWhile fun byte => (Bytes.digit? byte).isSome
  if digits = [] then none
  else
    ((Bytes.decimal? digits).filter fun value => decide (low ≤ value ∧ value ≤ high)).map
      (·, text.drop digits.length)

/-- A byte of the format. -/
def readByte (byte : UInt8) : Reader UInt8 Unit
  | [] => none
  | first :: rest => if first = byte then some ((), rest) else none

/-- A conversion of a format, with the field it sets, or what stands between two. -/
inductive Directive
  | number (width low high : Nat) (store : CalendarTime → Nat → CalendarTime)
  | byte (expected : UInt8)
  | blanks

/-- Read what a directive asks for. -/
def Directive.read (time : CalendarTime) (text : Bytes) :
    Directive → Option (CalendarTime × Bytes)
  | .number width low high store =>
      (readNumber width low high text).map fun (value, rest) => (store time value, rest)
  | .byte expected => (readByte expected text).map fun (_, rest) => (time, rest)
  | .blanks => some (time, text.dropWhile Bytes.isSpace)

/-- Follow the directives of a format.  Where the text ends early the other fields stay as they
are, and that is no failure. -/
def followFormat : List Directive → CalendarTime → Bytes → Option CalendarTime
  | _, time, [] => some time
  | [], time, _ => some time
  | directive :: directives, time, text =>
      (directive.read time text).bind fun (time, rest) => followFormat directives time rest

/-- `%Y-%m-%d %H:%M:%S`. -/
def dateTimeFormat : List Directive :=
  [.number 4 0 9999 fun time year => { time with year },
    .byte 45,
    .number 2 1 12 fun time month => { time with month := month - 1 },
    .byte 45,
    .number 2 1 31 fun time day => { time with day },
    .blanks,
    .number 2 0 23 fun time hour => { time with hour },
    .byte 58,
    .number 2 0 59 fun time minute => { time with minute },
    .byte 58,
    .number 2 0 60 fun time second => { time with second }]

/-- `ss >> get_time(&tm, "%Y-%m-%d %H:%M:%S")` into a `tm` of zeros.  The stream skips leading
blanks, and fails when nothing follows them. -/
def getTime (text : Bytes) : Option CalendarTime :=
  let unread := text.dropWhile Bytes.isSpace
  if unread = [] then none else followFormat dateTimeFormat ⟨1900, 0, 0, 0, 0, 0⟩ unread

/-- `mktime` with `tm_isdst = 0`: the time point at which the standard time of the local zone,
which is ahead of UTC by an offset, shows a date from 1970 on and a time of day.  Day zero is the
day before the first one. -/
def mktime (standardOffset : Int) (time : CalendarTime) : Int :=
  time.toSeconds - (if time.day = 0 then 86400 else 0) - standardOffset

/-- `TimePointToMySQL` of a time point from 1970 on. -/
def timePointToMySQL (timePoint : Nat) : Bytes :=
  putTime (.ofSeconds timePoint)

/-- `ParseMysqlTime`.  A text that is missing or not understood stands for the present time. -/
def parseMysqlTime (standardOffset now : Int) (text : Option Bytes) : Int :=
  match text with
  | none => now
  | some text =>
      match getTime text with
      | none => now
      | some time => mktime standardOffset time

/-! ## Reading what was written -/

theorem padded_digits (width value : Nat) : ∀ byte ∈ padded width value,
    (Bytes.digit? byte).isSome := by
  intro byte member
  rcases List.mem_append.mp member with zero | digit
  · rw [List.eq_of_mem_replicate zero]
    rfl
  · exact Bytes.isSome_digit?_of_mem_ofNat digit

theorem length_ofNat_le {width value : Nat} (positive : 0 < width) :
    (Bytes.ofNat value).length ≤ width ↔ value < 10 ^ width := by
  rw [Bytes.ofNat, List.length_map, Nat.length_toDigits_le_iff (by decide) positive]

theorem length_padded {width value : Nat} (positive : 0 < width) (small : value < 10 ^ width) :
    (padded width value).length = width := by
  have fits := (length_ofNat_le positive).mpr small
  rw [padded, List.length_append, List.length_replicate]
  omega

theorem decimal?_padded (width value : Nat) :
    Bytes.decimal? (padded width value) = some value := by
  rw [padded]
  induction width - (Bytes.ofNat value).length with
  | zero => exact Bytes.decimal?_ofNat value
  | succ count inductionHypothesis =>
      rw [List.replicate_succ, List.cons_append]
      exact inductionHypothesis

/-- A year of four digits needs no zeros. -/
theorem padded_year {year : Nat} (low : 1000 ≤ year) : padded 4 year = Bytes.ofNat year := by
  have long := mt (length_ofNat_le (by decide : 0 < 3)).mp (by omega : ¬ year < 10 ^ 3)
  rw [padded, Nat.sub_eq_zero_of_le (by omega)]
  rfl

theorem readNumber_padded {width low high value : Nat} (positive : 0 < width)
    (small : value < 10 ^ width) (range : low ≤ value ∧ value ≤ high) (rest : Bytes) :
    readNumber width low high (padded width value ++ rest) = some (value, rest) := by
  have length := length_padded positive small
  have digits : ((padded width value ++ rest).take width).takeWhile
      (fun byte => (Bytes.digit? byte).isSome) = padded width value := by
    rw [List.take_left' length, List.takeWhile_eq_self_iff]
    exact padded_digits width value
  have present : padded width value ≠ [] := by
    intro none
    rw [none] at length
    exact positive.ne length
  rw [readNumber]
  simp only [digits, if_neg present, decimal?_padded, Option.filter_some, range, and_self,
    decide_true, if_true, Option.map_some, List.drop_left]

theorem readByte_cons (byte : UInt8) (rest : Bytes) :
    readByte byte (byte :: rest) = some ((), rest) :=
  if_pos rfl

/-- A number does not begin with white space. -/
theorem dropWhile_isSpace_padded {width value : Nat} (positive : 0 < width)
    (small : value < 10 ^ width) (rest : Bytes) :
    (padded width value ++ rest).dropWhile Bytes.isSpace = padded width value ++ rest := by
  have length := length_padded positive small
  have digits := padded_digits width value
  cases text : padded width value with
  | nil =>
      rw [text] at length
      exact absurd length positive.ne
  | cons first more =>
      rw [text] at digits
      rw [List.cons_append, List.dropWhile_cons_of_neg]
      intro space
      have digit := digits first List.mem_cons_self
      rw [Bytes.digit?_of_isSpace space] at digit
      cases digit

theorem padded_append_ne_nil {width value : Nat} (positive : 0 < width)
    (small : value < 10 ^ width) (rest : Bytes) : padded width value ++ rest ≠ [] := by
  intro nothing
  have length := length_padded positive small
  rw [(List.append_eq_nil_iff.mp nothing).1] at length
  exact positive.ne length

section

variable {directives : List Directive} {time : CalendarTime} {width value : Nat}

theorem followFormat_cons {directive : Directive} {text : Bytes} (present : text ≠ []) :
    followFormat (directive :: directives) time text =
      (directive.read time text).bind fun (time, rest) => followFormat directives time rest := by
  cases text with
  | nil => exact absurd rfl present
  | cons first rest => rfl

theorem followFormat_number {low high : Nat} {store : CalendarTime → Nat → CalendarTime}
    (positive : 0 < width) (small : value < 10 ^ width) (range : low ≤ value ∧ value ≤ high)
    (rest : Bytes) :
    followFormat (.number width low high store :: directives) time (padded width value ++ rest) =
      followFormat directives (store time value) rest := by
  rw [followFormat_cons (padded_append_ne_nil positive small rest), Directive.read,
    readNumber_padded positive small range]
  rfl

theorem followFormat_byte (expected : UInt8) (rest : Bytes) :
    followFormat (.byte expected :: directives) time (expected :: rest) =
      followFormat directives time rest := by
  rw [followFormat_cons (List.cons_ne_nil _ _), Directive.read, readByte_cons]
  rfl

theorem followFormat_blanks (positive : 0 < width) (small : value < 10 ^ width) (rest : Bytes) :
    followFormat (.blanks :: directives) time (32 :: (padded width value ++ rest)) =
      followFormat directives time (padded width value ++ rest) := by
  rw [followFormat_cons (List.cons_ne_nil _ _), Directive.read,
    List.dropWhile_cons_of_pos (by decide), dropWhile_isSpace_padded positive small]
  rfl

end

/-- A written time is read back. -/
theorem getTime_putTime {seconds : Nat} (early : seconds < 253402300800) :
    getTime (putTime (.ofSeconds seconds)) = some (.ofSeconds seconds) := by
  rcases CalendarTime.ofSeconds_ranges seconds with ⟨month, day, lastDay, hour, minute, second⟩
  rcases CalendarTime.year_ofSeconds early with ⟨modern, year⟩
  generalize CalendarTime.ofSeconds seconds = time at *
  have ending : padded 2 time.second = padded 2 time.second ++ [] := (List.append_nil _).symm
  rw [putTime, ← padded_year (by omega), ending, getTime]
  simp only [List.append_assoc, List.cons_append]
  rw [dropWhile_isSpace_padded (by decide) (by omega),
    if_neg (padded_append_ne_nil (by decide) (by omega) _), dateTimeFormat,
    followFormat_number (by decide) (by omega) (by omega), followFormat_byte,
    followFormat_number (by decide) (by omega) (by omega), followFormat_byte,
    followFormat_number (by decide) (by omega) (by omega),
    followFormat_blanks (by decide) (by omega),
    followFormat_number (by decide) (by omega) (by omega), followFormat_byte,
    followFormat_number (by decide) (by omega) (by omega), followFormat_byte,
    followFormat_number (by decide) (by omega) (by omega), followFormat, Nat.add_sub_cancel]

/-- A time point comes back as far off as standard time is. -/
theorem parseMysqlTime_timePointToMySQL {timePoint : Nat} (early : timePoint < 253402300800)
    (standardOffset now : Int) :
    parseMysqlTime standardOffset now (some (timePointToMySQL timePoint)) = timePoint - standardOffset := by
  have fromOne : (CalendarTime.ofSeconds timePoint).day ≠ 0 := Nat.succ_ne_zero _
  simp only [parseMysqlTime, timePointToMySQL, getTime_putTime early, mktime,
    CalendarTime.toSeconds_ofSeconds, if_neg fromOne, Int.sub_zero]

/-- That is what the model of the store takes for the answer of `mktime`. -/
theorem answer_mktime {timePoint : Nat} (early : timePoint < 253402300800) (caches : Caches)
    (clock : Clock) : (caches.answer clock (.mktime timePoint)).1 =
      parseMysqlTime clock.standardOffset clock.now (some (timePointToMySQL timePoint)) :=
  (parseMysqlTime_timePointToMySQL early clock.standardOffset clock.now).symm

/-! ## Records -/

/-- A record that is written at one time, by a process that then looks for it at another, is
found, as it was written. -/
def FoundLater (indexed : Bytes → Bytes) (standardOffset recorded checked : Int) (key hash : Bytes)
    (status : Int) (body : Bytes) (ttlSeconds : Int) (tables : Tables) (caches : Caches) : Prop :=
  let written := (MetaCall.recordIdempotency key hash status body ttlSeconds).perform indexed []
    ⟨recorded, standardOffset⟩ tables caches
  ∃ expiresAt, ((MetaCall.checkIdempotency key).perform indexed [] ⟨checked, standardOffset⟩
    written.2.1 written.2.2).1 = .ok (some ⟨hash, status, body, expiresAt⟩)

/-- It is found until the time that its text is read as. -/
theorem foundLater_iff {indexed : Bytes → Bytes} {standardOffset recorded checked : Int}
    {key hash : Bytes} {status : Int} {body : Bytes} {ttlSeconds : Int} {tables : Tables}
    {caches : Caches} {expiry : Nat} (expires : recorded + ttlSeconds = expiry)
    (early : expiry < 253402300800) :
    FoundLater indexed standardOffset recorded checked key hash status body ttlSeconds tables caches ↔
      checked < parseMysqlTime standardOffset checked (some (timePointToMySQL expiry)) := by
  have read : (expiry : Int) - standardOffset =
      parseMysqlTime standardOffset checked (some (timePointToMySQL expiry)) :=
    answer_mktime early caches ⟨checked, standardOffset⟩
  have stored : (tables.apply (.idempotency key
      (some ⟨hash, status, body, (expiry : Int)⟩))).idempotencyRecords.lookup key =
        some ⟨hash, status, body, expiry⟩ := Table.lookup_set_self ..
  simp only [FoundLater, MetaCall.perform_recordIdempotency, MetaCall.perform_checkIdempotency,
    MetaCall.liveRecord, expires, stored, Option.bind_some]
  rw [← read]
  split
  · rename_i passed
    simp only [Except.ok.injEq, reduceCtorEq, exists_false, false_iff]
    exact not_lt.mpr passed
  · rename_i waits
    simp only [Except.ok.injEq, Option.some.injEq, IdempotencyRow.mk.injEq, true_and,
      exists_eq', true_iff]
    exact not_le.mp waits

/-- Expiry times come back from the database unchanged, and records are found up to them and not
after them, exactly where the standard time of the local zone is UTC. -/
theorem expiry_times_survive_iff (standardOffset : Int) :
    (∀ timePoint < 253402300800, ∀ now,
      parseMysqlTime standardOffset now (some (timePointToMySQL timePoint)) = timePoint ↔
        standardOffset = 0) ∧
    ∀ (indexed : Bytes → Bytes) (key hash : Bytes) (status : Int) (body : Bytes)
      (recorded ttlSeconds : Int) (tables : Tables) (caches : Caches),
      0 ≤ recorded + ttlSeconds → recorded + ttlSeconds < 253402300800 →
        ((∀ checked, FoundLater indexed standardOffset recorded checked key hash status body ttlSeconds
          tables caches ↔ checked < recorded + ttlSeconds) ↔ standardOffset = 0) := by
  constructor
  · intro timePoint early now
    rw [parseMysqlTime_timePointToMySQL early]
    omega
  · intro indexed key hash status body recorded ttlSeconds tables caches least most
    rcases Int.eq_ofNat_of_zero_le least with ⟨expiry, expires⟩
    have early : expiry < 253402300800 := by omega
    simp only [foundLater_iff expires early, parseMysqlTime_timePointToMySQL early, expires]
    constructor
    · intro same
      have before := same (expiry - 1)
      have after := same expiry
      have shifted := same (expiry - standardOffset)
      omega
    · rintro rfl checked
      rw [Int.sub_zero]

/-- Eight hours ahead of UTC a time point comes back eight hours earlier. -/
theorem not_expiry_times_survive : ¬ ∀ (standardOffset : Int) (timePoint : Nat) (now : Int),
    timePoint < 2145916800 →
      parseMysqlTime standardOffset now (some (timePointToMySQL timePoint)) = timePoint := by
  intro all
  have same := all 28800 1700000000 0 (by decide)
  rw [parseMysqlTime_timePointToMySQL (by decide)] at same
  exact absurd same (by decide)

end MiniS3.Db
