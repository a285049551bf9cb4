import Mathlib.Data.List.Infix
import MiniS3.Util.Resp

/-!
# The replies of Redis

A reply is a line with a mark for its kind, or a bulk string after a line with its length.  A
line ends at the first carriage return that a line feed follows.

A status, an error and an integer are one line each.  So where a reader takes lines off such
replies, it starts at their marks, unless it has started inside of one.
-/

namespace MiniS3.RedisCache

/-- A text that is sent on one line. -/
structure LineText where
  text : Bytes
  no_return : 13 ∉ text
  no_feed : 10 ∉ text

/-- What Redis answers to a command. -/
inductive Answer
  | status (line : LineText)
  | error (line : LineText)
  | integer (value : Int)
  | bulk (payload : Bytes)
  | nil

namespace Answer

/-- The bytes of a reply. -/
def spell : Answer → Bytes
  | status line => 43 :: (line.text ++ [13, 10])
  | error line => 45 :: (line.text ++ [13, 10])
  | integer value => 58 :: (Bytes.ofInt value ++ [13, 10])
  | bulk payload => 36 :: (Bytes.ofNat payload.length ++ 13 :: 10 :: (payload ++ [13, 10]))
  | nil => ascii "$-1\r\n"

/-- The value that a reply has for the one who asked for it. -/
def value? : Answer → Option (Option Bytes)
  | bulk payload => some (some payload)
  | nil => some none
  | _ => none

/-- The reply is of a kind that the command has: a bulk string or nil for `GET`, a status or an
integer for the others, or an error. -/
def Answers (command : List Bytes) : Answer → Prop
  | status _ => command.head? ≠ some (ascii "GET")
  | error _ => True
  | integer _ => command.head? ≠ some (ascii "GET")
  | bulk _ => command.head? = some (ascii "GET")
  | nil => command.head? = some (ascii "GET")

end Answer

/-! ## Lines -/

/-- Take bytes off a text until a carriage return and a line feed have come, after the byte
`prev` and the bytes `line`: the line without its end, and what follows. -/
def takeLine : UInt8 → Bytes → Bytes → Option (Bytes × Bytes)
  | _, _, [] => none
  | prev, line, ch :: rest =>
      let line := line ++ [ch]
      if prev = 13 ∧ ch = 10 then some (line.take (line.length - 2), rest)
      else takeLine ch line rest

theorem takeLine_of_no_break {line text : Bytes} (rest : Bytes) (noReturn : 13 ∉ text)
    (noFeed : 10 ∉ text) (prev : UInt8) :
    takeLine prev line (text ++ 13 :: 10 :: rest) = some (line ++ text, rest) := by
  induction text generalizing prev line with
  | nil =>
      have cut : (line ++ [13] ++ [10]).take ((line ++ [13] ++ [10]).length - 2) = line := by
        simp
      rw [List.nil_append, takeLine, if_neg (by simp), takeLine, if_pos ⟨rfl, rfl⟩]
      simp only [cut, List.append_nil]
  | cons ch text inductionHypothesis =>
      rw [List.mem_cons, not_or] at noReturn noFeed
      rw [List.cons_append, takeLine, if_neg fun ends => noFeed.1 ends.2.symm,
        inductionHypothesis noReturn.2 noFeed.2 ch, List.append_assoc]
      rfl

theorem append_of_takeLine {prev : UInt8} {line text cut rest : Bytes}
    (last : prev = 13 → ∃ front, line = front ++ [13])
    (taken : takeLine prev line text = some (cut, rest)) :
    line ++ text = cut ++ 13 :: 10 :: rest := by
  induction text generalizing prev line with
  | nil => cases taken
  | cons ch text inductionHypothesis =>
      rw [takeLine] at taken
      split at taken
      · rename_i ends
        obtain ⟨rfl, rfl⟩ := ends
        obtain ⟨front, rfl⟩ := last rfl
        obtain ⟨rfl, rfl⟩ := Prod.mk.inj (Option.some.inj taken)
        simp
      · have whole := inductionHypothesis (by rintro rfl; exact ⟨line, rfl⟩) taken
        rw [← whole, List.append_assoc]
        rfl

/-- The first line of a text. -/
def firstLine (text : Bytes) : Option (Bytes × Bytes) :=
  takeLine 0 [] text

theorem append_of_firstLine {text line rest : Bytes} (taken : firstLine text = some (line, rest)) :
    text = line ++ 13 :: 10 :: rest :=
  append_of_takeLine (fun zero => absurd zero (by decide)) taken

theorem firstLine_of_no_break {text : Bytes} (rest : Bytes) (noReturn : 13 ∉ text)
    (noFeed : 10 ∉ text) : firstLine (text ++ 13 :: 10 :: rest) = some (text, rest) :=
  takeLine_of_no_break rest noReturn noFeed 0

/-- A line begins with the byte that the text begins with. -/
theorem head?_of_firstLine {text line rest : Bytes} {mark : UInt8}
    (taken : firstLine text = some (line, rest)) (marked : line.head? = some mark) :
    text.head? = some mark := by
  cases line with
  | nil => cases marked
  | cons first line =>
      rw [append_of_firstLine taken]
      exact marked

/-! ## Replies of one line -/

/-- A reply that is one line: a mark, which is not the one of bulk strings, and a text. -/
structure IsLine (answer : Answer) : Prop where
  spelled : ∃ (mark : UInt8) (text : Bytes), mark ≠ 36 ∧ mark ≠ 10 ∧ 13 ∉ mark :: text ∧
    10 ∉ mark :: text ∧ answer.spell = mark :: text ++ [13, 10]

theorem no_break_ofInt (value : Int) : 13 ∉ Bytes.ofInt value ∧ 10 ∉ Bytes.ofInt value :=
  ⟨Bytes.not_mem_ofInt (by decide) rfl, Bytes.not_mem_ofInt (by decide) rfl⟩

theorem isLine_of_text (mark : UInt8) {answer : Answer} {text : Bytes} (noReturn : 13 ∉ text)
    (noFeed : 10 ∉ text) (spelled : answer.spell = mark :: (text ++ [13, 10]))
    (isMark : mark ≠ 36 ∧ mark ≠ 10 ∧ mark ≠ 13) : IsLine answer where
  spelled := by
    refine ⟨mark, text, isMark.1, isMark.2.1, ?_, ?_, spelled⟩
    · rw [List.mem_cons, not_or]
      exact ⟨isMark.2.2.symm, noReturn⟩
    · rw [List.mem_cons, not_or]
      exact ⟨isMark.2.1.symm, noFeed⟩

/-- Other commands than `GET` get one line. -/
theorem isLine_of_answers {command : List Bytes} {answer : Answer}
    (answers : answer.Answers command) (other : command.head? ≠ some (ascii "GET")) :
    IsLine answer := by
  cases answer with
  | status line => exact isLine_of_text 43 line.no_return line.no_feed rfl (by decide)
  | error line => exact isLine_of_text 45 line.no_return line.no_feed rfl (by decide)
  | integer value =>
      exact isLine_of_text 58 (no_break_ofInt value).1 (no_break_ofInt value).2 rfl (by decide)
  | bulk payload => exact absurd answers other
  | nil => exact absurd answers other

theorem IsLine.firstLine {answer : Answer} (isLine : IsLine answer) :
    ∃ line, firstLine answer.spell = some (line, []) := by
  obtain ⟨mark, text, -, -, noReturn, noFeed, spelled⟩ := isLine.spelled
  exact ⟨_, spelled ▸ firstLine_of_no_break [] noReturn noFeed⟩

/-- No line of a text begins with the mark of bulk strings. -/
def Harmless (text : Bytes) : Prop :=
  ¬[13, 10, 36] <:+: 13 :: 10 :: text

theorem harmless_nil : Harmless [] := by
  intro found
  exact absurd found.length_le (by decide)

theorem Harmless.head? {text : Bytes} (harmless : Harmless text) : text.head? ≠ some 36 := by
  intro marked
  cases text with
  | nil => cases marked
  | cons first text =>
      cases marked
      exact harmless ⟨[], text, rfl⟩

theorem harmless_of_not_mem {text : Bytes} (noMark : 36 ∉ text) : Harmless text := by
  intro found
  have member : (36 : UInt8) ∈ 13 :: 10 :: text := found.subset (by simp)
  rw [List.mem_cons, List.mem_cons] at member
  rcases member with isReturn | isFeed | member
  · cases isReturn
  · cases isFeed
  · exact noMark member

/-- What follows a line is as harmless as the whole. -/
theorem Harmless.after_line {text line rest : Bytes} (harmless : Harmless text)
    (taken : RedisCache.firstLine text = some (line, rest)) : Harmless rest := by
  intro found
  refine harmless (found.trans ⟨13 :: 10 :: line, [], ?_⟩)
  rw [append_of_firstLine taken]
  simp

/-- A line has no other line in it. -/
theorem not_infix_line {text : Bytes} (noReturn : 13 ∉ text) :
    ¬[13, 10, 36] <:+: text ++ [13, 10] := by
  intro found
  rcases List.infix_append_iff.mp found with inside | ending | ⟨front, back, split, ends, starts⟩
  · exact noReturn (inside.subset List.mem_cons_self)
  · exact absurd ending.length_le (by decide)
  · cases front with
    | nil =>
        rw [List.nil_append] at split
        exact absurd (split ▸ starts.length_le) (by decide)
    | cons first front =>
        obtain ⟨rfl, -⟩ := List.cons.inj split
        exact noReturn (ends.subset List.mem_cons_self)

/-- A reply of one line does no harm at the end. -/
theorem Harmless.append {text : Bytes} {answer : Answer} (harmless : Harmless text)
    (isLine : IsLine answer) : Harmless (text ++ answer.spell) := by
  obtain ⟨mark, body, notBulk, notFeed, noReturn, -, spelled⟩ := isLine.spelled
  intro found
  rw [spelled, ← List.cons_append, ← List.cons_append] at found
  rcases List.infix_append_iff.mp found with inside | inside | ⟨front, back, split, ends, starts⟩
  · exact harmless inside
  · exact not_infix_line noReturn inside
  · cases back with
    | nil =>
        rw [List.append_nil] at split
        exact harmless (split ▸ ends.isInfix)
    | cons first back =>
        obtain ⟨rfl, -⟩ := List.cons_prefix_cons.mp starts
        have member : first ∈ ([13, 10, 36] : Bytes) :=
          split ▸ List.mem_append_right front List.mem_cons_self
        simp only [List.mem_cons, List.not_mem_nil, or_false] at member
        rcases member with rfl | rfl | rfl
        · exact noReturn List.mem_cons_self
        · exact notFeed rfl
        · exact notBulk rfl

/-! ## Bulk replies -/

theorem stoi_ofNat (value : Nat) :
    Bytes.stoi (Bytes.ofNat value) = if value < 2 ^ 31 then some (value : Int) else none := by
  have number := Bytes.leadingNumber_of_digits (Bytes.ofNat_ne_nil value)
    fun _ => Bytes.isSome_digit?_of_mem_ofNat
  have read : Bytes.leadingInt (Bytes.ofNat value) = some (value : Int) := by
    simp [Bytes.leadingInt, number, Bytes.decimal?_ofNat]
  have range : (-2 ^ 31 ≤ (value : Int) ∧ (value : Int) < 2 ^ 31) ↔ value < 2 ^ 31 := by
    omega
  simp only [Bytes.stoi, read, Option.filter_some, decide_eq_true_eq, range]

theorem firstLine_bulk (payload : Bytes) :
    firstLine (Answer.bulk payload).spell =
      some (36 :: Bytes.ofNat payload.length, payload ++ [13, 10]) := by
  have noBreak := no_break_ofInt payload.length
  refine @firstLine_of_no_break (36 :: Bytes.ofNat payload.length) _ ?_ ?_
  · exact List.not_mem_cons_of_ne_of_not_mem (by decide) noBreak.1
  · exact List.not_mem_cons_of_ne_of_not_mem (by decide) noBreak.2

theorem firstLine_nil : firstLine Answer.nil.spell = some (ascii "$-1", []) := by
  decide

/-- A bulk string or nil is at the front of a text: its value, and what follows. -/
inductive TakesBulk (text : Bytes) : Option Bytes → Bytes → Prop
  | nil {size rest : Bytes} {len : Int} : firstLine text = some (36 :: size, rest) →
      Bytes.stoi size = some len → len < 0 → TakesBulk text none rest
  | bulk {size payload ending rest : Bytes} {len : Int} :
      firstLine text = some (36 :: size, payload ++ (ending ++ rest)) →
      Bytes.stoi size = some len → 0 ≤ len → payload.length = len.toNat → ending.length = 2 →
      TakesBulk text (some payload) rest

theorem TakesBulk.head? {text rest : Bytes} {value : Option Bytes}
    (takes : TakesBulk text value rest) : text.head? = some 36 := by
  cases takes with
  | nil line => exact head?_of_firstLine line rfl
  | bulk line => exact head?_of_firstLine line rfl

/-- What is taken off the reply to a `GET` is its value. -/
theorem TakesBulk.of_answer {command : List Bytes} {answer : Answer} {rest : Bytes}
    {value : Option Bytes} (answers : answer.Answers command)
    (isGet : command.head? = some (ascii "GET")) (takes : TakesBulk answer.spell value rest) :
    answer.value? = some value ∧ rest = [] := by
  cases answer with
  | status line => exact absurd isGet answers
  | integer value => exact absurd isGet answers
  | error line => cases takes.head?
  | bulk payload =>
      cases takes with
      | nil line isLen negative =>
          rw [firstLine_bulk] at line
          cases line
          rw [stoi_ofNat] at isLen
          split at isLen
          · cases isLen
            omega
          · cases isLen
      | bulk line isLen _ length ending =>
          rw [firstLine_bulk, Option.some.injEq, Prod.mk.injEq, List.cons.injEq] at line
          obtain ⟨⟨-, rfl⟩, whole⟩ := line
          rw [stoi_ofNat] at isLen
          split at isLen
          · cases isLen
            obtain ⟨rfl, after⟩ := List.append_inj whole (by rw [length]; rfl)
            have ended : [13, 10] ++ [] = _ ++ rest := (List.append_nil _).trans after
            exact ⟨rfl, (List.append_inj ended ending.symm).2.symm⟩
          · cases isLen
  | nil =>
      cases takes with
      | nil line isLen negative =>
          rw [firstLine_nil] at line
          cases line
          exact ⟨rfl, rfl⟩
      | bulk line isLen positive =>
          rw [firstLine_nil, Option.some.injEq, Prod.mk.injEq] at line
          obtain ⟨isSize, -⟩ := line
          cases isSize
          exact absurd positive (by cases isLen; decide)

end MiniS3.RedisCache
