import MiniS3.Util.Bytes
import Mathlib.Data.List.SplitBy

/-!
# UTF-8 texts

Which byte strings are valid UTF-8, and the characters of a text.  A valid text is the
sequence of its characters, each of them valid by itself.
-/

namespace MiniS3.Bytes

/-- The bytes that may follow inside a UTF-8 sequence. -/
def continuation : UInt8 × UInt8 :=
  (0x80, 0xBF)

/-- The ranges of the bytes that follow a leading byte, as the Unicode standard lists
them. -/
def utf8Tail (leading : UInt8) : Option (List (UInt8 × UInt8)) :=
  if leading ≤ 0x7F then some []
  else if 0xC2 ≤ leading ∧ leading ≤ 0xDF then some [continuation]
  else if leading = 0xE0 then some [(0xA0, 0xBF), continuation]
  else if leading = 0xED then some [(0x80, 0x9F), continuation]
  else if 0xE1 ≤ leading ∧ leading ≤ 0xEF then some [continuation, continuation]
  else if leading = 0xF0 then some [(0x90, 0xBF), continuation, continuation]
  else if 0xF1 ≤ leading ∧ leading ≤ 0xF3 then some [continuation, continuation, continuation]
  else if leading = 0xF4 then some [(0x80, 0x8F), continuation, continuation]
  else none

/-- Read UTF-8 sequences, the first of which is still to be completed. -/
def utf8From : List (UInt8 × UInt8) → Bytes → Bool
  | [], [] => true
  | _ :: _, [] => false
  | [], byte :: rest =>
      match utf8Tail byte with
      | some pending => utf8From pending rest
      | none => false
  | range :: pending, byte :: rest =>
      decide (range.1 ≤ byte ∧ byte ≤ range.2) && utf8From pending rest

/-- The text is valid UTF-8. -/
def isUtf8 (text : Bytes) : Bool :=
  utf8From [] text

theorem utf8From_append {pending : List (UInt8 × UInt8)} {first : Bytes}
    (complete : utf8From pending first = true) (rest : Bytes) :
    utf8From pending (first ++ rest) = utf8From [] rest := by
  induction first generalizing pending with
  | nil =>
      cases pending with
      | nil => rfl
      | cons range pending => cases complete
  | cons byte first inductionHypothesis =>
      cases pending with
      | nil =>
          simp only [List.cons_append, utf8From] at complete ⊢
          cases tail : utf8Tail byte with
          | none => simp [tail] at complete
          | some pending =>
              simp only [tail] at complete
              exact inductionHypothesis complete
      | cons range pending =>
          simp only [List.cons_append, utf8From, Bool.and_eq_true] at complete ⊢
          rw [complete.1, Bool.true_and]
          exact inductionHypothesis complete.2

/-- A text after a valid one is read by itself. -/
theorem isUtf8_append {first : Bytes} (valid : isUtf8 first = true) (rest : Bytes) :
    isUtf8 (first ++ rest) = isUtf8 rest :=
  utf8From_append valid rest

theorem isUtf8_of_ascii {text : Bytes} (low : ∀ byte ∈ text, byte ≤ 0x7F) :
    isUtf8 text = true := by
  induction text with
  | nil => rfl
  | cons byte text inductionHypothesis =>
      have alone : utf8Tail byte = some [] := if_pos (low byte (by simp))
      have tail := inductionHypothesis fun other member => low other (by simp [member])
      rw [isUtf8, utf8From, alone]
      exact tail

/-! ## Characters -/

/-- The byte belongs to the character before it. -/
def isContinuation (byte : UInt8) : Bool :=
  decide (continuation.1 ≤ byte ∧ byte ≤ continuation.2)

/-- The characters of a text: a character goes on up to the next byte that begins one. -/
def characters (text : Bytes) : List Bytes :=
  text.splitBy fun _ next => isContinuation next

@[simp]
theorem characters_nil : characters [] = [] :=
  rfl

@[simp]
theorem flatten_characters (text : Bytes) : (characters text).flatten = text :=
  List.flatten_splitBy _ text

theorem characters_append (first : Bytes) {rest : Bytes}
    (outside : ∀ byte ∈ rest.head?, isContinuation byte = false) :
    characters (first ++ rest) = characters first ++ characters rest :=
  List.splitBy_append fun _ _ byte isFirst => outside byte isFirst

/-- A byte with the bytes that belong to it is one character. -/
theorem characters_cons {byte : UInt8} {inside : Bytes}
    (continues : ∀ next ∈ inside, isContinuation next = true) :
    characters (byte :: inside) = [byte :: inside] := by
  refine List.splitBy_of_isChain (List.cons_ne_nil _ _) ?_
  induction inside generalizing byte with
  | nil => exact List.isChain_singleton byte
  | cons next inside inductionHypothesis =>
      rcases List.forall_mem_cons.mp continues with ⟨first, later⟩
      exact List.isChain_cons_cons.mpr ⟨first, inductionHypothesis later⟩

/-- What follows inside a sequence belongs to the character before it. -/
theorem mem_utf8Tail {leading : UInt8} {ranges : List (UInt8 × UInt8)}
    (begins : utf8Tail leading = some ranges) :
    ∀ range ∈ ranges, continuation.1 ≤ range.1 ∧ range.2 ≤ continuation.2 := by
  unfold utf8Tail at begins
  split_ifs at begins
  all_goals
    cases begins
    simp [continuation]

/-- A sequence begins with a byte of its own. -/
theorem isContinuation_of_utf8Tail {leading : UInt8} {ranges : List (UInt8 × UInt8)}
    (begins : utf8Tail leading = some ranges) : isContinuation leading = false := by
  rw [isContinuation, decide_eq_false_iff_not]
  rintro ⟨low, high⟩
  unfold utf8Tail at begins
  simp only [continuation, UInt8.le_iff_toNat_le, ← UInt8.toNat_inj] at low high begins
  split_ifs at begins <;> simp at * <;> omega

/-- A valid text does not begin inside of a character. -/
theorem outside_of_isUtf8 {text : Bytes} (valid : isUtf8 text = true) :
    ∀ byte ∈ text.head?, isContinuation byte = false := by
  cases text with
  | nil => nofun
  | cons leading rest =>
      rintro byte ⟨⟩
      rw [isUtf8, utf8From] at valid
      cases begins : utf8Tail leading with
      | none => simp [begins] at valid
      | some ranges => exact isContinuation_of_utf8Tail begins

/-- What completes a sequence, and what follows it. -/
theorem exists_of_utf8From {pending : List (UInt8 × UInt8)} {text : Bytes}
    (within : ∀ range ∈ pending, continuation.1 ≤ range.1 ∧ range.2 ≤ continuation.2)
    (valid : utf8From pending text = true) :
    ∃ inside rest, text = inside ++ rest ∧ (∀ next ∈ inside, isContinuation next = true) ∧
      utf8From pending inside = true ∧ isUtf8 rest = true := by
  induction pending generalizing text with
  | nil => exact ⟨[], text, rfl, by simp, rfl, valid⟩
  | cons range pending inductionHypothesis =>
      cases text with
      | nil => cases valid
      | cons byte text =>
          rcases List.forall_mem_cons.mp within with ⟨bounds, within⟩
          simp only [utf8From, Bool.and_eq_true, decide_eq_true_eq] at valid
          rcases inductionHypothesis within valid.2 with
            ⟨inside, rest, rfl, continues, complete, others⟩
          refine ⟨byte :: inside, rest, rfl, ?_, ?_, others⟩
          · refine List.forall_mem_cons.mpr ⟨?_, continues⟩
            exact decide_eq_true ⟨UInt8.le_trans bounds.1 valid.1.1,
              UInt8.le_trans valid.1.2 bounds.2⟩
          · simp [utf8From, valid.1, complete]

/-- A valid text that is one character. -/
def IsCharacter (character : Bytes) : Prop :=
  isUtf8 character = true ∧ characters character = [character]

/-- A valid text is a character, and a valid text after it. -/
theorem exists_character {text : Bytes} (valid : isUtf8 text = true) (nonempty : text ≠ []) :
    ∃ character rest, text = character ++ rest ∧ character ≠ [] ∧ IsCharacter character ∧
      isUtf8 rest = true := by
  cases text with
  | nil => exact absurd rfl nonempty
  | cons leading text =>
      rw [isUtf8, utf8From] at valid
      cases begins : utf8Tail leading with
      | none => simp [begins] at valid
      | some ranges =>
          simp only [begins] at valid
          rcases exists_of_utf8From (mem_utf8Tail begins) valid with
            ⟨inside, rest, rfl, continues, complete, others⟩
          refine ⟨leading :: inside, rest, rfl, List.cons_ne_nil _ _, ⟨?_, ?_⟩, others⟩
          · simpa [isUtf8, utf8From, begins] using complete
          · exact characters_cons continues

/-- The characters of a valid text are valid. -/
theorem isCharacter_of_mem {text : Bytes} (valid : isUtf8 text = true) :
    ∀ character ∈ characters text, IsCharacter character := by
  induction size : text.length using Nat.strong_induction_on generalizing text with
  | _ bound inductionHypothesis =>
      by_cases empty : text = []
      · simp [empty]
      · rcases exists_character valid empty with
          ⟨first, rest, rfl, nonempty, isCharacter, others⟩
        have shorter : rest.length < bound := by
          have some := List.length_pos_iff.mpr nonempty
          rw [← size, List.length_append]
          omega
        intro character member
        rw [characters_append first (outside_of_isUtf8 others), isCharacter.2] at member
        rcases List.mem_append.mp member with isFirst | later
        · rwa [List.mem_singleton.mp isFirst]
        · exact inductionHypothesis _ shorter others rfl character later

/-- A sequence of characters is a valid text with these characters. -/
theorem characters_flatten {text : List Bytes} (all : ∀ character ∈ text, IsCharacter character) :
    isUtf8 text.flatten = true ∧ characters text.flatten = text := by
  induction text with
  | nil => exact ⟨rfl, rfl⟩
  | cons first rest inductionHypothesis =>
      rcases List.forall_mem_cons.mp all with ⟨isCharacter, others⟩
      rcases inductionHypothesis others with ⟨valid, splits⟩
      rw [List.flatten_cons]
      refine ⟨(isUtf8_append isCharacter.1 _).trans valid, ?_⟩
      rw [characters_append first (outside_of_isUtf8 valid), isCharacter.2, splits]
      rfl

/-- A valid text starts with another one exactly if its characters do. -/
theorem characters_prefix_iff {first text : Bytes} (validFirst : isUtf8 first = true)
    (valid : isUtf8 text = true) : characters first <+: characters text ↔ first <+: text := by
  constructor
  · rintro ⟨rest, split⟩
    have whole := congrArg List.flatten split
    rw [List.flatten_append, flatten_characters, flatten_characters] at whole
    exact ⟨rest.flatten, whole⟩
  · rintro ⟨rest, rfl⟩
    have validRest := (isUtf8_append validFirst rest).symm.trans valid
    rw [characters_append first (outside_of_isUtf8 validRest)]
    exact List.prefix_append _ _

end MiniS3.Bytes
