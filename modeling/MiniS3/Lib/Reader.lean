import Mathlib.Data.List.Forall2

/-!
# Readers

A reader takes a value off the front of a text and leaves the rest.  What it takes may be
followed by anything, so that values can be read one after the other off one text: a number of
them, or as many as there are.

A text may also come in pieces.  A reader that is stable takes the same value however much
follows, and so draining a text piece by piece gives what draining the whole text gives.
-/

namespace MiniS3.Lib

/-- Take a value off the front of a text. -/
abbrev Reader (σ α : Type) :=
  List σ → Option (α × List σ)

namespace Reader

variable {σ α : Type}

/-- The reader takes off every spelling of a value, whatever follows. -/
def Reads (read : Reader σ α) (spells : α → List σ → Prop) : Prop :=
  ∀ value text rest, spells value text → read (text ++ rest) = some (value, rest)

/-- What the reader takes off spells the value. -/
def Finds (read : Reader σ α) (spells : α → List σ → Prop) : Prop :=
  ∀ text value rest, read text = some (value, rest) →
    ∃ front, spells value front ∧ text = front ++ rest

/-- What follows a value has no influence on it. -/
def Stable (read : Reader σ α) : Prop :=
  ∀ text value rest more, read text = some (value, rest) →
    read (text ++ more) = some (value, rest ++ more)

/-- A value takes up a part of the text. -/
def Consumes (read : Reader σ α) : Prop :=
  ∀ text value rest, read text = some (value, rest) → rest.length < text.length

section Spelling

variable {read : Reader σ α} {spells : α → List σ → Prop}

theorem Reads.stable (reads : Reads read spells) (finds : Finds read spells) : Stable read := by
  intro text value rest more taken
  obtain ⟨front, spelled, rfl⟩ := finds text value rest taken
  rw [List.append_assoc]
  exact reads value front (rest ++ more) spelled

theorem Finds.consumes (finds : Finds read spells)
    (nonempty : ∀ value text, spells value text → text ≠ []) : Consumes read := by
  intro text value rest taken
  obtain ⟨front, spelled, rfl⟩ := finds text value rest taken
  have long := List.length_pos_iff.mpr (nonempty value front spelled)
  rw [List.length_append]
  omega

/-- A text that spells a value is read in full, and no beginning of it is read. -/
theorem Stable.none_of_prefix {text more : List σ} {value : α} (stable : Stable read)
    (whole : read (text ++ more) = some (value, [])) (unfinished : more ≠ []) :
    read text = none := by
  cases early : read text with
  | none => rfl
  | some result =>
      obtain ⟨other, rest⟩ := result
      rw [stable text other rest more early, Option.some.injEq, Prod.mk.injEq] at whole
      exact absurd (List.append_eq_nil_iff.mp whole.2).2 unfinished

end Spelling

/-! ## A number of values -/

/-- Take off a number of values. -/
def times (read : Reader σ α) : Nat → Reader σ (List α)
  | 0, text => some ([], text)
  | count + 1, text =>
      (read text).bind fun first =>
        (times read count first.2).map fun others => (first.1 :: others.1, others.2)

theorem Reads.times {read : Reader σ α} {spells : α → List σ → Prop} (reads : Reads read spells)
    {values : List α} {texts : List (List σ)} (spelled : List.Forall₂ spells values texts)
    (rest : List σ) :
    times read values.length (texts.flatten ++ rest) = some (values, rest) := by
  induction spelled with
  | nil => rfl
  | cons first others inductionHypothesis =>
      rw [List.flatten_cons, List.append_assoc, List.length_cons, Reader.times,
        reads _ _ _ first, Option.bind_some, inductionHypothesis]
      rfl

theorem Finds.times {read : Reader σ α} {spells : α → List σ → Prop} (finds : Finds read spells)
    {count : Nat} {text rest : List σ} {values : List α}
    (taken : times read count text = some (values, rest)) :
    values.length = count ∧
      ∃ texts, List.Forall₂ spells values texts ∧ text = texts.flatten ++ rest := by
  induction count generalizing text values with
  | zero =>
      obtain ⟨rfl, rfl⟩ := Prod.mk.inj (Option.some.inj taken)
      exact ⟨rfl, [], .nil, rfl⟩
  | succ count inductionHypothesis =>
      obtain ⟨⟨first, afterFirst⟩, isFirst, others⟩ := Option.bind_eq_some_iff.mp taken
      obtain ⟨⟨values, afterAll⟩, areOthers, equal⟩ := Option.map_eq_some_iff.mp others
      obtain ⟨rfl, rfl⟩ := Prod.mk.inj equal
      obtain ⟨front, spelled, rfl⟩ := finds _ _ _ isFirst
      obtain ⟨length, texts, spelledOthers, flattened⟩ := inductionHypothesis areOthers
      refine ⟨congrArg Nat.succ length, front :: texts, .cons spelled spelledOthers, ?_⟩
      rw [List.flatten_cons, List.append_assoc]
      exact congrArg (front ++ ·) flattened

/-! ## As many values as there are -/

/-- Take off values until none can be read, at most a number of them. -/
def drainAtMost (read : Reader σ α) : Nat → List σ → List α × List σ
  | 0, text => ([], text)
  | count + 1, text =>
      match read text with
      | none => ([], text)
      | some (value, rest) =>
          let others := drainAtMost read count rest
          (value :: others.1, others.2)

/-- Take off values until none can be read: those values, and what is left. -/
def drain (read : Reader σ α) (text : List σ) : List α × List σ :=
  drainAtMost read text.length text

section Draining

variable {read : Reader σ α}

/-- A text has no more values than symbols. -/
theorem Consumes.drainAtMost_eq (consumes : Consumes read) {count : Nat} {text : List σ}
    (enough : text.length ≤ count) : drainAtMost read count text = drain read text := by
  suffices same : ∀ more count text, List.length text ≤ count →
      drainAtMost read (count + more) text = drainAtMost read count text by
    obtain ⟨more, rfl⟩ := Nat.exists_eq_add_of_le enough
    exact same more text.length text (Nat.le_refl _)
  clear enough count text
  intro more count
  induction count with
  | zero =>
      intro text short
      cases more with
      | zero => rfl
      | succ more =>
          have nothing : read text = none := by
            cases taken : read text with
            | none => rfl
            | some result => exact absurd (consumes _ _ _ taken) (by omega)
          simp only [drainAtMost, nothing]
  | succ count inductionHypothesis =>
      intro text short
      rw [Nat.succ_add]
      simp only [drainAtMost]
      cases taken : read text with
      | none => rfl
      | some result =>
          have shorter := consumes _ _ _ taken
          have same := inductionHypothesis result.2 (by omega)
          simp only [same]

theorem drain_of_none {text : List σ} (nothing : read text = none) :
    drain read text = ([], text) := by
  unfold drain
  cases text.length with
  | zero => rfl
  | succ count => simp only [drainAtMost, nothing]

theorem Consumes.drain_of_some (consumes : Consumes read) {text rest : List σ} {value : α}
    (taken : read text = some (value, rest)) :
    drain read text = (value :: (drain read rest).1, (drain read rest).2) := by
  have shorter := consumes _ _ _ taken
  obtain ⟨count, isCount⟩ := Nat.exists_eq_add_of_lt shorter
  have oneMore : drainAtMost read (rest.length + count + 1) text = drain read text :=
    consumes.drainAtMost_eq (by omega)
  rw [← oneMore]
  simp only [drainAtMost, taken]
  rw [consumes.drainAtMost_eq (by omega)]

/-- Nothing more can be read of what is left. -/
theorem Consumes.read_drain (consumes : Consumes read) (text : List σ) :
    read (drain read text).2 = none := by
  induction long : text.length using Nat.strongRecOn generalizing text with
  | _ length inductionHypothesis =>
      cases taken : read text with
      | none =>
          rw [drain_of_none taken]
          exact taken
      | some result =>
          obtain ⟨value, rest⟩ := result
          have shorter := consumes _ _ _ taken
          rw [consumes.drain_of_some taken]
          exact inductionHypothesis rest.length (by omega) rest rfl

/-- The values that are spelled one after the other are taken off, and then what follows. -/
theorem Reads.drain_flatten {spells : α → List σ → Prop} (reads : Reads read spells)
    (consumes : Consumes read) {values : List α} {texts : List (List σ)}
    (spelled : List.Forall₂ spells values texts) (rest : List σ) :
    drain read (texts.flatten ++ rest) =
      (values ++ (drain read rest).1, (drain read rest).2) := by
  induction spelled with
  | nil => rfl
  | cons first others inductionHypothesis =>
      rw [List.flatten_cons, List.append_assoc, consumes.drain_of_some (reads _ _ _ first),
        inductionHypothesis]
      rfl

/-- A text that comes in two pieces is drained as the whole text. -/
theorem Stable.drain_append (stable : Stable read) (consumes : Consumes read)
    (text more : List σ) :
    drain read (text ++ more) =
      ((drain read text).1 ++ (drain read ((drain read text).2 ++ more)).1,
        (drain read ((drain read text).2 ++ more)).2) := by
  induction long : text.length using Nat.strongRecOn generalizing text with
  | _ length inductionHypothesis =>
      cases taken : read text with
      | none =>
          rw [drain_of_none taken]
          rfl
      | some result =>
          obtain ⟨value, rest⟩ := result
          have shorter := consumes _ _ _ taken
          rw [consumes.drain_of_some taken, consumes.drain_of_some (stable _ _ _ more taken),
            inductionHypothesis rest.length (by omega) rest rfl]
          rfl

end Draining

end Reader

end MiniS3.Lib
