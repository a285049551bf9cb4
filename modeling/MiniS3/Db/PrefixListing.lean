import MiniS3.Db.Listing

/-!
# Listing by prefix

`ListObjects` makes a pattern of a prefix by writing `%` after it.  Escaping is for string
literals, and leaves the characters that a pattern does not take as themselves: so keys are
matched by a pattern that has more wildcards than the one at its end, or a `%` at its end that
stands for itself.  A pattern also takes characters for the same that the collation does not
tell apart, while a key starts with a prefix byte by byte.

A page is exact as long as the pattern makes no difference before it is full, and the keys on
it have no NUL.
-/

namespace MiniS3.Db

open Lib Paging MetaStore

/-- The characters that a pattern does not take as themselves. -/
def wildcards : List Bytes :=
  [[37], [95], [92]]

/-! ## Patterns -/

section Patterns

variable (weight : Bytes → Bytes)

theorem matchSymbols_any (text : List Bytes) : matchSymbols weight [.any] text = true := by
  rw [matchSymbols, List.any_eq_true]
  exact ⟨[], (List.mem_tails _ _).mpr List.nil_suffix, rfl⟩

/-- Characters that are taken as themselves are matched by characters of the same weights. -/
theorem matchSymbols_exactly (literals text : List Bytes) :
    matchSymbols weight (literals.map .exactly ++ [.any]) text = true ↔
      ∃ front back, text = front ++ back ∧
        List.Forall₂ (fun literal character => weight literal = weight character) literals
          front := by
  induction literals generalizing text with
  | nil => exact iff_of_true (matchSymbols_any weight text) ⟨[], text, rfl, .nil⟩
  | cons literal literals inductionHypothesis =>
      cases text with
      | nil =>
          refine iff_of_false Bool.false_ne_true ?_
          rintro ⟨front, back, split, same⟩
          rw [(List.append_eq_nil_iff.mp split.symm).1] at same
          cases same
      | cons character text =>
          rw [List.map_cons, List.cons_append, matchSymbols, Bool.and_eq_true, beq_iff_eq,
            inductionHypothesis]
          constructor
          · rintro ⟨same, front, back, rfl, others⟩
            exact ⟨character :: front, back, rfl, .cons same others⟩
          · rintro ⟨front, back, split, same⟩
            cases same with
            | cons first others =>
                rw [List.cons_append, List.cons.injEq] at split
                rcases split with ⟨rfl, rfl⟩
                exact ⟨first, _, back, rfl, others⟩

/-- A text that the symbols match. -/
def sampleText : List Symbol → List Bytes
  | [] => []
  | .any :: symbols => sampleText symbols
  | .one :: symbols => [97] :: sampleText symbols
  | .exactly literal :: symbols => literal :: sampleText symbols

theorem matchSymbols_sampleText (symbols : List Symbol) :
    matchSymbols weight symbols (sampleText symbols) = true := by
  induction symbols with
  | nil => rfl
  | cons symbol symbols inductionHypothesis =>
      cases symbol with
      | any =>
          rw [matchSymbols, List.any_eq_true]
          exact ⟨_, (List.mem_tails _ _).mpr (List.suffix_refl _), inductionHypothesis⟩
      | one => exact inductionHypothesis
      | exactly literal => exact Bool.and_eq_true_iff.mpr ⟨beq_self_eq_true _, inductionHypothesis⟩

end Patterns

/-- A prefix without wildcards is taken as it is. -/
theorem readPattern_plain {keyPrefix : List Bytes}
    (plain : ∀ character ∈ keyPrefix, character ∉ wildcards) :
    readPattern false (keyPrefix ++ [[37]]) = keyPrefix.map .exactly ++ [.any] := by
  induction keyPrefix with
  | nil => rfl
  | cons character keyPrefix inductionHypothesis =>
      rcases List.forall_mem_cons.mp plain with ⟨ordinary, plain⟩
      simp only [wildcards, List.mem_cons, List.not_mem_nil, or_false, not_or] at ordinary
      rw [List.cons_append, readPattern, if_neg ordinary.1, if_neg ordinary.2.1,
        if_neg ordinary.2.2, inductionHypothesis plain]
      rfl

/-- A key that the pattern of a prefix matches. -/
def sampleKey (keyPrefix : List Bytes) : List Bytes :=
  sampleText (readPattern false (keyPrefix ++ [[37]]))

/-- A prefix of the form `_b` is not its own sample. -/
example : sampleKey [[95], [98]] = [[97], [98]] := by
  decide

theorem length_sampleText (escaped : Bool) (keyPrefix : List Bytes) :
    (sampleText (readPattern escaped (keyPrefix ++ [[37]]))).length ≤
      keyPrefix.length + escaped.toNat := by
  induction keyPrefix generalizing escaped with
  | nil => cases escaped <;> decide
  | cons character keyPrefix inductionHypothesis =>
      have literal := inductionHypothesis false
      have backslash := inductionHypothesis true
      simp only [Bool.toNat_false, Bool.toNat_true] at literal backslash
      cases escaped with
      | true =>
          simp only [List.cons_append, readPattern, sampleText, List.length_cons, Bool.toNat_true]
          omega
      | false =>
          simp only [List.cons_append, readPattern, Bool.toNat_false]
          split_ifs <;> simp only [sampleText, List.length_cons] <;> omega

/-- A prefix with wildcards is not its own sample. -/
theorem sampleKey_ne {keyPrefix : List Bytes}
    (wild : ∃ character ∈ keyPrefix, character ∈ wildcards) : sampleKey keyPrefix ≠ keyPrefix := by
  intro same
  induction keyPrefix with
  | nil =>
      rcases wild with ⟨character, member, -⟩
      cases member
  | cons character keyPrefix inductionHypothesis =>
      rw [sampleKey, List.cons_append, readPattern] at same
      by_cases percent : character = [37]
      · rw [if_pos percent, sampleText] at same
        have shorter := length_sampleText false keyPrefix
        rw [same, List.length_cons, Bool.toNat_false] at shorter
        omega
      · rw [if_neg percent] at same
        by_cases underscore : character = [95]
        · rw [if_pos underscore, sampleText, underscore, List.cons.injEq] at same
          exact absurd same.1 (by decide)
        · rw [if_neg underscore] at same
          by_cases backslash : character = [92]
          · rw [if_pos backslash] at same
            cases keyPrefix with
            | nil =>
                rw [backslash] at same
                exact absurd same (by decide)
            | cons literal keyPrefix =>
                rw [List.cons_append, readPattern, sampleText] at same
                have shorter := length_sampleText false keyPrefix
                have lengths := congrArg List.length same
                simp only [List.length_cons] at lengths
                rw [Bool.toNat_false] at shorter
                omega
          · rw [if_neg backslash, sampleText, List.cons.injEq] at same
            refine inductionHypothesis ?_ same.2
            rcases wild with ⟨other, member, isWild⟩
            rcases List.mem_cons.mp member with rfl | inner
            · simp [wildcards, percent, underscore, backslash] at isWild
            · exact ⟨other, inner, isWild⟩

theorem mem_sampleText {escaped : Bool} {keyPrefix : List Bytes} {character : Bytes}
    (member : character ∈ sampleText (readPattern escaped keyPrefix)) :
    character ∈ keyPrefix ∨ character = [97] ∨ character = [92] := by
  induction keyPrefix generalizing escaped with
  | nil => cases escaped <;> simp_all [readPattern, sampleText]
  | cons first keyPrefix inductionHypothesis =>
      have later : ∀ escaped, character ∈ sampleText (readPattern escaped keyPrefix) →
          character ∈ first :: keyPrefix ∨ character = [97] ∨ character = [92] :=
        fun escaped member => (inductionHypothesis member).imp_left (List.mem_cons_of_mem first)
      cases escaped with
      | true =>
          rw [readPattern, sampleText, List.mem_cons] at member
          rcases member with rfl | member
          · exact .inl List.mem_cons_self
          · exact later _ member
      | false =>
          rw [readPattern] at member
          split_ifs at member
          · exact later _ member
          · rw [sampleText, List.mem_cons] at member
            rcases member with rfl | member
            · exact .inr (.inl rfl)
            · exact later _ member
          · exact later _ member
          · rw [sampleText, List.mem_cons] at member
            rcases member with rfl | member
            · exact .inl List.mem_cons_self
            · exact later _ member

/-! ## Keys -/

section Keys

open Bytes

/-- The pattern of a prefix is read as the prefix with a `%` after it. -/
theorem like_eq (weight : Bytes → Bytes) (keyPrefix key : Bytes) :
    like weight (keyPrefix ++ [37]) key =
      matchSymbols weight (readPattern false (characters keyPrefix ++ [[37]])) (characters key) := by
  rw [like, characters_append keyPrefix (by rintro _ ⟨⟩; rfl)]
  rfl

theorem zero_notMem_of_mem_characters {text : Bytes} (whole : 0 ∉ text) :
    ∀ character ∈ characters text, 0 ∉ character := by
  intro character member zero
  apply whole
  rw [← flatten_characters text]
  exact List.mem_flatten_of_mem member zero

/-- A character that a key without a NUL may have. -/
abbrev IsWhole (character : Bytes) : Prop :=
  IsCharacter character ∧ 0 ∉ character

theorem isWhole_of_mem_characters {text : Bytes} (valid : isUtf8 text = true) (whole : 0 ∉ text) :
    ∀ character ∈ characters text, IsWhole character :=
  fun character member => ⟨isCharacter_of_mem valid character member,
    zero_notMem_of_mem_characters whole character member⟩

/-- Such characters make up a key. -/
theorem key_of_characters {symbols : List Bytes} (each : ∀ symbol ∈ symbols, IsWhole symbol) :
    isUtf8 symbols.flatten = true ∧ 0 ∉ symbols.flatten ∧ characters symbols.flatten = symbols := by
  rcases characters_flatten fun symbol member => (each symbol member).1 with ⟨valid, splits⟩
  refine ⟨valid, ?_, splits⟩
  intro zero
  rcases List.mem_flatten.mp zero with ⟨symbol, member, inside⟩
  exact (each symbol member).2 inside

/-- No other character compares as equal. -/
def OnlyItself (weight : Bytes → Bytes) (character : Bytes) : Prop :=
  ∀ other, IsCharacter other → 0 ∉ other → weight other = weight character → other = character

variable {weight : Bytes → Bytes} {keyPrefix key : Bytes}

/-- A prefix whose characters stand for themselves alone is matched by the keys that start with
it. -/
theorem like_iff_prefix (valid : isUtf8 keyPrefix = true)
    (plain : ∀ character ∈ characters keyPrefix, character ∉ wildcards ∧ OnlyItself weight character)
    (validKey : isUtf8 key = true) (whole : 0 ∉ key) :
    like weight (keyPrefix ++ [37]) key = true ↔ keyPrefix <+: key := by
  rw [like_eq, readPattern_plain fun character member => (plain character member).1,
    matchSymbols_exactly, ← characters_prefix_iff valid validKey]
  constructor
  · rintro ⟨front, back, split, same⟩
    refine ⟨back, ?_⟩
    have equal : List.Forall₂ (· = ·) (characters keyPrefix) front := by
      refine List.forall₂_iff_zip.mpr ⟨same.length_eq, ?_⟩
      intro character other paired
      have isOther : other ∈ characters key := by
        rw [split]
        exact List.mem_append_left _ (List.of_mem_zip paired).2
      have alike := (List.forall₂_iff_zip.mp same).2 paired
      exact ((plain character (List.of_mem_zip paired).1).2 other
        (isCharacter_of_mem validKey other isOther)
        (zero_notMem_of_mem_characters whole other isOther) alike.symm).symm
    rw [List.forall₂_eq_eq_eq] at equal
    rw [equal, split]
  · rintro ⟨back, split⟩
    exact ⟨_, back, split.symm, List.forall₂_same.mpr fun _ _ => rfl⟩

/-- A prefix with a wildcard is matched by a key that does not start with it. -/
theorem exists_wild_key (valid : isUtf8 keyPrefix = true) (whole : 0 ∉ keyPrefix)
    (wild : ∃ character ∈ characters keyPrefix, character ∈ wildcards) :
    ∃ key, isUtf8 key = true ∧ 0 ∉ key ∧ like weight (keyPrefix ++ [37]) key = true ∧
      ¬keyPrefix <+: key := by
  have sampled : ∀ character ∈ sampleKey (characters keyPrefix), IsWhole character := by
    intro character member
    rcases mem_sampleText member with ofPattern | rfl | rfl
    · rcases List.mem_append.mp ofPattern with ofPrefix | last
      · exact isWhole_of_mem_characters valid whole character ofPrefix
      · rw [List.mem_singleton.mp last]
        exact ⟨⟨rfl, rfl⟩, by decide⟩
    · exact ⟨⟨rfl, rfl⟩, by decide⟩
    · exact ⟨⟨rfl, rfl⟩, by decide⟩
  rcases key_of_characters sampled with ⟨validKey, wholeKey, splits⟩
  refine ⟨(sampleKey (characters keyPrefix)).flatten, validKey, wholeKey, ?_, ?_⟩
  · rw [like_eq, splits]
    exact matchSymbols_sampleText weight _
  · rw [← characters_prefix_iff valid validKey, splits]
    intro starts
    have short := length_sampleText false (characters keyPrefix)
    rw [Bool.toNat_false, Nat.add_zero] at short
    exact sampleKey_ne wild (starts.eq_of_length_le short).symm

/-- So is a prefix with a character that another one compares as equal to. -/
theorem exists_equal_key (valid : isUtf8 keyPrefix = true) (whole : 0 ∉ keyPrefix)
    (plain : ∀ character ∈ characters keyPrefix, character ∉ wildcards) {character other : Bytes}
    (member : character ∈ characters keyPrefix) (isOther : IsCharacter other)
    (wholeOther : 0 ∉ other) (same : weight other = weight character)
    (different : other ≠ character) :
    ∃ key, isUtf8 key = true ∧ 0 ∉ key ∧ like weight (keyPrefix ++ [37]) key = true ∧
      ¬keyPrefix <+: key := by
  rcases List.append_of_mem member with ⟨front, back, split⟩
  have exchanged : ∀ symbol ∈ front ++ other :: back, IsWhole symbol := by
    have ofPrefix := isWhole_of_mem_characters valid whole
    rw [split] at ofPrefix
    intro symbol isSymbol
    rcases List.mem_append.mp isSymbol with before | after
    · exact ofPrefix symbol (List.mem_append_left _ before)
    · rcases List.mem_cons.mp after with rfl | behind
      · exact ⟨isOther, wholeOther⟩
      · exact ofPrefix symbol (List.mem_append_right _ (List.mem_cons_of_mem _ behind))
  rcases key_of_characters exchanged with ⟨validKey, wholeKey, splits⟩
  refine ⟨(front ++ other :: back).flatten, validKey, wholeKey, ?_, ?_⟩
  · rw [like_eq, splits, readPattern_plain plain, matchSymbols_exactly, split]
    refine ⟨_, [], (List.append_nil _).symm, List.rel_append ?_ (.cons same.symm ?_)⟩
    · exact List.forall₂_same.mpr fun _ _ => rfl
    · exact List.forall₂_same.mpr fun _ _ => rfl
  · rw [← characters_prefix_iff valid validKey, splits, split]
    intro starts
    have equal := starts.eq_of_length_le (by simp)
    exact different (List.cons.inj (List.append_cancel_left equal)).1.symm

end Keys

/-! ## Pages -/

/-- The rows of a bucket whose keys are greater than `start_after`, in the order of their keys. -/
def Tables.objectsBeyond (collation : Collation) (tables : Tables) (bucketId : Int)
    (startAfter : Bytes) : List ObjectRow :=
  (tables.sortedObjects collation bucketId).filter (collation.beyond startAfter)

def startsWith (keyPrefix : Bytes) (row : ObjectRow) : Bool :=
  keyPrefix.isPrefixOf row.objectKey

/-- The rows that a listing is about. -/
def Tables.wanted (collation : Collation) (tables : Tables) (bucketId : Int)
    (keyPrefix startAfter : Bytes) : List ObjectRow :=
  (tables.objectsBeyond collation bucketId startAfter).filter (startsWith keyPrefix)

/-- `ListObjects`, run alone, returns the first keys that start with the prefix and are greater
than `start_after`, and says that the page is truncated exactly when there are more of them. -/
def ListsExactly (collation : Collation) (tables : Tables) (caches : Caches) (clock : Clock)
    (bucketId : Int) (keyPrefix startAfter : Bytes) (maxKeys : Int) : Prop :=
  let exact := tables.wanted collation bucketId keyPrefix startAfter
  ∃ page, ((MetaCall.listObjects bucketId keyPrefix startAfter maxKeys).performUnder ukBucketKey
      collation [] clock tables caches).1 = .ok page ∧
    page.objects.map ObjectInfo.key = (exact.take maxKeys.toNat).map ObjectRow.objectKey ∧
    (page.isTruncated = true ↔ maxKeys < exact.length)

/-- The pattern makes no difference before the page is full and has a successor. -/
def MatchesLate (collation : Collation) (tables : Tables) (bucketId : Int)
    (keyPrefix startAfter : Bytes) (maxKeys : Int) : Prop :=
  DifferLate (collation.matchesPrefix keyPrefix) (startsWith keyPrefix) maxKeys.toNat
    (tables.objectsBeyond collation bucketId startAfter)

/-- The keys that belong on the page have no NUL. -/
def ListsWhole (collation : Collation) (tables : Tables) (bucketId : Int)
    (keyPrefix startAfter : Bytes) (maxKeys : Int) : Prop :=
  ∀ row ∈ (tables.wanted collation bucketId keyPrefix startAfter).take maxKeys.toNat,
    0 ∉ row.objectKey

/-- No two keys of the bucket agree up to their first NUL. -/
def CutApart (collation : Collation) (tables : Tables) (bucketId : Int) : Prop :=
  ∀ one ∈ tables.sortedObjects collation bucketId,
    ∀ two ∈ tables.sortedObjects collation bucketId,
      one.objectKey.cString = two.objectKey.cString → one = two

section Pages

variable {collation : Collation} {tables : Tables} {caches : Caches} {clock : Clock}
variable {bucketId maxKeys : Int} {keyPrefix startAfter : Bytes}

/-- What the page shows, and when it is said to be truncated. -/
theorem listsExactly_iff (positive : 1 ≤ maxKeys) :
    ListsExactly collation tables caches clock bucketId keyPrefix startAfter maxKeys ↔
      (((tables.objectsBeyond collation bucketId startAfter).filter
          (collation.matchesPrefix keyPrefix)).take maxKeys.toNat).map
            (fun row => row.objectKey.cString) =
        ((tables.wanted collation bucketId keyPrefix startAfter).take maxKeys.toNat).map
          ObjectRow.objectKey ∧
      (maxKeys.toNat < ((tables.objectsBeyond collation bucketId startAfter).filter
          (collation.matchesPrefix keyPrefix)).length ↔
        maxKeys.toNat < (tables.wanted collation bucketId keyPrefix startAfter).length) := by
  rw [ListsExactly, answer_listObjects]
  change (∃ page, Except.ok (pageOf bucketId maxKeys
    (((tables.objectsBeyond collation bucketId startAfter).filter
      (collation.matchesPrefix keyPrefix)).take (maxKeys + 1).toNat)) = .ok page ∧ _) ↔ _
  generalize (tables.objectsBeyond collation bucketId startAfter).filter
    (collation.matchesPrefix keyPrefix) = matched
  rcases take_one_more positive matched with ⟨shown, next⟩
  generalize matched.take (maxKeys + 1).toNat = rows at shown next
  have keys : (pageOf bucketId maxKeys rows).objects.map ObjectInfo.key =
      (matched.take maxKeys.toNat).map fun row => row.objectKey.cString := by
    have told := congrArg Prod.fst (shown_pageOf bucketId maxKeys rows)
    simp only at told
    rw [told, shown, List.map_map]
    rfl
  have truncated : (pageOf bucketId maxKeys rows).isTruncated = true ↔
      maxKeys.toNat < matched.length := by
    rw [pageOf]
    cases overflow : rows.drop maxKeys.toNat with
    | nil =>
        rw [overflow, List.head?_nil, eq_comm, List.head?_eq_none_iff, List.drop_eq_nil_iff] at next
        simp only [Bool.false_eq_true, false_iff, not_lt]
        exact next
    | cons row more =>
        rw [overflow, List.head?_cons] at next
        simp only [true_iff]
        by_contra fits
        rw [List.drop_eq_nil_of_le (not_lt.mp fits)] at next
        cases next
  have length : ∀ rows : List ObjectRow, maxKeys < rows.length ↔ maxKeys.toNat < rows.length := by
    intro rows
    omega
  simp only [Except.ok.injEq, exists_eq_left', keys, truncated, length]

/-- The pages are the same as those of the rows that are wanted. -/
theorem ListsExactly.of_late (schema : SatisfiesSchema tables) (positive : 1 ≤ maxKeys)
    (late : MatchesLate collation tables bucketId keyPrefix startAfter maxKeys)
    (whole : ListsWhole collation tables bucketId keyPrefix startAfter maxKeys) :
    ListsExactly collation tables caches clock bucketId keyPrefix startAfter maxKeys := by
  have nodup : (tables.objectsBeyond collation bucketId startAfter).Nodup :=
    (schema.nodup_sortedObjects collation bucketId).filter _
  rcases (samePage_iff nodup).mpr late with ⟨same, more⟩
  refine (listsExactly_iff positive).mpr ⟨?_, more⟩
  rw [same]
  exact List.map_congr_left fun row member => Bytes.cString_eq_self_iff.mpr (whole row member)

/-- A key that is listed has no NUL. -/
theorem ListsExactly.whole (positive : 1 ≤ maxKeys)
    (exact : ListsExactly collation tables caches clock bucketId keyPrefix startAfter maxKeys) :
    ListsWhole collation tables bucketId keyPrefix startAfter maxKeys := by
  rcases (listsExactly_iff positive).mp exact with ⟨keys, -⟩
  intro row member
  have shown := List.mem_map_of_mem (f := ObjectRow.objectKey) member
  rw [← keys] at shown
  rcases List.mem_map.mp shown with ⟨other, -, cut⟩
  rw [← cut]
  exact Bytes.zero_notMem_cString other.objectKey

theorem eq_of_map_eq {α β : Type} {f g : α → β} {first second : List α}
    (tells : ∀ one ∈ first, ∀ two ∈ second, f one = g two → one = two)
    (same : first.map f = second.map g) : first = second := by
  induction first generalizing second with
  | nil => exact (List.map_eq_nil_iff.mp same.symm).symm
  | cons one first inductionHypothesis =>
      cases second with
      | nil => cases same
      | cons two second =>
          rw [List.map_cons, List.map_cons, List.cons.injEq] at same
          have rest := inductionHypothesis (fun item member other otherMember =>
            tells item (List.mem_cons_of_mem _ member) other (List.mem_cons_of_mem _ otherMember))
            same.2
          rw [tells one List.mem_cons_self two List.mem_cons_self same.1, rest]

/-- Where keys differ before their first NUL, an exact page has the rows that are wanted. -/
theorem ListsExactly.late (schema : SatisfiesSchema tables) (positive : 1 ≤ maxKeys)
    (apart : CutApart collation tables bucketId)
    (exact : ListsExactly collation tables caches clock bucketId keyPrefix startAfter maxKeys) :
    MatchesLate collation tables bucketId keyPrefix startAfter maxKeys := by
  have whole := exact.whole positive
  have nodup : (tables.objectsBeyond collation bucketId startAfter).Nodup :=
    (schema.nodup_sortedObjects collation bucketId).filter _
  rcases (listsExactly_iff positive).mp exact with ⟨keys, more⟩
  refine (samePage_iff nodup).mp ⟨eq_of_map_eq ?_ keys, more⟩
  intro one first two second same
  have isOne := List.mem_of_mem_filter (List.mem_of_mem_filter (List.mem_of_mem_take first))
  have isTwo := List.mem_of_mem_filter (List.mem_of_mem_filter (List.mem_of_mem_take second))
  have uncut := Bytes.cString_eq_self_iff.mpr (whole two second)
  exact apart one isOne two isTwo (same.trans uncut.symm)

end Pages

/-- Where the pattern makes a difference for a key, the bucket of that key is not listed exactly. -/
theorem not_listsExactly {collation : Collation} {keyPrefix key : Bytes} (wild : keyPrefix ≠ [])
    (matched : like collation.weight (keyPrefix ++ [37]) key = true)
    (differs : ¬keyPrefix <+: key) :
    ¬ListsExactly collation (.withObject ukBucketKey key) ⟨∅, none⟩ ⟨0, 0⟩ 1 keyPrefix [] 1 := by
  intro exact
  rcases (listsExactly_iff le_rfl).mp exact with ⟨keys, -⟩
  have only : (Tables.withObject ukBucketKey key).objectsBeyond collation 1 [] =
      [⟨key, blobKey 'a', 5, ascii "text/plain", ascii "e"⟩] := rfl
  have starts : keyPrefix.isPrefixOf key = false := by
    rw [Bool.eq_false_iff, ne_eq, List.isPrefixOf_iff_prefix]
    exact differs
  have nonempty : keyPrefix.isEmpty = false := by simpa using wild
  rw [Tables.wanted, only] at keys
  simp [Collation.matchesPrefix, startsWith, matched, starts, nonempty] at keys

open Bytes in
/-- A prefix whose characters stand for themselves alone is listed exactly, in every bucket of
valid texts without a NUL. -/
theorem ListsExactly.of_plain {collation : Collation} {tables : Tables} {caches : Caches}
    {clock : Clock} {bucketId maxKeys : Int} {keyPrefix startAfter : Bytes}
    (schema : SatisfiesSchema tables) (positive : 1 ≤ maxKeys) (valid : isUtf8 keyPrefix = true)
    (plain : ∀ character ∈ characters keyPrefix,
      character ∉ wildcards ∧ OnlyItself collation.weight character)
    (keys : ∀ row ∈ tables.sortedObjects collation bucketId,
      isUtf8 row.objectKey = true ∧ 0 ∉ row.objectKey) :
    ListsExactly collation tables caches clock bucketId keyPrefix startAfter maxKeys := by
  refine .of_late schema positive ?_ ?_
  · intro front row back split differs
    have inside : row ∈ tables.sortedObjects collation bucketId := by
      apply List.mem_of_mem_filter (p := collation.beyond startAfter)
      rw [← Tables.objectsBeyond, split]
      exact List.mem_append_right _ List.mem_cons_self
    rcases keys row inside with ⟨validKey, wholeKey⟩
    refine absurd ?_ differs
    rw [Collation.matchesPrefix, startsWith, Bool.eq_iff_iff, Bool.or_eq_true,
      like_iff_prefix valid plain validKey wholeKey, List.isPrefixOf_iff_prefix,
      List.isEmpty_iff]
    refine or_iff_right_of_imp ?_
    rintro rfl
    exact List.nil_prefix
  · intro row member
    have inside := List.mem_of_mem_filter (List.mem_of_mem_filter (List.mem_of_mem_take member))
    exact (keys row inside).2

open Bytes in
/-- If a prefix is listed exactly in every bucket with one key, its pattern takes no key that
does not start with it, so its characters stand for themselves alone. -/
theorem plain_of_listsExactly {collation : Collation} {keyPrefix : Bytes}
    (valid : isUtf8 keyPrefix = true) (whole : 0 ∉ keyPrefix)
    (exact : ∀ key, isUtf8 key = true → 0 ∉ key →
      ListsExactly collation (.withObject ukBucketKey key) ⟨∅, none⟩ ⟨0, 0⟩ 1 keyPrefix [] 1) :
    ∀ character ∈ characters keyPrefix,
      character ∉ wildcards ∧ OnlyItself collation.weight character := by
  have matched : ∀ key, isUtf8 key = true → 0 ∉ key →
      like collation.weight (keyPrefix ++ [37]) key = true → keyPrefix <+: key := by
    intro key validKey wholeKey matched
    by_contra differs
    refine not_listsExactly ?_ matched differs (exact key validKey wholeKey)
    rintro rfl
    exact differs List.nil_prefix
  have plain : ∀ character ∈ characters keyPrefix, character ∉ wildcards := by
    intro character member wild
    rcases @exists_wild_key collation.weight _ valid whole ⟨character, member, wild⟩ with
      ⟨key, validKey, wholeKey, isMatch, differs⟩
    exact differs (matched key validKey wholeKey isMatch)
  refine fun character member => ⟨plain character member, ?_⟩
  intro other isOther wholeOther same
  by_contra different
  rcases exists_equal_key valid whole plain member isOther wholeOther same different with
    ⟨key, validKey, wholeKey, isMatch, differs⟩
  exact differs (matched key validKey wholeKey isMatch)

open Bytes in
/-- A page is exact if the pattern of the prefix makes no difference before the page is full and
has a successor, and the keys on it have no NUL; and only then, unless two keys of the bucket agree
up to a NUL.  Every page of every bucket of valid texts without a NUL is exact if and only if the
prefix has no wildcards, and none of its characters compares as equal to another one. -/
theorem listing_is_exact_iff (collation : Collation) (keyPrefix : Bytes) :
    (∀ tables, SatisfiesSchema tables → ∀ (caches : Caches) (clock : Clock) (bucketId : Int)
      (startAfter : Bytes) (maxKeys : Int), 1 ≤ maxKeys → maxKeys < 2 ^ 31 - 1 →
      (MatchesLate collation tables bucketId keyPrefix startAfter maxKeys ∧
          ListsWhole collation tables bucketId keyPrefix startAfter maxKeys →
        ListsExactly collation tables caches clock bucketId keyPrefix startAfter maxKeys) ∧
      (ListsExactly collation tables caches clock bucketId keyPrefix startAfter maxKeys →
        ListsWhole collation tables bucketId keyPrefix startAfter maxKeys ∧
          (CutApart collation tables bucketId →
            MatchesLate collation tables bucketId keyPrefix startAfter maxKeys))) ∧
    (isUtf8 keyPrefix = true → 0 ∉ keyPrefix →
      ((∀ tables, SatisfiesSchema tables → ∀ (caches : Caches) (clock : Clock) (bucketId : Int)
          (startAfter : Bytes) (maxKeys : Int), 1 ≤ maxKeys → maxKeys < 2 ^ 31 - 1 →
          (∀ row ∈ tables.sortedObjects collation bucketId,
            isUtf8 row.objectKey = true ∧ 0 ∉ row.objectKey) →
          ListsExactly collation tables caches clock bucketId keyPrefix startAfter maxKeys) ↔
        ∀ character ∈ characters keyPrefix,
          character ∉ wildcards ∧ OnlyItself collation.weight character)) := by
  constructor
  · intro tables schema caches clock bucketId startAfter maxKeys positive _
    exact ⟨fun both => .of_late schema positive both.1 both.2,
      fun exact => ⟨exact.whole positive, fun apart => exact.late schema positive apart⟩⟩
  · intro valid whole
    constructor
    · intro always
      refine plain_of_listsExactly valid whole fun key validKey wholeKey => ?_
      refine always _ (withObject_satisfiesSchema key) _ _ _ _ _ le_rfl (by decide) ?_
      intro row member
      rcases Tables.mem_sortedObjects.mp member with ⟨entry, stored⟩
      rcases Tables.withObject_object _ _ _ row stored with ⟨-, rfl⟩
      exact ⟨validKey, wholeKey⟩
    · intro plain tables schema caches clock bucketId startAfter maxKeys positive _ keys
      exact .of_plain schema positive valid plain keys

theorem listing_is_exact_sample :
    ListsExactly .caseless .listed ⟨∅, none⟩ ⟨0, 0⟩ 1 (ascii "a") [] 1 := by
  have nodup : (Tables.listed.objectsBeyond .caseless 1 []).Nodup := by decide +kernel
  have exact := ((listing_is_exact_iff .caseless (ascii "a")).1 .listed (by decide +kernel)
    ⟨∅, none⟩ ⟨0, 0⟩ 1 [] 1 le_rfl (by decide)).1
  refine exact ⟨(samePage_iff nodup).mp ?_, ?_⟩
  · unfold SamePage
    decide +kernel
  · unfold ListsWhole
    decide +kernel

/-- The prefix `_` lists a key that does not start with it. -/
theorem listing_is_not_exact : ¬∀ (collation : Collation) (tables : Tables),
    SatisfiesSchema tables → ∀ (caches : Caches) (clock : Clock) (bucketId : Int)
      (keyPrefix startAfter : Bytes) (maxKeys : Int), 1 ≤ maxKeys → maxKeys < 2 ^ 31 - 1 →
      ListsExactly collation tables caches clock bucketId keyPrefix startAfter maxKeys := by
  intro always
  refine @not_listsExactly .binary [95] (ascii "a") (List.cons_ne_nil 95 []) (by decide)
    (by decide) ?_
  exact always _ _ (withObject_satisfiesSchema (ascii "a")) _ _ _ _ _ _ le_rfl (by decide)

end MiniS3.Db
