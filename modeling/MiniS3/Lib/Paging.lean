import Mathlib.Data.List.Sort

/-!
# Paging

A list is read page by page.  Each page but the last ends with a marker, and the next page
has the rows beyond it.  The marker can be taken of the last row that was given out, or of
the first one that was not; which one it may be depends on whether the row of the marker
lies beyond it.

Here the marker is that of the first row left out, and no row lies beyond its own marker.  What
the two checks of a filter have to agree on for a page to be the same is at the end.
-/

namespace MiniS3.Lib.Paging

variable {α β μ : Type}

/-- The rows of all pages, read one after the other from a marker on.  A page has its rows,
and the marker of the next page unless it is the last one. -/
inductive Walk (pages : μ → Option (List β × Option μ)) : μ → List β → Prop
  | last {marker : μ} {items : List β} : pages marker = some (items, none) →
      Walk pages marker items
  | more {marker token : μ} {items rest : List β} : pages marker = some (items, some token) →
      Walk pages token rest → Walk pages marker (items ++ rest)

/-- The pages determine what is read. -/
theorem Walk.unique {pages : μ → Option (List β × Option μ)} {marker : μ}
    {first second : List β} (one : Walk pages marker first) (two : Walk pages marker second) :
    first = second := by
  induction one generalizing second with
  | last page =>
      cases two with
      | last other =>
          rw [page] at other
          cases other
          rfl
      | more other _ =>
          rw [page] at other
          cases other
  | more page _ inductionHypothesis =>
      cases two with
      | last other =>
          rw [page] at other
          cases other
      | more other later =>
          rw [page] at other
          cases other
          rw [inductionHypothesis later]

/-- How rows are found again: the marker of a row, and which rows lie beyond a marker. -/
structure Cursor (α μ : Type) where
  mark : α → μ
  beyond : μ → α → Bool

namespace Cursor

variable (cursor : Cursor α μ)

/-- A page of at most `limit` rows, with the marker of the first row left out. -/
def page (limit : Nat) (rows : List α) (marker : μ) : List α × Option μ :=
  let listed := rows.filter (cursor.beyond marker)
  (listed.take limit, (listed.drop limit).head?.map cursor.mark)

/-- Reading on from row to row leads further: no row lies beyond its own marker, and what lies
beyond the marker of a row lies beyond every marker that the row itself lies beyond.  A `start`
marker may be one of a row by accident, and then leads back to the first page. -/
structure Climbs (start : μ → Prop) (rows : List α) : Prop where
  apart : ∀ row ∈ rows, ¬start (cursor.mark row) → cursor.beyond (cursor.mark row) row = false
  upward : ∀ marker, ∀ row ∈ rows, ¬start (cursor.mark row) → cursor.beyond marker row = true →
    ∀ other ∈ rows, cursor.beyond (cursor.mark row) other = true →
      cursor.beyond marker other = true

/-- The pages are those of the cursor, with the rows as they are shown. -/
def Shows (cursor : Cursor α μ) (convert : α → β) (limit : Nat) (rows : List α)
    (pages : μ → Option (List β × Option μ)) : Prop :=
  ∀ marker, pages marker = some ((cursor.page limit rows marker).1.map convert,
    (cursor.page limit rows marker).2)

variable {cursor} {convert : α → β} {pages : μ → Option (List β × Option μ)} {limit : Nat}
variable {rows : List α} {start : μ → Prop}

/-- The marker of the next page is that of the row behind the page. -/
theorem exists_of_next {marker token : μ} (next : (cursor.page limit rows marker).2 = some token) :
    ∃ row, row ∈ (rows.filter (cursor.beyond marker)).drop limit ∧ cursor.mark row = token := by
  rcases Option.map_eq_some_iff.mp next with ⟨row, first, marked⟩
  rcases List.head?_eq_some_iff.mp first with ⟨rest, left⟩
  exact ⟨row, by rw [left]; exact List.mem_cons_self, marked⟩

/-- A page with a successor is full. -/
theorem length_of_next {marker token : μ} (next : (cursor.page limit rows marker).2 = some token) :
    (cursor.page limit rows marker).1.length = limit := by
  rcases exists_of_next next with ⟨row, left, -⟩
  have more := List.length_pos_of_mem left
  rw [List.length_drop] at more
  rw [page, List.length_take]
  omega

/-- What is read is a row. -/
theorem Shows.exists_of_mem_walk (shows : cursor.Shows convert limit rows pages) {marker : μ}
    {all : List β} (walk : Walk pages marker all) : ∀ item ∈ all, ∃ row ∈ rows, convert row = item := by
  have onPage : ∀ marker, ∀ item ∈ (cursor.page limit rows marker).1.map convert,
      ∃ row ∈ rows, convert row = item := by
    intro marker item member
    rcases List.mem_map.mp member with ⟨row, isRow, shown⟩
    exact ⟨row, List.mem_of_mem_filter (List.mem_of_mem_take isRow), shown⟩
  induction walk with
  | @last marker items page =>
      rw [shows marker, Option.some.injEq, Prod.mk.injEq] at page
      rw [← page.1]
      exact onPage marker
  | @more marker token items rest page later inductionHypothesis =>
      rw [shows marker, Option.some.injEq, Prod.mk.injEq] at page
      intro item member
      rcases List.mem_append.mp member with here | there
      · rw [← page.1] at here
        exact onPage marker item here
      · exact inductionHypothesis item there

/-- What is read from a marker on lies beyond it, unless some page leads back to the start. -/
theorem Shows.beyond_of_walk (shows : cursor.Shows convert limit rows pages)
    (climbs : cursor.Climbs start rows) (positive : 0 < limit) {marker : μ} {all : List β}
    (walk : Walk pages marker all) :
    (∀ item ∈ all, ∃ row ∈ rows, cursor.beyond marker row = true ∧ convert row = item) ∨
      ∃ first again, start first ∧ Walk pages first again ∧ again.length < all.length := by
  have onPage : ∀ marker, ∀ item ∈ (cursor.page limit rows marker).1.map convert,
      ∃ row ∈ rows, cursor.beyond marker row = true ∧ convert row = item := by
    intro marker item member
    rcases List.mem_map.mp member with ⟨row, isRow, shown⟩
    rcases List.mem_filter.mp (List.mem_of_mem_take isRow) with ⟨inRows, beyond⟩
    exact ⟨row, inRows, beyond, shown⟩
  induction walk with
  | @last marker items page =>
      rw [shows marker, Option.some.injEq, Prod.mk.injEq] at page
      rcases page with ⟨rfl, -⟩
      exact .inl (onPage marker)
  | @more marker token items rest page later inductionHypothesis =>
      rw [shows marker, Option.some.injEq, Prod.mk.injEq] at page
      rcases page with ⟨rfl, next⟩
      have full := length_of_next next
      rcases exists_of_next next with ⟨row, left, rfl⟩
      rcases List.mem_filter.mp (List.mem_of_mem_drop left) with ⟨inRows, beyond⟩
      by_cases back : start (cursor.mark row)
      · refine .inr ⟨_, rest, back, later, ?_⟩
        rw [List.length_append, List.length_map, full]
        omega
      · rcases inductionHypothesis with behind | ⟨first, again, isStart, walk, shorter⟩
        · left
          intro item member
          rcases List.mem_append.mp member with here | there
          · exact onPage marker item here
          · rcases behind item there with ⟨other, isOther, further, shown⟩
            exact ⟨other, isOther,
              climbs.upward marker row inRows back beyond other isOther further, shown⟩
        · refine .inr ⟨first, again, isStart, walk, ?_⟩
          rw [List.length_append]
          omega

/-- Nothing is read twice, and the row behind a page is not read at all; so everything is read only
if it fits on one page. -/
theorem Shows.fits_of_walk (shows : cursor.Shows convert limit rows pages)
    (climbs : cursor.Climbs start rows) (positive : 0 < limit) {marker : μ}
    (onlyStart : ∀ first, start first → first = marker) (nodup : rows.Nodup)
    (tells : ∀ one ∈ rows, ∀ two ∈ rows, convert one = convert two → one = two)
    {all : List β} (walk : Walk pages marker all)
    (complete : ∀ row ∈ rows, cursor.beyond marker row = true → convert row ∈ all) :
    (rows.filter (cursor.beyond marker)).length ≤ limit := by
  have noReturn : ∀ first again, start first → Walk pages first again →
      ¬again.length < all.length := by
    intro first again isStart walkAgain shorter
    obtain rfl := onlyStart first isStart
    obtain rfl := walk.unique walkAgain
    exact Nat.lt_irrefl _ shorter
  cases walk with
  | last page =>
      rw [shows marker, Option.some.injEq, Prod.mk.injEq] at page
      rcases page with ⟨-, none⟩
      rwa [Cursor.page, Option.map_eq_none_iff, List.head?_eq_none_iff, List.drop_eq_nil_iff]
        at none
  | @more _ token items rest page later =>
      rw [shows marker, Option.some.injEq, Prod.mk.injEq] at page
      rcases page with ⟨rfl, next⟩
      have full := length_of_next next
      rcases exists_of_next next with ⟨row, left, rfl⟩
      rcases List.mem_filter.mp (List.mem_of_mem_drop left) with ⟨inRows, beyond⟩
      have fewer : rest.length <
          ((cursor.page limit rows marker).1.map convert ++ rest).length := by
        rw [List.length_append, List.length_map, full]
        omega
      rcases List.mem_append.mp (complete row inRows beyond) with here | there
      · rcases List.mem_map.mp here with ⟨other, onPage, same⟩
        have isOther := List.mem_of_mem_filter (List.mem_of_mem_take onPage)
        obtain rfl := tells other isOther row inRows same
        exact absurd left (List.disjoint_take_drop (nodup.filter _) le_rfl onPage)
      · rcases shows.beyond_of_walk climbs positive later with
          behind | ⟨first, again, back, walk, shorter⟩
        · rcases behind _ there with ⟨other, isOther, further, same⟩
          obtain rfl := tells other isOther row inRows same
          by_cases back : start (cursor.mark other)
          · exact absurd fewer (noReturn _ _ back later)
          · rw [climbs.apart other inRows back] at further
            cases further
        · exact absurd (shorter.trans fewer) (noReturn first again back walk)

/-- What fits on one page is read with it. -/
theorem Shows.walk_of_fits (shows : cursor.Shows convert limit rows pages) {marker : μ}
    (fits : (rows.filter (cursor.beyond marker)).length ≤ limit) :
    Walk pages marker ((rows.filter (cursor.beyond marker)).map convert) := by
  refine .last ?_
  rw [shows marker, Cursor.page]
  simp only
  rw [List.take_of_length_le fits, List.drop_eq_nil_of_le fits]
  rfl

end Cursor

/-! ## Two checks -/

section Checks

variable (first second : α → Bool)

/-- Items that pass one check and not the other come after a full page of items that pass the
second, and then there are more than a page of items for each of the checks. -/
def DifferLate (limit : Nat) (items : List α) : Prop :=
  ∀ front item back, items = front ++ item :: back → first item ≠ second item →
    limit ≤ (front.filter second).length ∧ limit < (items.filter first).length ∧
      limit < (items.filter second).length

/-- Both checks give the same page, and the same answer to whether there is more. -/
def SamePage (limit : Nat) (items : List α) : Prop :=
  (items.filter first).take limit = (items.filter second).take limit ∧
    (limit < (items.filter first).length ↔ limit < (items.filter second).length)

variable {first second} {limit : Nat} {item : α} {rest : List α}

/-- An item that passes neither check makes no difference. -/
theorem differLate_cons_skip (none : first item = false) (neither : second item = false) :
    DifferLate first second limit (item :: rest) ↔ DifferLate first second limit rest := by
  simp only [DifferLate, List.filter_cons, none, neither, Bool.false_eq_true, if_false]
  constructor
  · intro late front other back split differs
    have found := late (item :: front) other back (by rw [split]; rfl) differs
    rwa [List.filter_cons, neither] at found
  · rintro late (_ | ⟨head, front⟩) other back split differs
    · rw [List.nil_append, List.cons.injEq] at split
      rw [← split.1, none, neither] at differs
      exact absurd rfl differs
    · rw [List.cons_append, List.cons.injEq] at split
      rw [List.filter_cons, ← split.1, neither]
      exact late front other back split.2 differs

/-- An item that passes both takes a place on the page. -/
theorem differLate_cons_take (both : first item = true) (also : second item = true) :
    DifferLate first second (limit + 1) (item :: rest) ↔ DifferLate first second limit rest := by
  simp only [DifferLate, List.filter_cons, both, also, if_true, List.length_cons,
    Nat.add_lt_add_iff_right]
  constructor
  · intro late front other back split differs
    have found := late (item :: front) other back (by rw [split]; rfl) differs
    rw [List.filter_cons, also] at found
    exact ⟨Nat.le_of_succ_le_succ found.1, found.2⟩
  · rintro late (_ | ⟨head, front⟩) other back split differs
    · rw [List.nil_append, List.cons.injEq] at split
      rw [← split.1, both, also] at differs
      exact absurd rfl differs
    · rw [List.cons_append, List.cons.injEq] at split
      rw [List.filter_cons, ← split.1, also]
      have found := late front other back split.2 differs
      exact ⟨Nat.succ_le_succ found.1, found.2⟩

/-- An item that passes one of them has to come after a full page. -/
theorem differLate_cons_differ (differs : first item ≠ second item) :
    DifferLate first second limit (item :: rest) ↔ limit = 0 ∧
      0 < ((item :: rest).filter first).length ∧ 0 < ((item :: rest).filter second).length := by
  constructor
  · intro late
    rcases late [] item rest rfl differs with ⟨full, more, others⟩
    have zero : limit = 0 := Nat.le_zero.mp full
    subst zero
    exact ⟨rfl, more, others⟩
  · rintro ⟨rfl, more, others⟩ front other back - -
    exact ⟨Nat.zero_le _, more, others⟩

/-- Two checks give the same page exactly if they differ late. -/
theorem samePage_iff {items : List α} (nodup : items.Nodup) :
    SamePage first second limit items ↔ DifferLate first second limit items := by
  induction items generalizing limit with
  | nil => simp [SamePage, DifferLate]
  | cons item rest inductionHypothesis =>
      rcases List.nodup_cons.mp nodup with ⟨fresh, nodup⟩
      cases passes : first item with
      | false =>
          cases also : second item with
          | false =>
              rw [differLate_cons_skip passes also, ← inductionHypothesis nodup]
              simp only [SamePage, List.filter_cons, passes, also, Bool.false_eq_true, if_false]
          | true =>
              rw [differLate_cons_differ (by simp [passes, also])]
              simp only [SamePage, List.filter_cons, passes, also, Bool.false_eq_true, if_false,
                if_true, List.length_cons]
              cases limit with
              | zero => simp
              | succ limit =>
                  rw [List.take_succ_cons]
                  constructor
                  · rintro ⟨same, -⟩
                    have member : item ∈ (rest.filter first).take (limit + 1) := by
                      rw [same]
                      exact List.mem_cons_self
                    exact absurd (List.mem_of_mem_filter (List.mem_of_mem_take member)) fresh
                  · rintro ⟨impossible, -⟩
                    cases impossible
      | true =>
          cases also : second item with
          | false =>
              rw [differLate_cons_differ (by simp [passes, also])]
              simp only [SamePage, List.filter_cons, passes, also, Bool.false_eq_true, if_false,
                if_true, List.length_cons]
              cases limit with
              | zero => simp
              | succ limit =>
                  rw [List.take_succ_cons]
                  constructor
                  · rintro ⟨same, -⟩
                    have member : item ∈ (rest.filter second).take (limit + 1) := by
                      rw [← same]
                      exact List.mem_cons_self
                    exact absurd (List.mem_of_mem_filter (List.mem_of_mem_take member)) fresh
                  · rintro ⟨impossible, -⟩
                    cases impossible
          | true =>
              cases limit with
              | zero => simp [SamePage, DifferLate, passes, also]
              | succ limit =>
                  rw [differLate_cons_take passes also, ← inductionHypothesis nodup]
                  simp only [SamePage, List.filter_cons, passes, also, if_true,
                    List.take_succ_cons, List.cons.injEq, true_and, List.length_cons,
                    Nat.add_lt_add_iff_right]

end Checks

end MiniS3.Lib.Paging
