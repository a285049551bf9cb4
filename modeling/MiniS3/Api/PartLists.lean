import MiniS3.Api.MultipartHandlers
import MiniS3.Db.Accounting
import MiniS3.Db.Listing

/-!
# Comparing the list of the client with the stored parts

`CompleteUpload` sorts the list of the client and compares it with the stored parts position by
position.  The stored parts have different numbers, so that the comparison finds no difference
exactly when the two are the same as multisets.  A part number is read as an `int`, so that the
handler sees a number that is out of its range as another one.
-/

namespace MiniS3.Api.MultipartHandlers

open Lib Db Net MetaStore

/-- An item of a JSON list that shows a part number and an entity tag. -/
def ShowsEntry (item : Json) (entry : Int × Bytes) : Prop :=
  item.field? (ascii "part_number") = some (.integer entry.1) ∧
    item.field? (ascii "etag") = some (.string entry.2)

/-- The body of the request has a list of these part numbers and entity tags. -/
def Lists (setup : Setup) (request : HttpRequest) (entries : List (Int × Bytes)) : Prop :=
  ∃ body items, setup.json.parse request.body = some body ∧
    body.field? (ascii "parts") = some (.array items) ∧ List.Forall₂ ShowsEntry items entries

/-- The entry with its entity tag without quotes. -/
def unquoted (entry : Int × Bytes) : Int × Bytes :=
  (entry.1, normalizeEtagValue entry.2)

/-- The entry as the handler reads it. -/
def readEntry (entry : Int × Bytes) : Int × Bytes :=
  (entry.1.bmod (2 ^ 32), normalizeEtagValue entry.2)

/-- What `ListParts` tells of a part. -/
def partInfo (uploadId : Bytes) (part : Int × PartRow) : MultipartPartInfo :=
  ⟨uploadId, part.1, part.2.casKey, part.2.size, part.2.etag⟩

/-- The stored parts, as the client's list has to show them. -/
def storedEntries (tables : Tables) (uploadId : Bytes) : List (Int × Bytes) :=
  (tables.sortedParts uploadId).map fun part => unquoted (part.1, part.2.etag)

theorem clientParts_of_shows {items : List Json} {entries : List (Int × Bytes)}
    (lists : List.Forall₂ ShowsEntry items entries) :
    clientParts items = some (some (entries.map readEntry)) := by
  induction lists with
  | nil => rfl
  | @cons item entry items entries shown _ inductionHypothesis =>
      have read : clientPart item = some (some (readEntry entry)) := by
        simp [clientPart, shown.1, shown.2, Json.getInt, Json.getString, readEntry]
      simp [clientParts, read, inductionHypothesis]

/-- The comparison finds no difference when there is none. -/
theorem partMismatch_eq_none_iff {client : List (Int × Bytes)} {server : List MultipartPartInfo}
    (sameLength : client.length = server.length) :
    partMismatch client server = none ↔
      client = server.map fun part => unquoted (part.partNumber, part.etag) := by
  induction client generalizing server with
  | nil =>
      obtain rfl : server = [] := List.eq_nil_of_length_eq_zero sameLength.symm
      exact iff_of_true rfl rfl
  | cons entry client inductionHypothesis =>
      cases server with
      | nil => cases sameLength
      | cons part server =>
          obtain ⟨number, etag⟩ := entry
          have tails := inductionHypothesis (Nat.succ.inj sameLength)
          simp only [partMismatch, List.map_cons, List.cons.injEq, unquoted, Prod.mk.injEq]
          by_cases sameNumber : number = part.partNumber
          · by_cases sameTag : etag = normalizeEtagValue part.etag
            · simp [sameNumber, sameTag, tails, unquoted]
            · simp [sameNumber, sameTag]
          · simp [sameNumber]

theorem strict_storedEntries (tables : Tables) (uploadId : Bytes) :
    (storedEntries tables uploadId).Pairwise fun one two => one.1 < two.1 :=
  List.pairwise_map.mpr (tables.strictParts uploadId)

/-- Sorting the client's list gives the stored parts when the two are the same in some order. -/
theorem sorted_eq_iff {client stored : List (Int × Bytes)}
    (strict : stored.Pairwise fun one two => one.1 < two.1) :
    client.insertionSort (fun one two => one.1 ≤ two.1) = stored ↔ client.Perm stored := by
  have sorts := List.perm_insertionSort (fun one two : Int × Bytes => one.1 ≤ two.1) client
  constructor
  · rintro rfl
    exact sorts.symm
  · intro perm
    have total : Std.Total fun one two : Int × Bytes => one.1 ≤ two.1 :=
      ⟨fun one two => Int.le_total one.1 two.1⟩
    have transitive : IsTrans (Int × Bytes) fun one two => one.1 ≤ two.1 :=
      ⟨fun _ _ _ => Int.le_trans⟩
    have same := sorts.trans perm
    -- two entries of the same number would be two stored parts of the same number
    have distinct : (client.insertionSort fun one two => one.1 ≤ two.1).Pairwise
        fun one two => one.1 ≠ two.1 := by
      refine same.symm.pairwise (strict.imp fun less => (Int.ne_of_lt less)) fun different => ?_
      exact different.symm
    have ordered := List.pairwise_insertionSort (fun one two : Int × Bytes => one.1 ≤ two.1) client
    have increasing := (ordered.and distinct).imp fun both => lt_of_le_of_ne both.1 both.2
    refine List.Perm.eq_of_pairwise ?_ increasing strict same
    intro one two _ _ less greater
    exact absurd less (Int.lt_asymm greater)

/-- `ListParts` from the beginning tells the first of the stored parts. -/
theorem listedParts_eq {uploadId : Bytes} {tables : Tables} (numbered : Numbered uploadId tables)
    (limit : Int) :
    tables.listedParts uploadId 0 limit = (tables.sortedParts uploadId).take limit.toNat := by
  have positive : (tables.partsOf uploadId).filter (fun part => (0 : Int) < part.1) =
      tables.partsOf uploadId := by
    rw [List.filter_eq_self]
    intro part member
    have range := numbered part.1 part.2 (Tables.mem_partsOf.mp member)
    simp only [decide_eq_true_eq]
    omega
  rw [Tables.listedParts, positive]
  rfl

theorem length_sortedParts_le {uploadId : Bytes} {tables : Tables}
    (numbered : Numbered uploadId tables) : (tables.sortedParts uploadId).length ≤ 10000 := by
  rw [Tables.sortedParts, List.length_insertionSort]
  exact length_partsOf_le numbered

/-- The parts that `ListParts` tells the handler are the stored parts. -/
theorem listed_eq {uploadId : Bytes} {tables : Tables} (numbered : Numbered uploadId tables) :
    (tables.listedParts uploadId 0 (10000 + 1)).take (10000 : Int).toNat =
      tables.sortedParts uploadId := by
  rw [listedParts_eq numbered, List.take_take, List.take_of_length_le]
  exact length_sortedParts_le numbered

end MiniS3.Api.MultipartHandlers
