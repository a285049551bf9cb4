import MiniS3.Lib.Path
import MiniS3.Storage.CasLayout

/-!
# Where the files of blobs are

The files of a blob, under its own name and under a quarantine name, are below the
directory `cas` of the data directory, whatever the working directory of the server is,
if the key of the blob is valid.  Other keys are cut and joined in the same way, and an
absolute component takes their files anywhere.
-/

namespace MiniS3

open Lib

/-- The path leads to something below the directory. -/
abbrev Inside (working : List Bytes) (directory path : Bytes) : Prop :=
  Path.Inside 47 46 working directory path

/-- `operator/` of paths. -/
theorem joinPath_eq (base sub : Bytes) : joinPath base sub = Path.join 47 base sub :=
  rfl

/-- Bytes that occur in names of files: neither `/` nor `.`. -/
def NameByte (byte : UInt8) : Prop :=
  byte ≠ 47 ∧ byte ≠ 46

/-- A text of such bytes, with any extension of such bytes and dots, goes down. -/
theorem plain_of_nameBytes (name extension : Bytes) (nonempty : name ≠ [])
    (letters : ∀ byte ∈ name, NameByte byte) (unseparated : (47 : UInt8) ∉ extension) :
    Path.Plain 47 46 (name ++ extension) := by
  obtain ⟨first, rest, rfl⟩ := List.exists_cons_of_ne_nil nonempty
  have different := letters first List.mem_cons_self
  refine ⟨by simp, ?_, ?_, ?_⟩
  · intro member
    rcases List.mem_append.mp member with inside | inside
    · exact (letters 47 inside).1 rfl
    · exact unseparated inside
  · intro same
    exact different.2 (List.cons.inj same).1
  · intro same
    exact different.2 (List.cons.inj same).1

theorem nameByte_of_hex {byte : UInt8}
    (hex : (48 ≤ byte ∧ byte ≤ 57) ∨ (97 ≤ byte ∧ byte ≤ 102)) : NameByte byte := by
  constructor <;> rintro rfl <;> revert hex <;> decide

theorem isValidCasKey_iff {casKey : Bytes} :
    isValidCasKey casKey = true ↔ casKey.length = 64 ∧
      ∀ byte ∈ casKey, (48 ≤ byte ∧ byte ≤ 57) ∨ (97 ≤ byte ∧ byte ≤ 102) := by
  simp [isValidCasKey]

namespace Setup

variable (setup : Setup)

/-- A digest is a valid key. -/
theorem isValidCasKey_sha256Hex (data : Bytes) : isValidCasKey (setup.sha256Hex data) = true :=
  isValidCasKey_iff.mpr ⟨setup.length_sha256Hex data, fun _ => mem_toHexString⟩

/-- The directory of all blobs. -/
def casDir : Bytes :=
  joinPath setup.dataDir (ascii "cas")

variable {setup} {casKey : Bytes} (valid : isValidCasKey casKey = true) (working : List Bytes)

include valid

theorem nonempty_of_isValidCasKey : casKey ≠ [] := by
  rintro rfl
  exact absurd valid (by decide)

theorem nameBytes_of_isValidCasKey : ∀ byte ∈ casKey, NameByte byte := fun byte member =>
  nameByte_of_hex ((isValidCasKey_iff.mp valid).2 byte member)

theorem getCasDir_of_isValidCasKey :
    setup.getCasDir casKey =
      joinPath (joinPath setup.casDir (casKey.take 2)) ((casKey.drop 2).take 2) := by
  have length := (isValidCasKey_iff.mp valid).1
  unfold getCasDir
  rw [if_neg (by omega)]
  rfl

/-- The directory of a blob is below the one of all blobs. -/
theorem inside_getCasDir : Inside working setup.casDir (setup.getCasDir casKey) := by
  have length := (isValidCasKey_iff.mp valid).1
  have letters := nameBytes_of_isValidCasKey valid
  have first : Path.Plain 47 46 (casKey.take 2) := by
    have plain := plain_of_nameBytes (casKey.take 2) []
      (by rw [← List.length_pos_iff, List.length_take]; omega)
      (fun byte member => letters byte (List.mem_of_mem_take member)) (by simp)
    rwa [List.append_nil] at plain
  have second : Path.Plain 47 46 ((casKey.drop 2).take 2) := by
    have plain := plain_of_nameBytes ((casKey.drop 2).take 2) []
      (by rw [← List.length_pos_iff, List.length_take, List.length_drop]; omega)
      (fun byte member => letters byte (List.mem_of_mem_drop (List.mem_of_mem_take member)))
      (by simp)
    rwa [List.append_nil] at plain
  rw [getCasDir_of_isValidCasKey valid, joinPath_eq, joinPath_eq]
  exact (Path.inside_join first working _).trans (Path.inside_join second working _)

/-- A file in the directory of a blob whose name starts with the key of the blob. -/
theorem inside_extension {extension : Bytes} (unseparated : (47 : UInt8) ∉ extension) :
    Inside working setup.casDir (joinPath (setup.getCasDir casKey) (casKey ++ extension)) := by
  have plain := plain_of_nameBytes casKey extension (nonempty_of_isValidCasKey valid)
    (nameBytes_of_isValidCasKey valid) unseparated
  rw [joinPath_eq]
  exact (inside_getCasDir valid working).trans (Path.inside_join plain working _)

/-- The file of a blob is below the directory of all blobs. -/
theorem inside_getCasPath : Inside working setup.casDir (setup.getCasPath casKey) :=
  inside_extension valid working (by decide)

theorem quarantinePath_eq (uuid : Bytes) :
    setup.quarantinePath casKey uuid =
      joinPath (setup.getCasDir casKey) (casKey ++ (ascii ".blob.gc." ++ uuid)) := by
  have plain := plain_of_nameBytes casKey (ascii ".blob") (nonempty_of_isValidCasKey valid)
    (nameBytes_of_isValidCasKey valid) (by decide)
  have relative := Path.head?_ne_of_plain plain
  have same : (casKey ++ (ascii ".blob.gc." ++ uuid)).head? =
      (casKey ++ ascii ".blob").head? := by
    cases casKey with
    | nil => exact absurd rfl (nonempty_of_isValidCasKey valid)
    | cons first rest => rfl
  unfold quarantinePath getCasPath joinPath
  rw [same, if_neg relative, if_neg relative]
  split <;> simp [ascii]

/-- So is the file of a blob that is set aside. -/
theorem inside_quarantinePath {uuid : Bytes} (named : isUuid uuid = true) :
    Inside working setup.casDir (setup.quarantinePath casKey uuid) := by
  simp only [isUuid, Bool.and_eq_true, beq_iff_eq, List.all_eq_true] at named
  rw [quarantinePath_eq valid]
  refine inside_extension valid working ?_
  intro member
  rcases List.mem_append.mp member with inside | inside
  · revert inside
    decide
  · exact absurd (named.2 47 inside) (by decide)

end Setup

end MiniS3
