import MiniS3.Util.Json

/-!
# Names of blobs and files

A blob is named by the SHA-256 of its content in hexadecimal, and its file lies two
directories deep under `cas`.  The digests are parameters of the model: OpenSSL is
not part of the repository.

A blob key that is 64 characters long can be read back from its path, which is what
keeps the files of different blobs apart.  Names of temporary files end in `.part`,
and names of quarantined files in a UUID, so that neither is the file of a blob.
-/

namespace MiniS3

/-- What the server is built with: libraries, the index of `objects`, and its
configuration. -/
structure Setup where
  json : JsonLibrary
  sha256 : Bytes → Vector UInt8 32
  hmacSha256 : Bytes → Bytes → Vector UInt8 32
  indexed : Bytes → Bytes
  dataDir : Bytes
  tmpDir : Bytes
  gcEnabled : Bool
  gcBatchSize : Int
  authEnabled : Bool
  staticTokens : List Bytes
  jsonFormat : Bool

/-- A hexadecimal digit. -/
def hexDigit (value : UInt8) : UInt8 :=
  if value < 10 then 48 + value else 87 + value

/-- `Crypto::ToHexString`. -/
def toHexString (data : List UInt8) : Bytes :=
  data.flatMap fun byte => [hexDigit (byte / 16), hexDigit (byte % 16)]

/-- `FileSystem::JoinPath`, that is `operator/` of `std::filesystem::path`. -/
def joinPath (base sub : Bytes) : Bytes :=
  if sub.head? = some 47 then sub
  else if base.isEmpty || base.getLast? = some 47 then base ++ sub
  else base ++ 47 :: sub

/-- The text `UUID::Generate` returns: 36 lower-case hexadecimal digits and dashes. -/
def isUuid (text : Bytes) : Bool :=
  text.length == 36 &&
    text.all fun byte => byte == 45 || (48 ≤ byte && byte ≤ 57) || (97 ≤ byte && byte ≤ 102)

/-- `CasLayout::IsValidCasKey`. -/
def isValidCasKey (casKey : Bytes) : Bool :=
  casKey.length == 64 &&
    casKey.all fun byte => (48 ≤ byte && byte ≤ 57) || (97 ≤ byte && byte ≤ 102)

namespace Setup

variable (setup : Setup)

/-- `Crypto::SHA256` and `SHA256Context::Final`, on all the bytes that were fed. -/
def sha256Hex (data : Bytes) : Bytes :=
  toHexString (setup.sha256 data).toList

/-- `CasLayout::GetCasDir`. -/
def getCasDir (casKey : Bytes) : Bytes :=
  if casKey.length < 4 then joinPath setup.dataDir (ascii "cas/00/00")
  else
    joinPath (joinPath (joinPath setup.dataDir (ascii "cas")) (casKey.take 2))
      ((casKey.drop 2).take 2)

/-- `CasLayout::GetCasPath`. -/
def getCasPath (casKey : Bytes) : Bytes :=
  joinPath (setup.getCasDir casKey) (casKey ++ ascii ".blob")

/-- The temporary file of an upload or of a merge. -/
def tmpPath (directory uuid : Bytes) : Bytes :=
  joinPath (joinPath setup.tmpDir directory) (uuid ++ ascii ".part")

/-- The name under which the collector sets a file aside. -/
def quarantinePath (casKey uuid : Bytes) : Bytes :=
  setup.getCasPath casKey ++ ascii ".gc." ++ uuid

end Setup

/-- The value of a hexadecimal digit. -/
def hexValue (digit : UInt8) : UInt8 :=
  if digit < 58 then digit - 48 else digit - 87

/-- The digest that a text of 64 hexadecimal digits stands for. -/
def digestOfHex (text : String) : Vector UInt8 32 :=
  Vector.ofFn fun index =>
    16 * hexValue ((ascii text).getD (2 * index) 48) +
      hexValue ((ascii text).getD (2 * index + 1) 48)

/-- A small configuration for concrete runs, with the digests of the texts that occur in
them. -/
def Setup.sample (digests : List (Bytes × String)) (texts : List (Bytes × Json)) : Setup where
  json := .plain texts
  sha256 data :=
    ((digests.find? fun entry => entry.1 = data).map fun entry => digestOfHex entry.2).getD
      (Vector.replicate 32 0)
  hmacSha256 _ _ := Vector.replicate 32 0
  indexed := id
  dataDir := ascii "/data"
  tmpDir := ascii "/tmp"
  gcEnabled := true
  gcBatchSize := 100
  authEnabled := false
  staticTokens := []
  jsonFormat := true

/-! ## Digests are blob keys -/

theorem length_toHexString (data : List UInt8) : (toHexString data).length = 2 * data.length := by
  induction data with
  | nil => rfl
  | cons byte rest inductionHypothesis =>
      simp only [toHexString, List.flatMap_cons, List.length_append, List.length_cons,
        List.length_nil] at inductionHypothesis ⊢
      omega

theorem hexDigit_of_lt {value : UInt8} (small : value < 16) :
    (48 ≤ hexDigit value ∧ hexDigit value ≤ 57) ∨ (97 ≤ hexDigit value ∧ hexDigit value ≤ 102) := by
  unfold hexDigit
  simp only [UInt8.lt_iff_toNat_lt, UInt8.le_iff_toNat_le] at small ⊢
  split
  · left
    simp only [UInt8.toNat_add, UInt8.reduceToNat] at *
    omega
  · right
    simp only [UInt8.toNat_add, UInt8.reduceToNat] at *
    omega

theorem mem_toHexString {data : List UInt8} {byte : UInt8} (member : byte ∈ toHexString data) :
    (48 ≤ byte ∧ byte ≤ 57) ∨ (97 ≤ byte ∧ byte ≤ 102) := by
  simp only [toHexString, List.mem_flatMap, List.mem_cons, List.not_mem_nil, or_false] at member
  obtain ⟨source, -, rfl | rfl⟩ := member
  · refine hexDigit_of_lt ?_
    have bound := source.toNat_lt
    simp only [UInt8.lt_iff_toNat_lt, UInt8.toNat_div, UInt8.reduceToNat]
    omega
  · refine hexDigit_of_lt ?_
    simp only [UInt8.lt_iff_toNat_lt, UInt8.toNat_mod, UInt8.reduceToNat]
    omega

@[simp]
theorem Setup.length_sha256Hex (setup : Setup) (data : Bytes) :
    (setup.sha256Hex data).length = 64 := by
  simp [Setup.sha256Hex, length_toHexString]

theorem Setup.sha256Hex_ne_nil (setup : Setup) (data : Bytes) : setup.sha256Hex data ≠ [] := by
  intro empty
  have length := setup.length_sha256Hex data
  simp [empty] at length

/-! ## Paths -/

theorem suffix_joinPath (base sub : Bytes) : sub <:+ joinPath base sub := by
  unfold joinPath
  split
  · exact List.suffix_refl sub
  · split
    · exact List.suffix_append base sub
    · exact ⟨base ++ [47], by simp⟩

namespace Setup

variable (setup : Setup)

theorem suffix_getCasPath (casKey : Bytes) :
    casKey ++ ascii ".blob" <:+ setup.getCasPath casKey :=
  suffix_joinPath _ _

theorem suffix_tmpPath (directory uuid : Bytes) :
    ascii ".part" <:+ setup.tmpPath directory uuid :=
  (List.suffix_append uuid (ascii ".part")).trans (suffix_joinPath _ _)

/-- The key of a blob can be read off its path. -/
theorem getCasPath_injective {first second : Bytes} (firstLength : first.length = 64)
    (secondLength : second.length = 64)
    (same : setup.getCasPath first = setup.getCasPath second) : first = second := by
  obtain ⟨firstFront, firstPath⟩ := setup.suffix_getCasPath first
  obtain ⟨secondFront, secondPath⟩ := setup.suffix_getCasPath second
  have equal : firstFront ++ (first ++ ascii ".blob") =
      secondFront ++ (second ++ ascii ".blob") := by
    rw [firstPath, secondPath, same]
  have tails := List.append_inj_right' equal (by simp [firstLength, secondLength])
  exact List.append_inj_left' tails rfl

theorem getCasPath_ne_tmpPath (casKey directory uuid : Bytes) :
    setup.getCasPath casKey ≠ setup.tmpPath directory uuid := by
  intro same
  obtain ⟨casFront, casPath⟩ := setup.suffix_getCasPath casKey
  obtain ⟨tmpFront, tmpPath⟩ := setup.suffix_tmpPath directory uuid
  have equal : casFront ++ casKey ++ ascii ".blob" = tmpFront ++ ascii ".part" := by
    rw [List.append_assoc, casPath, tmpPath, same]
  have tails := List.append_inj_right' equal (by decide)
  exact absurd tails (by decide)

/-- A text that ends in a UUID does not end in an extension. -/
theorem not_suffix_of_isUuid {path front uuid extension : Bytes} (valid : isUuid uuid = true)
    (path_eq : path = front ++ uuid) (dotted : extension.head? = some 46)
    (short : extension.length ≤ 36) : ¬ extension <:+ path := by
  rintro ⟨before, split⟩
  simp only [isUuid, Bool.and_eq_true, beq_iff_eq, List.all_eq_true] at valid
  obtain ⟨length, letters⟩ := valid
  have inside : extension <:+ uuid := by
    refine List.suffix_of_suffix_length_le ⟨before, split⟩ ⟨front, path_eq.symm⟩ ?_
    omega
  obtain ⟨rest, rfl⟩ : ∃ rest, extension = 46 :: rest := by
    cases extension with
    | nil => simp at dotted
    | cons first rest =>
        simp only [List.head?_cons, Option.some.injEq] at dotted
        exact ⟨rest, by rw [dotted]⟩
  have member : (46 : UInt8) ∈ uuid := inside.mem List.mem_cons_self
  exact absurd (letters 46 member) (by decide)

theorem quarantinePath_ne_getCasPath {casKey other uuid : Bytes}
    (valid : isUuid uuid = true) :
    setup.quarantinePath casKey uuid ≠ setup.getCasPath other := by
  intro same
  refine not_suffix_of_isUuid valid rfl (by decide) (by decide) (?_ : ascii ".blob" <:+
    setup.quarantinePath casKey uuid)
  rw [same]
  exact (List.suffix_append other _).trans (setup.suffix_getCasPath other)

theorem quarantinePath_ne_tmpPath {casKey directory name uuid : Bytes}
    (valid : isUuid uuid = true) :
    setup.quarantinePath casKey uuid ≠ setup.tmpPath directory name := by
  intro same
  refine not_suffix_of_isUuid valid rfl (by decide) (by decide) (?_ : ascii ".part" <:+
    setup.quarantinePath casKey uuid)
  rw [same]
  exact setup.suffix_tmpPath directory name

end Setup

end MiniS3
