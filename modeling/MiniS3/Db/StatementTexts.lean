import MiniS3.Db.SqlText

/-!
# The statements as texts

The text of every statement that the metadata store and its transactions send, in the pieces that
the source adds up.  A value goes through `Escape` of the connection that the text is sent on;
without a connection to the server `Escape` leaves the value as it is, but then `Execute` sends
nothing.

A text that is sent is read as its statement: its literals are the values, its numbers are the
numbers, and everything else is the program's own, the same for all values.  No value adds a
statement to the text.
-/

namespace MiniS3.Db

/-! ## Pieces -/

/-- `WHERE object_key LIKE` with a prefix, unless the prefix is empty. -/
def likePieces (keyPrefix : Bytes) : List Piece :=
  if keyPrefix.isEmpty then []
  else [.sql (ascii " AND object_key LIKE '"), .value keyPrefix, .sql (ascii "%'")]

/-- The keys after one, unless it is empty. -/
def afterPieces (startAfter : Bytes) : List Piece :=
  if startAfter.isEmpty then []
  else [.sql (ascii " AND object_key > '"), .value startAfter, .sql (ascii "'")]

/-- The beginning of the statements that store an object. -/
def objectPieces (bucketId : Int) (row : ObjectRow) : List Piece :=
  [.sql (ascii "INSERT INTO objects(bucket_id, object_key, cas_key, size, content_type, etag) VALUES("),
    .number bucketId, .sql (ascii ", '"), .value row.objectKey, .sql (ascii "', '"),
    .value row.casKey, .sql (ascii "', "), .number row.size, .sql (ascii ", '"),
    .value row.contentType, .sql (ascii "', '"), .value row.etag]

/-- The text of a statement of the tables. -/
def Stmt.pieces : Stmt → List Piece
  | .insertBucket name =>
      [.sql (ascii "INSERT INTO buckets(name) VALUES('"), .value name, .sql (ascii "')")]
  | .selectBucketByName name =>
      [.sql (ascii "SELECT id, name, created_at FROM buckets WHERE name='"), .value name,
        .sql (ascii "' LIMIT 1")]
  | .selectBucketById id =>
      [.sql (ascii "SELECT id, name, created_at FROM buckets WHERE id="), .number id,
        .sql (ascii " LIMIT 1")]
  | .selectBuckets => [.sql (ascii "SELECT id, name, created_at FROM buckets ORDER BY name")]
  | .deleteBucket name =>
      [.sql (ascii "DELETE FROM buckets WHERE name='"), .value name, .sql (ascii "'")]
  | .countObjectsInBucket bucketId =>
      [.sql (ascii "SELECT COUNT(*) FROM objects WHERE bucket_id="), .number bucketId]
  | .upsertCasBlob casKey size =>
      [.sql (ascii "INSERT INTO cas_blobs(cas_key, size, ref_count) VALUES('"), .value casKey,
        .sql (ascii "', "), .number size,
        .sql (ascii ", 1) ON DUPLICATE KEY UPDATE ref_count = ref_count + 1, updated_at=CURRENT_TIMESTAMP")]
  | .decrementRefCount casKey =>
      [.sql (ascii "UPDATE cas_blobs SET ref_count = IF(ref_count>0, ref_count-1, 0), updated_at=CURRENT_TIMESTAMP WHERE cas_key='"),
        .value casKey, .sql (ascii "'")]
  | .selectRefCount casKey =>
      [.sql (ascii "SELECT ref_count FROM cas_blobs WHERE cas_key='"), .value casKey,
        .sql (ascii "' LIMIT 1")]
  | .selectRefCountForUpdate casKey =>
      [.sql (ascii "SELECT ref_count FROM cas_blobs WHERE cas_key='"), .value casKey,
        .sql (ascii "' FOR UPDATE")]
  | .selectCasBlob casKey =>
      [.sql (ascii "SELECT cas_key, size, ref_count, created_at, updated_at FROM cas_blobs WHERE cas_key='"),
        .value casKey, .sql (ascii "' LIMIT 1")]
  | .deleteCasBlob casKey =>
      [.sql (ascii "DELETE FROM cas_blobs WHERE cas_key='"), .value casKey, .sql (ascii "'")]
  | .insertObject bucketId row => objectPieces bucketId row ++ [.sql (ascii "')")]
  | .upsertObject bucketId row =>
      objectPieces bucketId row ++
        [.sql (ascii "') ON DUPLICATE KEY UPDATE cas_key=VALUES(cas_key), size=VALUES(size), content_type=VALUES(content_type), etag=VALUES(etag)")]
  | .selectObjectCasKeyForUpdate bucketId key =>
      [.sql (ascii "SELECT cas_key FROM objects WHERE bucket_id="), .number bucketId,
        .sql (ascii " AND object_key='"), .value key, .sql (ascii "' FOR UPDATE")]
  | .selectObject bucketId key =>
      [.sql (ascii "SELECT id, bucket_id, object_key, cas_key, size, etag, content_type, created_at FROM objects WHERE bucket_id="),
        .number bucketId, .sql (ascii " AND object_key='"), .value key, .sql (ascii "' LIMIT 1")]
  | .deleteObject bucketId key =>
      [.sql (ascii "DELETE FROM objects WHERE bucket_id="), .number bucketId,
        .sql (ascii " AND object_key='"), .value key, .sql (ascii "'")]
  | .selectObjects bucketId keyPrefix startAfter limit =>
      [.sql (ascii "SELECT id, bucket_id, object_key, cas_key, size, etag, content_type, created_at FROM objects WHERE bucket_id="),
        .number bucketId] ++
      (likePieces keyPrefix ++ (afterPieces startAfter ++
        [.sql (ascii " ORDER BY object_key LIMIT "), .number limit]))
  | .countObjectsWithCasKey casKey =>
      [.sql (ascii "SELECT COUNT(*) FROM objects WHERE cas_key='"), .value casKey,
        .sql (ascii "'")]
  | .insertUpload uploadId row =>
      [.sql (ascii "INSERT INTO multipart_uploads(upload_id, bucket_id, object_key, content_type, expires_at) VALUES('"),
        .value uploadId, .sql (ascii "', "), .number row.bucketId, .sql (ascii ", '"),
        .value row.objectKey, .sql (ascii "', '"), .value row.contentType,
        .sql (ascii "', '"), .value (timePointToMySQL row.expiresAt.toNat), .sql (ascii "')")]
  | .selectUpload uploadId =>
      [.sql (ascii "SELECT upload_id, bucket_id, object_key, content_type, created_at FROM multipart_uploads WHERE upload_id='"),
        .value uploadId, .sql (ascii "' LIMIT 1")]
  | .deleteUpload uploadId =>
      [.sql (ascii "DELETE FROM multipart_uploads WHERE upload_id='"), .value uploadId,
        .sql (ascii "'")]
  | .upsertPart uploadId partNumber row =>
      [.sql (ascii "INSERT INTO multipart_parts(upload_id, part_number, cas_key, size, etag) VALUES('"),
        .value uploadId, .sql (ascii "', "), .number partNumber, .sql (ascii ", '"),
        .value row.casKey, .sql (ascii "', "), .number row.size, .sql (ascii ", '"),
        .value row.etag,
        .sql (ascii "') ON DUPLICATE KEY UPDATE cas_key=VALUES(cas_key), size=VALUES(size), etag=VALUES(etag)")]
  | .selectPartCasKeyForUpdate uploadId partNumber =>
      [.sql (ascii "SELECT cas_key FROM multipart_parts WHERE upload_id='"), .value uploadId,
        .sql (ascii "' AND part_number="), .number partNumber, .sql (ascii " FOR UPDATE")]
  | .selectParts uploadId marker limit =>
      [.sql (ascii "SELECT upload_id, part_number, cas_key, size, etag, created_at FROM multipart_parts WHERE upload_id='"),
        .value uploadId, .sql (ascii "' AND part_number > "), .number marker,
        .sql (ascii " ORDER BY part_number LIMIT "), .number limit]
  | .countPartsWithCasKey casKey =>
      [.sql (ascii "SELECT COUNT(*) FROM multipart_parts WHERE cas_key='"), .value casKey,
        .sql (ascii "'")]
  | .selectIdempotency key =>
      [.sql (ascii "SELECT idempotency_key, request_hash, response_status, response_body, created_at, expires_at FROM idempotency_records WHERE idempotency_key='"),
        .value key, .sql (ascii "' LIMIT 1")]
  | .upsertIdempotency key row =>
      [.sql (ascii "INSERT INTO idempotency_records(idempotency_key, request_hash, response_status, response_body, expires_at) VALUES('"),
        .value key, .sql (ascii "', '"), .value row.requestHash, .sql (ascii "', "),
        .number row.responseStatus, .sql (ascii ", '"), .value row.responseBody,
        .sql (ascii "', '"), .value (timePointToMySQL row.expiresAt.toNat),
        .sql (ascii "') ON DUPLICATE KEY UPDATE request_hash=VALUES(request_hash), response_status=VALUES(response_status), response_body=VALUES(response_body), expires_at=VALUES(expires_at)")]

/-- Everything that goes to the server: the statements of the tables, and those that no modelled
call of the store asks for. -/
inductive Statement
  | of (stmt : Stmt)
  | selectObjectId (bucketId : Int) (key : Bytes)
  | incrementRefCount (casKey : Bytes)
  | selectUploads (bucketId : Int) (keyPrefix : Bytes) (maxUploads : Int)
  | selectGarbageBlobs (minAgeSeconds limit : Int)
  | deleteExpiredIdempotency
  | startTransaction
  | commit
  | rollback

namespace Statement

/-- The text of a statement. -/
def pieces : Statement → List Piece
  | of stmt => stmt.pieces
  | selectObjectId bucketId key =>
      [.sql (ascii "SELECT id FROM objects WHERE bucket_id="), .number bucketId,
        .sql (ascii " AND object_key='"), .value key, .sql (ascii "' LIMIT 1")]
  | incrementRefCount casKey =>
      [.sql (ascii "UPDATE cas_blobs SET ref_count = ref_count + 1, updated_at=CURRENT_TIMESTAMP WHERE cas_key='"),
        .value casKey, .sql (ascii "'")]
  | selectUploads bucketId keyPrefix maxUploads =>
      [.sql (ascii "SELECT upload_id, bucket_id, object_key, content_type, created_at FROM multipart_uploads WHERE bucket_id="),
        .number bucketId] ++
      (likePieces keyPrefix ++ [.sql (ascii " ORDER BY created_at LIMIT "), .number maxUploads])
  | selectGarbageBlobs minAgeSeconds limit =>
      [.sql (ascii "SELECT cas_key, size, ref_count, created_at, updated_at FROM cas_blobs WHERE ref_count = 0 AND updated_at < (NOW() - INTERVAL "),
        .number minAgeSeconds, .sql (ascii " SECOND) ORDER BY updated_at LIMIT "), .number limit]
  | deleteExpiredIdempotency =>
      [.sql (ascii "DELETE FROM idempotency_records WHERE expires_at < NOW()")]
  | startTransaction => [.sql (ascii "START TRANSACTION")]
  | commit => [.sql (ascii "COMMIT")]
  | rollback => [.sql (ascii "ROLLBACK")]

end Statement

/-! ## Values and numbers -/

/-- The text that a key has to be like, unless the prefix is empty. -/
def likeLiterals (keyPrefix : Bytes) : List Bytes :=
  if keyPrefix.isEmpty then [] else [keyPrefix ++ ascii "%"]

def afterLiterals (startAfter : Bytes) : List Bytes :=
  if startAfter.isEmpty then [] else [startAfter]

/-- The values of a statement of the tables, in their order. -/
def Stmt.literals : Stmt → List Bytes
  | .insertBucket value | .selectBucketByName value | .deleteBucket value | .upsertCasBlob value _
  | .decrementRefCount value | .selectRefCount value | .selectRefCountForUpdate value
  | .selectCasBlob value | .deleteCasBlob value | .selectObjectCasKeyForUpdate _ value
  | .selectObject _ value | .deleteObject _ value | .countObjectsWithCasKey value
  | .selectUpload value | .deleteUpload value | .selectPartCasKeyForUpdate value _
  | .selectParts value _ _ | .countPartsWithCasKey value | .selectIdempotency value => [value]
  | .selectBucketById _ | .selectBuckets | .countObjectsInBucket _ => []
  | .insertObject _ row | .upsertObject _ row =>
      [row.objectKey, row.casKey, row.contentType, row.etag]
  | .selectObjects _ keyPrefix startAfter _ => likeLiterals keyPrefix ++ afterLiterals startAfter
  | .insertUpload uploadId row =>
      [uploadId, row.objectKey, row.contentType, timePointToMySQL row.expiresAt.toNat]
  | .upsertPart uploadId _ row => [uploadId, row.casKey, row.etag]
  | .upsertIdempotency key row =>
      [key, row.requestHash, row.responseBody, timePointToMySQL row.expiresAt.toNat]

/-- The numbers of a statement of the tables, in their order. -/
def Stmt.numbers : Stmt → List Int
  | .selectBucketById value | .countObjectsInBucket value | .upsertCasBlob _ value
  | .selectObjectCasKeyForUpdate value _ | .selectObject value _ | .deleteObject value _
  | .selectPartCasKeyForUpdate _ value => [value]
  | .insertBucket _ | .selectBucketByName _ | .selectBuckets | .deleteBucket _
  | .decrementRefCount _ | .selectRefCount _ | .selectRefCountForUpdate _ | .selectCasBlob _
  | .deleteCasBlob _ | .countObjectsWithCasKey _ | .selectUpload _ | .deleteUpload _
  | .countPartsWithCasKey _ | .selectIdempotency _ => []
  | .insertObject bucketId row | .upsertObject bucketId row => [bucketId, row.size]
  | .selectObjects bucketId _ _ limit => [bucketId, limit]
  | .insertUpload _ row => [row.bucketId]
  | .upsertPart _ partNumber row => [partNumber, row.size]
  | .selectParts _ marker limit => [marker, limit]
  | .upsertIdempotency _ row => [row.responseStatus]

namespace Statement

/-- The values of a statement, in their order. -/
def literals : Statement → List Bytes
  | of stmt => stmt.literals
  | selectObjectId _ key => [key]
  | incrementRefCount casKey => [casKey]
  | selectUploads _ keyPrefix _ => likeLiterals keyPrefix
  | selectGarbageBlobs _ _ | deleteExpiredIdempotency | startTransaction | commit | rollback => []

/-- The numbers of a statement, in their order. -/
def numbers : Statement → List Int
  | of stmt => stmt.numbers
  | selectObjectId bucketId _ => [bucketId]
  | selectUploads bucketId _ maxUploads => [bucketId, maxUploads]
  | selectGarbageBlobs minAgeSeconds limit => [minAgeSeconds, limit]
  | incrementRefCount _ | deleteExpiredIdempotency | startTransaction | commit | rollback => []

end Statement

/-! ## How the statements are read -/

/-- The literals of a text, its numbers, and whether there is a semicolon outside of literals. -/
def summary (slots : List Slot) : List Bytes × List Int × Bool :=
  (slots.filterMap Slot.literal?, slots.filterMap Slot.number?, slots.any Slot.isSemicolon)

/-- The literals and the numbers that a text has, which has no semicolon outside of literals. -/
def Reads (state : LexState) (pieces : List Piece) (literals : List Bytes) (numbers : List Int) :
    Prop :=
  (slotsFrom state pieces).map summary = some (literals, numbers, false)

/-- A token that is neither a literal nor a semicolon. -/
def Token.isPlain : Token → Bool
  | word _ => true
  | literal _ => false
  | symbol byte => byte != 59

/-- A text of plain tokens, after which the server is in some state. -/
def landsIn (after : LexState) (text : Bytes) : Bool :=
  decide ((lexer.scan .between text).1 = after) &&
    (lexer.scan .between text).2.all Token.isPlain

/-- A text of plain tokens that ends with the whole text. -/
def isWhole (text : Bytes) : Bool :=
  (lexer.read .between text).any (·.all Token.isPlain)

/-- The text does not begin with another quote. -/
def isApart (text : Bytes) : Bool :=
  text.head?.any (· != 39)

/-- The pieces go on with a text of the program that does not begin with another quote. -/
def startsApart : List Piece → Bool
  | .sql text :: _ => isApart text
  | _ => false

/-- A literal ends where no second quote follows, and the text goes on behind it. -/
theorem scan_closing {text : Bytes} (value : Bytes) (single : isApart text = true) :
    lexer.scan (.closing 39 value) text =
      ((lexer.scan .between text).1, .literal value :: (lexer.scan .between text).2) := by
  cases text with
  | nil => exact absurd single (by decide)
  | cons byte text =>
      have other : byte ≠ 39 := by simpa [isApart] using single
      have ends : lexer.step (.closing 39 value) byte =
          LexState.startAfter [.literal value] byte := by
        show LexState.step (.closing 39 value) byte = _
        rw [LexState.step, if_neg other]
      rw [Lib.Scanner.scan, ends]
      rfl

theorem summary_append (slots others : List Slot) :
    summary (slots ++ others) =
      ((summary slots).1 ++ (summary others).1, (summary slots).2.1 ++ (summary others).2.1,
        (summary slots).2.2 || (summary others).2.2) := by
  simp [summary, List.any_append]

theorem summary_of_plain {tokens : List Token} (plain : tokens.all Token.isPlain = true) :
    summary (tokens.map .token) = ([], [], false) := by
  induction tokens with
  | nil => rfl
  | cons token tokens inductionHypothesis =>
      rw [List.all_cons, Bool.and_eq_true] at plain
      have first : summary [.token token] = ([], [], false) := by
        cases token with
        | word text => rfl
        | literal text => exact absurd plain.1 (by simp [Token.isPlain])
        | symbol byte =>
            have other : (byte == 59) = false := by simpa [Token.isPlain] using plain.1
            simp [summary, Slot.literal?, Slot.number?, Slot.isSemicolon, other]
      rw [List.map_cons, ← List.singleton_append, summary_append, first,
        inductionHypothesis plain.2]
      rfl

namespace Reads

variable {literals : List Bytes} {numbers : List Int} {rest : List Piece} {text value : Bytes}

theorem nil : Reads .between [] [] [] := rfl

/-- A text of the program. -/
theorem own {after : LexState} (lands : landsIn after text = true)
    (reads : Reads after rest literals numbers) :
    Reads .between (.sql text :: rest) literals numbers := by
  rw [landsIn, Bool.and_eq_true, decide_eq_true_eq] at lands
  obtain ⟨slots, written, summed⟩ := Option.map_eq_some_iff.mp reads
  rw [Reads, slotsFrom, lands.1, written, Option.map_some, Option.map_some, summary_append,
    summary_of_plain lands.2, summed]
  rfl

/-- A text of the program up to a literal. -/
theorem opening (lands : landsIn (.quoted 39 []) text = true)
    (reads : Reads (.quoted 39 []) rest literals numbers) :
    Reads .between (.sql text :: rest) literals numbers :=
  own lands reads

/-- A text of the program up to a number. -/
theorem before (lands : landsIn .between text = true)
    (reads : Reads .between rest literals numbers) :
    Reads .between (.sql text :: rest) literals numbers :=
  own lands reads

/-- The text of the program at the end. -/
theorem whole (lands : isWhole text = true) : Reads .between [.sql text] [] [] := by
  obtain ⟨tokens, read, plain⟩ := (Option.any_eq_true _ _).mp lands
  obtain ⟨last, finished, rfl⟩ := Option.map_eq_some_iff.mp read
  rw [List.all_append, Bool.and_eq_true] at plain
  have state : (lexer.scan .between text).1.finish = some last := finished
  rw [Reads, slotsFrom, slotsFrom, state, Option.map_some, Option.map_some, Option.map_some,
    summary_append, summary_of_plain plain.1, summary_of_plain plain.2]
  rfl

theorem number {value : Int} (apart : endsWord rest = true)
    (reads : Reads .between rest literals numbers) :
    Reads .between (.number value :: rest) literals (value :: numbers) := by
  obtain ⟨slots, written, summed⟩ := Option.map_eq_some_iff.mp reads
  have slots_eq : Slot.number value :: slots = [.number value] ++ slots := rfl
  rw [Reads, slotsFrom, if_pos apart, written, Option.map_some, Option.map_some, slots_eq,
    summary_append, summed]
  rfl

/-- What is behind a literal. -/
theorem closing (single : startsApart rest = true)
    (reads : Reads .between rest literals numbers) :
    Reads (.closing 39 value) rest (value :: literals) numbers := by
  obtain ⟨slots, written, summed⟩ := Option.map_eq_some_iff.mp reads
  have behind : slotsFrom (.closing 39 value) rest =
      some ([.token (.literal value)] ++ slots) := by
    match rest with
    | .sql text :: rest =>
        rw [slotsFrom] at written
        obtain ⟨others, rest_eq, rfl⟩ := Option.map_eq_some_iff.mp written
        rw [slotsFrom, scan_closing value single, rest_eq]
        rfl
    | [] | .value _ :: _ | .number _ :: _ => exact absurd single (by simp [startsApart])
  rw [Reads, behind, Option.map_some, summary_append, summed]
  rfl

/-- A value, which fills its literal. -/
theorem literal (single : isApart text = true)
    (reads : Reads .between (.sql text :: rest) literals numbers) :
    Reads (.quoted 39 []) (.value value :: .sql (39 :: text) :: rest) (value :: literals)
      numbers :=
  have apart : startsApart (.sql text :: rest) = true := single
  closing apart reads

/-- A value, which fills the last literal of the text. -/
theorem lastLiteral : Reads (.quoted 39 []) [.value value, .sql [39]] [value] [] := rfl

/-- A quote at the end of a text of the program. -/
theorem quote (reads : Reads (.closing 39 value) rest literals numbers) :
    Reads (.quoted 39 value) (.sql [39] :: rest) literals numbers := by
  obtain ⟨slots, written, summed⟩ := Option.map_eq_some_iff.mp reads
  have closed : lexer.scan (.quoted 39 value) [39] = (.closing 39 value, []) := rfl
  rw [Reads, slotsFrom, closed, written, ← summed]
  rfl

end Reads

/-- The bytes of a text that is given by its characters. -/
theorem ascii_ofList (characters : List Char) :
    ascii (String.ofList characters) =
      characters.map fun character => UInt8.ofNat character.toNat := by
  rw [ascii, String.toList_ofList]

section

variable {rest : List Piece} {literals : List Bytes} {numbers : List Int}

theorem reads_after (startAfter : Bytes) (single : startsApart rest = true)
    (reads : Reads .between rest literals numbers) :
    Reads .between (afterPieces startAfter ++ rest) (afterLiterals startAfter ++ literals)
      numbers := by
  rw [afterPieces, afterLiterals]
  split_ifs
  · exact reads
  · repeat rw [ascii_ofList]
    exact .opening rfl (.quote (.closing single reads))

theorem startsApart_after (startAfter : Bytes) (single : startsApart rest = true) :
    startsApart (afterPieces startAfter ++ rest) = true := by
  rw [afterPieces]
  split_ifs
  · exact single
  · rfl

theorem reads_like (keyPrefix : Bytes) (single : startsApart rest = true)
    (reads : Reads .between rest literals numbers) :
    Reads .between (likePieces keyPrefix ++ rest) (likeLiterals keyPrefix ++ literals)
      numbers := by
  rw [likePieces, likeLiterals]
  split_ifs
  · exact reads
  · repeat rw [ascii_ofList]
    exact .opening rfl (.quote (.closing single reads))

theorem endsWord_like (keyPrefix : Bytes) (ends : endsWord rest = true) :
    endsWord (likePieces keyPrefix ++ rest) = true := by
  rw [likePieces]
  split_ifs
  · exact ends
  · rfl

theorem endsWord_after (startAfter : Bytes) (ends : endsWord rest = true) :
    endsWord (afterPieces startAfter ++ rest) = true := by
  rw [afterPieces]
  split_ifs
  · exact ends
  · rfl

end

set_option maxRecDepth 2000 in
theorem reads_stmt (stmt : Stmt) : Reads .between stmt.pieces stmt.literals stmt.numbers := by
  cases stmt with
  | deleteBucket _ | decrementRefCount _ | deleteCasBlob _ | countObjectsWithCasKey _
  | deleteUpload _ | countPartsWithCasKey _ =>
      rw [Stmt.pieces]
      repeat rw [ascii_ofList]
      exact .opening rfl .lastLiteral
  | insertBucket _ | selectBucketByName _ | selectRefCount _ | selectRefCountForUpdate _
  | selectCasBlob _ | selectUpload _ | selectIdempotency _ =>
      rw [Stmt.pieces]
      repeat rw [ascii_ofList]
      exact .opening rfl (.literal rfl (.whole rfl))
  | selectBuckets =>
      rw [Stmt.pieces, ascii_ofList]
      exact .whole rfl
  | selectBucketById id =>
      rw [Stmt.pieces]
      repeat rw [ascii_ofList]
      exact .before rfl (.number rfl (.whole rfl))
  | countObjectsInBucket bucketId =>
      rw [Stmt.pieces, ascii_ofList]
      exact .before rfl (.number rfl .nil)
  | upsertCasBlob casKey size =>
      rw [Stmt.pieces]
      repeat rw [ascii_ofList]
      exact .opening rfl (.literal rfl (.before rfl (.number rfl (.whole rfl))))
  | insertObject bucketId row | upsertObject bucketId row =>
      rw [Stmt.pieces, objectPieces]
      repeat rw [ascii_ofList]
      exact .before rfl (.number rfl (.opening rfl (.literal rfl (.opening rfl (.literal rfl
        (.before rfl (.number rfl (.opening rfl (.literal rfl (.opening rfl (.literal rfl (.whole
        rfl))))))))))))
  | deleteObject bucketId key =>
      rw [Stmt.pieces]
      repeat rw [ascii_ofList]
      exact .before rfl (.number rfl (.opening rfl .lastLiteral))
  | selectObjectCasKeyForUpdate bucketId key | selectObject bucketId key =>
      rw [Stmt.pieces]
      repeat rw [ascii_ofList]
      exact .before rfl (.number rfl (.opening rfl (.literal rfl (.whole rfl))))
  | selectObjects bucketId keyPrefix startAfter limit =>
      rw [Stmt.pieces]
      rw [ascii_ofList, ascii_ofList]
      refine .before rfl (.number (endsWord_like keyPrefix (endsWord_after startAfter rfl)) ?_)
      rw [Stmt.literals, ← List.append_nil (afterLiterals startAfter)]
      exact reads_like keyPrefix (startsApart_after startAfter rfl)
        (reads_after startAfter rfl (.before rfl (.number rfl .nil)))
  | insertUpload uploadId row =>
      rw [Stmt.pieces]
      repeat rw [ascii_ofList]
      exact .opening rfl (.literal rfl (.before rfl (.number rfl (.opening rfl (.literal rfl
        (.opening rfl (.literal rfl (.opening rfl (.literal rfl (.whole rfl))))))))))
  | upsertPart uploadId partNumber row =>
      rw [Stmt.pieces]
      repeat rw [ascii_ofList]
      exact .opening rfl (.literal rfl (.before rfl (.number rfl (.opening rfl (.literal rfl
        (.before rfl (.number rfl (.opening rfl (.literal rfl (.whole rfl))))))))))
  | selectPartCasKeyForUpdate uploadId partNumber =>
      rw [Stmt.pieces]
      repeat rw [ascii_ofList]
      exact .opening rfl (.literal rfl (.before rfl (.number rfl (.whole rfl))))
  | selectParts uploadId marker limit =>
      rw [Stmt.pieces]
      repeat rw [ascii_ofList]
      exact .opening rfl (.literal rfl (.before rfl (.number rfl (.before rfl (.number rfl .nil)))))
  | upsertIdempotency key row =>
      rw [Stmt.pieces]
      repeat rw [ascii_ofList]
      exact .opening rfl (.literal rfl (.opening rfl (.literal rfl (.before rfl (.number rfl
        (.opening rfl (.literal rfl (.opening rfl (.literal rfl (.whole rfl))))))))))

set_option maxRecDepth 2000 in
theorem reads_statement (statement : Statement) :
    Reads .between statement.pieces statement.literals statement.numbers := by
  cases statement with
  | of stmt => exact reads_stmt stmt
  | selectObjectId bucketId key =>
      rw [Statement.pieces]
      repeat rw [ascii_ofList]
      exact .before rfl (.number rfl (.opening rfl (.literal rfl (.whole rfl))))
  | incrementRefCount casKey =>
      rw [Statement.pieces]
      repeat rw [ascii_ofList]
      exact .opening rfl .lastLiteral
  | selectUploads bucketId keyPrefix maxUploads =>
      rw [Statement.pieces, ascii_ofList, ascii_ofList]
      refine .before rfl (.number (endsWord_like keyPrefix rfl) ?_)
      rw [Statement.literals, ← List.append_nil (likeLiterals keyPrefix)]
      exact reads_like keyPrefix rfl (.before rfl (.number rfl .nil))
  | selectGarbageBlobs minAgeSeconds limit =>
      rw [Statement.pieces]
      repeat rw [ascii_ofList]
      exact .before rfl (.number rfl (.before rfl (.number rfl .nil)))
  | deleteExpiredIdempotency | startTransaction | commit | rollback =>
      rw [Statement.pieces, ascii_ofList]
      exact .whole rfl

theorem semicolon_notMem {slots : List Slot} (none_of : slots.any Slot.isSemicolon = false) :
    Token.symbol 59 ∉ slots.flatMap Slot.tokens := by
  intro member
  obtain ⟨slot, slotMember, tokenMember⟩ := List.mem_flatMap.mp member
  have plain : slot.isSemicolon = false := by
    simpa using List.any_eq_false.mp none_of slot slotMember
  match slot with
  | .token read =>
      obtain rfl : Token.symbol 59 = read := by simpa [Slot.tokens] using tokenMember
      exact absurd plain (by decide)
  | .number value => cases value <;> simp [Slot.tokens, numberTokens] at tokenMember

/-! ## What is sent -/

namespace MySQLConnection

/-- `MySQLConnection::Escape`, with the function of the client library that it calls. -/
def escape (realEscapeString : Bytes → Bytes) (connected : Bool) (text : Bytes) : Bytes :=
  if connected then realEscapeString text else text

/-- The text that `MySQLConnection::Execute` sends. -/
def execute (connected : Bool) (sql : Bytes) : Option Bytes :=
  if connected then some sql else none

end MySQLConnection

/-- Whatever is sent is read as the statement that was meant.  Its literals are the values, its
numbers are the numbers, no semicolon stands outside of a literal, and every text with the same
words of the program is read with the same tokens but for the values. -/
theorem sent_statement_is_read {realEscapeString : Bytes → Bytes}
    (escapes : Escapes realEscapeString) (connected : Bool) (statement : Statement) {text : Bytes}
    (sent : MySQLConnection.execute connected
      (spell (MySQLConnection.escape realEscapeString connected) statement.pieces) = some text) :
    ∃ slots : List Slot, lex text = some (slots.flatMap Slot.tokens) ∧
      slots.filterMap Slot.literal? = statement.literals ∧
      slots.filterMap Slot.number? = statement.numbers ∧
      Token.symbol 59 ∉ slots.flatMap Slot.tokens ∧
      ∀ other : Statement,
        other.pieces.map Piece.blank = statement.pieces.map Piece.blank →
        ∃ others : List Slot,
          lex (spell realEscapeString other.pieces) = some (others.flatMap Slot.tokens) ∧
          others.map Slot.blank = slots.map Slot.blank := by
  cases connected with
  | false => simp [MySQLConnection.execute] at sent
  | true =>
      obtain rfl : spell realEscapeString statement.pieces = text := by
        have escape_eq : MySQLConnection.escape realEscapeString true = realEscapeString := rfl
        simpa [MySQLConnection.execute, escape_eq] using sent
      obtain ⟨slots, written, summed⟩ := Option.map_eq_some_iff.mp (reads_statement statement)
      simp only [summary, Prod.mk.injEq] at summed
      refine ⟨slots, read_spell escapes written, summed.1, summed.2.1, semicolon_notMem summed.2.2,
        fun other sameForm => ?_⟩
      obtain ⟨others, otherWritten, -⟩ := Option.map_eq_some_iff.mp (reads_statement other)
      refine ⟨others, read_spell escapes otherWritten, ?_⟩
      have first := slotsFrom_blank (Eq.refl LexState.between.blank) statement.pieces
      have second := slotsFrom_blank (Eq.refl LexState.between.blank) other.pieces
      rw [sameForm, first, written, otherWritten] at second
      exact (Option.some.inj second).symm

/-- A bucket name that would end its literal, and the statement, and begin another one. -/
theorem sent_statement_is_read_hostile :
    ∃ slots : List Slot,
      lex (ascii "INSERT INTO buckets(name) VALUES('x\\'); DROP TABLE buckets;-- ')") =
        some (slots.flatMap Slot.tokens) ∧
      slots.filterMap Slot.literal? = [ascii "x'); DROP TABLE buckets;-- "] ∧
      Token.symbol 59 ∉ slots.flatMap Slot.tokens :=
  have ⟨slots, read, literals, _, single, _⟩ := sent_statement_is_read escapes_escapeAscii true
    (.of (.insertBucket (ascii "x'); DROP TABLE buckets;-- "))) (by decide +kernel)
  ⟨slots, read, literals, single⟩

end MiniS3.Db
