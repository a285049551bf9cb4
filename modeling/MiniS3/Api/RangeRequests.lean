import MiniS3.Api.ObjectHandlers
import MiniS3.Net.FileSending
import MiniS3.Storage.CasLayout

/-!
# Range requests

A byte range is `bytes=A-B`, `bytes=A-` or `bytes=-N`.  It can be satisfied when it has a byte
in the file, and what it then denotes is clipped to the file.

`ParseRange` reads these three forms, and what it yields is the range they denote, with one
exception.  The suffix of no bytes, `bytes=-0`, cannot be satisfied, but the form is read without
a look at its number, and yields a range that ends before it starts.  Its length is 0, which the
response takes for the whole file, and which `sendfile` then looks for behind the end of the file.
-/

namespace MiniS3.Api.ObjectHandlers

open Lib Db Net

/-! ## Byte ranges -/

/-- A byte range. -/
inductive ByteRange
  | fromTo (first last : Nat)
  | startingAt (first : Nat)
  | suffix (length : Nat)

/-- A number in decimal digits. -/
def Digits (text : Bytes) (value : Nat) : Prop :=
  text ≠ [] ∧ Bytes.decimal? text = some value

namespace ByteRange

/-- The header that asks for a range. -/
inductive Denotes : Bytes → ByteRange → Prop
  | fromTo {startText endText first last} : Digits startText first → Digits endText last →
      Denotes (ascii "bytes=" ++ startText ++ ascii "-" ++ endText) (.fromTo first last)
  | startingAt {startText first} : Digits startText first →
      Denotes (ascii "bytes=" ++ startText ++ ascii "-") (.startingAt first)
  | suffix {endText length} : Digits endText length →
      Denotes (ascii "bytes=" ++ ascii "-" ++ endText) (.suffix length)

/-- The range has a byte in the file. -/
def Satisfiable (fileSize : Nat) : ByteRange → Prop
  | .fromTo first last => first < fileSize ∧ first ≤ last
  | .startingAt first => first < fileSize
  | .suffix length => 0 < length ∧ 0 < fileSize

/-- The first and the last byte of a range in a file. -/
def clip (fileSize : Nat) : ByteRange → Nat × Nat
  | .fromTo first last => (first, min last (fileSize - 1))
  | .startingAt first => (first, fileSize - 1)
  | .suffix length => (fileSize - min length fileSize, fileSize - 1)

theorem clip_within {fileSize : Nat} {range : ByteRange}
    (satisfiable : range.Satisfiable fileSize) :
    (range.clip fileSize).1 ≤ (range.clip fileSize).2 ∧ (range.clip fileSize).2 < fileSize := by
  cases range <;> simp only [Satisfiable, clip] at satisfiable ⊢ <;> omega

end ByteRange

/-- The header asks for a suffix of no bytes. -/
def AsksForNothing (rangeHeader : Bytes) : Prop :=
  ByteRange.Denotes rangeHeader (.suffix 0)

/-! ## Reading a range -/

theorem digits_of_decimal {text : Bytes} {value : Nat} (read : Bytes.decimal? text = some value) :
    ∀ byte ∈ text, (Bytes.digit? byte).isSome := by
  suffices reads : ∀ start : Nat, (text.foldlM
      (fun value byte => (Bytes.digit? byte).map (value * 10 + ·)) start).isSome →
      ∀ byte ∈ text, (Bytes.digit? byte).isSome from reads 0 (Option.isSome_of_eq_some read)
  clear read
  induction text with
  | nil => simp
  | cons first rest inductionHypothesis =>
      intro start isNumber byte member
      rw [List.foldlM_cons] at isNumber
      cases isDigit : Bytes.digit? first with
      | none => simp [isDigit] at isNumber
      | some digit =>
          rcases List.mem_cons.mp member with rfl | later
          · rw [isDigit]
            rfl
          · rw [isDigit] at isNumber
            exact inductionHypothesis _ isNumber byte later

/-- Digits are a number. -/
theorem digits_iff {text : Bytes} :
    (∃ value, Digits text value) ↔ text ≠ [] ∧ ∀ byte ∈ text, (Bytes.digit? byte).isSome := by
  constructor
  · rintro ⟨value, nonempty, read⟩
    exact ⟨nonempty, digits_of_decimal read⟩
  · rintro ⟨nonempty, digits⟩
    obtain ⟨value, read⟩ := Option.isSome_iff_exists.mp (Bytes.isSome_decimal?_of_digits digits)
    exact ⟨value, nonempty, read⟩

/-- `std::stoull` on digits, when it does not throw. -/
theorem digits_of_stoull {text : Bytes} {value : Nat} (nonempty : text ≠ [])
    (digits : ∀ byte ∈ text, (Bytes.digit? byte).isSome) (read : Bytes.stoull text = some value) :
    Digits text value := by
  rw [Bytes.stoull_of_digits nonempty digits] at read
  exact ⟨nonempty, (Option.filter_eq_some_iff.mp read).1⟩

theorem Digits.unique {text : Bytes} {value other : Nat} (digits : Digits text value)
    (others : Digits text other) : value = other :=
  Option.some.inj (digits.2.symm.trans others.2)

theorem spanDigits_eq {digits rest : Bytes} (areDigits : ∀ byte ∈ digits, (Bytes.digit? byte).isSome)
    (ends : ∀ byte ∈ rest.head?, Bytes.digit? byte = none) :
    spanDigits (digits ++ rest) = (digits, rest) := by
  unfold spanDigits
  rw [List.span_eq_takeWhile_dropWhile]
  have stops : rest.takeWhile (fun byte => (Bytes.digit? byte).isSome) = [] := by
    cases rest with
    | nil => rfl
    | cons first rest =>
        rw [List.takeWhile_cons_of_neg]
        simp [ends first (by simp)]
  have stays : rest.dropWhile (fun byte => (Bytes.digit? byte).isSome) = rest := by
    cases rest with
    | nil => rfl
    | cons first rest =>
        rw [List.dropWhile_cons_of_neg]
        simp [ends first (by simp)]
  rw [List.takeWhile_append_of_pos areDigits, List.dropWhile_append_of_pos areDigits, stops, stays,
    List.append_nil]

theorem spanDigits_spec (text : Bytes) :
    (spanDigits text).1 ++ (spanDigits text).2 = text ∧
      ∀ byte ∈ (spanDigits text).1, (Bytes.digit? byte).isSome := by
  unfold spanDigits
  rw [List.span_eq_takeWhile_dropWhile]
  exact ⟨List.takeWhile_append_dropWhile, fun byte member => by
    simpa using List.mem_takeWhile_imp member⟩

/-- The regular expression accepts two runs of digits around a minus sign. -/
theorem rangeTexts_iff {rangeHeader startText endText : Bytes} :
    rangeTexts rangeHeader = some (startText, endText) ↔
      rangeHeader = ascii "bytes=" ++ startText ++ ascii "-" ++ endText ∧
        (∀ byte ∈ startText, (Bytes.digit? byte).isSome) ∧
        ∀ byte ∈ endText, (Bytes.digit? byte).isSome := by
  constructor
  · intro matched
    unfold rangeTexts at matched
    dsimp only at matched
    split at matched
    · rename_i isUnit
      obtain ⟨body, rfl⟩ := List.isPrefixOf_iff_prefix.mp isUnit
      rw [List.drop_left] at matched
      split at matched
      · rename_i first rest spanned
        split at matched
        · rename_i last spannedRest
          cases matched
          have front := spanDigits_spec body
          have back := spanDigits_spec rest
          rw [spanned] at front
          rw [spannedRest] at back
          obtain ⟨rfl, frontDigits⟩ := front
          obtain ⟨rfl, backDigits⟩ := back
          refine ⟨?_, frontDigits, backDigits⟩
          simp [ascii]
        · contradiction
      · contradiction
    · contradiction
  · rintro ⟨rfl, startDigits, endDigits⟩
    have isUnit : (ascii "bytes=").isPrefixOf
        (ascii "bytes=" ++ startText ++ ascii "-" ++ endText) = true := by
      rw [List.isPrefixOf_iff_prefix, List.append_assoc, List.append_assoc]
      exact List.prefix_append _ _
    have first : spanDigits (startText ++ 45 :: endText) = (startText, 45 :: endText) :=
      spanDigits_eq startDigits (by rintro byte ⟨⟩; decide)
    have second : spanDigits endText = (endText, []) := by
      have spans : spanDigits (endText ++ []) = (endText, []) := spanDigits_eq endDigits (by simp)
      rwa [List.append_nil] at spans
    have body : (ascii "bytes=" ++ startText ++ ascii "-" ++ endText).drop
        (ascii "bytes=").length = startText ++ 45 :: endText := by
      rw [List.append_assoc, List.append_assoc, List.drop_left]
      rfl
    unfold rangeTexts
    dsimp only
    rw [if_pos isUnit, body, first]
    simp only [second]

namespace ByteRange

/-- What the two texts of a header have to be when it denotes a range. -/
def OfTexts (startText endText : Bytes) : ByteRange → Prop
  | .fromTo first last => Digits startText first ∧ Digits endText last
  | .startingAt first => Digits startText first ∧ endText = []
  | .suffix length => startText = [] ∧ Digits endText length

theorem rangeTexts_of_denotes {rangeHeader : Bytes} {range : ByteRange}
    (denotes : Denotes rangeHeader range) :
    ∃ startText endText, rangeTexts rangeHeader = some (startText, endText) ∧
      range.OfTexts startText endText := by
  cases denotes with
  | fromTo first last =>
      exact ⟨_, _, rangeTexts_iff.mpr ⟨rfl, digits_of_decimal first.2, digits_of_decimal last.2⟩,
        first, last⟩
  | @startingAt startText _ first =>
      refine ⟨startText, [], rangeTexts_iff.mpr ⟨?_, digits_of_decimal first.2, by simp⟩, first, rfl⟩
      rw [List.append_nil]
  | @suffix endText _ length =>
      refine ⟨[], endText, rangeTexts_iff.mpr ⟨?_, by simp, digits_of_decimal length.2⟩, rfl, length⟩
      rw [List.append_nil]

/-- A header denotes what its two texts are. -/
theorem denotes_iff {rangeHeader startText endText : Bytes} {range : ByteRange}
    (texts : rangeTexts rangeHeader = some (startText, endText)) :
    Denotes rangeHeader range ↔ range.OfTexts startText endText := by
  constructor
  · intro denotes
    obtain ⟨first, last, read, ofTexts⟩ := rangeTexts_of_denotes denotes
    rw [texts] at read
    cases read
    exact ofTexts
  · intro ofTexts
    obtain ⟨rfl, -, -⟩ := rangeTexts_iff.mp texts
    cases range with
    | fromTo first last => exact .fromTo ofTexts.1 ofTexts.2
    | startingAt first =>
        obtain ⟨digits, rfl⟩ := ofTexts
        rw [List.append_nil]
        exact .startingAt digits
    | suffix length =>
        obtain ⟨rfl, digits⟩ := ofTexts
        rw [List.append_nil]
        exact .suffix digits

end ByteRange

theorem ByteRange.OfTexts.unique {startText endText : Bytes} {range other : ByteRange}
    (ofTexts : range.OfTexts startText endText) (others : other.OfTexts startText endText) :
    other = range := by
  cases range with
  | fromTo first last =>
      cases other with
      | fromTo => rw [ofTexts.1.unique others.1, ofTexts.2.unique others.2]
      | startingAt => exact absurd others.2 ofTexts.2.1
      | suffix => exact absurd others.1 ofTexts.1.1
  | startingAt first =>
      cases other with
      | fromTo => exact absurd ofTexts.2 others.2.1
      | startingAt => rw [ofTexts.1.unique others.1]
      | suffix => exact absurd others.1 ofTexts.1.1
  | suffix length =>
      cases other with
      | fromTo => exact absurd ofTexts.1 others.1.1
      | startingAt => exact absurd ofTexts.1 others.1.1
      | suffix => rw [ofTexts.2.unique others.2]

/-- A header denotes one range. -/
theorem ByteRange.Denotes.unique {rangeHeader : Bytes} {range other : ByteRange}
    (denotes : Denotes rangeHeader range) (others : Denotes rangeHeader other) : other = range := by
  obtain ⟨_, _, texts, ofTexts⟩ := rangeTexts_of_denotes denotes
  exact ofTexts.unique ((denotes_iff texts).mp others)

/-! ## What `ParseRange` yields -/

/-- A header that denotes no range yields none. -/
theorem parseRange_of_not_denotes {rangeHeader : Bytes} {fileSize : Nat}
    (denotesNone : ∀ range, ¬ByteRange.Denotes rangeHeader range) :
    parseRange rangeHeader fileSize = some none := by
  unfold parseRange
  split
  · rfl
  · cases texts : rangeTexts rangeHeader with
    | none => rfl
    | some both =>
        obtain ⟨startText, endText⟩ := both
        obtain ⟨-, startDigits, endDigits⟩ := rangeTexts_iff.mp texts
        simp only [ByteRange.denotes_iff texts] at denotesNone
        have noEnd : endText = [] := by
          by_contra nonempty
          obtain ⟨last, digits⟩ := digits_iff.mpr ⟨nonempty, endDigits⟩
          by_cases noStart : startText = []
          · exact denotesNone (.suffix last) ⟨noStart, digits⟩
          · obtain ⟨first, others⟩ := digits_iff.mpr ⟨noStart, startDigits⟩
            exact denotesNone (.fromTo first last) ⟨others, digits⟩
        have noStart : startText = [] := by
          by_contra nonempty
          obtain ⟨first, digits⟩ := digits_iff.mpr ⟨nonempty, startDigits⟩
          exact denotesNone (.startingAt first) ⟨digits, noEnd⟩
        simp [noStart, noEnd]

theorem stoull_of_digits {text : Bytes} {value : Nat} (digits : Digits text value)
    (returns : Bytes.stoull text ≠ none) : Bytes.stoull text = some value := by
  obtain ⟨read, isRead⟩ := Option.ne_none_iff_exists'.mp returns
  rw [isRead, (digits_of_stoull digits.1 (digits_of_decimal digits.2) isRead).unique digits]

/-- What the code yields for a range: it looks at the ends of the first two forms, but not at the
length of a suffix. -/
def yielded (fileSize : Nat) : ByteRange → Option (Nat × Nat)
  | .fromTo first last =>
      if last < first ∨ fileSize ≤ first then none
      else some ((ByteRange.fromTo first last).clip fileSize)
  | .startingAt first =>
      if fileSize ≤ first then none else some ((ByteRange.startingAt first).clip fileSize)
  | .suffix length => some ((ByteRange.suffix length).clip fileSize)

theorem parseRange_of_denotes {rangeHeader : Bytes} {fileSize : Nat} {range : ByteRange}
    (notEmpty : fileSize ≠ 0) (denotes : ByteRange.Denotes rangeHeader range)
    (returns : parseRange rangeHeader fileSize ≠ none) :
    parseRange rangeHeader fileSize = some (yielded fileSize range) := by
  obtain ⟨startText, endText, texts, ofTexts⟩ := ByteRange.rangeTexts_of_denotes denotes
  unfold parseRange at returns ⊢
  rw [if_neg notEmpty, texts] at returns ⊢
  dsimp only at returns ⊢
  cases range with
  | suffix length =>
      obtain ⟨noStart, digits⟩ := ofTexts
      rw [if_neg (by simp [digits.1]), if_pos (by simp [noStart])] at returns ⊢
      rw [stoull_of_digits digits fun throws => returns (by rw [throws]; rfl)]
      rfl
  | startingAt first =>
      obtain ⟨digits, noEnd⟩ := ofTexts
      rw [if_neg (by simp [digits.1]), if_neg (by simpa using digits.1),
        if_pos (by simp [noEnd])] at returns ⊢
      rw [stoull_of_digits digits fun throws => returns (by rw [throws]; rfl)]
      rfl
  | fromTo first last =>
      obtain ⟨digits, others⟩ := ofTexts
      rw [if_neg (by simp [digits.1]), if_neg (by simpa using digits.1),
        if_neg (by simpa using others.1)] at returns ⊢
      have readFirst := stoull_of_digits digits fun throws => returns (by rw [throws]; rfl)
      have readLast := stoull_of_digits others fun throws => returns (by rw [throws, readFirst]; rfl)
      rw [readFirst, readLast]
      rfl

theorem yielded_eq_some_iff {fileSize : Nat} {range : ByteRange} {ends : Nat × Nat}
    (notEmpty : fileSize ≠ 0) (asks : ∀ length, range = .suffix length → 0 < length) :
    yielded fileSize range = some ends ↔
      range.Satisfiable fileSize ∧ range.clip fileSize = ends := by
  cases range with
  | fromTo first last =>
      simp only [yielded, ByteRange.Satisfiable]
      split
      · exact iff_of_false (by simp) (by omega)
      · rw [Option.some.injEq]
        exact ⟨fun same => ⟨by omega, same⟩, fun holds => holds.2⟩
  | startingAt first =>
      simp only [yielded, ByteRange.Satisfiable]
      split
      · exact iff_of_false (by simp) (by omega)
      · rw [Option.some.injEq]
        exact ⟨fun same => ⟨by omega, same⟩, fun holds => holds.2⟩
  | suffix length =>
      have positive := asks length rfl
      simp only [yielded, ByteRange.Satisfiable]
      rw [Option.some.injEq]
      exact ⟨fun same => ⟨by omega, same⟩, fun holds => holds.2⟩

/-- `ParseRange` yields a range exactly when the header denotes one that can be satisfied, and
then it yields that range, clipped to the file. -/
def YieldsTheRange (rangeHeader : Bytes) (fileSize : Nat) : Prop :=
  ∀ first last, parseRange rangeHeader fileSize = some (some (first, last)) ↔
    ∃ range, ByteRange.Denotes rangeHeader range ∧ range.Satisfiable fileSize ∧
      range.clip fileSize = (first, last)

theorem yieldsTheRange {rangeHeader : Bytes} {fileSize : Nat}
    (returns : parseRange rangeHeader fileSize ≠ none)
    (asks : fileSize = 0 ∨ ¬AsksForNothing rangeHeader) : YieldsTheRange rangeHeader fileSize := by
  intro first last
  by_cases isEmpty : fileSize = 0
  · subst isEmpty
    have nothing : ∀ range : ByteRange, ¬range.Satisfiable 0 := by
      rintro (_ | _ | _) <;> simp [ByteRange.Satisfiable]
    simp [parseRange, nothing]
  · have asksForSome := asks.resolve_left isEmpty
    by_cases denotesNone : ∀ range, ¬ByteRange.Denotes rangeHeader range
    · simp [parseRange_of_not_denotes denotesNone, denotesNone]
    · obtain ⟨range, notNot⟩ := not_forall.mp denotesNone
      have denotes := not_not.mp notNot
      have positive : ∀ length, range = .suffix length → 0 < length := by
        rintro length rfl
        rw [Nat.pos_iff_ne_zero]
        rintro rfl
        exact asksForSome denotes
      rw [parseRange_of_denotes isEmpty denotes returns, Option.some.injEq,
        yielded_eq_some_iff isEmpty positive]
      constructor
      · exact fun holds => ⟨range, denotes, holds⟩
      · rintro ⟨other, others, holds⟩
        rwa [denotes.unique others] at holds

/-- A suffix of no bytes yields a range that ends before it starts. -/
theorem parseRange_of_asksForNothing {rangeHeader : Bytes} {fileSize : Nat}
    (asks : AsksForNothing rangeHeader) (notEmpty : fileSize ≠ 0)
    (returns : parseRange rangeHeader fileSize ≠ none) :
    parseRange rangeHeader fileSize = some (some (fileSize, fileSize - 1)) := by
  rw [parseRange_of_denotes notEmpty asks returns]
  simp [yielded, ByteRange.clip]

/-! ## The response to a range request -/

/-- The response sends the bytes from `first` to `last` of a file, and says so. -/
structure SendsRange (content : Bytes) (first last : Nat) (response : HttpResponse) : Prop where
  hasFile : response.hasFile = true
  offset : response.fileOffset = first
  length : response.sentLength = last - first + 1
  inside : response.fileOffset + response.sentLength ≤ content.length
  contentLength : response.headers.lookup (ascii "Content-Length") =
    some (Bytes.ofNat response.sentLength)
  contentRange : response.headers.lookup (ascii "Content-Range") =
    some (ascii "bytes " ++ Bytes.ofNat first ++ ascii "-" ++ Bytes.ofNat last ++ ascii "/" ++
      Bytes.ofNat content.length)
  sends : ∀ library connection sending, connection.state ≠ .CLOSED →
    HttpConnection.send library .opened response connection = some sending →
    HttpConnection.EndsAfter content sending (connection.outputBuffer ++
      (connection.marked response).toBytes ++ (content.drop first).take (last - first + 1))

/-- What a range request is answered with is the range that it asks for. -/
structure ServesRange (setup : Setup) (request : HttpRequest) (info : ObjectInfo)
    (createdAt : Int) (content : Bytes) : Prop where
  yields : YieldsTheRange (request.getHeader (ascii "Range")) content.length
  within : ∀ first last,
    parseRange (request.getHeader (ascii "Range")) content.length = some (some (first, last)) →
    first ≤ last ∧ last < content.length
  response : ∀ first last,
    parseRange (request.getHeader (ascii "Range")) content.length = some (some (first, last)) →
    ∃ response, sendObject setup request info createdAt = some response ∧
      response.filePath = setup.getCasPath info.sha256Hash ∧
      SendsRange content first last response

theorem toSizeT_of_nonneg {size : Nat} (small : size < 2 ^ 63) : toSizeT size = size := by
  unfold toSizeT
  omega

/-- A file that is sent from an offset inside it is sent to the end of its part. -/
theorem endsAfter_of_send {library : JsonLibrary} {response : HttpResponse} {content : Bytes}
    {connection sending : HttpConnection} (isOpen : connection.state ≠ .CLOSED)
    (hasFile : response.hasFile = true)
    (inside : response.fileOffset + response.sentLength ≤ content.length)
    (sends : HttpConnection.send library .opened response connection = some sending) :
    HttpConnection.EndsAfter content sending (connection.outputBuffer ++
      (connection.marked response).toBytes ++
      (content.drop response.fileOffset).take response.sentLength) := by
  unfold HttpConnection.send at sends
  rw [if_neg isOpen] at sends
  dsimp only at sends
  rw [if_pos hasFile] at sends
  obtain rfl := Option.some.inj sends
  exact HttpConnection.endsAfter_of_inside rfl inside

theorem sendObject_of_range {setup : Setup} {request : HttpRequest} {info : ObjectInfo}
    {createdAt : Int} {fileSize first last : Nat} (size : toSizeT info.size = fileSize)
    (yields : parseRange (request.getHeader (ascii "Range")) fileSize = some (some (first, last))) :
    sendObject setup request info createdAt =
      some (((objectHeaders info createdAt (Bytes.ofNat (last + 1 - first))
        (HttpResponse.ofStatus 206)).setHeader (ascii "Content-Range")
        (contentRange first last fileSize)).setFile (setup.getCasPath info.sha256Hash) fileSize first
          (last + 1 - first)) := by
  have named : request.getHeader (ascii "Range") ≠ [] := by
    intro missing
    rw [missing] at yields
    simp only [parseRange] at yields
    split at yields
    · simp at yields
    · simp [rangeTexts, ascii] at yields
  unfold sendObject
  dsimp only
  rw [if_neg (by simpa using named), size, yields]
  rfl

theorem sendsRange {setup : Setup} {info : ObjectInfo} {createdAt : Int} {content : Bytes}
    {first last : Nat} (ordered : first ≤ last) (inFile : last < content.length) :
    SendsRange content first last (((objectHeaders info createdAt (Bytes.ofNat (last + 1 - first))
      (HttpResponse.ofStatus 206)).setHeader (ascii "Content-Range")
      (contentRange first last content.length)).setFile (setup.getCasPath info.sha256Hash)
        content.length first (last + 1 - first)) := by
  have length : last + 1 - first = last - first + 1 := by omega
  have sent : ∀ response : HttpResponse, (response.setFile (setup.getCasPath info.sha256Hash)
      content.length first (last + 1 - first)).sentLength = last - first + 1 := by
    intro response
    simp [HttpResponse.setFile, HttpResponse.sentLength, length]
  have hasFile : ∀ response : HttpResponse, (response.setFile (setup.getCasPath info.sha256Hash)
      content.length first (last + 1 - first)).hasFile = true := by
    intro response
    have named : setup.getCasPath info.sha256Hash ≠ [] := by
      intro empty
      have ends := setup.suffix_getCasPath info.sha256Hash
      rw [empty, List.suffix_nil] at ends
      exact absurd ends (by simp [ascii])
    simp [HttpResponse.setFile, HttpResponse.hasFile, named]
  refine ⟨hasFile _, rfl, sent _, ?_, ?_, ?_, ?_⟩
  · rw [sent]
    change first + _ ≤ _
    omega
  · rw [sent, length]
    rfl
  · exact Table.lookup_set_self _ _ _
  · intro library connection sending isOpen sends
    have inside : first + (last - first + 1) ≤ content.length := by omega
    refine sent _ ▸ endsAfter_of_send isOpen (hasFile _) ?_ sends
    rw [sent]
    exact inside

section Served

variable {setup : Setup} {request : HttpRequest} {info : ObjectInfo} {createdAt : Int}
variable {content : Bytes}

theorem servesRange (size : info.size = content.length) (small : content.length < 2 ^ 63)
    (returns : parseRange (request.getHeader (ascii "Range")) content.length ≠ none)
    (asks : content.length = 0 ∨ ¬AsksForNothing (request.getHeader (ascii "Range"))) :
    ServesRange setup request info createdAt content := by
  have yields := yieldsTheRange returns asks
  have within : ∀ first last,
      parseRange (request.getHeader (ascii "Range")) content.length = some (some (first, last)) →
      first ≤ last ∧ last < content.length := by
    intro first last parsed
    obtain ⟨range, -, satisfiable, clipped⟩ := (yields first last).mp parsed
    have ends := ByteRange.clip_within satisfiable
    rwa [clipped] at ends
  refine ⟨yields, within, fun first last parsed => ?_⟩
  obtain ⟨ordered, inFile⟩ := within first last parsed
  have sizeT : toSizeT info.size = content.length := by
    rw [size]
    exact toSizeT_of_nonneg small
  exact ⟨_, sendObject_of_range sizeT parsed, rfl, sendsRange ordered inFile⟩

/-- A range request for an object whose blob has the object's size is answered with exactly the
range it asks for, unless it asks for the last 0 bytes of an object that has some. -/
theorem range_requests_are_served_iff (size : info.size = content.length)
    (small : content.length < 2 ^ 63)
    (returns : parseRange (request.getHeader (ascii "Range")) content.length ≠ none) :
    ServesRange setup request info createdAt content ↔
      content.length = 0 ∨ ¬AsksForNothing (request.getHeader (ascii "Range")) := by
  constructor
  · intro serves
    by_contra fails
    rw [not_or, not_not] at fails
    have ends := serves.within _ _ (parseRange_of_asksForNothing fails.2 fails.1 returns)
    omega
  · exact servesRange size small returns

end Served

/-- A request for the last bytes of an object. -/
def suffixRequest (length : Bytes) : HttpRequest :=
  HttpRequest.empty.setHeader (ascii "Range") (ascii "bytes=-" ++ length)

/-- An object of two bytes. -/
def twoBytes : ObjectInfo where
  bucketId := 1
  key := ascii "k"
  sha256Hash := (Setup.sample [] []).sha256Hex (ascii "ab")
  size := 2
  etag := []
  contentType := ascii "text/plain"

theorem range_requests_are_served_iff_sample :
    ServesRange (Setup.sample [] []) (suffixRequest (ascii "1")) twoBytes 0 (ascii "ab") := by
  have reads : parseRange ((suffixRequest (ascii "1")).getHeader (ascii "Range")) 2 =
      some (some (1, 1)) := by decide +kernel
  refine (range_requests_are_served_iff rfl (by decide) ?_).mpr (.inr ?_)
  · change parseRange _ 2 ≠ none
    rw [reads]
    simp
  · intro asks
    have ends := parseRange_of_asksForNothing asks (by decide : 2 ≠ 0) (by rw [reads]; simp)
    rw [reads] at ends
    simp at ends

/-- The last 0 bytes of an object of two bytes: the range from 2 to 1. -/
theorem empty_suffix_yields_a_range :
    parseRange ((suffixRequest (ascii "0")).getHeader (ascii "Range")) 2 = some (some (2, 1)) ∧
      ¬ServesRange (Setup.sample [] []) (suffixRequest (ascii "0")) twoBytes 0 (ascii "ab") := by
  have reads : parseRange ((suffixRequest (ascii "0")).getHeader (ascii "Range")) 2 =
      some (some (2, 1)) := by decide +kernel
  refine ⟨reads, fun serves => ?_⟩
  have ends := serves.within 2 1 reads
  omega

end MiniS3.Api.ObjectHandlers
