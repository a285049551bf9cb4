import MiniS3.Db.ExpiryTimes
import MiniS3.Lib.Scanner

/-!
# The texts of SQL statements

The metadata store puts the text of a statement together from pieces of its own, from values that
`Escape` has gone over, and from printed numbers.  The connections are opened for several
statements in one text, so that a value which ended its literal could add statements of its own.

This file has the texts, and the way the MySQL server cuts a text into tokens.  How the client
library escapes a value is a parameter: all that is asked of it is that the server reads the value
back inside of a literal.  The server then reads the pieces of the program as they are, every value
as one literal with exactly its bytes, and every number as a number: whatever the values are, the
statement is the one that was written.
-/

namespace MiniS3.Db

open Lib

/-! ## The tokens of MySQL -/

/-- What the grammar of the server works with. -/
inductive Token
  /-- A keyword, a name or a number. -/
  | word (text : Bytes)
  | literal (text : Bytes)
  | symbol (byte : UInt8)
  deriving DecidableEq

/-- Where in a text the server is. -/
inductive LexState
  | between
  | word (text : Bytes)
  | quoted (quote : UInt8) (text : Bytes)
  /-- After a backslash in a literal. -/
  | escaped (quote : UInt8) (text : Bytes)
  /-- After a quote in a literal, which ends it unless another one follows. -/
  | closing (quote : UInt8) (text : Bytes)
  | backquoted (text : Bytes)
  | dash
  | dashes
  | slash
  | lineComment
  | blockComment
  | blockStar
  deriving DecidableEq

namespace LexState

/-- A byte of keywords, names and numbers. -/
def isWordByte (byte : UInt8) : Bool :=
  (48 ≤ byte && byte ≤ 57) || (65 ≤ byte && byte ≤ 90) || (97 ≤ byte && byte ≤ 122) ||
    byte == 95 || byte == 36 || byte == 46 || 128 ≤ byte

/-- A byte that no token has begun with yet. -/
def start (byte : UInt8) : LexState × List Token :=
  if Bytes.isSpace byte then (between, [])
  else if isWordByte byte then (word [byte], [])
  else if byte = 39 ∨ byte = 34 then (quoted byte [], [])
  else if byte = 96 then (backquoted [], [])
  else if byte = 35 then (lineComment, [])
  else if byte = 45 then (dash, [])
  else if byte = 47 then (slash, [])
  else (between, [.symbol byte])

/-- A byte after the end of a token. -/
def startAfter (tokens : List Token) (byte : UInt8) : LexState × List Token :=
  ((start byte).1, tokens ++ (start byte).2)

/-- What a backslash makes of the byte after it. -/
def unescape (byte : UInt8) : Bytes :=
  if byte = 48 then [0]
  else if byte = 98 then [8]
  else if byte = 110 then [10]
  else if byte = 114 then [13]
  else if byte = 116 then [9]
  else if byte = 90 then [26]
  else if byte = 37 ∨ byte = 95 then [92, byte]
  else [byte]

/-- The next byte of a text. -/
def step : LexState → UInt8 → LexState × List Token
  | between, byte => start byte
  | word text, byte =>
      if isWordByte byte then (word (text ++ [byte]), []) else startAfter [.word text] byte
  | quoted quote text, byte =>
      if byte = 92 then (escaped quote text, [])
      else if byte = quote then (closing quote text, [])
      else (quoted quote (text ++ [byte]), [])
  | escaped quote text, byte => (quoted quote (text ++ unescape byte), [])
  | closing quote text, byte =>
      if byte = quote then (quoted quote (text ++ [quote]), [])
      else startAfter [.literal text] byte
  | backquoted text, byte =>
      if byte = 96 then (between, [.word text]) else (backquoted (text ++ [byte]), [])
  | dash, byte => if byte = 45 then (dashes, []) else startAfter [.symbol 45] byte
  | dashes, byte =>
      if Bytes.isSpace byte then (lineComment, [])
      else startAfter [.symbol 45, .symbol 45] byte
  | slash, byte => if byte = 42 then (blockComment, []) else startAfter [.symbol 47] byte
  | lineComment, byte => (if byte = 10 then between else lineComment, [])
  | blockComment, byte => (if byte = 42 then blockStar else blockComment, [])
  | blockStar, byte =>
      (if byte = 47 then between else if byte = 42 then blockStar else blockComment, [])

/-- The token that the end of the text completes; a literal or a comment that is not closed is an
error. -/
def finish : LexState → Option (List Token)
  | between | lineComment => some []
  | word text => some [.word text]
  | closing _ text => some [.literal text]
  | dash => some [.symbol 45]
  | dashes => some [.symbol 45, .symbol 45]
  | slash => some [.symbol 47]
  | quoted _ _ | escaped _ _ | backquoted _ | blockComment | blockStar => none

end LexState

/-- The lexical scanner of the server. -/
def lexer : Scanner LexState UInt8 Token where
  step := LexState.step
  finish := LexState.finish

/-- The tokens of a text. -/
def lex (text : Bytes) : Option (List Token) :=
  lexer.read .between text

/-! ## Values in literals -/

/-- The contract of `mysql_real_escape_string`: inside of a literal in single quotes, what it
returns stands for the value, and the literal goes on behind it. -/
def Escapes (escape : Bytes → Bytes) : Prop :=
  ∀ value text rest, lexer.read (.quoted 39 text) (escape value ++ rest) =
    lexer.read (.quoted 39 (text ++ value)) rest

/-- What the library writes for an ASCII character. -/
def escapeByte (byte : UInt8) : Bytes :=
  if byte = 0 then [92, 48]
  else if byte = 10 then [92, 110]
  else if byte = 13 then [92, 114]
  else if byte = 92 then [92, 92]
  else if byte = 39 then [92, 39]
  else if byte = 34 then [92, 34]
  else if byte = 26 then [92, 90]
  else [byte]

/-- `mysql_real_escape_string` on texts of ASCII characters. -/
def escapeAscii (text : Bytes) : Bytes :=
  text.flatMap escapeByte

/-- An escaped byte is read as the byte. -/
theorem scan_escapeByte (byte : UInt8) (text : Bytes) :
    lexer.scan (.quoted 39 text) (escapeByte byte) = (.quoted 39 (text ++ [byte]), []) := by
  unfold escapeByte
  split_ifs with zero newline carriage backslash quote double control
  · subst zero; rfl
  · subst newline; rfl
  · subst carriage; rfl
  · subst backslash; rfl
  · subst quote; rfl
  · subst double; rfl
  · subst control; rfl
  · simp [lexer, Scanner.scan, LexState.step, backslash, quote]

theorem escapes_escapeAscii : Escapes escapeAscii := by
  intro value text rest
  induction value generalizing text with
  | nil => simp [escapeAscii]
  | cons byte value inductionHypothesis =>
      have rest_eq : escapeAscii (byte :: value) ++ rest =
          escapeByte byte ++ (escapeAscii value ++ rest) := by
        simp [escapeAscii]
      rw [rest_eq, lexer.read_of_silent _ (scan_escapeByte byte text), inductionHypothesis,
        List.append_assoc, List.singleton_append]

/-! ## Numbers -/

/-- The tokens of a number. -/
def numberTokens : Int → List Token
  | .ofNat value => [.word (Bytes.ofNat value)]
  | .negSucc value => [.symbol 45, .word (Bytes.ofNat (value + 1))]

/-- A word ends here: the text is over, or goes on with a byte that is in no word. -/
def EndsWord (rest : Bytes) : Prop :=
  ∀ byte, rest.head? = some byte → LexState.isWordByte byte = false

/-- Where a byte ends a token, the text goes on as if nothing were before it. -/
theorem read_of_startAfter {state : LexState} {tokens : List Token} {byte : UInt8}
    (ends : state.step byte = LexState.startAfter tokens byte) (rest : Bytes) :
    lexer.read state (byte :: rest) =
      (lexer.read .between (byte :: rest)).map (tokens ++ ·) := by
  have here : lexer.step state byte = LexState.startAfter tokens byte := ends
  have between : lexer.step .between byte = LexState.start byte := rfl
  rw [Scanner.read_cons, Scanner.read_cons, here, between, Option.map_map]
  congr 1
  funext after
  exact List.append_assoc tokens _ after

theorem read_word {text rest : Bytes} (ends : EndsWord rest) :
    lexer.read (.word text) rest = (lexer.read .between rest).map (.word text :: ·) := by
  cases rest with
  | nil => rfl
  | cons byte rest =>
      have begun : LexState.step (.word text) byte = LexState.startAfter [.word text] byte := by
        rw [LexState.step, if_neg (by simp [ends byte rfl])]
      exact read_of_startAfter begun rest

/-- More bytes of a word. -/
theorem read_wordBytes {bytes : Bytes}
    (inWord : ∀ byte ∈ bytes, LexState.isWordByte byte = true)
    (text rest : Bytes) :
    lexer.read (.word text) (bytes ++ rest) = lexer.read (.word (text ++ bytes)) rest := by
  induction bytes generalizing text with
  | nil => simp
  | cons byte bytes inductionHypothesis =>
      rw [List.forall_mem_cons] at inWord
      have taken : lexer.scan (.word text) [byte] = (.word (text ++ [byte]), []) := by
        simp [lexer, Scanner.scan, LexState.step, inWord.1]
      rw [← List.singleton_append, List.append_assoc, lexer.read_of_silent _ taken,
        inductionHypothesis inWord.2, List.append_assoc]

theorem isWordByte_of_digit {byte : UInt8} (digit : (Bytes.digit? byte).isSome = true) :
    LexState.isWordByte byte = true := by
  unfold Bytes.digit? at digit
  split at digit
  · rename_i range
    simp [LexState.isWordByte, range]
  · contradiction

theorem read_ofNat (value : Nat) {rest : Bytes} (ends : EndsWord rest) :
    lexer.read .between (Bytes.ofNat value ++ rest) =
      (lexer.read .between rest).map (.word (Bytes.ofNat value) :: ·) := by
  have digits : ∀ byte ∈ Bytes.ofNat value, (Bytes.digit? byte).isSome = true :=
    fun byte member => Bytes.isSome_digit?_of_mem_ofNat member
  cases number : Bytes.ofNat value with
  | nil => exact absurd number (Bytes.ofNat_ne_nil value)
  | cons byte bytes =>
      rw [number, List.forall_mem_cons] at digits
      have isWord := isWordByte_of_digit digits.1
      have noSpace : Bytes.isSpace byte = false := by
        have range : 48 ≤ byte ∧ byte ≤ 57 := by
          by_contra outside
          simp [Bytes.digit?, outside] at digits
        simp only [Bytes.isSpace, Bool.or_eq_false_iff, beq_eq_false_iff_ne,
          Bool.and_eq_false_iff, decide_eq_false_iff_not]
        have low := UInt8.le_iff_toNat_le.mp range.1
        refine ⟨fun blank => ?_, .inr fun control => ?_⟩
        · rw [blank] at low
          exact absurd low (by decide)
        · have high := UInt8.le_iff_toNat_le.mp control
          exact absurd (low.trans high) (by decide)
      have begun : lexer.scan .between [byte] = (.word [byte], []) := by
        simp [lexer, Scanner.scan, LexState.step, LexState.start, noSpace, isWord]
      rw [← List.singleton_append, List.append_assoc, lexer.read_of_silent _ begun,
        read_wordBytes (fun other member => isWordByte_of_digit (digits.2 other member)),
        read_word ends]

/-- A printed number is read as its tokens. -/
theorem read_ofInt (value : Int) {rest : Bytes} (ends : EndsWord rest) :
    lexer.read .between (Bytes.ofInt value ++ rest) =
      (lexer.read .between rest).map (numberTokens value ++ ·) := by
  cases value with
  | ofNat value => exact read_ofNat value ends
  | negSucc value =>
      have minus : lexer.scan .between (ascii "-") = (.dash, []) := rfl
      have read := read_ofNat (value + 1) ends
      rw [Bytes.ofInt, List.append_assoc, lexer.read_of_silent _ minus]
      cases number : Bytes.ofNat (value + 1) with
      | nil => exact absurd number (Bytes.ofNat_ne_nil _)
      | cons byte bytes =>
          have digit : (Bytes.digit? byte).isSome = true :=
            Bytes.isSome_digit?_of_mem_ofNat (number ▸ List.mem_cons_self)
          have noDash : byte ≠ 45 := by
            rintro rfl
            exact absurd digit (by decide)
          have begun : LexState.step .dash byte = LexState.startAfter [.symbol 45] byte := by
            rw [LexState.step, if_neg noDash]
          rw [number] at read
          rw [List.cons_append, read_of_startAfter begun, ← List.cons_append, read,
            Option.map_map]
          exact congrArg (Option.map · _) (funext fun _ => by simp [numberTokens, number])

/-! ## Texts put together from pieces -/

/-- A piece of the text of a statement. -/
inductive Piece
  /-- Text of the program. -/
  | sql (text : Bytes)
  /-- A value that has to go through `Escape`. -/
  | value (text : Bytes)
  /-- `std::to_string` of a number. -/
  | number (value : Int)
  deriving DecidableEq

/-- What the server makes of a text: a token, or the tokens of a number that was printed. -/
inductive Slot
  | token (token : Token)
  | number (value : Int)
  deriving DecidableEq

namespace Token

/-- The token without the text of a literal. -/
def blank : Token → Token
  | literal _ => literal []
  | token => token

end Token

namespace Slot

def tokens : Slot → List Token
  | .token read => [read]
  | .number value => numberTokens value

/-- The slot without the value in it. -/
def blank : Slot → Slot
  | .token read => .token read.blank
  | .number _ => .number 0

def literal? : Slot → Option Bytes
  | .token (.literal text) => some text
  | _ => none

def isSemicolon : Slot → Bool
  | .token (.symbol byte) => byte == 59
  | _ => false

def number? : Slot → Option Int
  | .number value => some value
  | .token _ => none

end Slot

namespace Piece

/-- The piece without the value in it. -/
def blank : Piece → Piece
  | .sql text => .sql text
  | .value _ => .value []
  | .number _ => .number 0

/-- The piece as it goes into the text, with a way to escape values. -/
def spell (escape : Bytes → Bytes) : Piece → Bytes
  | .sql text => text
  | .value held => escape held
  | .number shown => Bytes.ofInt shown

end Piece

/-- A number at this place is not the beginning of a longer word. -/
def endsWord : List Piece → Bool
  | [] => true
  | .sql (byte :: _) :: _ => !LexState.isWordByte byte
  | _ => false

/-- The slots of a text that is put together from pieces, where every value is inside of a
literal in single quotes and every number is a word of its own. -/
def slotsFrom : LexState → List Piece → Option (List Slot)
  | state, [] => state.finish.map (·.map .token)
  | state, .sql text :: rest =>
      (slotsFrom (lexer.scan state text).1 rest).map
        ((lexer.scan state text).2.map .token ++ ·)
  | .quoted 39 text, .value value :: rest => slotsFrom (.quoted 39 (text ++ value)) rest
  | _, .value _ :: _ => none
  | .between, .number value :: rest =>
      if endsWord rest then (slotsFrom .between rest).map (.number value :: ·) else none
  | _, .number _ :: _ => none

/-- The text of the pieces. -/
def spell (escape : Bytes → Bytes) (pieces : List Piece) : Bytes :=
  pieces.flatMap (Piece.spell escape)

theorem flatMap_tokens (tokens : List Token) :
    (tokens.map Slot.token).flatMap Slot.tokens = tokens := by
  simp [List.flatMap_map, Slot.tokens]

theorem endsWord_spell {escape : Bytes → Bytes} {rest : List Piece}
    (ends : endsWord rest = true) : EndsWord (spell escape rest) := by
  intro byte first
  cases rest with
  | nil => simp [spell] at first
  | cons piece rest =>
      cases piece with
      | sql text =>
          cases text with
          | nil => simp [endsWord] at ends
          | cons other text =>
              have same : other = byte := by simpa [spell, Piece.spell] using first
              simpa [endsWord, same] using ends
      | value text => simp [endsWord] at ends
      | number value => simp [endsWord] at ends

/-- The server reads the text of the pieces slot by slot. -/
theorem read_spell {escape : Bytes → Bytes} (escapes : Escapes escape) {state : LexState}
    {pieces : List Piece} {slots : List Slot} (written : slotsFrom state pieces = some slots) :
    lexer.read state (spell escape pieces) = some (slots.flatMap Slot.tokens) := by
  fun_induction slotsFrom state pieces generalizing slots with
  | case1 state =>
      obtain ⟨tokens, finished, rfl⟩ := Option.map_eq_some_iff.mp written
      rw [flatMap_tokens, ← finished]
      exact lexer.read_nil state
  | case2 state text rest inductionHypothesis =>
      obtain ⟨after, rest_eq, rfl⟩ := Option.map_eq_some_iff.mp written
      have text_eq : spell escape (.sql text :: rest) = text ++ spell escape rest := rfl
      rw [text_eq, lexer.read_append, inductionHypothesis rest_eq, Option.map_some,
        List.flatMap_append, flatMap_tokens]
  | case3 text value rest inductionHypothesis =>
      have text_eq : spell escape (.value value :: rest) =
          escape value ++ spell escape rest := rfl
      rw [text_eq, escapes, inductionHypothesis written]
  | case4 => contradiction
  | case5 value rest ends inductionHypothesis =>
      obtain ⟨after, rest_eq, rfl⟩ := Option.map_eq_some_iff.mp written
      have text_eq : spell escape (.number value :: rest) =
          Bytes.ofInt value ++ spell escape rest := rfl
      rw [text_eq, read_ofInt value (endsWord_spell ends), inductionHypothesis rest_eq,
        Option.map_some, List.flatMap_cons, Slot.tokens]
  | case6 => contradiction
  | case7 => contradiction

/-! ## Values do not change how a text is read -/

namespace LexState

/-- The state without the text of the literal that is being read. -/
def blank : LexState → LexState
  | quoted quote _ => quoted quote []
  | escaped quote _ => escaped quote []
  | closing quote _ => closing quote []
  | state => state

/-- What is in the literal makes no difference to how the next byte is taken. -/
theorem step_blank (state : LexState) (byte : UInt8) :
    (state.blank.step byte).1.blank = (state.step byte).1.blank ∧
      (state.blank.step byte).2.map Token.blank = (state.step byte).2.map Token.blank := by
  cases state with
  | quoted quote text =>
      simp only [blank, step]
      split_ifs <;> exact ⟨rfl, rfl⟩
  | escaped quote text => exact ⟨rfl, rfl⟩
  | closing quote text =>
      simp only [blank, step]
      split_ifs
      · exact ⟨rfl, rfl⟩
      · exact ⟨rfl, rfl⟩
  | _ => exact ⟨rfl, rfl⟩

theorem step_congr {one two : LexState} (same : one.blank = two.blank) (byte : UInt8) :
    (one.step byte).1.blank = (two.step byte).1.blank ∧
      (one.step byte).2.map Token.blank = (two.step byte).2.map Token.blank := by
  have first := step_blank one byte
  have second := step_blank two byte
  rw [same] at first
  exact ⟨first.1.symm.trans second.1, first.2.symm.trans second.2⟩

theorem finish_blank (state : LexState) :
    state.blank.finish.map (·.map Token.blank) = state.finish.map (·.map Token.blank) := by
  cases state <;> rfl

end LexState

theorem scan_congr {one two : LexState} (same : one.blank = two.blank) (text : Bytes) :
    (lexer.scan one text).1.blank = (lexer.scan two text).1.blank ∧
      (lexer.scan one text).2.map Token.blank = (lexer.scan two text).2.map Token.blank := by
  induction text generalizing one two with
  | nil => exact ⟨same, rfl⟩
  | cons byte text inductionHypothesis =>
      have stepped := LexState.step_congr same byte
      have rest := inductionHypothesis stepped.1
      refine ⟨rest.1, ?_⟩
      simp only [Scanner.scan, List.map_append]
      exact congrArg₂ (· ++ ·) stepped.2 rest.2

theorem endsWord_blank (rest : List Piece) : endsWord (rest.map Piece.blank) = endsWord rest := by
  match rest with
  | [] | .sql [] :: _ | .sql (_ :: _) :: _ | .value _ :: _ | .number _ :: _ => rfl

/-- What the server makes of the program's own text does not depend on the values. -/
theorem slotsFrom_blank {one two : LexState} (same : one.blank = two.blank)
    (pieces : List Piece) :
    (slotsFrom one (pieces.map Piece.blank)).map (·.map Slot.blank) =
      (slotsFrom two pieces).map (·.map Slot.blank) := by
  have map_token (tokens : List Token) :
      (tokens.map Slot.token).map Slot.blank = (tokens.map Token.blank).map Slot.token := by
    simp [Slot.blank]
  induction pieces generalizing one two with
  | nil =>
      have finished (state : LexState) :
          (slotsFrom state []).map (·.map Slot.blank) =
            (state.finish.map (·.map Token.blank)).map (·.map Slot.token) := by
        simp only [slotsFrom, Option.map_map]
        exact congrArg (Option.map · _) (funext map_token)
      rw [List.map_nil, finished, finished, ← LexState.finish_blank one,
        ← LexState.finish_blank two, same]
  | cons piece rest inductionHypothesis =>
      cases piece with
      | sql text =>
          have scanned := scan_congr same text
          have onward (state : LexState) (rest : List Piece) :
              (slotsFrom state (.sql text :: rest)).map (·.map Slot.blank) =
                ((slotsFrom (lexer.scan state text).1 rest).map (·.map Slot.blank)).map
                  (((lexer.scan state text).2.map Token.blank).map Slot.token ++ ·) := by
            rw [slotsFrom, Option.map_map, Option.map_map]
            refine congrArg (Option.map · _) (funext fun slots => ?_)
            simp [map_token]
          rw [List.map_cons, Piece.blank, onward, onward, inductionHypothesis scanned.1,
            scanned.2]
      | value value =>
          cases one <;> cases two <;> simp [LexState.blank] at same
          case quoted.quoted quote text quote' text' =>
            subst same
            by_cases single : quote = 39
            · subst single
              exact inductionHypothesis rfl
            · simp [slotsFrom, Piece.blank, single]
          all_goals rfl
      | number value =>
          cases one <;> cases two <;> simp [LexState.blank] at same
          case between.between =>
            rw [List.map_cons, Piece.blank, slotsFrom, slotsFrom, endsWord_blank]
            split_ifs
            · have onward (value : Int) (slots : Option (List Slot)) :
                  (slots.map (.number value :: ·)).map (·.map Slot.blank) =
                    (slots.map (·.map Slot.blank)).map (.number 0 :: ·) := by
                simp [Function.comp_def, Slot.blank]
              rw [onward, onward, inductionHypothesis rfl]
            · rfl
          all_goals rfl

end MiniS3.Db
