import MiniS3.Lib.Reader
import MiniS3.Util.Numeric

/-!
# The commands of Redis

A command goes to Redis as an array of bulk strings: a header with the number of its arguments,
and for each argument a header with its length and then its bytes.  `BuildRespCommand` writes
it; the grammar of the receiver is given twice, by what spells a command and by a reader that
finds the commands in a text.

The bytes of an argument are counted and not looked at.  So they may be anything, the marks and
line ends of the grammar included, and a sequence of commands is spelled in one way only.
-/

namespace MiniS3.Resp

open Lib

/-- `RedisCache::BuildRespCommand`. -/
def buildRespCommand (args : List Bytes) : Bytes :=
  ascii "*" ++ Bytes.ofNat args.length ++ ascii "\r\n" ++
    args.flatMap fun arg =>
      ascii "$" ++ Bytes.ofNat arg.length ++ ascii "\r\n" ++ (arg ++ ascii "\r\n")

/-! ## The grammar -/

/-- A header: its mark, a number in digits, and the end of the line. -/
structure IsHeader (mark : UInt8) (value : Nat) (text : Bytes) : Prop where
  spelled : ∃ digits : Bytes, digits ≠ [] ∧ (∀ byte ∈ digits, (Bytes.digit? byte).isSome) ∧
    Bytes.decimal? digits = some value ∧ text = mark :: (digits ++ [13, 10])

/-- A bulk string. -/
def IsBulk (payload text : Bytes) : Prop :=
  ∃ header, IsHeader 36 payload.length header ∧ text = header ++ (payload ++ [13, 10])

/-- An array of bulk strings. -/
def IsCommand (args : List Bytes) (text : Bytes) : Prop :=
  ∃ header bulks, IsHeader 42 args.length header ∧ List.Forall₂ IsBulk args bulks ∧
    text = header ++ bulks.flatten

/-- Commands one after the other, and nothing else. -/
def AreCommands (commands : List (List Bytes)) (text : Bytes) : Prop :=
  ∃ texts, List.Forall₂ IsCommand commands texts ∧ text = texts.flatten

theorem isHeader_ofNat (mark : UInt8) (value : Nat) :
    IsHeader mark value (mark :: (Bytes.ofNat value ++ [13, 10])) where
  spelled := ⟨Bytes.ofNat value, Bytes.ofNat_ne_nil value,
    fun _ => Bytes.isSome_digit?_of_mem_ofNat, Bytes.decimal?_ofNat value, rfl⟩

/-- What is written is a command. -/
theorem isCommand_buildRespCommand (args : List Bytes) :
    IsCommand args (buildRespCommand args) := by
  refine ⟨_, args.map fun arg => 36 :: (Bytes.ofNat arg.length ++ [13, 10]) ++ (arg ++ [13, 10]),
    isHeader_ofNat 42 args.length, ?_, ?_⟩
  · rw [List.forall₂_map_right_iff, List.forall₂_same]
    exact fun arg _ => ⟨_, isHeader_ofNat 36 arg.length, rfl⟩
  · rw [← List.flatMap_def]
    rfl

theorem areCommands_flatMap (commands : List (List Bytes)) :
    AreCommands commands (commands.flatMap buildRespCommand) := by
  refine ⟨commands.map buildRespCommand, ?_, List.flatMap_def⟩
  rw [List.forall₂_map_right_iff, List.forall₂_same]
  exact fun args _ => isCommand_buildRespCommand args

/-! ## The reader -/

/-- Read a header with a mark. -/
def readHeader (mark : UInt8) : Reader UInt8 Nat
  | [] => none
  | first :: text =>
      let digits := text.takeWhile fun byte => (Bytes.digit? byte).isSome
      if first = mark ∧ digits ≠ [] then
        match text.drop digits.length with
        | 13 :: 10 :: rest => (Bytes.decimal? digits).map (·, rest)
        | _ => none
      else none

/-- Read a bulk string. -/
def readBulk : Reader UInt8 Bytes := fun text =>
  (readHeader 36 text).bind fun header =>
    match header.2.drop header.1 with
    | 13 :: 10 :: rest => some (header.2.take header.1, rest)
    | _ => none

/-- Read a command. -/
def readCommand : Reader UInt8 (List Bytes) := fun text =>
  (readHeader 42 text).bind fun header => Reader.times readBulk header.1 header.2

/-- The commands at the front of a text, and what follows them. -/
def decodeCommands (text : Bytes) : List (List Bytes) × Bytes :=
  Reader.drain readCommand text

/-- The digits of a header end before its line does. -/
theorem takeWhile_digits {digits rest : Bytes}
    (areDigits : ∀ byte ∈ digits, (Bytes.digit? byte).isSome) :
    (digits ++ 13 :: 10 :: rest).takeWhile (fun byte => (Bytes.digit? byte).isSome) = digits := by
  rw [List.takeWhile_append_of_pos areDigits, List.takeWhile_cons_of_neg (by decide),
    List.append_nil]

theorem reads_header (mark : UInt8) : Reader.Reads (readHeader mark) (IsHeader mark) := by
  rintro value _ rest ⟨digits, nonempty, areDigits, isValue, rfl⟩
  have shape : mark :: (digits ++ [13, 10]) ++ rest = mark :: (digits ++ 13 :: 10 :: rest) := by
    simp
  rw [shape]
  simp only [readHeader, takeWhile_digits areDigits, List.drop_left, isValue]
  rw [if_pos ⟨trivial, nonempty⟩]
  rfl

theorem finds_header (mark : UInt8) : Reader.Finds (readHeader mark) (IsHeader mark) := by
  intro text value rest taken
  cases text with
  | nil => contradiction
  | cons first text =>
      simp only [readHeader] at taken
      split at taken
      · rename_i opened
        obtain ⟨rfl, nonempty⟩ := opened
        split at taken
        · rename_i after ended
          obtain ⟨read, isValue, equal⟩ := Option.map_eq_some_iff.mp taken
          obtain ⟨rfl, rfl⟩ := Prod.mk.inj equal
          have front := List.prefix_iff_eq_take.mp
            (List.takeWhile_prefix (l := text) fun byte => (Bytes.digit? byte).isSome)
          refine ⟨_, ⟨_, nonempty, fun byte member => ?_, isValue, rfl⟩, ?_⟩
          · exact List.mem_takeWhile_imp (p := fun byte => (Bytes.digit? byte).isSome) member
          · have whole := List.take_append_drop
              (text.takeWhile fun byte => (Bytes.digit? byte).isSome).length text
            rw [← front, ended] at whole
            simp [whole]
        · contradiction
      · contradiction

theorem reads_bulk : Reader.Reads readBulk IsBulk := by
  rintro payload _ rest ⟨header, isHeader, rfl⟩
  rw [List.append_assoc, List.append_assoc, readBulk, reads_header 36 _ _ _ isHeader,
    Option.bind_some]
  simp only [List.drop_left, List.take_left]
  rfl

theorem finds_bulk : Reader.Finds readBulk IsBulk := by
  intro text payload rest taken
  obtain ⟨⟨length, body⟩, headerRead, afterHeader⟩ := Option.bind_eq_some_iff.mp taken
  obtain ⟨header, isHeader, rfl⟩ := finds_header 36 _ _ _ headerRead
  simp only at afterHeader
  split at afterHeader
  · rename_i after ended
    obtain ⟨rfl, rfl⟩ := Prod.mk.inj (Option.some.inj afterHeader)
    have long : length ≤ body.length := by
      have lengths := congrArg List.length ended
      rw [List.length_drop, List.length_cons] at lengths
      omega
    refine ⟨_, ⟨header, ?_, rfl⟩, ?_⟩
    · rw [List.length_take, Nat.min_eq_left long]
      exact isHeader
    · have whole := List.take_append_drop length body
      rw [ended] at whole
      simp [whole]
  · contradiction

theorem reads_command : Reader.Reads readCommand IsCommand := by
  rintro args _ rest ⟨header, bulks, isHeader, areBulks, rfl⟩
  rw [List.append_assoc, readCommand, reads_header 42 _ _ _ isHeader, Option.bind_some]
  exact Reader.Reads.times reads_bulk areBulks rest

theorem finds_command : Reader.Finds readCommand IsCommand := by
  intro text args rest taken
  obtain ⟨⟨count, body⟩, headerRead, afterHeader⟩ := Option.bind_eq_some_iff.mp taken
  obtain ⟨header, isHeader, rfl⟩ := finds_header 42 _ _ _ headerRead
  obtain ⟨rfl, bulks, areBulks, rfl⟩ := Reader.Finds.times finds_bulk afterHeader
  exact ⟨_, ⟨header, bulks, isHeader, areBulks, rfl⟩, (List.append_assoc ..).symm⟩

theorem stable_readCommand : Reader.Stable readCommand :=
  Reader.Reads.stable reads_command finds_command

theorem consumes_readCommand : Reader.Consumes readCommand := by
  refine Reader.Finds.consumes finds_command ?_
  rintro args _ ⟨_, bulks, ⟨digits, -, -, -, rfl⟩, -, rfl⟩
  simp

/-! ## One reading -/

/-- The commands of a text that is made of commands are found, and nothing is left. -/
theorem decodeCommands_of_areCommands {commands : List (List Bytes)} {text : Bytes}
    (areCommands : AreCommands commands text) : decodeCommands text = (commands, []) := by
  obtain ⟨texts, spelled, rfl⟩ := areCommands
  have drained := Reader.Reads.drain_flatten reads_command consumes_readCommand spelled []
  rw [List.append_nil, Reader.drain_of_none (rfl : readCommand [] = none), List.append_nil]
    at drained
  exact drained

/-- What is written for a sequence of commands is decoded to that sequence with nothing left over,
and the grammar has no other reading of it. -/
theorem commands_are_unambiguous (commands : List (List Bytes)) :
    decodeCommands (commands.flatMap buildRespCommand) = (commands, []) ∧
      ∀ decoded, AreCommands decoded (commands.flatMap buildRespCommand) ↔ decoded = commands := by
  have written := decodeCommands_of_areCommands (areCommands_flatMap commands)
  refine ⟨written, fun decoded => ?_⟩
  constructor
  · intro areCommands
    have read := decodeCommands_of_areCommands areCommands
    rw [written] at read
    exact (congrArg Prod.fst read).symm
  · rintro rfl
    exact areCommands_flatMap decoded

/-- A value that looks like the rest of its own command and another one is still one value. -/
example : decodeCommands (buildRespCommand [ascii "GET", ascii "k\r\n*1\r\n$4\r\nPING"]) =
    ([[ascii "GET", ascii "k\r\n*1\r\n$4\r\nPING"]], []) := by
  decide +kernel

end MiniS3.Resp
