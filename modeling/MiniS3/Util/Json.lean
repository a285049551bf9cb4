import MiniS3.Util.Utf8

/-!
# JSON values

The JSON library is not part of the repository.  A value is a tree, and reading
and printing are parameters of the model: reading fails on malformed text, and
printing throws on a string that is not valid UTF-8 and on nothing else.  A
floating-point number is known by the integer it is cut off to, which is all that is
asked of one.
-/

namespace MiniS3

/-- A JSON value. -/
inductive Json
  | null
  | bool (value : Bool)
  | integer (value : Int)
  | float (truncated : Int)
  | string (value : Bytes)
  | array (items : List Json)
  | object (fields : List (Bytes × Json))

/-- The JSON library: `json::parse` and `dump`, with `none` for an exception. -/
structure JsonLibrary where
  parse : Bytes → Option Json
  dump : Json → Option Bytes

namespace Json

/-- The value of a field of an object. -/
def field? (name : Bytes) : Json → Option Json
  | .object fields => (fields.find? fun entry => entry.1 = name).map Prod.snd
  | _ => none

/-- `get<int>`, with `none` for an exception. -/
def getInt : Json → Option Int
  | .bool value => some value.toNat
  | .integer value => some (value.bmod (2 ^ 32))
  | .float truncated => some truncated
  | _ => none

/-- `get<std::string>`, with `none` for an exception. -/
def getString : Json → Option Bytes
  | .string value => some value
  | _ => none

/-- Texts with commas between them. -/
def commaSeparated : List Bytes → Bytes
  | [] => []
  | [text] => text
  | text :: rest => text ++ ascii "," ++ commaSeparated rest

mutual

/-- What `dump` prints when no string needs an escape.  The fields of an object are sorted
by their names. -/
def compact : Json → Bytes
  | .null => ascii "null"
  | .bool value => ascii (if value then "true" else "false")
  | .integer value => Bytes.ofInt value
  | .float truncated => Bytes.ofInt truncated ++ ascii ".0"
  | .string value => ascii "\"" ++ value ++ ascii "\""
  | .array items => ascii "[" ++ commaSeparated (compactItems items) ++ ascii "]"
  | .object fields =>
      let sorted := (compactFields fields).mergeSort fun one two => one.1 ≤ two.1
      ascii "\x7b" ++ commaSeparated (sorted.map fun field =>
        ascii "\"" ++ field.1 ++ ascii "\":" ++ field.2) ++ ascii "\x7d"

/-- The items of an array, printed. -/
def compactItems : List Json → List Bytes
  | [] => []
  | item :: rest => item.compact :: compactItems rest

/-- The fields of an object, with their values printed. -/
def compactFields : List (Bytes × Json) → List (Bytes × Bytes)
  | [] => []
  | (name, value) :: rest => (name, value.compact) :: compactFields rest

end

mutual

/-- All strings of a value, the names of fields included. -/
def texts : Json → List Bytes
  | .string value => [value]
  | .array items => textsOfItems items
  | .object fields => textsOfFields fields
  | _ => []

/-- The strings of the items of an array. -/
def textsOfItems : List Json → List Bytes
  | [] => []
  | item :: rest => item.texts ++ textsOfItems rest

/-- The strings of the fields of an object. -/
def textsOfFields : List (Bytes × Json) → List Bytes
  | [] => []
  | (name, value) :: rest => name :: value.texts ++ textsOfFields rest

end

/-- Every string is valid UTF-8. -/
def isUtf8 (value : Json) : Bool :=
  value.texts.all Bytes.isUtf8

end Json

/-- Printing throws exactly on a string that is not valid UTF-8. -/
def JsonLibrary.Strict (library : JsonLibrary) : Prop :=
  ∀ value, (library.dump value).isSome = value.isUtf8

/-- A library for concrete runs: it prints values whose strings need no escape, and reads
the listed texts. -/
def JsonLibrary.plain (texts : List (Bytes × Json)) : JsonLibrary where
  parse text := (texts.find? fun entry => entry.1 = text).map Prod.snd
  dump value := if value.isUtf8 then some value.compact else none

theorem JsonLibrary.strict_plain (texts : List (Bytes × Json)) : (plain texts).Strict := by
  intro value
  simp only [plain]
  split
  · rename_i valid
    exact valid.symm
  · rename_i invalid
    simpa using invalid

end MiniS3
