import SnapshotKv.Json.Document

/-!
# Writing JSON

Texts, numbers and objects as `Json` values, and the two ways to write a value: on one line without
spaces (`Json.compact`), and one item a line, indented by two spaces a level (`Json.pretty`). In a
written string the quote, the backslash and the control characters are escaped and all else stands
as it is.
-/

namespace SnapshotKv.Json

/-- The value of a text. -/
def ofString (s : String) : Json := .string (s.toList.map .char)

/-- The value of a natural number. -/
def ofNat (n : Nat) : Json :=
  .number ⟨false, (Nat.toDigits 10 n).map (fun c => c.toNat - '0'.toNat), [], none⟩

/-- The value of an integer. -/
def ofInt (i : Int) : Json :=
  .number ⟨i < 0, (Nat.toDigits 10 i.natAbs).map (fun c => c.toNat - '0'.toNat), [], none⟩

/-- The object of some fields, in the order given. -/
def record (fields : List (String × Json)) : Json :=
  .object (fields.map fun e => (e.1.toList.map .char, e.2))

/-- A hexadecimal digit. -/
def hexDigit (n : Nat) : Char := (Nat.toDigits 16 n).headD '0'

/-- One character inside a written string. -/
def escapeChar (c : Char) : List Char :=
  if c = '"' then ['\\', '"']
  else if c = '\\' then ['\\', '\\']
  else if c = '\n' then ['\\', 'n']
  else if c = '\r' then ['\\', 'r']
  else if c = '\t' then ['\\', 't']
  else if c.toNat = 0x08 then ['\\', 'b']
  else if c.toNat = 0x0C then ['\\', 'f']
  else if c.toNat < 0x20 then
    ['\\', 'u', '0', '0', hexDigit (c.toNat / 16), hexDigit (c.toNat % 16)]
  else [c]

/-- A text between quotes. -/
def quote (s : String) : String := "\"" ++ String.ofList (s.toList.flatMap escapeChar) ++ "\""

/-- A string as it is written anew. -/
def writeText (s : JsonText) : String := quote (s.toString?.getD "")

/-- A number as it is written anew. -/
def writeNumber (n : Numeral) : String := (n.value?.map Number.text).getD "null"

mutual

/-- A value on one line. -/
def compact : Json → String
  | .null => "null"
  | .bool b => toString b
  | .string s => writeText s
  | .number n => writeNumber n
  | .array items => "[" ++ ",".intercalate (compactItems items) ++ "]"
  | .object fields => "\x7b" ++ ",".intercalate (compactFields fields) ++ "\x7d"

/-- Each item of an array on one line. -/
def compactItems : List Json → List String
  | [] => []
  | x :: rest => compact x :: compactItems rest

/-- Each field of an object on one line. -/
def compactFields : List (JsonText × Json) → List String
  | [] => []
  | (k, x) :: rest => (writeText k ++ ":" ++ compact x) :: compactFields rest

end

/-- A line break and the indentation of a level. -/
def lineBreak (level : Nat) : String := "\n" ++ String.ofList (List.replicate (2 * level) ' ')

/-- Written items between brackets, one a line; empty brackets stay together. -/
def block (left right : String) (level : Nat) (items : List String) : String :=
  if items.isEmpty then left ++ right
  else left ++ lineBreak (level + 1) ++ ("," ++ lineBreak (level + 1)).intercalate items
    ++ lineBreak level ++ right

mutual

/-- A value over several lines, at a level of indentation. -/
def pretty (level : Nat) : Json → String
  | .null => "null"
  | .bool b => toString b
  | .string s => writeText s
  | .number n => writeNumber n
  | .array items => block "[" "]" level (prettyItems (level + 1) items)
  | .object fields => block "\x7b" "\x7d" level (prettyFields (level + 1) fields)

/-- Each item of an array over several lines. -/
def prettyItems (level : Nat) : List Json → List String
  | [] => []
  | x :: rest => pretty level x :: prettyItems level rest

/-- Each field of an object over several lines. -/
def prettyFields (level : Nat) : List (JsonText × Json) → List String
  | [] => []
  | (k, x) :: rest => (writeText k ++ ": " ++ pretty level x) :: prettyFields level rest

end

end SnapshotKv.Json
