import SnapshotKv.Text.Extending
import SnapshotKv.Text.Ignorable
import SnapshotKv.Text.Shapeless

/-!
# Quoted texts

A text between double quotes, for readers who look for its exact characters: the quote, the
backslash and every character that cannot be seen by itself are escaped, and all else stands
unchanged.
-/

namespace SnapshotKv.Text

/-- A character by its code point. -/
def codePoint (c : Char) : List Char := ['\\', 'u', '{'] ++ Nat.toDigits 16 c.toNat ++ ['}']

/-- Whether a character cannot be seen by itself: it has no shape, is ignored in display, or is
drawn onto the one before it. -/
def isHidden (c : Char) : Bool := isExtending c || isIgnorable c || isShapeless c

/-- One character between quotes. -/
def quotedChar (c : Char) : List Char :=
  if c = '"' then ['\\', '"']
  else if c = '\\' then ['\\', '\\']
  else if c = '\t' then ['\\', 't']
  else if c = '\n' then ['\\', 'n']
  else if c = '\r' then ['\\', 'r']
  else if c.toNat = 0 then ['\\', '0']
  else if isHidden c then codePoint c
  else [c]

/-- A text between quotes. -/
def quoted (s : String) : String := "\"" ++ String.ofList (s.toList.flatMap quotedChar) ++ "\""

end SnapshotKv.Text
