import SnapshotKv.Fault

/-!
# Unsigned integers in decimal

An unsigned integer is written with ASCII digits, after a plus sign if one likes, and is below
`2 ^ 64`. Of two faults the one further left is reported.
-/

namespace SnapshotKv.Unsigned

/-- The first number that is too large. -/
def limit : Nat := UInt64.size

/-- Reads digits onto a number read so far. -/
def readDigits (acc : Nat) : List Char → Except NumberProblem Nat
  | [] => pure acc
  | c :: rest =>
    if c.isDigit then
      let n := acc * 10 + (c.toNat - '0'.toNat)
      if n < limit then readDigits n rest else throw .tooLarge
    else throw .badDigit

/-- The number that a text writes. -/
def read (s : String) : Except NumberProblem Nat :=
  match s.toList with
  | [] => throw .empty
  | ['+'] => throw .badDigit
  | '+' :: digits => readDigits 0 digits
  | digits => readDigits 0 digits

end SnapshotKv.Unsigned
