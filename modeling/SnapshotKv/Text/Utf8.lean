import SnapshotKv.Bytes

/-!
# Reading UTF-8

`Utf8.scan` reads a byte string as characters. Where the bytes form none, it takes the longest
beginning of a character that is there, one byte at least, as one ill-formed piece. Strict reading
(`Utf8.decode?`) admits no such piece; lossy reading (`Utf8.decodeLossy`) puts the replacement
character in its place.
-/

namespace SnapshotKv.Utf8

/-- Whether a byte continues a character. -/
def isTail (b : UInt8) : Bool := 0x80 ≤ b && b ≤ 0xBF

/-- The bytes that may follow the first byte of a character of three bytes. -/
def isSecondOfThree (first b : UInt8) : Bool :=
  if first = 0xE0 then 0xA0 ≤ b && b ≤ 0xBF
  else if first = 0xED then 0x80 ≤ b && b ≤ 0x9F
  else isTail b

/-- The bytes that may follow the first byte of a character of four bytes. -/
def isSecondOfFour (first b : UInt8) : Bool :=
  if first = 0xF0 then 0x90 ≤ b && b ≤ 0xBF
  else if first = 0xF4 then 0x80 ≤ b && b ≤ 0x8F
  else isTail b

/-- The low six bits of a continuing byte. -/
def tailBits (b : UInt8) : Nat := b.toNat % 64

/-- The character that starts with a byte, or `none` for an ill-formed piece, and how many of the
bytes after the first belong to it. -/
def piece (b : UInt8) (rest : Bytes) : Option Char × Nat :=
  if b < 0x80 then (some (Char.ofNat b.toNat), 0)
  else if 0xC2 ≤ b && b ≤ 0xDF then
    match rest with
    | b1 :: _ =>
      if isTail b1 then (some (Char.ofNat (b.toNat % 32 * 64 + tailBits b1)), 1) else (none, 0)
    | [] => (none, 0)
  else if 0xE0 ≤ b && b ≤ 0xEF then
    match rest with
    | b1 :: rest =>
      if !isSecondOfThree b b1 then (none, 0)
      else match rest with
        | b2 :: _ =>
          if isTail b2 then
            (some (Char.ofNat ((b.toNat % 16 * 64 + tailBits b1) * 64 + tailBits b2)), 2)
          else (none, 1)
        | [] => (none, 1)
    | [] => (none, 0)
  else if 0xF0 ≤ b && b ≤ 0xF4 then
    match rest with
    | b1 :: rest =>
      if !isSecondOfFour b b1 then (none, 0)
      else match rest with
        | b2 :: rest =>
          if !isTail b2 then (none, 1)
          else match rest with
            | b3 :: _ =>
              if isTail b3 then
                (some (Char.ofNat
                  (((b.toNat % 8 * 64 + tailBits b1) * 64 + tailBits b2) * 64 + tailBits b3)), 3)
              else (none, 2)
            | [] => (none, 2)
        | [] => (none, 1)
    | [] => (none, 0)
  else (none, 0)

/-- The pieces of a byte string after those found so far, which stand in reverse order. -/
def scanOnto (found : List (Option Char)) (bytes : Bytes) : List (Option Char) :=
  match bytes with
  | [] => found.reverse
  | b :: rest => scanOnto ((piece b rest).1 :: found) (rest.drop (piece b rest).2)
termination_by bytes.length

/-- The characters of a byte string in order, with `none` for each ill-formed piece. -/
def scan (bytes : Bytes) : List (Option Char) := scanOnto [] bytes

/-- The text of a byte string that is well-formed UTF-8. -/
def decode? (bytes : Bytes) : Option String :=
  let pieces := scan bytes
  if pieces.all Option.isSome then some (String.ofList (pieces.filterMap id)) else none

/-- The text of a byte string, with the replacement character for each ill-formed piece. -/
def decodeLossy (bytes : Bytes) : String :=
  String.ofList ((scan bytes).map (·.getD (Char.ofNat 0xFFFD)))

end SnapshotKv.Utf8
