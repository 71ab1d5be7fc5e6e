/-!
# The words of a JSON document

`Token.scan?` cuts a text into tokens, strictly: four blank characters, no leading zeros, no control
characters in strings. A string keeps its escaped code units, and a numeral its digits, as they are
written; what they mean is judged where they are used (`JsonText.decode?`).
-/

namespace SnapshotKv

/-- One part of a written string: a character, or a code unit that was written in hexadecimal. -/
inductive StringPiece where
  | char (c : Char)
  | unit (u : Nat)
  deriving DecidableEq, Repr

/-- A string as it is written. -/
abbrev JsonText := List StringPiece

/-- A number as it is written, digit by digit. -/
structure Numeral where
  negative : Bool
  /-- The digits before the point. -/
  whole : List Nat
  /-- The digits after the point; there is no point when there are none. -/
  fraction : List Nat
  /-- Whether the exponent is negative, and its digits. -/
  exponent : Option (Bool × List Nat)
  deriving DecidableEq, Repr

/-- A word of a JSON document. -/
inductive Token where
  | openBrace | closeBrace | openBracket | closeBracket | comma | colon
  | null
  | bool (b : Bool)
  | string (s : JsonText)
  | number (n : Numeral)
  deriving DecidableEq, Repr

/-- A string with its surrogate pairs joined; none when a surrogate stands alone. -/
def JsonText.decode? : JsonText → Option (List Char)
  | [] => some []
  | .char c :: rest => (decode? rest).map (c :: ·)
  | .unit u :: rest =>
    if 0xD800 ≤ u ∧ u ≤ 0xDBFF then
      match rest with
      | .unit v :: rest' =>
        if 0xDC00 ≤ v ∧ v ≤ 0xDFFF then
          (decode? rest').map (Char.ofNat (0x10000 + (u - 0xD800) * 0x400 + (v - 0xDC00)) :: ·)
        else none
      | _ => none
    else if 0xDC00 ≤ u ∧ u ≤ 0xDFFF then none
    else (decode? rest).map (Char.ofNat u :: ·)

/-- The text that a string stands for. -/
def JsonText.toString? (s : JsonText) : Option String := s.decode?.map String.ofList

namespace Token

/-- The characters between tokens. -/
def isSpace (c : Char) : Bool := c == ' ' || c == '\n' || c == '\t' || c == '\r'

/-- The value of a hexadecimal digit. -/
def hexDigit? (c : Char) : Option Nat :=
  if '0' ≤ c ∧ c ≤ '9' then some (c.toNat - '0'.toNat)
  else if 'a' ≤ c ∧ c ≤ 'f' then some (c.toNat - 'a'.toNat + 10)
  else if 'A' ≤ c ∧ c ≤ 'F' then some (c.toNat - 'A'.toNat + 10)
  else none

/-- The character after a backslash that stands for another one. -/
def escaped? : Char → Option Char
  | '"' => some '"'
  | '\\' => some '\\'
  | '/' => some '/'
  | 'b' => some (Char.ofNat 0x08)
  | 'f' => some (Char.ofNat 0x0C)
  | 'n' => some '\n'
  | 'r' => some '\r'
  | 't' => some '\t'
  | _ => none

/-- The four digits of a code unit. -/
def unit? (a b c d : Char) : Option Nat := do
  let a ← hexDigit? a
  let b ← hexDigit? b
  let c ← hexDigit? c
  let d ← hexDigit? d
  pure (((a * 16 + b) * 16 + c) * 16 + d)

/-- A string after its opening quote, and what follows its closing quote. -/
def string? : List Char → Option (JsonText × List Char)
  | [] => none
  | '"' :: rest => some ([], rest)
  | '\\' :: 'u' :: a :: b :: c :: d :: rest =>
    match unit? a b c d, string? rest with
    | some u, some (s, r) => some (.unit u :: s, r)
    | _, _ => none
  | '\\' :: e :: rest =>
    match escaped? e, string? rest with
    | some c, some (s, r) => some (.char c :: s, r)
    | _, _ => none
  | c :: rest =>
    if c.toNat < 0x20 ∨ c = '\\' then none
    else match string? rest with
      | some (s, r) => some (.char c :: s, r)
      | none => none

/-- The values of the digits at the start of a text. -/
def digits (cs : List Char) : List Nat :=
  (cs.takeWhile Char.isDigit).map (fun c => c.toNat - '0'.toNat)

/-- What follows the digits at the start of a text. -/
def afterDigits (cs : List Char) : List Char := cs.dropWhile Char.isDigit

/-- The digits after a point, if one comes next; a point needs a digit. -/
def fraction? (cs : List Char) : Option (List Nat × List Char) :=
  match cs with
  | '.' :: rest =>
    if (digits rest).isEmpty then none else some (digits rest, afterDigits rest)
  | _ => some ([], cs)

/-- The digits of an exponent with a sign; an exponent needs a digit. -/
def powerDigits? (negative : Bool) (cs : List Char) : Option (Option (Bool × List Nat) × List Char) :=
  if (digits cs).isEmpty then none else some (some (negative, digits cs), afterDigits cs)

/-- The sign and digits of an exponent, if one comes next. -/
def exponent? (cs : List Char) : Option (Option (Bool × List Nat) × List Char) :=
  match cs with
  | 'e' :: '-' :: rest | 'E' :: '-' :: rest => powerDigits? true rest
  | 'e' :: '+' :: rest | 'E' :: '+' :: rest => powerDigits? false rest
  | 'e' :: rest | 'E' :: rest => powerDigits? false rest
  | _ => some (none, cs)

/-- A numeral without its sign, and what follows. A zero that is not the only digit before the point
may not lead. -/
def unsigned? (negative : Bool) (cs : List Char) : Option (Numeral × List Char) := do
  let whole := digits cs
  if whole.isEmpty ∨ (whole.head? = some 0 ∧ whole.length ≠ 1) then none
  else
    let (fraction, cs) ← fraction? (afterDigits cs)
    let (exponent, cs) ← exponent? cs
    pure (⟨negative, whole, fraction, exponent⟩, cs)

/-- One token at the start of a text that does not start with a space, and what follows. -/
def next? : List Char → Option (Token × List Char)
  | '{' :: rest => some (.openBrace, rest)
  | '}' :: rest => some (.closeBrace, rest)
  | '[' :: rest => some (.openBracket, rest)
  | ']' :: rest => some (.closeBracket, rest)
  | ',' :: rest => some (.comma, rest)
  | ':' :: rest => some (.colon, rest)
  | 'n' :: 'u' :: 'l' :: 'l' :: rest => some (.null, rest)
  | 't' :: 'r' :: 'u' :: 'e' :: rest => some (.bool true, rest)
  | 'f' :: 'a' :: 'l' :: 's' :: 'e' :: rest => some (.bool false, rest)
  | '"' :: rest => (string? rest).map (fun e => (.string e.1, e.2))
  | '-' :: rest => (unsigned? true rest).map (fun e => (.number e.1, e.2))
  | cs => (unsigned? false cs).map (fun e => (.number e.1, e.2))

/-- The tokens of a text, given at least as much fuel as it has characters. -/
def scanWith : (fuel : Nat) → List Char → Option (List Token)
  | _, [] => some []
  | 0, _ :: _ => none
  | fuel + 1, c :: cs =>
    if isSpace c then scanWith fuel cs
    else do
      let (t, rest) ← next? (c :: cs)
      let ts ← scanWith fuel rest
      pure (t :: ts)

/-- The tokens of a text. -/
def scan? (cs : List Char) : Option (List Token) := scanWith cs.length cs

end Token

end SnapshotKv
