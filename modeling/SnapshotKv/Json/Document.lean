import SnapshotKv.Json.Binary64
import SnapshotKv.Json.Token

/-!
# JSON documents

A `Json` is a document as it is written. `Json.read?` reads one from a text. What a reader of the
values must still judge is judged by `Json.isSound`: surrogates come in pairs, numbers are in range,
and values nest no deeper than a limit. `Json.scalar?` is the text of a value that is no container.
-/

namespace SnapshotKv

/-- A JSON value as it is written. -/
inductive Json where
  | null
  | bool (b : Bool)
  | string (s : JsonText)
  | number (n : Numeral)
  | array (items : List Json)
  | object (fields : List (JsonText × Json))

/-- What a numeral stands for. -/
inductive Number where
  | integer (i : Int)
  | float (negative : Bool) (x : Binary64)
  deriving DecidableEq, Repr

namespace Number

/-- The text of a number. -/
def text : Number → String
  | .integer i => toString i
  | .float negative x => (if negative then "-" else "") ++ x.text

end Number

namespace Numeral

/-- The largest significand that is kept exactly. -/
def maxSignificand : Nat := UInt64.size - 1

/-- The largest power of ten that is not counted as beyond all bounds. -/
def maxExponent : Nat := 2147483647

/-- Takes up digits as long as the number stays within the largest significand; answers the number,
how many digits it took, and the digits it left. -/
def absorb (acc taken : Nat) : List Nat → Nat × Nat × List Nat
  | [] => (acc, taken, [])
  | d :: rest =>
    if acc * 10 + d > maxSignificand then (acc, taken, d :: rest)
    else absorb (acc * 10 + d) (taken + 1) rest

/-- Reads digits onto a power of ten read so far; none beyond the largest one. -/
def power? (acc : Nat) : List Nat → Option Nat
  | [] => some acc
  | d :: rest => if acc * 10 + d > maxExponent then none else power? (acc * 10 + d) rest

/-- A floating-point number divided by a power of ten, in steps of at most `10 ^ 308`. -/
def divideByPower (f : Binary64) (k : Nat) : Binary64 :=
  if k ≤ 308 then ((Binary64.powerOfTen? k).bind f.div?).getD .zero
  else if f.isZero then f
  else divideByPower (((Binary64.powerOfTen? 308).bind f.div?).getD .zero) (k - 308)
termination_by k

/-- A significand times a power of ten: the significand is rounded first, then the power, then their
product or quotient. None when the result is too large. -/
def scale? (significand : Nat) (e : Int) : Option Binary64 := do
  let f ← Binary64.round? significand 1
  if e < 0 then pure (divideByPower f (-e).toNat)
  else if e ≤ 308 then
    let p ← Binary64.powerOfTen? e.toNat
    f.mul? p
  else if f.isZero then pure f
  else none

/-- The magnitude of a numeral in floating point. Digits that no longer fit the significand count as
zeros before the point and are dropped after it. -/
def magnitude? (n : Numeral) : Option Binary64 :=
  let (whole, _, left) := absorb 0 0 n.whole
  let (significand, taken, _) := absorb whole 0 n.fraction
  let e : Int := Int.ofNat left.length - Int.ofNat taken
  match n.exponent with
  | none => scale? significand e
  | some (negative, ds) =>
    match power? 0 ds with
    | none => if significand = 0 ∨ negative then some .zero else none
    | some x => scale? significand (if negative then e - Int.ofNat x else e + Int.ofNat x)

/-- What a numeral stands for: an integer if it is written as one and fits 64 bits, else a
floating-point number. A negative zero is no integer. -/
def value? (n : Numeral) : Option Number :=
  let float := n.magnitude?.map (.float n.negative)
  if n.fraction.isEmpty ∧ n.exponent.isNone then
    match absorb 0 0 n.whole with
    | (i, _, []) =>
      if !n.negative then some (.integer i)
      else if 0 < i ∧ 2 * i ≤ UInt64.size then some (.integer (-i))
      else float
    | _ => float
  else float

end Numeral

namespace Json

/-! ## Reading -/

/-- What is left of a token list after a value was taken from it. -/
abbrev Shorter (ts : List Token) := { rest : List Token // rest.length < ts.length }

mutual

/-- The value at the start of a token list. -/
def value? (ts : List Token) : Option (Json × Shorter ts) :=
  match ts with
  | .null :: r => some (.null, ⟨r, by simp⟩)
  | .bool b :: r => some (.bool b, ⟨r, by simp⟩)
  | .string s :: r => some (.string s, ⟨r, by simp⟩)
  | .number n :: r => some (.number n, ⟨r, by simp⟩)
  | .openBracket :: .closeBracket :: r =>
    some (.array [], ⟨r, by simp only [List.length_cons]; omega⟩)
  | .openBracket :: r =>
    match items? r with
    | some (xs, ⟨r', h⟩) => some (.array xs, ⟨r', by simp; omega⟩)
    | none => none
  | .openBrace :: .closeBrace :: r => some (.object [], ⟨r, by simp only [List.length_cons]; omega⟩)
  | .openBrace :: r =>
    match fields? r with
    | some (fs, ⟨r', h⟩) => some (.object fs, ⟨r', by simp; omega⟩)
    | none => none
  | _ => none
termination_by (ts.length, 0)

/-- The items of an array up to its closing bracket. -/
def items? (ts : List Token) : Option (List Json × Shorter ts) :=
  match value? ts with
  | some (x, ⟨.closeBracket :: r, h⟩) => some ([x], ⟨r, by simp at h; omega⟩)
  | some (x, ⟨.comma :: r, h⟩) =>
    have : r.length < ts.length := by simp at h; omega
    match items? r with
    | some (xs, ⟨r', h'⟩) => some (x :: xs, ⟨r', by omega⟩)
    | none => none
  | _ => none
termination_by (ts.length, 1)

/-- The fields of an object up to its closing brace. -/
def fields? (ts : List Token) : Option (List (JsonText × Json) × Shorter ts) :=
  match ts with
  | .string k :: .colon :: r =>
    match value? r with
    | some (x, ⟨.closeBrace :: r', h⟩) => some ([(k, x)], ⟨r', by simp at h ⊢; omega⟩)
    | some (x, ⟨.comma :: r', h⟩) =>
      have : r'.length < r.length := by simp at h; omega
      match fields? r' with
      | some (fs, ⟨r'', h'⟩) => some ((k, x) :: fs, ⟨r'', by simp; omega⟩)
      | none => none
    | _ => none
  | _ => none
termination_by (ts.length, 1)

end

/-- The document that a text writes; nothing but spaces may surround it. -/
def read? (text : String) : Option Json := do
  let ts ← Token.scan? text.toList
  match ← value? ts with
  | (x, ⟨[], _⟩) => pure x
  | _ => none

/-! ## Judging values -/

mutual

/-- Whether the strings and numbers of a value mean something and its containers nest at most
`room` deep. -/
def isSound (room : Nat) : Json → Bool
  | .null | .bool _ => true
  | .string s => s.decode?.isSome
  | .number n => n.value?.isSome
  | .array items => match room with
    | 0 => false
    | room + 1 => itemsSound room items
  | .object fields => match room with
    | 0 => false
    | room + 1 => fieldsSound room fields

/-- Whether every item is sound. -/
def itemsSound (room : Nat) : List Json → Bool
  | [] => true
  | x :: rest => isSound room x && itemsSound room rest

/-- Whether every name and value of a list of fields is sound. -/
def fieldsSound (room : Nat) : List (JsonText × Json) → Bool
  | [] => true
  | (k, x) :: rest => k.decode?.isSome && isSound room x && fieldsSound room rest

end

/-- How deep the values of a document may nest. -/
def maxDepth : Nat := 127

/-- The text of a value that is a string, a boolean or a number. -/
def scalar? : Json → Option String
  | .bool b => some (toString b)
  | .string s => s.toString?
  | .number n => n.value?.map Number.text
  | _ => none

/-- The value as a text. -/
def text? : Json → Option String
  | .string s => s.toString?
  | _ => none

/-- The value as a natural number below a limit; it has to be written as an integer. -/
def natBelow? (limit : Nat) : Json → Option Nat
  | .number n => match n.value? with
    | some (.integer i) => if 0 ≤ i ∧ i < limit then some i.toNat else none
    | _ => none
  | _ => none

/-- The items of an array. -/
def items : Json → Option (List Json)
  | .array xs => some xs
  | _ => none

/-- The fields of an object under their names; none when a name is unsound. -/
def namedFields? : Json → Option (List (String × Json))
  | .object fields => fields.mapM fun e => e.1.toString?.map (fun k => (k, e.2))
  | _ => none

/-- The values of the fields of a record in the order in which `known` names them, `none` for one
that is missing. A record is written as an object in which no known field comes twice, or as an
array that ends after any field. Other fields of an object are skipped, or refused when the record
is `closed`. -/
def recordFields? (known : List String) (closed : Bool) : Json → Option (List (Option Json))
  | .array xs =>
    if xs.length ≤ known.length then
      some (xs.map some ++ List.replicate (known.length - xs.length) none)
    else none
  | .object fields => do
    let fields ← namedFields? (.object fields)
    let names := fields.map (·.1)
    if known.all (fun k => names.count k ≤ 1) && (!closed || names.all known.contains) then
      pure (known.map fun k => fields.lookup k)
    else none
  | _ => none

end Json

end SnapshotKv
