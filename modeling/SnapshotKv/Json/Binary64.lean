/-!
# Binary floating point in exact arithmetic

The non-negative finite numbers of the 64-bit binary format, as a significand and a power of two.
`Binary64.round?` rounds a quotient of natural numbers to the nearest of them, ties to the even
significand, and has no answer beyond the largest. Products and quotients are the rounded exact
ones. `Binary64.shortest` finds the fewest decimal digits that round back to a number, and of those
the nearest.
-/

namespace SnapshotKv

/-- The number `significand * 2 ^ exponent`. -/
structure Binary64 where
  significand : Nat
  exponent : Int
  deriving DecidableEq, Repr

namespace Binary64

/-- The exponent of the smallest numbers. -/
def minExponent : Int := -1074

/-- The exponent of the largest numbers. -/
def maxExponent : Int := 971

/-- The least significand of a number above the smallest exponent, the 52nd power of two. -/
def leastFull : Nat := 4503599627370496

def zero : Binary64 := ⟨0, minExponent⟩

def isZero (x : Binary64) : Bool := x.significand == 0

/-- A quotient times a power of two, as a quotient. -/
def scaled (num den : Nat) (e : Int) : Nat × Nat :=
  if 0 ≤ e then (num * Nat.pow 2 e.toNat, den) else (num, den * Nat.pow 2 (-e).toNat)

/-- The natural number nearest to a quotient; a tie goes to the even one. -/
def nearest (num den : Nat) : Nat :=
  let q := num / den
  let r := num % den
  if 2 * r > den ∨ (2 * r = den ∧ q % 2 = 1) then q + 1 else q

/-- The number nearest to `num / den`; none when it is too large. -/
def round? (num den : Nat) : Option Binary64 :=
  if num = 0 then some zero
  else
    let guess : Int := max minExponent (Int.ofNat num.log2 - Int.ofNat den.log2 - 52)
    let at' (e : Int) : Nat × Nat := scaled num den (-e)
    let few := (at' guess).1 / (at' guess).2 < leastFull
    let e := if few ∧ minExponent < guess then guess - 1 else guess
    let m := nearest (at' e).1 (at' e).2
    let x : Binary64 := if m = 2 * leastFull then ⟨leastFull, e + 1⟩ else ⟨m, e⟩
    if x.exponent ≤ maxExponent then some x else none

/-- The number as a quotient. -/
def toQuotient (x : Binary64) : Nat × Nat := scaled x.significand 1 x.exponent

/-- The rounded product; none when it is too large. -/
def mul? (x y : Binary64) : Option Binary64 :=
  let (n, d) := scaled (x.significand * y.significand) 1 (x.exponent + y.exponent)
  round? n d

/-- The rounded quotient; none when it is too large or the divisor is zero. -/
def div? (x y : Binary64) : Option Binary64 :=
  if y.isZero then none
  else
    let (n, d) := scaled x.significand y.significand (x.exponent - y.exponent)
    round? n d

/-- The number nearest to a power of ten. -/
def powerOfTen? (k : Nat) : Option Binary64 := round? (Nat.pow 10 k) 1

/-- Digits and a power of ten: the number `digits * 10 ^ exponent`. -/
structure Decimal where
  digits : Nat
  exponent : Int
  deriving DecidableEq, Repr

/-- A decimal as a quotient. -/
def Decimal.toQuotient (d : Decimal) : Nat × Nat :=
  if 0 ≤ d.exponent then (d.digits * Nat.pow 10 d.exponent.toNat, 1)
  else (d.digits, Nat.pow 10 (-d.exponent).toNat)

/-- The number of decimal digits of a natural number, at least one. -/
def digitCount (n : Nat) : Nat := (Nat.toDigits 10 n).length

/-- The power of ten of the first digit of a positive quotient. -/
def leadingPower (num den : Nat) : Int :=
  if den ≤ num then Int.ofNat (digitCount (num / den)) - 1
  else
    -- the quotient `den / num` has `d` digits, so the power is `-d` or `1 - d`
    let d := digitCount (den / num)
    if den ≤ num * Nat.pow 10 (d - 1) then 1 - Int.ofNat d else -Int.ofNat d

/-- The two decimals of `n` digits next to a positive number that round to it, the nearer first. -/
def candidates (x : Binary64) (n : Nat) : List Decimal :=
  let (num, den) := x.toQuotient
  let e := leadingPower num den + 1 - Int.ofNat n
  let (a, b) :=
    if 0 ≤ e then (num, den * Nat.pow 10 e.toNat) else (num * Nat.pow 10 (-e).toNat, den)
  let q := a / b
  let near := nearest a b
  let far := if near = q then q + 1 else q
  let reads (d : Nat) : Bool :=
    let (dn, dd) := (Decimal.mk d e).toQuotient
    round? dn dd == some x
  ([near, far].filter reads).map (fun d => ⟨d, e⟩)

/-- The digits without the zeros at their end. -/
def stripZeros : (fuel : Nat) → Decimal → Decimal
  | 0, d => d
  | fuel + 1, d =>
    if d.digits % 10 = 0 ∧ d.digits ≠ 0 then stripZeros fuel ⟨d.digits / 10, d.exponent + 1⟩ else d

/-- The decimal with the fewest digits that rounds to a positive number, the nearest of those. -/
def shortest (x : Binary64) : Decimal :=
  match (List.range 17).findSome? (fun i => (candidates x (i + 1)).head?) with
  | some d => stripZeros 17 d
  | none => ⟨x.significand, 0⟩

/-- The text of a number: positional from `0.00001` up to sixteen digits before the point, with an
signed exponent beyond, and always with a point or an exponent. -/
def text (x : Binary64) : String :=
  if x.isZero then "0.0"
  else
    let d := x.shortest
    let ds := Nat.toDigits 10 d.digits
    let point : Int := Int.ofNat ds.length + d.exponent
    if 0 ≤ d.exponent ∧ point ≤ 16 then
      String.ofList (ds ++ List.replicate d.exponent.toNat '0' ++ ['.', '0'])
    else if 0 < point ∧ point ≤ 16 then
      String.ofList (ds.take point.toNat ++ '.' :: ds.drop point.toNat)
    else if -5 < point ∧ point ≤ 0 then
      String.ofList (['0', '.'] ++ List.replicate (-point).toNat '0' ++ ds)
    else
      let tail := match ds with
        | [c] => [c]
        | c :: cs => c :: '.' :: cs
        | [] => []
      String.ofList tail ++ (if 0 < point then "e+" else "e") ++ toString (point - 1)

end Binary64

end SnapshotKv
