import SnapshotKv.SortedMap

/-!
# Bounds of a key range

A scan is limited from below and from above by a `Bound` each. A sorted map can only be asked for a
range whose bounds are in order (`Bound.inOrder`); `SortedMap.range?` has no answer otherwise.
`Bound.meets` is the test that callers make first. It is stricter, since it also turns away equal
bounds of which one is exclusive: nothing lies between those (`Bound.inOrder_of_meets`).
-/

namespace SnapshotKv

/-- One end of a key range. -/
inductive Bound (κ : Type) where
  /-- No limit on this side. -/
  | unbounded
  /-- The key itself is still inside. -/
  | included (key : κ)
  /-- The key itself is outside. -/
  | excluded (key : κ)
  deriving DecidableEq, Repr

namespace Bound

variable {κ α : Type} [LT κ] [DecidableLT κ]

/-- Whether a key lies on the inner side of a lower bound. -/
def allowsAbove : Bound κ → κ → Bool
  | .unbounded, _ => true
  | .included b, k => !decide (k < b)
  | .excluded b, k => decide (b < k)

/-- Whether a key lies on the inner side of an upper bound. -/
def allowsBelow : Bound κ → κ → Bool
  | .unbounded, _ => true
  | .included b, k => !decide (b < k)
  | .excluded b, k => decide (k < b)

/-- Whether a key lies between two bounds. -/
def between (lower upper : Bound κ) (k : κ) : Bool := lower.allowsAbove k && upper.allowsBelow k

/-- What a sorted map needs of the bounds of a range: the lower one is not above the upper one, and
they are not the same key excluded twice. -/
def inOrder : (lower upper : Bound κ) → Bool
  | .unbounded, _ | _, .unbounded => true
  | .excluded lo, .excluded hi => decide (lo < hi)
  | .included lo, .included hi | .included lo, .excluded hi | .excluded lo, .included hi =>
    !decide (hi < lo)

/-- Whether two bounds leave room for a key between them, as far as their own order tells. -/
def meets : (lower upper : Bound κ) → Bool
  | .unbounded, _ | _, .unbounded => true
  | .included lo, .included hi => !decide (hi < lo)
  | .included lo, .excluded hi | .excluded lo, .included hi | .excluded lo, .excluded hi =>
    decide (lo < hi)

/-- The stricter of two lower bounds: the greater key, and of equal keys the excluded one. -/
def tighterLower (current other : Bound κ) : Bound κ :=
  match current, other with
  | .unbounded, _ => other
  | _, .unbounded => current
  | .included a, .included b | .excluded a, .included b => if a < b then other else current
  | .included a, .excluded b | .excluded a, .excluded b => if b < a then current else other

/-- The stricter of two upper bounds: the smaller key, and of equal keys the excluded one. -/
def tighterUpper (current other : Bound κ) : Bound κ :=
  match current, other with
  | .unbounded, _ => other
  | _, .unbounded => current
  | .included a, .included b | .excluded a, .included b => if b < a then other else current
  | .included a, .excluded b | .excluded a, .excluded b => if a < b then current else other

/-- Bounds that leave room are in order, so a range with them has an answer. -/
theorem inOrder_of_meets [KeyOrder κ] {lower upper : Bound κ}
    (h : lower.meets upper = true) : lower.inOrder upper = true := by
  cases lower <;> cases upper <;> simp_all [meets, inOrder] <;>
    exact fun h' => KeyOrder.irrefl _ (KeyOrder.trans _ _ _ h h')

end Bound

namespace SortedMap

variable {κ α : Type} [LT κ] [DecidableLT κ]

/-- The entries between two bounds in ascending order; no answer when the bounds are not in
order. -/
def range? (m : SortedMap κ α) (lower upper : Bound κ) : Option (List (κ × α)) :=
  if lower.inOrder upper then some (m.entries.filter (fun e => lower.between upper e.1)) else none

/-- The first entry between two bounds that `pick` takes, in ascending order or, when `reverse`, in
descending order. Bounds that leave no room hold nothing, and no range is asked for; no answer when a
range is asked for and the map refuses it. -/
def searchBetween? {β : Type} (m : SortedMap κ α) (lower upper : Bound κ) (reverse : Bool)
    (pick : κ → α → Option β) : Option (Option β) :=
  if lower.meets upper then
    (m.range? lower upper).map fun es =>
      (if reverse then es.reverse else es).findSome? (fun e => pick e.1 e.2)
  else some none

end SortedMap

end SnapshotKv
