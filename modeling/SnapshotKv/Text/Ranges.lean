/-!
# Ranges of characters

Classes of characters that a standard gives as a table: the ranges of their code points, both ends
included, in ascending order.
-/

namespace SnapshotKv.Text

/-- Whether a code point lies in one of some ranges in ascending order. -/
def inRanges : List (Nat × Nat) → Nat → Bool
  | [], _ => false
  | (first, last) :: rest, n => first ≤ n && (n ≤ last || inRanges rest n)

end SnapshotKv.Text
