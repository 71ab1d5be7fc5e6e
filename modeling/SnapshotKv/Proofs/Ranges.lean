import Mathlib.Data.List.Basic
import SnapshotKv.Proofs.Containers
import SnapshotKv.WriteSet

/-!
# Ranges in scan order

A scan runs over a range of a sorted map, upwards or downwards. Tightening a bound intersects what
it allows, and bounds that do not meet allow nothing. So a search between two bounds is a search in
the listing of the map, whatever the bounds are.

Results:
1. `Bound.allowsAbove_tighterLower`, `Bound.allowsBelow_tighterUpper`, `Bound.between_of_not_meets`.
2. `pairwise_inScanOrder`: a listing in scan order has each key before the later ones.
3. `SortedMap.searchBetween?_eq`: a search between bounds; `VersionTree.nextVisible?_eq` and
   `WriteSet.nextEntry?_eq`: the two searches of a cursor. None asks for a range that is refused.
-/

namespace SnapshotKv

/-! ## 1. Bounds -/

namespace Bound

variable {κ : Type} [LT κ] [DecidableLT κ] [KeyOrder κ]

/-- The stricter of two lower bounds allows what both allow. -/
theorem allowsAbove_tighterLower (a b : Bound κ) (k : κ) :
    (a.tighterLower b).allowsAbove k = (a.allowsAbove k && b.allowsAbove k) := by
  have htrans := KeyOrder.trans (κ := κ)
  have hconnected := KeyOrder.connected (κ := κ)
  cases a <;> cases b <;> grind [tighterLower, allowsAbove]

/-- The stricter of two upper bounds allows what both allow. -/
theorem allowsBelow_tighterUpper (a b : Bound κ) (k : κ) :
    (a.tighterUpper b).allowsBelow k = (a.allowsBelow k && b.allowsBelow k) := by
  have htrans := KeyOrder.trans (κ := κ)
  have hconnected := KeyOrder.connected (κ := κ)
  cases a <;> cases b <;> grind [tighterUpper, allowsBelow]

/-- Nothing lies between bounds that leave no room. -/
theorem between_of_not_meets {lower upper : Bound κ} (h : lower.meets upper = false) (k : κ) :
    lower.between upper k = false := by
  have hirrefl := KeyOrder.irrefl (κ := κ)
  have htrans := KeyOrder.trans (κ := κ)
  have hconnected := KeyOrder.connected (κ := κ)
  cases lower <;> cases upper <;> grind [meets, between, allowsAbove, allowsBelow]

end Bound

/-! ## 2. Scan order -/

/-- A listing in the order in which a scan meets it. -/
def inScanOrder {α : Type} (reverse : Bool) (l : List α) : List α :=
  if reverse then l.reverse else l

/-- A scan meets one key before another. -/
def Before {κ : Type} [LT κ] (reverse : Bool) (a b : κ) : Prop := if reverse then b < a else a < b

section ScanOrder

variable {κ α : Type} [LT κ]

instance [DecidableLT κ] (reverse : Bool) (a b : κ) : Decidable (Before reverse a b) :=
  inferInstanceAs (Decidable (if reverse then b < a else a < b))

@[simp] theorem mem_inScanOrder {reverse : Bool} {l : List α} {a : α} :
    a ∈ inScanOrder reverse l ↔ a ∈ l := by
  cases reverse
  · exact Iff.rfl
  · exact List.mem_reverse

theorem filter_inScanOrder (reverse : Bool) (l : List α) (p : α → Bool) :
    (inScanOrder reverse l).filter p = inScanOrder reverse (l.filter p) := by
  cases reverse
  · rfl
  · exact List.filter_reverse

theorem pairwise_inScanOrder (reverse : Bool) {l : List (κ × α)}
    (h : l.Pairwise fun a b => a.1 < b.1) :
    (inScanOrder reverse l).Pairwise fun a b => Before reverse a.1 b.1 := by
  cases reverse
  · exact h
  · exact List.pairwise_reverse.2 h

variable [KeyOrder κ]

theorem before_irrefl (reverse : Bool) (a : κ) : ¬ Before reverse a a := by
  cases reverse <;> exact KeyOrder.irrefl a

theorem before_trans {reverse : Bool} {a b c : κ} (h : Before reverse a b)
    (h' : Before reverse b c) : Before reverse a c := by
  cases reverse
  · exact KeyOrder.trans a b c h h'
  · exact KeyOrder.trans c b a h' h

end ScanOrder

/-! ## 3. Searches -/

theorem findSome?_guard {α β : Type} (p : α → Bool) (f : α → Option β) (l : List α) :
    l.findSome? (fun a => if p a then f a else none) = ((l.filter p).filterMap f).head? := by
  induction l with
  | nil => rfl
  | cons a l ih =>
    by_cases hp : p a = true
    · cases hf : f a with
      | none => simp [hp, hf, ih]
      | some b => simp [hp, hf]
    · simp [hp, ih]

/-- A search between bounds has an answer: the first entry in scan order, of those that have a value,
that lies between them and is accepted. -/
theorem SortedMap.searchBetween?_eq {κ α β : Type} [LT κ] [DecidableLT κ] [KeyOrder κ]
    (m : SortedMap κ α) (lower upper : Bound κ) (reverse : Bool) (accept : κ → Bool)
    (value : κ → α → Option β) :
    m.searchBetween? lower upper reverse
        (fun k a => if accept k then (value k a).map fun b => (k, b) else none) =
      some ((inScanOrder reverse (m.filterMap value).entries).filter
        fun e => lower.between upper e.1 && accept e.1).head? := by
  unfold searchBetween?
  split
  · next hmeets =>
    have hvalues : ((m.filterMap value).entries.filter
        fun e => lower.between upper e.1 && accept e.1) =
        ((m.entries.filter fun e => lower.between upper e.1).filter fun e => accept e.1).filterMap
          fun e => (value e.1 e.2).map fun b => (e.1, b) := by
      rw [List.filter_filter, SortedMap.filterMap, List.filter_filterMap, List.filterMap_filter]
      apply List.filterMap_congr
      rintro ⟨k, a⟩ -
      cases value k a with
      | none => simp
      | some b => simp [Option.filter, Bool.and_comm]
    simp only [range?, Bound.inOrder_of_meets hmeets, ↓reduceIte, Option.map_some, findSome?_guard]
    rw [filter_inScanOrder, hvalues]
    cases reverse
    · rfl
    · simp only [inScanOrder, ↓reduceIte, List.filter_reverse, List.filterMap_reverse]
  · next hmeets =>
    have hnone := Bound.between_of_not_meets (Bool.eq_false_iff.2 hmeets)
    simp only [hnone, Bool.false_and, List.filter_false, List.head?_nil]

/-- The records that a view sees, as a map. -/
def VersionTree.contents (t : VersionTree) (view : Nat) : SortedMap Bytes Bytes :=
  t.versions.filterMap fun key vs => t.visible key vs view

theorem VersionTree.get?_contents (t : VersionTree) (view : Nat) (key : Bytes) :
    (t.contents view).get? key = t.get key view := by
  unfold contents get versionsOf
  rw [SortedMap.get?_filterMap]
  cases t.versions.get? key <;> rfl

/-- A search in a tree is a search in the records that its view sees. -/
theorem VersionTree.nextVisible?_eq (t : VersionTree) (lower upper : Bound Bytes) (reverse : Bool)
    (view : Nat) (accept : Bytes → Bool) :
    t.nextVisible? lower upper reverse view accept =
      some ((inScanOrder reverse (t.contents view).entries).filter
        fun e => lower.between upper e.1 && accept e.1).head? :=
  t.versions.searchBetween?_eq lower upper reverse accept _

theorem VersionTree.nextVisible_eq (t : VersionTree) (lower upper : Bound Bytes) (reverse : Bool)
    (view : Nat) (accept : Bytes → Bool) :
    t.nextVisible lower upper reverse view accept =
      ((inScanOrder reverse (t.contents view).entries).filter
        fun e => lower.between upper e.1 && accept e.1).head? := by
  rw [nextVisible, nextVisible?_eq, Option.join_some]

/-- What a write set puts, as a map. -/
def WriteSet.puts (w : WriteSet) : SortedMap Bytes Bytes := w.entries.filterMap fun _ value => value

/-- A search in a write set is a search in what it puts. -/
theorem WriteSet.nextEntry?_eq (w : WriteSet) (lower upper : Bound Bytes) (reverse : Bool)
    (accept : Bytes → Bool) :
    w.nextEntry? lower upper reverse accept =
      some ((inScanOrder reverse w.puts.entries).filter
        fun e => lower.between upper e.1 && accept e.1).head? := by
  rw [puts, ← w.entries.searchBetween?_eq, nextEntry?]
  congr 1
  funext key value
  cases value with
  | none => simp
  | some v => rfl

theorem WriteSet.nextEntry_eq (w : WriteSet) (lower upper : Bound Bytes) (reverse : Bool)
    (accept : Bytes → Bool) :
    w.nextEntry lower upper reverse accept =
      ((inScanOrder reverse w.puts.entries).filter
        fun e => lower.between upper e.1 && accept e.1).head? := by
  rw [nextEntry, nextEntry?_eq, Option.join_some]

end SnapshotKv
