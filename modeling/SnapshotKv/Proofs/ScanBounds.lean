import Mathlib.Data.Set.Basic
import SnapshotKv.Proofs.Listings

/-!
# The bounds of a search

A sorted map refuses a range whose bounds are inverted, or are one key excluded on both sides
(`Bound.Faulty`). The bounds of a cursor are cut from its position, its cap and its filter, and both
kinds of faulty bounds come about: a cap below the position, a position at the end of the filter. So
it matters that the bounds are exactly what the three allow together, and that a search asks for no
range before it knows that the bounds leave room.

Results:
1. `Bound.inOrder_eq_false_iff`: the bounds that a sorted map refuses.
2. `Cursor.between_bounds_iff`: a key lies between the bounds of a cursor when the position, the cap
   and the filter each leave it.
3. `VersionTree.nextVisible?_eq_some`, `WriteSet.nextEntry?_eq_some`: no search asks for a range that
   is refused.
4. `finds_nextVisible`, `finds_nextEntry`, `Cursor.finds_find`: a search answers the first record that
   it may answer, and nothing only when there is none.
5. `scanBounds_law`.
-/

namespace SnapshotKv

/-! ## 1. Refused ranges -/

namespace Bound

variable {κ α : Type} [LT κ]

/-- The key of a bound. -/
def key? : Bound κ → Option κ
  | .unbounded => none
  | .included key | .excluded key => some key

/-- The bounds that a sorted map refuses: the lower one above the upper one, or one key excluded on
both sides. -/
def Faulty (lower upper : Bound κ) : Prop :=
  (∃ lo hi, lower.key? = some lo ∧ upper.key? = some hi ∧ hi < lo) ∨
    ∃ key, lower = .excluded key ∧ upper = .excluded key

variable [DecidableLT κ] [KeyOrder κ] {lower upper : Bound κ}

theorem inOrder_eq_false_iff : lower.inOrder upper = false ↔ lower.Faulty upper := by
  cases lower <;> cases upper <;> simp [inOrder, Faulty, key?, KeyOrder.not_lt_iff]
  exact or_comm

theorem not_faulty_of_meets (h : lower.meets upper = true) : ¬ lower.Faulty upper := by
  rw [← inOrder_eq_false_iff, inOrder_of_meets h]
  exact Bool.noConfusion

end Bound

theorem SortedMap.range?_eq_none_iff {κ α : Type} [LT κ] [DecidableLT κ] [KeyOrder κ]
    (m : SortedMap κ α) (lower upper : Bound κ) :
    m.range? lower upper = none ↔ lower.Faulty upper := by
  rw [← Bound.inOrder_eq_false_iff, range?]
  cases lower.inOrder upper <;> simp

/-! ## 2. What the bounds of a cursor leave -/

theorem not_before_iff {κ : Type} [LT κ] [KeyOrder κ] (reverse : Bool) {a b : κ} :
    ¬ Before reverse a b ↔ a = b ∨ Before reverse b a := by
  cases reverse
  · exact KeyOrder.not_lt_iff.trans (or_congr_left eq_comm)
  · exact KeyOrder.not_lt_iff

/-- A key is still ahead of a position. -/
def Position.Ahead (reverse : Bool) (key : Bytes) : Position → Prop
  | .start => True
  | .upTo stop => key = stop ∨ Before reverse stop key
  | .past stop => Before reverse stop key

theorem Position.admits_iff {reverse : Bool} {p : Position} {key : Bytes} :
    p.admits reverse key = true ↔ p.Ahead reverse key := by
  cases p with
  | start => simp [Ahead]
  | upTo stop => simp [Ahead, not_before_iff]
  | past stop => simp [Ahead]

namespace Cursor

/-- The position and the cap each leave a key to the next search. -/
structure Leaves (c : Cursor) (key : Bytes) : Prop where
  position : c.position.Ahead c.reverse key
  cap : ∀ last, c.cap = some last → key = last ∨ key < last

/-- The position, the cap and, on the bounded path, the range of the filter each leave a key to the
next search. -/
structure Reaches (c : Cursor) (key : Bytes) : Prop extends Leaves c key where
  filter : c.path = .bounded → (c.filter = key ∨ c.filter < key) ∧
    ∀ next, c.filter.successor? = some next → key < next

theorem admits_iff {c : Cursor} {key : Bytes} : c.admits key = true ↔ c.Leaves key := by
  have hcap : (c.cap.all fun last => !decide (last < key)) = true ↔
      ∀ last, c.cap = some last → key = last ∨ key < last := by
    simp [Option.all_eq_true, KeyOrder.not_lt_iff]
  rw [admits, Bool.and_eq_true, Position.admits_iff, hcap]
  exact ⟨fun h => ⟨h.1, h.2⟩, fun h => ⟨h.position, h.cap⟩⟩

theorem between_bounds_iff {c : Cursor} {key : Bytes} :
    c.bounds.1.between c.bounds.2 key = true ↔ c.Reaches key := by
  have hfilter : (c.path == .full || c.filter.isPrefixOf key) = true ↔ (c.path = .bounded →
      (c.filter = key ∨ c.filter < key) ∧ ∀ next, c.filter.successor? = some next → key < next) := by
    rw [← KeyOrder.not_lt_iff, ← PrefixLemmas.isPrefixOf_iff]
    cases c.path <;> simp
  rw [between_bounds, Bool.and_eq_true, admits_iff, hfilter]
  exact ⟨fun h => ⟨h.1, h.2⟩, fun h => ⟨h.toLeaves, h.filter⟩⟩

end Cursor

/-! ## 3. Searches that always answer -/

theorem VersionTree.nextVisible?_eq_some (t : VersionTree) (lower upper : Bound Bytes)
    (reverse : Bool) (view : Nat) (accept : Bytes → Bool) :
    t.nextVisible? lower upper reverse view accept =
      some (t.nextVisible lower upper reverse view accept) := by
  rw [nextVisible_eq, nextVisible?_eq]

theorem WriteSet.nextEntry?_eq_some (w : WriteSet) (lower upper : Bound Bytes) (reverse : Bool)
    (accept : Bytes → Bool) :
    w.nextEntry? lower upper reverse accept = some (w.nextEntry lower upper reverse accept) := by
  rw [nextEntry_eq, nextEntry?_eq]

/-! ## 4. What a search finds -/

/-- An answer is the first of some records in scan order, and none exactly when there are none. -/
def Finds (reverse : Bool) (records : Set (Bytes × Bytes)) : Option (Bytes × Bytes) → Prop
  | none => records = ∅
  | some e => e ∈ records ∧ ∀ e' ∈ records, e' = e ∨ Before reverse e.1 e'.1

/-- There is at most one such answer. -/
theorem Finds.unique {reverse : Bool} {records : Set (Bytes × Bytes)}
    {answer answer' : Option (Bytes × Bytes)} (h : Finds reverse records answer)
    (h' : Finds reverse records answer') : answer = answer' := by
  cases answer with
  | none =>
    cases answer' with
    | none => rfl
    | some e' => exact absurd (h ▸ h'.1) (Set.notMem_empty e')
  | some e =>
    cases answer' with
    | none => exact absurd (h' ▸ h.1) (Set.notMem_empty e)
    | some e' =>
      rcases h.2 e' h'.1 with heq | hlt
      · exact congrArg some heq.symm
      · rcases h'.2 e h.1 with heq | hgt
        · exact congrArg some heq
        · exact absurd (before_trans hlt hgt) (before_irrefl _ _)

theorem Finds.eq_iff {reverse : Bool} {records : Set (Bytes × Bytes)}
    {answer answer' : Option (Bytes × Bytes)} (h : Finds reverse records answer) :
    answer = answer' ↔ Finds reverse records answer' :=
  ⟨fun heq => heq ▸ h, h.unique⟩

/-- The head of a listing in scan order is the first of its members. -/
theorem finds_head? {reverse : Bool} {l : List (Bytes × Bytes)}
    (h : ListingLemmas.Ordered reverse l) : Finds reverse {e | e ∈ l} l.head? := by
  cases hl : l.head? with
  | none =>
    rw [List.head?_eq_none_iff] at hl
    subst hl
    exact Set.eq_empty_of_forall_notMem fun _ => List.not_mem_nil
  | some e => exact ⟨List.mem_of_mem_head? hl, fun _ he' => ListingLemmas.before_of_head? h hl he'⟩

/-- The records of a tree that a search may answer. -/
def VersionTree.eligible (t : VersionTree) (lower upper : Bound Bytes) (view : Nat)
    (accept : Bytes → Bool) : Set (Bytes × Bytes) :=
  {e | t.get e.1 view = some e.2 ∧ lower.between upper e.1 = true ∧ accept e.1 = true}

/-- The puts of a write set that a search may answer. -/
def WriteSet.eligible (w : WriteSet) (lower upper : Bound Bytes) (accept : Bytes → Bool) :
    Set (Bytes × Bytes) :=
  {e | w.entries.get? e.1 = some (some e.2) ∧ lower.between upper e.1 = true ∧ accept e.1 = true}

section Searches

variable (lower upper : Bound Bytes) (reverse : Bool) (accept : Bytes → Bool)

/-- A search among the records of a map. -/
theorem finds_entries (m : SortedMap Bytes Bytes) :
    Finds reverse
      {e | m.get? e.1 = some e.2 ∧ lower.between upper e.1 = true ∧ accept e.1 = true}
      ((inScanOrder reverse m.entries).filter
        fun e => lower.between upper e.1 && accept e.1).head? := by
  have hfinds := finds_head?
    ((pairwise_inScanOrder reverse m.sorted).filter fun e => lower.between upper e.1 && accept e.1)
  simpa only [List.mem_filter, mem_inScanOrder, m.mem_entries_iff, Bool.and_eq_true] using hfinds

theorem finds_nextVisible (t : VersionTree) (view : Nat) :
    Finds reverse (t.eligible lower upper view accept)
      (t.nextVisible lower upper reverse view accept) := by
  have hfinds := finds_entries lower upper reverse accept (t.contents view)
  simp only [VersionTree.get?_contents] at hfinds
  exact t.nextVisible_eq lower upper reverse view accept ▸ hfinds

theorem finds_nextEntry (w : WriteSet) :
    Finds reverse (w.eligible lower upper accept) (w.nextEntry lower upper reverse accept) := by
  have hfinds := finds_entries lower upper reverse accept w.puts
  simp only [WriteSet.get?_puts, Option.join_eq_some_iff] at hfinds
  exact w.nextEntry_eq lower upper reverse accept ▸ hfinds

end Searches

/-- A search of a cursor answers the first record, of those that its view sees under its writes, that
has the filter and that the position and the cap leave. -/
theorem Cursor.finds_find (c : Cursor) (tree : VersionTree) :
    Finds c.reverse
      {e | (c.contents tree).get? e.1 = some e.2 ∧ c.filter.isPrefixOf e.1 = true ∧ c.Leaves e.1}
      (c.find tree) := by
  have hfinds := finds_head? ((c.ordered_listing tree).filter fun e => c.admits e.1)
  have hrecords : {e | e ∈ (c.listing tree).filter fun e => c.admits e.1} =
      {e | (c.contents tree).get? e.1 = some e.2 ∧ c.filter.isPrefixOf e.1 = true ∧
        c.Leaves e.1} := by
    ext ⟨key, v⟩
    simp only [List.mem_filter, mem_listing_iff, admits_iff, and_assoc, Set.mem_ofPred_eq]
  exact c.find_eq tree ▸ hrecords ▸ hfinds

/-! ## 5. The law -/

/-- What the bounds of a cursor are, and what its searches then find. -/
structure CursorBoundsLaw (c : Cursor) : Prop where
  /-- The bounds leave a key exactly when the position, the cap and, on the bounded path, the range
  of the filter each do. -/
  exact : ∀ key, c.bounds.1.between c.bounds.2 key = true ↔ c.Reaches key
  /-- On the bounded path they leave only keys with the filter. -/
  filtered : c.path = .bounded → ∀ key, c.bounds.1.between c.bounds.2 key = true →
    c.filter.isPrefixOf key = true
  /-- On both paths the search over the tree and the writes misses no record. -/
  find : ∀ (tree : VersionTree) (answer : Option (Bytes × Bytes)),
    c.find tree = answer ↔ Finds c.reverse
      {e | (c.contents tree).get? e.1 = some e.2 ∧ c.filter.isPrefixOf e.1 = true ∧ c.Leaves e.1}
      answer

/-- What searches do between any two bounds. -/
structure SearchLaw (lower upper : Bound Bytes) (reverse : Bool) : Prop where
  /-- A map refuses the range exactly when the bounds are faulty. -/
  refused : ∀ (α : Type) (m : SortedMap Bytes α),
    m.range? lower upper = none ↔ lower.Faulty upper
  /-- The test before a search lets no faulty bounds through. -/
  guarded : lower.meets upper = true → ¬ lower.Faulty upper
  /-- Where it stops a search, no key lies between the bounds. -/
  roomless : lower.meets upper = false → ∀ key, lower.between upper key = false
  /-- A search in a tree meets no refused range. -/
  tree_answers : ∀ (t : VersionTree) (view : Nat) (accept : Bytes → Bool),
    t.nextVisible? lower upper reverse view accept =
      some (t.nextVisible lower upper reverse view accept)
  /-- It finds the first accepted record between the bounds that the view sees, and nothing only when
  there is none. -/
  tree_finds : ∀ (t : VersionTree) (view : Nat) (accept : Bytes → Bool)
    (answer : Option (Bytes × Bytes)),
    t.nextVisible lower upper reverse view accept = answer ↔
      Finds reverse (t.eligible lower upper view accept) answer
  /-- A search in a write set meets no refused range. -/
  writes_answer : ∀ (w : WriteSet) (accept : Bytes → Bool),
    w.nextEntry? lower upper reverse accept = some (w.nextEntry lower upper reverse accept)
  /-- It finds the first accepted put between the bounds, and nothing only when there is none. -/
  writes_find : ∀ (w : WriteSet) (accept : Bytes → Bool) (answer : Option (Bytes × Bytes)),
    w.nextEntry lower upper reverse accept = answer ↔
      Finds reverse (w.eligible lower upper accept) answer

theorem cursorBoundsLaw (c : Cursor) : CursorBoundsLaw c where
  exact _ := Cursor.between_bounds_iff
  filtered hpath key hbetween := by
    obtain ⟨hle, hnext⟩ := (Cursor.between_bounds_iff.1 hbetween).filter hpath
    exact (PrefixLemmas.isPrefixOf_iff _ _).2 ⟨KeyOrder.not_lt_iff.2 hle, hnext⟩
  find tree _ := (c.finds_find tree).eq_iff

theorem searchLaw (lower upper : Bound Bytes) (reverse : Bool) : SearchLaw lower upper reverse where
  refused _ m := m.range?_eq_none_iff lower upper
  guarded := Bound.not_faulty_of_meets
  roomless := Bound.between_of_not_meets
  tree_answers t := t.nextVisible?_eq_some lower upper reverse
  tree_finds t view accept _ := (finds_nextVisible lower upper reverse accept t view).eq_iff
  writes_answer w := w.nextEntry?_eq_some lower upper reverse
  writes_find w accept _ := (finds_nextEntry lower upper reverse accept w).eq_iff

/-- For every state of a cursor, and for every pair of bounds that a search may be given. -/
theorem scanBounds_law :
    (∀ c : Cursor, CursorBoundsLaw c) ∧
      ∀ (lower upper : Bound Bytes) (reverse : Bool), SearchLaw lower upper reverse :=
  ⟨cursorBoundsLaw, searchLaw⟩

-- a cap below the position: the bounds are inverted, and a map would refuse them
example : (Cursor.bounds
    { cell := 0, view := 0, filter := [97], reverse := false, path := .bounded, overlay := none,
      position := .upTo [97, 5], cap := some [97, 3] }) = (.included [97, 5], .included [97, 3]) := by
  decide

end SnapshotKv
