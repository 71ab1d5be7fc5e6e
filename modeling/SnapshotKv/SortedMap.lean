import SnapshotKv.KeyOrder

/-!
# Finite maps in key order

A `SortedMap κ α` lists its entries in strictly ascending key order, and carries the proof. So a
map has one listing, and a scan of it needs no sorting. The view of a map is `SortedMap.get?`:
`get?_insert`, `get?_erase` and `get?_empty` say what each operation does to it.
-/

namespace SnapshotKv

/-- A finite map whose entries are listed in strictly ascending key order. -/
structure SortedMap (κ : Type) (α : Type) [LT κ] where
  entries : List (κ × α)
  sorted : entries.Pairwise (fun a b => a.1 < b.1)

namespace SortedMap

variable {κ α β : Type} [LT κ]

/-- The map without entries. -/
def empty : SortedMap κ α := ⟨[], .nil⟩

instance : Inhabited (SortedMap κ α) := ⟨empty⟩

/-- The number of entries. -/
def size (m : SortedMap κ α) : Nat := m.entries.length

/-- The keys in ascending order. -/
def keys (m : SortedMap κ α) : List κ := m.entries.map (·.1)

/-- The values in the order of their keys. -/
def values (m : SortedMap κ α) : List α := m.entries.map (·.2)

/-- The value of a key. -/
def get? [BEq κ] (m : SortedMap κ α) (k : κ) : Option α := m.entries.lookup k

/-- Whether the map has an entry for the key. -/
def contains [BEq κ] (m : SortedMap κ α) (k : κ) : Bool := (m.get? k).isSome

/-- The entries that satisfy a test. -/
def filter (m : SortedMap κ α) (p : κ → α → Bool) : SortedMap κ α :=
  ⟨m.entries.filter (fun e => p e.1 e.2), m.sorted.filter _⟩

/-- The map without the entry of a key. -/
def erase [BEq κ] (m : SortedMap κ α) (k : κ) : SortedMap κ α := m.filter (fun k' _ => !k' == k)

/-- Each value replaced by what `f` makes of it; entries for which `f` answers `none` go. -/
def filterMap (m : SortedMap κ α) (f : κ → α → Option β) : SortedMap κ β :=
  ⟨m.entries.filterMap (fun e => (f e.1 e.2).map (fun v => (e.1, v))), by
    refine List.Pairwise.filterMap _ ?_ m.sorted
    intro a a' h b hb b' hb'
    simp only [Option.map_eq_some_iff] at hb hb'
    obtain ⟨_, _, rfl⟩ := hb
    obtain ⟨_, _, rfl⟩ := hb'
    exact h⟩

section Insert

variable [DecidableLT κ]

/-- Puts an entry at its place in an ascending list, replacing one of the same key. -/
def insertEntry (k : κ) (v : α) : List (κ × α) → List (κ × α)
  | [] => [(k, v)]
  | e :: rest =>
    if k < e.1 then (k, v) :: e :: rest
    else if e.1 < k then e :: insertEntry k v rest
    else (k, v) :: rest

theorem mem_insertEntry {k : κ} {v : α} {l : List (κ × α)} {e : κ × α}
    (h : e ∈ insertEntry k v l) : e = (k, v) ∨ e ∈ l := by
  induction l with
  | nil => simpa [insertEntry] using h
  | cons x rest ih =>
    simp only [insertEntry] at h
    split at h
    · simpa using h
    · split at h
      · rcases List.mem_cons.1 h with rfl | h
        · simp
        · rcases ih h with h | h
          · exact .inl h
          · exact .inr (List.mem_cons_of_mem _ h)
      · rcases List.mem_cons.1 h with rfl | h
        · simp
        · exact .inr (List.mem_cons_of_mem _ h)

variable [KeyOrder κ]

theorem sorted_insertEntry (k : κ) (v : α) (l : List (κ × α))
    (h : l.Pairwise (fun a b => a.1 < b.1)) :
    (insertEntry k v l).Pairwise (fun a b => a.1 < b.1) := by
  induction l with
  | nil => simp [insertEntry]
  | cons x rest ih =>
    obtain ⟨hx, hr⟩ := List.pairwise_cons.1 h
    simp only [insertEntry]
    split
    · rename_i hk
      refine List.pairwise_cons.2 ⟨?_, h⟩
      intro e he
      rcases List.mem_cons.1 he with rfl | he
      · exact hk
      · exact KeyOrder.trans _ _ _ hk (hx e he)
    · rename_i hk
      split
      · rename_i hx'
        refine List.pairwise_cons.2 ⟨?_, ih hr⟩
        intro e he
        rcases mem_insertEntry he with rfl | he
        · exact hx'
        · exact hx e he
      · rename_i hx'
        have heq : k = x.1 := by
          rcases KeyOrder.connected k x.1 with h | h | h
          · exact absurd h hk
          · exact h
          · exact absurd h hx'
        refine List.pairwise_cons.2 ⟨?_, hr⟩
        intro e he
        simpa [heq] using hx e he

/-- The map with `k` bound to `v`, whatever it was bound to before. -/
def insert (m : SortedMap κ α) (k : κ) (v : α) : SortedMap κ α :=
  ⟨insertEntry k v m.entries, sorted_insertEntry k v m.entries m.sorted⟩

/-- The map that binds each key of a list to the last value it has there. -/
def ofList (l : List (κ × α)) : SortedMap κ α := l.foldl (fun m e => m.insert e.1 e.2) empty

theorem lookup_insertEntry [BEq κ] [LawfulBEq κ] (k k' : κ) (v : α) (l : List (κ × α))
    (h : l.Pairwise (fun a b => a.1 < b.1)) :
    (insertEntry k v l).lookup k' = if k' == k then some v else l.lookup k' := by
  induction l with
  | nil => simp only [insertEntry, List.lookup_cons, List.lookup_nil]; cases hk : k' == k <;> simp
  | cons x rest ih =>
    obtain ⟨hx, hr⟩ := List.pairwise_cons.1 h
    obtain ⟨kx, vx⟩ := x
    simp only [insertEntry]
    split
    · simp only [List.lookup_cons]
      cases hk : k' == k <;> simp
    · rename_i hk
      split
      · rename_i hx'
        simp only [List.lookup_cons, ih hr]
        cases hkx : k' == kx with
        | false => simp
        | true =>
          have e : k' = kx := eq_of_beq hkx
          have : (k' == k) = false := by
            rw [beq_eq_false_iff_ne, e]
            exact fun h => KeyOrder.irrefl k (h ▸ hx')
          simp [this]
      · rename_i hx'
        have heq : k = kx := by
          rcases KeyOrder.connected k kx with h | h | h
          · exact absurd h hk
          · exact h
          · exact absurd h hx'
        subst heq
        simp only [List.lookup_cons]
        cases hk : k' == k <;> simp

@[simp] theorem get?_insert [BEq κ] [LawfulBEq κ] (m : SortedMap κ α) (k k' : κ) (v : α) :
    (m.insert k v).get? k' = if k' == k then some v else m.get? k' :=
  lookup_insertEntry k k' v m.entries m.sorted

end Insert

@[simp] theorem get?_empty [BEq κ] (k : κ) : (empty : SortedMap κ α).get? k = none := rfl

omit [LT κ] in
theorem lookup_filter_ne [BEq κ] [LawfulBEq κ] (l : List (κ × α)) (k k' : κ) :
    (l.filter (fun e => !e.1 == k)).lookup k' = if k' == k then none else l.lookup k' := by
  induction l with
  | nil => simp
  | cons e rest ih =>
    obtain ⟨ke, ve⟩ := e
    simp only [List.filter_cons, List.lookup_cons]
    by_cases hk : ke = k
    · subst hk
      simp only [BEq.rfl, Bool.not_true, Bool.false_eq_true, ↓reduceIte, ih]
      cases h : k' == ke <;> simp
    · have : (ke == k) = false := beq_eq_false_iff_ne.2 hk
      simp only [this, Bool.not_false, ↓reduceIte, List.lookup_cons, ih]
      cases h : k' == ke with
      | false => simp
      | true =>
        have e : k' = ke := eq_of_beq h
        subst e
        simp [this]

@[simp] theorem get?_erase [BEq κ] [LawfulBEq κ] (m : SortedMap κ α) (k k' : κ) :
    (m.erase k).get? k' = if k' == k then none else m.get? k' :=
  lookup_filter_ne m.entries k k'

end SortedMap

end SnapshotKv
