import SnapshotKv.Proofs.Steps

/-!
# Changes of contents

Writes, commits and compaction change the contents of stores and nothing else about them. The
`Store.frame` of a store is what they leave alone.

Results:
1. `frame_modify`, `frame_compact`: the frames stay.
2. `publish_lands`, `publish_eq`, `publish_spec`: a commit applies to each store that can be found what
   the cycle wrote to it.
3. `Database.Opened.attached`: what stores a database has when it was just opened.
-/

namespace SnapshotKv

open Database

/-- What stays of a store when its contents change. -/
def Store.frame (s : Store) : Store := { s with tree := {}, dirty := false }

/-! ## 1. Frames -/

namespace ContentsLemmas

theorem id_of_frame {s s' : Store} (h : s'.frame = s.frame) : s'.id = s.id := by
  show s'.frame.id = s.frame.id
  rw [h]

theorem isOpen_of_frame {s s' : Store} (h : s'.frame = s.frame) : s'.isOpen = s.isOpen := by
  show s'.frame.isOpen = s.frame.isOpen
  rw [h]

theorem nextId_of_frame {p p' : Pool Store} (hf : p'.map Store.frame = p.map Store.frame) :
    p'.nextId = p.nextId := by
  rw [← Pool.nextId_map p' Store.frame, hf, Pool.nextId_map]

theorem get?_modifyStore (db : Database) (cell i : Nat) (f : Store → Store) :
    (db.modifyStore cell f).cells.get? i =
      if cell = i then (db.cells.get? i).map f else db.cells.get? i := Pool.get?_modify _ _ _ _

theorem tree_of_modify {p : Pool Store} {cell i : Nat} {f : Store → Store} {s' : Store}
    (hf : ∀ s, (f s).tree = s.tree) (h : (p.modify cell f).get? i = some s') :
    ∃ s, p.get? i = some s ∧ s'.tree = s.tree := by
  rw [Pool.get?_modify] at h
  split at h
  · obtain ⟨s, hs, rfl⟩ := Option.map_eq_some_iff.1 h
    exact ⟨s, hs, hf s⟩
  · exact ⟨s', h, rfl⟩

theorem frame_modify (p : Pool Store) (i : Nat) {f : Store → Store}
    (h : ∀ s, (f s).frame = s.frame) : (p.modify i f).map Store.frame = p.map Store.frame :=
  Pool.map_modify_of_eq p i h

theorem frame_applySingle (db : Database) (cell : Nat)
    (change : VersionTree → Nat → VersionTree) :
    (db.applySingle cell change).cells.map Store.frame = db.cells.map Store.frame :=
  Pool.map_modify_of_eq db.cells cell
    (g := fun s => { s with tree := change s.tree (db.published + 1), dirty := true }) fun _ => rfl

/-- Compaction leaves all that does not depend on the trees. -/
theorem map_compact {β : Type} {f : Store → β} (hf : ∀ (s : Store) tree, f { s with tree } = f s)
    (horizon : Nat) (cells : List Nat) (acc : Nat × Pool Store) :
    (cells.foldl (pruneCell horizon) acc).2.map f = acc.2.map f := by
  induction cells generalizing acc with
  | nil => rfl
  | cons cell rest ih =>
    rw [List.foldl_cons, ih, pruneCell]
    split
    · exact Pool.map_modify_of_eq acc.2 cell fun s => hf s _
    · rfl

theorem frame_compact (horizon : Nat) (cells : List Nat) (acc : Nat × Pool Store) :
    (cells.foldl (pruneCell horizon) acc).2.map Store.frame = acc.2.map Store.frame :=
  map_compact (fun _ _ => rfl) horizon cells acc

/-- Compaction prunes trees and leaves the rest of the stores. -/
theorem get?_compact (horizon : Nat) (cells : List Nat) (acc : Nat × Pool Store) {i : Nat}
    {s' : Store} (h : (cells.foldl (pruneCell horizon) acc).2.get? i = some s') :
    ∃ s, acc.2.get? i = some s ∧ (s'.tree = s.tree ∨ s'.tree = s.tree.pruned horizon) := by
  induction cells generalizing acc with
  | nil => exact ⟨s', h, .inl rfl⟩
  | cons cell rest ih =>
    obtain ⟨s₁, hs₁, ht₁⟩ := ih (pruneCell horizon acc cell) h
    have hone : ∃ s, acc.2.get? i = some s ∧
        (s₁.tree = s.tree ∨ s₁.tree = s.tree.pruned horizon) := by
      rw [pruneCell] at hs₁
      split at hs₁
      · next s hs =>
        rw [Pool.get?_modify] at hs₁
        split at hs₁
        · next hcell =>
          subst hcell
          rw [hs, Option.map_some] at hs₁
          rw [← Option.some.inj hs₁]
          exact ⟨s, hs, .inr rfl⟩
        · exact ⟨s₁, hs₁, .inl rfl⟩
      · exact ⟨s₁, hs₁, .inl rfl⟩
    obtain ⟨s, hs, ht⟩ := hone
    refine ⟨s, hs, ?_⟩
    rcases ht₁ with ht₁ | ht₁ <;> rcases ht with ht | ht
    · exact .inl (ht₁.trans ht)
    · exact .inr (ht₁.trans ht)
    · exact .inr (ht ▸ ht₁)
    · rw [ht, VersionTree.pruned_pruned _ (Nat.le_refl _)] at ht₁
      exact .inr ht₁

end ContentsLemmas

open ContentsLemmas

/-! ## 2. Commits of cycles -/

/-- The tree of the store with a number in a pool; an empty one where there is no store. -/
def Store.treeAt (cells : Pool Store) (i : Nat) : VersionTree :=
  ((cells.get? i).map Store.tree).getD {}

/-- Of some writes, each by the number of a store in the catalog, those that are found to be for the
store with a number in the pool. -/
def Database.landing (db : Database) (writes : List (Nat × WriteSet)) (i : Nat) : WriteSet :=
  ((writes.find? fun e => db.cellOfId? e.1 == some i).map (·.2)).getD {}

/-- No two stores have one number in the catalog. -/
def Database.DistinctIds (db : Database) : Prop :=
  ∀ i j s s', db.cells.get? i = some s → db.cells.get? j = some s' → s.id = s'.id → i = j

namespace ContentsLemmas

variable {db : Database}

theorem of_cellOfId? {id i : Nat} (h : db.cellOfId? id = some i) :
    i ∈ db.stores.values ∧ ∃ s, db.cells.get? i = some s ∧ s.id = id := by
  have hid := List.find?_some h
  refine ⟨List.mem_reverse.1 (List.mem_of_find?_eq_some h), ?_⟩
  simpa [Option.any_eq_true] using hid

theorem cellOfId?_eq_some_iff (hids : db.DistinctIds) {id i : Nat} :
    db.cellOfId? id = some i ↔
      i ∈ db.stores.values ∧ ∃ s, db.cells.get? i = some s ∧ s.id = id := by
  refine ⟨of_cellOfId?, ?_⟩
  rintro ⟨hi, s, hs, hid⟩
  cases hfind : db.cellOfId? id with
  | none =>
    have := List.find?_eq_none.1 hfind i (List.mem_reverse.2 hi)
    exact absurd (by simp [hs, hid]) this
  | some j =>
    -- the store that is found has the same number, so it is the same store
    obtain ⟨-, s', hs', hid'⟩ := of_cellOfId? hfind
    rw [hids j i s' s hs' hs (hid'.trans hid.symm)]

theorem cellOfId?_of_frame {cells : Pool Store}
    (hf : cells.map Store.frame = db.cells.map Store.frame) (id : Nat) :
    cellOfId? { db with cells } id = db.cellOfId? id := by
  have hany : ∀ i, (cells.get? i).any (fun s => s.id == id) =
      (db.cells.get? i).any fun s => s.id == id := by
    intro i
    have hi : (cells.map Store.frame).get? i = (db.cells.map Store.frame).get? i := by rw [hf]
    rw [Pool.get?_map, Pool.get?_map] at hi
    have hframe : ∀ o : Option Store, o.any (fun s => s.id == id) =
        (o.map Store.frame).any fun s => s.id == id := by
      intro o
      cases o <;> rfl
    rw [hframe, hi, ← hframe]
  simp only [cellOfId?, hany]

theorem applyTo_of_isEmpty {w : WriteSet} (h : w.isEmpty = true) (t : VersionTree) (n : Nat) :
    w.applyTo t n = t := by
  simp only [WriteSet.isEmpty, Bool.and_eq_true, List.isEmpty_iff] at h
  simp only [WriteSet.applyTo, h.1, h.2, List.foldl_nil]

/-- Whether a commit applies the writes to a store. -/
def isApplied (db : Database) (e : Nat × WriteSet) : Bool :=
  !e.2.isEmpty && (db.cellOfId? e.1).isSome

theorem treeAt_of_get? {cells : Pool Store} {i : Nat} {s : Store} (h : cells.get? i = some s) :
    Store.treeAt cells i = s.tree := by
  rw [Store.treeAt, h]
  rfl

theorem treeAt_modify {cells : Pool Store} (cell i : Nat) {f : Store → Store}
    {g : VersionTree → VersionTree} (hf : ∀ s, (f s).tree = g s.tree)
    (hcell : (cells.get? cell).isSome) :
    Store.treeAt (cells.modify cell f) i =
      if cell = i then g (Store.treeAt cells i) else Store.treeAt cells i := by
  unfold Store.treeAt
  rw [Pool.get?_modify]
  split
  · next heq =>
    subst heq
    obtain ⟨s, hs⟩ := Option.isSome_iff_exists.1 hcell
    rw [hs]
    exact hf s
  · rfl

/-- One entry of a cycle is applied to the store that is found for it. -/
theorem applyWrites_eq (n : Nat) (applied : Bool) {cells : Pool Store}
    (hf : cells.map Store.frame = db.cells.map Store.frame) (e : Nat × WriteSet) :
    ∃ cells', applyWrites n (applied, { db with cells }) e =
        (applied || isApplied db e, { db with cells := cells' }) ∧
      cells'.map Store.frame = db.cells.map Store.frame ∧
      ∀ i, Store.treeAt cells' i =
        if db.cellOfId? e.1 = some i then e.2.applyTo (Store.treeAt cells i) n
        else Store.treeAt cells i := by
  obtain ⟨id, w⟩ := e
  simp only [applyWrites, isApplied, cellOfId?_of_frame hf]
  by_cases hw : w.isEmpty = true
  · refine ⟨cells, by simp [hw], hf, fun i => ?_⟩
    rw [applyTo_of_isEmpty hw, ite_self]
  · rw [if_neg hw]
    rw [Bool.not_eq_true] at hw
    cases hcell : db.cellOfId? id with
    | none => exact ⟨cells, by simp, hf, fun i => rfl⟩
    | some cell =>
      obtain ⟨-, s₀, hs₀, -⟩ := of_cellOfId? hcell
      obtain ⟨s, hs, -⟩ := Pool.get?_of_map_eq hf.symm hs₀
      have hframe : ∀ s : Store,
          Store.frame { s with tree := w.applyTo s.tree n, dirty := true } = s.frame := fun _ => rfl
      refine ⟨cells.modify cell fun s => { s with tree := w.applyTo s.tree n, dirty := true }, ?_,
        (frame_modify _ _ hframe).trans hf, fun i => ?_⟩
      · rw [hw, Option.isSome_some, Bool.not_false, Bool.and_true, Bool.or_true]
        rfl
      · simp only [Option.some.injEq]
        exact treeAt_modify cell i (g := fun t => w.applyTo t n) (fun _ => rfl) (by rw [hs]; rfl)

theorem landing_cons (e : Nat × WriteSet) (rest : List (Nat × WriteSet)) (i : Nat) :
    db.landing (e :: rest) i = if db.cellOfId? e.1 = some i then e.2 else db.landing rest i := by
  unfold landing
  rw [List.find?_cons]
  split
  · next h => rw [if_pos (eq_of_beq h)]; rfl
  · next h => rw [if_neg (beq_eq_false_iff_ne.1 h)]

/-- Nothing lands on a store whose number is below those of all entries. -/
theorem landing_of_lt {l : List (Nat × WriteSet)} {id i : Nat} (h : ∀ e ∈ l, id < e.1)
    (hid : db.cellOfId? id = some i) : db.landing l i = {} := by
  induction l with
  | nil => rfl
  | cons e rest ih =>
    rw [landing_cons, if_neg, ih fun e' he' => h e' (List.mem_cons_of_mem e he')]
    -- the store has one number only
    intro he
    obtain ⟨-, s, hs, hs'⟩ := of_cellOfId? hid
    obtain ⟨-, s₁, hs₁, hs₁'⟩ := of_cellOfId? he
    rw [hs, Option.some.injEq] at hs₁
    have := h e List.mem_cons_self
    subst hs₁
    omega

/-- What a cycle wrote is applied in one go, entry by entry; each store is found for one entry at
most. -/
theorem foldl_applyWrites (n : Nat) {l : List (Nat × WriteSet)}
    (hl : l.Pairwise fun a b => a.1 < b.1) (applied : Bool) (cells : Pool Store)
    (hf : cells.map Store.frame = db.cells.map Store.frame) :
    ∃ cells', l.foldl (applyWrites n) (applied, { db with cells }) =
        (applied || l.any (isApplied db), { db with cells := cells' }) ∧
      cells'.map Store.frame = db.cells.map Store.frame ∧
      ∀ i, Store.treeAt cells' i = (db.landing l i).applyTo (Store.treeAt cells i) n := by
  induction l generalizing applied cells with
  | nil => exact ⟨cells, by simp, hf, fun i => rfl⟩
  | cons e rest ih =>
    obtain ⟨hlt, hrest⟩ := List.pairwise_cons.1 hl
    obtain ⟨cells₁, heq₁, hf₁, htree₁⟩ := applyWrites_eq n applied hf e
    obtain ⟨cells₂, heq₂, hf₂, htree₂⟩ := ih hrest (applied || isApplied db e) cells₁ hf₁
    refine ⟨cells₂, ?_, hf₂, fun i => ?_⟩
    · rw [List.foldl_cons, heq₁, heq₂, List.any_cons, Bool.or_assoc]
    · rw [htree₂, htree₁, landing_cons]
      split
      · next he => rw [landing_of_lt hlt he, applyTo_of_isEmpty rfl]
      · rfl

theorem lookup_eq_find? (l : List (Nat × WriteSet)) (id : Nat) :
    l.lookup id = (l.find? fun e => id == e.1).map (·.2) := by
  induction l with
  | nil => rfl
  | cons e rest ih =>
    rw [List.lookup_cons, List.find?_cons]
    cases h : id == e.1 with
    | true => rfl
    | false => exact ih

/-- When no two stores share a number, what lands on a store is what was written to its number. -/
theorem landing_eq (hids : db.DistinctIds) (c : Cycle) {i : Nat} {s : Store}
    (hs : db.cells.get? i = some s) :
    db.landing c.writes.entries i = if i ∈ db.stores.values then c.writesTo s.id else {} := by
  have hfound : ∀ id, (db.cellOfId? id == some i) = (decide (i ∈ db.stores.values) && s.id == id) := by
    intro id
    rw [Bool.eq_iff_iff, beq_iff_eq, cellOfId?_eq_some_iff hids]
    simp [hs]
  unfold landing Cycle.writesTo SortedMap.get?
  simp only [hfound, lookup_eq_find?]
  by_cases hi : i ∈ db.stores.values
  · simp [hi]
  · have hnone : c.writes.entries.find? (fun _ => false) = none := List.find?_eq_none.2 (by simp)
    simp [hi, hnone]

end ContentsLemmas

/-- Whether a commit of a cycle has anything to apply. -/
def Database.applies (db : Database) (c : Cycle) : Bool := c.writes.entries.any (isApplied db)

/-- A commit applies what the cycle wrote at one sequence number, which is published when there was
anything to apply. -/
theorem publish_lands (db : Database) (c : Cycle) :
    ∃ cells,
      db.publish c = { db with
        cells, published := if db.applies c then db.published + 1 else db.published } ∧
      cells.map Store.frame = db.cells.map Store.frame ∧
      ∀ i, Store.treeAt cells i =
        (db.landing c.writes.entries i).applyTo (Store.treeAt db.cells i) (db.published + 1) := by
  obtain ⟨cells, heq, hf, htree⟩ :=
    foldl_applyWrites (db.published + 1) c.writes.sorted false db.cells rfl
  rw [Bool.false_or] at heq
  refine ⟨cells, ?_, hf, htree⟩
  have happlies : c.writes.entries.any (isApplied db) = db.applies c := rfl
  unfold publish
  simp only
  rw [heq, happlies]
  cases db.applies c <;> rfl

/-- When no two stores share a number, each store that can be found gets what the cycle wrote to its
number. -/
theorem publish_eq {db : Database} (hids : db.DistinctIds) (c : Cycle) :
    ∃ cells,
      db.publish c = { db with
        cells, published := if db.applies c then db.published + 1 else db.published } ∧
      cells.map Store.frame = db.cells.map Store.frame ∧
      ∀ i s, db.cells.get? i = some s → ∃ s', cells.get? i = some s' ∧
        s'.tree = if i ∈ db.stores.values then (c.writesTo s.id).applyTo s.tree (db.published + 1)
          else s.tree := by
  obtain ⟨cells, heq, hf, htree⟩ := publish_lands db c
  refine ⟨cells, heq, hf, fun i s hs => ?_⟩
  obtain ⟨s', hs', -⟩ := Pool.get?_of_map_eq hf.symm hs
  refine ⟨s', hs', ?_⟩
  have hi := htree i
  rw [treeAt_of_get? hs, treeAt_of_get? hs', landing_eq hids c hs] at hi
  rw [hi]
  split <;> rfl

/-- A cycle whose commit has nothing to apply has written nothing to the stores that can be found. -/
theorem isEmpty_of_not_applies {db : Database} (hids : db.DistinctIds) {c : Cycle}
    (h : db.applies c = false) {i : Nat} {s : Store} (hi : i ∈ db.stores.values)
    (hs : db.cells.get? i = some s) : (c.writesTo s.id).isEmpty = true := by
  unfold Cycle.writesTo
  cases hw : c.writes.get? s.id with
  | none => rfl
  | some w =>
    have hno := List.any_eq_false.1 h _ (c.writes.mem_entries_iff.2 hw)
    have hcell := (cellOfId?_eq_some_iff hids).2 ⟨hi, s, hs, rfl⟩
    simpa [isApplied, hcell] using hno

/-- What is published after a commit is one more than before, unless nothing was written. -/
theorem publish_spec {db : Database} (hids : db.DistinctIds) (c : Cycle) :
    ∃ cells published, db.publish c = { db with cells, published } ∧
      cells.map Store.frame = db.cells.map Store.frame ∧
      (∀ i s, db.cells.get? i = some s → ∃ s', cells.get? i = some s' ∧
        s'.tree = if i ∈ db.stores.values then (c.writesTo s.id).applyTo s.tree (db.published + 1)
          else s.tree) ∧
      (published = db.published + 1 ∨ published = db.published ∧
        ∀ i s, i ∈ db.stores.values → db.cells.get? i = some s →
          (c.writesTo s.id).isEmpty = true) := by
  obtain ⟨cells, heq, hf, htree⟩ := publish_eq hids c
  refine ⟨cells, _, heq, hf, htree, ?_⟩
  cases happlies : db.applies c with
  | true => exact .inl rfl
  | false => exact .inr ⟨rfl, fun i s hi hs => isEmpty_of_not_applies hids happlies hi hs⟩

/-! ## 3. The first contents -/

/-- Some records have their stores, each with its tree, attached to a database that had none before. -/
structure Attached (tree : StoreRecord → VersionTree) (base db : Database)
    (records : List StoreRecord) : Prop where
  same : db = { base with cells := db.cells, stores := db.stores }
  nextId : db.cells.nextId = records.length
  cells : ∀ i s, db.cells.get? i = some s ↔
    ∃ r, records[i]? = some r ∧ s = Store.ofRecord r (tree r)
  stores : ∀ name i, db.stores.get? name = some i → ∃ r, records[i]? = some r ∧ r.name = name
  found : ∀ r ∈ records, ∃ i, db.stores.get? r.name = some i

namespace Attached

variable {tree : StoreRecord → VersionTree} {base db : Database} {records : List StoreRecord}

theorem of_concat {r r' : StoreRecord} {i : Nat} (h : (records ++ [r])[i]? = some r') :
    records[i]? = some r' ∨ i = records.length ∧ r' = r := by
  have hlt := (List.getElem?_eq_some_iff.1 h).1
  rw [List.length_append, List.length_singleton] at hlt
  rcases Nat.lt_succ_iff_lt_or_eq.1 hlt with hlt | rfl
  · exact .inl (List.getElem?_append_left hlt ▸ h)
  · rw [List.getElem?_concat_length] at h
    exact .inr ⟨rfl, (Option.some.inj h).symm⟩

theorem concat {r r' : StoreRecord} {i : Nat} (h : records[i]? = some r') :
    (records ++ [r])[i]? = some r' := by
  rw [List.getElem?_append_left (List.getElem?_eq_some_iff.1 h).1, h]

theorem attach (h : Attached tree base db records) (r : StoreRecord) :
    Attached tree base (Storage.attach db r (tree r)) (records ++ [r]) where
  same := by
    rw [h.same]
    rfl
  nextId := by
    unfold Storage.attach
    rw [Pool.nextId_add, h.nextId, List.length_append, List.length_singleton]
  cells := fun i s => by
    constructor
    · intro hs
      rcases Pool.get?_add_eq_some hs with hs | ⟨rfl, rfl⟩
      · obtain ⟨r', hr', heq⟩ := (h.cells i s).1 hs
        exact ⟨r', concat hr', heq⟩
      · exact ⟨r, by rw [h.nextId, List.getElem?_concat_length], rfl⟩
    · rintro ⟨r', hr', rfl⟩
      rcases of_concat hr' with hr' | ⟨rfl, rfl⟩
      · exact Pool.get?_add_of_some _ ((h.cells i _).2 ⟨r', hr', rfl⟩)
      · rw [← h.nextId]
        exact Pool.get?_add_nextId _ _
  stores := fun name i hi => by
    simp only [Storage.attach, SortedMap.get?_insert] at hi
    split at hi
    · next hname =>
      rw [← Option.some.inj hi, h.nextId]
      exact ⟨r, List.getElem?_concat_length, (eq_of_beq hname).symm⟩
    · obtain ⟨r', hr', hname⟩ := h.stores name i hi
      exact ⟨r', concat hr', hname⟩
  found := fun r' hr' => by
    simp only [Storage.attach, SortedMap.get?_insert]
    split
    · exact ⟨_, rfl⟩
    · next hne =>
      rcases List.mem_append.1 hr' with hr' | hr'
      · exact h.found r' hr'
      · exact absurd (beq_iff_eq.2 (congrArg StoreRecord.name (List.mem_singleton.1 hr'))) hne

theorem foldl (h : Attached tree base db records) (rest : List StoreRecord) :
    Attached tree base (rest.foldl (fun db r => Storage.attach db r (tree r)) db)
      (records ++ rest) := by
  induction rest generalizing db records with
  | nil => rwa [List.append_nil]
  | cons r rest ih =>
    have h' := ih (h.attach r)
    rwa [List.append_assoc, List.singleton_append] at h'

end Attached

/-- Attaching all stores of its catalog to a database that has none. -/
theorem Database.attached_withStores (home : String) (settings : OpenSettings) (config : Config)
    (catalog : Catalog) (lock : Nat) (tree : StoreRecord → VersionTree) :
    Attached tree { home, settings, config, catalog, lock }
      (Database.withStores { home, settings, config, catalog, lock } tree) catalog.stores := by
  have hnone : Attached tree { home, settings, config, catalog, lock }
      { home, settings, config, catalog, lock } [] :=
    ⟨rfl, rfl, fun i s => by simp [Pool.get?], (fun name i hi => nomatch hi), fun r hr => nomatch hr⟩
  exact hnone.foldl catalog.stores

/-- A database that was just opened has the stores of its catalog and nothing else. -/
theorem Database.Opened.attached {db : Database} (h : db.Opened) :
    db.catalog.Numbered ∧ ∃ home settings config lock tree, (∀ r, (tree r).UpTo 0) ∧
      Attached tree { home, settings, config, catalog := db.catalog, lock } db db.catalog.stores := by
  obtain @⟨home, settings, config, catalog, lock, tree, hnumbered, ht⟩ := h
  have hall := attached_withStores home settings config catalog lock tree
  have hcatalog : (Database.withStores { home, settings, config, catalog, lock } tree).catalog =
      catalog := by
    rw [hall.same]
  rw [hcatalog]
  exact ⟨hnumbered, home, settings, config, lock, tree, ht, hall⟩

end SnapshotKv
