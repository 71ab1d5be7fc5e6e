import SnapshotKv.Proofs.Compaction
import SnapshotKv.Proofs.History

/-!
# What compaction leaves

A compaction prunes every store that can be found at the oldest view in use. Of each key it leaves
the versions above that view, and before them at most one more: the value that the view sees. It
answers how many versions went. While that view stays the oldest one, there is nothing more to drop.

Results:
1. `Arranged.of_reached`: versions stand in the order of their sequence numbers, and no store can be
   found under two names.
2. `settles_pruned`: what a pruning leaves of one tree.
3. `get?_pruneCells`, `exists_perm_compact`: what a compaction leaves of the stores, and its count.
4. `hundred_le_fillGrade`, `fillGrade_of_settled`: the fill grade in every state, and after a
   compaction that no view in use held back.
5. `compaction_law`.
-/

namespace SnapshotKv

open Database

/-! ## 1. The order of versions -/

namespace VersionTree

/-- The versions of each key stand in the order of their sequence numbers. -/
def InOrder (t : VersionTree) : Prop :=
  ∀ key, (t.versionsOf key).Pairwise fun v w => v.seqno ≤ w.seqno

theorem inOrder_of_upTo_zero {t : VersionTree} (h : t.UpTo 0) : t.InOrder := fun key =>
  List.pairwise_of_forall_mem_list fun v hv w _ =>
    Nat.le_trans (h.versions key v hv) (Nat.zero_le w.seqno)

theorem pairwise_pushVersion {vs : List Version} {v : Version}
    (h : vs.Pairwise fun v w => v.seqno ≤ w.seqno) (hle : ∀ x ∈ vs, x.seqno ≤ v.seqno) :
    (pushVersion vs v).Pairwise fun v w => v.seqno ≤ w.seqno := by
  have hconcat : ∀ l : List Version, l.Sublist vs →
      (l ++ [v]).Pairwise fun v w => v.seqno ≤ w.seqno := by
    intro l hl
    refine List.pairwise_append.2 ⟨h.sublist hl, List.pairwise_singleton _ _, fun x hx y hy => ?_⟩
    rw [List.mem_singleton.1 hy]
    exact hle x (hl.mem hx)
  rcases pushVersion_eq vs v with hp | ⟨older, last, hvs, -, hp⟩
  · exact hp ▸ hconcat vs (List.Sublist.refl vs)
  · exact hp ▸ hconcat older (hvs ▸ List.sublist_append_left older [last])

/-- The suffix of a list of versions is what a pruning keeps. -/
theorem exists_append_pruneVersions (tombstones : List Tombstone) (horizon : Nat) (key : Bytes)
    (vs : List Version) : ∃ gone, vs = gone ++ pruneVersions tombstones horizon key vs := by
  rcases PruningLemmas.exists_split vs horizon with hall | ⟨older, v, newer, rfl, hv, hnewer⟩
  · exact ⟨[], (pruneVersions_of_all_lt hall).symm⟩
  · rw [pruneVersions_append hv hnewer]
    split
    · exact ⟨older ++ [v], by rw [List.append_assoc, List.singleton_append]⟩
    · exact ⟨older, rfl⟩

namespace InOrder

variable {t : VersionTree} {n : Nat}

theorem insert (h : t.InOrder) (ht : t.UpTo n) (key : Bytes) (value : Option Bytes) :
    (t.insert key n value).InOrder := by
  intro key'
  rw [versionsOf_insert]
  split
  · exact pairwise_pushVersion (h key) (ht.versions key)
  · exact h key'

theorem onTree (h : t.InOrder) (ht : t.UpTo n) (change : Change) : (change.onTree t n).InOrder := by
  cases change with
  | put key value => exact h.insert ht key (some value)
  | delete key => exact h.insert ht key none
  | deletePrefix stem => exact h

theorem applyTo (h : t.InOrder) (ht : t.UpTo n) (w : WriteSet) : (w.applyTo t n).InOrder := by
  intro key
  rw [WriteSet.versionsOf_applyTo]
  split
  · exact pairwise_pushVersion (h key) (ht.versions key)
  · exact h key

theorem pruned (h : t.InOrder) (horizon : Nat) : (t.pruned horizon).InOrder := by
  intro key
  obtain ⟨gone, heq⟩ :=
    exists_append_pruneVersions (t.settled horizon) horizon key (t.versionsOf key)
  have hall := h key
  rw [heq] at hall
  rw [versionsOf_pruned]
  exact hall.sublist (List.sublist_append_right gone _)

end InOrder

end VersionTree

/-- The stores of a database lie in order: the versions of every key, and the names. -/
structure Arranged (db : Database) : Prop where
  inOrder : ∀ i s, db.cells.get? i = some s → s.tree.InOrder
  /-- No store can be found under two names. -/
  named : ∀ name name' i, db.stores.get? name = some i → db.stores.get? name' = some i →
    name = name'

namespace Arranged

open ContentsLemmas

variable {db db' : Database} {L L' : Ledger}

theorem modify (h : Arranged db) (cell : Nat) {f : Store → Store}
    (hf : ∀ s, (f s).tree = s.tree) :
    ∀ i s, (db.cells.modify cell f).get? i = some s → s.tree.InOrder := by
  intro i s' hs'
  obtain ⟨s, hs, htree⟩ := tree_of_modify hf hs'
  exact htree ▸ h.inOrder i s hs

theorem withStore (h : Arranged db) (hr : Registry db L) (name : String) (prefixLength : Nat) :
    Arranged (db.withStore name prefixLength) := by
  have hnew : ∀ name', db.stores.get? name' ≠ some db.cells.nextId := by
    intro name' hname'
    obtain ⟨s, hs⟩ := hr.found name' _ hname'
    exact absurd (Pool.lt_nextId hs) (Nat.lt_irrefl _)
  constructor
  · intro i s hs
    rcases Pool.get?_add_eq_some hs with hs | ⟨-, rfl⟩
    · exact h.inOrder i s hs
    · exact fun _ => List.Pairwise.nil
  · intro name₁ name₂ i h₁ h₂
    simp only [Database.withStore, Storage.attach, SortedMap.get?_insert, beq_iff_eq] at h₁ h₂
    split at h₁ <;> split at h₂
    · next heq₁ heq₂ => exact heq₁.trans heq₂.symm
    · exact absurd (h₂.trans h₁.symm) (hnew name₂)
    · exact absurd (h₁.trans h₂.symm) (hnew name₁)
    · exact h.named name₁ name₂ i h₁ h₂

theorem dropStore (h : Arranged db) (catalog : Catalog) (name : String) :
    Arranged { db with catalog, stores := db.stores.erase name } := by
  refine ⟨h.inOrder, fun name₁ name₂ i h₁ h₂ => ?_⟩
  simp only [SortedMap.get?_erase, Option.ite_none_left_eq_some] at h₁ h₂
  exact h.named name₁ name₂ i h₁.2 h₂.2

theorem plain (h : Arranged db) (hh : History db L) (cell : Nat) (change : Change) :
    Arranged (db.applySingle cell change.onTree) := by
  refine ⟨fun i s' hs' => ?_, h.named⟩
  simp only [applySingle, get?_modifyStore] at hs'
  split at hs'
  · obtain ⟨s, hs, rfl⟩ := Option.map_eq_some_iff.1 hs'
    exact (h.inOrder i s hs).onTree ((hh.upTo i s hs).mono (Nat.le_succ _)) change
  · exact h.inOrder i s' hs'

theorem publish (h : Arranged db) (hh : History db L) (hr : Registry db L) (c : Cycle) :
    Arranged (db.publish c) := by
  obtain ⟨cells, published, heq, hf, htree, -⟩ := publish_spec hr.ids c
  rw [heq]
  refine ⟨fun i s' hs' => ?_, h.named⟩
  obtain ⟨s, hs, -⟩ := Pool.get?_of_map_eq hf hs'
  obtain ⟨s'', hs'', ht⟩ := htree i s hs
  obtain rfl := Option.some.inj (hs''.symm.trans hs')
  have hs₀ := h.inOrder i s hs
  rw [ht]
  split
  · exact hs₀.applyTo ((hh.upTo i s hs).mono (Nat.le_succ _)) _
  · exact hs₀

theorem compact (h : Arranged db) (horizon : Nat) (cells : List Nat) :
    Arranged { db with cells := (cells.foldl (pruneCell horizon) (0, db.cells)).2 } := by
  refine ⟨fun i s' hs' => ?_, h.named⟩
  obtain ⟨s, hs, ht | ht⟩ := get?_compact horizon cells (0, db.cells) hs'
  · exact ht ▸ h.inOrder i s hs
  · exact ht ▸ (h.inOrder i s hs).pruned horizon

theorem opened (h : db.Opened) : Arranged db := by
  obtain ⟨hnumbered, home, settings, config, lock, tree, ht, hat⟩ := h.attached
  constructor
  · intro i s hs
    obtain ⟨r, -, rfl⟩ := (hat.cells i s).1 hs
    exact VersionTree.inOrder_of_upTo_zero (ht r)
  · intro name name' i hi hi'
    obtain ⟨r, hr, rfl⟩ := hat.stores name i hi
    obtain ⟨r', hr', rfl⟩ := hat.stores name' i hi'
    rw [Option.some.inj (hr.symm.trans hr')]

/-- Every step keeps the stores in order. -/
theorem step (hr : Registry db L) (hh : History db L) (hstep : Step db L db' L')
    (h : Arranged db) : Arranged db' := by
  cases hstep with
  | createStore name prefixLength hnew => exact h.withStore hr name prefixLength
  | dropStore hname hs hopen => exact h.dropStore _ _
  | @openStore name cell s settings =>
    exact ⟨h.modify (f := fun s => { s with isOpen := true }) cell fun _ => rfl, h.named⟩
  | @closeStore handle hd hhd =>
    exact ⟨h.modify (f := fun s => { s with isOpen := false }) hd.cell fun _ => rfl, h.named⟩
  | saved cell =>
    exact ⟨h.modify (f := fun s => { s with dirty := false }) cell fun _ => rfl, h.named⟩
  | plain change hhd hs hplain => exact h.plain hh _ change
  | @commit t c hc hdoomed =>
    have hpublish := h.publish hh hr c
    exact ⟨hpublish.inOrder, hpublish.named⟩
  | compact => exact h.compact _ _
  | fileFault | list | number | delist | close | allocTxn | beginTxn | claim | doom | write
  | endCycle | openCursor | closeCursor | moveCursor | refreshCursor =>
    exact ⟨h.inOrder, h.named⟩

/-- The stores lie in order in all that is reached. -/
theorem of_reached (h : Reached db L) : Arranged db := by
  induction h with
  | opened hdb => exact opened hdb
  | step hr hstep ih => exact step (.of_reached hr) (.of_reached hr) hstep ih

end Arranged

/-! ## 2. A pruned tree -/

namespace VersionTree

/-- What is left of a tree that was pruned at a horizon. -/
structure Settles (horizon : Nat) (t t' : VersionTree) : Prop where
  /-- Of each key the versions above the horizon are left, and before them one more at most: a value
  that the horizon sees. -/
  versions : ∀ key,
    let newer := (t.versionsOf key).filter fun v => horizon < v.seqno
    t'.versionsOf key = newer ∨
      ∃ v ∈ t.versionsOf key, t'.versionsOf key = v :: newer ∧ v.seqno ≤ horizon ∧
        v.value ≠ none ∧ t'.get key horizon = v.value
  /-- No key is listed for nothing. -/
  listed : t'.NoEmptyList
  tombstones : t'.tombstones = t.tombstones.filter fun s => horizon < s.seqno
  /-- The views at or above the horizon see what they saw. -/
  views : ∀ key view, horizon ≤ view → t'.get key view = t.get key view

/-- A view sees no tombstone of a tree that has none at or below it. -/
theorem get_of_pending {t : VersionTree} {view : Nat} (h : ∀ s ∈ t.tombstones, view < s.seqno)
    {key : Bytes} {v : Version} (hv : versionAt? (t.versionsOf key) view = some v) :
    t.get key view = v.value := by
  have hhidden : t.isHidden key v view = false := by
    rw [Bool.eq_false_iff, ne_eq, isHidden_iff]
    rintro ⟨s, hs, hle, -⟩
    exact absurd hle (Nat.not_le.2 (h s hs))
  rw [get_eq, hv, Option.bind_some, hhidden, if_neg Bool.false_ne_true]

theorem settles_pruned {t : VersionTree} (h : t.InOrder) (horizon : Nat) :
    Settles horizon t (t.pruned horizon) := by
  refine ⟨fun key => ?_, noEmptyList_pruned horizon t, rfl, fun key view hview =>
    get_pruned hview key⟩
  have hfilter : ∀ newer : List Version, (∀ x ∈ newer, horizon < x.seqno) →
      newer.filter (fun v => horizon < v.seqno) = newer := fun newer hnewer =>
    List.filter_eq_self.2 fun x hx => decide_eq_true (hnewer x hx)
  rcases PruningLemmas.exists_split (t.versionsOf key) horizon with
    hall | ⟨older, v, newer, heq, hv, hnewer⟩
  · left
    rw [versionsOf_pruned, pruneVersions_of_all_lt hall, hfilter _ hall]
  · -- what stands before the last version at or below the horizon is below it, too
    have hkept : (t.versionsOf key).filter (fun v => horizon < v.seqno) = newer := by
      have horder := h key
      rw [heq] at horder ⊢
      have holder : ∀ x ∈ older ++ [v], ¬ decide (horizon < x.seqno) = true := by
        intro x hx
        have hle : x.seqno ≤ horizon := by
          rcases List.mem_append.1 hx with hx | hx
          · exact Nat.le_trans ((List.pairwise_append.1 horder).2.2 x hx v List.mem_cons_self) hv
          · exact List.mem_singleton.1 hx ▸ hv
        rw [decide_eq_true_eq]
        exact Nat.not_lt.2 hle
      rw [List.append_cons, List.filter_append, List.filter_eq_nil_iff.2 holder, hfilter _ hnewer,
        List.nil_append]
    have hpruned : (t.pruned horizon).versionsOf key =
        if isDead (t.settled horizon) key v then newer else v :: newer := by
      rw [versionsOf_pruned, heq, pruneVersions_append hv hnewer]
    simp only [hkept]
    by_cases hdead : isDead (t.settled horizon) key v = true
    · exact .inl (hpruned.trans (if_pos hdead))
    · rw [if_neg hdead] at hpruned
      refine .inr ⟨v, ?_, hpruned, hv, fun hnone => hdead (isDead_iff.2 (.inl hnone)), ?_⟩
      · rw [heq]
        exact List.mem_append_right _ List.mem_cons_self
      · have hpending : ∀ s ∈ (t.pruned horizon).tombstones, horizon < s.seqno := fun s hs =>
          of_decide_eq_true (List.mem_filter.1 hs).2
        refine get_of_pending hpending ?_
        have hnone : versionAt? newer horizon = none := by
          rw [versionAt?, List.find?_eq_none]
          intro x hx
          rw [decide_eq_true_eq]
          exact Nat.not_le.2 (hnewer x (List.mem_reverse.1 hx))
        rw [hpruned, ← List.singleton_append, versionAt?_append, hnone, Option.none_or,
          versionAt?_singleton, if_pos hv]

end VersionTree

/-! ## 3. All stores -/

/-- The versions of all keys of a tree, each with its key. -/
def VersionTree.versionList (t : VersionTree) : List (Bytes × Version) :=
  t.versions.entries.flatMap fun e => e.2.map fun v => (e.1, v)

/-- The versions of the keys of the store with a number in the pool. -/
def versionsIn (cells : Pool Store) (cell : Nat) : List (Bytes × Version) :=
  (cells.get? cell).elim [] fun s => s.tree.versionList

/-- The versions of the keys of all stores that can be found, each with the name of its store. -/
def Database.versionList (db : Database) : List (String × Bytes × Version) :=
  db.stores.entries.flatMap fun e => (versionsIn db.cells e.2).map fun v => (e.1, v)

namespace ReclaimingLemmas

variable {α β : Type}

/-- If of each list some members go, then of the lists together some members go. -/
theorem exists_perm_flatMap {l : List α} {f f' : α → List β}
    (h : ∀ e ∈ l, ∃ gone, (f e).Perm (gone ++ f' e)) :
    ∃ gone, (l.flatMap f).Perm (gone ++ l.flatMap f') := by
  induction l with
  | nil => exact ⟨[], .refl _⟩
  | cons e rest ih =>
    obtain ⟨gone, hgone⟩ := h e List.mem_cons_self
    obtain ⟨gone', hgone'⟩ := ih fun e' he' => h e' (List.mem_cons_of_mem _ he')
    refine ⟨gone ++ gone', ?_⟩
    rw [List.flatMap_cons, List.flatMap_cons]
    refine (hgone.append hgone').trans ?_
    rw [List.append_assoc, List.append_assoc]
    exact (List.perm_append_comm_assoc _ _ _).append_left gone

theorem values_flatten (t : VersionTree) :
    t.versions.values.flatten = t.versionList.map Prod.snd := by
  unfold VersionTree.versionList SortedMap.values
  rw [List.map_flatMap, ← List.flatMap_def]
  simp only [List.map_map, Function.comp_def, List.map_id']

theorem versionList_pruned (t : VersionTree) (horizon : Nat) :
    (t.pruned horizon).versionList = t.versions.entries.flatMap fun e =>
      (VersionTree.pruneVersions (t.settled horizon) horizon e.1 e.2).map fun v => (e.1, v) := by
  unfold VersionTree.versionList VersionTree.pruned VersionTree.prune SortedMap.filterMap
  simp only
  induction t.versions.entries with
  | nil => rfl
  | cons e rest ih =>
    rw [List.flatMap_cons, ← ih, List.filterMap_cons]
    unfold VersionTree.settled
    cases VersionTree.pruneVersions _ horizon e.1 e.2 <;> rfl

theorem exists_perm_versionList (t : VersionTree) (horizon : Nat) :
    ∃ gone, t.versionList.Perm (gone ++ (t.pruned horizon).versionList) := by
  rw [versionList_pruned]
  refine exists_perm_flatMap fun e _ => ?_
  obtain ⟨gone, heq⟩ :=
    VersionTree.exists_append_pruneVersions (t.settled horizon) horizon e.1 e.2
  refine ⟨gone.map fun v => (e.1, v), ?_⟩
  rw [← List.map_append, ← heq]

theorem versionsIn_of_some {cells : Pool Store} {cell : Nat} {s : Store}
    (h : cells.get? cell = some s) : versionsIn cells cell = s.tree.versionList := by
  rw [versionsIn, h, Option.elim_some]

theorem versionsIn_congr {cells cells' : Pool Store} {cell : Nat}
    (h : cells'.get? cell = cells.get? cell) : versionsIn cells' cell = versionsIn cells cell := by
  rw [versionsIn, versionsIn, h]

/-! ### The stores one after another -/

variable (horizon : Nat)

/-- What is done to one store. -/
theorem pruneCell_spec (acc : Nat × Pool Store) (cell : Nat) :
    (pruneCell horizon acc cell).2 = acc.2.modify cell (Store.prunedAt horizon) ∧
      (pruneCell horizon acc cell).1 + (versionsIn (pruneCell horizon acc cell).2 cell).length =
        acc.1 + (versionsIn acc.2 cell).length := by
  cases hs : acc.2.get? cell with
  | none =>
    have hsame : pruneCell horizon acc cell = acc := by simp only [pruneCell, hs]
    rw [hsame]
    refine ⟨(Pool.modify_eq_self fun s hs' => ?_).symm, rfl⟩
    rw [hs] at hs'
    cases hs'
  | some s =>
    have hcells : (pruneCell horizon acc cell).2 = acc.2.modify cell (Store.prunedAt horizon) := by
      simp only [pruneCell, hs]
      refine Pool.modify_congr fun s' hs' => ?_
      obtain rfl := Option.some.inj (hs.symm.trans hs')
      rfl
    refine ⟨hcells, ?_⟩
    have hnew : (pruneCell horizon acc cell).2.get? cell = some (s.prunedAt horizon) := by
      rw [hcells, Pool.get?_modify, if_pos rfl, hs, Option.map_some]
    have hremoved : (pruneCell horizon acc cell).1 =
        acc.1 + (s.tree.versionList.length - (s.tree.pruned horizon).versionList.length) := by
      simp only [pruneCell, hs, VersionTree.prune, ← List.length_map Prod.snd, ← values_flatten]
      rfl
    obtain ⟨gone, hgone⟩ := exists_perm_versionList s.tree horizon
    have hlength := hgone.length_eq
    rw [List.length_append] at hlength
    rw [versionsIn_of_some hnew, versionsIn_of_some hs, hremoved]
    show _ + (s.tree.pruned horizon).versionList.length = _
    omega

theorem get?_pruneCells {l : List Nat} (hl : l.Nodup) (acc : Nat × Pool Store) (i : Nat) :
    (l.foldl (pruneCell horizon) acc).2.get? i =
      if i ∈ l then (acc.2.get? i).map (Store.prunedAt horizon) else acc.2.get? i := by
  induction l generalizing acc with
  | nil => rw [List.foldl_nil, if_neg List.not_mem_nil]
  | cons cell rest ih =>
    obtain ⟨hnot, hrest⟩ := List.nodup_cons.1 hl
    rw [List.foldl_cons, ih hrest, (pruneCell_spec horizon acc cell).1, Pool.get?_modify]
    by_cases hi : cell = i
    · subst hi
      rw [if_neg hnot, if_pos rfl, if_pos List.mem_cons_self]
    · have hmem : i ∈ cell :: rest ↔ i ∈ rest :=
        List.mem_cons.trans (or_iff_right fun heq => hi heq.symm)
      simp only [if_neg hi, hmem]

/-- The versions that are left and the number that went make up the versions that there were. -/
theorem versionsIn_pruneCells {l : List Nat} (hl : l.Nodup) (acc : Nat × Pool Store) :
    (l.foldl (pruneCell horizon) acc).1 +
        (l.flatMap (versionsIn (l.foldl (pruneCell horizon) acc).2)).length =
      acc.1 + (l.flatMap (versionsIn acc.2)).length := by
  induction l generalizing acc with
  | nil => rfl
  | cons cell rest ih =>
    obtain ⟨hnot, hrest⟩ := List.nodup_cons.1 hl
    obtain ⟨hcells, hcount⟩ := pruneCell_spec horizon acc cell
    have hih := ih hrest (pruneCell horizon acc cell)
    have hothers : rest.flatMap (versionsIn (pruneCell horizon acc cell).2) =
        rest.flatMap (versionsIn acc.2) := by
      refine List.flatMap_congr fun i hi => versionsIn_congr ?_
      have hne : cell ≠ i := fun heq => hnot (heq ▸ hi)
      rw [hcells, Pool.get?_modify, if_neg hne]
    have hself : versionsIn (rest.foldl (pruneCell horizon) (pruneCell horizon acc cell)).2 cell =
        versionsIn (pruneCell horizon acc cell).2 cell := by
      refine versionsIn_congr ?_
      rw [get?_pruneCells horizon hrest, if_neg hnot]
    rw [hothers] at hih
    rw [List.foldl_cons, List.flatMap_cons, List.flatMap_cons, List.length_append,
      List.length_append, hself]
    omega

theorem nodup_values {db : Database} (h : Arranged db) : db.stores.values.Nodup := by
  unfold SortedMap.values
  refine List.pairwise_map.2 (db.stores.sorted.imp_of_mem ?_)
  rintro ⟨name, i⟩ ⟨name', j⟩ ha hb hlt rfl
  exact SortedMap.ne_of_lt hlt (h.named name name' i (db.stores.mem_entries_iff.1 ha)
    (db.stores.mem_entries_iff.1 hb))

theorem length_versionList (db : Database) :
    db.versionList.length = (db.stores.values.flatMap (versionsIn db.cells)).length := by
  have hsnd : db.versionList.map Prod.snd = db.stores.values.flatMap (versionsIn db.cells) := by
    unfold Database.versionList SortedMap.values
    rw [List.map_flatMap, List.flatMap_map]
    simp only [List.map_map, Function.comp_def, List.map_id']
  rw [← hsnd, List.length_map]

theorem compact_on {db : Database} (hopen : db.closed = false) :
    compact.on db =
      (.ok (db.stores.values.foldl (pruneCell db.horizon) (0, db.cells)).1,
        { db with cells := (db.stores.values.foldl (pruneCell db.horizon) (0, db.cells)).2 }) := by
  simp only [compact, Attempt.on_bind, Attempt.on_get, Attempt.on_check, checkOpen, hopen]
  rfl

/-- The versions that a compaction drops are as many as it answers. -/
theorem exists_perm_compact {db : Database} (h : Arranged db) (hopen : db.closed = false) :
    ∃ gone, db.versionList.Perm (gone ++ (compact.on db).2.versionList) ∧
      (compact.on db).1 = .ok gone.length := by
  have hnodup := nodup_values h
  rw [compact_on hopen]
  obtain ⟨gone, hgone⟩ : ∃ gone, db.versionList.Perm (gone ++ Database.versionList
      { db with
        cells := (db.stores.values.foldl (pruneCell db.horizon) (0, db.cells)).2 }) := by
    refine exists_perm_flatMap fun e he => ?_
    have hmem : e.2 ∈ db.stores.values := List.mem_map_of_mem he
    have hget := get?_pruneCells db.horizon hnodup (0, db.cells) e.2
    rw [if_pos hmem] at hget
    cases hs : db.cells.get? e.2 with
    | none =>
      rw [hs, Option.map_none] at hget
      exact ⟨[], by rw [versionsIn, versionsIn, hs, hget]; exact .refl _⟩
    | some s =>
      rw [hs, Option.map_some] at hget
      obtain ⟨gone, hgone⟩ := exists_perm_versionList s.tree db.horizon
      refine ⟨gone.map fun v => (e.1, v), ?_⟩
      rw [versionsIn_of_some hs, versionsIn_of_some hget, ← List.map_append]
      exact hgone.map _
  refine ⟨gone, hgone, congrArg Except.ok ?_⟩
  have hcount := versionsIn_pruneCells db.horizon hnodup (0, db.cells)
  have hlength := hgone.length_eq
  rw [List.length_append, length_versionList, length_versionList] at hlength
  simp only at hcount hlength
  omega

end ReclaimingLemmas

/-! ## 4. The fill grade -/

namespace ReclaimingLemmas

open VersionTree

theorem length_filterMap_le {γ : Type} {l : List (Bytes × List Version)}
    {f : Bytes × List Version → Option γ} (h : ∀ e ∈ l, f e ≠ none → e.2 ≠ []) :
    (l.filterMap f).length ≤ (l.map (·.2)).flatten.length := by
  induction l with
  | nil => exact Nat.le_refl _
  | cons e rest ih =>
    have hrest := ih fun e' he' => h e' (List.mem_cons_of_mem _ he')
    rw [List.filterMap_cons, List.map_cons, List.flatten_cons, List.length_append]
    split
    · exact Nat.le_add_left_of_le hrest
    · next heq =>
      have hpos := List.length_pos_of_ne_nil (h e List.mem_cons_self (heq ▸ Option.some_ne_none _))
      rw [List.length_cons]
      omega

theorem length_filterMap_eq {γ : Type} {l : List (Bytes × List Version)}
    {f : Bytes × List Version → Option γ} (h : ∀ e ∈ l, f e ≠ none ∧ e.2.length = 1) :
    (l.filterMap f).length = (l.map (·.2)).flatten.length := by
  induction l with
  | nil => rfl
  | cons e rest ih =>
    obtain ⟨hsome, hone⟩ := h e List.mem_cons_self
    have hrest := ih fun e' he' => h e' (List.mem_cons_of_mem _ he')
    rw [List.filterMap_cons, List.map_cons, List.flatten_cons, List.length_append, hone, ← hrest]
    split
    · next heq => exact absurd heq hsome
    · rw [List.length_cons, Nat.add_comm]

/-- Every key with a value has a version. -/
theorem liveKeys_le_versions (t : VersionTree) (view : Nat) :
    (t.stats view).liveKeys ≤ (t.stats view).versions := by
  refine Nat.le_trans (length_filterMap_le fun e _ hsome hnil => hsome ?_) (Nat.le_add_right _ _)
  rw [hnil]
  rfl

/-- After a pruning at a horizon that nothing is above, the versions are the keys with a value. -/
theorem liveKeys_eq_versions {t t' : VersionTree} {horizon : Nat} (h : Settles horizon t t')
    (ht : t.UpTo horizon) : (t'.stats horizon).liveKeys = (t'.stats horizon).versions := by
  have htombstones : t'.tombstones = [] := by
    rw [h.tombstones, List.filter_eq_nil_iff]
    intro s hs
    rw [decide_eq_true_eq]
    exact Nat.not_lt.2 (ht.tombstones s hs)
  unfold stats
  simp only [htombstones, List.length_nil, Nat.add_zero]
  refine length_filterMap_eq fun e he => ?_
  have hget := t'.versions.mem_entries_iff.1 he
  have hversions : t'.versionsOf e.1 = e.2 := by rw [versionsOf, hget, Option.getD_some]
  have hnewer : (t.versionsOf e.1).filter (fun v => horizon < v.seqno) = [] := by
    rw [List.filter_eq_nil_iff]
    intro v hv
    rw [decide_eq_true_eq]
    exact Nat.not_lt.2 (ht.versions e.1 v hv)
  have hkey := h.versions e.1
  simp only [hnewer, hversions] at hkey
  rcases hkey with hnil | ⟨v, -, hone, -, hvalue, hsees⟩
  · exact absurd (hnil ▸ hget) (h.listed e.1)
  · rw [VersionTree.get, hversions] at hsees
    rw [hsees, hone]
    exact ⟨fun hnone => hvalue (Option.map_eq_none_iff.1 hnone), rfl⟩

theorem mem_attached {db : Database} {s : Store} (h : s ∈ db.attached) :
    ∃ name cell, db.stores.get? name = some cell ∧ db.cells.get? cell = some s := by
  obtain ⟨cell, hcell, hs⟩ := List.mem_filterMap.1 h
  obtain ⟨name, hname⟩ := db.stores.mem_values_iff.1 hcell
  exact ⟨name, cell, hname, hs⟩

end ReclaimingLemmas

open ReclaimingLemmas

/-- There are never fewer versions than keys with a value. -/
theorem hundred_le_fillGrade (db : Database) : 100 ≤ db.fillGrade := by
  unfold fillGrade
  extract_lets stats versions live
  have hle : live ≤ versions := by
    refine List.foldl_rel (r := (· ≤ ·)) (Nat.le_refl 0) fun x hx n n' hn => ?_
    obtain ⟨s, -, rfl⟩ := List.mem_map.1 hx
    exact Nat.add_le_add hn (liveKeys_le_versions s.tree db.published)
  split
  · exact Nat.le_refl 100
  · split
    · omega
    · rw [Nat.le_div_iff_mul_le (by omega)]
      omega

theorem fillGrade_of_settled {db : Database}
    (h : ∀ s ∈ db.attached, (s.tree.stats db.published).liveKeys =
      (s.tree.stats db.published).versions) : db.fillGrade = 100 := by
  unfold fillGrade
  extract_lets stats versions live
  have heq : live = versions := by
    refine List.foldl_rel (r := Eq) rfl fun x hx n n' hn => ?_
    obtain ⟨s, hs, rfl⟩ := List.mem_map.1 hx
    rw [hn, h s hs]
  rw [heq]
  split
  · rfl
  · next hne => exact Nat.mul_div_cancel_left 100 (Nat.pos_of_ne_zero hne)

/-! ## 5. The law -/

/-- The horizon is as high as the published contents and the views in use let it be. -/
theorem HeldViews.le_horizon_iff {db : Database} (h : HeldViews db) {n : Nat} :
    n ≤ db.horizon ↔ n ≤ db.published ∧
      (∀ t c, db.txns.get? t = some (.active c) → n ≤ c.view) ∧
        ∀ i c, db.cursors.get? i = some c → n ≤ c.view := by
  refine Pins.le_horizon_iff.trans (and_congr_right fun _ => ?_)
  constructor
  · intro hall
    exact ⟨fun t c hc => hall _ (h.mem_cycle hc), fun i c hc => hall _ (h.mem_cursor hc)⟩
  · rintro ⟨hcycles, hcursors⟩ v hv
    rcases List.mem_append.1 (h.pins.mem_iff.1 hv) with hv | hv
    · obtain ⟨x, hx, hview⟩ := List.mem_filterMap.1 hv
      obtain ⟨t, ht⟩ := Pool.mem_members_iff.1 hx
      cases x with
      | active c => exact Option.some.inj hview ▸ hcycles t c ht
      | invalid | committed | aborted => cases hview
    · obtain ⟨c, hc, rfl⟩ := List.mem_map.1 hv
      obtain ⟨i, hi⟩ := Pool.mem_members_iff.1 hc
      exact hcursors i c hi

/-- What a compaction of an open database does. -/
structure CompactionLaw (s : Site) : Prop where
  /-- The horizon is the oldest of the published contents and the views in use. -/
  horizon : ∀ n, n ≤ s.db.horizon ↔ n ≤ s.db.published ∧
    (∀ t c, s.db.txns.get? t = some (.active c) → n ≤ c.view) ∧
      ∀ i c, s.db.cursors.get? i = some c → n ≤ c.view
  /-- Every store that can be found is pruned there. -/
  settles : ∀ now name cell, s.db.stores.get? name = some cell → ∃ st tree,
    s.db.cells.get? cell = some st ∧
      ((Event.call now .compact).next s).db.cells.get? cell = some { st with tree } ∧
        st.tree.Settles s.db.horizon tree
  /-- Nothing else changes. -/
  others : ∀ now, ∃ cells, (Event.call now .compact).next s = { s with db := { s.db with cells } } ∧
    ∀ cell, (∀ name, s.db.stores.get? name ≠ some cell) →
      cells.get? cell = s.db.cells.get? cell
  /-- The answer is the number of the versions that went. -/
  counts : ∀ now, ∃ gone,
    s.db.versionList.Perm (gone ++ ((Event.call now .compact).next s).db.versionList) ∧
      (Event.call now .compact).answer s = .ok (.number gone.length)
  /-- A compaction that follows at once finds nothing. -/
  again : ∀ now now',
    let s' := (Event.call now .compact).next s
    (Event.call now' .compact).answer s' = .ok (.number 0) ∧ (Event.call now' .compact).next s' = s'
  /-- Without views in use only the keys with a value are left. -/
  full : (∀ t c, s.db.txns.get? t ≠ some (.active c)) → (∀ i, s.db.cursors.get? i = none) →
    ∀ now now', (Event.call now' .compactStatus).answer ((Event.call now .compact).next s) =
      .ok (.compaction { current := 100 })
  /-- Before and after, the fill grade is never below a hundred. -/
  hundred_le : ∀ now, ∃ c, (Event.call now .compactStatus).answer s = .ok (.compaction c) ∧
    100 ≤ c.current

namespace ReclaimingLemmas

theorem on_compact (now : Nat) (s : Site) : (Event.call now .compact).attempt.on s =
    ((compact.on s.db).1.map .number, { s with db := (compact.on s.db).2 }) := by
  simp only [Event.attempt, Call.attempt, Attempt.on_map, Storage.on_onDatabase]

theorem answer_compactStatus {s : Site} (hopen : s.db.closed = false) (now : Nat) :
    (Event.call now .compactStatus).answer s =
      .ok (.compaction { current := s.db.fillGrade }) := by
  simp only [Event.answer, Event.attempt, Call.attempt, Attempt.on_map, Storage.on_ask,
    compactStatus, checkOpen, hopen]
  rfl

/-! ### An open database -/

section Compacted

variable {db : Database} {L : Ledger} (h : Arranged db) (hopen : db.closed = false)
include h hopen

/-- The stores after a compaction. -/
theorem get?_cells_compact (cell : Nat) :
    (compact.on db).2.cells.get? cell =
      if cell ∈ db.stores.values then (db.cells.get? cell).map (Store.prunedAt db.horizon)
      else db.cells.get? cell := by
  rw [compact_on hopen]
  exact get?_pruneCells db.horizon (nodup_values h) (0, db.cells) cell

theorem settles_compact (hr : Registry db L) {name : String} {cell : Nat}
    (hname : db.stores.get? name = some cell) :
    ∃ st tree, db.cells.get? cell = some st ∧
      (compact.on db).2.cells.get? cell = some { st with tree } ∧
        st.tree.Settles db.horizon tree := by
  obtain ⟨st, hst⟩ := hr.found name cell hname
  refine ⟨st, st.tree.pruned db.horizon, hst, ?_,
    VersionTree.settles_pruned (h.inOrder cell st hst) _⟩
  rw [get?_cells_compact h hopen, if_pos ((SortedMap.mem_values_iff _).2 ⟨name, hname⟩), hst]
  rfl

/-- A second compaction changes nothing. -/
theorem compact_compact (h' : Arranged (compact.on db).2) :
    (compact.on (compact.on db).2).2 = (compact.on db).2 := by
  obtain ⟨cells, hdb⟩ : ∃ cells, (compact.on db).2 = { db with cells } :=
    ⟨_, congrArg Prod.snd (compact_on hopen)⟩
  have hget : ∀ cell, cells.get? cell = _ := hdb ▸ get?_cells_compact h hopen
  rw [hdb] at h' ⊢
  have hopen' : Database.closed { db with cells } = false := hopen
  have hcells : (compact.on { db with cells }).2.cells = cells := by
    apply Pool.ext_get?
    · rw [compact_on hopen']
      exact ContentsLemmas.nextId_of_frame (ContentsLemmas.frame_compact _ _ (0, cells))
    · intro cell
      have hhorizon : Database.horizon { db with cells } = db.horizon := rfl
      rw [get?_cells_compact h' hopen', hhorizon, hget]
      split
      · rw [Option.map_map]
        refine congrArg (fun f => (db.cells.get? cell).map f) (funext fun st => ?_)
        exact CompactionLemmas.store_prunedAt_prunedAt st (Nat.le_refl _)
      · rfl
  calc (compact.on { db with cells }).2
    _ = { db with cells := (compact.on { db with cells }).2.cells } := by rw [compact_on hopen']
    _ = { db with cells } := by rw [hcells]

/-- Nothing is above the horizon, so what a compaction leaves are the values. -/
theorem fillGrade_compact (hr : Registry db L) (hh : History db L)
    (hhorizon : db.horizon = db.published) : (compact.on db).2.fillGrade = 100 := by
  apply fillGrade_of_settled
  intro st' hst'
  obtain ⟨name, cell, hname, hcell⟩ := mem_attached hst'
  have hpublished : (compact.on db).2.published = db.horizon := by rw [compact_on hopen, hhorizon]
  rw [compact_on hopen] at hname
  obtain ⟨st, tree, hst, hnew, hsettled⟩ := settles_compact h hopen hr hname
  obtain rfl := Option.some.inj (hnew.symm.trans hcell)
  rw [hpublished]
  exact liveKeys_eq_versions hsettled (hhorizon ▸ hh.upTo cell st hst)

end Compacted

end ReclaimingLemmas

/-- **A compaction is complete and counts what it drops.** Of every key of every store that can be
found it leaves the versions above the horizon, and of the others at most one, a value that the
horizon sees; no tombstone at or below the horizon is left. The answer is the number of the versions
that went, and a second compaction finds nothing. When no view was in use, the fill grade is a
hundred then, and it is never below. -/
theorem compaction_law {s : Site} {L : Ledger} (hrun : Run s L) (hopen : s.db.closed = false) :
    CompactionLaw s := by
  have harranged : Arranged s.db := .of_reached hrun.reached
  have hheld : HeldViews s.db := .of_reached hrun.reached
  have hregistry : Registry s.db L := .of_reached hrun.reached
  have hnext : ∀ now, (Event.call now .compact).next s = { s with db := (compact.on s.db).2 } :=
    fun now => congrArg Prod.snd (on_compact now s)
  have hopen' : (compact.on s.db).2.closed = false := by
    rw [compact_on hopen]
    exact hopen
  constructor
  case horizon => exact fun n => hheld.le_horizon_iff
  case settles =>
    intro now name cell hname
    rw [hnext]
    exact settles_compact harranged hopen hregistry hname
  case others =>
    intro now
    refine ⟨(compact.on s.db).2.cells, ?_, fun cell hcell => ?_⟩
    · rw [hnext, compact_on hopen]
    · rw [get?_cells_compact harranged hopen, if_neg]
      intro hmem
      obtain ⟨name, hname⟩ := (SortedMap.mem_values_iff _).1 hmem
      exact hcell name hname
  case counts =>
    intro now
    obtain ⟨gone, hgone, hanswer⟩ := exists_perm_compact harranged hopen
    refine ⟨gone, ?_, ?_⟩
    · rw [hnext]
      exact hgone
    · rw [Event.answer, on_compact, hanswer]
      rfl
  case again =>
    intro now now'
    have harranged' : Arranged (compact.on s.db).2 := by
      have h := Arranged.of_reached (Run.step (.call now .compact) hrun).reached
      rwa [hnext] at h
    obtain ⟨gone, hgone, hanswer⟩ := exists_perm_compact harranged' hopen'
    have hagain := compact_compact harranged hopen harranged'
    -- nothing changes, so as many versions are left as there were
    have hnone : gone.length = 0 := by
      have hlength := hgone.length_eq
      rw [hagain, List.length_append] at hlength
      omega
    simp only [hnext]
    constructor
    · rw [Event.answer, on_compact, hanswer, hnone]
      rfl
    · rw [Event.next, on_compact, hagain]
  case full =>
    intro hcycles hcursors now now'
    have hhorizon : s.db.horizon = s.db.published := by
      refine Nat.le_antisymm (HeldViews.horizon_le_published s.db) (hheld.le_horizon_iff.2 ?_)
      refine ⟨Nat.le_refl _, fun t c hc => absurd hc (hcycles t c), fun i c hc => ?_⟩
      rw [hcursors i] at hc
      cases hc
    rw [hnext, answer_compactStatus hopen',
      fillGrade_compact harranged hopen hregistry (.of_reached hrun.reached) hhorizon]
  case hundred_le =>
    exact fun now => ⟨_, answer_compactStatus hopen now, hundred_le_fillGrade s.db⟩

/-- A key that is put three times and one that is deleted with its prefix, while a cursor still
reads what was there before the last put and the deletion. -/
def pinnedEvents : List Event :=
  [.call 0 (.openStore "a" []), .call 0 (.write 0 none (.put [1] [1])),
    .call 0 (.write 0 none (.put [1] [2])), .call 0 (.write 0 none (.put [2] [3])),
    .call 0 (.openCursor 0 none [] false), .call 0 (.write 0 none (.deletePrefix [2])),
    .call 0 (.write 0 none (.put [1] [4]))]

set_option maxRecDepth 10000 in
/-- Only the first value can go while the cursor lives; the other two that are out of date, and the
tombstone, go when it is closed. -/
theorem compaction_law_pinned :
    let s := (playSmall pinnedEvents).1
    let s' := (playSmall (pinnedEvents ++ [.call 0 .compact, .call 0 (.closeCursor 0)])).1
    (Event.call 0 .compact).answer s = .ok (.number 1) ∧
      (Event.call 0 .compact).answer ((Event.call 0 .compact).next s) = .ok (.number 0) ∧
      (Event.call 0 .compact).answer s' = .ok (.number 2) ∧
      (Event.call 0 .compactStatus).answer s' = .ok (.compaction { current := 400 }) ∧
      (Event.call 0 .compactStatus).answer ((Event.call 0 .compact).next s') =
        .ok (.compaction { current := 100 }) := by
  have hlaw := compaction_law (run_playSmall pinnedEvents) rfl
  have hlaw' := compaction_law
    (run_playSmall (pinnedEvents ++ [.call 0 .compact, .call 0 (.closeCursor 0)])) rfl
  refine ⟨rfl, (hlaw.again 0 0).1, rfl, rfl, hlaw'.full (fun t c hc => ?_) (fun i => ?_) 0 0⟩
  · cases hc
  · match i with
    | 0 => rfl
    | i + 1 => rfl

end SnapshotKv
