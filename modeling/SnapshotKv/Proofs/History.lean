import SnapshotKv.Proofs.Drafts

/-!
# Trees and the history

The tree of a store holds, for the views that are still read, the history that the ledger has noted:
a view that was taken after some commits sees what these left, and the conflict check after that view
finds what the commits since then covered. Compaction does not disturb this, because the horizon is
never above a view that is still read.

Results:
1. `Advances`: what a commit does to the tree of one store.
2. `Sees`: a view sees the first commits of the ledger.
3. `History.step`, `History.of_reached`.
-/

namespace SnapshotKv

open Database

/-! ## 1. Trees that advance -/

/-- The tree `t'` at the published number `p'` is the tree `t` at `p` after some changes. -/
structure Advances (t t' : VersionTree) (p p' : Nat) (changes : List Change) : Prop where
  before : ∀ key view, view ≤ p → t'.get key view = t.get key view
  now : ∀ key, t'.get key p' = Change.after changes key (t.get key p)
  touched : ∀ key view, view ≤ p →
    t'.touchedSince view key = ((Change.lastOn changes key).isSome || t.touchedSince view key)
  upTo : t'.UpTo p'

namespace Advances

theorem of_overwrites {t t' : VersionTree} {p : Nat} {changes : List Change} (ht : t.UpTo p)
    (h : VersionTree.Overwrites t t' (p + 1) changes) : Advances t t' p (p + 1) changes where
  before := fun key view hview => h.before key view (Nat.lt_succ_of_le hview)
  now := fun key => by
    rw [h.since key (p + 1) (Nat.le_refl _), ht.get_eq (Nat.le_succ p)]
  touched := fun key view hview => h.touched key view (Nat.lt_succ_of_le hview)
  upTo := h.upTo

theorem stay {t : VersionTree} {p p' : Nat} (ht : t.UpTo p) (h : p ≤ p') :
    Advances t t p p' [] where
  before := fun _ _ _ => rfl
  now := fun key => ht.get_eq h key
  touched := fun _ _ _ => rfl
  upTo := ht.mono h

end Advances

/-! ## 2. What a view sees -/

/-- A commit reached a store and decided a key there. -/
def Commit.Lands (c : Commit) (cell : Nat) (key : Bytes) : Prop :=
  ∃ change ∈ c.landed cell, change.covers key = true

/-- The value of a key after some commits, as far as they reached its store. -/
def landedValue (loaded : Nat → Bytes → Option Bytes) (commits : List Commit) (cell : Nat)
    (key : Bytes) : Option Bytes :=
  Change.after (commits.flatMap fun c => c.landed cell) key (loaded cell key)

/-- A view sees the first `n` commits, and the commits since then are the changes after it. -/
structure Sees (cells : Pool Store) (loaded : Nat → Bytes → Option Bytes) (commits : List Commit)
    (view n : Nat) : Prop where
  get : ∀ i s key, cells.get? i = some s →
    s.tree.get key view = landedValue loaded (commits.take n) i key
  touched : ∀ i s key, cells.get? i = some s →
    (s.tree.touchedSince view key = true ↔ ∃ c ∈ commits.drop n, c.Lands i key)

/-- The trees hold the history. -/
structure History (db : Database) (L : Ledger) : Prop where
  upTo : ∀ i s, db.cells.get? i = some s → s.tree.UpTo db.published
  current : Sees db.cells L.loaded L.commits db.published L.commits.length
  began_le : ∀ t c, db.txns.get? t = some (.active c) → (L.drafts t).began ≤ L.commits.length
  cycles : ∀ t c, db.txns.get? t = some (.active c) →
    Sees db.cells L.loaded L.commits c.view (L.drafts t).began
  /-- Nothing was loaded into a store that is still to come, or written to it. -/
  unloaded : ∀ i, db.cells.nextId ≤ i → ∀ key, L.loaded i key = none
  written : ∀ c ∈ L.commits, ∀ w ∈ c.writes, w.cell < db.cells.nextId
  /-- Every commit reached the stores that can still be found. -/
  reached : ∀ c ∈ L.commits, ∀ w ∈ c.writes, ∀ name,
    db.stores.get? name = some w.cell → w.cell ∈ c.reached

namespace HistoryLemmas

variable {cells cells' : Pool Store} {loaded : Nat → Bytes → Option Bytes} {commits : List Commit}
  {c : Commit} {p p' view n : Nat}

theorem landedValue_append (loaded : Nat → Bytes → Option Bytes) (commits : List Commit)
    (c : Commit) (i : Nat) (key : Bytes) :
    landedValue loaded (commits ++ [c]) i key =
      Change.after (c.landed i) key (landedValue loaded commits i key) := by
  simp [landedValue, Change.after_append]

theorem exists_drop_append {P : Commit → Prop} (h : n ≤ commits.length) :
    (∃ c' ∈ (commits ++ [c]).drop n, P c') ↔ P c ∨ ∃ c' ∈ commits.drop n, P c' := by
  rw [List.drop_append_of_le_length h]
  simp only [List.mem_append, List.mem_singleton, or_and_right, exists_or, exists_eq_left]
  exact or_comm

/-- A view that is older than a commit does not see it. -/
theorem sees_older (h : Sees cells loaded commits view n) (hview : view ≤ p)
    (hn : n ≤ commits.length)
    (hadv : ∀ i s', cells'.get? i = some s' → ∃ s, cells.get? i = some s ∧
      Advances s.tree s'.tree p p' (c.landed i)) :
    Sees cells' loaded (commits ++ [c]) view n where
  get := fun i s' key hs' => by
    obtain ⟨s, hs, ha⟩ := hadv i s' hs'
    rw [ha.before key view hview, h.get i s key hs, List.take_append_of_le_length hn]
  touched := fun i s' key hs' => by
    obtain ⟨s, hs, ha⟩ := hadv i s' hs'
    rw [ha.touched key view hview, Bool.or_eq_true, Change.lastOn_isSome_iff, h.touched i s key hs,
      exists_drop_append hn]
    rfl

/-- The published view sees the commit. -/
theorem sees_published (h : Sees cells loaded commits p commits.length)
    (hadv : ∀ i s', cells'.get? i = some s' → ∃ s, cells.get? i = some s ∧
      Advances s.tree s'.tree p p' (c.landed i)) :
    Sees cells' loaded (commits ++ [c]) p' (commits ++ [c]).length where
  get := fun i s' key hs' => by
    obtain ⟨s, hs, ha⟩ := hadv i s' hs'
    rw [ha.now key, h.get i s key hs, List.take_length, List.take_length, landedValue_append]
  touched := fun i s' key hs' => by
    obtain ⟨s, hs, ha⟩ := hadv i s' hs'
    rw [ha.upTo.touchedSince_eq (Nat.le_refl _), List.drop_length]
    simp

/-- A view that sees as much in other trees. -/
theorem sees_of_trees (h : Sees cells loaded commits view n)
    (htree : ∀ i s', cells'.get? i = some s' → ∃ s, cells.get? i = some s ∧
      (∀ key, s'.tree.get key view = s.tree.get key view) ∧
      ∀ key, s'.tree.touchedSince view key = s.tree.touchedSince view key) :
    Sees cells' loaded commits view n where
  get := fun i s' key hs' => by
    obtain ⟨s, hs, hget, -⟩ := htree i s' hs'
    rw [hget, h.get i s key hs]
  touched := fun i s' key hs' => by
    obtain ⟨s, hs, -, htouched⟩ := htree i s' hs'
    rw [htouched, h.touched i s key hs]

/-- A further store without contents. -/
theorem sees_add (h : Sees cells loaded commits view n) {s : Store} (htree : s.tree = {})
    (hloaded : ∀ key, loaded cells.nextId key = none)
    (hlanded : ∀ c ∈ commits, c.landed cells.nextId = []) :
    Sees (cells.add s) loaded commits view n where
  get := fun i s' key hs' => by
    rcases Pool.get?_add_eq_some hs' with hs' | ⟨rfl, rfl⟩
    · exact h.get i s' key hs'
    · have hnil : (commits.take n).flatMap (fun c => c.landed cells.nextId) = [] :=
        List.flatMap_eq_nil_iff.2 fun c hc => hlanded c (List.mem_of_mem_take hc)
      rw [htree, landedValue, hnil]
      exact (hloaded key).symm
  touched := fun i s' key hs' => by
    rcases Pool.get?_add_eq_some hs' with hs' | ⟨rfl, rfl⟩
    · exact h.touched i s' key hs'
    · rw [htree, (VersionTree.upTo_empty 0).touchedSince_eq (Nat.zero_le _)]
      constructor
      · intro hf
        exact absurd hf Bool.false_ne_true
      · rintro ⟨c, hc, change, hchange, -⟩
        rw [hlanded c (List.mem_of_mem_drop hc)] at hchange
        cases hchange

end HistoryLemmas

open HistoryLemmas HeldViewsLemmas ContentsLemmas DraftsLemmas

/-- What a write without transaction lands in the stores. -/
theorem HistoryLemmas.landed_plain (L : Ledger) (handle : Nat) (hd : Handle) (change : Change)
    (i : Nat) :
    Commit.landed
      { began := none, writes := [L.writeBy handle hd change],
        reached := [(L.writeBy handle hd change).cell] } i =
      if hd.cell = i then [change] else [] := by
  simp only [Commit.landed, List.mem_singleton, Ledger.writeBy, changesTo_singleton]
  by_cases hi : hd.cell = i
  · rw [if_pos hi.symm]
  · rw [if_neg (Ne.symm hi), if_neg hi]

namespace History

variable {db db' : Database} {L L' : Ledger}

/-- A commit is added to the history. -/
theorem addCommit (h : History db L) (hv : HeldViews db) {c : Commit} {cells : Pool Store}
    {published : Nat} (hnext : cells.nextId = db.cells.nextId)
    (hadv : ∀ i s', cells.get? i = some s' → ∃ s, db.cells.get? i = some s ∧
      Advances s.tree s'.tree db.published published (c.landed i))
    (hwritten : ∀ w ∈ c.writes, w.cell < db.cells.nextId)
    (hreached : ∀ w ∈ c.writes, ∀ name, db.stores.get? name = some w.cell → w.cell ∈ c.reached) :
    History { db with cells, published } (L.addCommit c) where
  upTo := fun i s' hs' => by
    obtain ⟨s, -, ha⟩ := hadv i s' hs'
    exact ha.upTo
  current := sees_published h.current hadv
  began_le := fun t c' hc' => by
    unfold Ledger.addCommit
    rw [List.length_append]
    exact Nat.le_add_right_of_le (h.began_le t c' hc')
  cycles := fun t c' hc' =>
    sees_older (h.cycles t c' hc') (hv.le _ (hv.mem_cycle hc')) (h.began_le t c' hc') hadv
  unloaded := fun i hi => h.unloaded i (hnext ▸ hi)
  written := fun c' hc' w hw => by
    show w.cell < cells.nextId
    rw [hnext]
    rcases List.mem_append.1 hc' with hc' | hc'
    · exact h.written c' hc' w hw
    · rw [List.mem_singleton.1 hc'] at hw
      exact hwritten w hw
  reached := fun c' hc' w hw name hname => by
    rcases List.mem_append.1 hc' with hc' | hc'
    · exact h.reached c' hc' w hw name hname
    · rw [List.mem_singleton.1 hc'] at hw ⊢
      exact hreached w hw name hname

/-- The trees change so that no view at or above the horizon sees a difference. -/
theorem of_trees (h : History db L) (hv : HeldViews db) {cells : Pool Store}
    (hnext : cells.nextId = db.cells.nextId)
    (htree : ∀ i s', cells.get? i = some s' → ∃ s, db.cells.get? i = some s ∧
      (s'.tree = s.tree ∨ s'.tree = s.tree.pruned (db.pins.horizon db.published))) :
    History { db with cells } L := by
  have hview : ∀ view, db.pins.horizon db.published ≤ view → ∀ i s', cells.get? i = some s' →
      ∃ s, db.cells.get? i = some s ∧
        (∀ key, s'.tree.get key view = s.tree.get key view) ∧
        ∀ key, s'.tree.touchedSince view key = s.tree.touchedSince view key := by
    intro view hle i s' hs'
    obtain ⟨s, hs, ht | ht⟩ := htree i s' hs'
    · exact ⟨s, hs, fun key => by rw [ht], fun key => by rw [ht]⟩
    · exact ⟨s, hs, fun key => by rw [ht, VersionTree.get_pruned hle],
        fun key => by rw [ht, VersionTree.touchedSince_pruned hle]⟩
  exact { h with
    upTo := fun i s' hs' => by
      obtain ⟨s, hs, ht | ht⟩ := htree i s' hs'
      · exact ht ▸ h.upTo i s hs
      · exact ht ▸ (h.upTo i s hs).pruned _
    -- the views that matter are the published one and those of the cycles
    current := sees_of_trees h.current (hview _ (HeldViews.horizon_le_published db))
    cycles := fun t c hc => sees_of_trees (h.cycles t c hc) (hview _ (hv.horizon_le_cycle hc))
    unloaded := fun i hi => h.unloaded i (hnext ▸ hi)
    written := fun c hc w hw => hnext.symm ▸ h.written c hc w hw }

theorem of_sameTrees (h : History db L) (hv : HeldViews db) (cell : Nat) {f : Store → Store}
    (hf : ∀ s, (f s).tree = s.tree) : History (db.modifyStore cell f) L :=
  h.of_trees hv (Pool.nextId_modify _ _ _) fun _ _ hs' =>
    (tree_of_modify hf hs').imp fun _ hs => ⟨hs.1, .inl hs.2⟩

theorem withStore (h : History db L) {name : String} (prefixLength : Nat) :
    History (db.withStore name prefixLength) L := by
  have hlanded : ∀ c ∈ L.commits, c.landed db.cells.nextId = [] := by
    intro c hc
    have hno : changesTo c.writes db.cells.nextId = [] :=
      changesTo_eq_nil fun w hw => Nat.ne_of_lt (h.written c hc w hw)
    unfold Commit.landed
    -- what was committed so far went to older stores
    rw [hno, ite_self]
  have hloaded := h.unloaded db.cells.nextId (Nat.le_refl _)
  have hsucc : (db.withStore name prefixLength).cells.nextId = db.cells.nextId + 1 :=
    Pool.nextId_add _ _
  exact { h with
    upTo := fun i s hs => by
      rcases Pool.get?_add_eq_some hs with hs | ⟨-, rfl⟩
      · exact h.upTo i s hs
      · exact VersionTree.upTo_empty _
    current := sees_add h.current rfl hloaded hlanded
    cycles := fun t c hc => sees_add (h.cycles t c hc) rfl hloaded hlanded
    unloaded := fun i hi =>
      h.unloaded i (Nat.le_of_succ_le (Nat.le_trans (Nat.le_of_eq hsucc.symm) hi))
    written := fun c hc w hw => hsucc ▸ Nat.lt_succ_of_lt (h.written c hc w hw)
    reached := fun c hc w hw name' hname' => by
      simp only [Database.withStore, Storage.attach, SortedMap.get?_insert] at hname'
      split at hname'
      · have := h.written c hc w hw
        rw [Option.some.inj hname'] at this
        exact absurd this (Nat.lt_irrefl _)
      · exact h.reached c hc w hw name' hname' }

theorem plain (h : History db L) (hv : HeldViews db) {handle : Nat}
    {hd : Handle} {s : Store} (change : Change) (hs : db.cells.get? hd.cell = some s) :
    History (db.applySingle hd.cell change.onTree) (L.addPlain (L.writeBy handle hd change)) := by
  refine h.addCommit hv (Pool.nextId_modify _ _ _) (fun i s' hs' => ?_) (fun w hw => ?_)
    fun w hw name hname => ?_
  · rw [get?_modifyStore] at hs'
    rw [landed_plain]
    split at hs'
    · next hi =>
      subst hi
      rw [hs, Option.map_some] at hs'
      rw [← Option.some.inj hs', if_pos rfl]
      have ht := h.upTo _ s hs
      exact ⟨s, hs,
        .of_overwrites ht (VersionTree.overwrites_onTree (ht.below (Nat.lt_succ_self _)) change)⟩
    · next hi =>
      rw [if_neg hi]
      exact ⟨s', hs', .stay (h.upTo i s' hs') (Nat.le_succ _)⟩
  · rw [List.mem_singleton.1 hw]
    exact Pool.lt_nextId hs
  · rw [List.mem_singleton.1 hw]
    exact List.mem_singleton_self _

theorem publish (h : History db L) (hr : Registry db L) (hv : HeldViews db) (hd : Drafts db L)
    {t : Nat} {c : Cycle} (hc : db.txns.get? t = some (.active c)) :
    History (db.publish c) (L.addCycle t db.stores.values) := by
  obtain ⟨cells, published, heq, hf, htree, hpublished⟩ := publish_spec hr.ids c
  have hlanded : ∀ i, Commit.landed
      { began := some (L.drafts t).began, writes := (L.drafts t).writes,
        reached := db.stores.values } i =
      if i ∈ db.stores.values then changesTo (L.drafts t).writes i else [] := fun _ => rfl
  rw [heq]
  refine h.addCommit hv (nextId_of_frame hf) (fun i s' hs' => ?_) (fun w hw => ?_)
    fun w _ name hname => (SortedMap.mem_values_iff _).2 ⟨name, hname⟩
  · obtain ⟨s, hs, -⟩ := Pool.get?_of_map_eq hf hs'
    obtain ⟨s'', hs'', ht'⟩ := htree i s hs
    obtain rfl := Option.some.inj (hs''.symm.trans hs')
    have ht := h.upTo i s hs
    refine ⟨s, hs, ?_⟩
    rw [hlanded, ht']
    by_cases hi : i ∈ db.stores.values
    · rw [if_pos hi, if_pos hi, hd.writes t c i s hc hs]
      rcases hpublished with rfl | ⟨rfl, hempty⟩
      · exact .of_overwrites ht (WriteSet.overwrites_applyTo (ht.below (Nat.lt_succ_self _)) _)
      · -- nothing was published, so this cycle has written nothing to the store
        have hnil := hempty i s hi hs
        rw [hd.writes t c i s hc hs, WriteSet.isEmpty_ofChanges_iff] at hnil
        rw [hnil, applyTo_of_isEmpty rfl]
        exact .stay ht (Nat.le_refl _)
    · rw [if_neg hi, if_neg hi]
      rcases hpublished with rfl | ⟨rfl, -⟩
      · exact .stay ht (Nat.le_succ _)
      · exact .stay ht (Nat.le_refl _)
  · obtain ⟨s, hs, -⟩ := hd.claimed t c hc w hw
    exact Pool.lt_nextId hs

theorem endCycle (h : History db L) {t : Nat} {c : Cycle} {final : Txn}
    (hfinal : final.view? = none) : History (db.endCycle t c final) L :=
  { h with
    began_le := fun t' c' hc' => h.began_le t' c' (active_of_endCycle hfinal hc').2
    cycles := fun t' c' hc' => h.cycles t' c' (active_of_endCycle hfinal hc').2 }

/-- A cycle that stays active with its view. -/
theorem setCycle (h : History db L) {t : Nat} {c : Cycle} (c' : Cycle)
    (hc : db.txns.get? t = some (.active c)) (hview : c'.view = c.view) (drafts : Nat → Draft)
    (hd : ∀ t', (drafts t').began = (L.drafts t').began) :
    History (db.setCycle t c') { L with drafts } :=
  { h with
    began_le := fun t' c₁ h₁ => by
      obtain ⟨c₀, h₀, -⟩ := active_of_setCycle Cycle.view hc hview h₁
      exact (hd t').symm ▸ h.began_le t' c₀ h₀
    cycles := fun t' c₁ h₁ => by
      obtain ⟨c₀, h₀, hv₀⟩ := active_of_setCycle Cycle.view hc hview h₁
      rw [hv₀, hd t']
      exact h.cycles t' c₀ h₀ }

theorem beginTxn (h : History db L) {t : Nat} (now : Nat) :
    History
      { db.setCycle t { id := db.nextCycle, view := db.published, started := now } with
        nextCycle := db.nextCycle + 1
        pins := db.pins.pin db.published }
      (L.addBegin t) :=
  { h with
    began_le := fun t' c hc => by
      rcases get?_setTxn hc with ⟨hne, hold⟩ | ⟨rfl, -⟩
      · rw [L.drafts_addBegin_of_ne hne]
        exact h.began_le t' c hold
      · rw [L.drafts_addBegin_self]
        exact Nat.le_refl _
    cycles := fun t' c hc => by
      rcases get?_setTxn hc with ⟨hne, hold⟩ | ⟨rfl, hnew⟩
      · rw [L.drafts_addBegin_of_ne hne]
        exact h.cycles t' c hold
      · cases hnew
        rw [L.drafts_addBegin_self]
        exact h.current }

theorem began_addWrite (L : Ledger) (t t' : Nat) (w : Write) :
    ((L.addWrite t w).drafts t').began = (L.drafts t').began := by
  by_cases h : t = t'
  · subst h
    rw [L.drafts_addWrite_self]
  · rw [L.drafts_addWrite_of_ne w h]

theorem opened (h : db.Opened) : History db (Ledger.opened db) := by
  have hnone := not_active_of_opened h
  obtain ⟨-, home, settings, config, lock, tree, ht, hat⟩ := h.attached
  have hpublished : db.published = 0 := by rw [hat.same]
  have hupTo : ∀ i s, db.cells.get? i = some s → s.tree.UpTo db.published := by
    intro i s hs
    obtain ⟨r, -, rfl⟩ := (hat.cells i s).1 hs
    exact hpublished ▸ ht r
  constructor
  · exact hupTo
  · refine ⟨fun i s key hs => ?_, fun i s key hs => ?_⟩
    · simp [landedValue, Ledger.opened, Change.after, hs]
    · rw [(hupTo i s hs).touchedSince_eq (Nat.le_refl _)]
      simp [Ledger.opened]
  · intro t c hc
    exact absurd hc (hnone t c)
  · intro t c hc
    exact absurd hc (hnone t c)
  · intro i hi key
    have : db.cells.get? i = none := by
      cases hs : db.cells.get? i with
      | none => rfl
      | some s => exact absurd (Pool.lt_nextId hs) (Nat.not_lt.2 hi)
    simp [Ledger.opened, this]
  · intro c hc
    exact absurd hc List.not_mem_nil
  · intro c hc
    exact absurd hc List.not_mem_nil

/-- Every step keeps the trees in line with the history. -/
theorem step (hr : Registry db L) (hv : HeldViews db) (hd : Drafts db L)
    (hstep : Step db L db' L') (h : History db L) : History db' L' := by
  cases hstep with
  | createStore name prefixLength hnew => exact h.withStore prefixLength
  | @dropStore name cell s hname hs hopen =>
    exact { h with
      reached := fun c hc w hw name' hname' => by
        rw [SortedMap.get?_erase] at hname'
        split at hname'
        · cases hname'
        · exact h.reached c hc w hw name' hname' }
  | @openStore name cell s settings hname hs hopen =>
    exact { h.of_sameTrees hv (f := fun s => { s with isOpen := true }) cell fun _ => rfl with }
  | @closeStore handle hd hh =>
    exact { h.of_sameTrees hv (f := fun s => { s with isOpen := false }) hd.cell fun _ => rfl with }
  | saved cell =>
    exact h.of_sameTrees hv (f := fun s => { s with dirty := false }) cell fun _ => rfl
  | plain change hh hs hplain => exact h.plain hv change hs
  | allocTxn =>
    exact { h with
      began_le := fun t c hc => h.began_le t c (active_of_allocTxn hc)
      cycles := fun t c hc => h.cycles t c (active_of_allocTxn hc) }
  | beginTxn now hx hidle => exact h.beginTxn now
  | @doom t c hc => exact h.setCycle { c with doomed := true } hc rfl L.drafts fun _ => rfl
  | @write t handle c hd s change hc hh hs hbound hclaim hfresh =>
    exact h.setCycle
      { c with writes := c.writes.insert s.id (change.onWrites (c.writesTo s.id)) } hc rfl
      (L.addWrite t (L.writeBy handle hd change)).drafts fun t' => began_addWrite L t t' _
  | endCycle hc => exact h.endCycle rfl
  | commit hc hdoomed => exact (h.publish hr hv hd hc).endCycle rfl
  | compact =>
    exact h.of_trees hv (nextId_of_frame (frame_compact _ _ (0, db.cells)))
      fun i s' hs' => get?_compact _ _ (0, db.cells) hs'
  | fileFault | list | number | delist | close | claim | openCursor | closeCursor | moveCursor
  | refreshCursor =>
    exact { h with }

/-- The trees hold the history in all that is reached. -/
theorem of_reached (h : Reached db L) : History db L := by
  induction h with
  | opened hdb => exact opened hdb
  | step hr hstep ih =>
    exact step (.of_reached hr) (.of_reached hr) (.of_reached hr) hstep ih

end History

end SnapshotKv
