import SnapshotKv.Proofs.Agreement
import SnapshotKv.Proofs.Endings
import SnapshotKv.Proofs.Outdated

/-!
# Commits that commute

Two active transactions never have claims on one key, so their commits write different keys, and it
does not matter which one comes first. What differs is the numbers that the commits get, and the order
of their tombstones. No view that anybody can hold tells these apart: the views from before see
neither commit, and those to come see both.

Results:
1. `committed_eq`: the database after a commit; `Landed`: what that does to one store.
2. `committed_comm`: after two commits, in one order or the other, databases that agree.
3. `commits_commute`: so nobody who reads can tell the order.
-/

namespace SnapshotKv

open Database

/-! ## 1. One commit -/

/-- The database after the commit of a cycle. -/
def Database.committed (db : Database) (t : Nat) (c : Cycle) : Database :=
  (db.publish c).endCycle t c .committed

/-- The transaction is active at a time with a cycle that can be committed: it is not expired, and has
lost no conflict. -/
structure Database.Committable (db : Database) (now t : Nat) (c : Cycle) : Prop where
  active : db.txns.get? t = some (.active c)
  undoomed : c.doomed = false
  unexpired : db.isExpired now c = false

/-- A value with what a write set says about its key over it. -/
def Overlay.over : Overlay → Option Bytes → Option Bytes
  | .value v, _ => some v
  | .deleted, _ => none
  | .absent, old => old

/-- What a commit of some writes to a store does to it. -/
structure Landed (db db' : Database) (w : WriteSet) (s s' : Store) : Prop where
  frame : s'.frame = s.frame
  get : ∀ key, s'.tree.get key db'.published =
    (w.lookup key).over (s.tree.get key db.published)
  before : ∀ key view, view ≤ db.published → s'.tree.get key view = s.tree.get key view
  outdates : ∀ filter view, view ≤ db.published →
    s'.tree.prefixDeletedSince filter view =
      (w.prefixes.any (·.comparable filter) || s.tree.prefixDeletedSince filter view)

namespace CommutingLemmas

open ContentsLemmas

variable {db : Database} {t t' : Nat} {c c' : Cycle}

theorem committed_eq (hids : db.DistinctIds) (t : Nat) (c : Cycle) :
    ∃ cells,
      db.committed t c = { db with
        cells
        published := if db.applies c then db.published + 1 else db.published
        locks := db.locks.release c.id
        pins := db.pins.unpin c.view
        txns := db.txns.modify t fun _ => .committed } ∧
      cells.map Store.frame = db.cells.map Store.frame := by
  obtain ⟨cells, heq, hframe, -⟩ := publish_eq hids c
  refine ⟨cells, ?_, hframe⟩
  unfold committed
  rw [heq]
  rfl

/-- What a cycle has for a store: its writes, when the store can be found. -/
def landing (db : Database) (c : Cycle) (i : Nat) (s : Store) : WriteSet :=
  if i ∈ db.stores.values then c.writesTo s.id else {}

theorem closed_committed (hids : db.DistinctIds) (t : Nat) (c : Cycle) :
    (db.committed t c).closed = db.closed := by
  obtain ⟨cells, heq, -⟩ := committed_eq hids t c
  rw [heq]

theorem published_le_committed (hids : db.DistinctIds) (t : Nat) (c : Cycle) :
    db.published ≤ (db.committed t c).published := by
  obtain ⟨cells, heq, -⟩ := committed_eq hids t c
  rw [heq]
  show db.published ≤ if db.applies c then db.published + 1 else db.published
  split
  · exact Nat.le_succ _
  · exact Nat.le_refl _

theorem landed_committed (hids : db.DistinctIds)
    (hupTo : ∀ i s, db.cells.get? i = some s → s.tree.UpTo db.published) (t : Nat) (c : Cycle)
    {i : Nat} {s : Store} (hs : db.cells.get? i = some s) :
    ∃ s', (db.committed t c).cells.get? i = some s' ∧
      Landed db (db.committed t c) (landing db c i s) s s' := by
  obtain ⟨cells, heq, hframe, htrees⟩ := publish_eq hids c
  obtain ⟨s', hs', htree⟩ := htrees i s hs
  have hcells : (db.committed t c).cells = cells := congrArg Database.cells heq
  obtain ⟨s₀, hs₀, hframe'⟩ := Pool.get?_of_map_eq hframe hs'
  obtain rfl := Option.some.inj (hs.symm.trans hs₀)
  have hs' : (db.committed t c).cells.get? i = some s' := hcells ▸ hs'
  refine ⟨s', hs', hframe', fun key => ?_, fun key view hview => ?_, fun filter view hview => ?_⟩
  · unfold landing
    split
    · next hi =>
      obtain ⟨s₁, hs₁, hget, -⟩ := EndingLemmas.get_publish hids hupTo c hi hs
      obtain rfl := Option.some.inj (hs'.symm.trans hs₁)
      refine (hget key).trans ?_
      cases (c.writesTo s.id).lookup key <;> rfl
    · next hi =>
      rw [htree, if_neg hi]
      exact (hupTo i s hs).get_eq (published_le_committed hids t c) key
  · rw [htree]
    split
    · exact WriteSet.get_applyTo_of_lt _ _ key (Nat.lt_succ_of_le hview)
    · rfl
  · rw [htree]
    unfold landing
    split
    · exact OutdatedLemmas.prefixDeletedSince_append (WriteSet.tombstones_applyTo _ _ _)
        (Nat.lt_succ_of_le hview) filter
    · rfl

theorem get?_committed_of_none (hids : db.DistinctIds) {i : Nat} (h : db.cells.get? i = none) :
    (db.committed t c).cells.get? i = none := by
  obtain ⟨cells, heq, hframe⟩ := committed_eq hids t c
  rw [heq]
  have hsame : (cells.map Store.frame).get? i = (db.cells.map Store.frame).get? i := by rw [hframe]
  rw [Pool.get?_map, Pool.get?_map, h] at hsame
  exact Option.map_eq_none_iff.1 hsame

/-- A commit pins no view. -/
theorem mem_pins_committed (hids : db.DistinctIds) {view : Nat}
    (h : view ∈ (db.committed t c).pins.views) : view ∈ db.pins.views := by
  obtain ⟨cells, heq, -⟩ := committed_eq hids t c
  rw [heq] at h
  exact List.mem_of_mem_erase h

/-- A commit leaves another transaction as ready to be committed as it was. -/
theorem committable_committed (hids : db.DistinctIds) (hne : t ≠ t') {now : Nat}
    (h : db.Committable now t' c') : (db.committed t c).Committable now t' c' := by
  obtain ⟨cells, heq, -⟩ := committed_eq hids t c
  rw [heq]
  refine ⟨?_, h.undoomed, h.unexpired⟩
  exact (Pool.get?_modify _ _ _ _).trans ((if_neg hne).trans h.active)

theorem on_commitTxn {s : Site} (hopen : s.db.closed = false) {now : Nat}
    (h : s.db.Committable now t c) :
    (Event.call now (.commitTxn t)).attempt.on s =
      (.ok .done, { s with db := s.db.committed t c }) := by
  simp only [Event.attempt, Call.attempt, Attempt.on_map, Storage.on_onDatabase,
    EndingLemmas.commitTxn_of_active hopen h.active, h.undoomed, h.unexpired]
  rfl

theorem refused_commitTxn {s : Site} (hclosed : s.db.closed = true) (now t : Nat) :
    (Event.call now (.commitTxn t)).attempt.on s =
      (.error (Fault.databaseClosed s.db.home), s) := by
  simp only [Event.attempt, Call.attempt, Attempt.on_map, Storage.on_onDatabase, commitTxn,
    activeCycle, Attempt.on_bind, Attempt.on_get, Attempt.on_check, checkOpen, hclosed]
  rfl

theorem run_committed {s : Site} {L : Ledger} (hrun : Run s L) (hopen : s.db.closed = false)
    {now : Nat} (h : s.db.Committable now t c) :
    ∃ L', Run { s with db := s.db.committed t c } L' := by
  have hnext : (Event.call now (.commitTxn t)).next s = { s with db := s.db.committed t c } :=
    congrArg Prod.snd (on_commitTxn hopen h)
  exact ⟨_, hnext ▸ hrun.step (.call now (.commitTxn t))⟩

/-! ## 2. Two commits -/

theorem cellOfId?_committed (hids : db.DistinctIds) (t : Nat) (c : Cycle) (id : Nat) :
    (db.committed t c).cellOfId? id = db.cellOfId? id := by
  obtain ⟨cells, heq, hframe⟩ := committed_eq hids t c
  rw [heq]
  exact cellOfId?_of_frame hframe id

/-- What a commit applies does not depend on the commits before it. -/
theorem applies_committed (hids : db.DistinctIds) (t : Nat) (c c' : Cycle) :
    (db.committed t c).applies c' = db.applies c' := by
  have happlied : isApplied (db.committed t c) = isApplied db := by
    funext e
    unfold isApplied
    rw [cellOfId?_committed hids]
  unfold applies
  rw [happlied]

theorem modify_comm {α : Type} (p : Pool α) {i j : Nat} (hne : i ≠ j) (f g : α → α) :
    (p.modify i f).modify j g = (p.modify j g).modify i f := by
  refine Pool.ext_get? (by simp) fun k => ?_
  rw [Pool.get?_modify, Pool.get?_modify, Pool.get?_modify, Pool.get?_modify]
  by_cases hi : i = k
  · have hj : j ≠ k := fun hj => hne (hi.trans hj.symm)
    rw [if_neg hj, if_pos hi, if_pos hi, if_neg hj]
  · rw [if_neg hi, if_neg hi]

theorem release_comm (locks : LockTable) (id id' : Nat) :
    (locks.release id).release id' = (locks.release id').release id :=
  congrArg₂ LockTable.mk (List.filter_comm _ _ _) (List.filter_comm _ _ _)

theorem published_comm (p q : Bool) (n : Nat) :
    (if p then (if q then n + 1 else n) + 1 else if q then n + 1 else n) =
      if q then (if p then n + 1 else n) + 1 else if p then n + 1 else n := by
  cases p <;> cases q <;> rfl

/-- The commits of two transactions, in one order and in the other, leave databases that differ in the
stores alone. -/
theorem committed_comm (hne : t ≠ t') (hids : db.DistinctIds)
    (hids₁ : (db.committed t c).DistinctIds) (hids₂ : (db.committed t' c').DistinctIds) :
    ∃ cells, (db.committed t' c').committed t c =
      { (db.committed t c).committed t' c' with cells } := by
  obtain ⟨cells₁, heq₁, -⟩ := committed_eq hids₁ t' c'
  obtain ⟨cells₂, heq₂, -⟩ := committed_eq hids₂ t c
  refine ⟨cells₂, ?_⟩
  rw [heq₁, heq₂, applies_committed hids, applies_committed hids]
  obtain ⟨_, heq, -⟩ := committed_eq hids t c
  obtain ⟨_, heq', -⟩ := committed_eq hids t' c'
  have htxns := modify_comm db.txns hne (fun _ => .committed) fun _ => .committed
  have hlocks := release_comm db.locks c.id c'.id
  have hpins : (db.pins.unpin c.view).unpin c'.view = (db.pins.unpin c'.view).unpin c.view :=
    congrArg Pins.mk (List.erase_comm _ _)
  have hpublished := published_comm (db.applies c) (db.applies c') db.published
  rw [heq, heq']
  simp only [htxns, hlocks, hpins, hpublished]

/-- Two commits with disjoint writes to a store leave stores that agree in one order and in the
other, in the views from before and the one that is published in the end. -/
theorem agrees_of_landed {db₁ db₂ db₁' db₂' : Database} {w w' : WriteSet} {s s₁ s₂ s₁' s₂' : Store}
    (h₁ : Landed db db₁ w s s₁) (h₂ : Landed db₁ db₂ w' s₁ s₂) (h₁' : Landed db db₁' w' s s₁')
    (h₂' : Landed db₁' db₂' w s₁' s₂') (hle : db.published ≤ db₁.published)
    (hle' : db.published ≤ db₁'.published) (hpublished : db₂'.published = db₂.published)
    (hdisjoint : ∀ key, w.lookup key = .absent ∨ w'.lookup key = .absent)
    (hupTo : s₂.tree.UpTo db₂.published) (hupTo' : s₂'.tree.UpTo db₂'.published) :
    s₂.Agrees (fun view => view ≤ db.published ∨ view = db₂.published) s₂' := by
  refine ⟨h₂'.frame.trans (h₁'.frame.trans (h₂.frame.trans h₁.frame).symm), ?_, ?_⟩
  · rintro view (hview | rfl) key
    · rw [h₂.before key view (Nat.le_trans hview hle), h₁.before key view hview,
        h₂'.before key view (Nat.le_trans hview hle'), h₁'.before key view hview]
    · rw [h₂.get, h₁.get, ← hpublished, h₂'.get, h₁'.get]
      -- at most one of the two has anything to say about the key
      rcases hdisjoint key with hno | hno <;> rw [hno] <;> rfl
  · rintro view (hview | rfl) filter
    · rw [h₂.outdates filter view (Nat.le_trans hview hle), h₁.outdates filter view hview,
        h₂'.outdates filter view (Nat.le_trans hview hle'), h₁'.outdates filter view hview,
        Bool.or_left_comm]
    · rw [OutdatedLemmas.prefixDeletedSince_of_upTo hupTo, ← hpublished,
        OutdatedLemmas.prefixDeletedSince_of_upTo hupTo']

theorem decides_of_lookup {ws : List Write} {i : Nat} {key : Bytes}
    (h : (WriteSet.ofChanges (changesTo ws i)).lookup key ≠ .absent) : Decides ws i key := by
  have hshadows : (WriteSet.ofChanges (changesTo ws i)).shadows key = true := decide_eq_true h
  rw [WriteSet.shadows_ofChanges, Change.lastOn_isSome_iff] at hshadows
  obtain ⟨change, hmem, hcovers⟩ := hshadows
  obtain ⟨w, hw, rfl⟩ := List.mem_map.1 hmem
  obtain ⟨hw, hcell⟩ := List.mem_filter.1 hw
  exact ⟨w, hw, by simpa using hcell, hcovers⟩

/-- The locks keep the writes of two active transactions apart. -/
theorem landing_disjoint {s : Site} {L : Ledger} (hrun : Run s L) (hne : t ≠ t')
    (hc : s.db.txns.get? t = some (.active c)) (hc' : s.db.txns.get? t' = some (.active c'))
    {i : Nat} {st : Store} (hs : s.db.cells.get? i = some st) (key : Bytes) :
    (landing s.db c i st).lookup key = .absent ∨ (landing s.db c' i st).lookup key = .absent := by
  have hdrafts := Drafts.of_reached hrun.reached
  unfold landing
  split
  · rw [hdrafts.writes t c i st hc hs, hdrafts.writes t' c' i st hc' hs]
    refine Classical.or_iff_not_imp_left.2 fun hdecides => ?_
    by_contra hdecides'
    exact hdrafts.disjoint (HeldViews.of_reached hrun.reached) hc hc' hne
      (decides_of_lookup hdecides) (decides_of_lookup hdecides')
  · exact .inl rfl

/-- What a cycle has for a store stays the same when another cycle is committed. -/
theorem landing_committed (hids : db.DistinctIds) {i : Nat} {s s' : Store}
    (hframe : s'.frame = s.frame) :
    landing (db.committed t c) c' i s' = landing db c' i s := by
  obtain ⟨cells, heq, -⟩ := committed_eq hids t c
  unfold landing
  rw [heq, id_of_frame hframe]

/-- After two commits, in one order or in the other, the databases agree in all views in use. -/
theorem agrees_committed {s : Site} {L : Ledger} (hrun : Run s L) (hopen : s.db.closed = false)
    (hne : t ≠ t') {now₁ now₂ now₃ now₄ : Nat} (h₁ : s.db.Committable now₁ t c)
    (h₂ : s.db.Committable now₂ t' c') (h₃ : s.db.Committable now₃ t' c')
    (h₄ : s.db.Committable now₄ t c) :
    ∃ cells, (s.db.committed t' c').committed t c =
        { (s.db.committed t c).committed t' c' with cells } ∧
      ((s.db.committed t c).committed t' c').Agrees
        (fun view => view ≤ s.db.published ∨
          view = ((s.db.committed t c).committed t' c').published) cells := by
  have hids := (Registry.of_reached hrun.reached).ids
  have hupTo := (History.of_reached hrun.reached).upTo
  have hheld := HeldViews.of_reached hrun.reached
  have hopen₁ := (closed_committed hids t c).trans hopen
  have hopen₃ := (closed_committed hids t' c').trans hopen
  -- all the databases on the two ways are those of runs
  obtain ⟨L₁, hrun₁⟩ := run_committed hrun hopen h₁
  obtain ⟨L₂, hrun₂⟩ := run_committed hrun₁ hopen₁ (committable_committed hids hne h₂)
  obtain ⟨L₃, hrun₃⟩ := run_committed hrun hopen h₃
  obtain ⟨L₄, hrun₄⟩ := run_committed hrun₃ hopen₃ (committable_committed hids hne.symm h₄)
  have hids₁ := (Registry.of_reached hrun₁.reached).ids
  have hids₃ := (Registry.of_reached hrun₃.reached).ids
  have hupTo₂ := (History.of_reached hrun₂.reached).upTo
  have hupTo₄ := (History.of_reached hrun₄.reached).upTo
  have hheld₂ := HeldViews.of_reached hrun₂.reached
  obtain ⟨cells, heq⟩ := committed_comm hne hids hids₁ hids₃
  have hcells : ((s.db.committed t' c').committed t c).cells = cells := congrArg Database.cells heq
  have hpublished : ((s.db.committed t' c').committed t c).published =
    ((s.db.committed t c).committed t' c').published := by rw [heq]
  refine ⟨cells, heq, fun i => ?_, .inr rfl, fun u x hx => .inl ?_, fun j x hx => .inl ?_⟩
  · rw [← hcells]
    cases hs : s.db.cells.get? i with
    | none =>
      exact .inl ⟨get?_committed_of_none hids₁ (get?_committed_of_none hids hs),
        get?_committed_of_none hids₃ (get?_committed_of_none hids hs)⟩
    | some st =>
      obtain ⟨st₁, hs₁, hland₁⟩ := landed_committed hids hupTo t c hs
      obtain ⟨st₃, hs₃, hland₃⟩ := landed_committed hids hupTo t' c' hs
      obtain ⟨st₂, hs₂, hland₂⟩ :=
        landed_committed hids₁ (History.of_reached hrun₁.reached).upTo t' c' hs₁
      obtain ⟨st₄, hs₄, hland₄⟩ :=
        landed_committed hids₃ (History.of_reached hrun₃.reached).upTo t c hs₃
      rw [landing_committed hids hland₁.frame] at hland₂
      rw [landing_committed hids hland₃.frame] at hland₄
      exact .inr ⟨st₂, st₄, hs₂, hs₄, agrees_of_landed hland₁ hland₂ hland₃ hland₄
        (published_le_committed hids t c) (published_le_committed hids t' c')
        hpublished
        (landing_disjoint hrun hne h₁.active h₂.active hs) (hupTo₂ i st₂ hs₂) (hupTo₄ i st₄ hs₄)⟩
  · exact hheld.le _ (mem_pins_committed hids (mem_pins_committed hids₁ (hheld₂.mem_cycle hx)))
  · exact hheld.le _ (mem_pins_committed hids (mem_pins_committed hids₁ (hheld₂.mem_cursor hx)))

end CommutingLemmas

open CommutingLemmas

/-! ## 3. The order of two commits -/

/-- Two transactions that have not been committed when the database is closed. -/
def closedBeside : List Event :=
  [.call 0 (.openStore "a" ["transactions.enabled=true"]), .call 0 .allocTxn, .call 0 .allocTxn,
    .call 0 (.beginTxn 0), .call 0 (.beginTxn 1),
    .call 0 (.write 0 (some 0) (.put [107] [1])), .call 0 (.write 0 (some 1) (.put [108] [2])),
    .call 0 .close]

set_option maxRecDepth 2000 in
/-- It takes more for the commits to succeed than transactions that could be committed: closing the
database leaves these active, and refuses their commits. -/
theorem commits_refused_when_closed :
    ¬ ∀ (s : Site) (L : Ledger), Run s L → ∀ (t t' : Nat) (c c' : Cycle), t ≠ t' →
      s.db.Committable 0 t c → s.db.Committable 0 t' c' →
        s.answers [.call 0 (.commitTxn t), .call 0 (.commitTxn t')] = [.ok .done, .ok .done] := by
  intro h
  have hactive : (playSmall closedBeside).1.db.Committable 0 0 _ :=
    ⟨rfl, rfl, by simp [isExpired]⟩
  have hactive' : (playSmall closedBeside).1.db.Committable 0 1 _ :=
    ⟨rfl, rfl, by simp [isExpired]⟩
  have hrefused : (playSmall closedBeside).1.answers
      [.call 0 (.commitTxn 0), .call 0 (.commitTxn 1)] =
        [.error (Fault.databaseClosed (playSmall closedBeside).1.db.home),
          .error (Fault.databaseClosed (playSmall closedBeside).1.db.home)] := rfl
  have hboth := h _ _ (run_playSmall closedBeside) 0 1 _ _ (by decide) hactive hactive'
  rw [hrefused] at hboth
  cases hboth

/-- In every run, two active transactions that are not expired and have lost no conflict can be
committed in either order. Unless the database is closed, where every commit is refused and changes
nothing, both commits succeed. Every store has the same contents afterwards under the same published number, and no calls
that only read tell the orders apart: no gets, and no scans of cursors that were made before, or are
made now, with any binding, filter and direction. -/
theorem commits_commute {s : Site} {L : Ledger} (hrun : Run s L) {t t' : Nat} {c c' : Cycle}
    (hne : t ≠ t') {now₁ now₂ now₃ now₄ : Nat}
    (h₁ : s.db.Committable now₁ t c) (h₂ : s.db.Committable now₂ t' c')
    (h₃ : s.db.Committable now₃ t' c') (h₄ : s.db.Committable now₄ t c) :
    let oneWay : List Event := [.call now₁ (.commitTxn t), .call now₂ (.commitTxn t')]
    let otherWay : List Event := [.call now₃ (.commitTxn t'), .call now₄ (.commitTxn t)]
    let answer : Except Fault Reply :=
      if s.db.closed then .error (Fault.databaseClosed s.db.home) else .ok .done
    s.answers oneWay = [answer, answer] ∧ s.answers otherWay = [answer, answer] ∧
      (s.db.closed = true → s.after oneWay = s ∧ s.after otherWay = s) ∧
      (s.after oneWay).db.published = (s.after otherWay).db.published ∧
      (∀ i, ((s.after oneWay).db.cells.get? i).map
          (fun st => st.tree.contents (s.after oneWay).db.published) =
        ((s.after otherWay).db.cells.get? i).map
          (fun st => st.tree.contents (s.after otherWay).db.published)) ∧
      ∀ events : List Event, (∀ e ∈ events, e.onlyReads = true) →
        (s.after oneWay).answers events = (s.after otherWay).answers events := by
  cases hopen : s.db.closed with
  | true =>
    simp only [Site.answers, Site.after, List.foldl_cons, List.foldl_nil, Event.answer, Event.next,
      refused_commitTxn hopen, ↓reduceIte]
    exact ⟨trivial, trivial, fun _ => ⟨trivial, trivial⟩, trivial, fun _ => trivial,
      fun _ _ => trivial⟩
  | false =>
    have hids := (Registry.of_reached hrun.reached).ids
    have hon₁ := on_commitTxn hopen h₁
    have hon₂ := on_commitTxn (s := { s with db := s.db.committed t c })
      ((closed_committed hids t c).trans hopen) (committable_committed hids hne h₂)
    have hon₃ := on_commitTxn hopen h₃
    have hon₄ := on_commitTxn (s := { s with db := s.db.committed t' c' })
      ((closed_committed hids t' c').trans hopen) (committable_committed hids hne.symm h₄)
    obtain ⟨cells, heq, hagrees⟩ := agrees_committed hrun hopen hne h₁ h₂ h₃ h₄
    simp only [Site.answers, Site.after, List.foldl_cons, List.foldl_nil, Event.answer, Event.next,
      hon₁, hon₂, hon₃, hon₄, heq]
    refine ⟨rfl, rfl, fun hclosed => absurd hclosed Bool.false_ne_true, trivial, fun i => ?_,
      fun events hreads => ?_⟩
    · rcases hagrees.cells i with ⟨hnone, hnone'⟩ | ⟨st, st', hs, hs', hst⟩
      · rw [hnone, hnone']
      · rw [hs, hs']
        refine congrArg some (SortedMap.ext_get? fun key => ?_)
        rw [VersionTree.get?_contents, VersionTree.get?_contents, hst.tree.get _ (.inr rfl)]
    · exact (hagrees.answers hreads).symm

/-- A committed record, and two transactions: the first one deletes a prefix and puts a record under
it, the second one puts a record under another prefix. -/
def besideEachOther : List Event :=
  [.call 0 (.openStore "a" ["transactions.enabled=true"]), .call 0 .allocTxn, .call 0 .allocTxn,
    .call 0 (.beginTxn 0), .call 0 (.write 0 (some 0) (.put [107, 1] [1])), .call 0 (.commitTxn 0),
    .call 0 (.beginTxn 0), .call 0 (.beginTxn 1),
    .call 0 (.write 0 (some 0) (.deletePrefix [107])),
    .call 0 (.write 0 (some 0) (.put [107, 2] [2])),
    .call 0 (.write 0 (some 1) (.put [108] [3]))]

/-- A get and a full scan. -/
def readingEvents : List Event :=
  [.call 0 (.get 0 none [107, 1]), .call 0 (.openCursor 0 none [] false),
    .call 0 (.readCursor 0), .call 0 (.readCursor 0), .call 0 (.readCursor 0)]

set_option maxRecDepth 2000 in
/-- Whichever of the two is committed first, the first record is gone and the scan finds the two
others. -/
theorem commits_commute_beside :
    let s := (playSmall besideEachOther).1
    let other := s.after [.call 0 (.commitTxn 1), .call 0 (.commitTxn 0)]
    (s.after [.call 0 (.commitTxn 0), .call 0 (.commitTxn 1)]).answers readingEvents =
        other.answers readingEvents ∧
      other.answers readingEvents =
        [.ok (.value none), .ok (.number 0), .ok (.record (some ([107, 2], [2]))),
          .ok (.record (some ([108], [3]))), .ok (.record none)] := by
  refine ⟨?_, rfl⟩
  have hactive : (playSmall besideEachOther).1.db.Committable 0 0 _ :=
    ⟨rfl, rfl, by simp [isExpired]⟩
  have hactive' : (playSmall besideEachOther).1.db.Committable 0 1 _ :=
    ⟨rfl, rfl, by simp [isExpired]⟩
  exact (commits_commute (run_playSmall besideEachOther) (by decide) hactive hactive' hactive'
    hactive).2.2.2.2.2 readingEvents (by decide)

end SnapshotKv
