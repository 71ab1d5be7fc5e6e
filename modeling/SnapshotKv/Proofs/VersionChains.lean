import SnapshotKv.Proofs.Chains
import SnapshotKv.Proofs.Durability
import SnapshotKv.Proofs.ReadOnlyRuns

/-!
# The chains of an open database

From the opening on, through every event, the lists of versions in all stores are chains up to the
number of the last commit. A change of a database either only drops old versions, or it commits to the
stores at the next number, which is above everything in them; and each event makes at most one such
change. So the commits have the numbers 1, 2, 3 and so on, and the number of a version names the commit
that it came with.

Results:
1. `Step.lands`: what a step does to the trees and to the published number.
2. `Event.goes`: what an event does to the chains.
3. `commitNumbers_eq`: the numbers of the commits; `version_origin`, `tombstone_origin`: where a
   version or a tombstone comes from.
4. `opened_spec`: the trees of a database that was just opened.
5. `plain_lands`, `commit_lands`: what a write and a commit insert.
6. `versionChain_law`.
-/

namespace SnapshotKv

open Database Storage VersionTree ContentsLemmas LoadingLemmas WithinLemmas

/-! ## 1. What a step does to the trees -/

/-- What a change does to the trees of a database: it leaves or prunes each of them, or it commits a
write set to each at the next number, which is published then and noted as one more commit. -/
inductive Lands (db : Database) (L : Ledger) (db' : Database) (L' : Ledger) : Prop
  | keeps (hpublished : db'.published = db.published)
      (hcommits : L.commits.length ≤ L'.commits.length)
      (htrees : ∀ i, Store.treeAt db'.cells i = Store.treeAt db.cells i ∨
        ∃ horizon, Store.treeAt db'.cells i = (Store.treeAt db.cells i).pruned horizon)
  | commits (hpublished : db'.published = db.published + 1)
      (hcommits : L.commits.length < L'.commits.length)
      (htrees : ∀ i, ∃ w : WriteSet,
        Store.treeAt db'.cells i = w.applyTo (Store.treeAt db.cells i) (db.published + 1))

namespace ChainLemmas

theorem treeAt_of_map {cells cells' : Pool Store} (h : cells'.map Store.tree = cells.map Store.tree)
    (i : Nat) : Store.treeAt cells' i = Store.treeAt cells i := by
  unfold Store.treeAt
  rw [← Pool.get?_map, h, Pool.get?_map]

theorem treeAt_add (cells : Pool Store) (s : Store) (h : s.tree = {}) (i : Nat) :
    Store.treeAt (cells.add s) i = Store.treeAt cells i := by
  unfold Store.treeAt
  rw [Pool.get?_add]
  split
  · next hi =>
    rw [hi, Pool.get?_nextId]
    exact h
  · rfl

theorem treeAt_compact (horizon : Nat) (values : List Nat) (acc : Nat × Pool Store) (i : Nat) :
    Store.treeAt (values.foldl (pruneCell horizon) acc).2 i = Store.treeAt acc.2 i ∨
      Store.treeAt (values.foldl (pruneCell horizon) acc).2 i =
        (Store.treeAt acc.2 i).pruned horizon := by
  cases h : (values.foldl (pruneCell horizon) acc).2.get? i with
  | none =>
    have hframe := congrArg (Pool.get? · i) (frame_compact horizon values acc)
    simp only [Pool.get?_map, h, Option.map_none] at hframe
    have hnone : acc.2.get? i = none := Option.map_eq_none_iff.1 hframe.symm
    exact .inl (by rw [Store.treeAt, Store.treeAt, h, hnone])
  | some s' =>
    obtain ⟨s, hs, htree⟩ := get?_compact horizon values acc h
    rw [treeAt_of_get? h, treeAt_of_get? hs]
    exact htree

/-- One change is a write set of its own. -/
theorem applyTo_onWrites (change : Change) (t : VersionTree) (n : Nat) :
    (change.onWrites {}).applyTo t n = change.onTree t n := by
  cases change <;> rfl

/-- A write without transaction changes the tree of its store. -/
theorem treeAt_applySingle {db : Database} {cell : Nat} (change : Change)
    (hcell : (db.cells.get? cell).isSome) (i : Nat) :
    Store.treeAt (db.applySingle cell change.onTree).cells i =
      if cell = i then change.onTree (Store.treeAt db.cells i) (db.published + 1)
      else Store.treeAt db.cells i :=
  treeAt_modify cell i (g := fun t => change.onTree t (db.published + 1)) (fun _ => rfl) hcell

/-- A commit that has nothing to apply leaves every tree. -/
theorem landing_of_not_applies {db : Database} {c : Cycle} (h : db.applies c = false) (i : Nat) :
    (db.landing c.writes.entries i).isEmpty = true := by
  unfold landing
  cases hfind : c.writes.entries.find? fun e => db.cellOfId? e.1 == some i with
  | none => rfl
  | some e =>
    have hsome := List.find?_some hfind
    have hcell : db.cellOfId? e.1 = some i := eq_of_beq hsome
    have hno := List.any_eq_false.1 h e (List.mem_of_find?_eq_some hfind)
    simpa [isApplied, hcell] using hno

end ChainLemmas

open ChainLemmas

theorem Lands.of_same {db db' : Database} {L L' : Ledger} (hpublished : db'.published = db.published)
    (hcommits : L.commits.length ≤ L'.commits.length)
    (htrees : ∀ i, Store.treeAt db'.cells i = Store.treeAt db.cells i) : Lands db L db' L' :=
  .keeps hpublished hcommits fun i => .inl (htrees i)

theorem Step.lands {db db' : Database} {L L' : Ledger} (h : Step db L db' L') :
    Lands db L db' L' := by
  cases h with
  | createStore name prefixLength hnew => exact .of_same rfl (Nat.le_refl _) (treeAt_add _ _ rfl)
  | openStore settings hname hs hopen =>
    exact .of_same rfl (Nat.le_refl _) (treeAt_of_map (Pool.map_modify_of_eq _ _ fun _ => rfl))
  | closeStore hh =>
    exact .of_same rfl (Nat.le_refl _) (treeAt_of_map (Pool.map_modify_of_eq _ _ fun _ => rfl))
  | saved cell =>
    exact .of_same rfl (Nat.le_refl _) (treeAt_of_map (Pool.map_modify_of_eq _ _ fun _ => rfl))
  | @plain handle h s change hh hs hplain =>
    refine .commits rfl (by simp [Ledger.addPlain, Ledger.addCommit]) fun i => ?_
    rw [treeAt_applySingle change (by rw [hs]; rfl)]
    split
    · exact ⟨change.onWrites {}, (applyTo_onWrites _ _ _).symm⟩
    · exact ⟨{}, rfl⟩
  | @commit t c hc hdoomed =>
    obtain ⟨cells, heq, -, htrees⟩ := publish_lands db c
    rw [heq]
    cases happlies : db.applies c with
    | true =>
      exact .commits rfl (by simp [Ledger.addCycle, Ledger.addCommit]) fun i => ⟨_, htrees i⟩
    | false =>
      refine .of_same rfl (by simp [Ledger.addCycle, Ledger.addCommit]) fun i => (htrees i).trans ?_
      exact applyTo_of_isEmpty (landing_of_not_applies happlies i) _ _
  | compact =>
    exact .keeps rfl (Nat.le_refl _) fun i =>
      (treeAt_compact _ _ _ i).imp_right fun htree => ⟨_, htree⟩
  | fileFault | list | number | delist | dropStore | close | allocTxn | beginTxn | claim | doom
  | write | endCycle | openCursor | closeCursor | moveCursor | refreshCursor =>
    exact .of_same rfl (Nat.le_refl _) fun _ => rfl

/-! ## 2. Chains through steps and events -/

/-- The lists of all stores are chains up to the published number. -/
def Database.Chained (db : Database) : Prop := ∀ i, (Store.treeAt db.cells i).Chained db.published

/-- What a change keeps of the chains, and how far the published number goes: not further than there
are new commits. -/
structure Goes (db : Database) (L : Ledger) (db' : Database) (L' : Ledger) : Prop where
  chained : db'.Chained
  le : db.published ≤ db'.published
  count : db'.published + L.commits.length ≤ db.published + L'.commits.length
  passes : ∀ i, Passes db.published (Store.treeAt db.cells i) (Store.treeAt db'.cells i)

namespace Goes

variable {db db' db'' : Database} {L L' L'' : Ledger}

theorem refl (h : db.Chained) (L : Ledger) : Goes db L db L :=
  ⟨h, Nat.le_refl _, Nat.le_refl _, fun _ => .refl _ _⟩

theorem trans (h : Goes db L db' L') (h' : Goes db' L' db'' L'') : Goes db L db'' L'' where
  chained := h'.chained
  le := Nat.le_trans h.le h'.le
  count := by
    have := h.count
    have := h'.count
    omega
  passes i := (h.passes i).trans h.le (h'.passes i)

theorem of_lands (hlands : Lands db L db' L') (h : db.Chained) : Goes db L db' L' := by
  cases hlands with
  | keeps hpublished hcommits htrees =>
    refine ⟨fun i => ?_, by omega, by omega, fun i => ?_⟩
    · rw [hpublished]
      rcases htrees i with htree | ⟨horizon, htree⟩ <;> rw [htree]
      · exact h i
      · exact (h i).pruned horizon
    · rcases htrees i with htree | ⟨horizon, htree⟩ <;> rw [htree]
      · exact .refl _ _
      · exact .pruned _ _ _
  | commits hpublished hcommits htrees =>
    refine ⟨fun i => ?_, by omega, by omega, fun i => ?_⟩
    · obtain ⟨w, htree⟩ := htrees i
      rw [hpublished, htree]
      exact ((h i).mono (Nat.le_succ _)).applyTo w
    · obtain ⟨w, htree⟩ := htrees i
      rw [htree]
      exact .applyTo (h i) w

end Goes

theorem Steps.goes {db db' : Database} {L L' : Ledger} (h : Steps db L db' L') (hc : db.Chained) :
    Goes db L db' L' := by
  induction h with
  | refl => exact .refl hc _
  | tail _ hstep ih => exact ih.trans (.of_lands hstep.lands ih.chained)

/-- One event is one commit at most. -/
theorem Ledger.length_commits_after (L : Ledger) (s : Site) (e : Event) :
    (L.after s e).commits.length ≤ L.commits.length + 1 := by
  have hadd : ∀ c, (L.addCommit c).commits.length ≤ L.commits.length + 1 := fun c => by
    simp [Ledger.addCommit]
  unfold Ledger.after
  split
  · split <;> exact Nat.le_succ _
  · next c _ =>
    unfold Ledger.afterCall
    split <;> first
      | exact Nat.le_succ _
      | exact hadd _
      | (split <;> first | exact Nat.le_succ _ | exact hadd _)
  · exact Nat.le_succ _

/-- The tree of the store with a number in the pool. -/
abbrev Site.treeOf (s : Site) (i : Nat) : VersionTree := Store.treeAt s.db.cells i

namespace Event

variable (e : Event) {s : Site}

/-- The number of the commit that an event is, if it is one. -/
def commitNumber? (s : Site) : Option Nat :=
  if (e.next s).db.published = s.db.published then none else some (e.next s).db.published

theorem goes (h : s.db.Chained) (L : Ledger) : Goes s.db L (e.next s).db (L.after s e) :=
  (e.steps s L).goes h

theorem chained (h : s.db.Chained) : (e.next s).db.Chained := (e.goes h (.opened s.db)).chained

theorem passes (h : s.db.Chained) (i : Nat) :
    Passes s.db.published (s.treeOf i) ((e.next s).treeOf i) :=
  (e.goes h (.opened s.db)).passes i

/-- The number goes up by one with a commit, and stays otherwise. -/
theorem published_next (h : s.db.Chained) :
    e.commitNumber? s = none ∧ (e.next s).db.published = s.db.published ∨
      e.commitNumber? s = some (s.db.published + 1) ∧
        (e.next s).db.published = s.db.published + 1 := by
  have hgoes := e.goes h (.opened s.db)
  have hlength := (Ledger.opened s.db).length_commits_after s e
  have hle := hgoes.le
  have hcount := hgoes.count
  unfold commitNumber?
  split
  · next heq => exact .inl ⟨rfl, heq⟩
  · next hne =>
    have hone : (e.next s).db.published = s.db.published + 1 := by omega
    exact .inr ⟨congrArg some hone, hone⟩

/-- What an event does to one list: versions go at the front, and a commit may put one of its own number
behind the others. -/
theorem versions_next (h : s.db.Chained) (i : Nat) (key : Bytes) :
    ∃ gone kept new,
      (s.treeOf i).versionsOf key = gone ++ kept ∧
      ((e.next s).treeOf i).versionsOf key = kept ++ new ∧
      (new = [] ∨ ∃ n value, e.commitNumber? s = some n ∧ new = [⟨n, value⟩]) := by
  obtain ⟨gone, kept, new, hold, hnow, hnew⟩ := (e.passes h i).versions key
  refine ⟨gone, kept, new, hold, hnow, ?_⟩
  have hchained := e.chained h i
  have hascending : Ascending new :=
    (hnow ▸ hchained.ascending key).sublist (List.sublist_append_right kept new)
  have hbounds : ∀ v ∈ new, s.db.published < v.seqno ∧ v.seqno ≤ (e.next s).db.published :=
    fun v hv => ⟨hnew v hv, hchained.upTo.versions key v (hnow ▸ List.mem_append_right kept hv)⟩
  rcases e.published_next h with ⟨-, hsame⟩ | ⟨hnumber, hone⟩
  · rcases eq_nil_or_singleton hascending hbounds (by omega) with hnil | ⟨hone, -⟩
    · exact .inl hnil
    · omega
  · rcases eq_nil_or_singleton hascending hbounds (by omega) with hnil | ⟨-, value, hvalue⟩
    · exact .inl hnil
    · exact .inr ⟨_, value, hnumber, hone ▸ hvalue⟩

/-- What an event does to the tombstones: some go, and a commit may put some of its own number behind
the others. -/
theorem tombstones_next (h : s.db.Chained) (i : Nat) :
    ∃ kept new,
      kept.Sublist (s.treeOf i).tombstones ∧
      ((e.next s).treeOf i).tombstones = kept ++ new ∧
      ∀ tombstone ∈ new, e.commitNumber? s = some tombstone.seqno := by
  obtain ⟨kept, new, hkept, hnow, hnew⟩ := (e.passes h i).tombstones
  refine ⟨kept, new, hkept, hnow, fun tombstone hmem => ?_⟩
  have hlt := hnew tombstone hmem
  have hle := (e.chained h i).upTo.tombstones tombstone (hnow ▸ List.mem_append_right kept hmem)
  rcases e.published_next h with ⟨-, hsame⟩ | ⟨hnumber, hone⟩
  · omega
  · rw [hnumber]
    exact congrArg some (by omega)

end Event

theorem Site.chained_after {s : Site} (h : s.db.Chained) (events : List Event) :
    (s.after events).db.Chained := by
  induction events generalizing s with
  | nil => exact h
  | cons e rest ih => exact ih (e.chained h)

/-! ## 3. The numbers of commits -/

/-- The numbers of the commits among some events, in their order. -/
def Site.commitNumbers (s : Site) : List Event → List Nat
  | [] => []
  | e :: rest => (e.commitNumber? s).toList ++ (e.next s).commitNumbers rest

theorem Site.after_concat (s : Site) (events : List Event) (e : Event) :
    s.after (events ++ [e]) = e.next (s.after events) := by
  simp [Site.after]

theorem exists_commitNumbers {s : Site} (h : s.db.Chained) (events : List Event) :
    ∃ k, s.commitNumbers events = List.range' (s.db.published + 1) k ∧
      (s.after events).db.published = s.db.published + k := by
  induction events generalizing s with
  | nil => exact ⟨0, rfl, rfl⟩
  | cons e rest ih =>
    obtain ⟨k, hnumbers, hpublished⟩ := ih (e.chained h)
    have hafter : (s.after (e :: rest)).db.published = ((e.next s).after rest).db.published := rfl
    rw [Site.commitNumbers, hafter, hnumbers, hpublished]
    rcases e.published_next h with ⟨hnumber, hsame⟩ | ⟨hnumber, hone⟩
    · exact ⟨k, by rw [hnumber, hsame]; rfl, by omega⟩
    · exact ⟨k + 1, by rw [hnumber, hone]; rfl, by omega⟩

/-- From a database that has published nothing, commits count up from one. -/
theorem commitNumbers_eq {s : Site} (h : s.db.Chained) (hzero : s.db.published = 0)
    (events : List Event) :
    s.commitNumbers events = List.range' 1 (s.after events).db.published := by
  obtain ⟨k, hnumbers, hpublished⟩ := exists_commitNumbers h events
  rw [hnumbers, hpublished, hzero, Nat.zero_add, Nat.zero_add]

/-- A version was there before the events, or came as the newest one of its key with the commit that
has its number. -/
theorem version_origin {s : Site} (h : s.db.Chained) (events : List Event) {i : Nat} {key : Bytes}
    {v : Version} (hv : v ∈ ((s.after events).treeOf i).versionsOf key) :
    v ∈ (s.treeOf i).versionsOf key ∨
      ∃ before e rest, events = before ++ e :: rest ∧
        e.commitNumber? (s.after before) = some v.seqno ∧
        (((e.next (s.after before)).treeOf i).versionsOf key).getLast? = some v := by
  induction events using List.reverseRecOn with
  | nil => exact .inl hv
  | append_singleton events e ih =>
    rw [Site.after_concat] at hv
    obtain ⟨gone, kept, new, hold, hnow, hnew⟩ :=
      e.versions_next (Site.chained_after h events) i key
    rcases List.mem_append.1 (hnow ▸ hv) with hkept | hmem
    · rcases ih (hold ▸ List.mem_append_right gone hkept) with
        hfirst | ⟨before, e', rest, rfl, horigin⟩
      · exact .inl hfirst
      · exact .inr ⟨before, e', rest ++ [e], by simp, horigin⟩
    · rcases hnew with rfl | ⟨n, value, hnumber, rfl⟩
      · exact absurd hmem List.not_mem_nil
      · obtain rfl := List.mem_singleton.1 hmem
        exact .inr ⟨events, e, [], rfl, hnumber, by rw [hnow, List.getLast?_concat]⟩

/-- A tombstone was there before the events, or came with the commit that has its number. -/
theorem tombstone_origin {s : Site} (h : s.db.Chained) (events : List Event) {i : Nat}
    {tombstone : Tombstone}
    (hmem : tombstone ∈ ((s.after events).treeOf i).tombstones) :
    tombstone ∈ (s.treeOf i).tombstones ∨
      ∃ before e rest, events = before ++ e :: rest ∧
        e.commitNumber? (s.after before) = some tombstone.seqno ∧
        tombstone ∈ ((e.next (s.after before)).treeOf i).tombstones := by
  induction events using List.reverseRecOn with
  | nil => exact .inl hmem
  | append_singleton events e ih =>
    rw [Site.after_concat] at hmem
    obtain ⟨kept, new, hkept, hnow, hnew⟩ := e.tombstones_next (Site.chained_after h events) i
    rcases List.mem_append.1 (hnow ▸ hmem) with hold | hfresh
    · rcases ih (hkept.mem hold) with hfirst | ⟨before, e', rest, rfl, horigin⟩
      · exact .inl hfirst
      · exact .inr ⟨before, e', rest ++ [e], by simp, horigin⟩
    · exact .inr ⟨events, e, [], rfl, hnew tombstone hfresh, hmem⟩

/-! ## 4. The opening -/

/-- A database that was just opened has published nothing, and its stores have what was loaded. -/
structure Loaded (db : Database) (fs : FileSystem) : Prop where
  published : db.published = 0
  stores : ∀ i st, db.cells.get? i = some st →
    Holds (fs.entryAt (db.catalog.dataFile st.name)) st.prefixLength st.tree

theorem opened_spec {home : String} {params : List String} {fs fs' : FileSystem} {db : Database}
    (h : (openDatabase home params).on fs = (.ok db, fs')) : Loaded db fs' := by
  obtain ⟨config, settings, catalog, lock, -, -, htrees, rfl⟩ := openDatabase_spec h
  have hattached := attached_withStores home settings config catalog lock (treeIn catalog fs')
  constructor
  · rw [hattached.same]
  · intro i st hst
    obtain ⟨r, hr, rfl⟩ := (hattached.cells i st).1 hst
    obtain ⟨t, ht⟩ := htrees r (List.mem_of_getElem? hr)
    have hcatalog : (Database.withStores { home, settings, config, catalog, lock }
        (treeIn catalog fs')).catalog = catalog := by rw [hattached.same]
    rw [hcatalog, Store.ofRecord, treeIn_eq ht]
    exact loadTree_ok_iff.1 ht

namespace Loaded

variable {db : Database} {fs : FileSystem}

theorem flat (h : Loaded db fs) (i : Nat) : (Store.treeAt db.cells i).Flat := by
  cases hst : db.cells.get? i with
  | none =>
    rw [Store.treeAt, hst]
    exact .empty
  | some st =>
    rw [treeAt_of_get? hst]
    exact (h.stores i st hst).contents.1

theorem chained (h : Loaded db fs) : db.Chained := fun i =>
  (Chained.of_flat (h.flat i)).mono (Nat.zero_le _)

end Loaded

/-! ## 5. What a write and a commit insert -/

namespace ChainLemmas

theorem ok_of_reply {o : Except Fault Unit} {r r' : Reply} (h : o.map (fun _ => r) = .ok r') :
    o = .ok () := by
  cases o with
  | error f => cases h
  | ok _ => rfl

theorem writeRecord_ok {now handle : Nat} {change : Change} {db : Database}
    (h : ((writeRecord now handle none change).on db).1 = .ok ()) :
    ∃ hd, db.handles.get? handle = some hd ∧ (db.cells.get? hd.cell).isSome ∧
      ((writeRecord now handle none change).on db).2 = db.applySingle hd.cell change.onTree := by
  revert h
  simp only [writeRecord, Attempt.on_bind, Attempt.on_get, Attempt.on_check]
  cases hstore : db.handleStore handle with
  | error f =>
    intro h
    cases h
  | ok found =>
    obtain ⟨hd, st⟩ := found
    obtain ⟨hhd, hst⟩ := StepLemmas.handleStore_ok hstore
    simp only
    cases db.checkAccess hd st (none : Option Nat).isSome .write with
    | error f =>
      intro h
      cases h
    | ok _ =>
      simp only
      cases change.check st with
      | error f =>
        intro h
        cases h
      | ok _ => exact fun _ => ⟨hd, hhd, Option.isSome_of_eq_some hst, rfl⟩

theorem commitTxn_ok {now t : Nat} {db : Database} (h : ((commitTxn now t).on db).1 = .ok ()) :
    ∃ c, db.txns.get? t = some (.active c) ∧
      ((commitTxn now t).on db).2 = (db.publish c).endCycle t c .committed := by
  revert h
  rw [commitTxn, Attempt.on_bind]
  rcases StepLemmas.activeCycle_cases now t db (.opened db) with ⟨c, heq, hc⟩ | ⟨f, db', heq, -⟩
  · rw [heq]
    simp only
    cases c.doomed with
    | true =>
      intro h
      cases h
    | false => exact fun _ => ⟨c, hc, rfl⟩
  · rw [heq]
    intro h
    cases h

end ChainLemmas

/-- A write without transaction that succeeds is a commit of its own. -/
theorem plain_lands {now handle : Nat} {change : Change} {s : Site} {r : Reply}
    (h : (Event.call now (.write handle none change)).answer s = .ok r) :
    ∃ hd, s.db.handles.get? handle = some hd ∧
      (Event.call now (.write handle none change)).commitNumber? s = some (s.db.published + 1) ∧
      ∀ i, ((Event.call now (.write handle none change)).next s).treeOf i =
        if hd.cell = i then change.onTree (s.treeOf i) (s.db.published + 1)
        else s.treeOf i := by
  rw [answer_onDatabase rfl, on_changeRecord] at h
  obtain ⟨hd, hhd, hcell, hnext⟩ := writeRecord_ok (ok_of_reply h)
  unfold Event.commitNumber?
  rw [next_onDatabase rfl, on_changeRecord, hnext]
  exact ⟨hd, hhd, if_neg (Nat.succ_ne_self _), treeAt_applySingle change hcell⟩

/-- A commit of a transaction that succeeds applies what its cycle wrote. It is a commit with a number
when there is anything to apply. -/
theorem commit_lands {now t : Nat} {s : Site} {r : Reply}
    (h : (Event.call now (.commitTxn t)).answer s = .ok r) :
    ∃ c, s.db.txns.get? t = some (.active c) ∧
      (Event.call now (.commitTxn t)).commitNumber? s =
        (if s.db.applies c then some (s.db.published + 1) else none) ∧
      ∀ i, ((Event.call now (.commitTxn t)).next s).treeOf i =
        (s.db.landing c.writes.entries i).applyTo (s.treeOf i)
          (s.db.published + 1) := by
  rw [answer_onDatabase rfl] at h
  obtain ⟨c, hc, hnext⟩ := commitTxn_ok (ok_of_reply h)
  obtain ⟨cells, heq, -, htrees⟩ := publish_lands s.db c
  unfold Event.commitNumber?
  rw [next_onDatabase rfl, hnext, heq]
  refine ⟨c, hc, ?_, htrees⟩
  cases s.db.applies c with
  | true => exact if_neg (Nat.succ_ne_self _)
  | false => exact if_pos rfl

/-! ## 6. The law -/

/-- What holds of the versions in the stores of a site, now and with the next event. -/
structure ChainsAt (s : Site) : Prop where
  /-- In every store, each key that is listed has versions, in the strict order of their numbers, and
  nothing has a number above the published one. -/
  chained : ∀ i st, s.db.cells.get? i = some st → st.tree.Chained s.db.published
  /-- The version that a view reads of a key is the only one that is the newest for it; it reads none
  when all versions of the key are above it. -/
  selects : ∀ i key view,
    (∀ v, versionAt? ((s.treeOf i).versionsOf key) view = some v ↔
      IsNewestFor view ((s.treeOf i).versionsOf key) v) ∧
    (versionAt? ((s.treeOf i).versionsOf key) view = none ↔
      ∀ w ∈ (s.treeOf i).versionsOf key, view < w.seqno)
  /-- Of each list, the next event drops versions at the front only, and puts one at most behind the
  others, with the number of the commit that it is. -/
  next : ∀ (e : Event) i key, ∃ gone kept new,
    (s.treeOf i).versionsOf key = gone ++ kept ∧
    ((e.next s).treeOf i).versionsOf key = kept ++ new ∧
    (new = [] ∨ ∃ n value, e.commitNumber? s = some n ∧ new = [⟨n, value⟩])
  /-- A write without transaction that succeeds takes the next number and changes the store of its
  handle. -/
  plain : ∀ now handle change r,
    (Event.call now (.write handle none change)).answer s = .ok r →
    ∃ hd, s.db.handles.get? handle = some hd ∧
      (Event.call now (.write handle none change)).commitNumber? s = some (s.db.published + 1) ∧
      ∀ i, ((Event.call now (.write handle none change)).next s).treeOf i =
        if hd.cell = i then change.onTree (s.treeOf i) (s.db.published + 1) else s.treeOf i
  /-- The insertion of such a write. -/
  plain_inserts : ∀ i key value,
    Arrives ⟨s.db.published + 1, value⟩ ((s.treeOf i).versionsOf key)
      (((s.treeOf i).insert key (s.db.published + 1) value).versionsOf key)
  /-- A commit that succeeds applies what the cycle wrote, and takes the next number if that is
  anything at all. -/
  commit : ∀ now t r, (Event.call now (.commitTxn t)).answer s = .ok r →
    ∃ c, s.db.txns.get? t = some (.active c) ∧
      (Event.call now (.commitTxn t)).commitNumber? s =
        (if s.db.applies c then some (s.db.published + 1) else none) ∧
      ∀ i, ((Event.call now (.commitTxn t)).next s).treeOf i =
        (s.db.landing c.writes.entries i).applyTo (s.treeOf i) (s.db.published + 1)
  /-- The insertions of a commit, after its prefix deletions. -/
  commit_inserts : ∀ i (w : WriteSet),
    w.applyTo (s.treeOf i) (s.db.published + 1) =
      (w.applyPrefixes (s.treeOf i) (s.db.published + 1)).insertAll (s.db.published + 1)
        w.entries.entries ∧
    (w.applyPrefixes (s.treeOf i) (s.db.published + 1)).InsertsInOrder (s.db.published + 1)
      w.entries.entries

/-- What holds of the versions in all stores, and of the numbers of the commits, on a site that was just
opened and after some events. -/
structure VersionChainLaw (s₀ : Site) (events : List Event) : Prop where
  /-- At the opening each store has the records of its data file, inserted one after another. The
  version of a record takes the place of one that was loaded for the same key before. -/
  loaded : ∀ i st, s₀.db.cells.get? i = some st → ∃ records : List DataFile.Record,
    (s₀.fs.entryAt (s₀.db.catalog.dataFile st.name) = none ∧ records = [] ∨
      ∃ inode data, s₀.fs.entryAt (s₀.db.catalog.dataFile st.name) = some (.file inode data) ∧
        DataFile.decode data = .ok (st.prefixLength, records)) ∧
    st.tree = insertAll {} 0 (records.map fun e => (e.1, some e.2)) ∧
    InsertsInOrder {} 0 (records.map fun e => (e.1, some e.2))
  /-- After the events, the lists of all stores are chains, and the next event keeps them so. -/
  chains : ChainsAt (s₀.after events)
  /-- No number is given to two commits: they count up from one to the published number. -/
  numbers : s₀.commitNumbers events = List.range' 1 (s₀.after events).db.published
  /-- A version was loaded and has the number zero, or it came with the commit that has its number, as
  the newest of its key. -/
  versions : ∀ i key, ∀ v ∈ ((s₀.after events).treeOf i).versionsOf key,
    v.seqno = 0 ∧ v ∈ (s₀.treeOf i).versionsOf key ∨
    ∃ before e rest, events = before ++ e :: rest ∧
      e.commitNumber? (s₀.after before) = some v.seqno ∧
      (((e.next (s₀.after before)).treeOf i).versionsOf key).getLast? = some v
  /-- A tombstone came with the commit that has its number. -/
  tombstones : ∀ i, ∀ tombstone ∈ ((s₀.after events).treeOf i).tombstones,
    ∃ before e rest, events = before ++ e :: rest ∧
      e.commitNumber? (s₀.after before) = some tombstone.seqno ∧
      tombstone ∈ ((e.next (s₀.after before)).treeOf i).tombstones

namespace ChainLemmas

theorem records_of_holds {e : Option Entry} {len : Nat} {t : VersionTree} (h : Holds e len t) :
    ∃ records : List DataFile.Record,
      (e = none ∧ records = [] ∨
        ∃ inode data, e = some (.file inode data) ∧ DataFile.decode data = .ok (len, records)) ∧
      t = insertAll {} 0 (records.map fun e => (e.1, some e.2)) := by
  cases h with
  | missing => exact ⟨[], .inl ⟨rfl, rfl⟩, rfl⟩
  | @file inode _ data records hdata =>
    exact ⟨records, .inr ⟨inode, data, rfl, hdata⟩, ofRecords_eq_insertAll records⟩

end ChainLemmas

theorem chainsAt {s : Site} (h : s.db.Chained) : ChainsAt s where
  chained i _ hst := treeAt_of_get? hst ▸ h i
  selects i key _ :=
    ⟨fun _ => versionAt?_eq_some_iff ((h i).ascending key), versionAt?_eq_none_iff⟩
  next e i key := e.versions_next h i key
  plain _ _ _ _ hok := plain_lands hok
  plain_inserts i key value := ((h i).mono (Nat.le_succ _)).arrives key value
  commit _ _ _ hok := commit_lands hok
  commit_inserts i w :=
    ⟨applyTo_eq_insertAll w _ _,
      (((h i).mono (Nat.le_succ _)).applyPrefixes w).insertsInOrder w.entries.entries⟩

/-- After every sequence of events from the opening of a database on. -/
theorem versionChain_law {home : String} {params : List String} {fs fs' : FileSystem}
    {db : Database} (h : (openDatabase home params).on fs = (.ok db, fs')) (events : List Event) :
    VersionChainLaw ⟨db, fs'⟩ events := by
  have hloaded := opened_spec h
  have hopened : (Site.mk db fs').db.Chained := hloaded.chained
  constructor
  case loaded =>
    intro i st hst
    obtain ⟨records, hfile, htree⟩ := records_of_holds (hloaded.stores i st hst)
    exact ⟨records, hfile, htree, (Chained.of_flat .empty).insertsInOrder _⟩
  case chains => exact chainsAt (Site.chained_after hopened events)
  case numbers => exact commitNumbers_eq hopened hloaded.published events
  case versions =>
    intro i key v hv
    refine (version_origin hopened events hv).imp_left fun hfirst => ⟨?_, hfirst⟩
    have hzero := (hopened i).upTo.versions key v hfirst
    rwa [hloaded.published, Nat.le_zero] at hzero
  case tombstones =>
    intro i tombstone hmem
    refine (tombstone_origin hopened events hmem).resolve_left fun hfirst => ?_
    -- nothing that was loaded is a tombstone
    have hflat : (Store.treeAt db.cells i).Flat := hloaded.flat i
    rw [hflat.tombstones] at hfirst
    exact absurd hfirst List.not_mem_nil

/-- Two writes, a compaction, a cycle without writes and one with a write. -/
def chainEvents : List Event :=
  [.call 0 (.createStore "a" []), .call 0 (.openStore "a" []),
    .call 0 (.write 0 none (.put [107] [1])), .call 0 (.write 0 none (.put [107] [2])),
    .call 0 .compact, .call 0 (.closeStore 0),
    .call 0 (.openStore "a" ["transactions.enabled=true"]), .call 0 .allocTxn,
    .call 0 (.beginTxn 0), .call 0 (.commitTxn 0),
    .call 0 (.beginTxn 0), .call 0 (.write 1 (some 0) (.put [107] [3])), .call 0 (.commitTxn 0)]

/-- The first version went with the compaction, and the cycle without writes took no number. -/
theorem versionChain_law_compacted :
    VersionChainLaw firstSite chainEvents ∧
      ((firstSite.after chainEvents).treeOf 0).versionsOf [107] =
        [⟨2, some [2]⟩, ⟨3, some [3]⟩] ∧
      firstSite.commitNumbers chainEvents = [1, 2, 3] := by
  have hlaw : VersionChainLaw firstSite chainEvents :=
    versionChain_law openDatabase_madeHome chainEvents
  have hpublished : (firstSite.after chainEvents).db.published = 3 := by decide +kernel
  have hnumbers := hlaw.numbers
  rw [hpublished] at hnumbers
  exact ⟨hlaw, by decide +kernel, hnumbers⟩

end SnapshotKv
