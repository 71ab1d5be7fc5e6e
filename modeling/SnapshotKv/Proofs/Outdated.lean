import SnapshotKv.Proofs.Enumeration

/-!
# Outdated cursors

A prefix deletion leaves a tombstone, and a cursor without transaction whose filter overlaps the
prefix of a tombstone that is newer than its view is outdated. Compaction drops tombstones, but none
that is newer than a view in use. So a cursor is outdated exactly if an overlapping prefix deletion
was committed to its store since its view was taken, as a caller can tell who has noted the commits
and what each cursor was made with (`Sight`).

Results:
1. `prefixDeletedSince_applyTo`: the tombstones of a commit are the prefix deletions among its
   changes.
2. `Steps.notices`: for a view in use, the newer tombstones are the prefix deletions committed since.
3. `Sighted`: runs with what is noted of the cursors; `Sighted.cursor`: it is so.
4. `busy_exactly_when_overlapped`: which calls on a cursor find it outdated.
-/

namespace SnapshotKv

open Database

/-! ## 1. Tombstones -/

/-- Whether a change deletes a prefix that overlaps a filter. -/
def Change.overlaps : Change → Bytes → Bool
  | .deletePrefix stem, filter => stem.comparable filter
  | .put _ _, _ | .delete _, _ => false

namespace OutdatedLemmas

open VersionTree

theorem any_overlaps_iff {changes : List Change} {filter : Bytes} :
    changes.any (·.overlaps filter) = true ↔
      ∃ stem, .deletePrefix stem ∈ changes ∧ stem.comparable filter = true := by
  rw [List.any_eq_true]
  constructor
  · rintro ⟨change, hmem, hover⟩
    cases change with
    | deletePrefix stem => exact ⟨stem, hmem, hover⟩
    | put | delete => cases hover
  · rintro ⟨stem, hmem, hover⟩
    exact ⟨_, hmem, hover⟩

theorem prefixDeletedSince_congr {t t' : VersionTree} (h : t'.tombstones = t.tombstones)
    (filter : Bytes) (view : Nat) :
    t'.prefixDeletedSince filter view = t.prefixDeletedSince filter view := by
  unfold prefixDeletedSince
  rw [h]

/-- Tombstones that are added above a view count for it. -/
theorem prefixDeletedSince_append {t t' : VersionTree} {stems : List Bytes} {n view : Nat}
    (h : t'.tombstones = t.tombstones ++ stems.map fun stem => ⟨stem, n⟩) (hview : view < n)
    (filter : Bytes) :
    t'.prefixDeletedSince filter view =
      (stems.any (·.comparable filter) || t.prefixDeletedSince filter view) := by
  unfold prefixDeletedSince
  rw [h, List.any_append, List.any_map, Bool.or_comm]
  simp only [Function.comp_def, hview, decide_true, Bool.true_and]

theorem prefixDeletedSince_onTree (c : Change) (t : VersionTree) {n view : Nat} (hview : view < n)
    (filter : Bytes) :
    (c.onTree t n).prefixDeletedSince filter view =
      (c.overlaps filter || t.prefixDeletedSince filter view) := by
  cases c with
  | put key value | delete key => exact prefixDeletedSince_congr (tombstones_insert _ _ _ _) _ _
  | deletePrefix stem =>
    have hone : (t.deletePrefix stem n).tombstones =
        t.tombstones ++ [stem].map fun stem => ⟨stem, n⟩ := tombstones_deletePrefix t stem n
    have h := prefixDeletedSince_append hone hview filter
    rwa [List.any_cons, List.any_nil, Bool.or_false] at h

theorem mem_prefixes_deletePrefix {w : WriteSet} {stem stem' : Bytes} :
    stem' ∈ (w.deletePrefix stem).prefixes ↔ stem' = stem ∨ stem' ∈ w.prefixes := by
  unfold WriteSet.deletePrefix
  split
  · next h =>
    refine (or_iff_right_of_imp ?_).symm
    rintro rfl
    exact List.contains_iff_mem.1 h
  · rw [List.mem_append, List.mem_singleton, or_comm]

/-- A write set remembers all the prefixes that were deleted. -/
theorem mem_prefixes_ofChanges {changes : List Change} {stem : Bytes} :
    stem ∈ (WriteSet.ofChanges changes).prefixes ↔ .deletePrefix stem ∈ changes := by
  induction changes using List.reverseRecOn with
  | nil => simp
  | append_singleton changes c ih =>
    rw [WriteSet.ofChanges_concat, List.mem_append, List.mem_singleton, ← ih]
    cases c with
    | put key value | delete key =>
      exact (or_iff_left nofun).symm
    | deletePrefix stem' =>
      rw [Change.onWrites, mem_prefixes_deletePrefix, or_comm, Change.deletePrefix.injEq]

/-- The tombstones of a commit are the prefix deletions among its changes. -/
theorem prefixDeletedSince_applyTo (changes : List Change) (t : VersionTree) {n view : Nat}
    (hview : view < n) (filter : Bytes) :
    ((WriteSet.ofChanges changes).applyTo t n).prefixDeletedSince filter view =
      (changes.any (·.overlaps filter) || t.prefixDeletedSince filter view) := by
  rw [prefixDeletedSince_append (WriteSet.tombstones_applyTo _ t n) hview]
  congr 1
  rw [Bool.eq_iff_iff, any_overlaps_iff, List.any_eq_true]
  simp only [mem_prefixes_ofChanges]

theorem prefixDeletedSince_of_upTo {t : VersionTree} {n : Nat} (ht : t.UpTo n) (filter : Bytes) :
    t.prefixDeletedSince filter n = false := by
  rw [prefixDeletedSince, List.any_eq_false]
  intro s hs hnewer
  have hold := ht.tombstones s hs
  simp only [Bool.and_eq_true, decide_eq_true_eq] at hnewer
  omega

end OutdatedLemmas

open OutdatedLemmas

/-! ## 2. What a view in use notices -/

/-- Some commits hold a prefix deletion that reached a store and overlaps a filter. -/
def Deletes (commits : List Commit) (cell : Nat) (filter : Bytes) : Prop :=
  ∃ c ∈ commits, (c.landed cell).any (·.overlaps filter) = true

/-- The stores of a database are still there in a later one, and a view that is still in use has
noticed, besides what it had, the prefix deletions of the commits between them. -/
structure Notices (db : Database) (L : Ledger) (db' : Database) (L' : Ledger) : Prop where
  published_le : db.published ≤ db'.published
  commits : ∃ later, L'.commits = L.commits ++ later ∧
    ∀ i s, db.cells.get? i = some s → ∃ s', db'.cells.get? i = some s' ∧
      ∀ view filter, db'.horizon ≤ view → view ≤ db.published →
        (s'.tree.prefixDeletedSince filter view = true ↔
          s.tree.prefixDeletedSince filter view = true ∨ Deletes later i filter)

namespace Notices

variable {db db' db'' : Database} {L L' L'' : Ledger}

/-- Nothing is committed, and a view that is still in use finds the tombstones it had. -/
theorem of_same (hle : db.published ≤ db'.published) (hcommits : L'.commits = L.commits)
    (h : ∀ i s, db.cells.get? i = some s → ∃ s', db'.cells.get? i = some s' ∧
      ∀ view filter, db'.horizon ≤ view →
        s'.tree.prefixDeletedSince filter view = s.tree.prefixDeletedSince filter view) :
    Notices db L db' L' where
  published_le := hle
  commits := by
    refine ⟨[], by rw [hcommits, List.append_nil], fun i s hs => ?_⟩
    obtain ⟨s', hs', hsame⟩ := h i s hs
    refine ⟨s', hs', fun view filter hview _ => ?_⟩
    rw [hsame view filter hview]
    exact (or_iff_left fun ⟨c, hc, _⟩ => List.not_mem_nil hc).symm

/-- The trees stay. -/
theorem of_trees (hle : db.published ≤ db'.published) (hcommits : L'.commits = L.commits)
    (h : ∀ i s, db.cells.get? i = some s → ∃ s', db'.cells.get? i = some s' ∧ s'.tree = s.tree) :
    Notices db L db' L' :=
  of_same hle hcommits fun i s hs => by
    obtain ⟨s', hs', ht⟩ := h i s hs
    exact ⟨s', hs', fun view filter _ => by rw [ht]⟩

/-- One commit lands in the trees. -/
theorem of_commit (hle : db.published ≤ db'.published) {c : Commit}
    (hcommits : L'.commits = L.commits ++ [c])
    (h : ∀ i s, db.cells.get? i = some s → ∃ s', db'.cells.get? i = some s' ∧
      ∀ view filter, view ≤ db.published →
        s'.tree.prefixDeletedSince filter view =
          ((c.landed i).any (·.overlaps filter) || s.tree.prefixDeletedSince filter view)) :
    Notices db L db' L' where
  published_le := hle
  commits := by
    refine ⟨[c], hcommits, fun i s hs => ?_⟩
    obtain ⟨s', hs', hland⟩ := h i s hs
    refine ⟨s', hs', fun view filter _ hpub => ?_⟩
    rw [hland view filter hpub, Bool.or_eq_true, or_comm]
    simp only [Deletes, List.mem_singleton, exists_eq_left]

theorem refl (db : Database) (L : Ledger) : Notices db L db L :=
  of_trees (Nat.le_refl _) rfl fun _ s hs => ⟨s, hs, rfl⟩

theorem trans (h : Notices db L db' L') (h' : Notices db' L' db'' L'')
    (hle : db'.horizon ≤ db''.horizon) : Notices db L db'' L'' where
  published_le := Nat.le_trans h.published_le h'.published_le
  commits := by
    obtain ⟨later, hlater, htree⟩ := h.commits
    obtain ⟨later', hlater', htree'⟩ := h'.commits
    refine ⟨later ++ later', by rw [hlater', hlater, List.append_assoc], fun i s hs => ?_⟩
    obtain ⟨s', hs', hsame⟩ := htree i s hs
    obtain ⟨s'', hs'', hsame'⟩ := htree' i s' hs'
    refine ⟨s'', hs'', fun view filter hview hpub => ?_⟩
    rw [hsame' view filter hview (Nat.le_trans hpub h.published_le),
      hsame view filter (Nat.le_trans hle hview) hpub, or_assoc]
    simp only [Deletes, List.mem_append, or_and_right, exists_or]

end Notices

open ContentsLemmas EnumerationLemmas

theorem Step.notices {db db' : Database} {L L' : Ledger} (hreached : Reached db L)
    (hstep : Step db L db' L') : Notices db L db' L' := by
  cases hstep with
  | createStore name prefixLength hnew =>
    exact .of_trees (Nat.le_refl _) rfl fun i s hs => ⟨s, Pool.get?_add_of_some _ hs, rfl⟩
  | @openStore name cell s₀ settings hname hs₀ hopen =>
    exact .of_trees (Nat.le_refl _) rfl fun i s hs =>
      exists_modify cell (fun s => { s with isOpen := true }) (fun _ => rfl) hs
  | @closeStore handle hd hh =>
    exact .of_trees (Nat.le_refl _) rfl fun i s hs =>
      exists_modify hd.cell (fun s => { s with isOpen := false }) (fun _ => rfl) hs
  | saved cell =>
    exact .of_trees (Nat.le_refl _) rfl fun i s hs =>
      exists_modify cell (fun s => { s with dirty := false }) (fun _ => rfl) hs
  | @plain handle hd s₀ change hh hs₀ hplain =>
    refine .of_commit (Nat.le_succ _) rfl fun i s hs => ?_
    show ∃ s', (db.modifyStore hd.cell _).cells.get? i = some s' ∧ _
    rw [get?_modifyStore, hs, HistoryLemmas.landed_plain]
    split
    · refine ⟨_, rfl, fun view filter hpub => ?_⟩
      rw [List.any_cons, List.any_nil, Bool.or_false]
      exact prefixDeletedSince_onTree change s.tree (Nat.lt_succ_of_le hpub) filter
    · exact ⟨s, rfl, fun view filter _ => rfl⟩
  | @commit t c hc hdoomed =>
    obtain ⟨cells, published, heq, -, htree, hpublished⟩ :=
      publish_spec (Registry.of_reached hreached).ids c
    have hdrafts := (Drafts.of_reached hreached).writes t c
    rw [heq]
    refine .of_commit ?_ rfl fun i s hs => ?_
    · show db.published ≤ published
      rcases hpublished with rfl | ⟨rfl, -⟩ <;> omega
    · obtain ⟨s', hs', ht⟩ := htree i s hs
      refine ⟨s', hs', fun view filter hpub => ?_⟩
      rw [ht, Commit.landed]
      split
      · rw [hdrafts i s hc hs]
        exact prefixDeletedSince_applyTo _ _ (Nat.lt_succ_of_le hpub) filter
      · rfl
  | compact =>
    refine .of_same (Nat.le_refl _) rfl fun i s hs => ?_
    have hframe := frame_compact (db.pins.horizon db.published) db.stores.values (0, db.cells)
    obtain ⟨s', hs', -⟩ := Pool.get?_of_map_eq hframe.symm hs
    obtain ⟨s₀, hs₀, ht⟩ := get?_compact _ _ _ hs'
    obtain rfl := Option.some.inj (hs.symm.trans hs₀)
    refine ⟨s', hs', fun view filter hview => ?_⟩
    rcases ht with ht | ht
    · rw [ht]
    · rw [ht]
      exact VersionTree.prefixDeletedSince_pruned hview filter
  | fileFault | list | number | delist | dropStore | close | allocTxn | beginTxn | claim | doom
  | write | endCycle | openCursor | closeCursor | moveCursor | refreshCursor =>
    exact .of_trees (Nat.le_refl _) rfl fun i s hs => ⟨s, hs, rfl⟩

/-- Whatever happens, a view notices the prefix deletions that are committed while it is in use. -/
theorem Steps.notices {db db' : Database} {L L' : Ledger} (hreached : Reached db L)
    (h : Steps db L db' L') : Notices db L db' L' := by
  induction h with
  | refl => exact .refl db L
  | tail hsteps hstep ih =>
    have hmiddle := hreached.steps hsteps
    exact ih.trans (hstep.notices hmiddle)
      (hstep.horizon_le (.of_reached hmiddle) (.of_reached hmiddle))

/-! ## 3. What is noted of cursors -/

/-- What a caller has noted of a cursor. -/
structure Sight where
  /-- The number of its store in the database. -/
  cell : Nat
  filter : Bytes
  reverse : Bool
  /-- Whether it was made in a transaction. -/
  bound : Bool
  /-- How many commits there were when its view was taken, the last time. -/
  taken : Nat

/-- What is noted of the cursors that were made and not closed. -/
abbrev Sights := Nat → Option Sight

namespace Sights

/-- Replaces what is noted of a cursor. -/
def set (sights : Sights) (i : Nat) (x : Option Sight) : Sights :=
  fun j => if j = i then x else sights j

/-- What is noted after a call that succeeded. -/
def afterCall (sights : Sights) (s : Site) (L : Ledger) : Call → Reply → Sights
  | .openCursor handle txn filter reverse, .number i =>
    match s.db.handles.get? handle with
    | some h => sights.set i (some
        { cell := h.cell, filter, reverse, bound := txn.isSome, taken := L.commits.length })
    | none => sights
  | .closeCursor i, _ => sights.set i none
  | .refreshCursor i, _ =>
    sights.set i ((sights i).map fun x => { x with taken := L.commits.length })
  | _, _ => sights

/-- What is noted after an event. -/
def after (sights : Sights) (s : Site) (L : Ledger) : Event → Sights
  | .call now call => match (Event.call now call).answer s with
    | .ok r => sights.afterCall s L call r
    | .error _ => sights
  | .files _ => sights

theorem after_ok (sights : Sights) {s : Site} (L : Ledger) {now : Nat} {call : Call} {r : Reply}
    (h : (Event.call now call).answer s = .ok r) :
    sights.after s L (.call now call) = sights.afterCall s L call r := by
  unfold after
  simp only [h]

theorem after_error (sights : Sights) {s : Site} (L : Ledger) {now : Nat} {call : Call} {f : Fault}
    (h : (Event.call now call).answer s = .error f) :
    sights.after s L (.call now call) = sights := by
  unfold after
  simp only [h]

end Sights

/-- Runs with what is noted of the cursors. -/
inductive Sighted : Site → Ledger → Sights → Prop
  | opened {db : Database} (fs : FileSystem) :
      db.Opened → Sighted ⟨db, fs⟩ (Ledger.opened db) fun _ => none
  | step {s : Site} {L : Ledger} {sights : Sights} (e : Event) :
      Sighted s L sights → Sighted (e.next s) (L.after s e) (sights.after s L e)

theorem Sighted.run {s : Site} {L : Ledger} {sights : Sights} (h : Sighted s L sights) : Run s L := by
  induction h with
  | opened fs hdb => exact .opened fs hdb
  | step e _ ih => exact .step e ih

/-- What is noted of the cursors after some events. -/
def sightsAfter : List Event → Site → Ledger → Sights → Sights
  | [], _, _, sights => sights
  | e :: rest, s, L, sights => sightsAfter rest (e.next s) (L.after s e) (sights.after s L e)

theorem Sighted.play {s : Site} {L : Ledger} {sights : Sights} (h : Sighted s L sights)
    (events : List Event) :
    Sighted (play events s L).1 (play events s L).2 (sightsAfter events s L sights) := by
  induction events generalizing s L sights with
  | nil => exact h
  | cons e rest ih => exact ih (.step e h)

/-- A cursor on a store is as it is noted, and the newer tombstones of the store are the prefix
deletions committed since its view was taken. -/
structure Sight.Matches (x : Sight) (L : Ledger) (c : Cursor) (st : Store) : Prop where
  cell : c.cell = x.cell
  filter : c.filter = x.filter
  reverse : c.reverse = x.reverse
  bound : c.isBound = x.bound
  taken_le : x.taken ≤ L.commits.length
  deleted : x.bound = false → ∀ filter,
    (st.tree.prefixDeletedSince filter c.view = true ↔
      Deletes (L.commits.drop x.taken) x.cell filter)

/-- The cursor of a number is as it is noted. -/
def Sight.Shows (x : Sight) (db : Database) (L : Ledger) (i : Nat) : Prop :=
  ∃ c st, db.cursors.get? i = some c ∧ db.cells.get? c.cell = some st ∧ x.Matches L c st

namespace OutdatedLemmas

variable {db db' : Database} {s : Site} {L : Ledger} {i : Nat} {c : Cursor} {x : Sight}

theorem not_deletes_drop_length (commits : List Commit) (cell : Nat) (filter : Bytes) :
    ¬ Deletes (commits.drop commits.length) cell filter := by
  rintro ⟨c, hc, -⟩
  rw [List.drop_length] at hc
  exact List.not_mem_nil hc

theorem fields_of_scope {c' : Cursor} (h : c'.scope = c.scope) :
    c'.cell = c.cell ∧ c'.view = c.view ∧ c'.filter = c.filter ∧ c'.reverse = c.reverse ∧
      c'.overlay = c.overlay := by
  cases c
  cases c'
  cases h
  exact ⟨rfl, rfl, rfl, rfl, rfl⟩

/-- A call on a cursor leaves its scope. -/
theorem scope_onCursor {α : Type} {call : Store → Except Fault Unit → Attempt Cursor α}
    (hscope : ∀ s ready c, ((call s ready).on c).2.scope = c.scope)
    (hc : db.cursors.get? i = some c) :
    ∃ c', ((onCursor i call).on db).2.cursors.get? i = some c' ∧ c'.scope = c.scope := by
  simp only [onCursor, Attempt.on_bind, Attempt.on_get, Attempt.on_check]
  cases hfound : db.cursorStore i with
  | error f => exact ⟨c, hc, rfl⟩
  | ok found =>
    have hcursor := (StepLemmas.cursorStore_ok hfound).1
    obtain rfl := Option.some.inj (hc.symm.trans hcursor)
    refine ⟨_, ?_, hscope found.2 (db.checkReady found.1 found.2) found.1⟩
    simp only [Attempt.on_set]
    rw [Pool.get?_modify, if_pos rfl, hc]
    rfl

theorem refreshCursor_error {f : Fault} (h : (refreshCursor i).on db = (.error f, db')) :
    db' = db := by
  simp only [refreshCursor, Attempt.on_bind, Attempt.on_get, Attempt.on_check] at h
  cases hopen : db.checkOpen with
  | error f =>
    rw [hopen] at h
    cases h
    rfl
  | ok _ =>
    rw [hopen] at h
    cases hfound : db.cursorStore i with
    | error f =>
      rw [hfound] at h
      cases h
      rfl
    | ok found =>
      rw [hfound] at h
      simp only at h
      split at h <;> cases h

/-- A cursor keeps its scope unless it is closed or refreshed. -/
theorem scope_next {e : Event} (hclose : ∀ now, e ≠ .call now (.closeCursor i))
    (hrefresh : ∀ now, e = .call now (.refreshCursor i) → ∃ f, e.answer s = .error f)
    (hc : s.db.cursors.get? i = some c) :
    ∃ c', (e.next s).db.cursors.get? i = some c' ∧ c'.scope = c.scope := by
  by_cases hstill : e.moves i = false ∧ e.reads i = false
  · exact ⟨c, e.cursor_next hstill.1 hstill.2 hc, rfl⟩
  cases e with
  | files fs => exact absurd ⟨rfl, rfl⟩ hstill
  | call now call =>
    simp only [Event.next, Event.attempt]
    cases call with
    | closeCursor j =>
      have hj : j = i := by simpa [Event.moves, Event.reads] using hstill
      exact absurd (by rw [hj]) (hclose now)
    | readCursor j =>
      have hj : j = i := by simpa [Event.moves, Event.reads] using hstill
      subst hj
      simp only [Call.attempt, Attempt.on_map, Storage.on_onDatabase]
      exact scope_onCursor (fun s ready c => StepLemmas.scope_read ready s.tree c) hc
    | seekCursor j key =>
      have hj : j = i := by simpa [Event.moves, Event.reads] using hstill
      subst hj
      simp only [Call.attempt, Attempt.on_map, Storage.on_onDatabase]
      exact scope_onCursor (fun s ready c => StepLemmas.scope_seek ready s.tree key c) hc
    | seekRangeCursor j low high =>
      have hj : j = i := by simpa [Event.moves, Event.reads] using hstill
      subst hj
      simp only [Call.attempt, Attempt.on_map, Storage.on_onDatabase]
      exact scope_onCursor
        (fun s ready c => StepLemmas.scope_seekRange s.name ready s.tree low high c) hc
    | refreshCursor j =>
      have hj : j = i := by simpa [Event.moves, Event.reads] using hstill
      subst hj
      obtain ⟨f, hf⟩ := hrefresh now rfl
      simp only [Event.answer, Event.attempt, Call.attempt, Attempt.on_map,
        Storage.on_onDatabase] at hf ⊢
      cases hon : (refreshCursor j).on s.db with
      | mk r db' =>
        rw [hon] at hf
        cases r with
        | ok _ => cases hf
        | error f => exact ⟨c, refreshCursor_error hon ▸ hc, rfl⟩
    | _ => exact absurd ⟨rfl, rfl⟩ hstill

/-- What a view noticed is noted, whatever happens while the cursor keeps its scope. -/
theorem shows_of_scope (hrun : Run s L) (e : Event) (h : x.Shows s.db L i)
    (hscope : ∀ c, s.db.cursors.get? i = some c →
      ∃ c', (e.next s).db.cursors.get? i = some c' ∧ c'.scope = c.scope) :
    x.Shows (e.next s).db (L.after s e) i := by
  obtain ⟨c, st, hc, hs, hmatch⟩ := h
  obtain ⟨c', hc', hsame⟩ := hscope c hc
  obtain ⟨hcell, hview, hfilter, hreverse, hoverlay⟩ := fields_of_scope hsame
  have hheld := HeldViews.of_reached hrun.reached
  have hheld' := HeldViews.of_reached (hrun.step e).reached
  obtain ⟨later, hlater, htree⟩ := ((e.steps s L).notices hrun.reached).commits
  obtain ⟨st', hs', hnoticed⟩ := htree c.cell st hs
  refine ⟨c', st', hc', hcell ▸ hs', ?_⟩
  exact
    { cell := hcell.trans hmatch.cell
      filter := hfilter.trans hmatch.filter
      reverse := hreverse.trans hmatch.reverse
      bound := (congrArg Option.isSome hoverlay).trans hmatch.bound
      taken_le := by
        rw [hlater, List.length_append]
        exact Nat.le_add_right_of_le hmatch.taken_le
      deleted := fun hbound filter => by
        have hpinned := hheld'.horizon_le_cursor hc'
        rw [hview] at hpinned ⊢
        rw [hnoticed c.view filter hpinned (hheld.le _ (hheld.mem_cursor hc)),
          hmatch.deleted hbound, hlater, List.drop_append_of_le_length hmatch.taken_le, hmatch.cell]
        simp only [Deletes, List.mem_append, or_and_right, exists_or] }

/-- A view that is published now has noticed nothing yet. -/
theorem deleted_of_published (hrun : Run s L) {st : Store} {cell : Nat}
    (hs : s.db.cells.get? cell = some st) (cell' : Nat) (filter : Bytes) :
    st.tree.prefixDeletedSince filter s.db.published = true ↔
      Deletes (L.commits.drop L.commits.length) cell' filter := by
  rw [prefixDeletedSince_of_upTo ((History.of_reached hrun.reached).upTo _ _ hs)]
  exact iff_of_false Bool.false_ne_true (not_deletes_drop_length _ _ _)

/-- A new cursor is as it is noted. -/
theorem shows_openCursor (hrun : Run s L) {now handle : Nat} {txn : Option Nat} {filter : Bytes}
    {reverse : Bool} {hd : Handle} (hh : s.db.handles.get? handle = some hd)
    (hmade : (Event.call now (.openCursor handle txn filter reverse)).answer s = .ok (.number i)) :
    i = s.db.cursors.nextId ∧
      Sight.Shows { cell := hd.cell, filter, reverse, bound := txn.isSome, taken := L.commits.length }
        ((Event.call now (.openCursor handle txn filter reverse)).next s).db L i := by
  simp only [Event.answer, Event.next, Event.attempt, Call.attempt, Attempt.on_map,
    Storage.on_onDatabase] at hmade ⊢
  cases hon : (openCursor now handle txn filter reverse).on s.db with
  | mk r db' =>
    rw [hon] at hmade
    cases r with
    | error f => cases hmade
    | ok i' =>
      cases hmade
      obtain ⟨hd', st, view, overlay, hh', hs, hbinds, rfl, rfl, -⟩ := openCursor_ok hon
      obtain rfl := Option.some.inj (hh.symm.trans hh')
      refine ⟨rfl, _, st, Pool.get?_add_nextId _ _, hs, rfl, rfl, rfl, ?_, Nat.le_refl _,
        fun hbound filter => ?_⟩
      · cases txn with
        | none => exact congrArg Option.isSome hbinds.2
        | some t =>
          obtain ⟨c, -, -, rfl⟩ := hbinds
          rfl
      · cases txn with
        | none =>
          obtain ⟨rfl, -⟩ := hbinds
          exact deleted_of_published hrun hs _ _
        | some t => cases hbound

/-- A refreshed cursor is as it is noted. -/
theorem shows_refreshCursor (hrun : Run s L) {now : Nat} {r : Reply}
    (hdone : (Event.call now (.refreshCursor i)).answer s = .ok r) (h : x.Shows s.db L i) :
    Sight.Shows { x with taken := L.commits.length }
      ((Event.call now (.refreshCursor i)).next s).db L i := by
  obtain ⟨c, st, hc, hs, hmatch⟩ := h
  simp only [Event.answer, Event.next, Event.attempt, Call.attempt, Attempt.on_map,
    Storage.on_onDatabase, refreshCursor, Attempt.on_bind, Attempt.on_get, Attempt.on_check,
    cursorStore_eq hc hs] at hdone ⊢
  cases hopen : s.db.checkOpen with
  | error f =>
    rw [hopen] at hdone
    cases hdone
  | ok _ =>
    simp only
    cases hbound : c.isBound with
    | true =>
      -- the view of a transaction stays
      exact ⟨c, st, hc, hs, hmatch.cell, hmatch.filter, hmatch.reverse, hmatch.bound, Nat.le_refl _,
        fun hfree => absurd (hbound.symm.trans (hmatch.bound.trans hfree)) (by decide)⟩
    | false =>
      refine ⟨{ c with view := s.db.published, atEnd := false }, st, ?_, hs, hmatch.cell,
        hmatch.filter, hmatch.reverse, hmatch.bound, Nat.le_refl _,
        fun _ filter => deleted_of_published hrun hs _ filter⟩
      show (s.db.cursors.modify i _).get? i = _
      rw [Pool.get?_modify, if_pos rfl, hc]
      rfl

/-- Where what is noted of a cursor after an event comes from. -/
inductive SightOrigin (sights : Sights) (s : Site) (L : Ledger) (i : Nat) (x : Sight) : Event → Prop
  | kept {e : Event} (hx : sights i = some x) (hclose : ∀ now, e ≠ .call now (.closeCursor i))
      (hrefresh : ∀ now, e = .call now (.refreshCursor i) → ∃ f, e.answer s = .error f) :
      SightOrigin sights s L i x e
  | opened {now handle : Nat} {txn : Option Nat} {filter : Bytes} {reverse : Bool} {hd : Handle}
      (hh : s.db.handles.get? handle = some hd)
      (hmade : (Event.call now (.openCursor handle txn filter reverse)).answer s = .ok (.number i))
      (hx : x =
        { cell := hd.cell, filter, reverse, bound := txn.isSome, taken := L.commits.length }) :
      SightOrigin sights s L i x (.call now (.openCursor handle txn filter reverse))
  | refreshed {now : Nat} {r : Reply} {x₀ : Sight}
      (hdone : (Event.call now (.refreshCursor i)).answer s = .ok r) (hx₀ : sights i = some x₀)
      (hx : x = { x₀ with taken := L.commits.length }) :
      SightOrigin sights s L i x (.call now (.refreshCursor i))

theorem sightOrigin {sights : Sights} {e : Event} (hx : sights.after s L e i = some x) :
    SightOrigin sights s L i x e := by
  cases e with
  | files fs => exact .kept hx nofun nofun
  | call now call =>
    cases hanswer : (Event.call now call).answer s with
    | error f =>
      rw [sights.after_error L hanswer] at hx
      refine .kept hx (fun now' heq => ?_) fun _ _ => ⟨f, hanswer⟩
      cases heq
      cases hanswer
    | ok r =>
      rw [sights.after_ok L hanswer] at hx
      cases call with
      | openCursor handle txn filter reverse =>
        cases r with
        | number j =>
          simp only [Sights.afterCall] at hx
          cases hh : s.db.handles.get? handle with
          | none =>
            rw [hh] at hx
            exact .kept hx nofun nofun
          | some hd =>
            simp only [hh, Sights.set] at hx
            split at hx
            · next hij =>
              subst hij
              exact .opened hh hanswer (Option.some.inj hx).symm
            · exact .kept hx nofun nofun
        | _ => exact .kept hx nofun nofun
      | closeCursor j =>
        simp only [Sights.afterCall, Sights.set] at hx
        split at hx
        · cases hx
        · next hij =>
          refine .kept hx (fun now' heq => ?_) nofun
          cases heq
          exact hij rfl
      | refreshCursor j =>
        simp only [Sights.afterCall, Sights.set] at hx
        split at hx
        · next hij =>
          subst hij
          obtain ⟨x₀, hx₀, hx⟩ := Option.map_eq_some_iff.1 hx
          exact .refreshed hanswer hx₀ hx.symm
        · next hij =>
          refine .kept hx nofun fun now' heq => ?_
          cases heq
          exact absurd rfl hij
      | _ => exact .kept hx nofun nofun

theorem after_openCursor {now handle : Nat} {txn : Option Nat} {filter : Bytes} {reverse : Bool}
    {r : Reply} (h : (Event.call now (.openCursor handle txn filter reverse)).answer s = .ok r) :
    L.after s (.call now (.openCursor handle txn filter reverse)) = L := by
  unfold Ledger.after
  rw [h]
  rfl

theorem after_refreshCursor {now : Nat} {r : Reply}
    (h : (Event.call now (.refreshCursor i)).answer s = .ok r) :
    L.after s (.call now (.refreshCursor i)) = L := by
  unfold Ledger.after
  rw [h]
  rfl

end OutdatedLemmas

/-- In a run every cursor that is noted is as it is noted. -/
theorem Sighted.cursor {s : Site} {L : Ledger} {sights : Sights} (h : Sighted s L sights) {i : Nat}
    {x : Sight} (hx : sights i = some x) : x.Shows s.db L i := by
  induction h generalizing i x with
  | opened fs hdb => cases hx
  | @step s L sights e hsighted ih =>
    cases sightOrigin hx with
    | kept hx hclose hrefresh =>
      exact shows_of_scope hsighted.run e (ih hx) fun c hc => scope_next hclose hrefresh hc
    | opened hh hmade hnew =>
      subst hnew
      rw [after_openCursor hmade]
      exact (shows_openCursor hsighted.run hh hmade).2
    | refreshed hdone hx₀ hnew =>
      subst hnew
      rw [after_refreshCursor hdone]
      exact shows_refreshCursor hsighted.run hdone (ih hx₀)

/-! ## 4. The calls that find a cursor outdated -/

/-- Whether a call reads a cursor or moves it to a key. -/
def Call.scans (i : Nat) : Call → Bool
  | .readCursor j | .seekCursor j _ | .seekRangeCursor j _ _ => j == i
  | _ => false

/-- The keys that a call on a cursor is given are not too long, and it sets no range on a cursor that
runs backwards. -/
def Call.Admissible (reverse : Bool) : Call → Prop
  | .seekCursor _ key => key.length ≤ Limits.keyLength
  | .seekRangeCursor _ low high =>
    reverse = false ∧ low.length ≤ Limits.keyLength ∧ high.length ≤ Limits.keyLength
  | _ => True

/-- Whether an event is refused because something is busy. -/
def Event.IsBusy (e : Event) (s : Site) : Prop := ∃ f, e.answer s = .error f ∧ f.kind = .busy

/-- A prefix that overlaps the filter of a cursor without transaction was deleted in its store by a
commit since its view was taken. -/
def Sight.Overlapped (x : Sight) (L : Ledger) : Prop :=
  x.bound = false ∧ x.filter ≠ [] ∧ ∃ c ∈ L.commits.drop x.taken, ∃ stem,
    .deletePrefix stem ∈ c.landed x.cell ∧ (stem <+: x.filter ∨ x.filter <+: stem)

namespace OutdatedLemmas

variable {s : Site} {L : Ledger} {i : Nat} {c : Cursor} {x : Sight} {st : Store}

theorem comparable_iff {a b : Bytes} : a.comparable b = true ↔ a <+: b ∨ b <+: a := by
  rw [Bytes.comparable, Bool.or_eq_true, List.isPrefixOf_iff_prefix, List.isPrefixOf_iff_prefix]

theorem isOutdated_iff (hmatch : x.Matches L c st) :
    c.isOutdated st.tree = true ↔ x.Overlapped L := by
  unfold Cursor.isOutdated Sight.Overlapped
  rw [Bool.and_eq_true, Bool.and_eq_true, Bool.not_eq_true', Bool.not_eq_true',
    List.isEmpty_eq_false_iff, hmatch.bound, hmatch.filter, and_assoc]
  refine and_congr_right fun hbound => and_congr_right fun _ => ?_
  rw [hmatch.deleted hbound]
  simp only [Deletes, any_overlaps_iff, comparable_iff]

/-- Whether a cursor can be read, in terms of what is noted. -/
theorem checkReady_cases (hopen : s.db.closed = false) (hmatch : x.Matches L c st) :
    x.Overlapped L ∧ s.db.checkReady c st = .error (Fault.viewOutdated st.name) ∨
      ¬ x.Overlapped L ∧ s.db.checkReady c st = .ok () := by
  have hiff := isOutdated_iff hmatch
  unfold checkReady
  rw [ReadLemmas.checkOpen_eq hopen]
  cases hold : c.isOutdated st.tree with
  | true => exact .inl ⟨hiff.1 hold, rfl⟩
  | false => exact .inr ⟨fun h => absurd (hiff.2 h) (hold ▸ Bool.false_ne_true), rfl⟩

/-! What the calls on a cursor answer, given whether it can be read. -/

theorem read_ready (c : Cursor) (tree : VersionTree) :
    ∃ r, ((Cursor.read (.ok ()) tree).on c).1 = .ok r := by
  simp only [Cursor.read, Attempt.on_bind, Attempt.on_check, Attempt.on_get]
  split
  · exact ⟨none, rfl⟩
  · split
    · exact ⟨_, rfl⟩
    · exact ⟨none, rfl⟩

theorem reposition_ready (c : Cursor) (tree : VersionTree) (key : Bytes) :
    ∃ r, ((Cursor.reposition (.ok ()) tree key).on c).1 = .ok r := by
  simp only [Cursor.reposition, Attempt.on_bind, Attempt.on_check, Attempt.on_modify,
    Attempt.on_get]
  split
  · exact ⟨_, rfl⟩
  · exact ⟨none, rfl⟩

theorem checkBound_of_le {key : Bytes} (h : key.length ≤ Limits.keyLength) :
    Limits.checkBound key = .ok () := if_neg (Nat.not_lt.2 h)

theorem checkBound_of_lt {key : Bytes} (h : ¬ key.length ≤ Limits.keyLength) :
    Limits.checkBound key = .error (Fault.boundTooLong key.length Limits.keyLength) :=
  if_pos (Nat.not_le.1 h)

theorem answer_onCursor {α : Type} {call : Store → Except Fault Unit → Attempt Cursor α}
    {e : Event} {f : α → Reply} (he : e.attempt = f <$> Storage.onDatabase (onCursor i call))
    (hc : s.db.cursors.get? i = some c) (hs : s.db.cells.get? c.cell = some st) :
    e.answer s = ((call st (s.db.checkReady c st)).on c).1.map f := by
  simp only [Event.answer, he, Attempt.on_map, Storage.on_onDatabase, on_onCursor hc hs]

section Answers

variable (now : Nat) {call : Call} (hscans : call.scans i = true)
  (hc : s.db.cursors.get? i = some c) (hs : s.db.cells.get? c.cell = some st)

include hscans hc hs

/-- A call on a cursor that can be read succeeds if it is admissible. -/
theorem answer_of_ready (hadmissible : call.Admissible c.reverse)
    (hready : s.db.checkReady c st = .ok ()) : ∃ r, (Event.call now call).answer s = .ok r := by
  cases call with
  | readCursor j =>
    obtain rfl := beq_iff_eq.1 hscans
    obtain ⟨r, hr⟩ := read_ready c st.tree
    exact ⟨_, by rw [answer_onCursor rfl hc hs, hready, hr]; rfl⟩
  | seekCursor j key =>
    obtain rfl := beq_iff_eq.1 hscans
    obtain ⟨r, hr⟩ := reposition_ready { c with cap := none } st.tree key
    refine ⟨.value r, ?_⟩
    rw [answer_onCursor rfl hc hs, hready, Cursor.seek, Attempt.on_bind, Attempt.on_check,
      checkBound_of_le hadmissible]
    simp only [Attempt.on_bind, Attempt.on_modify, hr]
    rfl
  | seekRangeCursor j low high =>
    obtain rfl := beq_iff_eq.1 hscans
    obtain ⟨hforward, hlow, hhigh⟩ := hadmissible
    obtain ⟨r, hr⟩ := reposition_ready { c with cap := some high } st.tree low
    refine ⟨.value r, ?_⟩
    rw [answer_onCursor rfl hc hs, hready]
    simp only [Cursor.seekRange, Attempt.on_bind, Attempt.on_get, hforward, Bool.false_eq_true,
      ↓reduceIte, Attempt.on_check, checkBound_of_le hlow, checkBound_of_le hhigh,
      Attempt.on_modify, hforward ▸ hr]
    rfl
  | _ => cases hscans

/-- A call on a cursor that cannot be read is refused for that if it is admissible. -/
theorem answer_of_refused {f : Fault} (hadmissible : call.Admissible c.reverse)
    (hrefused : s.db.checkReady c st = .error f) : (Event.call now call).answer s = .error f := by
  cases call with
  | readCursor j =>
    obtain rfl := beq_iff_eq.1 hscans
    rw [answer_onCursor rfl hc hs, hrefused]
    rfl
  | seekCursor j key =>
    obtain rfl := beq_iff_eq.1 hscans
    rw [answer_onCursor rfl hc hs, hrefused, Cursor.seek, Attempt.on_bind, Attempt.on_check,
      checkBound_of_le hadmissible]
    rfl
  | seekRangeCursor j low high =>
    obtain rfl := beq_iff_eq.1 hscans
    obtain ⟨hforward, hlow, hhigh⟩ := hadmissible
    rw [answer_onCursor rfl hc hs, hrefused]
    simp only [Cursor.seekRange, Attempt.on_bind, Attempt.on_get, hforward, Bool.false_eq_true,
      ↓reduceIte, Attempt.on_check, checkBound_of_le hlow, checkBound_of_le hhigh,
      Attempt.on_modify]
    rfl
  | _ => cases hscans

/-- A call on a cursor that is not admissible is refused for that, whatever the cursor. -/
theorem answer_of_inadmissible (hadmissible : ¬ call.Admissible c.reverse) :
    ∃ f, (Event.call now call).answer s = .error f ∧ f.kind = .usage := by
  cases call with
  | readCursor j => exact absurd trivial hadmissible
  | seekCursor j key =>
    obtain rfl := beq_iff_eq.1 hscans
    refine ⟨Fault.boundTooLong key.length Limits.keyLength, ?_, rfl⟩
    rw [answer_onCursor rfl hc hs, Cursor.seek, Attempt.on_bind, Attempt.on_check,
      checkBound_of_lt hadmissible]
    rfl
  | seekRangeCursor j low high =>
    obtain rfl := beq_iff_eq.1 hscans
    rw [answer_onCursor rfl hc hs]
    simp only [Cursor.seekRange, Attempt.on_bind, Attempt.on_get]
    cases hreverse : c.reverse with
    | true => exact ⟨_, rfl, rfl⟩
    | false =>
      by_cases hlow : low.length ≤ Limits.keyLength
      · have hhigh : ¬ high.length ≤ Limits.keyLength := fun h => hadmissible ⟨hreverse, hlow, h⟩
        simp only [Bool.false_eq_true, ↓reduceIte, Attempt.on_bind, Attempt.on_check,
          checkBound_of_le hlow, checkBound_of_lt hhigh]
        exact ⟨_, rfl, rfl⟩
      · simp only [Bool.false_eq_true, ↓reduceIte, Attempt.on_bind, Attempt.on_check,
          checkBound_of_lt hlow]
        exact ⟨_, rfl, rfl⟩
  | _ => cases hscans

end Answers

/-! What is noted stays noted until the cursor is closed. -/

/-- After an event a cursor that it did not close is noted as before, with a view taken no earlier. -/
theorem sight_next {sights : Sights} (h : Sighted s L sights) (hx : sights i = some x) {e : Event}
    (hclose : ∀ now, e ≠ .call now (.closeCursor i)) :
    ∃ taken, x.taken ≤ taken ∧ sights.after s L e i = some { x with taken } := by
  obtain ⟨c, st, hc, hs, hmatch⟩ := h.cursor hx
  have hkept : ∃ taken, x.taken ≤ taken ∧ sights i = some { x with taken } :=
    ⟨x.taken, Nat.le_refl _, hx⟩
  cases e with
  | files fs => exact hkept
  | call now call =>
    cases hanswer : (Event.call now call).answer s with
    | error f =>
      rw [sights.after_error L hanswer]
      exact hkept
    | ok r =>
      rw [sights.after_ok L hanswer]
      cases call with
      | openCursor handle txn filter reverse =>
        cases r with
        | number j =>
          simp only [Sights.afterCall]
          cases hh : s.db.handles.get? handle with
          | none => exact hkept
          | some hd =>
            -- a new cursor has a number of its own
            have hnew := (shows_openCursor h.run hh hanswer).1
            have hij : i ≠ j := hnew ▸ Nat.ne_of_lt (Pool.lt_nextId hc)
            simp only [Sights.set, if_neg hij]
            exact hkept
        | _ => exact hkept
      | closeCursor j =>
        have hij : i ≠ j := fun heq => hclose now (heq ▸ rfl)
        simp only [Sights.afterCall, Sights.set, if_neg hij]
        exact hkept
      | refreshCursor j =>
        simp only [Sights.afterCall, Sights.set]
        split
        · next hij =>
          subst hij
          exact ⟨L.commits.length, hmatch.taken_le, by rw [hx]; rfl⟩
        · exact hkept
      | _ => exact hkept

theorem sight_play {sights : Sights} (h : Sighted s L sights) (hx : sights i = some x)
    {events : List Event} (hclose : ∀ e ∈ events, ∀ now, e ≠ .call now (.closeCursor i)) :
    ∃ taken, x.taken ≤ taken ∧ sightsAfter events s L sights i = some { x with taken } := by
  induction events generalizing s L sights x with
  | nil => exact ⟨x.taken, Nat.le_refl _, hx⟩
  | cons e rest ih =>
    obtain ⟨hfirst, hrest⟩ := List.forall_mem_cons.1 hclose
    obtain ⟨taken, hle, hnext⟩ := sight_next h hx hfirst
    obtain ⟨taken', hle', hlast⟩ := ih (h.step e) hnext hrest
    exact ⟨taken', Nat.le_trans hle hle', hlast⟩

theorem answer_refreshCursor (hopen : s.db.closed = false) (hc : s.db.cursors.get? i = some c)
    (hs : s.db.cells.get? c.cell = some st) (now : Nat) :
    (Event.call now (.refreshCursor i)).answer s = .ok .done := by
  simp only [Event.answer, Event.attempt, Call.attempt, Attempt.on_map, Storage.on_onDatabase,
    refreshCursor, Attempt.on_bind, Attempt.on_get, Attempt.on_check, cursorStore_eq hc hs,
    ReadLemmas.checkOpen_eq hopen]
  split <;> rfl

theorem compact_spec (hopen : s.db.closed = false) (now : Nat) (sights : Sights) :
    ((Event.call now .compact).next s).db.closed = false ∧ L.after s (.call now .compact) = L ∧
      sights.after s L (.call now .compact) = sights := by
  have hon : ∃ n cells, (Database.compact).on s.db = (.ok n, { s.db with cells }) := by
    simp only [Database.compact, Attempt.on_bind, Attempt.on_get, Attempt.on_check,
      ReadLemmas.checkOpen_eq hopen, Attempt.on_set, Attempt.on_pure]
    exact ⟨_, _, rfl⟩
  obtain ⟨n, cells, hon⟩ := hon
  have hanswer : (Event.call now .compact).answer s = .ok (.number n) := by
    simp only [Event.answer, Event.attempt, Call.attempt, Attempt.on_map, Storage.on_onDatabase,
      hon]
    rfl
  refine ⟨?_, ?_, ?_⟩
  · simp only [Event.next, Event.attempt, Call.attempt, Attempt.on_map, Storage.on_onDatabase, hon]
    exact hopen
  · unfold Ledger.after
    rw [hanswer]
    rfl
  · exact sights.after_ok L hanswer

end OutdatedLemmas

/-- Whether the calls on a cursor are refused because its view is outdated. -/
structure BusyLaw (s : Site) (L : Ledger) (i : Nat) (x : Sight) : Prop where
  busy : ∀ now call, call.scans i = true →
    ((Event.call now call).IsBusy s ↔ call.Admissible x.reverse ∧ x.Overlapped L)
  ready : ∀ now call, call.scans i = true → call.Admissible x.reverse → ¬ x.Overlapped L →
    ∃ r, (Event.call now call).answer s = .ok r
  /-- A call that is not admissible is refused for its use, whether or not a deletion overlaps. -/
  usage : ∀ now call, call.scans i = true → ¬ call.Admissible x.reverse →
    ∃ f, (Event.call now call).answer s = .error f ∧ f.kind = .usage
  /-- Compaction makes no cursor busy, and none that is busy ready. -/
  compacted : ∀ now later call, call.scans i = true →
    ((Event.call later call).IsBusy ((Event.call now .compact).next s) ↔
      (Event.call later call).IsBusy s)
  /-- A refreshed cursor is ready until an overlapping prefix deletion is committed. -/
  refreshed : ∀ now, (Event.call now (.refreshCursor i)).answer s = .ok .done ∧
    ∀ events : List Event, (∀ e ∈ events, ∀ later, e ≠ .call later (.closeCursor i)) →
      let after := play events ((Event.call now (.refreshCursor i)).next s) L
      after.1.db.closed = false →
      (∀ c ∈ after.2.commits.drop L.commits.length, ∀ stem, .deletePrefix stem ∈ c.landed x.cell →
        ¬ (stem <+: x.filter ∨ x.filter <+: stem)) →
      ∀ later call, call.scans i = true → call.Admissible x.reverse →
        ∃ r, (Event.call later call).answer after.1 = .ok r

namespace OutdatedLemmas

/-- The first two parts of the law. -/
theorem busy_and_ready {s : Site} {L : Ledger} {sights : Sights} (h : Sighted s L sights)
    (hopen : s.db.closed = false) {i : Nat} {x : Sight} (hx : sights i = some x) (now : Nat)
    {call : Call} (hscans : call.scans i = true) :
    ((Event.call now call).IsBusy s ↔ call.Admissible x.reverse ∧ x.Overlapped L) ∧
      (call.Admissible x.reverse → ¬ x.Overlapped L →
        ∃ r, (Event.call now call).answer s = .ok r) := by
  obtain ⟨c, st, hc, hs, hmatch⟩ := h.cursor hx
  rw [← hmatch.reverse]
  by_cases hadmissible : call.Admissible c.reverse
  · rcases checkReady_cases hopen hmatch with ⟨hover, hready⟩ | ⟨hover, hready⟩
    · have hanswer := answer_of_refused now hscans hc hs hadmissible hready
      exact ⟨iff_of_true ⟨_, hanswer, rfl⟩ ⟨hadmissible, hover⟩, fun _ hnot => absurd hover hnot⟩
    · obtain ⟨r, hanswer⟩ := answer_of_ready now hscans hc hs hadmissible hready
      refine ⟨iff_of_false ?_ fun h => hover h.2, fun _ _ => ⟨r, hanswer⟩⟩
      rintro ⟨f, hf, -⟩
      cases hanswer.symm.trans hf
  · obtain ⟨f, hanswer, hkind⟩ := answer_of_inadmissible now hscans hc hs hadmissible
    refine ⟨iff_of_false ?_ fun h => hadmissible h.1, fun hadm => absurd hadm hadmissible⟩
    rintro ⟨f', hf', hbusy⟩
    cases hanswer.symm.trans hf'
    cases hkind.symm.trans hbusy

end OutdatedLemmas

/-- **A prefix deletion makes exactly the overlapping cursors busy.** On an open database a read, or
a seek or range that is admissible, is refused as busy exactly if the cursor belongs to no
transaction, has a filter, and a prefix that overlaps it was deleted in its store by a commit since
its view was taken; else it succeeds. One that is not admissible is refused for its use in any case.
Compaction changes nothing about that, and a refresh lasts until the next such commit. -/
theorem busy_exactly_when_overlapped {s : Site} {L : Ledger} {sights : Sights}
    (h : Sighted s L sights) (hopen : s.db.closed = false) {i : Nat} {x : Sight}
    (hx : sights i = some x) : BusyLaw s L i x where
  busy := fun now call hscans => (busy_and_ready h hopen hx now hscans).1
  ready := fun now call hscans => (busy_and_ready h hopen hx now hscans).2
  usage := fun now call hscans hnot => by
    obtain ⟨c, st, hc, hs, hmatch⟩ := h.cursor hx
    rw [← hmatch.reverse] at hnot
    exact answer_of_inadmissible now hscans hc hs hnot
  compacted := fun now later call hscans => by
    obtain ⟨hclosed, hledger, hsights⟩ := compact_spec (L := L) hopen now sights
    have hafter := h.step (.call now .compact)
    rw [hledger, hsights] at hafter
    rw [(busy_and_ready hafter hclosed hx later hscans).1, (busy_and_ready h hopen hx later hscans).1]
  refreshed := fun now => by
    obtain ⟨c, st, hc, hs, hmatch⟩ := h.cursor hx
    have hdone := answer_refreshCursor hopen hc hs now
    refine ⟨hdone, fun events hclose hclosed hnone later call hscans hadmissible => ?_⟩
    have hrefreshed := h.step (.call now (.refreshCursor i))
    rw [after_refreshCursor hdone] at hrefreshed
    have hnoted : sights.after s L (.call now (.refreshCursor i)) i =
        some { x with taken := L.commits.length } := by
      rw [sights.after_ok L hdone]
      simp only [Sights.afterCall, Sights.set, ↓reduceIte, hx, Option.map_some]
    obtain ⟨taken, hle, hlast⟩ := sight_play hrefreshed hnoted hclose
    refine (busy_and_ready (hrefreshed.play events) hclosed hlast later hscans).2 hadmissible ?_
    rintro ⟨-, -, commit, hcommit, stem, hstem, hover⟩
    refine hnone commit ?_ stem hstem hover
    -- the view was taken no earlier than by the refresh
    have hsplit : taken = L.commits.length + (taken - L.commits.length) := (Nat.add_sub_cancel' hle).symm
    rw [hsplit, ← List.drop_drop] at hcommit
    exact List.mem_of_mem_drop hcommit

/-- A cursor is made on one of two prefixes, and both are deleted. -/
def overlapEvents : List Event :=
  [.call 0 (.openStore "a" []), .call 0 (.write 0 none (.put [1, 2] [5])),
    .call 0 (.openCursor 0 none [1] false), .call 0 (.write 0 none (.deletePrefix [3])),
    .call 0 (.write 0 none (.deletePrefix [1]))]

/-- What is noted of the cursors of the small database after some events. -/
def sightsSmall (events : List Event) : Sights :=
  sightsAfter events ⟨smallDatabase, {}⟩ (Ledger.opened smallDatabase) fun _ => none

theorem sighted_playSmall (events : List Event) :
    Sighted (playSmall events).1 (playSmall events).2 (sightsSmall events) :=
  (Sighted.opened {} opened_smallDatabase).play events

/-- The cursor on the prefix. -/
def overlapSight : Sight := { cell := 0, filter := [1], reverse := false, bound := false, taken := 1 }

theorem overlapSight_spec :
    (playSmall overlapEvents).1.db.closed = false ∧
      sightsSmall overlapEvents 0 = some overlapSight ∧
      overlapSight.Overlapped (playSmall overlapEvents).2 := by
  refine ⟨rfl, rfl, rfl, by decide, _, List.mem_of_getElem? (i := 1) rfl, [1], ?_,
    .inl (List.prefix_refl _)⟩
  decide

/-- The cursor is busy, still busy after a compaction, and reads again after a refresh. -/
theorem busy_exactly_when_overlapped_once :
    let s := (playSmall overlapEvents).1
    let refreshed := (Event.call 0 (.refreshCursor 0)).next s
    (Event.call 0 (.readCursor 0)).IsBusy s ∧
      (Event.call 0 (.readCursor 0)).IsBusy ((Event.call 0 .compact).next s) ∧
      ∃ r, (Event.call 0 (.readCursor 0)).answer refreshed = .ok r := by
  obtain ⟨hopen, hnoted, hover⟩ := overlapSight_spec
  have hlaw := busy_exactly_when_overlapped (sighted_playSmall overlapEvents) hopen hnoted
  have hbusy := (hlaw.busy 0 (.readCursor 0) rfl).2 ⟨trivial, hover⟩
  refine ⟨hbusy, (hlaw.compacted 0 0 (.readCursor 0) rfl).2 hbusy, ?_⟩
  refine (hlaw.refreshed 0).2 [] nofun rfl ?_ 0 (.readCursor 0) rfl trivial
  intro c hc
  unfold play at hc
  rw [List.drop_length] at hc
  cases hc

/-- A seek is not refused as busy because of the deletion alone: its key is judged first. -/
theorem long_seek_not_busy :
    ¬ ∀ (s : Site) (L : Ledger) (sights : Sights), Sighted s L sights → s.db.closed = false →
      ∀ i x, sights i = some x → ∀ now key,
        ((Event.call now (.seekCursor i key)).IsBusy s ↔ x.Overlapped L) := by
  intro hall
  obtain ⟨hopen, hnoted, hover⟩ := overlapSight_spec
  have hsighted := sighted_playSmall overlapEvents
  have hbusy := (hall _ _ _ hsighted hopen 0 _ hnoted 0 (List.replicate 1345 0)).2 hover
  have hadmissible := ((OutdatedLemmas.busy_and_ready hsighted hopen hnoted 0 rfl).1.1 hbusy).1
  rw [Call.Admissible, List.length_replicate] at hadmissible
  exact absurd hadmissible (by decide)

end SnapshotKv
