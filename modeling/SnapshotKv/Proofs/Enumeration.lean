import SnapshotKv.Proofs.Checked
import SnapshotKv.Proofs.Compaction
import SnapshotKv.Proofs.Edits
import SnapshotKv.Proofs.Listings
import SnapshotKv.Proofs.ReadLaw
import SnapshotKv.Proofs.Saving

/-!
# What a cursor enumerates

The reads of a cursor go through the records that a get would have answered when the cursor was made,
in scan order, whatever happens between them. The view of the cursor is pinned, so no commit and no
compaction changes what it sees; and nothing but the calls that are made for a cursor moves it.

Results:
1. `openCursor_ok`: a new cursor lists what a get answers.
2. `Steps.stands`: what steps leave to the views that are still in use.
3. `Event.cursor_next`: an event that does not move a cursor leaves it as it is.
4. `Walks.next`, `Walks.read`: what an event does to a cursor on its way; `Walks.along`: what some
   events do.
5. `cursor_enumerates`: so the reads of a cursor answer its records one after another.
-/

namespace SnapshotKv

open Database

/-! ## 1. New cursors -/

/-- The view and the writes that a cursor of a binding takes: those of the transaction, or the
published view and none. -/
def Database.Binds (db : Database) (store : Nat) (view : Nat) (overlay : Option WriteSet) :
    Option Nat → Prop
  | none => view = db.published ∧ overlay = none
  | some t => ∃ c, db.txns.get? t = some (.active c) ∧ view = c.view ∧
      overlay = some (c.writesTo store)

/-- A new cursor on a store. -/
def Cursor.start (cell view : Nat) (overlay : Option WriteSet) (prefixLength : Nat)
    (filter : Bytes) (reverse : Bool) : Cursor :=
  { cell, view, filter, reverse, overlay, path := ScanPath.select prefixLength filter }

namespace EnumerationLemmas

theorem get?_contents (c : Cursor) (tree : VersionTree) (key : Bytes) :
    (c.contents tree).get? key = match c.overlay with
      | none => tree.get key c.view
      | some w => match w.lookup key with
        | .value v => some v
        | .deleted => none
        | .absent => tree.get key c.view := by
  unfold Cursor.contents
  cases c.overlay with
  | none => exact VersionTree.get?_contents _ _ _
  | some w =>
    have hget := w.get?_overlaid (tree.contents c.view) key
    rw [VersionTree.get?_contents] at hget
    exact hget

end EnumerationLemmas

open EnumerationLemmas

/-- A cursor that was made lists, of the records that a get with the same binding answers, those that
its filter selects. -/
theorem openCursor_ok {db db' : Database} {now handle : Nat} {txn : Option Nat} {filter : Bytes}
    {reverse : Bool} {i : Nat}
    (h : (openCursor now handle txn filter reverse).on db = (.ok i, db')) :
    ∃ hd s view overlay, db.handles.get? handle = some hd ∧ db.cells.get? hd.cell = some s ∧
      db.Binds s.id view overlay txn ∧ i = db.cursors.nextId ∧
      db' = { db with
        cursors := db.cursors.add (.start hd.cell view overlay s.prefixLength filter reverse)
        pins := db.pins.pin view } ∧
      ∀ key, Limits.checkKey key = .ok () →
        (getRecord now handle txn key).on db = (.ok (((Cursor.start hd.cell view overlay
          s.prefixLength filter reverse).contents s.tree).get? key), db) := by
  obtain ⟨_, _, hget, h⟩ := Attempt.ok_of_bind h
  cases hget
  obtain ⟨⟨hd, s⟩, _, hcheck, h⟩ := Attempt.ok_of_bind h
  obtain ⟨hstore, rfl⟩ := Prod.mk.inj hcheck
  obtain ⟨_, _, hcheck, h⟩ := Attempt.ok_of_bind h
  obtain ⟨haccess, rfl⟩ := Prod.mk.inj hcheck
  obtain ⟨_, _, hcheck, h⟩ := Attempt.ok_of_bind h
  obtain ⟨-, rfl⟩ := Prod.mk.inj hcheck
  obtain ⟨hh, hs⟩ := StepLemmas.handleStore_ok hstore
  cases txn with
  | none =>
    cases h
    refine ⟨hd, s, db.published, none, hh, hs, ⟨rfl, rfl⟩, rfl, rfl, fun key hkey => ?_⟩
    simp only [getRecord, Attempt.on_bind, Attempt.on_get, Attempt.on_check, hstore, haccess, hkey,
      get?_contents, Cursor.start]
    rfl
  | some t =>
    obtain ⟨c, _, hactive, h⟩ := Attempt.ok_of_bind h
    obtain ⟨rfl, hc⟩ := StepLemmas.activeCycle_ok hactive
    cases h
    refine ⟨hd, s, c.view, some (c.writesTo s.id), hh, hs, ⟨c, hc, rfl, rfl⟩, rfl, rfl,
      fun key hkey => ?_⟩
    simp only [getRecord, Attempt.on_bind, Attempt.on_get, Attempt.on_check, hstore, haccess, hkey,
      get?_contents, Cursor.start, hactive]
    cases (c.writesTo s.id).lookup key <;> rfl

/-! ## 2. Views in use -/

/-- The stores of a database are still there in a later one, and what a view sees in them is the same
as long as it is in use. -/
structure Stands (db db' : Database) : Prop where
  published_le : db.published ≤ db'.published
  cells : ∀ i s, db.cells.get? i = some s → ∃ s', db'.cells.get? i = some s' ∧
    ∀ view key, db'.horizon ≤ view → view ≤ db.published → s'.tree.get key view = s.tree.get key view

namespace Stands

theorem of_trees {db db' : Database} (hle : db.published ≤ db'.published)
    (h : ∀ i s, db.cells.get? i = some s → ∃ s', db'.cells.get? i = some s' ∧ s'.tree = s.tree) :
    Stands db db' where
  published_le := hle
  cells := fun i s hs => by
    obtain ⟨s', hs', ht⟩ := h i s hs
    exact ⟨s', hs', fun view key _ _ => by rw [ht]⟩

theorem refl (db : Database) : Stands db db := of_trees (Nat.le_refl _) fun _ s hs => ⟨s, hs, rfl⟩

theorem trans {db db' db'' : Database} (h : Stands db db') (h' : Stands db' db'')
    (hle : db'.horizon ≤ db''.horizon) : Stands db db'' where
  published_le := Nat.le_trans h.published_le h'.published_le
  cells := fun i s hs => by
    obtain ⟨s', hs', hget⟩ := h.cells i s hs
    obtain ⟨s'', hs'', hget'⟩ := h'.cells i s' hs'
    refine ⟨s'', hs'', fun view key hview hpub => ?_⟩
    rw [hget' view key hview (Nat.le_trans hpub h.published_le),
      hget view key (Nat.le_trans hle hview) hpub]

end Stands

namespace EnumerationLemmas

theorem exists_modify {p : Pool Store} (cell : Nat) (f : Store → Store)
    (hf : ∀ s, (f s).tree = s.tree) {i : Nat} {s : Store} (hs : p.get? i = some s) :
    ∃ s', (p.modify cell f).get? i = some s' ∧ s'.tree = s.tree := by
  rw [Pool.get?_modify, hs]
  split
  · exact ⟨f s, rfl, hf s⟩
  · exact ⟨s, rfl, rfl⟩

end EnumerationLemmas

open ContentsLemmas

theorem Step.stands {db db' : Database} {L L' : Ledger} (hreached : Reached db L)
    (hstep : Step db L db' L') : Stands db db' := by
  have hhistory := History.of_reached hreached
  cases hstep with
  | createStore name prefixLength hnew =>
    exact .of_trees (Nat.le_refl _) fun i s hs => ⟨s, Pool.get?_add_of_some _ hs, rfl⟩
  | @openStore name cell s₀ settings hname hs₀ hopen =>
    exact .of_trees (Nat.le_refl _) fun i s hs =>
      exists_modify cell (fun s => { s with isOpen := true }) (fun _ => rfl) hs
  | @closeStore handle hd hh =>
    exact .of_trees (Nat.le_refl _) fun i s hs =>
      exists_modify hd.cell (fun s => { s with isOpen := false }) (fun _ => rfl) hs
  | saved cell =>
    exact .of_trees (Nat.le_refl _) fun i s hs =>
      exists_modify cell (fun s => { s with dirty := false }) (fun _ => rfl) hs
  | @plain handle hd s₀ change hh hs₀ hplain =>
    refine ⟨Nat.le_succ _, fun i s hs => ?_⟩
    show ∃ s', (db.modifyStore hd.cell _).cells.get? i = some s' ∧ _
    rw [get?_modifyStore, hs]
    split
    · have hover := VersionTree.overwrites_onTree
        ((hhistory.upTo i s hs).below (Nat.lt_succ_self db.published)) change
      exact ⟨_, rfl, fun view key _ hpub => hover.before key view (Nat.lt_succ_of_le hpub)⟩
    · exact ⟨s, rfl, fun _ _ _ _ => rfl⟩
  | @commit t c hc hdoomed =>
    obtain ⟨cells, published, heq, -, htree, hpublished⟩ :=
      publish_spec (Registry.of_reached hreached).ids c
    rw [heq]
    refine ⟨?_, fun i s hs => ?_⟩
    · show db.published ≤ published
      rcases hpublished with rfl | ⟨rfl, -⟩ <;> omega
    · obtain ⟨s', hs', ht⟩ := htree i s hs
      refine ⟨s', hs', fun view key _ hpub => ?_⟩
      rw [ht]
      split
      · exact WriteSet.get_applyTo_of_lt _ _ key (Nat.lt_succ_of_le hpub)
      · rfl
  | compact =>
    refine ⟨Nat.le_refl _, fun i s hs => ?_⟩
    have hframe := frame_compact (db.pins.horizon db.published) db.stores.values (0, db.cells)
    obtain ⟨s', hs', -⟩ := Pool.get?_of_map_eq hframe.symm hs
    obtain ⟨s₀, hs₀, ht⟩ := get?_compact _ _ _ hs'
    obtain rfl := Option.some.inj (hs.symm.trans hs₀)
    refine ⟨s', hs', fun view key hview _ => ?_⟩
    rcases ht with ht | ht
    · rw [ht]
    · rw [ht]
      exact VersionTree.get_pruned hview key
  | fileFault | list | number | delist | dropStore | close | allocTxn | beginTxn | claim | doom
  | write | endCycle | openCursor | closeCursor | moveCursor | refreshCursor =>
    exact .of_trees (Nat.le_refl _) fun i s hs => ⟨s, hs, rfl⟩

/-- Whatever happens, the stores stay, and a view sees the same as long as it is in use. -/
theorem Steps.stands {db db' : Database} {L L' : Ledger} (hreached : Reached db L)
    (h : Steps db L db' L') : Stands db db' := by
  induction h with
  | refl => exact .refl db
  | tail hsteps hstep ih =>
    have hmiddle := hreached.steps hsteps
    exact ih.trans (hstep.stands hmiddle) (hstep.horizon_le (.of_reached hmiddle) (.of_reached hmiddle))

/-! ## 3. Cursors that nothing moves -/

/-- Whether an event is a call that moves a cursor, or gives it up, other than by reading. -/
def Event.moves (i : Nat) : Event → Bool
  | .call _ (.closeCursor j) | .call _ (.seekCursor j _) | .call _ (.seekRangeCursor j _ _)
  | .call _ (.refreshCursor j) => j == i
  | _ => false

/-- Whether an event is a read of a cursor. -/
def Event.reads (i : Nat) : Event → Bool
  | .call _ (.readCursor j) => j == i
  | _ => false

namespace EnumerationLemmas

variable {db db' : Database} {i j : Nat} {c : Cursor}

theorem cursors_of_edits (h : Edits db db') : db'.cursors = db.cursors := by
  refine Edits.eq_of_edit (f := Database.cursors) ?_ h
  intro db db' hedit
  cases hedit with
  | txns | handles | plain | compact => rfl
  | publish c =>
    obtain ⟨cells, published, heq, -, -⟩ := publish_same _ c
    rw [heq]

/-- A call on another cursor leaves this one. -/
theorem cursors_onCursor {α : Type} {call : Store → Except Fault Unit → Attempt Cursor α}
    (hij : j ≠ i) (db : Database) :
    ((onCursor j call).on db).2.cursors.get? i = db.cursors.get? i := by
  simp only [onCursor, Attempt.on_bind, Attempt.on_get, Attempt.on_check]
  cases db.cursorStore j with
  | error f => rfl
  | ok found =>
    simp only [Attempt.on_set]
    rw [Pool.get?_modify, if_neg hij]

theorem cursors_closeCursor (hij : j ≠ i) (db : Database) :
    (db.closeCursor j).cursors.get? i = db.cursors.get? i := by
  unfold closeCursor
  split
  · exact (Pool.get?_remove _ _ _).trans (if_neg hij)
  · rfl

theorem cursors_refreshCursor (hij : j ≠ i) (db : Database) :
    ((refreshCursor j).on db).2.cursors.get? i = db.cursors.get? i := by
  simp only [refreshCursor, Attempt.on_bind, Attempt.on_get, Attempt.on_check]
  cases db.checkOpen with
  | error f => rfl
  | ok _ =>
    cases db.cursorStore j with
    | error f => rfl
    | ok found =>
      simp only
      split
      · exact (Pool.get?_modify _ _ _ _).trans (if_neg hij)
      · rfl

/-- Making a cursor adds it to the others if it succeeds, and leaves them else. -/
theorem cursors_openCursor (now handle : Nat) (txn : Option Nat) (filter : Bytes) (reverse : Bool)
    (db : Database) :
    ((openCursor now handle txn filter reverse).on db).2.cursors = db.cursors ∨
      ((openCursor now handle txn filter reverse).on db).1 = .ok db.cursors.nextId ∧
        ∃ c, ((openCursor now handle txn filter reverse).on db).2.cursors = db.cursors.add c := by
  simp only [openCursor, Attempt.on_bind, Attempt.on_get, Attempt.on_check]
  cases db.handleStore handle with
  | error f => exact .inl rfl
  | ok found =>
    simp only
    cases db.checkAccess found.1 found.2 txn.isSome .read with
    | error f => exact .inl rfl
    | ok _ =>
      cases Limits.checkBound filter with
      | error f => exact .inl rfl
      | ok _ =>
        cases txn with
        | none => exact .inr ⟨rfl, _, rfl⟩
        | some t =>
          have hedits := cursors_of_edits (EditLemmas.edits_activeCycle now t db)
          simp only [Attempt.on_bind]
          revert hedits
          cases (activeCycle now t).on db with
          | mk r db' =>
            intro hedits
            cases r with
            | error f => exact .inl hedits
            | ok c =>
              exact .inr ⟨rfl, _, congrArg (fun cursors : Pool Cursor => cursors.add _) hedits⟩

theorem cursors_saved {s : Site} {cell : Nat} {o : Except Fault Unit × Site}
    (h : Saved s cell o) : o.2.db.cursors = s.db.cursors := by
  cases h <;> rfl

end EnumerationLemmas

/-- Whether a call makes a cursor, reads or moves it, or gives it up. -/
def Call.isOfCursors : Call → Bool
  | .openCursor .. | .closeCursor _ | .readCursor _ | .seekCursor .. | .seekRangeCursor ..
  | .refreshCursor _ => true
  | _ => false

/-- The other calls leave all cursors as they are. -/
theorem Call.cursors_next {c : Call} (hc : c.isOfCursors = false) (now : Nat) (s : Site) :
    ((c.attempt now).on s).2.db.cursors = s.db.cursors := by
  by_cases hinner : c.isInner = true
  · exact cursors_of_edits (c.edits hinner now s).1
  · have hsaved : ∀ s' cell o, cell ∈ s'.db.stores.values → Saved s' cell o →
        s'.db.cursors = s.db.cursors → o.2.db.cursors = s.db.cursors :=
      fun s' cell o _ h hsame => (cursors_saved h).trans hsame
    cases c with
    | createStore name params =>
      have hends := creation s name params
      simp only [Call.attempt, Attempt.on_map]
      generalize (Storage.createStore name params).on s = o at hends ⊢
      cases hends <;> rfl
    | dropStore name =>
      have hends := removal s name
      simp only [Call.attempt, Attempt.on_map]
      generalize (Storage.dropStore name).on s = o at hends ⊢
      cases hends <;> rfl
    | sync =>
      simp only [Call.attempt, Attempt.on_map]
      exact sync_induct hsaved rfl
    | close =>
      simp only [Call.attempt, Attempt.on_map, on_close]
      split
      · rfl
      · exact persist_induct (s := ⟨{ s.db with closed := true }, s.fs⟩) hsaved rfl
    | openCursor | closeCursor | readCursor | seekCursor | seekRangeCursor | refreshCursor => cases hc
    | _ => exact absurd rfl hinner

/-- An event that does not move a cursor, and does not read it, leaves it as it is. -/
theorem Event.cursor_next {e : Event} {i : Nat} (hmoves : e.moves i = false)
    (hreads : e.reads i = false) {s : Site} {c : Cursor} (hc : s.db.cursors.get? i = some c) :
    (e.next s).db.cursors.get? i = some c := by
  cases e with
  | files fs => exact hc
  | call now call =>
    by_cases hcursors : call.isOfCursors = false
    · exact (congrArg (·.get? i) (call.cursors_next hcursors now s)).trans hc
    · simp only [next, attempt]
      cases call with
      | openCursor handle txn filter reverse =>
        simp only [Call.attempt, Attempt.on_map, Storage.on_onDatabase]
        rcases cursors_openCursor now handle txn filter reverse s.db with hsame | ⟨-, c', hadded⟩
        · rw [hsame, hc]
        · rw [hadded, Pool.get?_add_of_some _ hc]
      | closeCursor j =>
        exact (cursors_closeCursor (beq_eq_false_iff_ne.1 hmoves) s.db).trans hc
      | readCursor j =>
        simp only [Call.attempt, Attempt.on_map, Storage.on_onDatabase]
        exact (cursors_onCursor (beq_eq_false_iff_ne.1 hreads) s.db).trans hc
      | seekCursor j key | seekRangeCursor j low high =>
        simp only [Call.attempt, Attempt.on_map, Storage.on_onDatabase]
        exact (cursors_onCursor (beq_eq_false_iff_ne.1 hmoves) s.db).trans hc
      | refreshCursor j =>
        simp only [Call.attempt, Attempt.on_map, Storage.on_onDatabase]
        exact (cursors_refreshCursor (beq_eq_false_iff_ne.1 hmoves) s.db).trans hc
      | _ => exact absurd rfl hcursors

/-! ## 4. Walks -/

/-- A ledger is kept beside a database and changes nothing in it. -/
theorem site_play (events : List Event) (s : Site) (L : Ledger) :
    (play events s L).1 = s.after events := by
  induction events generalizing s L with
  | nil => rfl
  | cons e rest ih => exact ih _ _

/-- The cursor of a number walks some records and has come through the first `n` of them. -/
def Walks (db : Database) (i : Nat) (filter : Bytes) (bound : Bool)
    (records : List (Bytes × Bytes)) (n : Nat) : Prop :=
  ∃ c s, db.cursors.get? i = some c ∧ db.cells.get? c.cell = some s ∧
    c.filter = filter ∧ c.isBound = bound ∧ c.listing s.tree = records ∧ c.HasRead records n

/-- The answers of the reads of a cursor that did not fail, among some events. -/
def readsOf (i : Nat) : List Event → Site → List (Option (Bytes × Bytes))
  | [], _ => []
  | e :: rest, s => match e.reads i, e.answer s with
    | true, .ok (.record r) => r :: readsOf i rest (e.next s)
    | _, _ => readsOf i rest (e.next s)

namespace EnumerationLemmas

/-- The listing of a cursor depends on what its view sees. -/
theorem listing_congr (c : Cursor) {tree tree' : VersionTree}
    (h : ∀ key, tree'.get key c.view = tree.get key c.view) : c.listing tree' = c.listing tree := by
  have hcontents : tree'.contents c.view = tree.contents c.view :=
    SortedMap.ext_get? fun key => by
      rw [VersionTree.get?_contents, VersionTree.get?_contents, h]
  unfold Cursor.listing Cursor.contents
  rw [hcontents]

theorem eq_readCursor {e : Event} {i : Nat} (h : e.reads i = true) :
    ∃ now, e = .call now (.readCursor i) := by
  unfold Event.reads at h
  split at h
  · next now j => exact ⟨now, by rw [beq_iff_eq.1 h]⟩
  · cases h

theorem cursorStore_eq {db : Database} {i : Nat} {c : Cursor} {st : Store}
    (hc : db.cursors.get? i = some c)
    (hs : db.cells.get? c.cell = some st) : db.cursorStore i = .ok (c, st) := by
  unfold cursorStore
  simp only [hc, hs]
  rfl

/-- A call on a cursor changes that cursor alone. -/
theorem on_onCursor {α : Type} {db : Database} {i : Nat} {c : Cursor} {st : Store}
    (hc : db.cursors.get? i = some c) (hs : db.cells.get? c.cell = some st)
    (call : Store → Except Fault Unit → Attempt Cursor α) :
    (onCursor i call).on db =
      let o := (call st (db.checkReady c st)).on c
      (o.1, { db with cursors := db.cursors.modify i fun _ => o.2 }) := by
  simp only [onCursor, Attempt.on_bind, Attempt.on_get, Attempt.on_check, Attempt.on_set,
    cursorStore_eq hc hs]

theorem on_readCursor {s : Site} {i : Nat} {c : Cursor} {st : Store}
    (hc : s.db.cursors.get? i = some c) (hs : s.db.cells.get? c.cell = some st) (now : Nat) :
    ((Call.readCursor i).attempt now).on s =
      let o := (Cursor.read (s.db.checkReady c st) st.tree).on c
      (o.1.map .record, { s with
        db := { s.db with cursors := s.db.cursors.modify i fun _ => o.2 } }) := by
  simp only [Call.attempt, Attempt.on_map, Storage.on_onDatabase, readCursor, on_onCursor hc hs]

theorem checkReady_eq {db : Database} {c : Cursor} (s : Store) (hopen : db.closed = false)
    (hc : c.isBound = true ∨ c.filter = []) : db.checkReady c s = .ok () := by
  have hcurrent : c.isOutdated s.tree = false := by
    unfold Cursor.isOutdated
    rcases hc with hc | hc <;> simp [hc]
  unfold checkReady
  rw [ReadLemmas.checkOpen_eq hopen, hcurrent]
  rfl

end EnumerationLemmas

namespace Walks

variable {s : Site} {L : Ledger} {i n : Nat} {filter : Bytes} {bound : Bool}
  {records : List (Bytes × Bytes)}

/-- Whatever happens besides, the cursor goes on from where it is, through the same records. -/
theorem next (hrun : Run s L) {e : Event} (hmoves : e.moves i = false) (hreads : e.reads i = false)
    (h : Walks s.db i filter bound records n) :
    Walks (e.next s).db i filter bound records n := by
  obtain ⟨c, st, hc, hs, hfilter, hbound, hlisting, hread⟩ := h
  have hc' := e.cursor_next hmoves hreads hc
  obtain ⟨st', hs', hsame⟩ := ((e.steps s L).stands hrun.reached).cells c.cell st hs
  have hheld := HeldViews.of_reached hrun.reached
  have hheld' := HeldViews.of_reached (hrun.step e).reached
  -- the view is pinned on both sides of the event
  have hview := hheld'.horizon_le_cursor hc'
  have hpublished := hheld.le _ (hheld.mem_cursor hc)
  refine ⟨c, st', hc', hs', hfilter, hbound, ?_, hread⟩
  rw [listing_congr c fun key => hsame c.view key hview hpublished, hlisting]

/-- A read answers the next record, or fails and the cursor stays where it is. -/
theorem read (h : Walks s.db i filter bound records n) (now : Nat) :
    let e := Event.call now (.readCursor i)
    (∃ f, e.answer s = .error f) ∧ Walks (e.next s).db i filter bound records n ∨
      e.answer s = .ok (.record records[n]?) ∧
        Walks (e.next s).db i filter bound records (n + 1) := by
  obtain ⟨c, st, hc, hs, hfilter, hbound, hlisting, hread⟩ := h
  have hon := on_readCursor hc hs now
  have hget : ∀ c' : Cursor, (s.db.cursors.modify i fun _ => c').get? i = some c' := by
    intro c'
    rw [Pool.get?_modify, if_pos rfl, hc]
    rfl
  simp only [Event.answer, Event.next, Event.attempt, hon]
  cases hready : s.db.checkReady c st with
  | error f =>
    rw [Cursor.read_refused]
    exact .inl ⟨⟨f, rfl⟩, c, st, hget c, hs, hfilter, hbound, hlisting, hread⟩
  | ok _ =>
    subst hlisting
    obtain ⟨position, atEnd, heq, hread'⟩ := hread.read
    rw [heq]
    exact .inr ⟨rfl, _, st, hget _, hs, hfilter, hbound, rfl, hread'⟩

/-- A read of a cursor that is ready answers the next record. -/
theorem read_of_ready (h : Walks s.db i filter bound records n)
    (hready : ∀ c st, s.db.cells.get? c.cell = some st → c.filter = filter → c.isBound = bound →
      s.db.checkReady c st = .ok ()) (now : Nat) :
    (Event.call now (.readCursor i)).answer s = .ok (.record records[n]?) := by
  obtain ⟨c, st, hc, hs, hfilter, hbound, rfl, hread⟩ := h
  obtain ⟨position, atEnd, heq, -⟩ := hread.read
  simp only [Event.answer, Event.attempt, on_readCursor hc hs now, hready c st hs hfilter hbound,
    heq]
  rfl

/-- A read of an open database succeeds when the cursor belongs to a transaction or has no filter. -/
theorem read_ok (h : Walks s.db i filter bound records n) (hopen : s.db.closed = false)
    (hready : bound = true ∨ filter = []) (now : Nat) :
    (Event.call now (.readCursor i)).answer s = .ok (.record records[n]?) :=
  h.read_of_ready (fun _ st _ hfilter hbound => checkReady_eq st hopen
    (hready.imp (hbound ▸ ·) (hfilter ▸ ·))) now

/-- As long as the events that do not read the cursor leave it on its way, it has come through as many
records more as were read. -/
theorem along {P : Site → Prop} {events : List Event} (hP : ∀ e ∈ events, ∀ s, P s → P (e.next s))
    (hnext : ∀ e ∈ events, ∀ s n, P s → e.reads i = false →
      Walks s.db i filter bound records n → Walks (e.next s).db i filter bound records n)
    (hs : P s) (h : Walks s.db i filter bound records n) :
    Walks (s.after events).db i filter bound records (n + (readsOf i events s).length) ∧
      ∀ k r, (readsOf i events s)[k]? = some r → r = records[n + k]? := by
  induction events generalizing s n with
  | nil => exact ⟨h, fun k r hr => nomatch hr⟩
  | cons e rest ih =>
    obtain ⟨hPe, hPrest⟩ := List.forall_mem_cons.1 hP
    obtain ⟨hnexte, hnextrest⟩ := List.forall_mem_cons.1 hnext
    have hgoes := fun n => @ih (e.next s) n hPrest hnextrest (hPe s hs)
    unfold readsOf
    cases hreads : e.reads i with
    | false => exact hgoes n (hnexte s n hs hreads h)
    | true =>
      obtain ⟨now, rfl⟩ := eq_readCursor hreads
      rcases h.read now with ⟨⟨f, hanswer⟩, hwalks⟩ | ⟨hanswer, hwalks⟩
      · rw [hanswer]
        exact hgoes n hwalks
      · rw [hanswer]
        obtain ⟨hfinal, hall⟩ := hgoes (n + 1) hwalks
        refine ⟨?_, fun k r hr => ?_⟩
        · rw [List.length_cons, Nat.add_comm _ 1, ← Nat.add_assoc]
          exact hfinal
        · cases k with
          | zero => exact (Option.some.inj hr).symm
          | succ k =>
            rw [Nat.add_comm k 1, ← Nat.add_assoc]
            exact hall k r hr

/-- After some events of a run the cursor has come through as many records more as were read. -/
theorem play (hrun : Run s L) {events : List Event} (hmoves : ∀ e ∈ events, e.moves i = false)
    (h : Walks s.db i filter bound records n) :
    Walks (play events s L).1.db i filter bound records (n + (readsOf i events s).length) ∧
      ∀ k r, (readsOf i events s)[k]? = some r → r = records[n + k]? := by
  rw [site_play]
  refine along (P := fun s => ∃ L, Run s L) (fun e _ s hs => ?_) (fun e he s n hs hreads h => ?_)
    ⟨L, hrun⟩ h
  · obtain ⟨L, hrun⟩ := hs
    exact ⟨_, hrun.step e⟩
  · obtain ⟨L, hrun⟩ := hs
    exact h.next hrun (hmoves e he) hreads

end Walks

/-! ## 5. What the reads of a cursor answer -/

/-- The records under a filter that a get with some binding answers, in scan order. Beside them there
may only be records that were loaded under keys that no call accepts. -/
structure Lists (s : Site) (L : Ledger) (now handle : Nat) (txn : Option Nat) (filter : Bytes)
    (reverse : Bool) (records : List (Bytes × Bytes)) : Prop where
  ordered : records.Pairwise fun a b => Before reverse a.1 b.1
  selected : ∀ e ∈ records, filter.isPrefixOf e.1 = true
  answered : ∀ key v, Limits.checkKey key = .ok () →
    ((key, v) ∈ records ↔ filter.isPrefixOf key = true ∧
      (Event.call now (.get handle txn key)).answer s = .ok (.value (some v)))
  accepted : ∀ key v, (key, v) ∈ records → Limits.checkKey key = .ok () ∨
    ∃ h, s.db.handles.get? handle = some h ∧ L.loaded h.cell key = some v

namespace EnumerationLemmas

/-- What commits left under a key was put by a checked write, or loaded. -/
theorem accepted_of_landedValue {L : Ledger} (hchecked : L.Checked) {n cell : Nat} {key v : Bytes}
    (h : landedValue L.loaded (L.commits.take n) cell key = some v) :
    Limits.checkKey key = .ok () ∨ L.loaded cell key = some v := by
  rcases Change.put_of_after h with hloaded | hput
  · exact .inr hloaded
  · obtain ⟨c, hc, hchange⟩ := List.mem_flatMap.1 hput
    unfold Commit.landed at hchange
    split at hchange
    · obtain ⟨w, hw, hwrite⟩ := List.mem_map.1 hchange
      have hwc := hchecked.commits c (List.mem_of_mem_take hc) w (List.mem_of_mem_filter hw)
      rw [hwrite] at hwc
      exact .inl hwc.1
    · cases hchange

theorem accepted_of_draft {L : Ledger} (hchecked : L.Checked) {t cell : Nat} {key v : Bytes}
    (h : (WriteSet.ofChanges (changesTo (L.drafts t).writes cell)).lookup key = .value v) :
    Limits.checkKey key = .ok () := by
  rw [WriteSet.lookup_ofChanges] at h
  cases hlast : Change.lastOn (changesTo (L.drafts t).writes cell) key with
  | none =>
    rw [hlast] at h
    cases h
  | some change =>
    rw [hlast] at h
    have hleaves : change.leaves = some v := by
      simp only [Option.map_some, Option.getD_some] at h
      cases hl : change.leaves with
      | none =>
        rw [hl] at h
        cases h
      | some v' =>
        rw [hl] at h
        cases h
        rfl
    obtain ⟨w, hw, hwrite⟩ := List.mem_map.1 (Change.put_of_lastOn hlast hleaves)
    have hwc := hchecked.drafts t w (List.mem_of_mem_filter hw)
    rw [hwrite] at hwc
    exact hwc.1

end EnumerationLemmas

/-- The listing of a new cursor is what a get with its binding answers. -/
theorem lists_start {s : Site} {L : Ledger} (hrun : Run s L) {now handle view : Nat}
    {txn : Option Nat} {filter : Bytes} {reverse : Bool} {hd : Handle} {st : Store}
    {overlay : Option WriteSet} (hh : s.db.handles.get? handle = some hd)
    (hs : s.db.cells.get? hd.cell = some st) (hbinds : s.db.Binds st.id view overlay txn)
    (hget : ∀ key, Limits.checkKey key = .ok () →
      (getRecord now handle txn key).on s.db = (.ok (((Cursor.start hd.cell view overlay
        st.prefixLength filter reverse).contents st.tree).get? key), s.db)) :
    Lists s L now handle txn filter reverse
      ((Cursor.start hd.cell view overlay st.prefixLength filter reverse).listing st.tree) where
  ordered := (Cursor.start hd.cell view overlay st.prefixLength filter reverse).ordered_listing st.tree
  selected := fun e he => ((Cursor.mem_listing_iff _ _).1 he).2
  answered := fun key v hkey => by
    rw [Cursor.mem_listing_iff, and_comm]
    refine and_congr_right fun _ => ?_
    simp only [Event.answer, Event.attempt, Call.attempt, Attempt.on_map, Storage.on_onDatabase,
      hget key hkey, Except.map]
    constructor
    · intro hv
      rw [hv]
    · intro hanswer
      exact Reply.value.inj (Except.ok.inj hanswer)
  accepted := fun key v he => by
    have hhistory := History.of_reached hrun.reached
    have hv := ((Cursor.mem_listing_iff _ _).1 he).1
    rw [get?_contents] at hv
    have hold : ∀ n, st.tree.get key view = landedValue L.loaded (L.commits.take n) hd.cell key →
        st.tree.get key view = some v → Limits.checkKey key = .ok () ∨
          ∃ h, s.db.handles.get? handle = some h ∧ L.loaded h.cell key = some v :=
      fun n heq hsome => (accepted_of_landedValue hrun.checked (heq ▸ hsome)).imp_right
        fun hloaded => ⟨hd, hh, hloaded⟩
    cases txn with
    | none =>
      obtain ⟨rfl, rfl⟩ := hbinds
      exact hold _ (hhistory.current.get hd.cell st key hs) hv
    | some t =>
      obtain ⟨c, hc, rfl, rfl⟩ := hbinds
      have hwrites := (Drafts.of_reached hrun.reached).writes t c hd.cell st hc hs
      simp only [Cursor.start] at hv
      split at hv
      · next v' hvalue =>
        rw [hwrites] at hvalue
        exact .inl (accepted_of_draft hrun.checked hvalue)
      · cases hv
      · exact hold _ ((hhistory.cycles t c hc).get hd.cell st key hs) hv

/-- A cursor that was made is at the start of its listing, which is what a get with its binding
answers. -/
theorem walks_start {s : Site} {now handle i : Nat} {txn : Option Nat} {filter : Bytes}
    {reverse : Bool}
    (hmade : (Event.call now (.openCursor handle txn filter reverse)).answer s = .ok (.number i)) :
    ∃ hd st view overlay, s.db.handles.get? handle = some hd ∧ s.db.cells.get? hd.cell = some st ∧
      s.db.Binds st.id view overlay txn ∧
      (∀ key, Limits.checkKey key = .ok () →
        (getRecord now handle txn key).on s.db = (.ok (((Cursor.start hd.cell view overlay
          st.prefixLength filter reverse).contents st.tree).get? key), s.db)) ∧
      Walks ((Event.call now (.openCursor handle txn filter reverse)).next s).db i filter txn.isSome
        ((Cursor.start hd.cell view overlay st.prefixLength filter reverse).listing st.tree) 0 := by
  simp only [Event.answer, Event.next, Event.attempt, Call.attempt, Attempt.on_map,
    Storage.on_onDatabase] at hmade ⊢
  cases hopen : (openCursor now handle txn filter reverse).on s.db with
  | mk o db' =>
    rw [hopen] at hmade
    cases o with
    | error f => cases hmade
    | ok i' =>
      cases hmade
      obtain ⟨hd, st, view, overlay, hh, hs, hbinds, rfl, rfl, hget⟩ := openCursor_ok hopen
      refine ⟨hd, st, view, overlay, hh, hs, hbinds, hget, _, st, Pool.get?_add_nextId _ _, hs, rfl,
        ?_, rfl, Cursor.hasRead_start rfl rfl rfl _⟩
      cases txn with
      | none => exact congrArg Option.isSome hbinds.2
      | some t =>
        obtain ⟨c, -, -, rfl⟩ := hbinds
        rfl

/-- A cursor that was made walks what a get with its binding answers. -/
theorem walks_openCursor {s : Site} {L : Ledger} (hrun : Run s L) {now handle i : Nat}
    {txn : Option Nat} {filter : Bytes} {reverse : Bool}
    (hmade : (Event.call now (.openCursor handle txn filter reverse)).answer s = .ok (.number i)) :
    ∃ records, Lists s L now handle txn filter reverse records ∧
      Walks ((Event.call now (.openCursor handle txn filter reverse)).next s).db i filter txn.isSome
        records 0 := by
  obtain ⟨hd, st, view, overlay, hh, hs, hbinds, hget, hwalks⟩ := walks_start hmade
  exact ⟨_, lists_start hrun hh hs hbinds hget, hwalks⟩

/-- A cursor enumerates what a get with the same binding answered when it was made, under its filter
and in its direction: whatever happens afterwards, as long as the cursor is not moved but by reading,
the reads that do not fail answer these records one after another, and the end after the last. On an
open database no read fails of a cursor that belongs to a transaction or has no filter. -/
theorem cursor_enumerates {s : Site} {L : Ledger} (hrun : Run s L) {now handle i : Nat}
    {txn : Option Nat} {filter : Bytes} {reverse : Bool}
    (hmade : (Event.call now (.openCursor handle txn filter reverse)).answer s = .ok (.number i)) :
    ∃ records : List (Bytes × Bytes), Lists s L now handle txn filter reverse records ∧
      ∀ events : List Event, (∀ e ∈ events, e.moves i = false) →
        let made := (Event.call now (.openCursor handle txn filter reverse)).next s
        let later := (play events made L).1
        (∀ (k : Nat) r, (readsOf i events made)[k]? = some r → r = records[k]?) ∧
        (later.db.closed = false → txn.isSome = true ∨ filter = [] →
          ∀ now, (Event.call now (.readCursor i)).answer later =
            .ok (.record records[(readsOf i events made).length]?)) := by
  obtain ⟨records, hlists, hwalks⟩ := walks_openCursor hrun hmade
  refine ⟨records, hlists, fun events hmoves => ?_⟩
  have hafter : L.after s (.call now (.openCursor handle txn filter reverse)) = L := by
    unfold Ledger.after
    rw [hmade]
    rfl
  have hmaking := hafter ▸ hrun.step (.call now (.openCursor handle txn filter reverse))
  obtain ⟨hlater, hreads⟩ := hwalks.play hmaking hmoves
  simp only [Nat.zero_add] at hlater hreads
  exact ⟨hreads, fun hopen hready now => hlater.read_ok hopen hready now⟩

/-- A transaction that deletes one of two committed records and puts another. -/
def beforeScan : List Event :=
  [.call 0 (.openStore "a" ["transactions.enabled=true"]), .call 0 .allocTxn,
    .call 0 (.beginTxn 0), .call 0 (.write 0 (some 0) (.put [107, 1] [1])),
    .call 0 (.write 0 (some 0) (.put [107, 3] [3])), .call 0 (.commitTxn 0),
    .call 0 (.beginTxn 0), .call 0 (.write 0 (some 0) (.delete [107, 1])),
    .call 0 (.write 0 (some 0) (.put [107, 2] [2]))]

/-- Reads of a cursor, with commits and a compaction between them. -/
def duringScan : List Event :=
  [.call 0 (.readCursor 0), .call 0 (.write 0 (some 0) (.put [107, 4] [4])),
    .call 0 (.commitTxn 0), .call 0 (.beginTxn 0),
    .call 0 (.write 0 (some 0) (.deletePrefix [107])), .call 0 (.commitTxn 0), .call 0 .compact,
    .call 0 (.readCursor 0), .call 0 (.closeStore 0), .call 0 (.readCursor 0),
    .call 0 (.readCursor 0)]

set_option maxRecDepth 10000 in
/-- The cursor of the transaction goes through the record that was put and the one that was not
deleted, although both are gone when it reads the second. -/
theorem cursor_enumerates_overlay :
    let s := (playSmall beforeScan).1
    let made := (Event.call 0 (.openCursor 0 (some 0) [107] false)).next s
    readsOf 0 duringScan made =
        [some ([107, 2], [2]), some ([107, 3], [3]), none, none] ∧
      ∃ records : List (Bytes × Bytes),
        Lists s (playSmall beforeScan).2 0 0 (some 0) [107] false records ∧
          ([107, 2], [2]) ∈ records ∧
          ∀ (k : Nat) r, (readsOf 0 duringScan made)[k]? = some r → r = records[k]? := by
  have hmade : (Event.call 0 (.openCursor 0 (some 0) [107] false)).answer (playSmall beforeScan).1 =
    .ok (.number 0) := rfl
  have hmoves : ∀ e ∈ duringScan, e.moves 0 = false := by decide
  have hput : (Event.call 0 (.get 0 (some 0) [107, 2])).answer (playSmall beforeScan).1 =
    .ok (.value (some [2])) := rfl
  obtain ⟨records, hlists, hreads⟩ := cursor_enumerates (run_playSmall beforeScan) hmade
  exact ⟨rfl, records, hlists, (hlists.answered [107, 2] [2] rfl).2 ⟨rfl, hput⟩,
    (hreads duringScan hmoves).1⟩

end SnapshotKv
