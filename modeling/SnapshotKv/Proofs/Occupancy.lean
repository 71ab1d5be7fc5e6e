import SnapshotKv.Proofs.InTransaction
import SnapshotKv.Proofs.ReadLaw
import SnapshotKv.Proofs.Retention

/-!
# Stores to themselves

A handle and the locks of transactions belong to one store, whatever other stores there are or were
under its name. A store is open exactly while a handle is on it; locks are on the numbers of stores;
and a transaction changes, reads and locks of a store what it wrote through handles on that store.

Results:
1. `Occupancy.of_reached`: open stores have handles, and locks are on stores; `Endures.play`: what
   stays of stores and handles whatever happens.
2. `answer_write_on`: the answer of a write does not depend on the locks of other stores.
3. `Secluded`, `Run.secluded`: what a store takes from transactions.
-/

namespace SnapshotKv

open Database

/-! ## 1. Handles and locks -/

/-- Every lock is on the number of a store. -/
def LockTable.Placed (t : LockTable) (cells : Pool Store) : Prop :=
  ∀ l ∈ t.keys ++ t.prefixes, ∃ i s, cells.get? i = some s ∧ s.id = l.store

/-- Open stores have handles, and handles and locks are on stores. -/
structure Occupancy (db : Database) (L : Ledger) : Prop where
  handle : ∀ i s, db.cells.get? i = some s → s.isOpen = true →
    ∃ n h, db.handles.get? n = some h ∧ h.cell = i
  locked : db.locks.Placed db.cells
  /-- A handle, given up or not, was opened on a store that there was. -/
  opening : ∀ o ∈ L.openings, o.cell < db.cells.nextId

namespace OccupancyLemmas

/-- A store whose mark was set, as it was before. -/
theorem of_setOpen {p : Pool Store} {cell i : Nat} {b : Bool} {s' : Store}
    (h : (p.modify cell fun s => { s with isOpen := b }).get? i = some s') :
    ∃ s, p.get? i = some s ∧ s'.isOpen = if cell = i then b else s.isOpen := by
  obtain ⟨s, hs, -⟩ := RegistryLemmas.get?_of_setOpen h
  obtain ⟨s'', hs'', hopen⟩ := RegistryLemmas.get?_setOpen cell b hs
  exact ⟨s, hs, Option.some.inj (h.symm.trans hs'') ▸ hopen⟩

theorem placed_of_ids {locks : LockTable} {cells cells' : Pool Store} (h : locks.Placed cells)
    (hids : cells'.map Store.id = cells.map Store.id) : locks.Placed cells' := by
  intro l hl
  obtain ⟨i, s, hs, hid⟩ := h l hl
  obtain ⟨s', hs', hid'⟩ := Pool.get?_of_map_eq hids.symm hs
  exact ⟨i, s', hs', hid'.symm.trans hid⟩

theorem placed_release {locks : LockTable} {cells : Pool Store} (h : locks.Placed cells)
    (owner : Nat) : (locks.release owner).Placed cells := by
  intro l hl
  refine h l ?_
  rcases List.mem_append.1 hl with hl | hl
  · exact List.mem_append_left _ (List.mem_of_mem_filter hl)
  · exact List.mem_append_right _ (List.mem_of_mem_filter hl)

theorem placed_claim {locks : LockTable} {cells : Pool Store} (h : locks.Placed cells) {cell : Nat}
    {s : Store} (hs : cells.get? cell = some s) (change : Change) (owner : Nat) :
    (change.claim s.id locks owner).2.Placed cells := by
  obtain ⟨hkeys, hprefixes⟩ := @HoldingsLemmas.of_mem_claim locks s.id owner change
  intro l hl
  rcases List.mem_append.1 hl with hl | hl
  · rcases hkeys l hl with hl | ⟨hstore, -⟩
    · exact h l (List.mem_append_left _ hl)
    · exact ⟨cell, s, hs, hstore.symm⟩
  · rcases hprefixes l hl with hl | ⟨hstore, -⟩
    · exact h l (List.mem_append_right _ hl)
    · exact ⟨cell, s, hs, hstore.symm⟩

end OccupancyLemmas

open OccupancyLemmas ContentsLemmas DraftsLemmas

namespace Occupancy

variable {db db' : Database} {L L' : Ledger}

/-- Contents do not matter. -/
theorem of_frame {cells : Pool Store} (h : Occupancy db L)
    (hf : cells.map Store.frame = db.cells.map Store.frame) : Occupancy { db with cells } L where
  handle := fun i s hs hopen => by
    obtain ⟨s₀, hs₀, hf₀⟩ := Pool.get?_of_map_eq hf hs
    exact h.handle i s₀ hs₀ (isOpen_of_frame hf₀ ▸ hopen)
  locked := placed_of_ids h.locked (ids_of_frame hf)
  opening := nextId_of_frame hf ▸ h.opening

theorem withStore (h : Occupancy db L) (name : String) (prefixLength : Nat) :
    Occupancy (db.withStore name prefixLength) L where
  handle := fun i s hs hopen => by
    rcases Pool.get?_add_eq_some hs with hs | ⟨-, rfl⟩
    · exact h.handle i s hs hopen
    · cases hopen
  locked := fun l hl => by
    obtain ⟨i, s, hs, hid⟩ := h.locked l hl
    exact ⟨i, s, Pool.get?_add_of_some _ hs, hid⟩
  opening := fun o ho => Pool.nextId_add db.cells _ ▸ Nat.lt_succ_of_lt (h.opening o ho)

theorem openStore (h : Occupancy db L) {cell : Nat} {s : Store} (hs : db.cells.get? cell = some s)
    (settings : StoreSettings) :
    Occupancy
      { db.modifyStore cell (fun s => { s with isOpen := true }) with
        handles := db.handles.add ⟨cell, settings⟩ }
      (L.addOpening ⟨cell, settings⟩) where
  handle := fun i s' hs' hopen' => by
    obtain ⟨s, hs, hopen⟩ := of_setOpen hs'
    by_cases hi : cell = i
    · exact ⟨_, _, Pool.get?_add_nextId _ _, hi⟩
    · rw [if_neg hi] at hopen
      obtain ⟨n, hd, hn, hcell⟩ := h.handle i s hs (hopen ▸ hopen')
      exact ⟨n, hd, Pool.get?_add_of_some _ hn, hcell⟩
  locked := placed_of_ids h.locked (Pool.map_modify_of_eq db.cells cell fun _ => rfl)
  opening := fun o ho => by
    refine Nat.lt_of_lt_of_eq ?_ (Pool.nextId_modify db.cells cell _).symm
    rcases List.mem_append.1 ho with ho | ho
    · exact h.opening o ho
    · rw [List.mem_singleton.1 ho]
      exact Pool.lt_nextId hs

theorem closeStore (h : Occupancy db L) {n : Nat} {hd : Handle} (hn : db.handles.get? n = some hd) :
    Occupancy
      { db.modifyStore hd.cell (fun s => { s with isOpen := false }) with
        handles := db.handles.remove n } L where
  handle := fun i s' hs' hopen' => by
    obtain ⟨s, hs, hopen⟩ := of_setOpen hs'
    by_cases hi : hd.cell = i
    · rw [if_pos hi, hopen'] at hopen
      cases hopen
    · rw [if_neg hi] at hopen
      obtain ⟨m, hd', hm, hcell⟩ := h.handle i s hs (hopen ▸ hopen')
      have hne : n ≠ m := by
        rintro rfl
        exact hi (Option.some.inj (hn.symm.trans hm) ▸ hcell)
      exact ⟨m, hd', by rw [Pool.get?_remove, if_neg hne, hm], hcell⟩
  locked := placed_of_ids h.locked (Pool.map_modify_of_eq db.cells hd.cell fun _ => rfl)
  opening := Pool.nextId_modify db.cells hd.cell _ ▸ h.opening

theorem opened (h : db.Opened) : Occupancy db (Ledger.opened db) := by
  obtain ⟨-, home, settings, config, lock, tree, -, hat⟩ := h.attached
  constructor
  · intro i s hs hopen
    obtain ⟨r, -, rfl⟩ := (hat.cells i s).1 hs
    cases hopen
  · intro l hl
    rw [hat.same] at hl
    cases hl
  · exact fun o ho => nomatch ho

/-- Every step keeps handles and locks on their stores. -/
theorem step (hr : Registry db L) (hstep : Step db L db' L') (h : Occupancy db L) :
    Occupancy db' L' := by
  cases hstep with
  | createStore name prefixLength hnew => exact h.withStore name prefixLength
  | @openStore name cell s settings hname hs hopen => exact h.openStore hs settings
  | closeStore hh => exact h.closeStore hh
  | saved cell => exact h.of_frame (frame_modify _ cell fun _ => rfl)
  | plain change hh hs hplain =>
    exact { h.of_frame (frame_applySingle db _ change.onTree) with }
  | claim change hc hs => exact ⟨h.handle, placed_claim h.locked hs change _, h.opening⟩
  | @endCycle t c hc => exact ⟨h.handle, placed_release h.locked c.id, h.opening⟩
  | @commit t c hc hdoomed =>
    obtain ⟨cells, published, heq, hf, -⟩ := publish_spec hr.ids c
    rw [heq]
    have hcommitted := h.of_frame hf
    exact ⟨hcommitted.handle, placed_release hcommitted.locked c.id, hcommitted.opening⟩
  | compact => exact h.of_frame (frame_compact _ _ (0, db.cells))
  | fileFault | list | number | delist | dropStore | close | allocTxn | beginTxn | doom | write
  | openCursor | closeCursor | moveCursor | refreshCursor => exact { h with }

/-- Handles and locks are on their stores in all that is reached. -/
theorem of_reached (h : Reached db L) : Occupancy db L := by
  induction h with
  | opened hdb => exact opened hdb
  | step hr hstep ih => exact step (.of_reached hr) hstep ih

end Occupancy

/-- What stays whatever happens: the stores with their numbers, and the handles that were opened. -/
structure Endures (db : Database) (L : Ledger) (db' : Database) (L' : Ledger) : Prop where
  ids : ∀ i s, db.cells.get? i = some s → ∃ s', db'.cells.get? i = some s' ∧ s'.id = s.id
  openings : L.openings <+: L'.openings

namespace Endures

variable {db db' db'' : Database} {L L' L'' : Ledger}

theorem of_ids (hids : db'.cells.map Store.id = db.cells.map Store.id)
    (hopenings : L.openings <+: L'.openings) : Endures db L db' L' where
  ids := fun _ _ hs => by
    obtain ⟨s', hs', hid⟩ := Pool.get?_of_map_eq hids.symm hs
    exact ⟨s', hs', hid.symm⟩
  openings := hopenings

theorem trans (h : Endures db L db' L') (h' : Endures db' L' db'' L'') : Endures db L db'' L'' where
  ids := fun i s hs => by
    obtain ⟨s', hs', hid⟩ := h.ids i s hs
    obtain ⟨s'', hs'', hid'⟩ := h'.ids i s' hs'
    exact ⟨s'', hs'', hid'.trans hid⟩
  openings := h.openings.trans h'.openings

theorem step (hr : Registry db L) (hstep : Step db L db' L') : Endures db L db' L' := by
  cases hstep with
  | createStore name prefixLength hnew =>
    exact ⟨fun i s hs => ⟨s, Pool.get?_add_of_some _ hs, rfl⟩, List.prefix_rfl⟩
  | @openStore name cell s settings hname hs hopen =>
    exact of_ids (Pool.map_modify_of_eq db.cells cell fun _ => rfl) (List.prefix_append _ _)
  | @closeStore n hd hn =>
    exact of_ids (Pool.map_modify_of_eq db.cells hd.cell fun _ => rfl) List.prefix_rfl
  | saved cell => exact of_ids (Pool.map_modify_of_eq db.cells cell fun _ => rfl) List.prefix_rfl
  | plain change hh hs hplain =>
    exact of_ids (ids_of_frame (frame_applySingle db _ change.onTree)) List.prefix_rfl
  | @commit t c hc hdoomed =>
    obtain ⟨cells, published, heq, hf, -⟩ := publish_spec hr.ids c
    rw [heq]
    exact of_ids (ids_of_frame hf) List.prefix_rfl
  | compact => exact of_ids (ids_of_frame (frame_compact _ _ (0, db.cells))) List.prefix_rfl
  | fileFault | list | number | delist | dropStore | close | allocTxn | beginTxn | claim | doom
  | write | endCycle | openCursor | closeCursor | moveCursor | refreshCursor =>
    exact of_ids rfl List.prefix_rfl

theorem steps (hreached : Reached db L) (h : Steps db L db' L') : Endures db L db' L' := by
  induction h with
  | refl => exact of_ids rfl List.prefix_rfl
  | tail hsteps hstep ih =>
    exact ih.trans (step (Registry.of_reached (hreached.steps hsteps)) hstep)

theorem play {s : Site} {L : Ledger} (hrun : Run s L) (events : List Event) :
    Endures s.db L (play events s L).1.db (play events s L).2 := by
  induction events generalizing s L with
  | nil => exact of_ids rfl List.prefix_rfl
  | cons e rest ih => exact (steps hrun.reached (e.steps s L)).trans (ih (.step e hrun))

end Endures

/-! ## 2. Locks on other stores -/

namespace OccupancyLemmas

/-- A write in a transaction is answered as if there were no locks on other stores. -/
theorem answer_writeInTxn_on (db : Database) (now t : Nat) (s : Store) (change : Change)
    (latest : Option Nat) (write : WriteSet → WriteSet) :
    ((writeInTxn now t s (change.claim s.id) latest write).on
        { db with locks := db.locks.on s.id }).1 =
      ((writeInTxn now t s (change.claim s.id) latest write).on db).1 := by
  have hopen : checkOpen { db with locks := db.locks.on s.id } = db.checkOpen := rfl
  have htxn : txn { db with locks := db.locks.on s.id } t = db.txn t := rfl
  simp only [writeInTxn, activeCycle, Attempt.on_bind, Attempt.on_get, Attempt.on_check, hopen, htxn]
  cases db.checkOpen with
  | error f => rfl
  | ok _ =>
    cases db.txn t with
    | error f => rfl
    | ok x =>
      cases x with
      | invalid | committed | aborted => rfl
      | active c =>
        have hexpired : isExpired { db with locks := db.locks.on s.id } now c = db.isExpired now c :=
          rfl
        simp only [hexpired]
        cases db.isExpired now c with
        | true => rfl
        | false =>
          simp only [Bool.false_eq_true, ↓reduceIte, Attempt.on_pure]
          cases checkDoomed c with
          | error f => rfl
          | ok _ =>
            simp only [LockTable.granted_on]
            cases (change.claim s.id db.locks c.id).1 with
            | false => rfl
            | true =>
              simp only [Bool.not_true, Bool.false_eq_true, ↓reduceIte, Attempt.on_bind,
                Attempt.on_set]
              split <;> rfl

end OccupancyLemmas

/-- The database of a site with the locks on one store alone. -/
def Site.lockedOn (s : Site) (store : Nat) : Site :=
  { s with db := { s.db with locks := s.db.locks.on store } }

/-- A write to a store is answered as if there were no locks on other stores. -/
theorem answer_write_on {s : Site} {handle : Nat} {h : Handle} {st : Store}
    (hh : s.db.handles.get? handle = some h) (hs : s.db.cells.get? h.cell = some st)
    (now : Nat) (txn : Option Nat) (change : Change) :
    (Event.call now (.write handle txn change)).answer (s.lockedOn st.id) =
      (Event.call now (.write handle txn change)).answer s := by
  have hstore := ReadLemmas.handleStore_eq hh hs
  have hstore' : handleStore (s.lockedOn st.id).db handle = .ok (h, st) := hstore
  have haccess : checkAccess (s.lockedOn st.id).db h st txn.isSome .write =
    s.db.checkAccess h st txn.isSome .write := rfl
  simp only [Event.answer, Event.attempt, Call.attempt, Attempt.on_map, Storage.on_onDatabase,
    on_changeRecord, writeRecord, Attempt.on_bind, Attempt.on_get, Attempt.on_check, hstore, hstore',
    haccess]
  cases s.db.checkAccess h st txn.isSome .write with
  | error f => rfl
  | ok _ =>
    cases change.check st with
    | error f => rfl
    | ok _ =>
      cases txn with
      | none => rfl
      | some t =>
        simp only
        rw [Site.lockedOn, answer_writeInTxn_on]

/-! ## 3. What a store takes from transactions -/

/-- What transactions have written to other stores does not matter to a store: not when they commit,
not to what they read, and not to writes. -/
structure Secluded (s : Site) (L : Ledger) (cell : Nat) (st : Store) : Prop where
  /-- A commit does to the store what the transaction wrote through handles on it. -/
  committed : ∀ (now t : Nat) (c : Cycle) (call : Call) (s' : Site), call.isCommit t = true → s.db.txns.get? t = some (.active c) →
    (call.attempt now).on s = (.ok .done, s') →
      ∃ st', s'.db.cells.get? cell = some st' ∧ ∀ key, st'.tree.get key s'.db.published =
        Change.after (changesTo (L.drafts t).writes cell) key (st.tree.get key s.db.published)
  /-- Of the writes of a transaction, the store has those that were made through handles on it. -/
  buffered : ∀ t c, s.db.txns.get? t = some (.active c) →
    c.writesTo st.id = WriteSet.ofChanges (changesTo (L.drafts t).writes cell)
  /-- A read of the store in a transaction answers what these left, else the value at the begin. -/
  read : ∀ (now handle : Nat) (h : Handle) (t : Nat) (key : Bytes) (v : Option Bytes) (s' : Site),
    s.db.handles.get? handle = some h → h.cell = cell →
    ((Call.get handle (some t) key).attempt now).on s = (.ok (.value v), s') → v = L.valueIn t cell key
  /-- A write to the store is answered as if there were no locks on other stores. -/
  locked : ∀ (now handle : Nat) (h : Handle) (txn : Option Nat) (change : Change),
    s.db.handles.get? handle = some h → h.cell = cell →
    (Event.call now (.write handle txn change)).answer (s.lockedOn st.id) =
      (Event.call now (.write handle txn change)).answer s

namespace OccupancyLemmas

variable {s s' : Site} {L : Ledger} {t : Nat} {c : Cycle} {call : Call}

/-- A commit notes the writes of the transaction. -/
theorem after_of_isCommit {now : Nat} (hcall : call.isCommit t = true)
    (hc : s.db.txns.get? t = some (.active c)) (hdone : (call.attempt now).on s = (.ok .done, s')) :
    L.after s (.call now call) = L.addCycle t s.db.stores.values := by
  unfold Ledger.after Event.answer Event.attempt
  rw [hdone]
  cases call with
  | commitTxn t' =>
    rw [eq_of_beq hcall]
    rfl
  | closeTxn t' =>
    rw [eq_of_beq hcall]
    simp only [Ledger.afterCall, hc]
  | _ => cases hcall

theorem value_addCycle (L : Ledger) (t : Nat) (reached : List Nat) (cell : Nat) (key : Bytes) :
    (L.addCycle t reached).value cell key =
      Change.after (changesTo (L.drafts t).writes cell) key (L.value cell key) := by
  simp only [Ledger.value, Ledger.valueAt, Ledger.addCycle, Ledger.addCommit, List.take_length,
    List.flatMap_append, Change.after_append, List.flatMap_cons, List.flatMap_nil, List.append_nil]

theorem writesFiles_of_isCommit (hcall : call.isCommit t = true) : call.writesFiles = false := by
  cases call <;> first | rfl | cases hcall

/-- A read in a transaction that succeeds answers what the transaction sees. -/
theorem get_ok {db db' : Database} {now handle : Nat} {key : Bytes} {v : Option Bytes}
    (h : (getRecord now handle (some t) key).on db = (.ok v, db')) :
    ∃ hd st c, db.handles.get? handle = some hd ∧ db.cells.get? hd.cell = some st ∧
      db.txns.get? t = some (.active c) ∧ v = match (c.writesTo st.id).lookup key with
        | .value v => some v
        | .deleted => none
        | .absent => st.tree.get key c.view := by
  obtain ⟨_, _, hget, h⟩ := Attempt.ok_of_bind h
  cases hget
  obtain ⟨⟨hd, st⟩, _, hcheck, h⟩ := Attempt.ok_of_bind h
  obtain ⟨hstore, rfl⟩ := Prod.mk.inj hcheck
  obtain ⟨_, _, hcheck, h⟩ := Attempt.ok_of_bind h
  obtain ⟨-, rfl⟩ := Prod.mk.inj hcheck
  obtain ⟨_, _, hcheck, h⟩ := Attempt.ok_of_bind h
  obtain ⟨-, rfl⟩ := Prod.mk.inj hcheck
  obtain ⟨c, _, hactive, hanswer⟩ := Attempt.ok_of_bind h
  obtain ⟨rfl, hc⟩ := StepLemmas.activeCycle_ok hactive
  obtain ⟨hh, hs⟩ := StepLemmas.handleStore_ok hstore
  refine ⟨hd, st, c, hh, hs, hc, ?_⟩
  revert hanswer
  cases (c.writesTo st.id).lookup key <;>
    · intro hanswer
      cases hanswer
      rfl

end OccupancyLemmas

/-- A store that can be found takes nothing from what transactions have written to other stores. -/
theorem Run.secluded {s : Site} {L : Ledger} (hrun : Run s L) {name : String} {cell : Nat} {st : Store}
    (hname : s.db.stores.get? name = some cell) (hs : s.db.cells.get? cell = some st) :
    Secluded s L cell st where
  committed := fun now t c call s' hcall hc hdone => by
    have hrun' := Run.step (.call now call) hrun
    rw [after_of_isCommit hcall hc hdone, Event.next, Event.attempt, hdone] at hrun'
    have hretains := (call.retains (writesFiles_of_isCommit hcall) now s).1
    rw [hdone] at hretains
    have hname' : s'.db.stores.get? name = some cell := by
      rw [hretains.stores]
      exact hname
    obtain ⟨st', hs'⟩ := (Registry.of_reached hrun'.reached).found name cell hname'
    refine ⟨st', hs', fun key => ?_⟩
    rw [hrun'.get_eq_value hname' hs', value_addCycle, hrun.get_eq_value hname hs]
  buffered := fun t c hc => (Drafts.of_reached hrun.reached).writes t c cell st hc hs
  read := fun now handle h t key v s' hh hcell hread => by
    rw [Call.attempt, Attempt.on_map, Storage.on_onDatabase] at hread
    cases hget : (getRecord now handle (some t) key).on s.db with
    | mk r db' =>
      rw [hget] at hread
      cases r with
      | error f => cases hread
      | ok v' =>
        cases hread
        obtain ⟨hd, st', c, hh', hs', hc, rfl⟩ := get_ok hget
        obtain rfl := Option.some.inj (hh.symm.trans hh')
        subst hcell
        obtain rfl := Option.some.inj (hs.symm.trans hs')
        exact hrun.valueIn_eq hname hs hc key
  locked := fun now handle h txn change hh hcell =>
    answer_write_on hh (hcell.symm ▸ hs) now txn change

end SnapshotKv
