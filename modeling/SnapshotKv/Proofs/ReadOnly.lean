import SnapshotKv.Proofs.Agreement
import SnapshotKv.Proofs.Homes
import SnapshotKv.Proofs.InTransaction

/-!
# Databases that were opened read-only

A database that was opened read-only refuses every call that writes. So its transactions have nothing
to commit, its stores stay as they were loaded, and nothing is saved. The guard stands in three places
only; that the other calls are harmless is an invariant: `Database.Frozen`.

Results:
1. `VersionTree.Flat`: trees that were loaded; there is nothing to prune in them.
2. `refused_of_readOnly`: calls that write.
3. `Call.frozen`, `Event.frozen`: what every call and every event leaves as it was;
   `sameFiles_after`: calls alone leave the files.
-/

namespace SnapshotKv

open Database Storage

/-! ## 1. Trees that were loaded -/

namespace VersionTree

/-- A tree that has at most one version of each key, a value with the number zero, and no
tombstones. -/
structure Flat (t : VersionTree) : Prop where
  listed : t.NoEmptyList
  single : ∀ key, t.versionsOf key = [] ∨ ∃ v, t.versionsOf key = [⟨0, some v⟩]
  tombstones : t.tombstones = []

namespace Flat

variable {t : VersionTree}

theorem empty : Flat {} := ⟨fun _ h => (nomatch h), fun _ => .inl rfl, rfl⟩

theorem insert (h : t.Flat) (key v : Bytes) : (t.insert key 0 (some v)).Flat where
  listed := h.listed.insert key 0 (some v)
  single := fun key' => by
    rw [versionsOf_insert]
    split
    · refine .inr ⟨v, ?_⟩
      rcases h.single key with hnone | ⟨v', hv'⟩
      · rw [hnone]
        rfl
      · rw [hv']
        rfl
    · exact h.single key'
  tombstones := h.tombstones

theorem ofRecords (records : List (Bytes × Bytes)) : (VersionTree.ofRecords records).Flat := by
  have hall : ∀ {t : VersionTree}, t.Flat →
      (records.foldl (fun t e => t.insert e.1 0 (some e.2)) t).Flat := by
    induction records with
    | nil => exact id
    | cons e rest ih => exact fun ht => ih (ht.insert e.1 e.2)
  exact hall .empty

/-- There is nothing to prune. -/
theorem pruned_eq (h : t.Flat) (horizon : Nat) : t.pruned horizon = t := by
  refine eq_of_versionsOf_eq (noEmptyList_pruned horizon t) h.listed (fun key => ?_) ?_
  · rw [versionsOf_pruned]
    rcases h.single key with hnone | ⟨v, hv⟩
    · rw [hnone]
      rfl
    · have hsettled : t.settled horizon = [] := by rw [settled, h.tombstones, List.filter_nil]
      rw [hv, hsettled]
      exact @pruneVersions_append [] horizon key [] [] ⟨0, some v⟩ (Nat.zero_le horizon)
        fun x hx => absurd hx List.not_mem_nil
  · rw [tombstones_pruned, h.tombstones, List.filter_nil]

end Flat

end VersionTree

/-- The store without a handle on it. -/
def Store.resting (s : Store) : Store := { s with isOpen := false }

/-- A database as `base` was when it was opened read-only, but for handles, transactions and cursors:
the cycles have written nothing, and everything that reads has the view of the opening. -/
structure Database.Frozen (base db : Database) : Prop where
  readOnly : base.settings.readOnly = true
  flat : ∀ i s, base.cells.get? i = some s → s.tree.Flat
  settings : db.settings = base.settings
  catalog : db.catalog = base.catalog
  stores : db.stores = base.stores
  published : db.published = base.published
  cells : db.cells.map Store.resting = base.cells.map Store.resting
  cycle : ∀ t c, db.txns.get? t = some (.active c) → c.view = base.published ∧ c.writes = .empty
  cursor : ∀ i c, db.cursors.get? i = some c → c.view = base.published ∧ c.overlay.getD {} = {}

namespace Database.Frozen

variable {base db : Database}

/-- The stores have the trees that were loaded. -/
theorem store (h : base.Frozen db) {i : Nat} {s : Store} (hs : db.cells.get? i = some s) :
    ∃ s₀, base.cells.get? i = some s₀ ∧ s₀.resting = s.resting := by
  obtain ⟨s₀, hs₀, heq⟩ := Pool.get?_of_map_eq h.cells hs
  exact ⟨s₀, hs₀, heq.symm⟩

theorem flat_tree (h : base.Frozen db) {i : Nat} {s : Store} (hs : db.cells.get? i = some s) :
    s.tree.Flat := by
  obtain ⟨s₀, hs₀, heq⟩ := h.store hs
  have htree : s₀.resting.tree = s.resting.tree := by rw [heq]
  exact htree ▸ h.flat i s₀ hs₀

theorem isReadOnly (h : base.Frozen db) : db.settings.readOnly = true := by
  rw [h.settings, h.readOnly]

end Database.Frozen

/-! ## 2. Calls that write -/

/-- Whether a call changes the contents or the stores of a database. -/
def Call.isWrite : Call → Bool
  | .write _ _ _ | .createStore _ _ | .dropStore _ => true
  | _ => false

/-- Whether a call that writes passes what is checked before the settings are: a write goes through a
handle, in a transaction only when that is for transactions. -/
def Call.Reaches (db : Database) : Call → Prop
  | .write handle txn _ => ∃ h s, db.handleStore handle = .ok (h, s) ∧
      (txn.isSome = true → h.settings.transactional = true)
  | _ => True

namespace ReadOnlyLemmas

variable {db : Database}

theorem checkWritable_eq (hreadOnly : db.settings.readOnly = true) :
    db.checkWritable = .error Fault.openReadOnly := by
  unfold checkWritable
  rw [hreadOnly]
  rfl

theorem checkOpen_cases (db : Database) :
    db.checkOpen = .ok () ∨ ∃ f, db.checkOpen = .error f ∧ db.closed ≠ false := by
  unfold checkOpen
  cases db.closed with
  | true => exact .inr ⟨_, rfl, Bool.noConfusion⟩
  | false => exact .inl rfl

/-- The access to a store for a write is refused, and over the settings when nothing else is in the
way. -/
theorem checkAccess_write (hreadOnly : db.settings.readOnly = true) (h : Handle) (s : Store)
    (bound : Bool) :
    ∃ f, db.checkAccess h s bound .write = .error f ∧
      (db.closed = false → (bound = true → h.settings.transactional = true) →
        f = Fault.openReadOnly) := by
  unfold checkAccess
  rcases checkOpen_cases db with hopen | ⟨f, hf, hclosed⟩
  · simp only [hopen, checkWritable_eq hreadOnly]
    cases bound with
    | false => exact ⟨_, rfl, fun _ _ => rfl⟩
    | true =>
      cases htransactional : h.settings.transactional with
      | false => exact ⟨_, rfl, fun _ hbound => nomatch hbound rfl⟩
      | true => exact ⟨_, rfl, fun _ _ => rfl⟩
  · rw [hf]
    exact ⟨f, rfl, fun hopen => absurd hopen hclosed⟩

theorem on_writeRecord (hreadOnly : db.settings.readOnly = true) (now handle : Nat)
    (txn : Option Nat) (change : Change) :
    ∃ f, (writeRecord now handle txn change).on db = (.error f, db) ∧
      (db.closed = false → (Call.write handle txn change).Reaches db → f = Fault.openReadOnly) := by
  simp only [writeRecord, Attempt.on_bind, Attempt.on_get, Attempt.on_check, Call.Reaches]
  cases hstore : db.handleStore handle with
  | error f =>
    refine ⟨f, rfl, fun _ hreaches => ?_⟩
    obtain ⟨h, s, hs, -⟩ := hreaches
    cases hs
  | ok found =>
    obtain ⟨h, s⟩ := found
    obtain ⟨f, hf, hwhy⟩ := checkAccess_write hreadOnly h s txn.isSome
    simp only [hf]
    refine ⟨f, rfl, fun hopen hreaches => hwhy hopen ?_⟩
    obtain ⟨_, _, hs, hbound⟩ := hreaches
    cases hs
    exact hbound

/-- What is checked first of a call that makes or drops a store. -/
theorem on_guarded {α : Type} {s : Site} (hreadOnly : s.db.settings.readOnly = true)
    (rest : Attempt Site α) :
    ∃ f, (Attempt.check s.db.checkOpen >>= fun _ => Attempt.check s.db.checkWritable >>= fun _ =>
        rest).on s = (.error f, s) ∧ (s.db.closed = false → f = Fault.openReadOnly) := by
  simp only [Attempt.on_bind, Attempt.on_check, checkWritable_eq hreadOnly]
  rcases checkOpen_cases s.db with hopen | ⟨f, hf, hclosed⟩
  · rw [hopen]
    exact ⟨_, rfl, fun _ => rfl⟩
  · rw [hf]
    exact ⟨f, rfl, fun hopen => absurd hopen hclosed⟩

theorem on_createStore {s : Site} (hreadOnly : s.db.settings.readOnly = true) (name : String)
    (params : List String) :
    ∃ f, (Storage.createStore name params).on s = (.error f, s) ∧
      (s.db.closed = false → f = Fault.openReadOnly) := by
  unfold Storage.createStore
  rw [Attempt.on_bind, Attempt.on_get]
  exact on_guarded hreadOnly _

theorem on_dropStore {s : Site} (hreadOnly : s.db.settings.readOnly = true) (name : String) :
    ∃ f, (Storage.dropStore name).on s = (.error f, s) ∧
      (s.db.closed = false → f = Fault.openReadOnly) := by
  unfold Storage.dropStore
  rw [Attempt.on_bind, Attempt.on_get]
  exact on_guarded hreadOnly _

end ReadOnlyLemmas

open ReadOnlyLemmas

/-- A database that was opened read-only refuses every call that writes, and nothing changes. -/
theorem refused_of_readOnly {s : Site} (hreadOnly : s.db.settings.readOnly = true) (now : Nat)
    {call : Call} (hwrite : call.isWrite = true) :
    ∃ f, (call.attempt now).on s = (.error f, s) ∧
      (s.db.closed = false → call.Reaches s.db → f = Fault.openReadOnly) := by
  cases call with
  | write handle txn change =>
    obtain ⟨f, hf, hwhy⟩ := on_writeRecord hreadOnly now handle txn change
    simp only [Call.attempt, Attempt.on_map, on_onDatabase, on_changeRecord, hf]
    exact ⟨f, rfl, hwhy⟩
  | createStore name params =>
    obtain ⟨f, hf, hwhy⟩ := on_createStore hreadOnly name params
    simp only [Call.attempt, Attempt.on_map, hf]
    exact ⟨f, rfl, fun hopen _ => hwhy hopen⟩
  | dropStore name =>
    obtain ⟨f, hf, hwhy⟩ := on_dropStore hreadOnly name
    simp only [Call.attempt, Attempt.on_map, hf]
    exact ⟨f, rfl, fun hopen _ => hwhy hopen⟩
  | _ => cases hwrite

/-! ## 3. All other calls -/

namespace ReadOnlyLemmas

open HeldViewsLemmas

variable {α β : Type} {base db : Database}

theorem frozen_check_bind (h : base.Frozen db) {r : Except Fault α} {f : α → Attempt Database β}
    (hf : ∀ x, r = .ok x → base.Frozen ((f x).on db).2) :
    base.Frozen ((Attempt.check r >>= f).on db).2 := by
  cases r with
  | error e => exact h
  | ok x => exact hf x rfl

theorem frozen_get_bind {f : Database → Attempt Database β} (h : base.Frozen ((f db).on db).2) :
    base.Frozen ((get >>= f).on db).2 := h

theorem frozen_endCycle (h : base.Frozen db) (t : Nat) (c : Cycle) {final : Txn}
    (hfinal : final.view? = none) : base.Frozen (db.endCycle t c final) :=
  { h with cycle := fun t' c' hc' => h.cycle t' c' (active_of_endCycle hfinal hc').2 }

theorem frozen_activeCycle_bind (h : base.Frozen db) {now t : Nat}
    {f : Cycle → Attempt Database β}
    (hf : ∀ c, db.txns.get? t = some (.active c) → base.Frozen ((f c).on db).2) :
    base.Frozen ((activeCycle now t >>= f).on db).2 := by
  rw [Attempt.on_bind]
  rcases WithinLemmas.activeCycle_ends now t db with ⟨e, heq, -⟩ | ⟨c, -, hc, heq⟩
  · rw [heq]
    exact h
  · rw [heq]
    cases db.isExpired now c with
    | true => exact frozen_endCycle h t c rfl
    | false => exact hf c hc

theorem frozen_beginTxn (h : base.Frozen db) (now t : Nat) :
    base.Frozen ((beginTxn now t).on db).2 := by
  refine frozen_get_bind (frozen_check_bind h fun _ _ => frozen_check_bind h fun x _ => ?_)
  have hbegun : base.Frozen
      { db.setCycle t { id := db.nextCycle, view := db.published, started := now } with
        nextCycle := db.nextCycle + 1
        pins := db.pins.pin db.published } :=
    { h with
      cycle := fun t' c hc => by
        rcases get?_setTxn hc with ⟨-, hc⟩ | ⟨-, heq⟩
        · exact h.cycle t' c hc
        · cases heq
          exact ⟨h.published, rfl⟩ }
  cases x with
  | active c => exact h
  | invalid | committed | aborted => exact hbegun

theorem writesTo_of_empty {c : Cycle} (hc : c.writes = .empty) (store : Nat) :
    c.writesTo store = {} := by
  unfold Cycle.writesTo
  rw [hc]
  rfl

/-- A cycle that has written nothing has nothing to commit. -/
theorem publish_of_empty {c : Cycle} (hc : c.writes = .empty) (db : Database) :
    db.publish c = db := by
  unfold publish
  rw [hc]
  rfl

theorem frozen_commitTxn (h : base.Frozen db) (now t : Nat) :
    base.Frozen ((commitTxn now t).on db).2 := by
  refine frozen_activeCycle_bind h fun c hc => ?_
  split
  · exact frozen_endCycle h t c rfl
  · show base.Frozen ((db.publish c).endCycle t c .committed)
    rw [publish_of_empty (h.cycle t c hc).2]
    exact frozen_endCycle h t c rfl

theorem frozen_abortTxn (h : base.Frozen db) (t : Nat) : base.Frozen ((abortTxn t).on db).2 := by
  refine frozen_get_bind (frozen_check_bind h fun x _ => ?_)
  cases x with
  | active c => exact frozen_endCycle h t c rfl
  | invalid | committed | aborted => exact h

theorem frozen_closeTxn (h : base.Frozen db) (now t : Nat) :
    base.Frozen ((closeTxn now t).on db).2 := by
  refine frozen_get_bind (frozen_check_bind h fun x _ => ?_)
  cases x with
  | active c => exact frozen_commitTxn h now t
  | invalid | committed | aborted => exact h

theorem frozen_allocTxn (h : base.Frozen db) : base.Frozen (allocTxn.on db).2 :=
  { h with cycle := fun t c hc => h.cycle t c (active_of_allocTxn hc) }

theorem frozen_handles (h : base.Frozen db) (cell : Nat) (isOpen : Bool) (handles : Pool Handle) :
    base.Frozen { db.modifyStore cell (fun s => { s with isOpen }) with handles } :=
  { h with
    cells := (Pool.map_modify_of_eq db.cells cell
      (g := fun s => { s with isOpen }) fun _ => rfl).trans h.cells }

theorem frozen_openStore (h : base.Frozen db) (name : String) (params : List String) :
    base.Frozen ((openStore name params).on db).2 := by
  refine frozen_get_bind (frozen_check_bind h fun _ _ => frozen_check_bind h fun found _ => ?_)
  refine frozen_check_bind h fun settings _ => ?_
  simp only
  split
  · exact h
  · exact frozen_handles h _ true _

theorem frozen_closeStore (h : base.Frozen db) (handle : Nat) :
    base.Frozen (db.closeStore handle) := by
  unfold closeStore
  split
  · exact frozen_handles h _ false _
  · exact h

theorem frozen_getRecord (h : base.Frozen db) (now handle : Nat) (txn : Option Nat) (key : Bytes) :
    base.Frozen ((getRecord now handle txn key).on db).2 := by
  refine frozen_get_bind (frozen_check_bind h fun hs _ => frozen_check_bind h fun _ _ => ?_)
  refine frozen_check_bind h fun _ _ => ?_
  cases txn with
  | none => exact h
  | some t =>
    refine frozen_activeCycle_bind h fun c _ => ?_
    split <;> exact h

theorem frozen_cursors (h : base.Frozen db) {cursors : Pool Cursor} (pins : Pins)
    (hcursors : ∀ i c, cursors.get? i = some c →
      c.view = base.published ∧ c.overlay.getD {} = {}) :
    base.Frozen { db with cursors, pins } := { h with cursor := hcursors }

theorem frozen_addCursor (h : base.Frozen db) {c : Cursor} (pins : Pins)
    (hc : c.view = base.published ∧ c.overlay.getD {} = {}) :
    base.Frozen { db with cursors := db.cursors.add c, pins } :=
  frozen_cursors h pins fun i c' hc' => by
    rcases Pool.get?_add_eq_some hc' with hc' | ⟨-, rfl⟩
    · exact h.cursor i c' hc'
    · exact hc

theorem frozen_setCursor (h : base.Frozen db) (i : Nat) {f : Cursor → Cursor} (pins : Pins)
    (hf : ∀ c, c.view = base.published ∧ c.overlay.getD {} = {} →
      (f c).view = base.published ∧ (f c).overlay.getD {} = {}) :
    base.Frozen { db with cursors := db.cursors.modify i f, pins } :=
  frozen_cursors h pins fun j c' hc' => by
    rw [Pool.get?_modify] at hc'
    split at hc'
    · obtain ⟨c, hc, rfl⟩ := Option.map_eq_some_iff.1 hc'
      exact hf c (h.cursor j c hc)
    · exact h.cursor j c' hc'

theorem frozen_openCursor (h : base.Frozen db) (now handle : Nat) (txn : Option Nat)
    (filter : Bytes) (reverse : Bool) :
    base.Frozen ((openCursor now handle txn filter reverse).on db).2 := by
  refine frozen_get_bind (frozen_check_bind h fun hs _ => frozen_check_bind h fun _ _ => ?_)
  refine frozen_check_bind h fun _ _ => ?_
  cases txn with
  | none => exact frozen_addCursor h _ ⟨h.published, rfl⟩
  | some t =>
    refine frozen_activeCycle_bind h fun c hc => ?_
    obtain ⟨hview, hwrites⟩ := h.cycle t c hc
    exact frozen_addCursor h _ ⟨hview, writesTo_of_empty hwrites hs.2.id⟩

theorem frozen_closeCursor (h : base.Frozen db) (i : Nat) : base.Frozen (db.closeCursor i) := by
  unfold closeCursor
  split
  · refine frozen_cursors h _ fun j c hc => ?_
    rw [Pool.get?_remove] at hc
    split at hc
    · cases hc
    · exact h.cursor j c hc
  · exact h

/-- A call that moves a cursor leaves its scope. -/
theorem frozen_onCursor (h : base.Frozen db) (i : Nat)
    {call : Store → Except Fault Unit → Attempt Cursor α}
    (hscope : ∀ s ready c, ((call s ready).on c).2.scope = c.scope) :
    base.Frozen ((onCursor i call).on db).2 := by
  refine frozen_get_bind (frozen_check_bind h ?_)
  rintro ⟨c, s⟩ hcs
  have hsame := hscope s (db.checkReady c s) c
  have hview := congrArg Cursor.view hsame
  have hoverlay := congrArg Cursor.overlay hsame
  have hc := h.cursor i c (StepLemmas.cursorStore_ok hcs).1
  have hmoved := frozen_setCursor h i (f := fun _ => ((call s (db.checkReady c s)).on c).2)
    db.pins fun _ _ => ⟨hview.trans hc.1, hoverlay ▸ hc.2⟩
  simp only [Attempt.on_bind, Attempt.on_set, Attempt.on_check]
  cases ((call s (db.checkReady c s)).on c).1 with
  | error f => exact hmoved
  | ok x => exact hmoved

theorem frozen_refreshCursor (h : base.Frozen db) (i : Nat) :
    base.Frozen ((refreshCursor i).on db).2 := by
  refine frozen_get_bind (frozen_check_bind h fun _ _ => frozen_check_bind h ?_)
  rintro ⟨c, s⟩ -
  simp only
  split
  · exact frozen_setCursor h i _ fun c hc => ⟨h.published, hc.2⟩
  · exact h

/-- Compaction leaves trees that have nothing to prune. -/
theorem compact_of_flat {p : Pool Store} (hp : ∀ i s, p.get? i = some s → s.tree.Flat)
    (horizon : Nat) (cells : List Nat) (n : Nat) :
    (cells.foldl (pruneCell horizon) (n, p)).2 = p := by
  have hone : ∀ n cell, (pruneCell horizon (n, p) cell).2 = p := by
    intro n cell
    unfold pruneCell
    cases hs : p.get? cell with
    | none => rfl
    | some s =>
      refine Pool.modify_eq_self fun s' hs' => ?_
      rw [← Option.some.inj (hs.symm.trans hs')]
      show { s with tree := s.tree.pruned horizon } = s
      rw [(hp cell s hs).pruned_eq horizon]
  induction cells generalizing n with
  | nil => rfl
  | cons cell rest ih =>
    rw [List.foldl_cons]
    have heq := hone n cell
    revert heq
    generalize pruneCell horizon (n, p) cell = acc
    obtain ⟨n', p'⟩ := acc
    rintro rfl
    exact ih n'

theorem frozen_compact (h : base.Frozen db) : base.Frozen (compact.on db).2 := by
  refine frozen_get_bind (frozen_check_bind h fun _ _ => ?_)
  have hsame := compact_of_flat (fun i s => h.flat_tree (i := i) (s := s))
    (db.pins.horizon db.published) db.stores.values 0
  have hcompacted : base.Frozen { db with cells := (db.stores.values.foldl
      (pruneCell (db.pins.horizon db.published)) (0, db.cells)).2 } :=
    { h with cells := hsame.symm ▸ h.cells }
  exact hcompacted

theorem frozen_onDatabase {s : Site} {f : α → Reply} {a : Attempt Database α}
    (h : base.Frozen (a.on s.db).2) :
    base.Frozen ((f <$> onDatabase a).on s).2.db ∧ ((f <$> onDatabase a).on s).2.fs = s.fs := by
  rw [Attempt.on_map, on_onDatabase]
  exact ⟨h, rfl⟩

/-- A database that was opened read-only has nothing to save. -/
theorem on_persist {s : Site} (hreadOnly : s.db.settings.readOnly = true) :
    persist.on s = (.ok (), s) := by
  simp only [persist, Attempt.on_bind, Attempt.on_get, hreadOnly]
  rfl

theorem on_sync {s : Site} (hreadOnly : s.db.settings.readOnly = true) :
    sync.on s = (s.db.checkOpen, s) := by
  simp only [sync, Attempt.on_bind, Attempt.on_get, Attempt.on_check]
  cases s.db.checkOpen with
  | error f => rfl
  | ok _ => exact on_persist hreadOnly

end ReadOnlyLemmas

/-- Two file systems that differ in their locks alone. -/
def FileSystem.SameFiles (fs fs' : FileSystem) : Prop := ∃ locked, fs' = { fs with locked }

/-- Every call leaves the contents as they were when the database was opened read-only, and changes no
file. -/
theorem Call.frozen {base : Database} {s : Site} (h : base.Frozen s.db) (now : Nat) (c : Call) :
    base.Frozen ((c.attempt now).on s).2.db ∧ s.fs.SameFiles ((c.attempt now).on s).2.fs := by
  by_cases hwrite : c.isWrite = true
  · obtain ⟨f, hf, -⟩ := refused_of_readOnly h.isReadOnly now hwrite
    rw [hf]
    exact ⟨h, s.fs.locked, rfl⟩
  have hinner : ∀ {s' : Site}, base.Frozen s'.db ∧ s'.fs = s.fs →
      base.Frozen s'.db ∧ s.fs.SameFiles s'.fs := fun hs' => ⟨hs'.1, s.fs.locked, hs'.2⟩
  cases c with
  | write | createStore | dropStore => exact absurd rfl hwrite
  | param key | storeNames | storeParam handle key | txnState t | compactStatus =>
    exact hinner (frozen_onDatabase h)
  | openStore name params => exact hinner (frozen_onDatabase (frozen_openStore h name params))
  | closeStore handle => exact hinner ⟨frozen_closeStore h handle, rfl⟩
  | get handle txn key => exact hinner (frozen_onDatabase (frozen_getRecord h now handle txn key))
  | allocTxn => exact hinner (frozen_onDatabase (frozen_allocTxn h))
  | beginTxn t => exact hinner (frozen_onDatabase (frozen_beginTxn h now t))
  | commitTxn t => exact hinner (frozen_onDatabase (frozen_commitTxn h now t))
  | abortTxn t => exact hinner (frozen_onDatabase (frozen_abortTxn h t))
  | closeTxn t => exact hinner (frozen_onDatabase (frozen_closeTxn h now t))
  | openCursor handle txn filter reverse =>
    exact hinner (frozen_onDatabase (frozen_openCursor h now handle txn filter reverse))
  | closeCursor i => exact hinner ⟨frozen_closeCursor h i, rfl⟩
  | readCursor i =>
    exact hinner (frozen_onDatabase (frozen_onCursor h i fun s ready c =>
      StepLemmas.scope_read ready s.tree c))
  | seekCursor i key =>
    exact hinner (frozen_onDatabase (frozen_onCursor h i fun s ready c =>
      StepLemmas.scope_seek ready s.tree key c))
  | seekRangeCursor i low high =>
    exact hinner (frozen_onDatabase (frozen_onCursor h i fun s ready c =>
      StepLemmas.scope_seekRange s.name ready s.tree low high c))
  | refreshCursor i => exact hinner (frozen_onDatabase (frozen_refreshCursor h i))
  | compact => exact hinner (frozen_onDatabase (frozen_compact h))
  | mediaUsage m =>
    rw [Call.attempt, Attempt.on_map, EditLemmas.on_mediaUsage]
    exact ⟨h, s.fs.locked, rfl⟩
  | sync =>
    rw [Call.attempt, Attempt.on_map, on_sync h.isReadOnly]
    exact ⟨h, s.fs.locked, rfl⟩
  | close =>
    simp only [Call.attempt, Attempt.on_map, on_close]
    split
    · exact ⟨h, s.fs.locked, rfl⟩
    · have hclosed : base.Frozen { s.db with closed := true } := { h with }
      rw [on_persist (s := ⟨{ s.db with closed := true }, s.fs⟩) hclosed.isReadOnly]
      exact ⟨hclosed, s.fs.locked.erase s.db.lock, rfl⟩

theorem Event.frozen {base : Database} {s : Site} (h : base.Frozen s.db) (e : Event) :
    base.Frozen (e.next s).db := by
  cases e with
  | files fs => exact h
  | call now c => exact (c.frozen h now).1

/-- After all events the contents are as they were. -/
theorem Database.Frozen.after {base : Database} {s : Site} (h : base.Frozen s.db)
    (events : List Event) : base.Frozen (s.after events).db := by
  induction events generalizing s with
  | nil => exact h
  | cons e rest ih => exact ih (e.frozen h)

/-- Calls alone leave the files. -/
theorem sameFiles_after {base : Database} {s : Site} (h : base.Frozen s.db) {events : List Event}
    (hcalls : ∀ e ∈ events, ∃ now c, e = .call now c) : s.fs.SameFiles (s.after events).fs := by
  induction events generalizing s with
  | nil => exact ⟨s.fs.locked, rfl⟩
  | cons e rest ih =>
    obtain ⟨⟨now, c, rfl⟩, hrest⟩ := List.forall_mem_cons.1 hcalls
    obtain ⟨locked, hfs⟩ := (c.frozen h now).2
    obtain ⟨locked', hfs'⟩ := ih (Event.frozen h (.call now c)) hrest
    refine ⟨locked', hfs'.trans ?_⟩
    show { ((c.attempt now).on s).2.fs with locked := locked' } = _
    rw [hfs]

end SnapshotKv
