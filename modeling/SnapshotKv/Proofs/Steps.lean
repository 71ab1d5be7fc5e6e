import SnapshotKv.Proofs.Ledger
import SnapshotKv.Proofs.Locks

/-!
# Steps

A call is broken up into steps, each one change of the database together with what the ledger notes
of it. `Step` says once what any call can do; an invariant of databases and ledgers is shown for each
step, and holds for all that is `Reached`.

Results:
1. `Step`, `Steps`.
2. `Follows`: an attempt goes through steps, one lemma for each call.
3. `Event.steps`: so does every event, whatever its answer; `Run.reached`.
-/

namespace SnapshotKv

open Database

/-! ## 1. Steps -/

/-- The catalog with a new store, which gets the next number. -/
def Catalog.withRecord (c : Catalog) (name : String) (prefixLength : Nat) : Catalog :=
  { c with
    nextId := c.nextId + 1
    stores := c.stores ++ [{ name, id := c.nextId, prefixLength }] }

/-- The database with a new store, which its catalog lists. -/
def Database.withStore (db : Database) (name : String) (prefixLength : Nat) : Database :=
  Storage.attach { db with catalog := db.catalog.withRecord name prefixLength }
    { name, id := db.catalog.nextId, prefixLength } {}

/-- The catalog without a store. -/
def Catalog.without (c : Catalog) (name : String) : Catalog :=
  { c with stores := c.stores.filter (fun r => r.name != name) }

/-- What a cursor scans, wherever it stands. -/
def Cursor.scope (c : Cursor) : Cursor := { c with position := .start, cap := none, atEnd := false }

/-- A change that a call can make to a database, with what its ledger notes. -/
inductive Step : Database → Ledger → Database → Ledger → Prop
  /-- A file operation failed. -/
  | fileFault {db : Database} {L : Ledger} : Step db L db L.addFileFault
  /-- A store came into the catalog whose data file could not be written. -/
  | list {db : Database} {L : Ledger} (name : String) (prefixLength : Nat)
      (hnew : db.catalog.find? name = none) :
      Step db L { db with catalog := db.catalog.withRecord name prefixLength } L
  /-- A number was given out to a store with which the catalog could not be saved. -/
  | number {db : Database} {L : Ledger} :
      Step db L { db with catalog := { db.catalog with nextId := db.catalog.nextId + 1 } } L
  /-- The catalog lost a store whose data file could not be removed. -/
  | delist {db : Database} {L : Ledger} (name : String) :
      Step db L { db with catalog := db.catalog.without name } L.addFileFault
  | createStore {db : Database} {L : Ledger} (name : String) (prefixLength : Nat)
      (hnew : db.catalog.find? name = none) : Step db L (db.withStore name prefixLength) L
  | dropStore {db : Database} {L : Ledger} {name : String} {cell : Nat} {s : Store}
      (hname : db.stores.get? name = some cell) (hs : db.cells.get? cell = some s)
      (hopen : s.isOpen = false) :
      Step db L { db with catalog := db.catalog.without name, stores := db.stores.erase name } L
  | openStore {db : Database} {L : Ledger} {name : String} {cell : Nat} {s : Store}
      (settings : StoreSettings) (hname : db.stores.get? name = some cell)
      (hs : db.cells.get? cell = some s) (hopen : s.isOpen = false) :
      Step db L
        { db.modifyStore cell (fun s => { s with isOpen := true }) with
          handles := db.handles.add ⟨cell, settings⟩ }
        (L.addOpening ⟨cell, settings⟩)
  | closeStore {db : Database} {L : Ledger} {handle : Nat} {h : Handle}
      (hh : db.handles.get? handle = some h) :
      Step db L
        { db.modifyStore h.cell (fun s => { s with isOpen := false }) with
          handles := db.handles.remove handle } L
  /-- The data file of a store was written. -/
  | saved {db : Database} {L : Ledger} (cell : Nat) :
      Step db L (db.modifyStore cell fun s => { s with dirty := false }) L
  | close {db : Database} {L : Ledger} : Step db L { db with closed := true } L
  /-- A write without transaction. -/
  | plain {db : Database} {L : Ledger} {handle : Nat} {h : Handle} {s : Store} (change : Change)
      (hh : db.handles.get? handle = some h) (hs : db.cells.get? h.cell = some s)
      (hplain : h.settings.transactional = false) :
      Step db L (db.applySingle h.cell change.onTree) (L.addPlain (L.writeBy handle h change))
  | allocTxn {db : Database} {L : Ledger} : Step db L { db with txns := db.txns.add .invalid } L
  | beginTxn {db : Database} {L : Ledger} {t : Nat} {x : Txn} (now : Nat)
      (hx : db.txns.get? t = some x) (hidle : x.state ≠ .active) :
      Step db L
        { db.setCycle t { id := db.nextCycle, view := db.published, started := now } with
          nextCycle := db.nextCycle + 1
          pins := db.pins.pin db.published }
        (L.addBegin t)
  /-- A write in a transaction asked for its claim on a store. -/
  | claim {db : Database} {L : Ledger} {t cell : Nat} {c : Cycle} {s : Store} (change : Change)
      (hc : db.txns.get? t = some (.active c)) (hs : db.cells.get? cell = some s) :
      Step db L { db with locks := (change.claim s.id db.locks c.id).2 } L
  /-- A write lost a conflict. -/
  | doom {db : Database} {L : Ledger} {t : Nat} {c : Cycle}
      (hc : db.txns.get? t = some (.active c)) :
      Step db L (db.setCycle t { c with doomed := true }) L
  /-- A write in a transaction was accepted. -/
  | write {db : Database} {L : Ledger} {t handle : Nat} {c : Cycle} {h : Handle} {s : Store}
      (change : Change) (hc : db.txns.get? t = some (.active c))
      (hh : db.handles.get? handle = some h) (hs : db.cells.get? h.cell = some s)
      (hbound : h.settings.transactional = true) (hclaim : db.locks.Holds s.id change c.id)
      (hfresh : (change.latest s.tree).any (fun seqno => c.view < seqno) = false) :
      Step db L
        (db.setCycle t
          { c with writes := c.writes.insert s.id (change.onWrites (c.writesTo s.id)) })
        (L.addWrite t (L.writeBy handle h change))
  /-- A cycle ended without a commit. -/
  | endCycle {db : Database} {L : Ledger} {t : Nat} {c : Cycle}
      (hc : db.txns.get? t = some (.active c)) : Step db L (db.endCycle t c .aborted) L
  | commit {db : Database} {L : Ledger} {t : Nat} {c : Cycle}
      (hc : db.txns.get? t = some (.active c)) (hdoomed : c.doomed = false) :
      Step db L ((db.publish c).endCycle t c .committed) (L.addCycle t db.stores.values)
  | openCursor {db : Database} {L : Ledger} (c : Cursor)
      (hview : c.view = db.published ∨
        ∃ t cycle, db.txns.get? t = some (.active cycle) ∧ c.view = cycle.view) :
      Step db L { db with cursors := db.cursors.add c, pins := db.pins.pin c.view } L
  | closeCursor {db : Database} {L : Ledger} {i : Nat} {c : Cursor}
      (hc : db.cursors.get? i = some c) :
      Step db L { db with cursors := db.cursors.remove i, pins := db.pins.unpin c.view } L
  | moveCursor {db : Database} {L : Ledger} {i : Nat} {c : Cursor} (c' : Cursor)
      (hc : db.cursors.get? i = some c) (hview : c'.view = c.view) :
      Step db L { db with cursors := db.cursors.modify i (fun _ => c') } L
  | refreshCursor {db : Database} {L : Ledger} {i : Nat} {c : Cursor}
      (hc : db.cursors.get? i = some c) :
      Step db L
        { db with
          cursors := db.cursors.modify i
            (fun c => { c with view := db.published, atEnd := false })
          pins := (db.pins.pin db.published).unpin c.view } L
  | compact {db : Database} {L : Ledger} :
      Step db L
        { db with cells := (db.stores.values.foldl
            (pruneCell (db.pins.horizon db.published)) (0, db.cells)).2 } L

/-- Some steps, one after another. -/
inductive Steps (db : Database) (L : Ledger) : Database → Ledger → Prop
  | refl : Steps db L db L
  | tail {db' db'' : Database} {L' L'' : Ledger} :
      Steps db L db' L' → Step db' L' db'' L'' → Steps db L db'' L''

namespace Steps

theorem single {db db' : Database} {L L' : Ledger} (h : Step db L db' L') : Steps db L db' L' :=
  .tail .refl h

theorem trans {db db' db'' : Database} {L L' L'' : Ledger} (h : Steps db L db' L')
    (h' : Steps db' L' db'' L'') : Steps db L db'' L'' := by
  induction h' with
  | refl => exact h
  | tail _ hstep ih => exact .tail ih hstep

end Steps

/-! ## 2. Attempts that go through steps -/

namespace Ledger

/-- The ledger after a fault. -/
def afterFault (L : Ledger) (f : Fault) : Ledger :=
  if Cause.systemCall ∈ f.causes then L.addFileFault else L

end Ledger

/-- The database of an outcome was reached by steps; the ledger is `L'` after a success. -/
def Follows {α : Type} (db : Database) (L : Ledger) (L' : Database → Ledger) :
    Except Fault α × Database → Prop
  | (.ok _, db') => Steps db L db' (L' db')
  | (.error f, db') => Steps db L db' (L.afterFault f)

namespace StepLemmas

variable {α β : Type} {db db' : Database} {L : Ledger} {L' : Database → Ledger}

theorem steps_fault {f : Fault} (h : Steps db L db' L) : Steps db L db' (L.afterFault f) := by
  unfold Ledger.afterFault
  split
  · exact .tail h .fileFault
  · exact h

theorem follows_error (f : Fault) (h : Steps db L db' L) :
    Follows db L L' ((.error f, db') : Except Fault α × Database) := steps_fault h

theorem follows_throw (f : Fault) : Follows db L L' ((throw f : Attempt Database α).on db) :=
  follows_error f .refl

theorem follows_of_steps {o : Except Fault α × Database} (h : Steps db L db' L)
    (ho : Follows db' L L' o) : Follows db L L' o := by
  obtain ⟨r, db''⟩ := o
  cases r with
  | error f => exact h.trans ho
  | ok x => exact h.trans ho

theorem follows_get_bind {f : Database → Attempt Database β}
    (h : Follows db L L' ((f db).on db)) : Follows db L L' ((get >>= f).on db) := h

theorem follows_check_bind {r : Except Fault α} {f : α → Attempt Database β}
    (h : ∀ x, r = .ok x → Follows db L L' ((f x).on db)) :
    Follows db L L' ((Attempt.check r >>= f).on db) := by
  cases r with
  | error e => exact follows_error e .refl
  | ok x => exact h x rfl

theorem handleStore_ok {db : Database} {handle : Nat} {hs : Handle × Store}
    (h : db.handleStore handle = .ok hs) :
    db.handles.get? handle = some hs.1 ∧ db.cells.get? hs.1.cell = some hs.2 := by
  unfold handleStore at h
  split at h
  · next hh =>
    split at h
    · next hs' =>
      cases h
      exact ⟨hh, hs'⟩
    · cases h
  · cases h

theorem cursorStore_ok {db : Database} {cursor : Nat} {cs : Cursor × Store}
    (h : db.cursorStore cursor = .ok cs) :
    db.cursors.get? cursor = some cs.1 ∧ db.cells.get? cs.1.cell = some cs.2 := by
  unfold cursorStore at h
  split at h
  · next hc =>
    split at h
    · next hs =>
      cases h
      exact ⟨hc, hs⟩
    · cases h
  · cases h

theorem storeNamed_ok {db : Database} {name : String} {cs : Nat × Store}
    (h : db.storeNamed name = .ok cs) :
    db.stores.get? name = some cs.1 ∧ db.cells.get? cs.1 = some cs.2 := by
  unfold storeNamed at h
  split at h
  · next hn =>
    split at h
    · next hs =>
      cases h
      exact ⟨hn, hs⟩
    · cases h
  · cases h

theorem txn_ok {db : Database} {t : Nat} {x : Txn} (h : db.txn t = .ok x) :
    db.txns.get? t = some x := by
  unfold txn at h
  split at h
  · next hx =>
    cases h
    exact hx
  · cases h

/-! ### Transactions -/

/-- Asking for the cycle of an active transaction answers it and changes nothing, or fails and may
have aborted it. -/
theorem activeCycle_cases (now t : Nat) (db : Database) (L : Ledger) :
    (∃ c, (activeCycle now t).on db = (.ok c, db) ∧ db.txns.get? t = some (.active c)) ∨
      ∃ e db', (activeCycle now t).on db = (.error e, db') ∧ Steps db L db' L := by
  simp only [activeCycle, Attempt.on_bind, Attempt.on_get, Attempt.on_check]
  cases db.checkOpen with
  | error e => exact .inr ⟨e, db, rfl, .refl⟩
  | ok _ =>
    cases hx : db.txn t with
    | error e => exact .inr ⟨e, db, rfl, .refl⟩
    | ok x =>
      cases x with
      | active c =>
        simp only
        split
        · exact .inr ⟨_, _, rfl, .single (.endCycle (txn_ok hx))⟩
        · exact .inl ⟨c, rfl, txn_ok hx⟩
      | invalid | committed | aborted => exact .inr ⟨_, db, rfl, .refl⟩

/-- The cycle that is answered is that of the transaction. -/
theorem activeCycle_ok {now t : Nat} {db db' : Database} {c : Cycle}
    (h : (activeCycle now t).on db = (.ok c, db')) :
    db' = db ∧ db.txns.get? t = some (.active c) := by
  rcases activeCycle_cases now t db (Ledger.opened db) with ⟨c', heq, hc⟩ | ⟨e, db'', heq, -⟩
  · rw [heq] at h
    cases h
    exact ⟨rfl, hc⟩
  · rw [heq] at h
    cases h

/-- A sequence that starts with the cycle of an active transaction. -/
theorem follows_activeCycle_bind {now t : Nat} {f : Cycle → Attempt Database β}
    (h : ∀ c, db.txns.get? t = some (.active c) → Follows db L L' ((f c).on db)) :
    Follows db L L' ((activeCycle now t >>= f).on db) := by
  rw [Attempt.on_bind]
  rcases activeCycle_cases now t db L with ⟨c, heq, hc⟩ | ⟨e, db', heq, hsteps⟩
  · rw [heq]
    exact h c hc
  · rw [heq]
    exact follows_error e hsteps

theorem follows_openStore (name : String) (params : List String) :
    Follows db L
      (fun db' => match db'.handles.get? db.handles.nextId with
        | some h => L.addOpening h
        | none => L)
      ((openStore name params).on db) := by
  refine follows_get_bind (follows_check_bind fun _ _ => follows_check_bind ?_)
  rintro ⟨cell, s⟩ hs
  refine follows_check_bind fun settings _ => ?_
  obtain ⟨hname, hcell⟩ := storeNamed_ok hs
  simp only
  split
  · exact follows_throw _
  · next hopen =>
    rw [Bool.not_eq_true] at hopen
    have hstep := Steps.single (Step.openStore (L := L) settings hname hcell hopen)
    simp only [Attempt.on_bind, Attempt.on_set, Attempt.on_pure, Follows, Pool.get?_add, ↓reduceIte]
    exact hstep

theorem follows_closeStore (handle : Nat) : Steps db L (db.closeStore handle) L := by
  unfold closeStore
  split
  · next h hh => exact .single (.closeStore hh)
  · exact .refl

theorem follows_getRecord (now handle : Nat) (txn : Option Nat) (key : Bytes) :
    Follows db L (fun _ => L) ((getRecord now handle txn key).on db) := by
  refine follows_get_bind (follows_check_bind fun hs _ => ?_)
  refine follows_check_bind fun _ _ => follows_check_bind fun _ _ => ?_
  cases txn with
  | none => exact .refl
  | some t =>
    refine follows_activeCycle_bind fun c _ => ?_
    split <;> exact .refl

theorem follows_writeInTxn {now t handle : Nat} {h : Handle} {s : Store} (change : Change)
    (hh : db.handles.get? handle = some h) (hs : db.cells.get? h.cell = some s)
    (hbound : h.settings.transactional = true) :
    Follows db L (fun _ => L.addWrite t (L.writeBy handle h change))
      ((writeInTxn now t s (change.claim s.id) (change.latest s.tree) change.onWrites).on db) := by
  refine follows_activeCycle_bind fun c hc => follows_check_bind fun _ _ => follows_get_bind ?_
  have hclaim : Step db L _ L := .claim change hc hs
  cases hgranted : (change.claim s.id db.locks c.id).1 with
  | false =>
    simp only [hgranted, Bool.not_false, ↓reduceIte]
    exact follows_error _ (.single (.doom hc))
  | true =>
    have hholds := LockTable.holds_claim hgranted
    simp only [hgranted, Bool.not_true, Bool.false_eq_true, ↓reduceIte, Attempt.on_bind,
      Attempt.on_set]
    refine follows_of_steps (.single hclaim) ?_
    split
    · exact follows_error _ (.single (.doom hc))
    · next hfresh =>
      rw [Bool.not_eq_true] at hfresh
      exact Steps.single (Step.write change hc hh hs hbound hholds hfresh)

theorem transactional_of_checkAccess {h : Handle} {s : Store} {bound : Bool}
    (hok : db.checkAccess h s bound .write = .ok ()) : h.settings.transactional = bound := by
  simp only [checkAccess, bind, Except.bind] at hok
  cases hopen : db.checkOpen with
  | error f =>
    rw [hopen] at hok
    cases hok
  | ok _ =>
    cases hwritable : db.checkWritable with
    | error f => cases bound <;> cases ht : h.settings.transactional <;>
        simp [hopen, hwritable, ht, throw, throwThe, MonadExceptOf.throw] at hok
    | ok _ => cases bound <;> cases ht : h.settings.transactional <;>
        simp [hopen, hwritable, ht, throw, throwThe, MonadExceptOf.throw] at hok ⊢

theorem follows_writeRecord (now handle : Nat) (txn : Option Nat) (change : Change) :
    Follows db L
      (fun db' => L.afterCall db db' (.write handle txn change))
      ((writeRecord now handle txn change).on db) := by
  refine follows_get_bind (follows_check_bind ?_)
  rintro ⟨h, s⟩ hhs
  obtain ⟨hh, hs⟩ := handleStore_ok hhs
  refine follows_check_bind fun _ haccess => follows_check_bind fun _ _ => ?_
  have hbound := transactional_of_checkAccess haccess
  cases txn with
  | none =>
    simp only [Ledger.afterCall, hh]
    exact Steps.single (Step.plain change hh hs hbound)
  | some t =>
    simp only [Ledger.afterCall, hh]
    exact follows_writeInTxn change hh hs hbound

theorem follows_allocTxn : Follows db L (fun _ => L) (allocTxn.on db) := Steps.single .allocTxn

theorem follows_beginTxn (now t : Nat) :
    Follows db L (fun _ => L.addBegin t) ((beginTxn now t).on db) := by
  refine follows_get_bind (follows_check_bind fun _ _ => follows_check_bind fun x hx => ?_)
  cases x with
  | active c => exact follows_throw _
  | invalid | committed | aborted =>
    exact Steps.single (Step.beginTxn now (txn_ok hx) (by decide))

theorem follows_commitTxn (now t : Nat) :
    Follows db L (fun _ => L.addCycle t db.stores.values) ((commitTxn now t).on db) := by
  refine follows_activeCycle_bind fun c hc => ?_
  simp only
  split
  · exact follows_error _ (.single (.endCycle hc))
  · next hdoomed =>
    rw [Bool.not_eq_true] at hdoomed
    exact Steps.single (Step.commit hc hdoomed)

theorem follows_abortTxn (t : Nat) : Follows db L (fun _ => L) ((abortTxn t).on db) := by
  refine follows_get_bind (follows_check_bind fun x hx => ?_)
  cases x with
  | active c => exact Steps.single (Step.endCycle (txn_ok hx))
  | invalid | committed | aborted => exact follows_throw _

theorem follows_closeTxn (now t : Nat) :
    Follows db L (fun db' => L.afterCall db db' (.closeTxn t)) ((closeTxn now t).on db) := by
  refine follows_get_bind (follows_check_bind fun x hx => ?_)
  have hx := txn_ok hx
  simp only [Ledger.afterCall, hx]
  cases x with
  | active c => exact follows_commitTxn now t
  | invalid | committed | aborted => exact .refl

/-! ### Cursors -/

theorem follows_openCursor (now handle : Nat) (txn : Option Nat) (filter : Bytes) (reverse : Bool) :
    Follows db L (fun _ => L) ((openCursor now handle txn filter reverse).on db) := by
  refine follows_get_bind (follows_check_bind fun hs _ => ?_)
  refine follows_check_bind fun _ _ => follows_check_bind fun _ _ => ?_
  cases txn with
  | none => exact Steps.single (Step.openCursor _ (.inl rfl))
  | some t =>
    refine follows_activeCycle_bind fun c hc => ?_
    exact Steps.single (Step.openCursor _ (.inr ⟨t, c, hc, rfl⟩))

theorem follows_closeCursor (i : Nat) : Steps db L (db.closeCursor i) L := by
  unfold closeCursor
  split
  · next c hc => exact .single (.closeCursor hc)
  · exact .refl

theorem scope_reposition (ready : Except Fault Unit) (tree : VersionTree) (key : Bytes)
    (c : Cursor) : ((Cursor.reposition ready tree key).on c).2.scope = c.scope := by
  cases ready with
  | error f => rfl
  | ok _ =>
    simp only [Cursor.reposition, Attempt.on_bind, Attempt.on_check, Attempt.on_modify,
      Attempt.on_get]
    split <;> rfl

theorem scope_read (ready : Except Fault Unit) (tree : VersionTree) (c : Cursor) :
    ((Cursor.read ready tree).on c).2.scope = c.scope := by
  cases ready with
  | error f => rfl
  | ok _ =>
    simp only [Cursor.read, Attempt.on_bind, Attempt.on_check, Attempt.on_get]
    split
    · rfl
    · split <;> rfl

theorem scope_seek (ready : Except Fault Unit) (tree : VersionTree) (key : Bytes) (c : Cursor) :
    ((Cursor.seek ready tree key).on c).2.scope = c.scope := by
  simp only [Cursor.seek, Attempt.on_bind, Attempt.on_check, Attempt.on_modify]
  cases Limits.checkBound key with
  | error f => rfl
  | ok _ => exact scope_reposition ready tree key { c with cap := none }

theorem scope_seekRange (store : String) (ready : Except Fault Unit) (tree : VersionTree)
    (low high : Bytes) (c : Cursor) :
    ((Cursor.seekRange store ready tree low high).on c).2.scope = c.scope := by
  simp only [Cursor.seekRange, Attempt.on_bind, Attempt.on_get]
  split
  · rfl
  · cases Limits.checkBound low with
    | error f => rfl
    | ok _ =>
      cases Limits.checkBound high with
      | error f => rfl
      | ok _ => exact scope_reposition ready tree low { c with cap := some high }

/-- A call on a cursor moves it and leaves its scope, so its view. -/
theorem follows_onCursor (i : Nat) {call : Store → Except Fault Unit → Attempt Cursor α}
    (hscope : ∀ s ready c, ((call s ready).on c).2.scope = c.scope) :
    Follows db L (fun _ => L) ((onCursor i call).on db) := by
  refine follows_get_bind (follows_check_bind ?_)
  rintro ⟨c, s⟩ hcs
  have hview := congrArg Cursor.view (hscope s (db.checkReady c s) c)
  have hstep := Step.moveCursor (L := L) ((call s (db.checkReady c s)).on c).2
    (cursorStore_ok hcs).1 hview
  simp only [Attempt.on_bind, Attempt.on_set, Attempt.on_check]
  cases ((call s (db.checkReady c s)).on c).1 with
  | error f => exact follows_error f (.single hstep)
  | ok x => exact Steps.single hstep

theorem follows_readCursor (i : Nat) : Follows db L (fun _ => L) ((readCursor i).on db) := by
  unfold readCursor
  exact follows_onCursor i fun s ready c => scope_read ready s.tree c

theorem follows_seekCursor (i : Nat) (key : Bytes) :
    Follows db L (fun _ => L) ((seekCursor i key).on db) := by
  unfold seekCursor
  exact follows_onCursor i fun s ready c => scope_seek ready s.tree key c

theorem follows_seekRangeCursor (i : Nat) (low high : Bytes) :
    Follows db L (fun _ => L) ((seekRangeCursor i low high).on db) := by
  unfold seekRangeCursor
  exact follows_onCursor i fun s ready c => scope_seekRange s.name ready s.tree low high c

theorem follows_refreshCursor (i : Nat) :
    Follows db L (fun _ => L) ((refreshCursor i).on db) := by
  refine follows_get_bind (follows_check_bind fun _ _ => follows_check_bind ?_)
  rintro ⟨c, s⟩ hcs
  simp only
  split
  · exact Steps.single (Step.refreshCursor (cursorStore_ok hcs).1)
  · exact .refl

theorem follows_compact : Follows db L (fun _ => L) (compact.on db) :=
  follows_get_bind (follows_check_bind fun _ _ => Steps.single .compact)

/-! ### Calls that use files -/

/-- The outcome of an attempt on a site, as far as the database goes. -/
def onDb (o : Except Fault α × Site) : Except Fault α × Database := (o.1, o.2.db)

theorem follows_map {f : α → β} {a : Attempt Site α} {s : Site}
    (h : Follows s.db L L' (onDb (a.on s))) : Follows s.db L L' (onDb ((f <$> a).on s)) := by
  rw [Attempt.on_map]
  revert h
  generalize a.on s = o
  obtain ⟨r, s'⟩ := o
  cases r with
  | error e => exact id
  | ok x => exact id

theorem follows_unchanged (r : Except Fault α) : Follows db L (fun _ => L) (r, db) := by
  cases r with
  | error f => exact follows_error f .refl
  | ok x => exact .refl

theorem follows_site_check_bind {s : Site} {r : Except Fault α} {f : α → Attempt Site β}
    (h : ∀ x, r = .ok x → Follows s.db L L' (onDb ((f x).on s))) :
    Follows s.db L L' (onDb ((Attempt.check r >>= f).on s)) := by
  cases r with
  | error e => exact follows_error e .refl
  | ok x => exact h x rfl

theorem follows_site_bind {s : Site} {a : Attempt Site α} {f : α → Attempt Site β}
    (ha : Follows s.db L (fun _ => L) (onDb (a.on s)))
    (h : ∀ x s', Follows s'.db L L' (onDb ((f x).on s'))) :
    Follows s.db L L' (onDb ((a >>= f).on s)) := by
  rw [Attempt.on_bind]
  revert ha
  cases a.on s with
  | mk r s' =>
    cases r with
    | error e => exact id
    | ok x =>
      intro ha
      exact follows_of_steps ha (h x s')

theorem follows_persistCell (cell : Nat) (s : Site) :
    Follows s.db L (fun _ => L) (onDb ((Storage.persistCell cell).on s)) := by
  simp only [Storage.persistCell, Attempt.on_bind, Attempt.on_get]
  split
  · next store hstore =>
    split
    · have hsaved : ∀ s' : Site, Follows s'.db L (fun _ => L)
          (onDb ((Storage.update (·.modifyStore cell fun s => { s with dirty := false })).on s')) :=
        fun _ => Steps.single (.saved cell)
      refine follows_site_bind ?_ fun _ s' => hsaved s'
      simp only [Storage.about, Attempt.on_ofStep, Storage.on_onFiles, onDb]
      exact follows_unchanged _
    · exact .refl
  · exact .refl

theorem follows_persist (s : Site) : Follows s.db L (fun _ => L) (onDb (Storage.persist.on s)) := by
  have hall : ∀ (cells : List Nat) (s : Site),
      Follows s.db L (fun _ => L) (onDb ((cells.forM Storage.persistCell).on s)) := by
    intro cells
    induction cells with
    | nil => exact fun _ => .refl
    | cons cell rest ih =>
      intro s
      exact follows_site_bind (follows_persistCell cell s) fun _ s' => ih s'
  simp only [Storage.persist, Attempt.on_bind, Attempt.on_get]
  split
  · exact hall _ s
  · exact .refl

theorem follows_sync (s : Site) : Follows s.db L (fun _ => L) (onDb (Storage.sync.on s)) := by
  show Follows s.db L (fun _ => L)
    (onDb ((Attempt.check s.db.checkOpen >>= fun _ => Storage.persist).on s))
  exact follows_site_check_bind fun _ _ => follows_persist s

theorem follows_close (s : Site) : Follows s.db L (fun _ => L) (onDb (Storage.close.on s)) := by
  simp only [Storage.close, Attempt.on_bind, Attempt.on_get]
  split
  · refine follows_of_steps (.single .close) ?_
    exact follows_persist { s with db := { s.db with closed := true } }
  · exact .refl

theorem follows_createStore (name : String) (params : List String) (s : Site) :
    Follows s.db L (fun _ => L) (onDb ((Storage.createStore name params).on s)) := by
  unfold Storage.createStore
  rw [Attempt.on_bind, Attempt.on_get]
  refine follows_site_check_bind fun _ _ => ?_
  refine follows_site_check_bind fun _ _ => ?_
  refine follows_site_check_bind fun _ _ => ?_
  refine follows_site_check_bind fun shape _ => ?_
  simp only
  split
  · exact follows_error _ .refl
  next hfind =>
  split
  · exact follows_error _ .refl
  have hnone : s.db.catalog.find? name = none := by
    rwa [Option.not_isSome_iff_eq_none] at hfind
  simp only [Attempt.on_bind, Storage.on_update, Storage.on_onFiles, Attempt.on_ofStep]
  generalize (Storage.saveDataFile _ _ _).on s.fs = file
  obtain ⟨written, fs⟩ := file
  cases written with
  | error f => exact follows_error f (.single (.list name shape.prefixLength hnone))
  | ok _ =>
    simp only
    generalize (Storage.saveCatalog _ _).on fs = file
    obtain ⟨written, fs'⟩ := file
    cases written with
    | error f => exact follows_error f (.single .number)
    | ok _ => exact Steps.single (.createStore name shape.prefixLength hnone)

theorem systemCall_mem_of_call {path : String} {f : FileSystem → Except Errno FileSystem}
    {fs : FileSystem} {e : Fault} (h : ((Attempt.call path f).on fs).1 = .error e) :
    Cause.systemCall ∈ e.causes := by
  simp only [Attempt.call, Attempt.on_ofStep] at h
  split at h
  · cases h
  · cases h
    exact List.mem_singleton_self _

theorem follows_dropStore (name : String) (s : Site) :
    Follows s.db L (fun _ => L) (onDb ((Storage.dropStore name).on s)) := by
  unfold Storage.dropStore
  rw [Attempt.on_bind, Attempt.on_get]
  refine follows_site_check_bind fun _ _ => ?_
  refine follows_site_check_bind fun _ _ => ?_
  refine follows_site_check_bind ?_
  rintro ⟨cell, store⟩ hstore
  obtain ⟨hname, hcell⟩ := storeNamed_ok hstore
  simp only
  split
  · exact follows_error _ .refl
  next hopen =>
  rw [Bool.not_eq_true] at hopen
  simp only [Attempt.on_bind, Storage.on_update, Storage.on_onFiles]
  generalize (Storage.saveCatalog _ _).on s.fs = file
  obtain ⟨written, fs⟩ := file
  cases written with
  | error f => exact follows_error f .refl
  | ok _ =>
    -- the store is out of the catalog already, so the ledger has to note a fault here
    have hcause : ∀ e, ((Storage.removeIfExists
        ((s.db.catalog.without name).dataFile name)).on fs).1 = .error e →
        Cause.systemCall ∈ e.causes := fun e => systemCall_mem_of_call
    unfold Catalog.without at hcause
    simp only
    revert hcause
    generalize (Storage.removeIfExists _).on fs = file
    obtain ⟨removed, fs'⟩ := file
    intro hcause
    cases removed with
    | error f =>
      show Steps s.db L _ (L.afterFault f)
      unfold Ledger.afterFault
      rw [if_pos (hcause f rfl)]
      exact .single (.delist name)
    | ok _ => exact Steps.single (.dropStore hname hcell hopen)

theorem follows_mediaUsage (m : MediaClass) (s : Site) :
    Follows s.db L (fun _ => L) (onDb ((Storage.mediaUsage m).on s)) := by
  unfold Storage.mediaUsage
  rw [Attempt.on_bind, Attempt.on_get]
  simp only
  split
  · exact follows_error _ .refl
  · refine follows_site_bind (follows_unchanged _) fun _ _ => .refl

end StepLemmas

open StepLemmas

/-! ## 3. Events -/

theorem Call.follows (now : Nat) (c : Call) (s : Site) (L : Ledger) :
    Follows s.db L (fun db' => L.afterCall s.db db' c) (onDb ((c.attempt now).on s)) := by
  cases c with
  | param key | storeNames | storeParam handle key | txnState t | compactStatus =>
    exact follows_map (follows_unchanged _)
  | createStore name params => exact follows_map (follows_createStore name params s)
  | dropStore name => exact follows_map (follows_dropStore name s)
  | openStore name params => exact follows_map (follows_openStore name params)
  | closeStore handle => exact follows_map (α := Unit) (follows_closeStore handle)
  | get handle txn key => exact follows_map (follows_getRecord now handle txn key)
  | write handle txn change =>
    refine follows_map ?_
    rw [Storage.on_onDatabase, on_changeRecord]
    exact follows_writeRecord now handle txn change
  | allocTxn => exact follows_map follows_allocTxn
  | beginTxn t => exact follows_map (follows_beginTxn now t)
  | commitTxn t => exact follows_map (follows_commitTxn now t)
  | abortTxn t => exact follows_map (follows_abortTxn t)
  | closeTxn t => exact follows_map (follows_closeTxn now t)
  | openCursor handle txn filter reverse =>
    exact follows_map (follows_openCursor now handle txn filter reverse)
  | closeCursor i => exact follows_map (α := Unit) (follows_closeCursor i)
  | readCursor i => exact follows_map (follows_readCursor i)
  | seekCursor i key => exact follows_map (follows_seekCursor i key)
  | seekRangeCursor i low high => exact follows_map (follows_seekRangeCursor i low high)
  | refreshCursor i => exact follows_map (follows_refreshCursor i)
  | compact => exact follows_map follows_compact
  | mediaUsage m => exact follows_map (follows_mediaUsage m s)
  | sync => exact follows_map (follows_sync s)
  | close => exact follows_map (follows_close s)

/-- Every event goes through steps, whatever its answer. -/
theorem Event.steps (e : Event) (s : Site) (L : Ledger) :
    Steps s.db L (e.next s).db (L.after s e) := by
  cases e with
  | files fs => exact .refl
  | call now c =>
    have h := c.follows now s L
    unfold Ledger.after Event.answer Event.next Event.attempt
    revert h
    generalize (c.attempt now).on s = o
    obtain ⟨r, s'⟩ := o
    cases r with
    | error f => exact id
    | ok x => exact id

/-- The databases and ledgers that are reached by steps from the opening of a database. -/
inductive Reached : Database → Ledger → Prop
  | opened {db : Database} : db.Opened → Reached db (Ledger.opened db)
  | step {db db' : Database} {L L' : Ledger} :
      Reached db L → Step db L db' L' → Reached db' L'

theorem Reached.steps {db db' : Database} {L L' : Ledger} (h : Reached db L)
    (hsteps : Steps db L db' L') : Reached db' L' := by
  induction hsteps with
  | refl => exact h
  | tail _ hstep ih => exact .step ih hstep

/-- A run reaches its databases by steps. -/
theorem Run.reached {s : Site} {L : Ledger} (h : Run s L) : Reached s.db L := by
  induction h with
  | opened fs hdb => exact .opened hdb
  | step e _ ih => exact ih.steps (e.steps _ _)

end SnapshotKv
