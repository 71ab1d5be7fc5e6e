import Mathlib.Logic.Relation
import SnapshotKv.Proofs.Contents

/-!
# Calls that edit a database in memory

Most calls leave the files and the cursors alone. What such a call does is a chain of edits of a
few forms (`Edit`), whatever it answers; so what every edit keeps, every such call keeps.

Results:
1. `Edit`, `Edits`: the forms of edits, and chains of them; `publish_same`.
2. `edits_writeRecord` and the like: one lemma for each call.
3. `Call.edits`: all calls that leave the files and the cursors alone.
-/

namespace SnapshotKv

open Database

/-! ## 1. Edits -/

/-- One change that a call makes to a database in memory, its cursors apart. -/
inductive Edit : Database → Database → Prop
  /-- Transactions began, claimed something, or ended. -/
  | txns {db : Database} (txns : Pool Txn) (nextCycle : Nat) (locks : LockTable) (pins : Pins) :
      Edit db { db with txns, nextCycle, locks, pins }
  /-- A handle came or went. -/
  | handles {db : Database} (cell : Nat) (isOpen : Bool) (handles : Pool Handle) :
      Edit db { db.modifyStore cell (fun s => { s with isOpen }) with handles }
  /-- A change was written without transaction. -/
  | plain {db : Database} (cell : Nat) (change : Change) :
      Edit db (db.applySingle cell change.onTree)
  | publish {db : Database} (c : Cycle) : Edit db (db.publish c)
  | compact {db : Database} :
      Edit db { db with cells := (db.stores.values.foldl
        (pruneCell (db.pins.horizon db.published)) (0, db.cells)).2 }

/-- Some edits, one after another. -/
def Edits : Database → Database → Prop := Relation.ReflTransGen Edit

namespace Edits

theorem refl (db : Database) : Edits db db := Relation.ReflTransGen.refl

theorem single {db db' : Database} (h : Edit db db') : Edits db db' := Relation.ReflTransGen.single h

theorem trans {db db' db'' : Database} (h : Edits db db') (h' : Edits db' db'') : Edits db db'' :=
  Relation.ReflTransGen.trans h h'

/-- What no edit changes, no chain of edits changes. -/
theorem eq_of_edit {β : Type} {f : Database → β}
    (hf : ∀ db db', Edit db db' → f db' = f db) {db db' : Database} (h : Edits db db') :
    f db' = f db := by
  induction h with
  | refl => rfl
  | tail _ hstep ih => exact (hf _ _ hstep).trans ih

end Edits

/-- A commit changes contents and what is published, and every store whose contents it changes is
dirty then. -/
theorem publish_same (db : Database) (c : Cycle) :
    ∃ cells published, db.publish c = { db with cells, published } ∧ db.published ≤ published ∧
      ∀ i s', cells.get? i = some s' → ∃ s, db.cells.get? i = some s ∧ s'.frame = s.frame ∧
        (s' = s ∨ s'.dirty = true) := by
  have hall : ∀ (l : List (Nat × WriteSet)) (applied : Bool) (cells : Pool Store),
      ∃ applied' cells', l.foldl (applyWrites (db.published + 1)) (applied, { db with cells }) =
          (applied', { db with cells := cells' }) ∧
        ∀ i s', cells'.get? i = some s' → ∃ s, cells.get? i = some s ∧ s'.frame = s.frame ∧
          (s' = s ∨ s'.dirty = true) := by
    intro l
    induction l with
    | nil => exact fun applied cells => ⟨applied, cells, rfl, fun i s hs => ⟨s, hs, rfl, .inl rfl⟩⟩
    | cons e rest ih =>
      intro applied cells
      rw [List.foldl_cons]
      unfold applyWrites
      split
      · next cell hcell =>
        obtain ⟨applied', cells', heq, hcells⟩ := ih true (cells.modify cell fun s =>
          { s with tree := e.2.applyTo s.tree (db.published + 1), dirty := true })
        refine ⟨applied', cells', heq, fun i s' hs' => ?_⟩
        obtain ⟨s, hs, hframe, hsame⟩ := hcells i s' hs'
        rw [Pool.get?_modify] at hs
        split at hs
        · obtain ⟨s₀, hs₀, rfl⟩ := Option.map_eq_some_iff.1 hs
          refine ⟨s₀, hs₀, hframe, .inr ?_⟩
          rcases hsame with rfl | hdirty
          · rfl
          · exact hdirty
        · exact ⟨s, hs, hframe, hsame⟩
      · exact ih applied cells
  obtain ⟨applied, cells, heq, hcells⟩ := hall c.writes.entries false db.cells
  unfold publish
  simp only
  rw [heq]
  cases applied with
  | true => exact ⟨cells, db.published + 1, rfl, Nat.le_succ _, hcells⟩
  | false => exact ⟨cells, db.published, rfl, Nat.le_refl _, hcells⟩

/-! ## 2. The calls one by one -/

namespace EditLemmas

variable {α β : Type} {db : Database}

theorem edits_get_bind {f : Database → Attempt Database β} (h : Edits db ((f db).on db).2) :
    Edits db ((get >>= f).on db).2 := h

theorem edits_check_bind {r : Except Fault α} {f : α → Attempt Database β}
    (h : ∀ x, r = .ok x → Edits db ((f x).on db).2) :
    Edits db ((Attempt.check r >>= f).on db).2 := by
  cases r with
  | error e => exact .refl db
  | ok x => exact h x rfl

theorem edits_bind {a : Attempt Database α} {f : α → Attempt Database β}
    (ha : Edits db (a.on db).2) (hf : ∀ x db', a.on db = (.ok x, db') → Edits db' ((f x).on db').2) :
    Edits db ((a >>= f).on db).2 := by
  rw [Attempt.on_bind]
  cases h : a.on db with
  | mk r db' =>
    rw [h] at ha
    cases r with
    | error e => exact ha
    | ok x => exact ha.trans (hf x db' h)

theorem edits_endCycle (db : Database) (t : Nat) (c : Cycle) (final : Txn) :
    Edits db (db.endCycle t c final) := .single (.txns _ _ _ _)

theorem edits_setCycle (db : Database) (t : Nat) (c : Cycle) : Edits db (db.setCycle t c) :=
  .single (.txns _ _ _ _)

theorem edits_activeCycle (now t : Nat) (db : Database) : Edits db ((activeCycle now t).on db).2 := by
  refine edits_get_bind (edits_check_bind fun _ _ => edits_check_bind fun x _ => ?_)
  cases x with
  | active c =>
    simp only
    split
    · exact edits_endCycle db t c .aborted
    · exact .refl db
  | invalid | committed | aborted => exact .refl db

theorem edits_openStore (name : String) (params : List String) (db : Database) :
    Edits db ((openStore name params).on db).2 := by
  refine edits_get_bind (edits_check_bind fun _ _ => edits_check_bind fun found _ => ?_)
  refine edits_check_bind fun settings _ => ?_
  simp only
  split
  · exact .refl db
  · exact .single (.handles _ _ _)

theorem edits_closeStore (handle : Nat) (db : Database) : Edits db (db.closeStore handle) := by
  unfold closeStore
  split
  · exact .single (.handles _ _ _)
  · exact .refl db

theorem edits_getRecord (now handle : Nat) (txn : Option Nat) (key : Bytes) (db : Database) :
    Edits db ((getRecord now handle txn key).on db).2 := by
  refine edits_get_bind (edits_check_bind fun hs _ => edits_check_bind fun _ _ => ?_)
  refine edits_check_bind fun _ _ => ?_
  cases txn with
  | none => exact .refl db
  | some t =>
    refine edits_bind (edits_activeCycle now t db) fun c db' _ => ?_
    split <;> exact .refl _

theorem edits_writeInTxn (now t : Nat) (s : Store) (claim : LockTable → Nat → Bool × LockTable)
    (latest : Option Nat) (write : WriteSet → WriteSet) (db : Database) :
    Edits db ((writeInTxn now t s claim latest write).on db).2 := by
  refine edits_bind (edits_activeCycle now t db) fun c db' _ => edits_check_bind fun _ _ => ?_
  refine edits_get_bind ?_
  simp only
  split
  · exact edits_setCycle _ _ _
  · refine edits_bind (.single (.txns db'.txns db'.nextCycle _ db'.pins)) fun _ db'' _ => ?_
    split <;> exact edits_setCycle _ _ _

theorem edits_writeRecord (now handle : Nat) (txn : Option Nat) (change : Change) (db : Database) :
    Edits db ((writeRecord now handle txn change).on db).2 := by
  refine edits_get_bind (edits_check_bind fun hs _ => edits_check_bind fun _ _ => ?_)
  refine edits_check_bind fun _ _ => ?_
  cases txn with
  | none => exact .single (.plain _ change)
  | some t => exact edits_writeInTxn now t _ _ _ _ db

theorem edits_beginTxn (now t : Nat) (db : Database) : Edits db ((beginTxn now t).on db).2 := by
  refine edits_get_bind (edits_check_bind fun _ _ => edits_check_bind fun x _ => ?_)
  cases x with
  | active c => exact .refl db
  | invalid | committed | aborted => exact .single (.txns _ _ _ _)

theorem edits_commitTxn (now t : Nat) (db : Database) : Edits db ((commitTxn now t).on db).2 := by
  refine edits_bind (edits_activeCycle now t db) fun c db' _ => ?_
  split
  · exact edits_endCycle db' t c .aborted
  · exact (Edits.single (.publish c)).trans (edits_endCycle _ t c .committed)

theorem edits_abortTxn (t : Nat) (db : Database) : Edits db ((abortTxn t).on db).2 := by
  refine edits_get_bind (edits_check_bind fun x _ => ?_)
  cases x with
  | active c => exact edits_endCycle db t c .aborted
  | invalid | committed | aborted => exact .refl db

theorem edits_closeTxn (now t : Nat) (db : Database) : Edits db ((closeTxn now t).on db).2 := by
  refine edits_get_bind (edits_check_bind fun x _ => ?_)
  cases x with
  | active c => exact edits_commitTxn now t db
  | invalid | committed | aborted => exact .refl db

theorem edits_compact (db : Database) : Edits db (compact.on db).2 :=
  edits_get_bind (edits_check_bind fun _ _ => .single .compact)

theorem edits_onDatabase {f : α → β} {a : Attempt Database α} {s : Site}
    (h : Edits s.db (a.on s.db).2) :
    Edits s.db ((f <$> Storage.onDatabase a).on s).2.db ∧
      ((f <$> Storage.onDatabase a).on s).2.fs = s.fs := by
  rw [Attempt.on_map, Storage.on_onDatabase]
  exact ⟨h, rfl⟩

/-- Asking for the use of a media class changes nothing. -/
theorem on_mediaUsage (m : MediaClass) (s : Site) : ((Storage.mediaUsage m).on s).2 = s := by
  simp only [Storage.mediaUsage, Attempt.on_bind, Attempt.on_get]
  cases s.db.catalog.mediaPath? m with
  | none => rfl
  | some path =>
    simp only [Attempt.on_bind, Storage.on_onFiles, Attempt.ask, Attempt.on_ofStep]
    cases s.fs.readDirectory path <;> rfl

end EditLemmas

open EditLemmas

/-! ## 3. All of them -/

/-- Whether a call leaves the files and the cursors alone. -/
def Call.isInner : Call → Bool
  | .createStore _ _ | .dropStore _ | .sync | .close | .openCursor _ _ _ _ | .closeCursor _
  | .readCursor _ | .seekCursor _ _ | .seekRangeCursor _ _ _ | .refreshCursor _ => false
  | _ => true

/-- A call that leaves the files and the cursors alone goes through edits. -/
theorem Call.edits {c : Call} (hc : c.isInner = true) (now : Nat) (s : Site) :
    Edits s.db ((c.attempt now).on s).2.db ∧ ((c.attempt now).on s).2.fs = s.fs := by
  cases c with
  | createStore | dropStore | sync | close | openCursor | closeCursor | readCursor | seekCursor
  | seekRangeCursor | refreshCursor => cases hc
  | param key | storeNames | storeParam handle key | txnState t | compactStatus =>
    exact edits_onDatabase (.refl s.db)
  | openStore name params => exact edits_onDatabase (edits_openStore name params s.db)
  | closeStore handle => exact ⟨edits_closeStore handle s.db, rfl⟩
  | get handle txn key => exact edits_onDatabase (edits_getRecord now handle txn key s.db)
  | write handle txn change =>
    refine edits_onDatabase ?_
    rw [on_changeRecord]
    exact edits_writeRecord now handle txn change s.db
  | allocTxn => exact edits_onDatabase (.single (.txns _ _ _ _))
  | beginTxn t => exact edits_onDatabase (edits_beginTxn now t s.db)
  | commitTxn t => exact edits_onDatabase (edits_commitTxn now t s.db)
  | abortTxn t => exact edits_onDatabase (edits_abortTxn t s.db)
  | closeTxn t => exact edits_onDatabase (edits_closeTxn now t s.db)
  | compact => exact edits_onDatabase (edits_compact s.db)
  | mediaUsage m =>
    rw [Call.attempt, Attempt.on_map, on_mediaUsage]
    exact ⟨.refl s.db, rfl⟩

end SnapshotKv
