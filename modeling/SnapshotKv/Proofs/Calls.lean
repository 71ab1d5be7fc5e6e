import SnapshotKv.Database.Scans
import SnapshotKv.Database.Storage
import SnapshotKv.Proofs.Changes

/-!
# Calls on an open database

Everything a caller can ask of an open database, as data. A run of a database is a list of `Event`s:
calls, each at a time of its own, and changes of the file system by others.

Results:
1. `putRecord_eq`, `deleteRecord_eq`, `deletePrefix_eq`: the three ways of writing are
   `Database.writeRecord` of a `Change`.
2. `on_changeRecord`: so a written change has one body to reason about.
-/

namespace SnapshotKv

namespace Attempt

variable {σ α β : Type}

@[simp] theorem on_map (f : α → β) (a : Attempt σ α) (s : σ) :
    (f <$> a).on s = ((a.on s).1.map f, (a.on s).2) := by
  rw [map_eq_pure_bind, on_bind]
  cases h : a.on s with
  | mk r s' => cases r <;> rfl

/-- A sequence that succeeds has two parts that do. -/
theorem ok_of_bind {a : Attempt σ α} {f : α → Attempt σ β} {s s' : σ} {b : β}
    (h : (a >>= f).on s = (.ok b, s')) : ∃ x t, a.on s = (.ok x, t) ∧ (f x).on t = (.ok b, s') := by
  rw [on_bind] at h
  revert h
  cases a.on s with
  | mk r t =>
    cases r with
    | error e =>
      intro h
      cases h
    | ok x =>
      intro h
      exact ⟨x, t, rfl, h⟩

end Attempt

/-! ## 1. Writing a change -/

namespace Change

/-- What is checked of a change before it is written to a store. -/
def check (s : Store) : Change → Except Fault Unit
  | .put key value => do
    Limits.checkKey key
    Limits.checkValue value
  | .delete key => Limits.checkKey key
  | .deletePrefix stem =>
    if s.prefixLength = 0 ∨ stem.length ≠ s.prefixLength then
      throw (Fault.prefixLengthWrong s.name s.prefixLength stem.length)
    else pure ()

/-- Claims what a change covers. -/
def claim (store : Nat) (c : Change) (locks : LockTable) (owner : Nat) : Bool × LockTable :=
  match c with
  | .put key _ | .delete key => locks.lockKey store key owner
  | .deletePrefix stem => locks.lockPrefix store stem owner

/-- The sequence number of the newest commit that a change would overlap. -/
def latest (t : VersionTree) : Change → Option Nat
  | .put key _ | .delete key => t.latestWrite key
  | .deletePrefix stem => t.latestWriteUnder stem

end Change

namespace Database

/-- Writes a change to a store. -/
def writeRecord (now handle : Nat) (txn : Option Nat) (change : Change) :
    Attempt Database Unit := do
  let db ← get
  let (h, s) ← Attempt.check (db.handleStore handle)
  Attempt.check (db.checkAccess h s txn.isSome .write)
  Attempt.check (change.check s)
  match txn with
  | none => set (db.applySingle h.cell change.onTree)
  | some t => writeInTxn now t s (change.claim s.id) (change.latest s.tree) change.onWrites

/-- Writes a change by the call that is made for it. -/
def changeRecord (now handle : Nat) (txn : Option Nat) : Change → Attempt Database Unit
  | .put key value => putRecord now handle txn key value
  | .delete key => deleteRecord now handle txn key
  | .deletePrefix stem => deletePrefix now handle txn stem

theorem putRecord_eq (now handle : Nat) (txn : Option Nat) (key value : Bytes) (db : Database) :
    (putRecord now handle txn key value).on db =
      (writeRecord now handle txn (.put key value)).on db := by
  simp only [putRecord, writeRecord, Attempt.on_bind, Attempt.on_get, Attempt.on_check,
    Change.check]
  cases db.handleStore handle with
  | error f => rfl
  | ok hs =>
    obtain ⟨h, s⟩ := hs
    simp only
    cases db.checkAccess h s txn.isSome .write with
    | error f => rfl
    | ok _ =>
      simp only
      cases Limits.checkKey key with
      | error f => rfl
      | ok _ => rfl

theorem deleteRecord_eq (now handle : Nat) (txn : Option Nat) (key : Bytes) (db : Database) :
    (deleteRecord now handle txn key).on db =
      (writeRecord now handle txn (.delete key)).on db := rfl

theorem deletePrefix_eq (now handle : Nat) (txn : Option Nat) (stem : Bytes) (db : Database) :
    (deletePrefix now handle txn stem).on db =
      (writeRecord now handle txn (.deletePrefix stem)).on db := by
  simp only [deletePrefix, writeRecord, Attempt.on_bind, Attempt.on_get, Attempt.on_check,
    Change.check]
  cases db.handleStore handle with
  | error f => rfl
  | ok hs =>
    obtain ⟨h, s⟩ := hs
    simp only
    cases db.checkAccess h s txn.isSome .write with
    | error f => rfl
    | ok _ =>
      simp only
      by_cases hlen : s.prefixLength = 0 ∨ stem.length ≠ s.prefixLength
      · rw [if_pos hlen, if_pos hlen]
        rfl
      · rw [if_neg hlen, if_neg hlen]
        rfl

/-- The calls for the three kinds of change are one call. -/
theorem on_changeRecord (now handle : Nat) (txn : Option Nat) (c : Change) (db : Database) :
    (changeRecord now handle txn c).on db = (writeRecord now handle txn c).on db := by
  cases c with
  | put key value => exact putRecord_eq now handle txn key value db
  | delete key => exact deleteRecord_eq now handle txn key db
  | deletePrefix stem => exact deletePrefix_eq now handle txn stem db

end Database

/-! ## 2. Calls -/

/-- What a caller can ask of an open database. -/
inductive Call where
  | param (key : String)
  | storeNames
  | createStore (name : String) (params : List String)
  | dropStore (name : String)
  | openStore (name : String) (params : List String)
  | closeStore (handle : Nat)
  | storeParam (handle : Nat) (key : String)
  | get (handle : Nat) (txn : Option Nat) (key : Bytes)
  | write (handle : Nat) (txn : Option Nat) (change : Change)
  | allocTxn
  | beginTxn (txn : Nat)
  | commitTxn (txn : Nat)
  | abortTxn (txn : Nat)
  | closeTxn (txn : Nat)
  | txnState (txn : Nat)
  | openCursor (handle : Nat) (txn : Option Nat) (filter : Bytes) (reverse : Bool)
  | closeCursor (cursor : Nat)
  | readCursor (cursor : Nat)
  | seekCursor (cursor : Nat) (key : Bytes)
  | seekRangeCursor (cursor : Nat) (low high : Bytes)
  | refreshCursor (cursor : Nat)
  | compact
  | compactStatus
  | mediaUsage (m : MediaClass)
  | sync
  | close

/-- What a call answers when it succeeds. -/
inductive Reply where
  | done
  | number (n : Nat)
  | text (s : String)
  | names (l : List String)
  | value (v : Option Bytes)
  | record (r : Option (Bytes × Bytes))
  | state (s : TxnState)
  | compaction (c : Database.CompactStatus)
  | media (u : MediaUsage)
  deriving DecidableEq

namespace Storage

/-- A question to the database of a site. -/
def ask {α : Type} (f : Database → Except Fault α) : Attempt Site α :=
  onDatabase do
    let db ← get
    Attempt.check (f db)

@[simp] theorem on_ask {α : Type} (f : Database → Except Fault α) (s : Site) :
    (ask f).on s = (f s.db, s) := rfl

@[simp] theorem on_onDatabase {α : Type} (a : Attempt Database α) (s : Site) :
    (onDatabase a).on s = ((a.on s.db).1, { s with db := (a.on s.db).2 }) := rfl

@[simp] theorem on_onFiles {α : Type} (a : Attempt FileSystem α) (s : Site) :
    (onFiles a).on s = ((a.on s.fs).1, { s with fs := (a.on s.fs).2 }) := rfl

@[simp] theorem on_update (f : Database → Database) (s : Site) :
    (update f).on s = (.ok (), { s with db := f s.db }) := rfl

end Storage

namespace Call

open Database Storage

/-- What the call does at a time. -/
def attempt (now : Nat) : Call → Attempt Site Reply
  | .param key => .text <$> ask (·.param key)
  | .storeNames => .names <$> ask (·.storeNames)
  | .createStore name params => (fun _ => .done) <$> Storage.createStore name params
  | .dropStore name => (fun _ => .done) <$> Storage.dropStore name
  | .openStore name params => .number <$> onDatabase (Database.openStore name params)
  | .closeStore handle => (fun _ => .done) <$> update (·.closeStore handle)
  | .storeParam handle key => .text <$> ask (·.storeParam handle key)
  | .get handle txn key => .value <$> onDatabase (getRecord now handle txn key)
  | .write handle txn change =>
    (fun _ => .done) <$> onDatabase (changeRecord now handle txn change)
  | .allocTxn => .number <$> onDatabase Database.allocTxn
  | .beginTxn t => (fun _ => .done) <$> onDatabase (Database.beginTxn now t)
  | .commitTxn t => (fun _ => .done) <$> onDatabase (Database.commitTxn now t)
  | .abortTxn t => (fun _ => .done) <$> onDatabase (Database.abortTxn t)
  | .closeTxn t => (fun _ => .done) <$> onDatabase (Database.closeTxn now t)
  | .txnState t => .state <$> ask (·.txnState t)
  | .openCursor handle txn filter reverse =>
    .number <$> onDatabase (Database.openCursor now handle txn filter reverse)
  | .closeCursor cursor => (fun _ => .done) <$> update (·.closeCursor cursor)
  | .readCursor cursor => .record <$> onDatabase (Database.readCursor cursor)
  | .seekCursor cursor key => .value <$> onDatabase (Database.seekCursor cursor key)
  | .seekRangeCursor cursor low high =>
    .value <$> onDatabase (Database.seekRangeCursor cursor low high)
  | .refreshCursor cursor => (fun _ => .done) <$> onDatabase (Database.refreshCursor cursor)
  | .compact => .number <$> onDatabase Database.compact
  | .compactStatus => .compaction <$> ask (·.compactStatus)
  | .mediaUsage m => .media <$> Storage.mediaUsage m
  | .sync => (fun _ => .done) <$> Storage.sync
  | .close => (fun _ => .done) <$> Storage.close

end Call

/-- What happens to an open database: a call at a time, or a change of the file system by others. -/
inductive Event where
  | call (now : Nat) (c : Call)
  | files (fs : FileSystem)

namespace Event

/-- What happens, as an attempt. -/
def attempt : Event → Attempt Site Reply
  | .call now c => c.attempt now
  | .files fs => Attempt.ofStep fun s => (.ok .done, { s with fs })

/-- The answer of an event. -/
def answer (e : Event) (s : Site) : Except Fault Reply := (e.attempt.on s).1

/-- The site after an event. -/
def next (e : Event) (s : Site) : Site := (e.attempt.on s).2

end Event

end SnapshotKv
