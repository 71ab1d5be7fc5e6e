import SnapshotKv.Catalog
import SnapshotKv.Cursor
import SnapshotKv.LockTable
import SnapshotKv.Pins
import SnapshotKv.Pool
import SnapshotKv.Settings.Config
import SnapshotKv.Settings.Scopes

/-!
# Open databases

A `Database` is one open database with everything that was made from it: the stores, the handles on
stores, the transactions and the cursors. The stores of a database stand in a pool; `stores` says
under which name which of them can be found. A store that was dropped, or replaced under its name,
stays in the pool for the handles and cursors that still read it, but no longer takes part in
compaction and is no longer written to disk.

Every change of committed contents happens at one sequence number, one above `published`.
-/

namespace SnapshotKv

/-- One store of an open database. -/
structure Store where
  id : Nat
  name : String
  prefixLength : Nat
  tree : VersionTree
  /-- Whether a handle is on the store. -/
  isOpen : Bool := false
  /-- Whether there are commits that the data file does not hold. -/
  dirty : Bool := false

/-- The store that a record of the catalog describes. -/
def Store.ofRecord (r : StoreRecord) (tree : VersionTree) : Store :=
  { id := r.id, name := r.name, prefixLength := r.prefixLength, tree }

/-- A handle on a store. -/
structure Handle where
  cell : Nat
  settings : StoreSettings

/-- One cycle of a transaction, from its begin to its commit or abort. -/
structure Cycle where
  id : Nat
  /-- The published sequence number at the begin. -/
  view : Nat
  /-- The time of the begin in microseconds. -/
  started : Nat
  /-- The writes so far, by the number of the store in the catalog. -/
  writes : SortedMap Nat WriteSet := .empty
  /-- Set by a lost write conflict; the cycle can no longer commit. -/
  doomed : Bool := false

/-- The writes of a cycle to the store with a number in the catalog. -/
def Cycle.writesTo (c : Cycle) (store : Nat) : WriteSet := (c.writes.get? store).getD {}

/-- The states of a transaction. -/
inductive TxnState where
  | invalid | active | committed | aborted
  deriving DecidableEq, Repr

/-- The written name of a state. -/
def TxnState.name : TxnState → String
  | .invalid => "invalid"
  | .active => "active"
  | .committed => "committed"
  | .aborted => "aborted"

/-- A transaction, which can go through many cycles. Its state and its cycle are one value: they are
only ever set together, so that it has a cycle exactly while it is active is part of the type. -/
inductive Txn where
  | invalid
  | active (cycle : Cycle)
  | committed
  | aborted

/-- The state of a transaction. -/
def Txn.state : Txn → TxnState
  | .invalid => .invalid
  | .active _ => .active
  | .committed => .committed
  | .aborted => .aborted

/-- An open database. -/
structure Database where
  home : String
  settings : OpenSettings
  config : Config
  catalog : Catalog
  /-- Every store there was since the database was opened. -/
  cells : Pool Store := {}
  /-- The stores that can be found by their names. -/
  stores : SortedMap String Nat := .empty
  handles : Pool Handle := {}
  txns : Pool Txn := {}
  cursors : Pool Cursor := {}
  /-- The sequence number of the last commit. -/
  published : Nat := 0
  nextCycle : Nat := 1
  locks : LockTable := {}
  pins : Pins := {}
  closed : Bool := false
  /-- The inode of the lock file. -/
  lock : Nat

namespace Database

/-- The fault for a number that was never given out. -/
def noSuch (what : String) : Fault := { kind := .internal, message := some ("no such " ++ what) }

/-- Refused once the database is closed. -/
def checkOpen (db : Database) : Except Fault Unit :=
  if db.closed then throw (Fault.databaseClosed db.home) else pure ()

/-- Refused on a database that was opened read-only. -/
def checkWritable (db : Database) : Except Fault Unit :=
  if db.settings.readOnly then throw Fault.openReadOnly else pure ()

/-- The stores that can be found, in the order of their names. -/
def attached (db : Database) : List Store := db.stores.values.filterMap db.cells.get?

/-- The store of a name. -/
def storeNamed (db : Database) (name : String) : Except Fault (Nat × Store) :=
  match db.stores.get? name with
  | some cell => match db.cells.get? cell with
    | some s => pure (cell, s)
    | none => throw (Fault.noStore name)
  | none => throw (Fault.noStore name)

/-- The number in the pool of the store with a number in the catalog; of several the last one in the
order of names. -/
def cellOfId? (db : Database) (id : Nat) : Option Nat :=
  db.stores.values.reverse.find? fun cell => (db.cells.get? cell).any (·.id == id)

/-- The handle of a number, with its store. -/
def handleStore (db : Database) (handle : Nat) : Except Fault (Handle × Store) :=
  match db.handles.get? handle with
  | some h => match db.cells.get? h.cell with
    | some s => pure (h, s)
    | none => throw (noSuch "store")
  | none => throw (noSuch "handle")

/-- The cursor of a number, with its store. -/
def cursorStore (db : Database) (cursor : Nat) : Except Fault (Cursor × Store) :=
  match db.cursors.get? cursor with
  | some c => match db.cells.get? c.cell with
    | some s => pure (c, s)
    | none => throw (noSuch "store")
  | none => throw (noSuch "cursor")

/-- A change of one store. -/
def modifyStore (db : Database) (cell : Nat) (f : Store → Store) : Database :=
  { db with cells := db.cells.modify cell f }

/-- The value of a parameter: a setting of the open database or the path of a media class. -/
def param (db : Database) (key : String) : Except Fault String :=
  match OpenSettings.scheme.read db.settings key with
  | some value => pure value
  | none => match MediaClass.all.find? (fun m => m.pathParam == key) with
    | some m => pure ((db.catalog.mediaPath? m).getD "")
    | none => throw (Fault.unknownParam "kvdb" key)

/-- The names of the stores in the order of their creation. -/
def storeNames (db : Database) : Except Fault (List String) := do
  db.checkOpen
  pure (db.catalog.stores.map (·.name))

/-! ## Handles -/

/-- Opens a store: the sections of the configuration apply first, then the parameters. A store has
one handle at most. -/
def openStore (name : String) (params : List String) : Attempt Database Nat := do
  let db ← get
  Attempt.check db.checkOpen
  let (cell, s) ← Attempt.check (db.storeNamed name)
  let settings ← Attempt.check (StoreSettings.scheme.ofLayers (db.config.layers name) params)
  if s.isOpen then throw (Fault.storeAlreadyOpen name)
  set { db.modifyStore cell (fun s => { s with isOpen := true }) with
    handles := db.handles.add ⟨cell, settings⟩ }
  pure db.handles.nextId

/-- Gives up a handle; its store can be opened again. -/
def closeStore (db : Database) (handle : Nat) : Database :=
  match db.handles.get? handle with
  | some h =>
    { db.modifyStore h.cell (fun s => { s with isOpen := false }) with
      handles := db.handles.remove handle }
  | none => db

/-- The value of a parameter of an open store. -/
def storeParam (db : Database) (handle : Nat) (key : String) : Except Fault String := do
  let (h, s) ← db.handleStore handle
  if key = "prefix.length" then pure (toString s.prefixLength)
  else match StoreSettings.scheme.read h.settings key with
    | some value => pure value
    | none => throw ((Fault.unknownParam "kvs" key).about s.name)

/-! ## Compaction -/

/-- How full the stores are: all versions and tombstones per hundred keys with a value. -/
def fillGrade (db : Database) : Nat :=
  let stats := db.attached.map (fun s => s.tree.stats db.published)
  let versions := stats.foldl (fun n s => n + s.versions) 0
  let live := stats.foldl (fun n s => n + s.liveKeys) 0
  if versions = 0 then 100
  else if live = 0 then versions * 100
  else versions * 100 / live

/-- The report on compaction. It never runs beside other calls, so it is neither active nor ever
canceled. -/
structure CompactStatus where
  lowMark : Nat := 117
  highMark : Nat := 137
  current : Nat
  active : Bool := false
  canceled : Bool := false
  deriving DecidableEq, Repr

/-- The report on compaction for the published contents. -/
def compactStatus (db : Database) : Except Fault CompactStatus := do
  db.checkOpen
  pure { current := db.fillGrade }

/-- Prunes one store and counts the versions that went. -/
def pruneCell (horizon : Nat) (acc : Nat × Pool Store) (cell : Nat) : Nat × Pool Store :=
  match acc.2.get? cell with
  | some s =>
    let (removed, tree) := s.tree.prune horizon
    (acc.1 + removed, acc.2.modify cell (fun s => { s with tree }))
  | none => acc

/-- Prunes every store that can be found at the oldest view in use; answers how many versions
went. -/
def compact : Attempt Database Nat := do
  let db ← get
  Attempt.check db.checkOpen
  let (removed, cells) :=
    db.stores.values.foldl (pruneCell (db.pins.horizon db.published)) (0, db.cells)
  set { db with cells }
  pure removed

end Database

end SnapshotKv
