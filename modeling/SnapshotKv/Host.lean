import SnapshotKv.Buffer
import SnapshotKv.Database.Scans
import SnapshotKv.Database.Storage

/-!
# Hosts

A `Host` is a process that uses databases: a file system, a clock, the runtime settings once the
runtime is initialized, and the databases it has opened. What a caller holds are references
(`StoreRef`, `TxnRef`, `CursorRef`): a database and the number of the thing in it. The calls of this
module are the public interface.
-/

namespace SnapshotKv

/-- A process that uses databases. -/
structure Host where
  fs : FileSystem := {}
  /-- The time in microseconds. -/
  now : Nat := 0
  /-- The settings of the runtime, while it is initialized. -/
  runtime : Option GlobalSettings := none
  databases : Pool Database := {}

/-- A handle on a store of a database. -/
structure StoreRef where
  database : Nat
  handle : Nat
  deriving DecidableEq, Repr

/-- A transaction of a database. -/
structure TxnRef where
  database : Nat
  txn : Nat
  deriving DecidableEq, Repr

/-- A cursor of a database. -/
structure CursorRef where
  database : Nat
  cursor : Nat
  deriving DecidableEq, Repr

namespace Host

/-! ## The runtime -/

/-- Initializes the runtime: a configuration file applies first, then the parameters. A runtime that
is initialized stays as it is. -/
def init (config : Option String) (params : List String) : Attempt Host Unit := do
  let host ← get
  if host.runtime.isNone then
    let layers ← match config with
      | some path => do
        let layer ←
          Attempt.within Host.fs (fun h fs => { h with fs }) (Storage.loadGlobalConfig path)
        pure [layer]
      | none => pure []
    let settings ← Attempt.check (GlobalSettings.scheme.ofLayers layers params)
    modify fun h => { h with runtime := some settings }

/-- Takes the runtime down. -/
def finish (h : Host) : Host := { h with runtime := none }

/-- Refused unless the runtime is initialized. -/
def checkInitialized (h : Host) : Except Fault Unit :=
  if h.runtime.isSome then pure () else throw Fault.notInitialized

/-- The value of a runtime parameter. -/
def globalParam (h : Host) (key : String) : Except Fault String :=
  match h.runtime with
  | none => throw Fault.notInitialized
  | some settings => match GlobalSettings.scheme.read settings key with
    | some value => pure value
    | none => throw (Fault.unknownParam "global" key)

/-- An attempt on the file system, once the runtime is initialized. -/
def onFiles {α : Type} (a : Attempt FileSystem α) : Attempt Host α := do
  let host ← get
  Attempt.check host.checkInitialized
  Attempt.within Host.fs (fun h fs => { h with fs }) a

/-! ## Databases -/

/-- Makes a database in an existing directory. -/
def createDatabase (home : String) (params : List String) : Attempt Host Unit :=
  onFiles (Storage.create home params)

/-- Removes a database with all its data. -/
def destroyDatabase (home : String) : Attempt Host Unit := onFiles (Storage.destroy home)

/-- Adds media classes to a database that is not open. -/
def addStorage (home : String) (params : List String) : Attempt Host Unit :=
  onFiles (Storage.addStorage home params)

/-- Opens a database and answers its number. -/
def openDatabase (home : String) (params : List String) : Attempt Host Nat := do
  let db ← onFiles (Storage.openDatabase home params)
  let host ← get
  set { host with databases := host.databases.add db }
  pure host.databases.nextId

/-- An attempt on an open database and the file system. -/
def onSite {α : Type} (d : Nat) (a : Attempt Site α) : Attempt Host α :=
  Attempt.ofStep fun h => match h.databases.get? d with
    | none => (.error (Database.noSuch "database"), h)
    | some db =>
      let r := a.on { db, fs := h.fs }
      (r.1, { h with fs := r.2.fs, databases := h.databases.modify d (fun _ => r.2.db) })

/-- An attempt on an open database. -/
def onDatabase {α : Type} (d : Nat) (a : Attempt Database α) : Attempt Host α :=
  onSite d (Storage.onDatabase a)

/-- A question to an open database. -/
def ask {α : Type} (d : Nat) (f : Database → Except Fault α) : Attempt Host α :=
  onDatabase d do
    let db ← get
    Attempt.check (f db)

/-- A change of an open database that cannot fail. -/
def change (d : Nat) (f : Database → Database) : Attempt Host Unit := onDatabase d (modify f)

/-- Closes a database. -/
def closeDatabase (d : Nat) : Attempt Host Unit := onSite d Storage.close

/-! ## Stores -/

/-- Opens a store of a database. -/
def openStore (d : Nat) (name : String) (params : List String) : Attempt Host StoreRef := do
  let handle ← onDatabase d (Database.openStore name params)
  pure ⟨d, handle⟩

/-- Gives up a handle on a store. -/
def closeStore (s : StoreRef) : Attempt Host Unit := change s.database (·.closeStore s.handle)

/-- What a handle tells about its store. -/
structure StoreInfo where
  name : String
  prefixLength : Nat
  transactional : Bool
  deriving DecidableEq, Repr

/-- The store behind a handle. -/
def storeInfo (s : StoreRef) : Attempt Host StoreInfo :=
  ask s.database fun db => do
    let (h, store) ← db.handleStore s.handle
    pure ⟨store.name, store.prefixLength, h.settings.transactional⟩

/-- A transaction used on a store; it has to be of the same database. -/
def txnFor (s : StoreRef) (t : Option TxnRef) : Except Fault (Option Nat) :=
  match t with
  | none => pure none
  | some t => if t.database = s.database then pure (some t.txn) else throw Fault.foreignTransaction

/-- A call on a store, in a transaction or without one. -/
def onStore {α : Type} (s : StoreRef) (t : Option TxnRef)
    (call : (now : Nat) → (txn : Option Nat) → Attempt Database α) : Attempt Host α := do
  let txn ← Attempt.check (txnFor s t)
  let host ← get
  onDatabase s.database (call host.now txn)

/-- Gives a key a value. -/
def put (s : StoreRef) (t : Option TxnRef) (key value : Bytes) : Attempt Host Unit :=
  onStore s t fun now txn => Database.putRecord now s.handle txn key value

/-- The value of a key. -/
def get (s : StoreRef) (t : Option TxnRef) (key : Bytes) : Attempt Host (Option Bytes) :=
  onStore s t fun now txn => Database.getRecord now s.handle txn key

/-- Copies the value of a key into a buffer; the answer has the exact length. -/
def getInto (s : StoreRef) (t : Option TxnRef) (key : Bytes) (out : OutBuffer) :
    Attempt Host (Lookup × OutBuffer) := do
  let value ← get s t key
  pure (.ofSource value, out.fillFrom value)

/-- Deletes a key. -/
def delete (s : StoreRef) (t : Option TxnRef) (key : Bytes) : Attempt Host Unit :=
  onStore s t fun now txn => Database.deleteRecord now s.handle txn key

/-- Deletes every key with a prefix. -/
def deletePrefix (s : StoreRef) (t : Option TxnRef) (stem : Bytes) : Attempt Host Unit :=
  onStore s t fun now txn => Database.deletePrefix now s.handle txn stem

/-! ## Transactions -/

/-- Makes a transaction. -/
def allocTxn (d : Nat) : Attempt Host TxnRef := do
  let txn ← onDatabase d Database.allocTxn
  pure ⟨d, txn⟩

/-- A call on a transaction. -/
def onTxn {α : Type} (t : TxnRef) (call : (now txn : Nat) → Attempt Database α) :
    Attempt Host α := do
  let host ← MonadState.get
  onDatabase t.database (call host.now t.txn)

/-- Begins a cycle of a transaction. -/
def beginTxn (t : TxnRef) : Attempt Host Unit := onTxn t Database.beginTxn

/-- Commits an active transaction. -/
def commitTxn (t : TxnRef) : Attempt Host Unit := onTxn t Database.commitTxn

/-- Aborts an active transaction. -/
def abortTxn (t : TxnRef) : Attempt Host Unit := onTxn t fun _ txn => Database.abortTxn txn

/-- Gives up a transaction; an active one is committed. -/
def closeTxn (t : TxnRef) : Attempt Host Unit := onTxn t Database.closeTxn

/-- The state of a transaction. -/
def txnState (t : TxnRef) : Attempt Host TxnState := ask t.database (·.txnState t.txn)

/-! ## Cursors -/

/-- Makes a cursor. -/
def openCursor (s : StoreRef) (t : Option TxnRef) (filter : Bytes) (reverse : Bool) :
    Attempt Host CursorRef := do
  let cursor ← onStore s t fun now txn => Database.openCursor now s.handle txn filter reverse
  pure ⟨s.database, cursor⟩

/-- A cursor as it stands. -/
def cursor (c : CursorRef) : Attempt Host Cursor :=
  ask c.database fun db => do
    let (cursor, _) ← db.cursorStore c.cursor
    pure cursor

/-- The next record of a cursor. -/
def read (c : CursorRef) : Attempt Host (Option (Bytes × Bytes)) :=
  onDatabase c.database (Database.readCursor c.cursor)

/-- What a read into buffers answers: the exact lengths or the end, and the buffers. -/
structure ReadInto where
  lengths : Option RecordLength
  key : Option OutBuffer
  value : Option OutBuffer

/-- Copies the next record into a key buffer, a value buffer, or both. -/
def readInto (c : CursorRef) (key value : Option OutBuffer) : Attempt Host ReadInto := do
  if key.isNone && value.isNone then throw Fault.noBuffer
  match ← read c with
  | none => pure { lengths := none, key, value }
  | some (k, v) =>
    pure {
      lengths := some ⟨k.length, v.length⟩
      key := key.map (·.fill k)
      value := value.map (·.fill v) }

/-- Moves a cursor to the first key at or beyond a key. -/
def seek (c : CursorRef) (key : Bytes) : Attempt Host (Option Bytes) :=
  onDatabase c.database (Database.seekCursor c.cursor key)

/-- Moves a cursor and copies the key it landed on into a buffer. -/
def seekInto (c : CursorRef) (key : Bytes) (out : OutBuffer) :
    Attempt Host (Lookup × OutBuffer) := do
  let landed ← seek c key
  pure (.ofSource landed, out.fillFrom landed)

/-- Moves a forward cursor and ends its later reads after a last key. -/
def seekRange (c : CursorRef) (low high : Bytes) : Attempt Host (Option Bytes) :=
  onDatabase c.database (Database.seekRangeCursor c.cursor low high)

/-- Moves a forward cursor likewise and copies the key it landed on into a buffer. -/
def seekRangeInto (c : CursorRef) (low high : Bytes) (out : OutBuffer) :
    Attempt Host (Lookup × OutBuffer) := do
  let landed ← seekRange c low high
  pure (.ofSource landed, out.fillFrom landed)

/-- Moves a cursor to the published view. -/
def refresh (c : CursorRef) : Attempt Host Unit :=
  onDatabase c.database (Database.refreshCursor c.cursor)

/-- Gives up a cursor. -/
def closeCursor (c : CursorRef) : Attempt Host Unit := change c.database (·.closeCursor c.cursor)

end Host

end SnapshotKv
