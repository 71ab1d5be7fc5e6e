import SnapshotKv.Database.Transactions

/-!
# Reading and writing records

Every call goes through a handle, with or without a transaction. A transaction can be used only on a
store that was opened for transactions, and such a store is written only by transactions. Without a
transaction a read sees the published contents, and a write is a commit of its own.
-/

namespace SnapshotKv.Database

/-- What a call does to the records. -/
inductive Access where
  | read | write
  deriving DecidableEq, Repr

/-- Whether a call may go through a handle, with or without a transaction. -/
def checkAccess (db : Database) (h : Handle) (s : Store) (bound : Bool) (access : Access) :
    Except Fault Unit := do
  db.checkOpen
  if bound && !h.settings.transactional then throw (Fault.notTransactional s.name)
  if access = .write then
    db.checkWritable
    if !bound && h.settings.transactional then throw (Fault.transactionNeeded s.name)

/-- A commit of a single change to a store. -/
def applySingle (db : Database) (cell : Nat) (change : VersionTree → Nat → VersionTree) :
    Database :=
  let seqno := db.published + 1
  { db.modifyStore cell (fun s => { s with tree := change s.tree seqno, dirty := true }) with
    published := seqno }

/-- The value of a key. In a transaction its own writes come first, then its view. -/
def getRecord (now handle : Nat) (txn : Option Nat) (key : Bytes) :
    Attempt Database (Option Bytes) := do
  let db ← get
  let (h, s) ← Attempt.check (db.handleStore handle)
  Attempt.check (db.checkAccess h s txn.isSome .read)
  Attempt.check (Limits.checkKey key)
  match txn with
  | none => pure (s.tree.get key db.published)
  | some t =>
    let c ← activeCycle now t
    match (c.writesTo s.id).lookup key with
    | .value v => pure (some v)
    | .deleted => pure none
    | .absent => pure (s.tree.get key c.view)

/-- Gives a key a value. -/
def putRecord (now handle : Nat) (txn : Option Nat) (key value : Bytes) :
    Attempt Database Unit := do
  let db ← get
  let (h, s) ← Attempt.check (db.handleStore handle)
  Attempt.check (db.checkAccess h s txn.isSome .write)
  Attempt.check (Limits.checkKey key)
  Attempt.check (Limits.checkValue value)
  match txn with
  | none => set (db.applySingle h.cell (fun tree seqno => tree.insert key seqno (some value)))
  | some t =>
    writeInTxn now t s (fun locks id => locks.lockKey s.id key id) (s.tree.latestWrite key)
      (fun w => w.put key value)

/-- Deletes a key. -/
def deleteRecord (now handle : Nat) (txn : Option Nat) (key : Bytes) : Attempt Database Unit := do
  let db ← get
  let (h, s) ← Attempt.check (db.handleStore handle)
  Attempt.check (db.checkAccess h s txn.isSome .write)
  Attempt.check (Limits.checkKey key)
  match txn with
  | none => set (db.applySingle h.cell (fun tree seqno => tree.insert key seqno none))
  | some t =>
    writeInTxn now t s (fun locks id => locks.lockKey s.id key id) (s.tree.latestWrite key)
      (fun w => w.delete key)

/-- Deletes every key with a prefix, which has to have the prefix length of the store. -/
def deletePrefix (now handle : Nat) (txn : Option Nat) (stem : Bytes) : Attempt Database Unit := do
  let db ← get
  let (h, s) ← Attempt.check (db.handleStore handle)
  Attempt.check (db.checkAccess h s txn.isSome .write)
  if s.prefixLength = 0 ∨ stem.length ≠ s.prefixLength then
    throw (Fault.prefixLengthWrong s.name s.prefixLength stem.length)
  match txn with
  | none => set (db.applySingle h.cell (fun tree seqno => tree.deletePrefix stem seqno))
  | some t =>
    writeInTxn now t s (fun locks id => locks.lockPrefix s.id stem id)
      (s.tree.latestWriteUnder stem) (fun w => w.deletePrefix stem)

end SnapshotKv.Database
