import SnapshotKv.Database

/-!
# Transactions

A transaction runs in cycles from begin to commit or abort. In a cycle it reads one view and its own
writes. Its first write to a key claims the key for the rest of the cycle; a write that another
transaction's claim covers, or that was overtaken by a commit after the view, is a conflict, and
dooms the cycle. A cycle that is older than the time limit of the database is aborted when it is
next used.
-/

namespace SnapshotKv.Database

/-- The transaction of a number. -/
def txn (db : Database) (t : Nat) : Except Fault Txn :=
  match db.txns.get? t with
  | some x => pure x
  | none => throw (noSuch "transaction")

/-- The state of a transaction. -/
def txnState (db : Database) (t : Nat) : Except Fault TxnState := do
  let x ← db.txn t
  pure x.state

/-- Makes a transaction, in the invalid state. -/
def allocTxn : Attempt Database Nat :=
  Attempt.ofStep fun db => (.ok db.txns.nextId, { db with txns := db.txns.add .invalid })

/-- Ends a cycle: its claims and its view are given up, and the transaction is left as `final`. -/
def endCycle (db : Database) (t : Nat) (c : Cycle) (final : Txn) : Database :=
  { db with
    locks := db.locks.release c.id
    pins := db.pins.unpin c.view
    txns := db.txns.modify t (fun _ => final) }

/-- Whether a cycle is older than the time limit, which is in milliseconds. -/
def isExpired (db : Database) (now : Nat) (c : Cycle) : Bool :=
  decide (db.settings.txnTimeout * 1000 < now - c.started)

/-- The cycle of an active transaction. An expired one is aborted. -/
def activeCycle (now t : Nat) : Attempt Database Cycle := do
  let db ← get
  Attempt.check db.checkOpen
  match ← Attempt.check (db.txn t) with
  | .active c =>
    if db.isExpired now c then
      set (db.endCycle t c .aborted)
      throw Fault.transactionExpired
    else pure c
  | _ => throw Fault.notActive

/-- Replaces the cycle of an active transaction. -/
def setCycle (db : Database) (t : Nat) (c : Cycle) : Database :=
  { db with txns := db.txns.modify t (fun _ => .active c) }

/-- Begins a cycle on the published contents. -/
def beginTxn (now t : Nat) : Attempt Database Unit := do
  let db ← get
  Attempt.check db.checkOpen
  match ← Attempt.check (db.txn t) with
  | .active _ => throw Fault.alreadyActive
  | _ =>
    set { (db.setCycle t { id := db.nextCycle, view := db.published, started := now }) with
      nextCycle := db.nextCycle + 1
      pins := db.pins.pin db.published }

/-- Commits the write set of one store, if the store can be found, at a sequence number. -/
def applyWrites (seqno : Nat) (acc : Bool × Database) (e : Nat × WriteSet) : Bool × Database :=
  match if e.2.isEmpty then none else acc.2.cellOfId? e.1 with
  | some cell =>
    (true, acc.2.modifyStore cell
      (fun s => { s with tree := e.2.applyTo s.tree seqno, dirty := true }))
  | none => acc

/-- Commits a cycle: all its writes take effect at one sequence number, which is published when
there was anything to write. -/
def publish (db : Database) (c : Cycle) : Database :=
  let seqno := db.published + 1
  let (applied, db') := c.writes.entries.foldl (applyWrites seqno) (false, db)
  if applied then { db' with published := seqno } else db'

/-- Commits an active transaction; a doomed one is aborted instead. -/
def commitTxn (now t : Nat) : Attempt Database Unit := do
  let c ← activeCycle now t
  if c.doomed then
    modify fun db => db.endCycle t c .aborted
    throw Fault.lostConflict
  modify fun db => (db.publish c).endCycle t c .committed

/-- Aborts an active transaction. -/
def abortTxn (t : Nat) : Attempt Database Unit := do
  let db ← get
  match ← Attempt.check (db.txn t) with
  | .active c => set (db.endCycle t c .aborted)
  | _ => throw Fault.notActive

/-- Gives up a transaction; an active one is committed. -/
def closeTxn (now t : Nat) : Attempt Database Unit := do
  let db ← get
  match ← Attempt.check (db.txn t) with
  | .active _ => commitTxn now t
  | _ => pure ()

/-- Refused after a lost conflict in the same cycle. -/
def checkDoomed (c : Cycle) : Except Fault Unit :=
  if c.doomed then throw Fault.alreadyLost else pure ()

/-- Dooms a cycle over a conflict in a store. -/
def loseConflict {α : Type} (t : Nat) (c : Cycle) (store : String) : Attempt Database α := do
  modify fun db => db.setCycle t { c with doomed := true }
  throw (Fault.writeConflict store)

/-- A write in an active transaction: `claim` asks for the claims it needs and `latest` for the
newest commit it would overlap. The claim stays even when that commit then refuses the write. -/
def writeInTxn (now t : Nat) (s : Store) (claim : LockTable → Nat → Bool × LockTable)
    (latest : Option Nat) (write : WriteSet → WriteSet) : Attempt Database Unit := do
  let c ← activeCycle now t
  Attempt.check (checkDoomed c)
  let db ← get
  let (granted, locks) := claim db.locks c.id
  if !granted then loseConflict t c s.name
  set { db with locks }
  if latest.any (fun seqno => c.view < seqno) then loseConflict t c s.name
  modify fun db =>
    db.setCycle t { c with writes := c.writes.insert s.id (write (c.writesTo s.id)) }

end SnapshotKv.Database
