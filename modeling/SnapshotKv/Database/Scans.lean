import SnapshotKv.Database.Records

/-!
# Scanning records

Cursors of an open database. A cursor pins its view for as long as it lives. Without a transaction
it takes the published view; in one it takes the view of the transaction and a copy of its writes to
the store so far.
-/

namespace SnapshotKv.Database

/-- Makes a cursor over the records of a store that start with a filter. -/
def openCursor (now handle : Nat) (txn : Option Nat) (filter : Bytes) (reverse : Bool) :
    Attempt Database Nat := do
  let db ← get
  let (h, s) ← Attempt.check (db.handleStore handle)
  Attempt.check (db.checkAccess h s txn.isSome .read)
  Attempt.check (Limits.checkBound filter)
  let (view, overlay) ← match txn with
    | none => pure (db.published, none)
    | some t => do
      let c ← activeCycle now t
      pure (c.view, some (c.writesTo s.id))
  let cursor : Cursor :=
    { cell := h.cell, view, filter, reverse, overlay
      path := ScanPath.select s.prefixLength filter }
  modify fun db => { db with cursors := db.cursors.add cursor, pins := db.pins.pin view }
  pure db.cursors.nextId

/-- Gives up a cursor and its view. -/
def closeCursor (db : Database) (cursor : Nat) : Database :=
  match db.cursors.get? cursor with
  | some c => { db with cursors := db.cursors.remove cursor, pins := db.pins.unpin c.view }
  | none => db

/-- Whether a cursor can be read: the database is open and the view is not outdated. -/
def checkReady (db : Database) (c : Cursor) (s : Store) : Except Fault Unit := do
  db.checkOpen
  if c.isOutdated s.tree then throw (Fault.viewOutdated s.name)

/-- A call on a cursor, given its store and whether it can be read. -/
def onCursor {α : Type} (cursor : Nat) (call : Store → Except Fault Unit → Attempt Cursor α) :
    Attempt Database α := do
  let db ← get
  let (c, s) ← Attempt.check (db.cursorStore cursor)
  let (r, c') := (call s (db.checkReady c s)).on c
  set { db with cursors := db.cursors.modify cursor (fun _ => c') }
  Attempt.check r

/-- The next record of a cursor. -/
def readCursor (cursor : Nat) : Attempt Database (Option (Bytes × Bytes)) :=
  onCursor cursor fun s ready => Cursor.read ready s.tree

/-- Moves a cursor to the first key at or beyond a key and answers it. -/
def seekCursor (cursor : Nat) (key : Bytes) : Attempt Database (Option Bytes) :=
  onCursor cursor fun s ready => Cursor.seek ready s.tree key

/-- Moves a forward cursor likewise and ends its later reads after a last key. -/
def seekRangeCursor (cursor : Nat) (low high : Bytes) : Attempt Database (Option Bytes) :=
  onCursor cursor fun s ready => Cursor.seekRange s.name ready s.tree low high

/-- Moves a cursor without transaction to the published view; its position stays. -/
def refreshCursor (cursor : Nat) : Attempt Database Unit := do
  let db ← get
  Attempt.check db.checkOpen
  let (c, _) ← Attempt.check (db.cursorStore cursor)
  if !c.isBound then
    set { db with
      cursors := db.cursors.modify cursor (fun c => { c with view := db.published, atEnd := false })
      pins := (db.pins.pin db.published).unpin c.view }

end SnapshotKv.Database
