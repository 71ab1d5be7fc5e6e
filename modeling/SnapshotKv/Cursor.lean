import SnapshotKv.Attempt
import SnapshotKv.Limits
import SnapshotKv.WriteSet

/-!
# Cursors

A cursor walks the records of one store that start with its filter, in one direction, as one view
sees them. A cursor of a transaction lays a copy of the transaction's writes over the view. It
stores no list of records: each read searches the tree anew from the position it has reached, so the
tree may change under it, and what its view sees stays the same.

The scan path (`ScanPath`) decides only whether the search is bounded to the filter beforehand.
-/

namespace SnapshotKv

/-- How a cursor keeps to its filter. -/
inductive ScanPath where
  /-- The search is bounded to the keys that start with the filter. -/
  | bounded
  /-- The search tries every key from the position on. -/
  | full
  deriving DecidableEq, Repr

namespace ScanPath

/-- A filter as long as the prefixes of the store, at least, bounds the search. -/
def select (prefixLength : Nat) (filter : Bytes) : ScanPath :=
  if 0 < prefixLength ∧ !filter.isEmpty ∧ prefixLength ≤ filter.length then .bounded else .full

/-- The written name of a path. -/
def name : ScanPath → String
  | .bounded => "Prefix"
  | .full => "Full"

end ScanPath

/-- Where a scan stands. -/
inductive Position where
  /-- Before every key. -/
  | start
  /-- At the key or beyond it in scan order. -/
  | upTo (key : Bytes)
  /-- Strictly beyond the key in scan order. -/
  | past (key : Bytes)
  deriving DecidableEq, Repr

/-- The bound that a position sets on the side the scan comes from. -/
def Position.bound : Position → Bound Bytes
  | .start => .unbounded
  | .upTo key => .included key
  | .past key => .excluded key

/-- A scan over one store. -/
structure Cursor where
  /-- The number of the store in its database. -/
  cell : Nat
  view : Nat
  filter : Bytes
  reverse : Bool
  path : ScanPath
  /-- The writes of the transaction that the cursor belongs to. -/
  overlay : Option WriteSet
  position : Position := .start
  /-- The last key that reads may return. -/
  cap : Option Bytes := none
  atEnd : Bool := false

namespace Cursor

/-- Whether the cursor belongs to a transaction. -/
def isBound (c : Cursor) : Bool := c.overlay.isSome

/-- The bounds of the next search: the position, the cap, and on the bounded path the filter. -/
def bounds (c : Cursor) : Bound Bytes × Bound Bytes :=
  let near := c.position.bound
  let lower : Bound Bytes := if c.reverse then .unbounded else near
  let upper : Bound Bytes := if c.reverse then near else .unbounded
  let upper := match c.cap with
    | some key => upper.tighterUpper (.included key)
    | none => upper
  match c.path with
  | .full => (lower, upper)
  | .bounded =>
    (lower.tighterLower (.included c.filter),
      match c.filter.successor? with
      | some next => upper.tighterUpper (.excluded next)
      | none => upper)

/-- Of a committed and a pending record the one that comes first; the pending one of equal keys. -/
def first (reverse : Bool) (committed pending : Option (Bytes × Bytes)) : Option (Bytes × Bytes) :=
  match committed, pending with
  | some c, some p =>
    let pendingFirst := if reverse then !decide (p.1 < c.1) else !decide (c.1 < p.1)
    if pendingFirst then some p else some c
  | some c, none => some c
  | none, p => p

/-- The next record in scan order. Committed records that the overlay decides do not count. -/
def find (c : Cursor) (tree : VersionTree) : Option (Bytes × Bytes) :=
  let (lower, upper) := c.bounds
  let committed := tree.nextVisible lower upper c.reverse c.view fun key =>
    c.filter.isPrefixOf key && !(c.overlay.any fun w => w.shadows key)
  let pending := c.overlay.bind fun w =>
    w.nextEntry lower upper c.reverse fun key => c.filter.isPrefixOf key
  first c.reverse committed pending

/-- Whether a prefix deletion newer than the view may have touched what the filter selects. A cursor
of a transaction, or without filter, never minds. -/
def isOutdated (c : Cursor) (tree : VersionTree) : Bool :=
  !c.isBound && !c.filter.isEmpty && tree.prefixDeletedSince c.filter c.view

/-- Returns the next record and moves past it; none at the end, where the cursor then stays. The
check `ready` comes first. -/
def read (ready : Except Fault Unit) (tree : VersionTree) :
    Attempt Cursor (Option (Bytes × Bytes)) := do
  Attempt.check ready
  let c ← get
  if c.atEnd then pure none
  else match c.find tree with
    | some (key, value) =>
      set { c with position := .past key }
      pure (some (key, value))
    | none =>
      set { c with atEnd := true }
      pure none

/-- Moves to a key and returns the first one at or beyond it. -/
def reposition (ready : Except Fault Unit) (tree : VersionTree) (key : Bytes) :
    Attempt Cursor (Option Bytes) := do
  Attempt.check ready
  modify fun c => { c with atEnd := false, position := .upTo key }
  let c ← get
  match c.find tree with
  | some (landed, _) =>
    set { c with position := .upTo landed }
    pure (some landed)
  | none => pure none

/-- Lifts the cap and moves to a key. -/
def seek (ready : Except Fault Unit) (tree : VersionTree) (key : Bytes) :
    Attempt Cursor (Option Bytes) := do
  Attempt.check (Limits.checkBound key)
  modify fun c => { c with cap := none }
  reposition ready tree key

/-- Sets the cap and moves to a key, on a forward cursor. -/
def seekRange (store : String) (ready : Except Fault Unit) (tree : VersionTree) (low high : Bytes) :
    Attempt Cursor (Option Bytes) := do
  let c ← get
  if c.reverse then throw (Fault.forwardOnly store)
  Attempt.check (Limits.checkBound low)
  Attempt.check (Limits.checkBound high)
  modify fun c => { c with cap := some high }
  reposition ready tree low

end Cursor

end SnapshotKv
