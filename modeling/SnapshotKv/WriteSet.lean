import SnapshotKv.VersionTree

/-!
# Write sets

The uncommitted writes of one transaction to one store: what it put or deleted under single keys,
and the prefixes it deleted. A prefix deletion forgets the single writes under the prefix, so a
single write that is present was made after every prefix deletion that covers it
(`WriteSet.lookup`). `WriteSet.applyTo` commits a write set to a tree at one sequence number: a
single write at the number of a tombstone is not hidden by it, so the prefixes come first.
-/

namespace SnapshotKv

/-- What a write set says about a key. -/
inductive Overlay where
  /-- The key was put. -/
  | value (v : Bytes)
  /-- The key was deleted, by itself or under a prefix. -/
  | deleted
  /-- The write set does not decide the key. -/
  | absent
  deriving DecidableEq, Repr

/-- The uncommitted writes of one transaction to one store; an entry without value is a deletion. -/
structure WriteSet where
  entries : SortedMap Bytes (Option Bytes) := .empty
  prefixes : List Bytes := []

namespace WriteSet

instance : Inhabited WriteSet := ⟨{}⟩

/-- The write set after a put. -/
def put (w : WriteSet) (key value : Bytes) : WriteSet :=
  { w with entries := w.entries.insert key (some value) }

/-- The write set after the deletion of a key. -/
def delete (w : WriteSet) (key : Bytes) : WriteSet :=
  { w with entries := w.entries.insert key none }

/-- The write set after the deletion of every key with a prefix. -/
def deletePrefix (w : WriteSet) (stem : Bytes) : WriteSet where
  entries := w.entries.filter (fun key _ => !stem.isPrefixOf key)
  prefixes := if w.prefixes.contains stem then w.prefixes else w.prefixes ++ [stem]

/-- What the write set says about a key. -/
def lookup (w : WriteSet) (key : Bytes) : Overlay :=
  match w.entries.get? key with
  | some (some v) => .value v
  | some none => .deleted
  | none => if w.prefixes.any (fun stem => stem.isPrefixOf key) then .deleted else .absent

/-- Whether the write set decides a key, so that the committed contents do not matter for it. -/
def shadows (w : WriteSet) (key : Bytes) : Bool := w.lookup key ≠ .absent

/-- Whether nothing was written. -/
def isEmpty (w : WriteSet) : Bool := w.entries.entries.isEmpty && w.prefixes.isEmpty

/-- The first key in scan order that lies between the bounds, passes `accept` and was put; no answer
when the search asks for a range that is refused. -/
def nextEntry? (w : WriteSet) (lower upper : Bound Bytes) (reverse : Bool)
    (accept : Bytes → Bool) : Option (Option (Bytes × Bytes)) :=
  w.entries.searchBetween? lower upper reverse fun key value =>
    value.bind fun v => if accept key then some (key, v) else none

/-- The first key in scan order that lies between the bounds, passes `accept` and was put. -/
def nextEntry (w : WriteSet) (lower upper : Bound Bytes) (reverse : Bool)
    (accept : Bytes → Bool) : Option (Bytes × Bytes) :=
  (w.nextEntry? lower upper reverse accept).join

/-- The tree after the write set was committed to it at a sequence number. -/
def applyTo (w : WriteSet) (t : VersionTree) (seqno : Nat) : VersionTree :=
  let t := w.prefixes.foldl (fun t stem => t.deletePrefix stem seqno) t
  w.entries.entries.foldl (fun t e => t.insert e.1 seqno e.2) t

end WriteSet

end SnapshotKv
