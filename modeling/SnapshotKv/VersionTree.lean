import SnapshotKv.Bound
import SnapshotKv.Bytes

/-!
# Version trees

The committed contents of one store. A `VersionTree` keeps for each key the list of its versions, in
the order they were written, and beside them the prefix tombstones. A reader chooses a view, a
sequence number, and sees of each key the last version at or below it, unless a tombstone that is
newer than that version and not newer than the view covers the key.

`VersionTree.prune` drops what no view at or above a horizon can see.
-/

namespace SnapshotKv

/-- One version of a key: its sequence number, and its value or `none` for a deletion. -/
structure Version where
  seqno : Nat
  value : Option Bytes
  deriving DecidableEq, Repr

/-- The deletion, at one sequence number, of every key with a prefix. -/
structure Tombstone where
  stem : Bytes
  seqno : Nat
  deriving DecidableEq, Repr

/-- Whether one of two byte strings is a prefix of the other: some key starts with both. -/
def Bytes.comparable (a b : Bytes) : Bool := a.isPrefixOf b || b.isPrefixOf a

/-- How much a tree holds: versions and tombstones, and keys with a value. -/
structure TreeStats where
  versions : Nat
  liveKeys : Nat
  deriving DecidableEq, Repr

/-- The committed versions of the keys of a store, and its prefix tombstones. -/
structure VersionTree where
  versions : SortedMap Bytes (List Version) := .empty
  tombstones : List Tombstone := []

namespace VersionTree

instance : Inhabited VersionTree := ⟨{}⟩

/-- The versions of a key, oldest first. -/
def versionsOf (t : VersionTree) (key : Bytes) : List Version := (t.versions.get? key).getD []

/-- A list of versions with one more; a second version at the newest number replaces the first. -/
def pushVersion (vs : List Version) (v : Version) : List Version :=
  match vs.getLast? with
  | some last => if last.seqno = v.seqno then vs.dropLast ++ [v] else vs ++ [v]
  | none => [v]

/-- The tree after a key was given a value, or deleted, at a sequence number. -/
def insert (t : VersionTree) (key : Bytes) (seqno : Nat) (value : Option Bytes) : VersionTree :=
  { t with versions := t.versions.insert key (pushVersion (t.versionsOf key) ⟨seqno, value⟩) }

/-- The tree after every key with a prefix was deleted at a sequence number. -/
def deletePrefix (t : VersionTree) (stem : Bytes) (seqno : Nat) : VersionTree :=
  { t with tombstones := t.tombstones ++ [⟨stem, seqno⟩] }

/-- The last version of a list that a view reaches. -/
def versionAt? (vs : List Version) (view : Nat) : Option Version :=
  vs.reverse.find? (fun v => v.seqno ≤ view)

/-- Whether a tombstone at or below the view removed the version of a key. -/
def isHidden (t : VersionTree) (key : Bytes) (v : Version) (view : Nat) : Bool :=
  t.tombstones.any fun s => s.seqno ≤ view && v.seqno < s.seqno && s.stem.isPrefixOf key

/-- What a view sees among the versions of a key. -/
def visible (t : VersionTree) (key : Bytes) (vs : List Version) (view : Nat) : Option Bytes :=
  (versionAt? vs view).bind fun v => if t.isHidden key v view then none else v.value

/-- The value that a view sees under a key. -/
def get (t : VersionTree) (key : Bytes) (view : Nat) : Option Bytes :=
  t.visible key (t.versionsOf key) view

/-- The greatest of a list of sequence numbers. -/
def newest (seqnos : List Nat) : Option Nat := seqnos.max?

/-- The sequence number of the newest change to a key, prefix deletions included. -/
def latestWrite (t : VersionTree) (key : Bytes) : Option Nat :=
  newest (((t.versionsOf key).getLast?.map (·.seqno)).toList
    ++ (t.tombstones.filter (fun s => s.stem.isPrefixOf key)).map (·.seqno))

/-- The upper bound of the keys that start with a prefix. -/
def prefixEnd (stem : Bytes) : Bound Bytes :=
  match stem.successor? with
  | some next => .excluded next
  | none => .unbounded

/-- The sequence number of the newest change to any key under a prefix. A prefix deletion counts
when its own prefix is comparable with this one. -/
def latestWriteUnder (t : VersionTree) (stem : Bytes) : Option Nat :=
  newest ((((t.versions.range? (.included stem) (prefixEnd stem)).getD []).filterMap
      (fun e => e.2.getLast?.map (·.seqno)))
    ++ (t.tombstones.filter (fun s => s.stem.comparable stem)).map (·.seqno))

/-- Whether a prefix deletion newer than a view may have removed keys that match a filter. -/
def prefixDeletedSince (t : VersionTree) (filter : Bytes) (view : Nat) : Bool :=
  t.tombstones.any fun s => view < s.seqno && s.stem.comparable filter

/-- The first key in scan order that lies between the bounds, passes `accept` and has a value in the
view; no answer when the search asks for a range that is refused. -/
def nextVisible? (t : VersionTree) (lower upper : Bound Bytes) (reverse : Bool) (view : Nat)
    (accept : Bytes → Bool) : Option (Option (Bytes × Bytes)) :=
  t.versions.searchBetween? lower upper reverse fun key vs =>
    if accept key then (t.visible key vs view).map (fun value => (key, value)) else none

/-- The first key in scan order that lies between the bounds, passes `accept` and has a value in the
view. -/
def nextVisible (t : VersionTree) (lower upper : Bound Bytes) (reverse : Bool) (view : Nat)
    (accept : Bytes → Bool) : Option (Bytes × Bytes) :=
  (t.nextVisible? lower upper reverse view accept).join

/-- The records that a view sees, in key order. -/
def liveRecords (t : VersionTree) (view : Nat) : List (Bytes × Bytes) :=
  t.versions.entries.filterMap fun e => (t.visible e.1 e.2 view).map (fun value => (e.1, value))

/-- How much the tree holds, and how many keys a view sees. -/
def stats (t : VersionTree) (view : Nat) : TreeStats where
  versions := t.versions.values.flatten.length + t.tombstones.length
  liveKeys := (t.liveRecords view).length

/-! ## Pruning -/

/-- A list of versions from the last one at or below the horizon on; the whole list when there is
none. -/
def fromHorizon (vs : List Version) (horizon : Nat) : List Version :=
  match vs.reverse.findIdx? (fun v => v.seqno ≤ horizon) with
  | some back => vs.drop (vs.length - 1 - back)
  | none => vs

/-- The versions of a key that views at or above the horizon may need. The one at the horizon goes
too when it is a deletion or a settled tombstone hides it. -/
def pruneVersions (settled : List Tombstone) (horizon : Nat) (key : Bytes) (vs : List Version) :
    List Version :=
  match fromHorizon vs horizon with
  | [] => []
  | first :: rest =>
    if first.seqno ≤ horizon ∧
        (first.value.isNone ∨
          settled.any (fun s => first.seqno < s.seqno && s.stem.isPrefixOf key)) then rest
    else first :: rest

/-- The tree without the versions and tombstones that no view at or above the horizon needs, and the
number of versions that went. -/
def prune (t : VersionTree) (horizon : Nat) : Nat × VersionTree :=
  let settled := t.tombstones.filter (fun s => s.seqno ≤ horizon)
  let kept := t.versions.filterMap fun key vs =>
    match pruneVersions settled horizon key vs with
    | [] => none
    | vs' => some vs'
  let before := t.versions.values.flatten.length
  let after := kept.values.flatten.length
  (before - after,
    { versions := kept, tombstones := t.tombstones.filter (fun s => horizon < s.seqno) })

end VersionTree

end SnapshotKv
