import SnapshotKv.Bytes

/-!
# Write locks

The table of the keys and prefixes that active transactions have claimed for writing, over all
stores of a database. The first writer wins: a claim is refused when a claim of another transaction
covers some of the same keys, and granted otherwise. A transaction never blocks itself.
-/

namespace SnapshotKv

/-- A claim of one transaction on a key, or on all keys under a prefix, of a store. -/
structure Lock where
  store : Nat
  key : Bytes
  owner : Nat
  deriving DecidableEq, Repr

/-- The claims on keys and the claims on prefixes. -/
structure LockTable where
  keys : List Lock := []
  prefixes : List Lock := []

namespace LockTable

instance : Inhabited LockTable := ⟨{}⟩

/-- The transaction that has claimed a key by itself. -/
def keyOwner? (t : LockTable) (store : Nat) (key : Bytes) : Option Nat :=
  (t.keys.find? (fun l => l.store == store && l.key == key)).map (·.owner)

/-- Whether another transaction has claimed a prefix of a key. -/
def prefixTaken (t : LockTable) (store : Nat) (key : Bytes) (owner : Nat) : Bool :=
  t.prefixes.any fun l => l.store == store && l.owner != owner && l.key.isPrefixOf key

/-- Claims a key; the answer tells whether the claim stands. -/
def lockKey (t : LockTable) (store : Nat) (key : Bytes) (owner : Nat) : Bool × LockTable :=
  if t.prefixTaken store key owner then (false, t)
  else match t.keyOwner? store key with
    | some holder => (holder == owner, t)
    | none => (true, { t with keys := t.keys ++ [⟨store, key, owner⟩] })

/-- Claims all keys under a prefix; the answer tells whether the claim stands. -/
def lockPrefix (t : LockTable) (store : Nat) (stem : Bytes) (owner : Nat) : Bool × LockTable :=
  let keyTaken := t.keys.any fun l => l.store == store && l.owner != owner && stem.isPrefixOf l.key
  let overlap := t.prefixes.any fun l =>
    l.store == store && l.owner != owner && (stem.isPrefixOf l.key || l.key.isPrefixOf stem)
  if keyTaken || overlap then (false, t)
  else (true, { t with prefixes := t.prefixes ++ [⟨store, stem, owner⟩] })

/-- Gives up every claim of a transaction. -/
def release (t : LockTable) (owner : Nat) : LockTable where
  keys := t.keys.filter (fun l => l.owner != owner)
  prefixes := t.prefixes.filter (fun l => l.owner != owner)

/-- The number of claims. -/
def held (t : LockTable) : Nat := t.keys.length + t.prefixes.length

end LockTable

end SnapshotKv
