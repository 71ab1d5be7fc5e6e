import SnapshotKv.Fault

/-!
# Media classes

The storage tiers of a database. Each has a written name and a parameter that sets its path.
-/

namespace SnapshotKv

/-- A storage tier. Data files lie on the capacity tier; the others are only recorded. -/
inductive MediaClass where
  | capacity | staging | pmem
  deriving DecidableEq, Repr

namespace MediaClass

/-- Every class, in the order in which they are listed. -/
def all : List MediaClass := [.capacity, .staging, .pmem]

/-- The written name of a class. -/
def name : MediaClass → String
  | .capacity => "capacity"
  | .staging => "staging"
  | .pmem => "pmem"

/-- The parameter that holds the path of a class. -/
def pathParam (c : MediaClass) : String := "storage." ++ c.name ++ ".path"

/-- The class of a written name. -/
def ofName (s : String) : Except Fault MediaClass :=
  match all.find? (fun c => c.name == s) with
  | some c => pure c
  | none => throw (Fault.unknownMediaClass s)

end MediaClass

/-- The use of a media class: the bytes of the files in its directory, and the directory. How many
bytes the file system sets aside for them is left out, for files here are their contents and have no
blocks. -/
structure MediaUsage where
  usedBytes : Nat
  path : String
  deriving DecidableEq, Repr

end SnapshotKv
