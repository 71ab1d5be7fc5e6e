/-!
# The version of the library
-/

namespace SnapshotKv.Version

def major : Nat := 0
def minor : Nat := 1
def patch : Nat := 0

/-- The version as it is written. -/
def text : String := ".".intercalate ([major, minor, patch].map toString)

end SnapshotKv.Version
