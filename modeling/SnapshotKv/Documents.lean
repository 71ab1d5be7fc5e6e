import SnapshotKv.Database
import SnapshotKv.Json.Printer

/-!
# Facts as JSON documents

How the program shows records, reports and faults to other programs. A byte string that is not UTF-8
is shown with replacement characters, so its length stands beside it where it matters.
-/

namespace SnapshotKv

/-- The report on compaction. -/
def Database.CompactStatus.json (s : Database.CompactStatus) : Json :=
  .record
    [("samp_lwm", .ofNat s.lowMark), ("samp_hwm", .ofNat s.highMark),
      ("samp_curr", .ofNat s.current), ("active", .bool s.active), ("canceled", .bool s.canceled)]

/-- The use of a media class. -/
def MediaUsage.json (u : MediaUsage) : Json :=
  .record [("used_bytes", .ofNat u.usedBytes), ("path", .ofString u.path)]

/-- The facts of a fault that are not always there, each under its name. -/
def Fault.details (f : Fault) : List (String × Json) :=
  (f.store.map fun s => ("kvs", Json.ofString s)).toList
    ++ (f.path.map fun p => ("path", Json.ofString p)).toList
    ++ (if f.expired then [("context", .ofString "txn_expired")] else [])
    ++ (if f.causes.isEmpty then []
        else [("causes", .array (f.causes.map fun c => .ofString c.words))])

/-- A fault, with the words of its kind when it has none of its own. -/
def Fault.json (f : Fault) : Json :=
  .record [("error", .record
    ([("kind", .ofString f.kind.name), ("message", .ofString (f.message.getD f.kind.words)),
      ("errno", .ofInt f.errno)] ++ f.details))]

end SnapshotKv
