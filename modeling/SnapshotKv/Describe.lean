import SnapshotKv.Host
import SnapshotKv.Text.Quoted

/-!
# Descriptions

The texts in which the things of the public interface present themselves: a name, and in braces the
facts that matter.
-/

namespace SnapshotKv

/-- A name and some facts in braces. -/
def describe (name : String) (facts : List (String × String)) : String :=
  name ++ " \x7b " ++ ", ".intercalate (facts.map fun e => e.1 ++ ": " ++ e.2) ++ " \x7d"

/-- The name of a state as it stands in a description. -/
def TxnState.title : TxnState → String
  | .invalid => "Invalid"
  | .active => "Active"
  | .committed => "Committed"
  | .aborted => "Aborted"

/-- The description of an open database. -/
def Database.describe (db : Database) : String :=
  SnapshotKv.describe "Kvdb" [("home", Text.quoted db.home)]

/-- The description of an open store. -/
def Host.StoreInfo.describe (s : Host.StoreInfo) : String :=
  SnapshotKv.describe "Kvs"
    [("name", Text.quoted s.name), ("prefix_length", toString s.prefixLength)]

/-- The description of a transaction in a state. -/
def TxnState.describe (s : TxnState) : String :=
  SnapshotKv.describe "Transaction" [("state", s.title)]

/-- The description of a cursor. -/
def Cursor.describe (c : Cursor) : String :=
  SnapshotKv.describe "Cursor" [("path", c.path.name), ("reverse", toString c.reverse)]

/-- The description of a window. -/
def Window.describe (w : Window) : String :=
  SnapshotKv.describe "ByteBuf"
    [("position", toString w.position), ("limit", toString w.limit),
      ("capacity", toString w.capacity)]

end SnapshotKv
