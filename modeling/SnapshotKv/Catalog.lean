import SnapshotKv.Json.Printer
import SnapshotKv.Media
import SnapshotKv.Path
import SnapshotKv.Text.Unsigned

/-!
# The catalog of a database

The catalog lists the stores of a database in the order of their creation, with the number each was
given and its prefix length, the next number to give, and the paths of the media classes. It is kept
as a JSON document: `Catalog.text` writes it and `Catalog.ofText?` reads it.
-/

namespace SnapshotKv

/-- What the catalog says about a store. -/
structure StoreRecord where
  name : String
  id : Nat
  prefixLength : Nat
  deriving DecidableEq, Repr

/-- The stores of a database and the paths of its media classes. -/
structure Catalog where
  nextId : Nat
  capacity : String
  staging : Option String
  pmem : Option String
  stores : List StoreRecord
  deriving DecidableEq, Repr

namespace Catalog

/-- The catalog of a database without stores. -/
def ofCapacity (capacity : String) : Catalog :=
  { nextId := 1, capacity, staging := none, pmem := none, stores := [] }

/-- The path of a media class, if it is configured. -/
def mediaPath? (c : Catalog) : MediaClass → Option String
  | .capacity => some c.capacity
  | .staging => c.staging
  | .pmem => c.pmem

/-- The catalog with the path of a media class set. -/
def setMediaPath (c : Catalog) (m : MediaClass) (path : String) : Catalog :=
  match m with
  | .capacity => { c with capacity := path }
  | .staging => { c with staging := some path }
  | .pmem => { c with pmem := some path }

/-- The first record of a name. -/
def find? (c : Catalog) (name : String) : Option StoreRecord := c.stores.find? (·.name == name)

/-- The path of the data file of a store. -/
def dataFile (c : Catalog) (name : String) : String := Path.join c.capacity (name ++ ".kvs")

/-! ## Writing -/

/-- The one format of the written catalog. -/
def format : Nat := 1

/-- A record as a JSON object. -/
def recordJson (r : StoreRecord) : Json :=
  Json.record
    [("name", .ofString r.name), ("id", .ofNat r.id), ("prefix_length", .ofNat r.prefixLength)]

/-- The catalog as a JSON object. A media class that is not configured has no field. -/
def json (c : Catalog) : Json :=
  Json.record <|
    [("format", .ofNat format), ("next_kvs_id", .ofNat c.nextId),
      ("capacity_path", .ofString c.capacity)]
    ++ (c.staging.map fun p => ("staging_path", Json.ofString p)).toList
    ++ (c.pmem.map fun p => ("pmem_path", Json.ofString p)).toList
    ++ [("kvs", .array (c.stores.map recordJson))]

/-- The written catalog. -/
def text (c : Catalog) : String := c.json.pretty 0

/-! ## Reading -/

/-- The record that a value describes. -/
def recordOfJson? (j : Json) : Option StoreRecord :=
  match j.recordFields? ["name", "id", "prefix_length"] false with
  | some [some name, some id, some len] => do
    let name ← name.text?
    let id ← id.natBelow? Unsigned.limit
    let prefixLength ← len.natBelow? Unsigned.limit
    pure { name, id, prefixLength }
  | _ => none

/-- The path that a field may hold; `null` stands for none. -/
def pathOfField? : Option Json → Option (Option String)
  | none | some .null => some none
  | some j => j.text?.map some

/-- The records that a field holds; a missing field holds none. -/
def recordsOfField? : Option Json → Option (List StoreRecord)
  | none => some []
  | some j => j.items.bind (·.mapM recordOfJson?)

/-- The format number and the catalog that a document describes. Unknown fields do not matter. -/
def ofJson? (j : Json) : Option (Nat × Catalog) :=
  let known :=
    ["format", "next_kvs_id", "capacity_path", "staging_path", "pmem_path", "kvs"]
  match j.recordFields? known false with
  | some [some format, some next, some capacity, staging, pmem, stores] => do
    let format ← format.natBelow? UInt32.size
    let nextId ← next.natBelow? Unsigned.limit
    let capacity ← capacity.text?
    let staging ← pathOfField? staging
    let pmem ← pathOfField? pmem
    let stores ← recordsOfField? stores
    pure (format, { nextId, capacity, staging, pmem, stores })
  | _ => none

/-- The catalog that a text describes, at a path that a fault names. -/
def ofText (text path : String) : Except Fault Catalog :=
  match (Json.read? text).bind ofJson? with
  | none => throw (Fault.malformedCatalog path)
  | some (f, c) => if f = format then pure c else throw (Fault.unknownCatalogFormat f path)

end Catalog

end SnapshotKv
