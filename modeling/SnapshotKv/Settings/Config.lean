import SnapshotKv.Json.Document
import SnapshotKv.Settings.Scheme

/-!
# Configuration files

The configuration of a database has a section for opening the database and a section for each store,
among which `default` applies to every store first (`Config.layers`). The file is an object of the
two known fields, or an array of them in order; each may be left out, none may come twice, and no
other may come at all. The configuration of the runtime is a single object.
-/

namespace SnapshotKv

/-- The contents of a configuration file. -/
structure Config where
  database : Layer := .empty
  stores : SortedMap String Layer := .empty

namespace Config

/-- The section that applies to every store. -/
def defaultSection : String := "default"

/-- The fields of an object, of one name the last. -/
def layer? (j : Json) : Option Layer := j.namedFields?.map SortedMap.ofList

/-- The sections of an object, of one name the last. -/
def sections? (j : Json) : Option (SortedMap String Layer) := do
  let fields ← j.namedFields?
  let sections ← fields.mapM fun e => (layer? e.2).map (fun l => (e.1, l))
  pure (SortedMap.ofList sections)

/-- What a field holds: nothing when it is missing, none when it does not read. -/
def field? {α : Type} (read : Json → Option α) (missing : α) : Option Json → Option α
  | some j => read j
  | none => some missing

/-- The configuration that a document describes. -/
def ofJson? (j : Json) : Option Config :=
  if j.isSound Json.maxDepth then
    match j.recordFields? ["kvdb", "kvs"] true with
    | some [d, s] => do
      let database ← field? layer? .empty d
      let stores ← field? sections? .empty s
      pure { database, stores }
    | _ => none
  else none

/-- The configuration that a text describes. -/
def ofText? (text : String) : Option Config := (Json.read? text).bind ofJson?

/-- The sections that apply to a store: the default one, then the store's own. -/
def layers (c : Config) (name : String) : List Layer :=
  (c.stores.get? defaultSection).toList
    ++ (if name = defaultSection then [] else (c.stores.get? name).toList)

/-- The fields of a runtime configuration. -/
def globalOfText? (text : String) : Option Layer := do
  let j ← Json.read? text
  if j.isSound Json.maxDepth then layer? j else none

end Config

end SnapshotKv
