import SnapshotKv.Database
import SnapshotKv.DataFile
import SnapshotKv.FileSystem
import SnapshotKv.Text.Utf8

/-!
# Databases on disk

A database lives in a home directory: the catalog, the lock file, an optional configuration, and one
data file per store in the capacity directory. Files are replaced by writing a temporary file beside
them and renaming it, so a file is either the old or the new one. While a database is open the lock
of its lock file is held.

The calls of this module on closed databases are attempts on the file system; those on an open
database are attempts on a `Site`, the database together with its file system.
-/

namespace SnapshotKv

/-- An open database on its file system. -/
structure Site where
  db : Database
  fs : FileSystem

namespace Storage

/-- The names of the files in a home. -/
def catalogFile (home : String) : String := Path.join home "kvdb.meta"
def lockFile (home : String) : String := Path.join home "kvdb.lock"
def configFile (home : String) : String := Path.join home "kvdb.conf"

/-- Puts a file in place of another: the contents go to a temporary file, which is then renamed. -/
def replaceFile (path : String) (data : Bytes) : Attempt FileSystem Unit := do
  let temporary := path ++ ".tmp"
  Attempt.call temporary (·.writeFile temporary data)
  Attempt.call path (·.rename temporary path)

/-- Removes a file that may be missing. -/
def removeIfExists (path : String) : Attempt FileSystem Unit :=
  Attempt.call path fun fs =>
    match fs.removeFile path with
    | .error e => if e = Errno.noEntry then .ok fs else .error e
    | r => r

/-- The text of a file; a file that is not UTF-8 reads as a failed call. -/
def readText (fs : FileSystem) (path : String) : Except Errno String := do
  let data ← fs.contents path
  match Utf8.decode? data with
  | some s => pure s
  | none => throw Errno.inputOutput

/-! ## The files of a home -/

/-- Whether a home holds a database. -/
def hasDatabase (fs : FileSystem) (home : String) : Bool := fs.isFile (catalogFile home)

/-- Refused when a home holds no database. -/
def requireDatabase (home : String) : Attempt FileSystem Unit := do
  let fs ← get
  if !hasDatabase fs home then throw (Fault.noDatabase home)

/-- The catalog of a home. -/
def loadCatalog (home : String) : Attempt FileSystem Catalog := do
  let path := catalogFile home
  let text ← Attempt.ask path (readText · path)
  Attempt.check (Catalog.ofText text path)

/-- Writes the catalog of a home. -/
def saveCatalog (home : String) (c : Catalog) : Attempt FileSystem Unit :=
  replaceFile (catalogFile home) (Bytes.ofText c.text)

/-- The configuration of a home; a missing file configures nothing. -/
def loadConfig (home : String) : Attempt FileSystem Config := do
  let path := configFile home
  let fs ← get
  match readText fs path with
  | .error e => if e = Errno.noEntry then pure {} else throw (Fault.system e path)
  | .ok text => match Config.ofText? text with
    | some c => pure c
    | none => throw (Fault.malformedConfig path)

/-- The configuration of the runtime in a file. -/
def loadGlobalConfig (path : String) : Attempt FileSystem Layer := do
  let text ← Attempt.ask path (readText · path)
  match Config.globalOfText? text with
  | some layer => pure layer
  | none => throw (Fault.malformedGlobalConfig path)

/-- The prefix length and the records of a data file. A directory in its place holds no bytes. -/
def loadDataFile (path : String) : Attempt FileSystem (Nat × List DataFile.Record) := do
  let data ← Attempt.ask path fun fs => match fs.stat path with
    | .ok .directory => .ok []
    | _ => fs.contents path
  Attempt.check ((DataFile.decode data).mapError (·.located path))

/-- Writes a data file. -/
def saveDataFile (path : String) (prefixLength : Nat) (records : List DataFile.Record) :
    Attempt FileSystem Unit :=
  replaceFile path (DataFile.encode prefixLength records)

/-- An attempt whose faults are about a store. -/
def about {σ α : Type} (store : String) (a : Attempt σ α) : Attempt σ α :=
  Attempt.ofStep fun s =>
    let r := a.on s
    (r.1.mapError (·.about store), r.2)

/-- The contents of a store as its data file has them; a missing file holds nothing. Everything that
was loaded has the sequence number zero. -/
def loadTree (c : Catalog) (r : StoreRecord) : Attempt FileSystem VersionTree := do
  let path := c.dataFile r.name
  let fs ← get
  if !fs.exists? path then pure {}
  else
    let (prefixLength, records) ← about r.name (loadDataFile path)
    if prefixLength ≠ r.prefixLength then throw (Fault.prefixDisagrees r.name path)
    pure (records.foldl (fun t e => t.insert e.1 0 (some e.2)) {})

/-! ## The lock of a home -/

/-- Takes the lock of a home and answers its inode. -/
def lockHome (home : String) : Attempt FileSystem Nat :=
  let path := lockFile home
  Attempt.ofStep fun fs =>
    match fs.lockFile path with
    | (.ok inode, fs') => (.ok inode, fs')
    | (.error e, fs') =>
      (.error (if e = Errno.again then Fault.openElsewhere path else Fault.system e path), fs')

/-- Runs an attempt under the lock of a home. The lock is given up afterwards, except after a
success that `keeps` it. -/
def underLock {α : Type} (home : String) (keeps : Bool) (a : Nat → Attempt FileSystem α) :
    Attempt FileSystem α := do
  let inode ← lockHome home
  Attempt.ofStep fun fs =>
    match (a inode).on fs with
    | (.ok x, fs') => (.ok x, if keeps then fs' else fs'.unlock inode)
    | (.error e, fs') => (.error e, fs'.unlock inode)

/-! ## Closed databases -/

/-- A path below the home, unless it is absolute. -/
def resolve (home path : String) : String := Path.join home path

/-- Makes a directory and those above it. -/
def makeDirectories (path : String) : Attempt FileSystem Unit :=
  Attempt.ofStep fun fs =>
    let r := fs.makeDirectories path
    (r.1.mapError (Fault.system · path), r.2)

/-- Makes a database in an existing directory. The paths of its media classes are stored absolute.
-/
def create (home : String) (params : List String) : Attempt FileSystem Unit := do
  let fs ← get
  if !fs.isDirectory home then throw (Fault.homeMissing home)
  if hasDatabase fs home then throw (Fault.databaseExists home)
  let given ← Attempt.check (StorageSettings.scheme.ofPairs params)
  let base ← Attempt.ask home (·.canonical home)
  let c : Catalog :=
    { Catalog.ofCapacity (resolve base (given.capacity.getD "capacity")) with
      staging := given.staging.map (resolve base)
      pmem := given.pmem.map (resolve base) }
  (MediaClass.all.filterMap c.mediaPath?).forM makeDirectories
  saveCatalog home c

/-- Removes a database: its data files, its catalog and its lock file. -/
def destroy (home : String) : Attempt FileSystem Unit := do
  requireDatabase home
  underLock home false fun _ => do
    let c ← loadCatalog home
    c.stores.forM (fun r => removeIfExists (c.dataFile r.name))
    removeIfExists (catalogFile home)
  removeIfExists (lockFile home)

/-- Adds the path of one media class to a catalog, if a path is given; the flag tells whether any
was. -/
def addMediaPath (home : String) (acc : Bool × Catalog) (m : MediaClass) (path : Option String) :
    Attempt FileSystem (Bool × Catalog) :=
  match path with
  | none => pure acc
  | some path => do
    if (acc.2.mediaPath? m).isSome then throw (Fault.mediaClassExists m.name)
    let base ← Attempt.ask home (·.canonical home)
    makeDirectories (resolve base path)
    pure (true, acc.2.setMediaPath m (resolve base path))

/-- Adds media classes to a database. -/
def addStorage (home : String) (params : List String) : Attempt FileSystem Unit := do
  requireDatabase home
  underLock home false fun _ => do
    let given ← Attempt.check (StorageSettings.scheme.ofPairs params)
    if given.capacity.isSome then throw Fault.capacityFixed
    let c ← loadCatalog home
    let acc ← addMediaPath home (false, c) .staging given.staging
    let (changed, c) ← addMediaPath home acc .pmem given.pmem
    if !changed then throw Fault.noMediaPath
    saveCatalog home c

/-- Adds a store of the catalog to a database that is being opened. -/
def attach (db : Database) (r : StoreRecord) (tree : VersionTree) : Database :=
  { db with
    cells := db.cells.add (Store.ofRecord r tree)
    stores := db.stores.insert r.name db.cells.nextId }

/-- Opens a database: the section of the configuration applies first, then the parameters. -/
def openDatabase (home : String) (params : List String) : Attempt FileSystem Database := do
  requireDatabase home
  let config ← loadConfig home
  let settings ← Attempt.check (OpenSettings.scheme.ofLayers [config.database] params)
  underLock home true fun lock => do
    let catalog ← loadCatalog home
    catalog.stores.foldlM
      (fun db r => do
        let tree ← loadTree catalog r
        pure (attach db r tree))
      { home, settings, config, catalog, lock }

/-! ## Open databases -/

/-- An attempt on the file system of a site. -/
def onFiles {α : Type} (a : Attempt FileSystem α) : Attempt Site α :=
  Attempt.within Site.fs (fun s fs => { s with fs }) a

/-- An attempt on the database of a site. -/
def onDatabase {α : Type} (a : Attempt Database α) : Attempt Site α :=
  Attempt.within Site.db (fun s db => { s with db }) a

/-- Changes the database of a site. -/
def update (f : Database → Database) : Attempt Site Unit := modify fun s => { s with db := f s.db }

/-- Writes the data file of a store whose commits it lacks. -/
def persistCell (cell : Nat) : Attempt Site Unit := do
  let site ← get
  match site.db.cells.get? cell with
  | some s =>
    if s.dirty then
      about s.name <| onFiles <|
        saveDataFile (site.db.catalog.dataFile s.name) s.prefixLength
          (s.tree.liveRecords site.db.published)
      update fun db => db.modifyStore cell (fun s => { s with dirty := false })
  | none => pure ()

/-- Writes the data files that lack commits, in the order of the names; the first failure ends it.
-/
def persist : Attempt Site Unit := do
  let site ← get
  if !site.db.settings.readOnly then site.db.stores.values.forM persistCell

/-- Writes the committed contents to disk. -/
def sync : Attempt Site Unit := do
  let site ← get
  Attempt.check site.db.checkOpen
  persist

/-- Closes a database: its contents are written and its lock is given up, whether or not the writing
succeeded. Closing again does nothing. -/
def close : Attempt Site Unit := do
  let site ← get
  if !site.db.closed then
    update fun db => { db with closed := true }
    Attempt.ofStep fun s =>
      let r := persist.on s
      (r.1, { r.2 with fs := r.2.fs.unlock r.2.db.lock })

/-- Makes a store. The catalog lists it from before its data file is written; the entry is taken
back when the catalog cannot be saved. -/
def createStore (name : String) (params : List String) : Attempt Site Unit := do
  let site ← get
  Attempt.check site.db.checkOpen
  Attempt.check site.db.checkWritable
  Attempt.check (Limits.checkName name)
  let shape ← Attempt.check (StoreShape.scheme.ofPairs params)
  let c := site.db.catalog
  if (c.find? name).isSome then throw (Fault.storeExists name)
  if c.stores.length ≥ Limits.storeCount then throw (Fault.tooManyStores name Limits.storeCount)
  let r : StoreRecord := { name, id := c.nextId, prefixLength := shape.prefixLength }
  let c' := { c with nextId := c.nextId + 1, stores := c.stores ++ [r] }
  update fun db => { db with catalog := c' }
  onFiles (saveDataFile (c'.dataFile name) r.prefixLength [])
  Attempt.ofStep fun s => match (onFiles (saveCatalog site.db.home c')).on s with
    | (.ok (), s') => (.ok (), s')
    | (.error e, s') => (.error e, { s' with db := { s'.db with
        catalog := { c' with stores := c.stores } } })
  update fun db => attach db r {}

/-- Drops a store that is not open: it leaves the catalog, its data file is removed, and it can no
longer be found. -/
def dropStore (name : String) : Attempt Site Unit := do
  let site ← get
  Attempt.check site.db.checkOpen
  Attempt.check site.db.checkWritable
  let (_, s) ← Attempt.check (site.db.storeNamed name)
  if s.isOpen then throw (Fault.storeInUse name)
  let c := site.db.catalog
  let c' := { c with stores := c.stores.filter (fun r => r.name != name) }
  onFiles (saveCatalog site.db.home c')
  update fun db => { db with catalog := c' }
  onFiles (removeIfExists (c'.dataFile name))
  update fun db => { db with stores := db.stores.erase name }

/-- The use of a media class. -/
def mediaUsage (m : MediaClass) : Attempt Site MediaUsage := do
  let site ← get
  match site.db.catalog.mediaPath? m with
  | none => throw (Fault.noMediaClass m.name)
  | some path => do
    let entries ← onFiles (Attempt.ask path (·.readDirectory path))
    let sizes := entries.map fun e => match e.2 with
      | .file _ data => data.length
      | .directory => 0
    pure { usedBytes := sizes.foldl (· + ·) 0, path }

end Storage

end SnapshotKv
