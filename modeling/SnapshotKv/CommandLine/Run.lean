import SnapshotKv.CommandLine.Completion
import SnapshotKv.Documents
import SnapshotKv.Host
import SnapshotKv.Version

/-!
# Running commands

`CommandLine.run` runs one invocation of the program on a file system. Every command opens the
database for itself and closes it before it answers; a command that fails closes it too. The answer
is one JSON document on the output, or a fault as one on the error output; the exit code of a fault
is that of its kind.
-/

namespace SnapshotKv.CommandLine

/-- What a program shows on one of its outputs. -/
inductive Display where
  | nothing
  /-- A document on a line of its own. -/
  | document (j : Json)
  /-- A text of one line. -/
  | line (s : String)
  /-- A longer text for people to read. -/
  | page (s : String)

/-- The characters that a display puts out. -/
def Display.text : Display → String
  | .nothing => ""
  | .document j => j.compact ++ "\n"
  | .line s => s ++ "\n"
  | .page s => s

/-- How a run of the program ends. -/
structure Outcome where
  exitCode : Nat
  output : Display := .nothing
  errors : Display := .nothing

/-! ## One command -/

/-- An attempt after which a database is closed. After a fault that fault is the answer, whatever
closing says. -/
def closing {α : Type} (d : Nat) (a : Attempt Host α) : Attempt Host α :=
  Attempt.ofStep fun h => match a.on h with
    | (.ok x, h') =>
      let closed := (Host.closeDatabase d).on h'
      (closed.1.map fun _ => x, closed.2)
    | (.error e, h') => (.error e, ((Host.closeDatabase d).on h').2)

/-- An attempt on the database of a home, which is open for it alone. -/
def withDatabase {α : Type} (home : String) (params : List String) (a : Nat → Attempt Host α) :
    Attempt Host α := do
  let d ← Host.openDatabase home params
  closing d (a d)

/-- An attempt on a store of the database of a home. -/
def withStore {α : Type} (home : String) (params : List String) (name : String)
    (a : StoreRef → Attempt Host α) : Attempt Host α :=
  withDatabase home params fun d => do
    let s ← Host.openStore d name []
    let x ← a s
    Host.closeStore s
    pure x

/-- A byte string as text in a document. -/
def bytesJson (b : Bytes) : Json := .ofString (Utf8.decodeLossy b)

/-- A record in a document. -/
def recordJson (r : Bytes × Bytes) : Json :=
  .record [("key", bytesJson r.1), ("value", bytesJson r.2)]

/-- Up to a number of records from a cursor on; all of them when there is no number, given more fuel
than the store has records. -/
def takeRecords (c : CursorRef) : (fuel : Nat) → Attempt Host (List (Bytes × Bytes))
  | 0 => pure []
  | fuel + 1 => do
    match ← Host.read c with
    | some r => do
      let rest ← takeRecords c fuel
      pure (r :: rest)
    | none => pure []

/-- The number of keys that the stores of a database have in any version. -/
def keyCount (db : Database) : Nat := (db.attached.flatMap (·.tree.versions.keys)).length

/-- The records that a scan lists. -/
def scanRecords (s : StoreRef) (filter start : Option String) (reverse : Bool)
    (limit : Option Nat) : Attempt Host (List (Bytes × Bytes)) := do
  let c ← Host.openCursor s none (Bytes.ofText (filter.getD "")) reverse
  if let some key := start then
    let _ ← Host.seek c (Bytes.ofText key)
  let keys ← Host.ask s.database fun db => pure (keyCount db)
  let records ← takeRecords c (limit.getD (keys + 1))
  Host.closeCursor c
  pure records

/-- What a store is, as the database shows it. -/
def storeJson (d : Nat) (name : String) : Attempt Host Json := do
  let s ← Host.openStore d name []
  let info ← Host.storeInfo s
  Host.closeStore s
  pure (.record [("name", .ofString name), ("prefix_length", .ofNat info.prefixLength)])

/-- The use of a media class under its name, if it is configured. -/
def mediaJson (d : Nat) (m : MediaClass) : Attempt Host (List (String × Json)) := do
  let path ← Host.ask d fun db => pure (db.catalog.mediaPath? m)
  if path.isSome then
    let usage ← Host.onSite d (Storage.mediaUsage m)
    pure [(m.name, usage.json)]
  else pure []

/-- What a database is. -/
def databaseJson (d : Nat) : Attempt Host Json := do
  let names ← Host.ask d Database.storeNames
  let stores ← names.mapM (storeJson d)
  let media ← MediaClass.all.mapM (mediaJson d)
  let home ← Host.ask d fun db => pure db.home
  let status ← Host.ask d Database.compactStatus
  let readOnly ← Host.ask d (·.param "read_only")
  let timeout ← Host.ask d (·.param "txn_timeout")
  pure <| .record
    [("home", .ofString home), ("kvs", .array stores), ("mclass", .record media.flatten),
      ("compact", status.json),
      ("params", .record [("read_only", .ofString readOnly), ("txn_timeout", .ofString timeout)])]

/-- The version as a document. -/
def versionJson : Json :=
  .record
    [("name", .ofString programName), ("version", .ofString Version.text),
      ("major", .ofNat Version.major), ("minor", .ofNat Version.minor),
      ("patch", .ofNat Version.patch)]

/-- Compacts a database; answers what went and the report afterwards. -/
def compactJson (d : Nat) : Attempt Host Json := do
  let removed ← Host.onDatabase d Database.compact
  let status ← Host.ask d Database.compactStatus
  pure (.record [("removed", .ofNat removed), ("status", status.json)])

/-- Runs a command and answers what it shows. -/
def Invocation.run (i : Invocation) : Attempt Host Display :=
  match i.command with
  | .version => pure (.document versionJson)
  | .completion shell => pure (.page (completionScript shell))
  | .createDatabase => do
    Host.createDatabase i.home i.params
    pure (.document (.record [("home", .ofString i.home), ("created", .bool true)]))
  | .dropDatabase => do
    Host.destroyDatabase i.home
    pure (.document (.record [("home", .ofString i.home), ("dropped", .bool true)]))
  | .showDatabase => do
    let info ← withDatabase i.home i.params databaseJson
    pure (.document info)
  | .compactDatabase => do
    let report ← withDatabase i.home i.params compactJson
    pure (.document report)
  | .createStore name prefixLength => do
    withDatabase i.home i.params fun d =>
      Host.onSite d (Storage.createStore name ["prefix.length=" ++ toString prefixLength])
    pure (.document (.record
      [("kvs", .ofString name), ("prefix_length", .ofNat prefixLength), ("created", .bool true)]))
  | .dropStore name => do
    withDatabase i.home i.params fun d => Host.onSite d (Storage.dropStore name)
    pure (.document (.record [("kvs", .ofString name), ("dropped", .bool true)]))
  | .listStores => do
    let names ← withDatabase i.home i.params fun d => Host.ask d Database.storeNames
    pure (.document (.record [("kvs", .array (names.map .ofString))]))
  | .put store key value => do
    withStore i.home i.params store fun s =>
      Host.put s none (Bytes.ofText key) (Bytes.ofText value)
    pure (.document (.record
      [("kvs", .ofString store), ("key", .ofString key), ("stored", .bool true)]))
  | .get store key => do
    let value ← withStore i.home i.params store fun s => Host.get s none (Bytes.ofText key)
    match value with
    | none => throw (Fault.keyMissing store)
    | some v =>
      pure (.document (.record
        [("kvs", .ofString store), ("key", .ofString key), ("value", bytesJson v),
          ("len", .ofNat v.length)]))
  | .delete store key wholePrefix => do
    withStore i.home i.params store fun s =>
      if wholePrefix then Host.deletePrefix s none (Bytes.ofText key)
      else Host.delete s none (Bytes.ofText key)
    pure (.document (.record
      [("kvs", .ofString store), ("key", .ofString key), ("prefix", .bool wholePrefix),
        ("deleted", .bool true)]))
  | .scan store filter reverse start limit => do
    let records ← withStore i.home i.params store fun s =>
      scanRecords s filter start reverse limit
    pure (.document (.record
      [("kvs", .ofString store), ("count", .ofNat records.length),
        ("records", .array (records.map recordJson))]))

/-! ## The program -/

/-- The end of a run that reading the words already decides. -/
def Stop.outcome : Stop → Outcome
  | .misuse m =>
    let f := Fault.usage m.message
    { exitCode := f.kind.exitCode, errors := .document f.json }
  | .help page => { exitCode := 0, output := .page page }
  | .bare page => { exitCode := 2, errors := .page page }
  | .version => { exitCode := 0, output := .line (programName ++ " " ++ Version.text) }

/-- The end of a run with the result of a command. -/
def Outcome.ofResult : Except Fault Display → Outcome
  | .ok output => { exitCode := 0, output }
  | .error f => { exitCode := f.kind.exitCode, errors := .document f.json }

/-- Runs a command on a file system as a process of its own. -/
def runCommand (fs : FileSystem) (i : Invocation) : Outcome × FileSystem :=
  let attempt : Attempt Host Display := do
    Host.init none []
    i.run
  let r := attempt.on { fs }
  (.ofResult r.1, r.2.fs)

/-- Runs the program on a file system with the words after its name. -/
def run (fs : FileSystem) (words : List String) : Outcome × FileSystem :=
  match Invocation.ofWords words with
  | .error stop => (stop.outcome, fs)
  | .ok i => runCommand fs i

end SnapshotKv.CommandLine
