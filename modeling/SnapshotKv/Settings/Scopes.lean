import SnapshotKv.Limits
import SnapshotKv.Media
import SnapshotKv.Settings.Scheme

/-!
# The five scopes of parameters

The settings of the runtime, of creating a database, of opening one, of creating a store and of
opening one, each with its `Scheme`.
-/

namespace SnapshotKv

/-! ## The runtime -/

/-- How much is logged. -/
inductive LogLevel where
  | error | warn | info | debug | trace
  deriving DecidableEq, Repr

namespace LogLevel

/-- Every level, from the most to the least severe. -/
def all : List LogLevel := [.error, .warn, .info, .debug, .trace]

/-- The written name of a level. -/
def name : LogLevel → String
  | .error => "error"
  | .warn => "warn"
  | .info => "info"
  | .debug => "debug"
  | .trace => "trace"

/-- A level is written as its number, counted from one, or as its name in letters of any size. -/
def ofText? (s : String) : Option LogLevel :=
  match Unsigned.read s with
  | .ok n => if n = 0 then none else all[n - 1]?
  | .error _ => all.find? (fun l => l.name == Text.lower s)

end LogLevel

/-- The settings of the runtime. -/
structure GlobalSettings where
  loggingEnabled : Bool := false
  logLevel : LogLevel := .info
  deriving DecidableEq, Repr

/-- The parameters of the runtime. -/
def GlobalSettings.scheme : Scheme GlobalSettings where
  scope := "global"
  initial := {}
  assign s key value :=
    if key = "logging.enabled" then do
      let b ← Param.readBool key value
      pure { s with loggingEnabled := b }
    else if key = "logging.level" then
      match LogLevel.ofText? value with
      | some l => pure { s with logLevel := l }
      | none => throw (Fault.notALogLevel key value)
    else throw (Scheme.unknown "global" key)
  read s key :=
    if key = "logging.enabled" then some (toString s.loggingEnabled)
    else if key = "logging.level" then some s.logLevel.name
    else none

/-! ## Creating a database -/

/-- The paths of the media classes, where they are given. -/
structure StorageSettings where
  capacity : Option String := none
  staging : Option String := none
  pmem : Option String := none
  deriving DecidableEq, Repr

namespace StorageSettings

/-- The path given for a class. -/
def path? (s : StorageSettings) : MediaClass → Option String
  | .capacity => s.capacity
  | .staging => s.staging
  | .pmem => s.pmem

/-- The parameters for creating a database or adding storage to it. -/
def scheme : Scheme StorageSettings where
  scope := "kvdb create"
  initial := {}
  assign s key value :=
    match MediaClass.all.find? (fun c => c.pathParam == key) with
    | some c => do
      let p ← Param.readPath key value
      pure <| match c with
        | .capacity => { s with capacity := some p }
        | .staging => { s with staging := some p }
        | .pmem => { s with pmem := some p }
    | none => throw (Scheme.unknown "kvdb create" key)
  read s key :=
    (MediaClass.all.find? (fun c => c.pathParam == key)).map (fun c => (s.path? c).getD "")

end StorageSettings

/-! ## Opening a database -/

/-- The settings of an open database. -/
structure OpenSettings where
  readOnly : Bool := false
  /-- How many milliseconds a transaction may stay active. -/
  txnTimeout : Nat := 10000
  deriving DecidableEq, Repr

/-- The parameters for opening a database. -/
def OpenSettings.scheme : Scheme OpenSettings where
  scope := "kvdb"
  initial := {}
  assign s key value :=
    if key = "read_only" then do
      let b ← Param.readBool key value
      pure { s with readOnly := b }
    else if key = "txn_timeout" then do
      let n ← Param.readNat key value
      pure { s with txnTimeout := n }
    else throw (Scheme.unknown "kvdb" key)
  read s key :=
    if key = "read_only" then some (toString s.readOnly)
    else if key = "txn_timeout" then some (toString s.txnTimeout)
    else none

/-! ## Creating a store -/

/-- The settings fixed when a store is created. -/
structure StoreShape where
  prefixLength : Nat := 0
  deriving DecidableEq, Repr

/-- The parameters for creating a store. -/
def StoreShape.scheme : Scheme StoreShape where
  scope := "kvs create"
  initial := {}
  assign s key value :=
    if key = "prefix.length" then do
      let n ← Param.readNat key value
      if n > Limits.prefixLength then throw (Fault.prefixTooLong Limits.prefixLength)
      else pure { s with prefixLength := n }
    else throw (Scheme.unknown "kvs create" key)
  read s key := if key = "prefix.length" then some (toString s.prefixLength) else none

/-! ## Opening a store -/

/-- The settings of an open store. -/
structure StoreSettings where
  /-- Whether the store is written by transactions, and only by them. -/
  transactional : Bool := false
  deriving DecidableEq, Repr

/-- The parameters for opening a store. -/
def StoreSettings.scheme : Scheme StoreSettings where
  scope := "kvs"
  initial := {}
  assign s key value :=
    if key = "transactions.enabled" then do
      let b ← Param.readBool key value
      pure { s with transactional := b }
    else throw (Scheme.unknown "kvs" key)
  read s key := if key = "transactions.enabled" then some (toString s.transactional) else none

end SnapshotKv
