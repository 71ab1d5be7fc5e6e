/-!
# Faults

A `Fault` says why a request was refused: its kind, the words for it, the store and path concerned,
the system error number, and what lay beneath it. The kinds are closed (`FaultKind`), and each has
an exit code and a default error number. `Fault.display` is the one-line text of a fault.

The faults of this library are named here, one definition per cause, so that their wording stands in
one place and a statement can say exactly which fault arises.
-/

namespace SnapshotKv

/-- A system error number. -/
abbrev Errno := Int

namespace Errno

def notPermitted : Errno := 1
def noEntry : Errno := 2
def inputOutput : Errno := 5
def again : Errno := 11
def accessDenied : Errno := 13
def busy : Errno := 16
def fileExists : Errno := 17
def notDirectory : Errno := 20
def isDirectory : Errno := 21
def invalid : Errno := 22
def noSpace : Errno := 28
def readOnly : Errno := 30
def nameTooLong : Errno := 36
def badMessage : Errno := 74
def messageTooLong : Errno := 90
def notSupported : Errno := 95
def canceled : Errno := 125
def notRecoverable : Errno := 131

end Errno

/-- The kinds of fault. -/
inductive FaultKind where
  | internal | usage | notFound | alreadyExists | busy
  | permission | corrupt | io | canceled | unsupported
  deriving DecidableEq, Repr

namespace FaultKind

/-- Every kind, in the order of the exit codes. -/
def all : List FaultKind :=
  [.internal, .usage, .notFound, .alreadyExists, .busy, .permission, .corrupt, .io, .canceled,
    .unsupported]

/-- The written name of a kind. -/
def name : FaultKind → String
  | .internal => "Internal"
  | .usage => "Usage"
  | .notFound => "NotFound"
  | .alreadyExists => "AlreadyExists"
  | .busy => "Busy"
  | .permission => "Permission"
  | .corrupt => "Corrupt"
  | .io => "Io"
  | .canceled => "Canceled"
  | .unsupported => "Unsupported"

/-- The process exit code of a kind; the foreign interface reports the same number. -/
def exitCode : FaultKind → Nat
  | .internal => 1
  | .usage => 2
  | .notFound => 3
  | .alreadyExists => 4
  | .busy => 5
  | .permission => 6
  | .corrupt => 7
  | .io => 8
  | .canceled => 9
  | .unsupported => 10

/-- The error number of a fault that names none of its own. -/
def errno : FaultKind → Errno
  | .internal => Errno.notRecoverable
  | .usage => Errno.invalid
  | .notFound => Errno.noEntry
  | .alreadyExists => Errno.fileExists
  | .busy => Errno.busy
  | .permission => Errno.accessDenied
  | .corrupt => Errno.badMessage
  | .io => Errno.inputOutput
  | .canceled => Errno.canceled
  | .unsupported => Errno.notSupported

/-- The words for a fault that carries no message. -/
def words : FaultKind → String
  | .internal => "internal error"
  | .usage => "usage error"
  | .notFound => "not found"
  | .alreadyExists => "already exists"
  | .busy => "resource is busy"
  | .permission => "permission denied"
  | .corrupt => "corrupt data"
  | .io => "i/o error"
  | .canceled => "operation canceled"
  | .unsupported => "unsupported"

/-- The kind under which a failed system call is reported. -/
def ofErrno (e : Errno) : FaultKind :=
  if e = Errno.accessDenied ∨ e = Errno.notPermitted then .permission
  else if e = Errno.noEntry then .notFound
  else if e = Errno.fileExists then .alreadyExists
  else if e = Errno.again then .busy
  else .io

end FaultKind

/-- Why a text is no unsigned integer. -/
inductive NumberProblem where
  | empty | badDigit | tooLarge
  deriving DecidableEq, Repr

/-- The words for a number that cannot be read. -/
def NumberProblem.words : NumberProblem → String
  | .empty => "cannot parse integer from empty string"
  | .badDigit => "invalid digit found in string"
  | .tooLarge => "number too large to fit in target type"

/-- What lies beneath a fault. Of a malformed document and of a failed system call only the fact is
kept. -/
inductive Cause where
  | malformedJson
  | systemCall
  | number (problem : NumberProblem)
  deriving DecidableEq, Repr

/-- The words for a cause; a tag in angle brackets where only the fact is kept. -/
def Cause.words : Cause → String
  | .malformedJson => "<json>"
  | .systemCall => "<io>"
  | .number p => p.words

/-- Why a request was refused. -/
structure Fault where
  kind : FaultKind
  message : Option String := none
  /-- The store concerned. -/
  store : Option String := none
  path : Option String := none
  /-- The error number, where it is not the default one of the kind. -/
  code : Option Errno := none
  /-- Set when a transaction had outlived its time limit. -/
  expired : Bool := false
  causes : List Cause := []
  deriving DecidableEq, Repr

namespace Fault

/-- The error number: the fault's own, else the default of its kind. -/
def errno (f : Fault) : Errno := f.code.getD f.kind.errno

/-- A canceled request that did not merely run out of time lost against another writer. -/
def isConflict (f : Fault) : Bool := f.kind = .canceled && !f.expired

/-- The fault in one line. -/
def display (f : Fault) : String :=
  f.kind.name
    ++ (match f.message with | some m => ": " ++ m | none => "")
    ++ (match f.store with | some s => " (kvs: " ++ s ++ ")" | none => "")
    ++ (match f.path with | some p => " (path: " ++ p ++ ")" | none => "")
    ++ " (errno: " ++ toString f.errno ++ ")"
    ++ (if f.expired then " (transaction expired)" else "")

/-- The same fault, about a store. -/
def about (f : Fault) (store : String) : Fault := { f with store := some store }

/-- The same fault, at a path. -/
def located (f : Fault) (path : String) : Fault := { f with path := some path }

/-- A misuse described in words. -/
def usage (message : String) : Fault := { kind := .usage, message := some message }

/-- Damaged stored data described in words. -/
def corrupt (message : String) : Fault := { kind := .corrupt, message := some message }

/-! ## Limits and names -/

def keyEmpty : Fault := usage "key is empty"

def keyTooLong (length limit : Nat) : Fault :=
  { usage s!"key length {length} exceeds {limit}" with code := some Errno.nameTooLong }

def valueTooLong (length limit : Nat) : Fault :=
  { usage s!"value length {length} exceeds {limit}" with code := some Errno.messageTooLong }

def boundTooLong (length limit : Nat) : Fault :=
  { usage s!"bound length {length} exceeds {limit}" with code := some Errno.nameTooLong }

def nameEmpty : Fault := usage "kvs name is empty"

def nameTooLong (name : String) (limit : Nat) : Fault :=
  { usage s!"kvs name exceeds {limit} bytes" with
    code := some Errno.nameTooLong, store := some name }

def nameMalformed (name : String) : Fault :=
  (usage "kvs name may only contain [A-Za-z0-9_-]").about name

def tooManyStores (name : String) (limit : Nat) : Fault :=
  { usage s!"a kvdb holds at most {limit} kvs" with
    code := some Errno.noSpace, store := some name }

def prefixTooLong (limit : Nat) : Fault := usage s!"prefix.length must be at most {limit}"

/-! ## Parameters and documents -/

def notAPair (param : String) : Fault := usage s!"param `{param}` is not of the form key=value"

def unknownParam (scope key : String) : Fault := usage s!"unknown {scope} param: {key}"

def notAScalar (scope key : String) : Fault := usage s!"{scope} param {key} must be a scalar"

def notABoolean (key value : String) : Fault :=
  usage s!"param {key} expects true or false, got `{value}`"

def notANumber (key value : String) (problem : NumberProblem) : Fault :=
  { usage s!"param {key} expects an unsigned integer, got `{value}`" with
    causes := [.number problem] }

def notALogLevel (key value : String) : Fault :=
  usage s!"param {key} expects a log level, got `{value}`"

def paramEmpty (key : String) : Fault := usage s!"param {key} is empty"

def malformedConfig (path : String) : Fault :=
  { usage "invalid kvdb.conf" with path := some path, causes := [.malformedJson] }

def malformedGlobalConfig (path : String) : Fault :=
  { usage "global config must be a JSON object" with path := some path, causes := [.malformedJson] }

def unknownMediaClass (name : String) : Fault := usage s!"unknown media class: {name}"

/-! ## Files -/

/-- A failed system call on a path. -/
def system (e : Errno) (path : String) : Fault :=
  { kind := .ofErrno e, code := some e, path := some path, causes := [.systemCall] }

def homeMissing (home : String) : Fault :=
  { kind := .notFound, message := some "kvdb home does not exist", path := some home }

def databaseExists (home : String) : Fault :=
  { kind := .alreadyExists, message := some "kvdb already exists", path := some home }

def noDatabase (home : String) : Fault :=
  { kind := .notFound, message := some "no kvdb at home", path := some home }

def openElsewhere (path : String) : Fault :=
  { system Errno.again path with message := some "kvdb is open elsewhere" }

def malformedCatalog (path : String) : Fault :=
  { corrupt "invalid kvdb metadata" with path := some path, causes := [.malformedJson] }

def unknownCatalogFormat (format : Nat) (path : String) : Fault :=
  { corrupt s!"unsupported kvdb metadata format {format}" with path := some path }

def prefixDisagrees (store path : String) : Fault :=
  { corrupt "data file prefix length disagrees with metadata" with
    store := some store, path := some path }

/-! ## The runtime and open databases -/

def notInitialized : Fault := usage "hsekv runtime is not initialized"

def databaseClosed (home : String) : Fault := (usage "kvdb is closed").located home

def openReadOnly : Fault :=
  { kind := .permission, message := some "kvdb is open read-only", code := some Errno.readOnly }

def storeExists (name : String) : Fault :=
  { kind := .alreadyExists, message := some "kvs already exists", store := some name }

def noStore (name : String) : Fault :=
  { kind := .notFound, message := some "kvs does not exist", store := some name }

def storeInUse (name : String) : Fault :=
  { kind := .busy, message := some "kvs is open", store := some name }

def storeAlreadyOpen (name : String) : Fault :=
  { kind := .busy, message := some "kvs is already open", store := some name }

def capacityFixed : Fault := usage "the capacity media class is fixed at create time"

def mediaClassExists (name : String) : Fault :=
  { kind := .alreadyExists, message := some s!"media class {name} is already configured" }

def noMediaClass (name : String) : Fault :=
  { kind := .notFound, message := some s!"media class {name} is not configured" }

def noMediaPath : Fault := usage "no media class path given"

/-! ## Transactions and cursors -/

def notTransactional (store : String) : Fault :=
  (usage "kvs was not opened with transactions.enabled=true").about store

def transactionNeeded (store : String) : Fault :=
  (usage "writes to a transactional kvs need an active transaction").about store

def prefixLengthWrong (store : String) (want got : Nat) : Fault :=
  (usage s!"prefix delete needs a prefix of exactly {want} bytes, got {got}").about store

def notActive : Fault := usage "transaction is not active"

def alreadyActive : Fault := usage "transaction is already active"

def foreignTransaction : Fault := usage "transaction belongs to a different kvdb"

def transactionExpired : Fault :=
  { kind := .canceled, message := some "transaction expired and was aborted", expired := true }

def writeConflict (store : String) : Fault :=
  { kind := .canceled, message := some "write conflict", store := some store }

def alreadyLost : Fault :=
  { kind := .canceled, message := some "transaction already lost a write conflict" }

def lostConflict : Fault :=
  { kind := .canceled, message := some "transaction lost a write conflict and was aborted" }

def forwardOnly (store : String) : Fault :=
  (usage "seek_range is only valid on forward cursors").about store

def viewOutdated (store : String) : Fault :=
  { kind := .busy, store := some store,
    message := some "a prefix delete overlapped this cursor's filter; update its view" }

def keyMissing (store : String) : Fault :=
  { kind := .notFound, message := some "key not found", store := some store }

/-! ## Buffers and regions -/

def beyondLimit (position limit : Nat) : Fault :=
  usage s!"position {position} is beyond limit {limit}"

def beyondCapacity (limit capacity : Nat) : Fault :=
  usage s!"limit {limit} is beyond capacity {capacity}"

def noBuffer : Fault := usage "read_into needs a key buffer, a value buffer, or both"

def nullArgument (name : String) : Fault := usage s!"{name} is null"

def nullWithLength (name : String) (length : Nat) : Fault :=
  usage s!"{name} is null with length {length}"

def offsetBeyondLength (name : String) (offset length : Nat) : Fault :=
  usage s!"{name} offset {offset} is beyond length {length}"

def notUtf8 (name : String) : Fault := usage s!"{name} is not valid UTF-8"

def nullParams : Fault := usage "params is null with a non-zero count"

def nullParam : Fault := usage "params contains null"

def unknownCursorFlags : Fault := usage "unknown cursor flags"

end Fault

end SnapshotKv
