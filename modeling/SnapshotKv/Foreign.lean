import SnapshotKv.Host
import SnapshotKv.Text.Utf8

/-!
# The foreign interface

The calls of `Host` as they are offered to other languages. Arguments come as raw memory: a handle
may be null, an input is a region or a null pointer with a claimed length, an output is a region
with an offset, a text is a string of bytes that may not be UTF-8. Each call judges its arguments,
in their order, before it acts; a misuse of memory is a fault and never an access. A call answers a
status and, when it fails, an `ErrorReport` in numbers.
-/

namespace SnapshotKv.Foreign

/-! ## Arguments -/

/-- An input in memory. -/
inductive InputRegion where
  | null (length : Nat)
  | bytes (data : Bytes)

/-- The bytes of an input. A null pointer stands for none of them, if it claims none. -/
def InputRegion.read (r : InputRegion) (name : String) : Except Fault Bytes :=
  match r with
  | .bytes data => pure data
  | .null 0 => pure []
  | .null length => throw (Fault.nullWithLength name length)

/-- Memory for an answer, which is written from an offset on. -/
inductive OutputRegion where
  | null (length offset : Nat)
  | memory (data : Bytes) (offset : Nat)

/-- The buffer over an output region. A null pointer stands for an empty one, if it claims no more.
-/
def OutputRegion.buffer (r : OutputRegion) (name : String) : Except Fault OutBuffer :=
  match r with
  | .null 0 0 => pure (.fixed [])
  | .null length _ => throw (Fault.nullWithLength name length)
  | .memory data offset =>
    if data.length < offset then throw (Fault.offsetBeyondLength name offset data.length)
    else do
      let w ← (Window.whole data).setPosition offset
      pure (.window w)

/-- The region after its buffer was filled. -/
def OutputRegion.after (r : OutputRegion) (filled : OutBuffer) : OutputRegion :=
  match r, filled with
  | .memory _ offset, .window w => .memory w.data offset
  | r, _ => r

/-- The memory of a region, unless it is null. -/
def OutputRegion.shown : OutputRegion → Option Bytes
  | .null .. => none
  | .memory data _ => some data

/-- The bytes of a string up to its zero byte. -/
def stringBytes (s : Bytes) : Bytes := s.takeWhile (· != 0)

/-- A text that may be null. -/
def optionalText (s : Option Bytes) (name : String) : Except Fault (Option String) :=
  match s with
  | none => pure none
  | some bytes => match Utf8.decode? (stringBytes bytes) with
    | some text => pure (some text)
    | none => throw (Fault.notUtf8 name)

/-- A text that may not be null. -/
def requiredText (s : Option Bytes) (name : String) : Except Fault String := do
  match ← optionalText s name with
  | some text => pure text
  | none => throw (Fault.nullArgument name)

/-- A list of parameters: the strings, unless the list is null, and their number. -/
structure ParamList where
  items : Option (List (Option Bytes))
  count : Nat

/-- One parameter of a list. -/
def ParamList.item : Option Bytes → Except Fault String
  | none => throw Fault.nullParam
  | some bytes => requiredText (some bytes) "param"

/-- The parameters of a list. -/
def ParamList.read (p : ParamList) : Except Fault (List String) :=
  match p.items with
  | none => if p.count = 0 then pure [] else throw Fault.nullParams
  | some items => (items.take p.count).mapM ParamList.item

/-- A handle that may not be null. -/
def borrow {α : Type} (handle : Option α) (name : String) : Except Fault α :=
  match handle with
  | some h => pure h
  | none => throw (Fault.nullArgument name)

/-- A place for a new handle, which may not be null. -/
def checkPlace (place : Bool) (name : String) : Except Fault Unit :=
  if place then pure () else throw (Fault.nullArgument name)

/-! ## Answers -/

/-- A fault in numbers: the exit code of its kind, its error number, whether a transaction ran out
of time, and its text, which cannot be given when it holds a zero byte. -/
structure ErrorReport where
  kind : Nat
  errno : Errno
  context : Nat
  message : Option String

/-- The report on a fault. -/
def ErrorReport.ofFault (f : Fault) : ErrorReport where
  kind := f.kind.exitCode
  errno := f.errno
  context := if f.expired then 1 else 0
  message := if f.display.toList.any (fun c => c.toNat == 0) then none else some f.display

/-- The status of a finished call. -/
def status {α : Type} : Except Fault α → Int
  | .ok _ => 0
  | .error _ => -1

/-- What the place for a number holds after one was stored there. A null pointer takes nothing. -/
def store (place : Option Nat) (n : Nat) : Option Nat := place.map fun _ => n

/-- The memory that a caller gives for the answer of a lookup: places for whether there is one and for
its length, and a region for it. -/
structure LookupMemory where
  found : Option Nat
  length : Option Nat
  region : OutputRegion

/-- The memory after the call. A call that fails writes nothing. -/
def LookupMemory.after (m : LookupMemory) : Except Fault (Lookup × OutputRegion) → LookupMemory
  | .ok (lookup, region) =>
    { found := store m.found (if lookup.found then 1 else 0)
      length := store m.length lookup.length
      region }
  | .error _ => m

/-- The number of the state of a transaction. -/
def stateNumber : TxnState → Int
  | .invalid => 0
  | .active => 1
  | .committed => 2
  | .aborted => 3

/-! ## The runtime and databases -/

/-- Initializes the runtime. -/
def init (config : Option Bytes) (params : ParamList) : Attempt Host Unit := do
  let config ← Attempt.check (optionalText config "config")
  let params ← Attempt.check params.read
  Host.init config params

/-- Opens a database. -/
def openDatabase (place : Bool) (home : Option Bytes) (params : ParamList) : Attempt Host Nat := do
  Attempt.check (checkPlace place "out_kvdb")
  let home ← Attempt.check (requiredText home "home")
  let params ← Attempt.check params.read
  Host.openDatabase home params

/-- Closes a database; null is left alone. -/
def closeDatabase (db : Option Nat) : Attempt Host Unit :=
  match db with
  | some d => Host.closeDatabase d
  | none => pure ()

/-- Opens a store. -/
def openStore (place : Bool) (db : Option Nat) (name : Option Bytes) (params : ParamList) :
    Attempt Host StoreRef := do
  Attempt.check (checkPlace place "out_kvs")
  let d ← Attempt.check (borrow db "kvdb")
  let name ← Attempt.check (requiredText name "name")
  let params ← Attempt.check params.read
  Host.openStore d name params

/-- Gives up a handle on a store; null is left alone. -/
def closeStore (store : Option StoreRef) : Attempt Host Unit :=
  match store with
  | some s => Host.closeStore s
  | none => pure ()

/-! ## Records -/

/-- Gives a key a value. -/
def put (store : Option StoreRef) (txn : Option TxnRef) (key value : InputRegion) :
    Attempt Host Unit := do
  let s ← Attempt.check (borrow store "kvs")
  let key ← Attempt.check (key.read "key")
  let value ← Attempt.check (value.read "value")
  Host.put s txn key value

/-- Copies the value of a key into a region. -/
def get (store : Option StoreRef) (txn : Option TxnRef) (key : InputRegion) (out : OutputRegion) :
    Attempt Host (Lookup × OutputRegion) := do
  let s ← Attempt.check (borrow store "kvs")
  let key ← Attempt.check (key.read "key")
  let buffer ← Attempt.check (out.buffer "buf")
  let (lookup, filled) ← Host.getInto s txn key buffer
  pure (lookup, out.after filled)

/-- Deletes a key. -/
def delete (store : Option StoreRef) (txn : Option TxnRef) (key : InputRegion) :
    Attempt Host Unit := do
  let s ← Attempt.check (borrow store "kvs")
  let key ← Attempt.check (key.read "key")
  Host.delete s txn key

/-- Deletes every key with a prefix. -/
def deletePrefix (store : Option StoreRef) (txn : Option TxnRef) (stem : InputRegion) :
    Attempt Host Unit := do
  let s ← Attempt.check (borrow store "kvs")
  let stem ← Attempt.check (stem.read "pfx")
  Host.deletePrefix s txn stem

/-! ## Transactions -/

/-- Makes a transaction. -/
def allocTxn (place : Bool) (db : Option Nat) : Attempt Host TxnRef := do
  Attempt.check (checkPlace place "out_txn")
  let d ← Attempt.check (borrow db "kvdb")
  Host.allocTxn d

/-- A call on a transaction that may not be null. -/
def onTxn (txn : Option TxnRef) (call : TxnRef → Attempt Host Unit) : Attempt Host Unit := do
  let t ← Attempt.check (borrow txn "txn")
  call t

/-- Begins a cycle of a transaction. -/
def beginTxn (txn : Option TxnRef) : Attempt Host Unit := onTxn txn Host.beginTxn

/-- Commits an active transaction. -/
def commitTxn (txn : Option TxnRef) : Attempt Host Unit := onTxn txn Host.commitTxn

/-- Aborts an active transaction. -/
def abortTxn (txn : Option TxnRef) : Attempt Host Unit := onTxn txn Host.abortTxn

/-- The number of the state of a transaction; -1 for null. -/
def txnState (txn : Option TxnRef) : Attempt Host Int :=
  match txn with
  | some t => do
    let state ← Host.txnState t
    pure (stateNumber state)
  | none => pure (-1)

/-- Gives up a transaction, an active one after its commit; null is left alone. -/
def freeTxn (txn : Option TxnRef) : Attempt Host Unit :=
  match txn with
  | some t => Host.closeTxn t
  | none => pure ()

/-! ## Cursors -/

/-- Makes a cursor. The one known flag has the value 1 and makes it descend. -/
def openCursor (place : Bool) (store : Option StoreRef) (txn : Option TxnRef)
    (filter : InputRegion) (flags : Nat) : Attempt Host CursorRef := do
  Attempt.check (checkPlace place "out_cursor")
  let s ← Attempt.check (borrow store "kvs")
  if 1 < flags then throw Fault.unknownCursorFlags
  let filter ← Attempt.check (filter.read "filter")
  Host.openCursor s txn filter (flags == 1)

/-- What a read answers: the exact lengths, or none at the end, and the two regions. -/
structure CursorRecord where
  lengths : Option RecordLength
  key : OutputRegion
  value : OutputRegion

/-- The memory that a caller gives for the answer of a read: places for the two lengths and for whether
the end was reached, and two regions. -/
structure RecordMemory where
  keyLength : Option Nat
  valueLength : Option Nat
  atEnd : Option Nat
  key : OutputRegion
  value : OutputRegion

/-- The memory after the call. At the end the lengths are left alone. -/
def RecordMemory.after (m : RecordMemory) : Except Fault CursorRecord → RecordMemory
  | .ok r => match r.lengths with
    | some n =>
      { keyLength := store m.keyLength n.key
        valueLength := store m.valueLength n.value
        atEnd := store m.atEnd 0
        key := r.key
        value := r.value }
    | none => { m with atEnd := store m.atEnd 1, key := r.key, value := r.value }
  | .error _ => m

/-- Copies the next record of a cursor into two regions. -/
def readCursor (cursor : Option CursorRef) (key value : OutputRegion) :
    Attempt Host CursorRecord := do
  let c ← Attempt.check (borrow cursor "cursor")
  let keyBuffer ← Attempt.check (key.buffer "key_buf")
  let valueBuffer ← Attempt.check (value.buffer "val_buf")
  let r ← Host.readInto c (some keyBuffer) (some valueBuffer)
  pure {
    lengths := r.lengths
    key := key.after (r.key.getD keyBuffer)
    value := value.after (r.value.getD valueBuffer) }

/-- Moves a cursor and copies the key it landed on into a region. -/
def seekCursor (cursor : Option CursorRef) (key : InputRegion) (out : OutputRegion) :
    Attempt Host (Lookup × OutputRegion) := do
  let c ← Attempt.check (borrow cursor "cursor")
  let key ← Attempt.check (key.read "key")
  let buffer ← Attempt.check (out.buffer "found_buf")
  let (lookup, filled) ← Host.seekInto c key buffer
  pure (lookup, out.after filled)

/-- Moves a forward cursor, ends its later reads after a last key, and copies the key it landed on
into a region. -/
def seekRangeCursor (cursor : Option CursorRef) (low high : InputRegion) (out : OutputRegion) :
    Attempt Host (Lookup × OutputRegion) := do
  let c ← Attempt.check (borrow cursor "cursor")
  let low ← Attempt.check (low.read "min")
  let high ← Attempt.check (high.read "max")
  let buffer ← Attempt.check (out.buffer "found_buf")
  let (lookup, filled) ← Host.seekRangeInto c low high buffer
  pure (lookup, out.after filled)

/-- Moves a cursor to the published view. -/
def refreshCursor (cursor : Option CursorRef) : Attempt Host Unit := do
  let c ← Attempt.check (borrow cursor "cursor")
  Host.refresh c

/-- Gives up a cursor; null is left alone. -/
def closeCursor (cursor : Option CursorRef) : Attempt Host Unit :=
  match cursor with
  | some c => Host.closeCursor c
  | none => pure ()

end SnapshotKv.Foreign
