import SnapshotKv.Bytes
import SnapshotKv.Fault

/-!
# Size limits

The limits on keys, values, bounds and store names, and the checks that enforce them. A key has at
least one byte; a bound (a filter or a seek target) may be empty; a value may be empty.
-/

namespace SnapshotKv.Limits

/-- How many stores a database holds at most. -/
def storeCount : Nat := 256

/-- The length of the longest key. -/
def keyLength : Nat := 1344

/-- The length of the longest store name in bytes. -/
def nameLength : Nat := 32

/-- The length of the longest key prefix of a store. -/
def prefixLength : Nat := 32

/-- The length of the longest value. -/
def valueLength : Nat := 1024 * 1024

/-- A key has between one and `keyLength` bytes. -/
def checkKey (key : Bytes) : Except Fault Unit :=
  if key.isEmpty then throw Fault.keyEmpty
  else if key.length > keyLength then throw (Fault.keyTooLong key.length keyLength)
  else pure ()

/-- A value has at most `valueLength` bytes. -/
def checkValue (value : Bytes) : Except Fault Unit :=
  if value.length > valueLength then throw (Fault.valueTooLong value.length valueLength)
  else pure ()

/-- A bound has at most `keyLength` bytes. -/
def checkBound (bound : Bytes) : Except Fault Unit :=
  if bound.length > keyLength then throw (Fault.boundTooLong bound.length keyLength)
  else pure ()

/-- The characters of store names: ASCII letters and digits, the low line and the hyphen. -/
def isNameChar (c : Char) : Bool := c.isAlphanum || c == '_' || c == '-'

/-- A store name has between one and `nameLength` bytes, all of name characters. The length is
judged first. -/
def checkName (name : String) : Except Fault Unit :=
  if name.isEmpty then throw Fault.nameEmpty
  else if name.utf8ByteSize > nameLength then throw (Fault.nameTooLong name nameLength)
  else if name.toList.all isNameChar then pure ()
  else throw (Fault.nameMalformed name)

end SnapshotKv.Limits
