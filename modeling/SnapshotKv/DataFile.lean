import SnapshotKv.Fault
import SnapshotKv.Sha256

/-!
# Data files

The contents of a store on disk: a header of 32 bytes, the records one after another, and the
SHA-256 digest of everything before it. The header holds a mark, the format version, the byte order,
the prefix length of the store, the number of records and the length of their encoding; six of its
bytes are free. Numbers have their least significant byte first.

`DataFile.encode` writes a file and `DataFile.decode` reads one. The faults of a damaged file are
found in a fixed order: size, mark, version, byte order, length, digest, records, their number.
-/

namespace SnapshotKv.DataFile

/-- A key and its value. -/
abbrev Record := Bytes × Bytes

/-- The four bytes that start a data file. -/
def mark : Bytes := [0x48, 0x4B, 0x56, 0x53]

/-- The one version of the format. -/
def version : Nat := 1

/-- The sign of the byte order. -/
def byteOrder : UInt8 := 1

def headerLength : Nat := 32
def trailerLength : Nat := 32

/-- The length of what comes before the key of a record. -/
def recordHeaderLength : Nat := 8

/-! ## Writing -/

/-- The encoding of a record: the two lengths, the key, the value. -/
def encodeRecord (r : Record) : Bytes :=
  Bytes.ofNat 4 r.1.length ++ Bytes.ofNat 4 r.2.length ++ r.1 ++ r.2

/-- The header for a number of records whose encoding has a length. -/
def header (prefixLength count bodyLength : Nat) : Bytes :=
  mark ++ Bytes.ofNat 4 version ++ [byteOrder, UInt8.ofNat prefixLength] ++ List.replicate 6 0
    ++ Bytes.ofNat 8 count ++ Bytes.ofNat 8 bodyLength

/-- The data file of some records, in the order given. -/
def encode (prefixLength : Nat) (records : List Record) : Bytes :=
  let body := records.flatMap encodeRecord
  let content := header prefixLength records.length body.length ++ body
  content ++ Sha256.digest content

/-! ## Reading -/

/-- Some bytes from an offset on. -/
def slice (b : Bytes) (offset width : Nat) : Bytes := (b.drop offset).take width

/-- The records in a byte string of a given length, after those found so far, which stand in reverse
order. -/
def decodeRecords (found : List Record) (length : Nat) (body : Bytes) :
    Except Fault (List Record) :=
  if length = 0 then pure found.reverse
  else if h : length < recordHeaderLength then throw (Fault.corrupt "truncated record header")
  else
    let keyLength := Bytes.toNat (slice body 0 4)
    let valueLength := Bytes.toNat (slice body 4 4)
    let rest := body.drop recordHeaderLength
    if length - recordHeaderLength < keyLength + valueLength then
      throw (Fault.corrupt "truncated record")
    else
      have : length - recordHeaderLength - (keyLength + valueLength) < length := by
        simp only [recordHeaderLength] at h ⊢; omega
      decodeRecords ((rest.take keyLength, slice rest keyLength valueLength) :: found)
        (length - recordHeaderLength - (keyLength + valueLength))
        (rest.drop (keyLength + valueLength))
termination_by length

/-- The prefix length and the records of a data file. -/
def decode (file : Bytes) : Except Fault (Nat × List Record) := do
  let size := file.length
  if size < headerLength + trailerLength then throw (Fault.corrupt "data file too small")
  if slice file 0 4 ≠ mark then throw (Fault.corrupt "bad magic")
  if Bytes.toNat (slice file 4 4) ≠ version then throw (Fault.corrupt "unsupported version")
  if slice file 8 1 ≠ [byteOrder] then throw (Fault.corrupt "unsupported endianness")
  let bodyLength := size - headerLength - trailerLength
  if Bytes.toNat (slice file 24 8) ≠ bodyLength then throw (Fault.corrupt "length mismatch")
  let content := file.take (headerLength + bodyLength)
  if Sha256.digest content ≠ file.drop (headerLength + bodyLength) then
    throw (Fault.corrupt "checksum mismatch")
  let records ← decodeRecords [] bodyLength (content.drop headerLength)
  if records.length ≠ Bytes.toNat (slice file 16 8) then
    throw (Fault.corrupt "record count mismatch")
  pure (Bytes.toNat (slice file 9 1), records)

end SnapshotKv.DataFile
