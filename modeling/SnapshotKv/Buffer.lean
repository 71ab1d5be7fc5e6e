import SnapshotKv.Bytes
import SnapshotKv.Fault

/-!
# Buffers

Where a caller wants the bytes of an answer. A `Window` is a region with a position and a limit; the
bytes between the two are its payload. An `OutBuffer` is a fixed region, a vector that shrinks to
what it received, or a window. Filling a buffer copies as much of the source as fits; the length
reported to the caller is always that of the whole source (`Lookup`).
-/

namespace SnapshotKv

/-- A region of bytes with a position and a limit, in this order, inside it. -/
structure Window where
  data : Bytes
  position : Nat
  limit : Nat
  position_le_limit : position ≤ limit := by omega
  limit_le_length : limit ≤ data.length := by omega

namespace Window

/-- The window over a whole region. -/
def whole (data : Bytes) : Window := { data, position := 0, limit := data.length }

/-- The length of the region. -/
def capacity (w : Window) : Nat := w.data.length

/-- The room between position and limit. -/
def room (w : Window) : Nat := w.limit - w.position

/-- The bytes between position and limit. -/
def remaining (w : Window) : Bytes := (w.data.take w.limit).drop w.position

/-- Moves the position; it may not pass the limit. -/
def setPosition (w : Window) (position : Nat) : Except Fault Window :=
  if h : position ≤ w.limit then
    pure { w with position, position_le_limit := h, limit_le_length := w.limit_le_length }
  else throw (Fault.beyondLimit position w.limit)

/-- Moves the limit, which may not pass the end of the region; a position past the new limit is
pulled back to it. -/
def setLimit (w : Window) (limit : Nat) : Except Fault Window :=
  if h : limit ≤ w.data.length then
    pure { w with
      position := min w.position limit, limit
      position_le_limit := Nat.min_le_right _ _, limit_le_length := h }
  else throw (Fault.beyondCapacity limit w.data.length)

/-- The window over the part of a region from a position to a limit. The limit is judged first. -/
def ofPart (data : Bytes) (position limit : Nat) : Except Fault Window := do
  let w ← (whole data).setLimit limit
  w.setPosition position

/-- Copies what fits of a source to the position. The limit moves down to the end of the copy, and
stays where more would have followed. -/
def fill (w : Window) (source : Bytes) : Window :=
  let n := min w.room source.length
  { data := w.data.take w.position ++ source.take n ++ w.data.drop (w.position + n)
    position := w.position
    limit := min w.limit (w.position + source.length)
    position_le_limit := by have := w.position_le_limit; omega
    limit_le_length := by
      have h1 := w.position_le_limit
      have h2 := w.limit_le_length
      simp only [List.length_append, List.length_take, List.length_drop, n, room]
      omega }

end Window

/-- A destination for bytes that belongs to the caller. -/
inductive OutBuffer where
  /-- A region of fixed length. -/
  | fixed (bytes : Bytes)
  /-- A vector whose length is its room; a shorter source shortens it. -/
  | vector (bytes : Bytes)
  /-- A window of a region. -/
  | window (w : Window)

namespace OutBuffer

/-- How many bytes the next fill may write. -/
def capacity : OutBuffer → Nat
  | .fixed bytes => bytes.length
  | .vector bytes => bytes.length
  | .window w => w.room

/-- How many bytes of a source fit. -/
def copied (b : OutBuffer) (source : Bytes) : Nat := min b.capacity source.length

/-- The buffer after as much of a source as fits was copied into it. -/
def fill (b : OutBuffer) (source : Bytes) : OutBuffer :=
  match b with
  | .fixed bytes => .fixed (source.take bytes.length ++ bytes.drop source.length)
  | .vector bytes => .vector (source.take bytes.length)
  | .window w => .window (w.fill source)

end OutBuffer

/-- The outcome of a fill: whether there was anything, and how long it really is. -/
structure Lookup where
  found : Bool
  length : Nat
  deriving DecidableEq, Repr

namespace Lookup

/-- The outcome for an optional source. -/
def ofSource (source : Option Bytes) : Lookup :=
  match source with
  | some bytes => ⟨true, bytes.length⟩
  | none => ⟨false, 0⟩

/-- Whether something was found that does not fit a capacity. -/
def truncated (l : Lookup) (capacity : Nat) : Bool := l.found && decide (capacity < l.length)

end Lookup

/-- The buffer after an optional source: untouched when there is none. -/
def OutBuffer.fillFrom (b : OutBuffer) (source : Option Bytes) : OutBuffer :=
  match source with
  | some bytes => b.fill bytes
  | none => b

/-- The exact lengths of the key and the value of a record. -/
structure RecordLength where
  key : Nat
  value : Nat
  deriving DecidableEq, Repr

end SnapshotKv
