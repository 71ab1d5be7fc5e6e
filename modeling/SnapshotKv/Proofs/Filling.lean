import SnapshotKv.Host

/-!
# Filling buffers

A buffer takes as much of a payload as it has room for, from its start on, and no other byte of it
changes. The caller of a window may move its position and limit between the fills; an offset that is
out of range is refused, and leaves the window as it was. The calls that copy an answer into a
buffer tell its exact length, however much of it was copied.

Results:
1. `Window.getElem?_after`: what a region holds after any calls on a window of it.
2. `fill_law`: one fill of one buffer.
3. `copiesInto_of_bind`, `readsInto`: the calls that copy an answer.
4. `buffer_law`.
-/

namespace SnapshotKv

/-! ## 1. Windows -/

/-- Bytes that lie in a region from some place on. -/
structure Piece where
  start : Nat
  bytes : Bytes

/-- The byte of a piece at a place of the region, if it reaches there. -/
def Piece.byte? (p : Piece) (i : Nat) : Option UInt8 :=
  if p.start ≤ i then p.bytes[i - p.start]? else none

/-- A call on a window that its caller keeps. -/
inductive WindowCall where
  | setPosition (position : Nat)
  | setLimit (limit : Nat)
  | fill (source : Bytes)

namespace WindowCall

/-- What a call makes of a window, unless it is refused. -/
def answer (w : Window) : WindowCall → Except Fault Window
  | .setPosition position => w.setPosition position
  | .setLimit limit => w.setLimit limit
  | .fill source => pure (w.fill source)

/-- The window after a call; one that is refused leaves it alone. -/
def next (w : Window) (c : WindowCall) : Window :=
  match c.answer w with
  | .ok w' => w'
  | .error _ => w

theorem next_of_ok {w w' : Window} {c : WindowCall} (h : c.answer w = .ok w') : c.next w = w' := by
  rw [next, h]

theorem next_of_error {w : Window} {c : WindowCall} {f : Fault} (h : c.answer w = .error f) :
    c.next w = w := by
  rw [next, h]

/-- The bytes that a call copies into the region. -/
def piece? (w : Window) : WindowCall → Option Piece
  | .fill source => some ⟨w.position, source.take w.room⟩
  | .setPosition _ | .setLimit _ => none

end WindowCall

namespace Window

/-- The window after some calls. -/
def after (w : Window) (calls : List WindowCall) : Window := calls.foldl WindowCall.next w

/-- The bytes that some calls copy into the region, one piece after another. -/
def pieces (w : Window) : List WindowCall → List Piece
  | [] => []
  | c :: rest => (c.piece? w).toList ++ (c.next w).pieces rest

end Window

namespace FillingLemmas

theorem byte?_of_outside {p : Piece} {i : Nat} (h : i < p.start ∨ p.start + p.bytes.length ≤ i) :
    p.byte? i = none := by
  unfold Piece.byte?
  split
  · exact List.getElem?_eq_none (by omega)
  · rfl

theorem byte?_of_inside (p : Piece) (i : Nat) : p.byte? (p.start + i) = p.bytes[i]? := by
  unfold Piece.byte?
  rw [if_pos (Nat.le_add_right _ _), Nat.add_sub_cancel_left]

/-- A piece that was put over part of a region. -/
theorem getElem?_overlaid (data piece : Bytes) (start : Nat)
    (h : start + piece.length ≤ data.length) (i : Nat) :
    (data.take start ++ piece ++ data.drop (start + piece.length))[i]? =
      (Piece.byte? ⟨start, piece⟩ i).or data[i]? := by
  have hstart : (data.take start).length = start := by
    rw [List.length_take]
    omega
  rw [List.append_assoc]
  by_cases hbefore : i < start
  · rw [List.getElem?_append_left (by omega), List.getElem?_take_of_lt hbefore,
      byte?_of_outside (.inl hbefore), Option.none_or]
  · obtain ⟨k, rfl⟩ := Nat.exists_eq_add_of_le (Nat.not_lt.1 hbefore)
    rw [List.getElem?_append_right (by omega), hstart, Nat.add_sub_cancel_left]
    have hinside := byte?_of_inside ⟨start, piece⟩ k
    simp only at hinside
    by_cases hk : k < piece.length
    · rw [List.getElem?_append_left hk, hinside, List.getElem?_eq_getElem hk, Option.some_or]
    · rw [hinside, List.getElem?_append_right (Nat.not_lt.1 hk), List.getElem?_drop,
        List.getElem?_eq_none (Nat.not_lt.1 hk), Option.none_or]
      congr 1
      omega

theorem take_min_length (source : Bytes) (room : Nat) :
    source.take (min room source.length) = source.take room := by
  rw [← List.take_take, List.take_length]

theorem position_add_room_le (w : Window) : w.position + w.room ≤ w.data.length := by
  have := w.position_le_limit
  have := w.limit_le_length
  unfold Window.room
  omega

theorem length_fill (w : Window) (source : Bytes) :
    (w.fill source).data.length = w.data.length := by
  have := position_add_room_le w
  simp only [Window.fill, List.length_append, List.length_take, List.length_drop]
  omega

theorem getElem?_fill (w : Window) (source : Bytes) (i : Nat) :
    (w.fill source).data[i]? =
      (Piece.byte? ⟨w.position, source.take w.room⟩ i).or w.data[i]? := by
  have hroom := position_add_room_le w
  have hlength : (source.take (min w.room source.length)).length = min w.room source.length := by
    rw [List.length_take]
    omega
  have hoverlaid := getElem?_overlaid w.data (source.take (min w.room source.length)) w.position
    (by omega) i
  rw [hlength] at hoverlaid
  rw [← take_min_length]
  exact hoverlaid

end FillingLemmas

open FillingLemmas

namespace Window

theorem setPosition_ok {w : Window} {position : Nat} (h : position ≤ w.limit) :
    ∃ w', w.setPosition position = .ok w' ∧ w'.data = w.data ∧ w'.position = position ∧
      w'.limit = w.limit :=
  ⟨_, dif_pos h, rfl, rfl, rfl⟩

theorem setPosition_error {w : Window} {position : Nat} (h : ¬ position ≤ w.limit) :
    w.setPosition position = .error (Fault.beyondLimit position w.limit) := dif_neg h

theorem setLimit_ok {w : Window} {limit : Nat} (h : limit ≤ w.capacity) :
    ∃ w', w.setLimit limit = .ok w' ∧ w'.data = w.data ∧ w'.position = min w.position limit ∧
      w'.limit = limit :=
  ⟨_, dif_pos h, rfl, rfl, rfl⟩

theorem setLimit_error {w : Window} {limit : Nat} (h : ¬ limit ≤ w.capacity) :
    w.setLimit limit = .error (Fault.beyondCapacity limit w.capacity) := dif_neg h

/-- A call that copies nothing leaves the bytes. -/
theorem data_next {w : Window} {c : WindowCall} (h : c.piece? w = none) :
    (c.next w).data = w.data := by
  cases c with
  | setPosition position =>
    by_cases hle : position ≤ w.limit
    · obtain ⟨w', hw', hdata, -⟩ := setPosition_ok hle
      rw [WindowCall.next_of_ok (c := .setPosition position) hw', hdata]
    · rw [WindowCall.next_of_error (c := .setPosition position) (setPosition_error hle)]
  | setLimit limit =>
    by_cases hle : limit ≤ w.capacity
    · obtain ⟨w', hw', hdata, -⟩ := setLimit_ok hle
      rw [WindowCall.next_of_ok (c := .setLimit limit) hw', hdata]
    · rw [WindowCall.next_of_error (c := .setLimit limit) (setLimit_error hle)]
  | fill source => cases h

/-- The bytes after a call are those before it, but for the piece that was copied. -/
theorem getElem?_next (w : Window) (c : WindowCall) (i : Nat) :
    (c.next w).data[i]? = ((c.piece? w).bind (·.byte? i)).or w.data[i]? := by
  cases c with
  | fill source => exact getElem?_fill w source i
  | setPosition position | setLimit limit =>
    rw [data_next rfl]
    rfl

/-- Each byte of the region is that of the last piece which was copied over it, or was there from
the beginning. -/
theorem getElem?_after (w : Window) (calls : List WindowCall) (i : Nat) :
    (w.after calls).data[i]? =
      (w.pieces calls).foldl (fun byte p => (p.byte? i).or byte) w.data[i]? := by
  induction calls generalizing w with
  | nil => rfl
  | cons c rest ih =>
    refine (ih (c.next w)).trans ?_
    rw [getElem?_next, pieces, List.foldl_append]
    cases c.piece? w <;> rfl

end Window

/-- How a window stands that some calls left of a region. -/
structure WindowLaw (data : Bytes) (calls : List WindowCall) (w : Window) : Prop where
  position_le_limit : w.position ≤ w.limit
  limit_le_capacity : w.limit ≤ w.capacity
  capacity : w.capacity = data.length
  bytes : ∀ i : Nat, w.data[i]? =
    ((Window.whole data).pieces calls).foldl (fun byte p => (p.byte? i).or byte) data[i]?
  /-- The position may be moved up to the limit. -/
  setPosition : ∀ position, position ≤ w.limit → ∃ w', w.setPosition position = .ok w' ∧
    w'.data = w.data ∧ w'.position = position ∧ w'.limit = w.limit
  /-- The limit may be moved up to the end of the region, and takes the position with it. -/
  setLimit : ∀ limit, limit ≤ w.capacity → ∃ w', w.setLimit limit = .ok w' ∧
    w'.data = w.data ∧ w'.position = min w.position limit ∧ w'.limit = limit
  /-- An offset that is out of range is refused, and nothing changes. -/
  beyondLimit : ∀ position, w.limit < position →
    w.setPosition position = .error (Fault.beyondLimit position w.limit) ∧
      WindowCall.next w (.setPosition position) = w
  beyondCapacity : ∀ limit, w.capacity < limit →
    w.setLimit limit = .error (Fault.beyondCapacity limit w.capacity) ∧
      WindowCall.next w (.setLimit limit) = w

namespace FillingLemmas

theorem capacity_after (w : Window) (calls : List WindowCall) :
    (w.after calls).capacity = w.capacity := by
  induction calls generalizing w with
  | nil => rfl
  | cons c rest ih =>
    refine (ih (c.next w)).trans ?_
    unfold Window.capacity
    cases c with
    | fill source => exact length_fill w source
    | setPosition position | setLimit limit => rw [Window.data_next rfl]

theorem windowLaw (data : Bytes) (calls : List WindowCall) :
    WindowLaw data calls ((Window.whole data).after calls) where
  position_le_limit := ((Window.whole data).after calls).position_le_limit
  limit_le_capacity := ((Window.whole data).after calls).limit_le_length
  capacity := capacity_after (Window.whole data) calls
  bytes := (Window.whole data).getElem?_after calls
  setPosition := fun _ => Window.setPosition_ok
  setLimit := fun _ => Window.setLimit_ok
  beyondLimit := fun _ h =>
    have hrefused := Window.setPosition_error (Nat.not_le.2 h)
    ⟨hrefused, WindowCall.next_of_error hrefused⟩
  beyondCapacity := fun _ h =>
    have hrefused := Window.setLimit_error (Nat.not_le.2 h)
    ⟨hrefused, WindowCall.next_of_error hrefused⟩

end FillingLemmas

/-! ## 2. One fill -/

namespace OutBuffer

/-- The bytes of a buffer, those outside of its window included. -/
def bytes : OutBuffer → Bytes
  | .fixed bytes => bytes
  | .vector bytes => bytes
  | .window w => w.data

/-- Where the next fill starts. -/
def start : OutBuffer → Nat
  | .fixed _ => 0
  | .vector _ => 0
  | .window w => w.position

end OutBuffer

/-- What becomes of a buffer that a payload is copied into. -/
structure FillLaw (b : OutBuffer) (source : Bytes) : Prop where
  /-- As many bytes are copied as there is room for. -/
  copied : b.copied source = min b.capacity source.length
  /-- They are the first ones of the payload, from the start of the buffer on. -/
  inside : ∀ i < b.copied source, (b.fill source).bytes[b.start + i]? = source[i]?
  /-- All other bytes are what they were. -/
  outside : ∀ i < (b.fill source).bytes.length,
    i < b.start ∨ b.start + b.copied source ≤ i → (b.fill source).bytes[i]? = b.bytes[i]?
  /-- A region keeps its length. -/
  fixed : ∀ bytes, b = .fixed bytes →
    ∃ bytes', b.fill source = .fixed bytes' ∧ bytes'.length = bytes.length
  /-- A vector shrinks to what it received. -/
  vector : ∀ bytes, b = .vector bytes →
    ∃ bytes', b.fill source = .vector bytes' ∧ bytes'.length = min bytes.length source.length
  /-- The limit of a window goes down to the end of what was copied. -/
  window : ∀ w, b = .window w → ∃ w', b.fill source = .window w' ∧ w'.capacity = w.capacity ∧
    w'.position = w.position ∧ w'.limit = min w.limit (w.position + source.length) ∧
      w'.remaining = source.take (b.copied source)
  /-- Whoever compares the length with the room sees whether something is missing. -/
  truncated : (Lookup.ofSource (some source)).truncated b.capacity = true ↔
    b.copied source < source.length

namespace FillingLemmas

theorem remaining_fill (w : Window) (source : Bytes) :
    (w.fill source).remaining = source.take (min w.room source.length) := by
  have hle := w.position_le_limit
  have hroom := position_add_room_le w
  have hlimit : min w.limit (w.position + source.length) =
      w.position + min w.room source.length := by
    unfold Window.room
    omega
  have hstart : (w.data.take w.position).length = w.position := by
    rw [List.length_take]
    omega
  have hpiece : (w.data.take w.position ++ source.take (min w.room source.length)).length =
      w.position + min w.room source.length := by
    rw [List.length_append, hstart, List.length_take]
    omega
  show ((w.data.take w.position ++ source.take (min w.room source.length) ++
    w.data.drop (w.position + min w.room source.length)).take
      (min w.limit (w.position + source.length))).drop w.position = _
  rw [hlimit, List.take_left' hpiece, List.drop_left' hstart]

/-- Filling a fixed region, or a window, puts a piece over part of the bytes. -/
theorem getElem?_bytes_fill {b : OutBuffer} (h : ∀ bytes, b ≠ .vector bytes) (source : Bytes)
    (i : Nat) :
    (b.fill source).bytes[i]? =
      (Piece.byte? ⟨b.start, source.take (b.copied source)⟩ i).or b.bytes[i]? := by
  cases b with
  | fixed bytes =>
    have hlength : (source.take (min bytes.length source.length)).length =
        min bytes.length source.length := by
      rw [List.length_take]
      omega
    have hdrop : bytes.drop source.length = bytes.drop (min bytes.length source.length) := by
      rcases Nat.le_total source.length bytes.length with hle | hle
      · rw [Nat.min_eq_right hle]
      · rw [Nat.min_eq_left hle, List.drop_length, List.drop_eq_nil_of_le hle]
    have hoverlaid := getElem?_overlaid bytes (source.take (min bytes.length source.length)) 0
      (by omega) i
    rw [hlength, Nat.zero_add, List.take_zero, List.nil_append, take_min_length, ← hdrop]
      at hoverlaid
    refine hoverlaid.trans ?_
    rw [← take_min_length]
    rfl
  | vector bytes => exact absurd rfl (h bytes)
  | window w =>
    refine (getElem?_fill w source i).trans ?_
    rw [← take_min_length]
    rfl

theorem copied_le_length (b : OutBuffer) (source : Bytes) : b.copied source ≤ source.length :=
  Nat.min_le_right _ _

end FillingLemmas

/-- A fill copies the first bytes of a payload, as many as there is room for, and changes nothing
else. -/
theorem fill_law (b : OutBuffer) (source : Bytes) : FillLaw b source := by
  have hcopied : (source.take (b.copied source)).length = b.copied source := by
    rw [List.length_take, Nat.min_eq_left (copied_le_length b source)]
  constructor
  case copied => rfl
  case truncated =>
    have hcount : b.copied source = min b.capacity source.length := rfl
    show (true && decide (b.capacity < source.length)) = true ↔ b.copied source < source.length
    rw [Bool.true_and, decide_eq_true_iff, hcount]
    omega
  case fixed =>
    rintro bytes rfl
    refine ⟨_, rfl, ?_⟩
    rw [List.length_append, List.length_take, List.length_drop]
    omega
  case vector =>
    rintro bytes rfl
    exact ⟨_, rfl, List.length_take⟩
  case window =>
    rintro w rfl
    exact ⟨_, rfl, length_fill w source, rfl, rfl, remaining_fill w source⟩
  case inside =>
    intro i hi
    have htake : (source.take (b.copied source))[i]? = source[i]? := List.getElem?_take_of_lt hi
    cases b with
    | vector bytes =>
      have hlt : i < bytes.length := Nat.lt_of_lt_of_le hi (Nat.min_le_left _ _)
      show (source.take bytes.length)[0 + i]? = source[i]?
      rw [Nat.zero_add, List.getElem?_take_of_lt hlt]
    | fixed bytes | window w =>
      rw [getElem?_bytes_fill, byte?_of_inside, htake,
        List.getElem?_eq_getElem (Nat.lt_of_lt_of_le hi (copied_le_length _ source)),
        Option.some_or]
      exact nofun
  case outside =>
    intro i hi hout
    cases b with
    | vector bytes =>
      -- a vector keeps nothing but what was copied
      have hlength : i < (source.take bytes.length).length := hi
      have hcount : (OutBuffer.vector bytes).copied source = min bytes.length source.length := rfl
      rw [List.length_take] at hlength
      rw [hcount] at hout
      rcases hout with hbefore | hbeyond
      · exact absurd hbefore (Nat.not_lt_zero i)
      · have hstart : (OutBuffer.vector bytes).start = 0 := rfl
        omega
    | fixed bytes | window w =>
      rw [getElem?_bytes_fill, byte?_of_outside, Option.none_or]
      · rwa [hcopied]
      · exact nofun

/-! ## 3. Calls that copy their answer -/

/-- A call that answers with bytes or without, and the call that copies them into a buffer. -/
structure CopiesInto (plain : Attempt Host (Option Bytes))
    (into : OutBuffer → Attempt Host (Lookup × OutBuffer)) : Prop where
  found : ∀ {h h' bytes}, plain.on h = (.ok (some bytes), h') → ∀ out,
    (into out).on h = (.ok (⟨true, bytes.length⟩, out.fill bytes), h')
  missing : ∀ {h h'}, plain.on h = (.ok none, h') → ∀ out,
    (into out).on h = (.ok (⟨false, 0⟩, out), h')
  failed : ∀ {h h' f}, plain.on h = (.error f, h') → ∀ out, (into out).on h = (.error f, h')

/-- What a read into buffers answers, and the plain read. -/
structure ReadsInto (c : CursorRef) : Prop where
  record : ∀ {h h' k v}, (Host.read c).on h = (.ok (some (k, v)), h') →
    ∀ key value : Option OutBuffer, (key.isSome || value.isSome) = true →
      (Host.readInto c key value).on h =
        (.ok { lengths := some ⟨k.length, v.length⟩, key := key.map (·.fill k),
               value := value.map (·.fill v) }, h')
  eof : ∀ {h h'}, (Host.read c).on h = (.ok none, h') →
    ∀ key value : Option OutBuffer, (key.isSome || value.isSome) = true →
      (Host.readInto c key value).on h = (.ok { lengths := none, key, value }, h')
  failed : ∀ {h h' f}, (Host.read c).on h = (.error f, h') →
    ∀ key value : Option OutBuffer, (key.isSome || value.isSome) = true →
      (Host.readInto c key value).on h = (.error f, h')
  /-- Without a buffer the cursor is not even read. -/
  refused : ∀ h, (Host.readInto c none none).on h = (.error Fault.noBuffer, h)

namespace FillingLemmas

theorem copiesInto_of_bind (plain : Attempt Host (Option Bytes)) :
    CopiesInto plain fun out => do
      let source ← plain
      pure (.ofSource source, out.fillFrom source) where
  found := fun h out => by
    rw [Attempt.on_bind, h]
    rfl
  missing := fun h out => by
    rw [Attempt.on_bind, h]
    rfl
  failed := fun h out => by rw [Attempt.on_bind, h]

theorem on_readInto (c : CursorRef) {key value : Option OutBuffer}
    (hbuffer : (key.isSome || value.isSome) = true) (h : Host) :
    (Host.readInto c key value).on h =
      match (Host.read c).on h with
      | (.ok (some (k, v)), h') =>
        (.ok { lengths := some ⟨k.length, v.length⟩, key := key.map (·.fill k),
               value := value.map (·.fill v) }, h')
      | (.ok none, h') => (.ok { lengths := none, key, value }, h')
      | (.error f, h') => (.error f, h') := by
  have hsome : (key.isNone && value.isNone) = false := by
    cases key <;> cases value <;> first | rfl | cases hbuffer
  unfold Host.readInto
  rw [hsome, if_neg Bool.false_ne_true, Attempt.on_bind]
  rcases (Host.read c).on h with ⟨f | _ | ⟨k, v⟩, h'⟩ <;> rfl

theorem readsInto (c : CursorRef) : ReadsInto c where
  record := fun h key value hbuffer => by rw [on_readInto c hbuffer, h]
  eof := fun h key value hbuffer => by rw [on_readInto c hbuffer, h]
  failed := fun h key value hbuffer => by rw [on_readInto c hbuffer, h]
  refused := fun h => rfl

end FillingLemmas

/-! ## 4. The law -/

/-- What holds of buffers, and of the calls that fill them. -/
structure BufferLaw : Prop where
  /-- Whatever was done with a window, its offsets are in order. -/
  windows : ∀ data calls, WindowLaw data calls ((Window.whole data).after calls)
  /-- A window over a part of a region can be had if the offsets are in order. -/
  parts : ∀ data position limit, position ≤ limit → limit ≤ data.length →
    ∃ w, Window.ofPart data position limit = .ok w ∧ w.position = position ∧ w.limit = limit ∧
      w = (Window.whole data).after [.setLimit limit, .setPosition position]
  noParts : ∀ data position limit, ¬ (position ≤ limit ∧ limit ≤ data.length) →
    ∃ f, Window.ofPart data position limit = .error f ∧ f.kind = .usage
  fills : ∀ b source, FillLaw b source
  getInto : ∀ s t key, CopiesInto (Host.get s t key) (Host.getInto s t key)
  seekInto : ∀ c key, CopiesInto (Host.seek c key) (Host.seekInto c key)
  seekRangeInto : ∀ c low high,
    CopiesInto (Host.seekRange c low high) (Host.seekRangeInto c low high)
  readInto : ∀ c, ReadsInto c

namespace FillingLemmas

theorem ofPart_eq (data : Bytes) (position limit : Nat) :
    Window.ofPart data position limit =
      ((Window.whole data).setLimit limit >>= fun w => w.setPosition position) := rfl

theorem ofPart_ok {data : Bytes} {position limit : Nat} (hposition : position ≤ limit)
    (hlimit : limit ≤ data.length) :
    ∃ w, Window.ofPart data position limit = .ok w ∧ w.position = position ∧ w.limit = limit ∧
      w = (Window.whole data).after [.setLimit limit, .setPosition position] := by
  obtain ⟨w, hw, -, -, hwlimit⟩ := Window.setLimit_ok (w := Window.whole data) hlimit
  obtain ⟨w', hw', -, hwposition, hwlimit'⟩ := Window.setPosition_ok (hwlimit ▸ hposition)
  refine ⟨w', ?_, hwposition, hwlimit'.trans hwlimit, ?_⟩
  · rw [ofPart_eq, hw]
    exact hw'
  · unfold Window.after
    rw [List.foldl_cons, List.foldl_cons, List.foldl_nil,
      WindowCall.next_of_ok (c := .setLimit limit) hw,
      WindowCall.next_of_ok (c := .setPosition position) hw']

theorem ofPart_error {data : Bytes} {position limit : Nat}
    (h : ¬ (position ≤ limit ∧ limit ≤ data.length)) :
    ∃ f, Window.ofPart data position limit = .error f ∧ f.kind = .usage := by
  rw [ofPart_eq]
  by_cases hlimit : limit ≤ data.length
  · obtain ⟨w, hw, -, -, hwlimit⟩ := Window.setLimit_ok (w := Window.whole data) hlimit
    refine ⟨Fault.beyondLimit position w.limit, ?_, rfl⟩
    rw [hw]
    exact Window.setPosition_error fun hle => h ⟨hwlimit ▸ hle, hlimit⟩
  · refine ⟨Fault.beyondCapacity limit data.length, ?_, rfl⟩
    rw [Window.setLimit_error (w := Window.whole data) hlimit]
    rfl

end FillingLemmas

/-- **Buffers are filled exactly within their windows.** Whatever a window went through, a fill
copies as many bytes as it has room for, to its start, and no other byte of the region changes. The
calls that fill buffers tell the exact lengths of what they found, however much of it was copied,
and leave the buffers alone when they find nothing. -/
theorem buffer_law : BufferLaw where
  windows := windowLaw
  parts := fun _ _ _ => ofPart_ok
  noParts := fun _ _ _ => ofPart_error
  fills := fill_law
  getInto := fun s t key => copiesInto_of_bind (Host.get s t key)
  seekInto := fun c key => copiesInto_of_bind (Host.seek c key)
  seekRangeInto := fun c low high => copiesInto_of_bind (Host.seekRange c low high)
  readInto := readsInto

end SnapshotKv
