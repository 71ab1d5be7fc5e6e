/-!
# Texts without terminal controls

A text may hold control characters and escape sequences that a terminal obeys instead of showing
them. `Terminal.plain` is what is left of a text without them: a terminal is always in a `Mode`, and
each character is shown or not and leads to the next mode. `plain_eq_self`: a text of visible
characters is its own plain text.
-/

namespace SnapshotKv.Text.Terminal

/-- What a terminal takes the next character for. -/
inductive Mode where
  /-- Text to be shown. -/
  | text
  /-- The character after an escape. -/
  | escape
  /-- The end of an escape sequence that has begun with a mark. -/
  | escapeTail
  /-- A control sequence, up to its letter. -/
  | control
  /-- The first character of a device control. -/
  | device
  /-- The numbers of a device control. -/
  | deviceNumbers
  /-- The marks after the numbers of a device control. -/
  | deviceTail
  /-- A string that only a terminator ends. -/
  | string
  /-- A system command, which the bell ends. -/
  | command
  deriving DecidableEq, Repr

/-- Whether a control character lays out text: tab, newline, form feed or carriage return. -/
def isLayout (c : Char) : Bool := c = '\t' || c = '\n' || c = '\x0c' || c = '\r'

/-- Whether a character of a text is shown. -/
def isVisible (c : Char) : Bool := isLayout c || (0x20 ≤ c.toNat && c.toNat ≠ 0x7F)

/-- Whether the encoding of a character holds the byte that ends a string. -/
def endsString (c : Char) : Bool := (String.utf8EncodeChar c).contains 0x9C

/-- The mode after an ASCII character from the space to the tilde in a mode other than text. -/
def Mode.follow (m : Mode) (c : Char) : Mode :=
  let n := c.toNat
  match m with
  | .text => .text
  | .escape =>
    if n < 0x30 then .escapeTail
    else match c with
      | '[' => .control
      | ']' => .command
      | 'P' => .device
      | 'X' | '^' | '_' => .string
      | _ => .text
  | .escapeTail => if n < 0x30 then .escapeTail else .text
  | .control => if n < 0x40 then .control else .text
  | .device => if n < 0x30 then .deviceTail else if n < 0x40 then .deviceNumbers else .string
  | .deviceNumbers => if n < 0x30 then .deviceTail else if n < 0x3C then .deviceNumbers else .string
  | .deviceTail => if n < 0x30 then .deviceTail else .string
  | .string => .string
  | .command => .command

/-- The mode after a character, and whether it is shown. An escape starts anew wherever it stands,
and two control characters end any sequence. -/
def Mode.next (m : Mode) (c : Char) : Mode × Bool :=
  if c = '\x1b' then (.escape, false)
  else if c = '\x18' ∨ c = '\x1a' then (.text, false)
  else match m with
    | .text => (.text, isVisible c)
    | .escape | .escapeTail | .control =>
      if isLayout c then (.text, true)
      else if c.toNat < 0x20 ∨ 0x7F ≤ c.toNat then (m, false)
      else (m.follow c, false)
    | .device | .deviceNumbers | .deviceTail =>
      if c.toNat < 0x20 ∨ 0x7F ≤ c.toNat then (m, false) else (m.follow c, false)
    | .string => (if endsString c then .text else .string, false)
    | .command => (if c = '\x07' then .text else .command, false)

/-- The characters that are shown from a mode on. -/
def shown (m : Mode) : List Char → List Char
  | [] => []
  | c :: rest =>
    if (m.next c).2 then c :: shown (m.next c).1 rest else shown (m.next c).1 rest

/-- A text without what a terminal would obey. -/
def plain (s : String) : String := String.ofList (shown .text s.toList)

theorem next_text_of_isVisible {c : Char} (h : isVisible c = true) :
    Mode.text.next c = (.text, true) := by
  have hc : c ≠ '\x1b' ∧ c ≠ '\x18' ∧ c ≠ '\x1a' := by
    refine ⟨?_, ?_, ?_⟩ <;> (rintro rfl; revert h; decide)
  simp [Mode.next, hc.1, hc.2.1, hc.2.2, h]

theorem shown_eq_self {cs : List Char} (h : ∀ c ∈ cs, isVisible c = true) :
    shown .text cs = cs := by
  induction cs with
  | nil => rfl
  | cons c rest ih =>
    have hc := next_text_of_isVisible (h c List.mem_cons_self)
    simp [shown, hc, ih fun d hd => h d (List.mem_cons_of_mem c hd)]

theorem plain_eq_self {s : String} (h : ∀ c ∈ s.toList, isVisible c = true) : plain s = s := by
  simp [plain, shown_eq_self h]

end SnapshotKv.Text.Terminal
