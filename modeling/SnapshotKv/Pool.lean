/-!
# Pools of numbered things

A `Pool α` hands out consecutive numbers and never gives one out twice. A removed member leaves its
number unused. The view is `Pool.get?`, and `get?_add`, `get?_modify` and `get?_remove` say what
each operation does to it.
-/

namespace SnapshotKv

/-- Members under numbers `0, 1, 2, …` in the order they were added; `none` marks a removed one. -/
structure Pool (α : Type) where
  slots : List (Option α) := []

namespace Pool

variable {α : Type}

instance : Inhabited (Pool α) := ⟨⟨[]⟩⟩

/-- The number that the next added member gets. -/
def nextId (p : Pool α) : Nat := p.slots.length

/-- The member with a number, if it was added and not removed. -/
def get? (p : Pool α) (i : Nat) : Option α := (p.slots[i]?).join

/-- The pool with one more member, which gets the number `p.nextId`. -/
def add (p : Pool α) (a : α) : Pool α := ⟨p.slots ++ [some a]⟩

/-- The pool with one member replaced by its image; a number without a member stays so. -/
def modify (p : Pool α) (i : Nat) (f : α → α) : Pool α := ⟨p.slots.modify i (Option.map f)⟩

/-- The pool without the member of a number. -/
def remove (p : Pool α) (i : Nat) : Pool α := ⟨p.slots.modify i (fun _ => none)⟩

/-- The numbers in use, each with its member, in ascending order. -/
def toList (p : Pool α) : List (Nat × α) :=
  p.slots.zipIdx.filterMap (fun e => e.1.map (fun a => (e.2, a)))

theorem get?_add (p : Pool α) (a : α) (i : Nat) :
    (p.add a).get? i = if i = p.nextId then some a else p.get? i := by
  simp only [get?, add, nextId]
  by_cases h : i = p.slots.length
  · subst h; simp
  · by_cases hl : i < p.slots.length
    · simp [List.getElem?_append_left hl, h]
    · have hnew : (p.slots ++ [some a])[i]? = none :=
        List.getElem?_eq_none (by rw [List.length_append, List.length_singleton]; omega)
      have hold : p.slots[i]? = none := List.getElem?_eq_none (by omega)
      simp [hnew, hold, h]

@[simp] theorem get?_modify (p : Pool α) (i j : Nat) (f : α → α) :
    (p.modify i f).get? j = if i = j then (p.get? j).map f else p.get? j := by
  simp only [get?, modify, List.getElem?_modify]
  by_cases h : i = j
  · subst h
    cases hs : p.slots[i]? with
    | none => simp
    | some o => cases o <;> simp
  · simp [h]

@[simp] theorem get?_remove (p : Pool α) (i j : Nat) :
    (p.remove i).get? j = if i = j then none else p.get? j := by
  simp only [get?, remove, List.getElem?_modify]
  by_cases h : i = j
  · subst h
    cases hs : p.slots[i]? <;> simp
  · simp [h]

end Pool

end SnapshotKv
