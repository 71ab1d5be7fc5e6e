import SnapshotKv.Pool
import SnapshotKv.SortedMap

/-!
# Laws of sorted maps and pools

What the containers of a database answer after they were filtered, mapped or changed at one place.

Results:
1. `SortedMap.mem_entries_iff`: the entries of a map are its bindings; `SortedMap.ext_get?`: two maps
   with the same bindings are equal.
2. `SortedMap.get?_filter`, `SortedMap.get?_filterMap`: the bindings that are left.
3. `Pool.map`: all members replaced by their images, with `Pool.get?_map` and how it meets the other
   operations.
4. `Pool.mem_members_iff`, `Pool.members_add`, `Pool.exists_members_perm`: the list of members, and
   how it changes with one member.
-/

namespace SnapshotKv

/-! ## 1. Entries and bindings -/

namespace SortedMap

variable {κ α β : Type} [LT κ] [KeyOrder κ]

theorem ne_of_lt {a b : κ} (h : a < b) : a ≠ b := by
  rintro rfl
  exact KeyOrder.irrefl a h

theorem lookup_eq_some_iff [BEq κ] [LawfulBEq κ] {l : List (κ × α)}
    (h : l.Pairwise (fun a b => a.1 < b.1)) {k : κ} {v : α} :
    l.lookup k = some v ↔ (k, v) ∈ l := by
  induction l with
  | nil => simp
  | cons e rest ih =>
    obtain ⟨ke, ve⟩ := e
    obtain ⟨hlt, hrest⟩ := List.pairwise_cons.1 h
    simp only [List.lookup_cons, List.mem_cons, Prod.mk.injEq]
    by_cases hk : k = ke
    · subst hk
      have hnot : (k, v) ∉ rest := fun hm => ne_of_lt (hlt _ hm) rfl
      simp [hnot, eq_comm]
    · have : (k == ke) = false := beq_eq_false_iff_ne.2 hk
      simp [this, ih hrest, hk]

theorem mem_entries_iff [BEq κ] [LawfulBEq κ] (m : SortedMap κ α) {k : κ} {v : α} :
    (k, v) ∈ m.entries ↔ m.get? k = some v :=
  (lookup_eq_some_iff m.sorted).symm

theorem mem_values_iff [BEq κ] [LawfulBEq κ] (m : SortedMap κ α) {v : α} :
    v ∈ m.values ↔ ∃ k, m.get? k = some v := by
  simp only [values, List.mem_map, Prod.exists]
  constructor
  · rintro ⟨k, w, hm, rfl⟩
    exact ⟨k, m.mem_entries_iff.1 hm⟩
  · rintro ⟨k, hk⟩
    exact ⟨k, v, m.mem_entries_iff.2 hk, rfl⟩

/-- Two ascending lists with the same members are equal. -/
theorem eq_of_pairwise_of_mem_iff {l l' : List (κ × α)} (h : l.Pairwise (fun a b => a.1 < b.1))
    (h' : l'.Pairwise (fun a b => a.1 < b.1)) (hm : ∀ e, e ∈ l ↔ e ∈ l') : l = l' := by
  induction l generalizing l' with
  | nil =>
    cases l' with
    | nil => rfl
    | cons e rest => exact absurd ((hm e).2 (by simp)) (by simp)
  | cons e rest ih =>
    cases l' with
    | nil => exact absurd ((hm e).1 (by simp)) (by simp)
    | cons e' rest' =>
      obtain ⟨hlt, hrest⟩ := List.pairwise_cons.1 h
      obtain ⟨hlt', hrest'⟩ := List.pairwise_cons.1 h'
      have heq : e = e' := by
        rcases List.mem_cons.1 ((hm e).1 (by simp)) with he | he
        · exact he
        · rcases List.mem_cons.1 ((hm e').2 (by simp)) with he' | he'
          · exact he'.symm
          · exact absurd (KeyOrder.trans _ _ _ (hlt _ he') (hlt' _ he)) (KeyOrder.irrefl _)
      subst heq
      congr 1
      refine ih hrest hrest' fun x => ⟨fun hx => ?_, fun hx => ?_⟩
      · rcases List.mem_cons.1 ((hm x).1 (List.mem_cons_of_mem _ hx)) with rfl | hx'
        · exact absurd (hlt _ hx) (KeyOrder.irrefl _)
        · exact hx'
      · rcases List.mem_cons.1 ((hm x).2 (List.mem_cons_of_mem _ hx)) with rfl | hx'
        · exact absurd (hlt' _ hx) (KeyOrder.irrefl _)
        · exact hx'

theorem ext_get? [BEq κ] [LawfulBEq κ] {m m' : SortedMap κ α} (h : ∀ k, m.get? k = m'.get? k) :
    m = m' := by
  obtain ⟨l, hl⟩ := m
  obtain ⟨l', hl'⟩ := m'
  have hm : ∀ e : κ × α, e ∈ l ↔ e ∈ l' := by
    rintro ⟨k, v⟩
    have hk : l.lookup k = l'.lookup k := h k
    rw [← lookup_eq_some_iff hl, ← lookup_eq_some_iff hl', hk]
  have := eq_of_pairwise_of_mem_iff hl hl' hm
  subst this
  rfl

/-! ## 2. Filtered and mapped maps -/

theorem get?_filter [BEq κ] [LawfulBEq κ] (m : SortedMap κ α) (p : κ → α → Bool) (k : κ) :
    (m.filter p).get? k = (m.get? k).filter (p k) := by
  apply Option.ext
  intro v
  rw [← mem_entries_iff, Option.filter_eq_some_iff, ← mem_entries_iff]
  simp [filter]

theorem get?_filterMap [BEq κ] [LawfulBEq κ] (m : SortedMap κ α) (f : κ → α → Option β) (k : κ) :
    (m.filterMap f).get? k = (m.get? k).bind (f k) := by
  apply Option.ext
  intro v
  rw [← mem_entries_iff, Option.bind_eq_some_iff]
  simp only [filterMap, List.mem_filterMap, Option.map_eq_some_iff, Prod.mk.injEq, Prod.exists]
  constructor
  · rintro ⟨k', w, hm, v', hv, rfl, rfl⟩
    exact ⟨w, m.mem_entries_iff.1 hm, hv⟩
  · rintro ⟨w, hw, hv⟩
    exact ⟨k, w, m.mem_entries_iff.2 hw, v, hv, rfl, rfl⟩

end SortedMap

/-! ## 3. Pools -/

namespace Pool

variable {α β : Type}

/-- The pool with every member replaced by its image. -/
def map (p : Pool α) (f : α → β) : Pool β := ⟨p.slots.map (Option.map f)⟩

@[simp] theorem get?_map (p : Pool α) (f : α → β) (i : Nat) :
    (p.map f).get? i = (p.get? i).map f := by
  simp only [get?, map, List.getElem?_map]
  cases p.slots[i]? with
  | none => rfl
  | some o => cases o <;> rfl

@[simp] theorem nextId_map (p : Pool α) (f : α → β) : (p.map f).nextId = p.nextId := by
  simp [nextId, map]

@[simp] theorem map_add (p : Pool α) (f : α → β) (a : α) :
    (p.add a).map f = (p.map f).add (f a) := by
  simp [map, add]

@[simp] theorem map_map {γ : Type} (p : Pool α) (f : α → β) (g : β → γ) :
    (p.map f).map g = p.map (fun a => g (f a)) := by
  simp [map, Function.comp_def]

/-- Pools with the same images have members with the same images. -/
theorem get?_of_map_eq {p p' : Pool α} {f : α → β} (h : p'.map f = p.map f) {i : Nat} {a' : α}
    (ha : p'.get? i = some a') : ∃ a, p.get? i = some a ∧ f a' = f a := by
  have hi : (p'.map f).get? i = (p.map f).get? i := by rw [h]
  rw [get?_map, get?_map, ha, Option.map_some] at hi
  obtain ⟨a, ha, hfa⟩ := Option.map_eq_some_iff.1 hi.symm
  exact ⟨a, ha, hfa.symm⟩

@[simp] theorem nextId_modify (p : Pool α) (i : Nat) (f : α → α) :
    (p.modify i f).nextId = p.nextId := by
  simp [nextId, modify]

@[simp] theorem nextId_add (p : Pool α) (a : α) : (p.add a).nextId = p.nextId + 1 := by
  simp [nextId, add]

@[simp] theorem nextId_remove (p : Pool α) (i : Nat) : (p.remove i).nextId = p.nextId := by
  simp [nextId, remove]

/-- Pools that gave out the same numbers and have the same members are equal. -/
theorem ext_get? {p q : Pool α} (hnext : p.nextId = q.nextId) (h : ∀ i, p.get? i = q.get? i) :
    p = q := by
  obtain ⟨l⟩ := p
  obtain ⟨l'⟩ := q
  congr 1
  refine List.ext_getElem hnext fun i hi hi' => ?_
  have hjoin := h i
  simp only [Pool.get?, List.getElem?_eq_getElem hi, List.getElem?_eq_getElem hi',
    Option.join_some] at hjoin
  exact hjoin

/-- The pool with every member replaced by its image, which may depend on its number. -/
def mapIdx (p : Pool α) (f : Nat → α → β) : Pool β := ⟨p.slots.mapIdx fun i => Option.map (f i)⟩

@[simp] theorem nextId_mapIdx (p : Pool α) (f : Nat → α → β) : (p.mapIdx f).nextId = p.nextId := by
  simp [nextId, mapIdx]

@[simp] theorem get?_mapIdx (p : Pool α) (f : Nat → α → β) (i : Nat) :
    (p.mapIdx f).get? i = (p.get? i).map (f i) := by
  simp only [get?, mapIdx, List.getElem?_mapIdx]
  cases p.slots[i]? with
  | none => rfl
  | some o => cases o <;> rfl

theorem mapIdx_add (p : Pool α) (f : Nat → α → β) (a : α) :
    (p.add a).mapIdx f = (p.mapIdx f).add (f p.nextId a) := by
  refine ext_get? (by simp) fun j => ?_
  rw [get?_mapIdx, get?_add, get?_add, nextId_mapIdx, get?_mapIdx]
  split
  · next hj => rw [Option.map_some, hj]
  · rfl

theorem mapIdx_remove (p : Pool α) (f : Nat → α → β) (i : Nat) :
    (p.remove i).mapIdx f = (p.mapIdx f).remove i := by
  refine ext_get? (by simp) fun j => ?_
  rw [get?_mapIdx, get?_remove, get?_remove, get?_mapIdx]
  split <;> rfl

theorem mapIdx_modify (p : Pool α) (i : Nat) {f : Nat → α → β} {g : α → α} {k : β → β}
    (h : ∀ a, p.get? i = some a → f i (g a) = k (f i a)) :
    (p.modify i g).mapIdx f = (p.mapIdx f).modify i k := by
  refine ext_get? (by simp) fun j => ?_
  rw [get?_mapIdx, get?_modify, get?_modify, get?_mapIdx]
  by_cases hij : i = j
  · subst hij
    rw [if_pos rfl, if_pos rfl, Option.map_map, Option.map_map]
    cases ha : p.get? i with
    | none => rfl
    | some a => exact congrArg some (h a ha)
  · rw [if_neg hij, if_neg hij]

/-- Images that do not depend on the numbers. -/
theorem map_eq_mapIdx (p : Pool α) (f : α → β) : p.map f = p.mapIdx fun _ => f :=
  ext_get? (by simp) fun i => by rw [get?_map, get?_mapIdx]

theorem map_modify (p : Pool α) (i : Nat) {f : α → β} {g : α → α} {g' : β → β}
    (h : ∀ a, p.get? i = some a → f (g a) = g' (f a)) :
    (p.modify i g).map f = (p.map f).modify i g' := by
  rw [map_eq_mapIdx, map_eq_mapIdx]
  exact p.mapIdx_modify i h

/-- A change that the images do not show. -/
theorem map_modify_of_eq (p : Pool α) (i : Nat) {f : α → β} {g : α → α}
    (h : ∀ a, f (g a) = f a) : (p.modify i g).map f = p.map f := by
  refine ext_get? (by simp) fun j => ?_
  rw [get?_map, get?_modify, get?_map]
  split
  · rw [Option.map_map]
    exact congrArg (fun f' => (p.get? j).map f') (funext h)
  · rfl

theorem modify_congr {p : Pool α} {i : Nat} {f g : α → α}
    (h : ∀ a, p.get? i = some a → f a = g a) : p.modify i f = p.modify i g := by
  refine ext_get? (by simp) fun j => ?_
  rw [get?_modify, get?_modify]
  by_cases hij : i = j
  · subst hij
    rw [if_pos rfl, if_pos rfl]
    exact Option.map_congr h
  · rw [if_neg hij, if_neg hij]

/-- A change that changes nothing at the number. -/
theorem modify_eq_self {p : Pool α} {i : Nat} {f : α → α} (h : ∀ a, p.get? i = some a → f a = a) :
    p.modify i f = p := by
  refine ext_get? (by simp) fun j => ?_
  rw [get?_modify]
  split
  · next hij =>
    rw [← hij]
    cases ha : p.get? i with
    | none => rfl
    | some a => exact congrArg some (h a ha)
  · rfl

theorem modify_modify (p : Pool α) (i : Nat) (f g : α → α) :
    (p.modify i f).modify i g = p.modify i fun a => g (f a) := by
  refine ext_get? (by simp) fun j => ?_
  simp only [get?_modify]
  split
  · exact Option.map_map g f (p.get? j)
  · rfl

/-- A member was added before the next number. -/
theorem lt_nextId {p : Pool α} {i : Nat} {a : α} (h : p.get? i = some a) : i < p.nextId := by
  apply Decidable.byContradiction
  intro hn
  have : p.slots[i]? = none := List.getElem?_eq_none (by simpa [nextId] using hn)
  simp [get?, this] at h

@[simp] theorem get?_nextId (p : Pool α) : p.get? p.nextId = none := by
  cases h : p.get? p.nextId with
  | none => rfl
  | some a => exact absurd (lt_nextId h) (Nat.lt_irrefl _)

/-- A member that is there after a further one was added. -/
theorem get?_add_eq_some {p : Pool α} {a b : α} {i : Nat} (h : (p.add a).get? i = some b) :
    p.get? i = some b ∨ i = p.nextId ∧ b = a := by
  rw [get?_add] at h
  split at h
  · next hi => exact .inr ⟨hi, (Option.some.inj h).symm⟩
  · exact .inl h

@[simp] theorem get?_add_nextId (p : Pool α) (a : α) : (p.add a).get? p.nextId = some a := by
  rw [get?_add, if_pos rfl]

theorem get?_add_of_some {p : Pool α} {b : α} {i : Nat} (a : α) (h : p.get? i = some b) :
    (p.add a).get? i = some b := by
  rw [get?_add, if_neg (Nat.ne_of_lt (lt_nextId h)), h]

/-! ## 4. The members of a pool -/

/-- The members in the order of their numbers. -/
def members (p : Pool α) : List α := p.slots.filterMap id

@[simp] theorem members_add (p : Pool α) (a : α) : (p.add a).members = p.members ++ [a] := by
  simp [members, add]

theorem mem_members_iff {p : Pool α} {a : α} : a ∈ p.members ↔ ∃ i, p.get? i = some a := by
  unfold members get?
  rw [List.mem_filterMap]
  simp only [id_eq, Option.join_eq_some_iff]
  constructor
  · rintro ⟨o, hmem, rfl⟩
    exact List.mem_iff_getElem?.1 hmem
  · rintro ⟨i, hi⟩
    exact ⟨some a, List.mem_of_getElem? hi, rfl⟩

/-- One member stands out: the others stay when it is replaced or removed. -/
theorem exists_members_perm {p : Pool α} {i : Nat} {a : α} (h : p.get? i = some a) :
    ∃ rest, p.members.Perm (a :: rest) ∧ (p.remove i).members = rest ∧
      ∀ f : α → α, (p.modify i f).members.Perm (f a :: rest) := by
  obtain ⟨slots⟩ := p
  have hs : slots[i]? = some (some a) := by
    cases hs : slots[i]? with
    | none => simp [get?, hs] at h
    | some o => simpa [get?, hs] using h
  unfold members remove modify
  clear h
  induction slots generalizing i with
  | nil => simp at hs
  | cons o rest ih =>
    cases i with
    | zero =>
      have ho : o = some a := by simpa using hs
      subst ho
      exact ⟨rest.filterMap id, by simp, by simp, fun f => by simp⟩
    | succ i =>
      obtain ⟨others, hp, hr, hm⟩ := ih (by simpa using hs)
      cases o with
      | none => exact ⟨others, by simpa using hp, by simpa using hr, fun f => by simpa using hm f⟩
      | some b =>
        refine ⟨b :: others, ?_, by simpa using hr, fun f => ?_⟩
        · simpa using (hp.cons b).trans (List.Perm.swap a b others)
        · simpa using ((hm f).cons b).trans (List.Perm.swap (f a) b others)

end Pool

end SnapshotKv
