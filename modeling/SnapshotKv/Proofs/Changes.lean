import Mathlib.Data.List.Induction
import SnapshotKv.Proofs.Pruning
import SnapshotKv.WriteSet

/-!
# Changes

A `Change` is what a caller can do to the contents of a store: put a key, delete a key, delete a
prefix. The same change is applied to a tree, collected in a write set, or read off a list.

Results:
1. `Change.after_eq`: after some changes, a key has what the last change that covers it leaves, and
   its old value when none does.
2. `lookup_ofChanges`, `isEmpty_ofChanges_iff`: a write set says the same of a key.
3. `overwrites_onTree`, `overwrites_applyTo`: both ways of committing changes to a tree, one at once
   and a write set at one sequence number, make the tree `Overwrites` itself by them.
4. `pruned_onTree`, `pruned_applyTo`: they commute with pruning.
-/

namespace SnapshotKv

/-- One change to the contents of a store. -/
inductive Change where
  | put (key value : Bytes)
  | delete (key : Bytes)
  | deletePrefix (stem : Bytes)
  deriving DecidableEq, Repr

namespace Change

/-- Whether the change decides a key. -/
def covers : Change → Bytes → Bool
  | .put k _, key | .delete k, key => key == k
  | .deletePrefix stem, key => stem.isPrefixOf key

/-- What the change leaves under the keys that it covers. -/
def leaves : Change → Option Bytes
  | .put _ value => some value
  | .delete _ | .deletePrefix _ => none

/-- The tree after the change was committed at a sequence number. -/
def onTree : Change → VersionTree → Nat → VersionTree
  | .put key value, t, n => t.insert key n (some value)
  | .delete key, t, n => t.insert key n none
  | .deletePrefix stem, t, n => t.deletePrefix stem n

/-- The write set after the change was collected. -/
def onWrites : Change → WriteSet → WriteSet
  | .put key value, w => w.put key value
  | .delete key, w => w.delete key
  | .deletePrefix stem, w => w.deletePrefix stem

/-- The value of a key after some changes, made one after another. -/
def after (changes : List Change) (key : Bytes) (value : Option Bytes) : Option Bytes :=
  changes.foldl (fun v c => if c.covers key then c.leaves else v) value

/-- The last of some changes that covers a key. -/
def lastOn (changes : List Change) (key : Bytes) : Option Change :=
  changes.reverse.find? fun c => c.covers key

/-! ## 1. Lists of changes -/

theorem after_append (older newer : List Change) (key : Bytes) (value : Option Bytes) :
    after (older ++ newer) key value = after newer key (after older key value) :=
  List.foldl_append

theorem lastOn_concat (changes : List Change) (c : Change) (key : Bytes) :
    lastOn (changes ++ [c]) key = if c.covers key then some c else lastOn changes key := by
  unfold lastOn
  rw [List.reverse_append, List.reverse_singleton, List.singleton_append, List.find?_cons]
  cases c.covers key <;> rfl

theorem lastOn_isSome_iff {changes : List Change} {key : Bytes} :
    (lastOn changes key).isSome = true ↔ ∃ c ∈ changes, c.covers key = true := by
  simp [lastOn]

theorem after_eq (changes : List Change) (key : Bytes) (value : Option Bytes) :
    after changes key value = ((lastOn changes key).map leaves).getD value := by
  induction changes using List.reverseRecOn with
  | nil => rfl
  | append_singleton changes c ih =>
    rw [after_append, ih, lastOn_concat]
    by_cases hc : c.covers key = true <;> simp [after, hc]

end Change

/-! ## 2. Write sets -/

namespace WriteSet

/-- The write set that collects some changes, one after another. -/
def ofChanges (changes : List Change) : WriteSet := changes.foldl (fun w c => c.onWrites w) {}

/-- What a write set says about a key that a change leaves with a value, or without one. -/
def overlayOf : Option Bytes → Overlay
  | some v => .value v
  | none => .deleted

@[simp] theorem ofChanges_nil : ofChanges [] = {} := rfl

theorem ofChanges_concat (changes : List Change) (c : Change) :
    ofChanges (changes ++ [c]) = c.onWrites (ofChanges changes) := by
  simp [ofChanges]

theorem lookup_eq (w : WriteSet) (key : Bytes) :
    w.lookup key = match w.entries.get? key with
      | some value => overlayOf value
      | none => if w.prefixes.any (fun stem => stem.isPrefixOf key) then .deleted else .absent := by
  unfold lookup
  cases w.entries.get? key with
  | none => rfl
  | some value => cases value <;> rfl

theorem any_prefixes_deletePrefix (w : WriteSet) (stem key : Bytes) :
    (w.deletePrefix stem).prefixes.any (fun stem => stem.isPrefixOf key) =
      (stem.isPrefixOf key || w.prefixes.any (fun stem => stem.isPrefixOf key)) := by
  unfold deletePrefix
  split
  · next h =>
    by_cases hp : stem.isPrefixOf key = true
    · have : w.prefixes.any (fun stem => stem.isPrefixOf key) = true :=
        List.any_eq_true.2 ⟨stem, List.contains_iff_mem.1 h, hp⟩
      rw [this, Bool.or_true]
    · rw [Bool.eq_false_iff.2 hp, Bool.false_or]
  · rw [List.any_append, List.any_cons, List.any_nil, Bool.or_false, Bool.or_comm]

theorem lookup_insert (w : WriteSet) (k key : Bytes) (value : Option Bytes) :
    lookup { w with entries := w.entries.insert k value } key =
      if key == k then overlayOf value else w.lookup key := by
  rw [lookup_eq, lookup_eq, SortedMap.get?_insert]
  by_cases hk : (key == k) = true
  · rw [if_pos hk, if_pos hk]
  · rw [if_neg hk, if_neg hk]

theorem lookup_deletePrefix (w : WriteSet) (stem key : Bytes) :
    (w.deletePrefix stem).lookup key = if stem.isPrefixOf key then .deleted else w.lookup key := by
  rw [lookup_eq, lookup_eq, any_prefixes_deletePrefix]
  simp only [deletePrefix, SortedMap.get?_filter]
  by_cases hp : stem.isPrefixOf key = true
  · simp [hp]
  · rw [Bool.eq_false_iff.2 hp, if_neg Bool.false_ne_true]
    cases w.entries.get? key <;> simp [Option.filter]

theorem lookup_onWrites (c : Change) (w : WriteSet) (key : Bytes) :
    (c.onWrites w).lookup key = if c.covers key then overlayOf c.leaves else w.lookup key := by
  cases c with
  | put k value => exact lookup_insert w k key (some value)
  | delete k => exact lookup_insert w k key none
  | deletePrefix stem => exact lookup_deletePrefix w stem key

/-- A write set says of a key what the last collected change that covers it leaves. -/
theorem lookup_ofChanges (changes : List Change) (key : Bytes) :
    (ofChanges changes).lookup key =
      ((Change.lastOn changes key).map fun c => overlayOf c.leaves).getD .absent := by
  induction changes using List.reverseRecOn with
  | nil => rfl
  | append_singleton changes c ih =>
    rw [ofChanges_concat, lookup_onWrites, ih, Change.lastOn_concat]
    by_cases hc : c.covers key = true <;> simp [hc]

theorem overlayOf_ne_absent (value : Option Bytes) : overlayOf value ≠ .absent := by
  cases value <;> exact Overlay.noConfusion

theorem shadows_ofChanges (changes : List Change) (key : Bytes) :
    (ofChanges changes).shadows key = (Change.lastOn changes key).isSome := by
  unfold shadows
  rw [lookup_ofChanges]
  cases Change.lastOn changes key with
  | none => rfl
  | some c => simp [overlayOf_ne_absent]

theorem insertEntry_ne_nil {κ α : Type} [LT κ] [DecidableLT κ] (k : κ) (v : α)
    (l : List (κ × α)) : SortedMap.insertEntry k v l ≠ [] := by
  cases l with
  | nil => simp [SortedMap.insertEntry]
  | cons e rest =>
    unfold SortedMap.insertEntry
    split
    · simp
    · split <;> simp

theorem isEmpty_onWrites (c : Change) (w : WriteSet) : (c.onWrites w).isEmpty = false := by
  cases c with
  | put k value | delete k =>
    simp [Change.onWrites, put, delete, isEmpty, SortedMap.insert, insertEntry_ne_nil]
  | deletePrefix stem =>
    simp only [Change.onWrites, deletePrefix, isEmpty, Bool.and_eq_false_iff]
    refine .inr ?_
    split
    · next h => exact List.isEmpty_eq_false_iff_exists_mem.2 ⟨stem, List.contains_iff_mem.1 h⟩
    · simp

/-- A write set is empty only when nothing was collected. -/
theorem isEmpty_ofChanges_iff {changes : List Change} :
    (ofChanges changes).isEmpty = true ↔ changes = [] := by
  rcases List.eq_nil_or_concat changes with rfl | ⟨older, c, rfl⟩
  · simp [isEmpty, SortedMap.empty]
  · rw [List.concat_eq_append, ofChanges_concat, isEmpty_onWrites]
    simp

end WriteSet

/-! ## 3. Commits to a tree -/

namespace VersionTree

/-- `Overwrites t t' n changes`: the tree `t'` is `t` after some changes were committed at `n`. Views
below `n` do not see the difference, and the changes touch what they cover. -/
structure Overwrites (t t' : VersionTree) (n : Nat) (changes : List Change) : Prop where
  before : ∀ key view, view < n → t'.get key view = t.get key view
  since : ∀ key view, n ≤ view → t'.get key view = Change.after changes key (t.get key view)
  touched : ∀ key view, view < n →
    t'.touchedSince view key = ((Change.lastOn changes key).isSome || t.touchedSince view key)
  upTo : t'.UpTo n

theorem overwrites_onTree {t : VersionTree} {n : Nat} (ht : t.Below n) (c : Change) :
    Overwrites t (c.onTree t n) n [c] := by
  have hlast : ∀ key, (Change.lastOn [c] key).isSome = c.covers key := by
    intro key
    rw [← List.nil_append [c], Change.lastOn_concat]
    cases c.covers key <;> rfl
  have hafter : ∀ key value,
      Change.after [c] key value = if c.covers key then c.leaves else value := fun _ _ => rfl
  constructor
  · intro key view hview
    cases c with
    | put k value | delete k => exact get_insert_of_lt t _ key _ hview
    | deletePrefix stem => exact get_deletePrefix_of_lt t stem key hview
  · intro key view hview
    rw [hafter]
    cases c with
    | put k value | delete k =>
      refine (get_insert_of_le ht.upTo k key _ hview).trans ?_
      by_cases hk : key = k
      · subst hk
        simp [Change.covers, Change.leaves]
      · simp [Change.covers, hk]
    | deletePrefix stem => exact get_deletePrefix_of_le ht stem key hview
  · intro key view hview
    rw [hlast]
    cases c with
    | put k value | delete k => exact touchedSince_insert t k key _ hview
    | deletePrefix stem => exact touchedSince_deletePrefix t stem key hview
  · cases c with
    | put k value | delete k => exact ht.upTo.insert _ _
    | deletePrefix stem => exact ht.upTo.deletePrefix stem

end VersionTree

namespace WriteSet

open VersionTree

/-- The tree after the prefixes of a write set were deleted. -/
def applyPrefixes (w : WriteSet) (t : VersionTree) (n : Nat) : VersionTree :=
  w.prefixes.foldl (fun t stem => t.deletePrefix stem n) t

theorem applyTo_eq (w : WriteSet) (t : VersionTree) (n : Nat) :
    w.applyTo t n =
      w.entries.entries.foldl (fun t e => t.insert e.1 n e.2) (w.applyPrefixes t n) := rfl

theorem versionsOf_applyPrefixes (w : WriteSet) (t : VersionTree) (n : Nat) (key : Bytes) :
    (w.applyPrefixes t n).versionsOf key = t.versionsOf key := by
  unfold applyPrefixes
  induction w.prefixes generalizing t with
  | nil => rfl
  | cons stem rest ih => rw [List.foldl_cons, ih, versionsOf_deletePrefix]

theorem tombstones_applyPrefixes (w : WriteSet) (t : VersionTree) (n : Nat) :
    (w.applyPrefixes t n).tombstones = t.tombstones ++ w.prefixes.map fun stem => ⟨stem, n⟩ := by
  unfold applyPrefixes
  induction w.prefixes generalizing t with
  | nil => simp
  | cons stem rest ih => simp [ih]

theorem tombstones_foldl_insert (l : List (Bytes × Option Bytes)) (t : VersionTree) (n : Nat) :
    (l.foldl (fun t e => t.insert e.1 n e.2) t).tombstones = t.tombstones := by
  induction l generalizing t with
  | nil => rfl
  | cons e rest ih => rw [List.foldl_cons, ih, tombstones_insert]

theorem versionsOf_foldl_insert {l : List (Bytes × Option Bytes)}
    (hl : l.Pairwise (fun a b => a.1 < b.1)) (t : VersionTree) (n : Nat) (key : Bytes) :
    (l.foldl (fun t e => t.insert e.1 n e.2) t).versionsOf key =
      match l.lookup key with
      | some value => pushVersion (t.versionsOf key) ⟨n, value⟩
      | none => t.versionsOf key := by
  induction l generalizing t with
  | nil => rfl
  | cons e rest ih =>
    obtain ⟨k, value⟩ := e
    obtain ⟨hlt, hrest⟩ := List.pairwise_cons.1 hl
    rw [List.foldl_cons, ih hrest, List.lookup_cons]
    simp only [versionsOf_insert]
    by_cases hk : key = k
    · subst hk
      -- the keys ascend, so no later entry is for this one
      have hnone : rest.lookup key = none := by
        cases hv : rest.lookup key with
        | none => rfl
        | some w =>
          have hm := (SortedMap.lookup_eq_some_iff hrest).1 hv
          exact absurd (hlt _ hm) (KeyOrder.irrefl _)
      simp [hnone]
    · have : (key == k) = false := beq_eq_false_iff_ne.2 hk
      simp [this, hk]

theorem tombstones_applyTo (w : WriteSet) (t : VersionTree) (n : Nat) :
    (w.applyTo t n).tombstones = t.tombstones ++ w.prefixes.map fun stem => ⟨stem, n⟩ := by
  rw [applyTo_eq, tombstones_foldl_insert, tombstones_applyPrefixes]

theorem versionsOf_applyTo (w : WriteSet) (t : VersionTree) (n : Nat) (key : Bytes) :
    (w.applyTo t n).versionsOf key =
      match w.entries.get? key with
      | some value => pushVersion (t.versionsOf key) ⟨n, value⟩
      | none => t.versionsOf key := by
  rw [applyTo_eq, versionsOf_foldl_insert w.entries.sorted, versionsOf_applyPrefixes]
  rfl

theorem upTo_applyTo {t : VersionTree} {n : Nat} (ht : t.UpTo n) (w : WriteSet) :
    (w.applyTo t n).UpTo n := by
  constructor
  · intro key v hv
    rw [versionsOf_applyTo] at hv
    split at hv
    · rcases mem_pushVersion hv with hv | rfl
      · exact ht.versions key v hv
      · exact Nat.le_refl n
    · exact ht.versions key v hv
  · intro s hs
    rw [tombstones_applyTo] at hs
    rcases List.mem_append.1 hs with hs | hs
    · exact ht.tombstones s hs
    · obtain ⟨stem, -, rfl⟩ := List.mem_map.1 hs
      exact Nat.le_refl n

/-- A commit hides what its prefixes cover and is older, from the views that reach it. -/
theorem isHidden_applyTo (w : WriteSet) (t : VersionTree) (n : Nat) (key : Bytes) (v : Version)
    (view : Nat) :
    (w.applyTo t n).isHidden key v view =
      (t.isHidden key v view ||
        (n ≤ view && v.seqno < n && w.prefixes.any fun stem => stem.isPrefixOf key)) := by
  unfold isHidden
  rw [tombstones_applyTo, List.any_append, List.any_map]
  cases hview : decide (n ≤ view) <;> cases hlt : decide (v.seqno < n) <;>
    simp [Function.comp_def, hview, hlt]

theorem get_applyTo_of_lt (w : WriteSet) (t : VersionTree) {n view : Nat} (key : Bytes)
    (h : view < n) : (w.applyTo t n).get key view = t.get key view := by
  have hhid : ∀ v, (w.applyTo t n).isHidden key v view = t.isHidden key v view := by
    intro v
    rw [isHidden_applyTo, decide_eq_false (Nat.not_le.2 h), Bool.false_and, Bool.false_and,
      Bool.or_false]
  simp only [get_eq, hhid, versionsOf_applyTo]
  cases w.entries.get? key with
  | none => rfl
  | some value => rw [versionAt?_pushVersion_of_lt h]

/-- Under the keys that a write set decides, the tree has what the write set says. -/
theorem get_applyTo_of_le {t : VersionTree} {n view : Nat} (ht : t.Below n) (w : WriteSet)
    (key : Bytes) (h : n ≤ view) :
    (w.applyTo t n).get key view =
      match w.lookup key with
      | .value v => some v
      | .deleted => none
      | .absent => t.get key view := by
  rw [get_eq, versionsOf_applyTo, lookup_eq]
  cases w.entries.get? key with
  | some value =>
    have hhid : (w.applyTo t n).isHidden key ⟨n, value⟩ view = false := by
      rw [Bool.eq_false_iff, ne_eq, isHidden_iff]
      rintro ⟨s, hs, -, hlt, -⟩
      have := (upTo_applyTo ht.upTo w).tombstones s hs
      simp only at hlt
      omega
    simp only [versionAt?_pushVersion_of_le (v := ⟨n, value⟩) h, Option.bind_some, hhid]
    cases value <;> rfl
  | none =>
    simp only
    by_cases hp : (w.prefixes.any fun stem => stem.isPrefixOf key) = true
    · rw [if_pos hp]
      cases hv : versionAt? (t.versionsOf key) view with
      | none => rfl
      | some v =>
        -- every version was there before, so the new tombstones hide it
        have hlt : v.seqno < n := ht.versions key v (mem_of_versionAt? hv).1
        have hhid : (w.applyTo t n).isHidden key v view = true := by
          rw [isHidden_applyTo, hp, decide_eq_true h, decide_eq_true hlt, Bool.and_self,
            Bool.and_self, Bool.or_true]
        simp only [Option.bind_some, hhid, if_pos]
    · rw [if_neg hp, get_eq]
      have hhid : ∀ v, (w.applyTo t n).isHidden key v view = t.isHidden key v view := by
        intro v
        rw [isHidden_applyTo, Bool.eq_false_iff.2 hp, Bool.and_false, Bool.or_false]
      simp only [hhid]

theorem shadows_eq (w : WriteSet) (key : Bytes) :
    w.shadows key = ((w.entries.get? key).isSome ||
      w.prefixes.any fun stem => stem.isPrefixOf key) := by
  unfold shadows
  rw [lookup_eq]
  cases w.entries.get? key with
  | some value => cases value <;> rfl
  | none => by_cases hp : (w.prefixes.any fun stem => stem.isPrefixOf key) = true <;> simp [hp]

theorem touchedSince_applyTo (w : WriteSet) (t : VersionTree) {n view : Nat} (key : Bytes)
    (h : view < n) :
    (w.applyTo t n).touchedSince view key = (w.shadows key || t.touchedSince view key) := by
  rw [Bool.eq_iff_iff, Bool.or_eq_true, touchedSince_iff, touchedSince_iff, versionsOf_applyTo,
    tombstones_applyTo, shadows_eq, Bool.or_eq_true]
  have htomb : (∃ s ∈ t.tombstones ++ w.prefixes.map fun stem => (⟨stem, n⟩ : Tombstone),
      s.stem.isPrefixOf key = true ∧ view < s.seqno) ↔
      (w.prefixes.any fun stem => stem.isPrefixOf key) = true ∨
        ∃ s ∈ t.tombstones, s.stem.isPrefixOf key = true ∧ view < s.seqno := by
    simp only [List.mem_append, List.mem_map, List.any_eq_true]
    constructor
    · rintro ⟨s, hs | ⟨stem, hstem, rfl⟩, hkey, hlt⟩
      · exact .inr ⟨s, hs, hkey, hlt⟩
      · exact .inl ⟨stem, hstem, hkey⟩
    · rintro (⟨stem, hstem, hkey⟩ | ⟨s, hs, hrest⟩)
      · exact ⟨⟨stem, n⟩, .inr ⟨stem, hstem, rfl⟩, hkey, h⟩
      · exact ⟨s, .inl hs, hrest⟩
  rw [htomb]
  cases w.entries.get? key with
  | some value => simp [getLast?_pushVersion, h]
  | none =>
    simp only [Option.isSome_none, Bool.false_eq_true, false_or]
    exact or_left_comm

/-- A write set commits to a tree what it collected. -/
theorem overwrites_applyTo {t : VersionTree} {n : Nat} (ht : t.Below n) (changes : List Change) :
    Overwrites t ((ofChanges changes).applyTo t n) n changes := by
  constructor
  · intro key view hview
    exact get_applyTo_of_lt _ t key hview
  · intro key view hview
    rw [get_applyTo_of_le ht _ key hview, lookup_ofChanges, Change.after_eq]
    cases Change.lastOn changes key with
    | none => rfl
    | some c =>
      simp only [Option.map_some, Option.getD_some]
      cases c.leaves <;> rfl
  · intro key view hview
    rw [touchedSince_applyTo _ t key hview, shadows_ofChanges]
  · exact upTo_applyTo ht.upTo _

end WriteSet

/-! ## 4. Commits and pruning -/

theorem pruned_onTree (c : Change) (t : VersionTree) {horizon n : Nat} (h : horizon < n) :
    (c.onTree t n).pruned horizon = c.onTree (t.pruned horizon) n := by
  cases c with
  | put k value | delete k => exact VersionTree.pruned_insert t k _ h
  | deletePrefix stem => exact VersionTree.pruned_deletePrefix t stem h

theorem pruned_applyTo (w : WriteSet) (t : VersionTree) {horizon n : Nat} (h : horizon < n) :
    (w.applyTo t n).pruned horizon = w.applyTo (t.pruned horizon) n := by
  have hprefixes : (w.applyPrefixes t n).pruned horizon = w.applyPrefixes (t.pruned horizon) n := by
    unfold WriteSet.applyPrefixes
    induction w.prefixes generalizing t with
    | nil => rfl
    | cons stem rest ih =>
      rw [List.foldl_cons, ih, List.foldl_cons, VersionTree.pruned_deletePrefix t stem h]
  rw [WriteSet.applyTo_eq, WriteSet.applyTo_eq, ← hprefixes]
  generalize w.applyPrefixes t n = t'
  induction w.entries.entries generalizing t' with
  | nil => rfl
  | cons e rest ih =>
    rw [List.foldl_cons, ih, List.foldl_cons, VersionTree.pruned_insert t' e.1 e.2 h]

end SnapshotKv
