import Mathlib.Data.List.Basic
import SnapshotKv.Proofs.Containers
import SnapshotKv.Proofs.Prefixes

/-!
# What the views of a tree see

A change at a sequence number above everything in a tree is seen by the views at or above that
number and by no other. `VersionTree.touchedSince` says whether a key was changed after a view, which
is what decides a write conflict.

Results:
1. `get_insert_of_lt`, `get_insert_of_le`, `get_deletePrefix_of_lt`, `get_deletePrefix_of_le`.
2. `touchedSince_insert`, `touchedSince_deletePrefix`: a change touches what it covers.
3. `mem_numbersUnder_iff`: what the newest change under a prefix is taken from;
   `touchedUnder_of_touchedSince`, `exists_touchedSince`: a change to a key is a change under each
   prefix of the key, and there are no other changes under a prefix.
-/

namespace SnapshotKv

namespace VersionTree

/-- Everything in the tree has a sequence number of at most `n`. -/
structure UpTo (t : VersionTree) (n : Nat) : Prop where
  versions : ∀ key, ∀ v ∈ t.versionsOf key, v.seqno ≤ n
  tombstones : ∀ s ∈ t.tombstones, s.seqno ≤ n

/-- Everything in the tree has a sequence number below `n`. -/
structure Below (t : VersionTree) (n : Nat) : Prop where
  versions : ∀ key, ∀ v ∈ t.versionsOf key, v.seqno < n
  tombstones : ∀ s ∈ t.tombstones, s.seqno < n

/-- Whether a key was changed, by itself or under a prefix, after a view. -/
def touchedSince (t : VersionTree) (view : Nat) (key : Bytes) : Bool :=
  (t.latestWrite key).any (fun seqno => view < seqno)

/-- Whether a key under a prefix was changed after a view. -/
def touchedUnder (t : VersionTree) (view : Nat) (stem : Bytes) : Bool :=
  (t.latestWriteUnder stem).any (fun seqno => view < seqno)

theorem UpTo.mono {t : VersionTree} {m n : Nat} (h : t.UpTo m) (hmn : m ≤ n) : t.UpTo n :=
  ⟨fun key v hv => Nat.le_trans (h.versions key v hv) hmn,
    fun s hs => Nat.le_trans (h.tombstones s hs) hmn⟩

theorem UpTo.below {t : VersionTree} {m n : Nat} (h : t.UpTo m) (hmn : m < n) : t.Below n :=
  ⟨fun key v hv => Nat.lt_of_le_of_lt (h.versions key v hv) hmn,
    fun s hs => Nat.lt_of_le_of_lt (h.tombstones s hs) hmn⟩

theorem Below.upTo {t : VersionTree} {n : Nat} (h : t.Below n) : t.UpTo n :=
  ⟨fun key v hv => Nat.le_of_lt (h.versions key v hv),
    fun s hs => Nat.le_of_lt (h.tombstones s hs)⟩

theorem upTo_empty (n : Nat) : ({} : VersionTree).UpTo n :=
  ⟨fun _ _ hv => absurd hv List.not_mem_nil, fun _ hs => absurd hs List.not_mem_nil⟩

/-! ## 1. Versions -/

@[simp] theorem versionsOf_insert (t : VersionTree) (key key' : Bytes) (n : Nat)
    (value : Option Bytes) :
    (t.insert key n value).versionsOf key' =
      if key' = key then pushVersion (t.versionsOf key) ⟨n, value⟩ else t.versionsOf key' := by
  simp only [versionsOf, insert, SortedMap.get?_insert, beq_iff_eq]
  by_cases h : key' = key <;> simp [h]

@[simp] theorem versionsOf_deletePrefix (t : VersionTree) (stem key : Bytes) (n : Nat) :
    (t.deletePrefix stem n).versionsOf key = t.versionsOf key := rfl

@[simp] theorem tombstones_insert (t : VersionTree) (key : Bytes) (n : Nat)
    (value : Option Bytes) : (t.insert key n value).tombstones = t.tombstones := rfl

@[simp] theorem tombstones_deletePrefix (t : VersionTree) (stem : Bytes) (n : Nat) :
    (t.deletePrefix stem n).tombstones = t.tombstones ++ [⟨stem, n⟩] := rfl

theorem pushVersion_eq (vs : List Version) (v : Version) :
    pushVersion vs v = vs ++ [v] ∨
      ∃ older last, vs = older ++ [last] ∧ last.seqno = v.seqno ∧
        pushVersion vs v = older ++ [v] := by
  rcases List.eq_nil_or_concat vs with rfl | ⟨older, last, rfl⟩
  · exact .inl rfl
  · simp only [pushVersion, List.concat_eq_append, List.getLast?_append, List.getLast?_singleton,
      Option.some_or, List.dropLast_concat]
    split
    · next h => exact .inr ⟨older, last, rfl, h, rfl⟩
    · exact .inl rfl

theorem getLast?_pushVersion (vs : List Version) (v : Version) :
    (pushVersion vs v).getLast? = some v := by
  rcases pushVersion_eq vs v with h | ⟨older, last, -, -, h⟩ <;> simp [h]

theorem mem_pushVersion {vs : List Version} {v x : Version} (h : x ∈ pushVersion vs v) :
    x ∈ vs ∨ x = v := by
  rcases pushVersion_eq vs v with hp | ⟨older, last, hvs, -, hp⟩
  · simpa [hp] using h
  · rw [hp] at h
    rcases List.mem_append.1 h with h | h
    · exact .inl (by simp [hvs, h])
    · exact .inr (by simpa using h)

theorem versionAt?_append (older newer : List Version) (view : Nat) :
    versionAt? (older ++ newer) view = (versionAt? newer view).or (versionAt? older view) := by
  simp [versionAt?, List.find?_append]

theorem versionAt?_singleton (v : Version) (view : Nat) :
    versionAt? [v] view = if v.seqno ≤ view then some v else none := by
  by_cases h : v.seqno ≤ view <;> simp [versionAt?, h]

theorem mem_of_versionAt? {vs : List Version} {view : Nat} {v : Version}
    (h : versionAt? vs view = some v) : v ∈ vs ∧ v.seqno ≤ view := by
  have hmem := List.mem_of_find?_eq_some h
  have hle := List.find?_some h
  exact ⟨List.mem_reverse.1 hmem, of_decide_eq_true hle⟩

theorem versionAt?_pushVersion_of_lt {vs : List Version} {v : Version} {view : Nat}
    (h : view < v.seqno) : versionAt? (pushVersion vs v) view = versionAt? vs view := by
  have hv : ∀ x : Version, x.seqno = v.seqno → versionAt? [x] view = none := by
    intro x hx
    rw [versionAt?_singleton, if_neg (by omega)]
  rcases pushVersion_eq vs v with hp | ⟨older, last, hvs, hlast, hp⟩
  · rw [hp, versionAt?_append, hv v rfl, Option.none_or]
  · rw [hp, hvs, versionAt?_append, versionAt?_append, hv v rfl, hv last hlast]

theorem versionAt?_pushVersion_of_le {vs : List Version} {v : Version} {view : Nat}
    (h : v.seqno ≤ view) : versionAt? (pushVersion vs v) view = some v := by
  rcases pushVersion_eq vs v with hp | ⟨older, last, -, -, hp⟩ <;>
    rw [hp, versionAt?_append, versionAt?_singleton, if_pos h, Option.some_or]

theorem get_eq (t : VersionTree) (key : Bytes) (view : Nat) :
    t.get key view = (versionAt? (t.versionsOf key) view).bind
      fun v => if t.isHidden key v view then none else v.value := rfl

theorem isHidden_iff {t : VersionTree} {key : Bytes} {v : Version} {view : Nat} :
    t.isHidden key v view = true ↔
      ∃ s ∈ t.tombstones, s.seqno ≤ view ∧ v.seqno < s.seqno ∧ s.stem.isPrefixOf key = true := by
  simp [isHidden, and_assoc]

theorem get_insert_of_lt (t : VersionTree) (key key' : Bytes) {n view : Nat}
    (value : Option Bytes) (h : view < n) :
    (t.insert key n value).get key' view = t.get key' view := by
  simp only [get_eq, isHidden, versionsOf_insert, tombstones_insert]
  by_cases hk : key' = key
  · subst hk
    rw [if_pos rfl, versionAt?_pushVersion_of_lt h]
    rfl
  · rw [if_neg hk]
    rfl

theorem get_insert_of_le {t : VersionTree} {n view : Nat} (ht : t.UpTo n) (key key' : Bytes)
    (value : Option Bytes) (h : n ≤ view) :
    (t.insert key n value).get key' view = if key' = key then value else t.get key' view := by
  by_cases hk : key' = key
  · subst hk
    have hhid : (t.insert key' n value).isHidden key' ⟨n, value⟩ view = false := by
      rw [Bool.eq_false_iff, ne_eq, isHidden_iff]
      rintro ⟨s, hs, -, hlt, -⟩
      have := ht.tombstones s hs
      simp only at hlt
      omega
    rw [if_pos rfl, get_eq, versionsOf_insert, if_pos rfl, versionAt?_pushVersion_of_le h]
    simp [hhid]
  · rw [if_neg hk, get_eq, get_eq, versionsOf_insert, if_neg hk]
    rfl

theorem get_deletePrefix_of_lt (t : VersionTree) (stem key : Bytes) {n view : Nat}
    (h : view < n) : (t.deletePrefix stem n).get key view = t.get key view := by
  have hn : ¬ n ≤ view := by omega
  simp [get_eq, isHidden, hn]

theorem get_deletePrefix_of_le {t : VersionTree} {n view : Nat} (ht : t.Below n)
    (stem key : Bytes) (h : n ≤ view) :
    (t.deletePrefix stem n).get key view =
      if stem.isPrefixOf key then none else t.get key view := by
  simp only [get_eq, versionsOf_deletePrefix]
  cases hv : versionAt? (t.versionsOf key) view with
  | none => simp
  | some v =>
    have hlt : v.seqno < n := ht.versions key v (mem_of_versionAt? hv).1
    by_cases hp : stem.isPrefixOf key = true
    · have : (t.deletePrefix stem n).isHidden key v view = true :=
        isHidden_iff.2 ⟨⟨stem, n⟩, by simp, h, hlt, hp⟩
      simp [this, hp]
    · have : (t.deletePrefix stem n).isHidden key v view = t.isHidden key v view := by
        have hp' : ¬ stem <+: key := fun h => hp (List.isPrefixOf_iff_prefix.2 h)
        rw [Bool.eq_iff_iff, isHidden_iff, isHidden_iff]
        simp [or_and_right, exists_or, hp']
      simp [this, hp]

/-- Views at or above everything in a tree see the same. -/
theorem UpTo.get_eq {t : VersionTree} {n view : Nat} (ht : t.UpTo n) (h : n ≤ view) (key : Bytes) :
    t.get key view = t.get key n := by
  have hversion : versionAt? (t.versionsOf key) view = versionAt? (t.versionsOf key) n := by
    unfold versionAt?
    rw [← List.head?_filter, ← List.head?_filter]
    congr 1
    apply List.filter_congr
    intro v hv
    have := ht.versions key v (List.mem_reverse.1 hv)
    rw [decide_eq_true (Nat.le_trans this h), decide_eq_true this]
  have hhidden : ∀ v, t.isHidden key v view = t.isHidden key v n := by
    intro v
    rw [Bool.eq_iff_iff, isHidden_iff, isHidden_iff]
    constructor
    · rintro ⟨s, hs, -, hrest⟩
      exact ⟨s, hs, ht.tombstones s hs, hrest⟩
    · rintro ⟨s, hs, -, hrest⟩
      exact ⟨s, hs, Nat.le_trans (ht.tombstones s hs) h, hrest⟩
  simp only [VersionTree.get_eq, hversion, hhidden]

/-! ## 2. Changes after a view -/

theorem newest_any (l : List Nat) (view : Nat) :
    (newest l).any (fun n => view < n) = l.any (fun n => view < n) := by
  rw [Bool.eq_iff_iff]
  simp only [newest, List.any_eq_true, Option.any_eq_true_iff_get, decide_eq_true_eq]
  constructor
  · rintro ⟨hs, hlt⟩
    obtain ⟨m, hm⟩ := Option.isSome_iff_exists.1 hs
    simp only [hm, Option.get_some] at hlt
    exact ⟨m, List.max?_mem hm, hlt⟩
  · rintro ⟨x, hx, hlt⟩
    cases hm : l.max? with
    | none => simp [List.max?_eq_none_iff.1 hm] at hx
    | some m =>
      have := (List.max?_le_iff hm).1 (Nat.le_refl m) x hx
      exact ⟨rfl, by simp only [Option.get_some]; omega⟩

/-- Some tombstone that counts is newer than a view. -/
theorem exists_seqno_iff {tombstones : List Tombstone} {counts : Tombstone → Bool} {view : Nat} :
    (∃ n ∈ (tombstones.filter counts).map (·.seqno), view < n) ↔
      ∃ s ∈ tombstones, counts s = true ∧ view < s.seqno := by
  simp only [List.mem_map, List.mem_filter]
  constructor
  · rintro ⟨_, ⟨s, ⟨hs, hp⟩, rfl⟩, hlt⟩
    exact ⟨s, hs, hp, hlt⟩
  · rintro ⟨s, hs, hp, hlt⟩
    exact ⟨_, ⟨s, ⟨hs, hp⟩, rfl⟩, hlt⟩

theorem touchedSince_iff {t : VersionTree} {view : Nat} {key : Bytes} :
    t.touchedSince view key = true ↔
      (∃ v, (t.versionsOf key).getLast? = some v ∧ view < v.seqno) ∨
      ∃ s ∈ t.tombstones, s.stem.isPrefixOf key = true ∧ view < s.seqno := by
  simp only [touchedSince, latestWrite, newest_any, List.any_append, Bool.or_eq_true,
    List.any_eq_true, decide_eq_true_eq]
  refine or_congr ?_ ?_
  · simp only [Option.mem_toList, Option.map_eq_some_iff]
    constructor
    · rintro ⟨_, ⟨v, hv, rfl⟩, hlt⟩
      exact ⟨v, hv, hlt⟩
    · rintro ⟨v, hv, hlt⟩
      exact ⟨_, ⟨v, hv, rfl⟩, hlt⟩
  · exact exists_seqno_iff

theorem touchedSince_insert (t : VersionTree) (key key' : Bytes) {n view : Nat}
    (value : Option Bytes) (h : view < n) :
    (t.insert key n value).touchedSince view key' = (key' == key || t.touchedSince view key') := by
  rw [Bool.eq_iff_iff, Bool.or_eq_true, touchedSince_iff, touchedSince_iff, beq_iff_eq,
    versionsOf_insert, tombstones_insert]
  by_cases hk : key' = key
  · simp [hk, getLast?_pushVersion, h]
  · simp [hk]

theorem touchedSince_deletePrefix (t : VersionTree) (stem key : Bytes) {n view : Nat}
    (h : view < n) :
    (t.deletePrefix stem n).touchedSince view key =
      (stem.isPrefixOf key || t.touchedSince view key) := by
  rw [Bool.eq_iff_iff, Bool.or_eq_true, touchedSince_iff, touchedSince_iff, versionsOf_deletePrefix,
    tombstones_deletePrefix]
  simp only [List.mem_append, List.mem_singleton, or_and_right, exists_or, exists_eq_left, h,
    and_true]
  rw [← or_assoc, or_comm]

/-- Nothing was changed after views at or above everything in a tree. -/
theorem UpTo.touchedSince_eq {t : VersionTree} {n view : Nat} (ht : t.UpTo n) (h : n ≤ view)
    (key : Bytes) : t.touchedSince view key = false := by
  rw [Bool.eq_false_iff, ne_eq, touchedSince_iff]
  rintro (⟨v, hv, hlt⟩ | ⟨s, hs, -, hlt⟩)
  · have := ht.versions key v (List.mem_of_getLast? hv)
    omega
  · have := ht.tombstones s hs
    omega

theorem UpTo.insert {t : VersionTree} {n : Nat} (ht : t.UpTo n) (key : Bytes)
    (value : Option Bytes) : (t.insert key n value).UpTo n := by
  refine ⟨fun key' v hv => ?_, ht.tombstones⟩
  rw [versionsOf_insert] at hv
  split at hv
  · rcases mem_pushVersion hv with hv | rfl
    · exact ht.versions _ v hv
    · exact Nat.le_refl n
  · exact ht.versions _ v hv

theorem UpTo.deletePrefix {t : VersionTree} {n : Nat} (ht : t.UpTo n) (stem : Bytes) :
    (t.deletePrefix stem n).UpTo n := by
  refine ⟨ht.versions, fun s hs => ?_⟩
  rcases List.mem_append.1 hs with hs | hs
  · exact ht.tombstones s hs
  · obtain rfl := List.mem_singleton.1 hs
    exact Nat.le_refl n

/-! ## 3. Changes under a prefix -/

/-- The numbers that the newest change under a prefix is taken from. -/
def numbersUnder (t : VersionTree) (stem : Bytes) : List Nat :=
  (((t.versions.range? (.included stem) (prefixEnd stem)).getD []).filterMap
      (fun e => e.2.getLast?.map (·.seqno)))
    ++ (t.tombstones.filter (fun s => s.stem.comparable stem)).map (·.seqno)

theorem latestWriteUnder_eq (t : VersionTree) (stem : Bytes) :
    t.latestWriteUnder stem = newest (t.numbersUnder stem) := rfl

/-- The range of a prefix always has an answer, and the entries in it are those of the keys with the
prefix. -/
theorem mem_numbersUnder_iff {t : VersionTree} {stem : Bytes} {n : Nat} :
    n ∈ t.numbersUnder stem ↔
      (∃ key v, stem.isPrefixOf key = true ∧ (t.versionsOf key).getLast? = some v ∧ v.seqno = n) ∨
      ∃ s ∈ t.tombstones, s.stem.comparable stem = true ∧ s.seqno = n := by
  simp only [numbersUnder, SortedMap.range?, inOrder_prefixEnd, ↓reduceIte, Option.getD_some,
    List.mem_append, List.mem_filterMap, List.mem_filter, between_prefixEnd,
    Option.map_eq_some_iff, Prod.exists]
  refine or_congr ?_ ?_
  · constructor
    · rintro ⟨key, vs, ⟨hm, hp⟩, v, hv, rfl⟩
      refine ⟨key, v, hp, ?_, rfl⟩
      rw [versionsOf, t.versions.mem_entries_iff.1 hm, Option.getD_some, hv]
    · rintro ⟨key, v, hp, hv, rfl⟩
      cases hvs : t.versions.get? key with
      | none => simp [versionsOf, hvs] at hv
      | some vs =>
        rw [versionsOf, hvs, Option.getD_some] at hv
        exact ⟨key, vs, ⟨t.versions.mem_entries_iff.2 hvs, hp⟩, v, hv, rfl⟩
  · simp only [List.mem_map, List.mem_filter, and_assoc]

theorem touchedUnder_iff {t : VersionTree} {view : Nat} {stem : Bytes} :
    t.touchedUnder view stem = true ↔
      (∃ key v, stem.isPrefixOf key = true ∧ (t.versionsOf key).getLast? = some v ∧
        view < v.seqno) ∨
      ∃ s ∈ t.tombstones, s.stem.comparable stem = true ∧ view < s.seqno := by
  rw [touchedUnder, latestWriteUnder_eq, newest_any]
  simp only [List.any_eq_true, decide_eq_true_eq, mem_numbersUnder_iff]
  constructor
  · rintro ⟨_, ⟨key, v, hp, hv, rfl⟩ | ⟨s, hs, hcomparable, rfl⟩, hlt⟩
    · exact .inl ⟨key, v, hp, hv, hlt⟩
    · exact .inr ⟨s, hs, hcomparable, hlt⟩
  · rintro (⟨key, v, hp, hv, hlt⟩ | ⟨s, hs, hcomparable, hlt⟩)
    · exact ⟨_, .inl ⟨key, v, hp, hv, rfl⟩, hlt⟩
    · exact ⟨_, .inr ⟨s, hs, hcomparable, rfl⟩, hlt⟩

/-- Two prefixes of one key are comparable. -/
theorem comparable_of_isPrefixOf {p q key : Bytes} (hp : p.isPrefixOf key = true)
    (hq : q.isPrefixOf key = true) : p.comparable q = true := by
  rw [List.isPrefixOf_iff_prefix] at hp hq
  simp only [Bytes.comparable, Bool.or_eq_true, List.isPrefixOf_iff_prefix]
  exact List.prefix_or_prefix_of_prefix hp hq

/-- Comparable prefixes are prefixes of the longer one. -/
theorem exists_of_comparable {p q : Bytes} (h : p.comparable q = true) :
    ∃ key : Bytes, p.isPrefixOf key = true ∧ q.isPrefixOf key = true := by
  have hself : ∀ b : Bytes, b.isPrefixOf b = true := fun b =>
    List.isPrefixOf_iff_prefix.2 List.prefix_rfl
  rcases Bool.or_eq_true_iff.1 h with h | h
  · exact ⟨q, h, hself q⟩
  · exact ⟨p, hself p, h⟩

theorem touchedUnder_of_touchedSince {t : VersionTree} {view : Nat} {stem key : Bytes}
    (hp : stem.isPrefixOf key = true) (h : t.touchedSince view key = true) :
    t.touchedUnder view stem = true := by
  rcases touchedSince_iff.1 h with ⟨v, hv, hlt⟩ | ⟨s, hs, hs', hlt⟩
  · exact touchedUnder_iff.2 (.inl ⟨key, v, hp, hv, hlt⟩)
  · exact touchedUnder_iff.2 (.inr ⟨s, hs, comparable_of_isPrefixOf hs' hp, hlt⟩)

/-- What changed under a prefix is a key with the prefix. -/
theorem exists_touchedSince {t : VersionTree} {view : Nat} {stem : Bytes}
    (h : t.touchedUnder view stem = true) :
    ∃ key : Bytes, stem.isPrefixOf key = true ∧ t.touchedSince view key = true := by
  rcases touchedUnder_iff.1 h with ⟨key, v, hp, hv, hlt⟩ | ⟨s, hs, hcomparable, hlt⟩
  · exact ⟨key, hp, touchedSince_iff.2 (.inl ⟨v, hv, hlt⟩)⟩
  · obtain ⟨key, hkey, hp⟩ := exists_of_comparable hcomparable
    exact ⟨key, hp, touchedSince_iff.2 (.inr ⟨s, hs, hkey, hlt⟩)⟩

end VersionTree

end SnapshotKv
