import Mathlib.Order.Bounds.Basic
import SnapshotKv.Proofs.Reclaiming

/-!
# How exact the range of a prefix is

The keys under a prefix are read as a range: from the prefix up to its successor, or without upper end
when there is none. A scan that follows the range and a conflict test that asks for the newest change
under a prefix are right only when the range has these keys and no others.

Results:
1. `successor?_carry`, `lt_of_isPrefixOf`, `not_lt_successor?`: the successor drops the bytes 255 at
   the end, lies above every key with the prefix, and is the least such string.
2. `latestWriteUnder_eq_some_iff`, `latestWriteUnder_eq_none_iff`: the newest change under a prefix
   is the greatest of the numbers that count, `writesUnder`.
3. `isGreatest_writesUnder_iff`: while versions stand in order, every version may be counted.
4. `prefixRange_law`.
-/

namespace SnapshotKv

open PrefixLemmas

/-! ## 1. The end of the range -/

namespace Bytes

/-- The last byte below 255 is raised by one, and the bytes 255 behind it go. -/
theorem successor?_carry (stem : Bytes) {b : UInt8} (n : Nat) (hb : b < 255) :
    Bytes.successor? (stem ++ b :: List.replicate n 255) = some (stem ++ [b + 1]) := by
  induction stem with
  | nil =>
    have htail : Bytes.successor? (List.replicate n 255) = none :=
      (successor?_eq_none_iff _).2 fun x hx => List.eq_of_mem_replicate hx
    simp [successor?, htail, hb]
  | cons c stem ih => simp [successor?, ih]

theorem lt_of_isPrefixOf {p k next : Bytes} (hp : p.isPrefixOf k = true)
    (hnext : p.successor? = some next) : k < next :=
  ((isPrefixOf_iff p k).1 hp).2 next hnext

/-- A string above every key with a prefix is not below the successor of the prefix. Otherwise it lay
between the prefix and its successor, and so it had the prefix itself. -/
theorem not_lt_successor? {p u next : Bytes} (hnext : p.successor? = some next)
    (habove : ∀ k : Bytes, p.isPrefixOf k = true → k < u) : ¬ u < next := by
  intro hlt
  have hpu : p < u := habove p (by simp)
  have hunder : p.isPrefixOf u = true := by
    refine (isPrefixOf_iff p u).2 ⟨fun hup => KeyOrder.irrefl p (KeyOrder.trans _ _ _ hpu hup), ?_⟩
    intro next' hnext'
    rw [hnext, Option.some.injEq] at hnext'
    exact hnext' ▸ hlt
  exact KeyOrder.irrefl u (habove u hunder)

end Bytes

/-! ## 2. The newest change under a prefix -/

namespace VersionTree

variable {t : VersionTree} {stem : Bytes} {n : Nat}

/-- The numbers of the newest versions of the keys with a prefix, and of the prefix deletions whose own
prefix is comparable with it. -/
def writesUnder (t : VersionTree) (stem : Bytes) : Set Nat :=
  {n | (∃ key v, stem.isPrefixOf key = true ∧ (t.versionsOf key).getLast? = some v ∧ v.seqno = n) ∨
    ∃ s ∈ t.tombstones, s.stem.comparable stem = true ∧ s.seqno = n}

/-- The numbers of all versions of the keys with a prefix, and of the prefix deletions whose own
prefix is comparable with it. -/
def changesUnder (t : VersionTree) (stem : Bytes) : Set Nat :=
  {n | (∃ key, stem.isPrefixOf key = true ∧ ∃ v ∈ t.versionsOf key, v.seqno = n) ∨
    ∃ s ∈ t.tombstones, s.stem.comparable stem = true ∧ s.seqno = n}

theorem newest_eq_some_iff {l : List Nat} : newest l = some n ↔ IsGreatest {x | x ∈ l} n :=
  List.max?_eq_some_iff

theorem newest_eq_none_iff {l : List Nat} : newest l = none ↔ {x | x ∈ l} = (∅ : Set Nat) := by
  rw [newest, List.max?_eq_none_iff, Set.eq_empty_iff_forall_notMem, List.eq_nil_iff_forall_not_mem]
  rfl

theorem setOf_mem_numbersUnder (t : VersionTree) (stem : Bytes) :
    {n | n ∈ t.numbersUnder stem} = t.writesUnder stem :=
  Set.ext fun _ => mem_numbersUnder_iff

theorem latestWriteUnder_eq_some_iff :
    t.latestWriteUnder stem = some n ↔ IsGreatest (t.writesUnder stem) n := by
  rw [latestWriteUnder_eq, newest_eq_some_iff, setOf_mem_numbersUnder]

theorem latestWriteUnder_eq_none_iff :
    t.latestWriteUnder stem = none ↔ t.writesUnder stem = ∅ := by
  rw [latestWriteUnder_eq, newest_eq_none_iff, setOf_mem_numbersUnder]

/-! ## 3. The last version is the newest -/

theorem writesUnder_subset (t : VersionTree) (stem : Bytes) :
    t.writesUnder stem ⊆ t.changesUnder stem := by
  rintro n (⟨key, v, hp, hv, rfl⟩ | hs)
  · exact .inl ⟨key, hp, v, List.mem_of_getLast? hv, rfl⟩
  · exact .inr hs

/-- Of versions in order, none has a greater number than the last. -/
theorem InOrder.exists_getLast? (h : t.InOrder) {key : Bytes} {v : Version}
    (hv : v ∈ t.versionsOf key) :
    ∃ last, (t.versionsOf key).getLast? = some last ∧ v.seqno ≤ last.seqno := by
  rcases List.eq_nil_or_concat (t.versionsOf key) with hvs | ⟨older, last, hvs⟩
  · simp [hvs] at hv
  · have hpair := h key
    rw [hvs, List.concat_eq_append] at hv hpair ⊢
    refine ⟨last, List.getLast?_concat, ?_⟩
    rcases List.mem_append.1 hv with hv | hv
    · exact (List.pairwise_append.1 hpair).2.2 v hv last List.mem_cons_self
    · exact (List.mem_singleton.1 hv) ▸ Nat.le_refl _

theorem isGreatest_writesUnder_iff (h : t.InOrder) :
    IsGreatest (t.writesUnder stem) n ↔ IsGreatest (t.changesUnder stem) n := by
  have hbound : ∀ m ∈ t.changesUnder stem, ∃ m' ∈ t.writesUnder stem, m ≤ m' := by
    rintro m (⟨key, hp, v, hv, rfl⟩ | hs)
    · obtain ⟨last, hlast, hle⟩ := h.exists_getLast? hv
      exact ⟨last.seqno, .inl ⟨key, last, hp, hlast, rfl⟩, hle⟩
    · exact ⟨m, .inr hs, Nat.le_refl m⟩
  constructor
  · rintro ⟨hmem, hupper⟩
    refine ⟨writesUnder_subset t stem hmem, fun m hm => ?_⟩
    obtain ⟨m', hm', hle⟩ := hbound m hm
    exact Nat.le_trans hle (hupper hm')
  · rintro ⟨hmem, hupper⟩
    obtain ⟨m', hm', hle⟩ := hbound n hmem
    have hge : m' ≤ n := hupper (writesUnder_subset t stem hm')
    exact ⟨Nat.le_antisymm hle hge ▸ hm', fun m hm => hupper (writesUnder_subset t stem hm)⟩

end VersionTree

/-! ## 4. The law -/

/-- What the range of a prefix is, and what the newest change under the prefix is. -/
structure PrefixRangeLaw (p : Bytes) : Prop where
  /-- The keys with the prefix are those from the prefix on that lie below its successor, if it has
  one. -/
  range : ∀ k : Bytes, p.isPrefixOf k = true ↔
    (p = k ∨ p < k) ∧ ∀ next, p.successor? = some next → k < next
  /-- There is no successor exactly for the empty prefix and for bytes 255 alone. -/
  absent : p.successor? = none ↔ p = [] ∨ p ≠ [] ∧ ∀ b ∈ p, b = 255
  /-- Otherwise the last byte below 255 is raised, and what follows it goes. -/
  carry : ∀ (stem : Bytes) (b : UInt8) (n : Nat), b < 255 → p = stem ++ b :: List.replicate n 255 →
    p.successor? = some (stem ++ [b + 1])
  /-- The successor is above every key with the prefix, and every string that is so is the successor
  or above it. -/
  least : ∀ next, p.successor? = some next →
    (∀ k : Bytes, p.isPrefixOf k = true → k < next) ∧
    ∀ u : Bytes, (∀ k : Bytes, p.isPrefixOf k = true → k < u) → next = u ∨ next < u
  /-- The newest change under the prefix is the greatest of the numbers that count. -/
  latest : ∀ (t : VersionTree) (n : Nat),
    t.latestWriteUnder p = some n ↔ IsGreatest (t.writesUnder p) n
  /-- There is none exactly when no number counts. -/
  untouched : ∀ t : VersionTree, t.latestWriteUnder p = none ↔ t.writesUnder p = ∅
  /-- While the versions of each key stand in order, all of them may be counted. -/
  ordered : ∀ t : VersionTree, t.InOrder → ∀ n,
    t.latestWriteUnder p = some n ↔ IsGreatest (t.changesUnder p) n

theorem prefixRange_law (p : Bytes) : PrefixRangeLaw p where
  range k := by rw [isPrefixOf_iff, KeyOrder.not_lt_iff]
  absent := by
    rw [Bytes.successor?_eq_none_iff]
    by_cases hp : p = [] <;> simp [hp]
  carry stem b n hb hp := hp ▸ Bytes.successor?_carry stem n hb
  least next hnext :=
    ⟨fun _ hk => Bytes.lt_of_isPrefixOf hk hnext,
      fun _ habove => KeyOrder.not_lt_iff.1 (Bytes.not_lt_successor? hnext habove)⟩
  latest _ _ := VersionTree.latestWriteUnder_eq_some_iff
  untouched _ := VersionTree.latestWriteUnder_eq_none_iff
  ordered _ h _ := VersionTree.latestWriteUnder_eq_some_iff.trans
    (VersionTree.isGreatest_writesUnder_iff h)

end SnapshotKv
