import SnapshotKv.Proofs.ReadOnly
import SnapshotKv.Proofs.Reclaiming

/-!
# Chains of versions

The versions of a key are a chain: they stand in the strict order of their numbers, the newest last. A
view reads the last version that it reaches, which is the newest one for it only because of that order.
Whoever inserts a version must not break the order, so the number must be at least that of the newest
version; one of the same number gives way.

Results:
1. `versionAt?_eq_some_iff`: what a view reads of a chain.
2. `arrives_pushVersion`: how a version comes to a chain.
3. `Chained`: trees whose lists are all chains, and what keeps them so.
4. `Passes`: how the lists of a tree may have changed when it is looked at later.
-/

namespace SnapshotKv.VersionTree

variable {t t' t'' : VersionTree} {vs vs' : List Version} {v : Version} {n n' view : Nat}

/-! ## 1. Lists in strict order -/

/-- The versions stand in the strict order of their numbers. -/
abbrev Ascending (vs : List Version) : Prop := vs.Pairwise fun v w => v.seqno < w.seqno

/-- A version is the newest one that a view reaches: every other one that it reaches has a lower
number. -/
structure IsNewestFor (view : Nat) (vs : List Version) (v : Version) : Prop where
  mem : v ∈ vs
  reached : v.seqno ≤ view
  newest : ∀ w ∈ vs, w.seqno ≤ view → w = v ∨ w.seqno < v.seqno

theorem IsNewestFor.unique {w : Version} (h : IsNewestFor view vs v) (h' : IsNewestFor view vs w) :
    v = w := by
  rcases h.newest w h'.mem h'.reached with heq | hlt
  · exact heq.symm
  · rcases h'.newest v h.mem h.reached with heq | hgt
    · exact heq
    · omega

theorem versionAt?_eq_none_iff : versionAt? vs view = none ↔ ∀ w ∈ vs, view < w.seqno := by
  simp [versionAt?]

theorem isNewestFor_of_versionAt? (h : Ascending vs) (hv : versionAt? vs view = some v) :
    IsNewestFor view vs v := by
  rcases PruningLemmas.exists_split vs view with hall | ⟨older, w, newer, rfl, hw, hnewer⟩
  · exact absurd (versionAt?_eq_none_iff.2 hall) (hv ▸ Option.some_ne_none v)
  · have hat : versionAt? (older ++ w :: newer) view = some w := by
      rw [← List.singleton_append, ← List.append_assoc, versionAt?_append,
        versionAt?_eq_none_iff.2 hnewer, Option.none_or, versionAt?_append, versionAt?_singleton,
        if_pos hw, Option.some_or]
    obtain rfl : v = w := Option.some.inj (hv.symm.trans hat)
    refine ⟨by simp, hw, fun x hx hreached => ?_⟩
    rcases List.mem_append.1 hx with hx | hx
    · exact .inr ((List.pairwise_append.1 h).2.2 x hx v List.mem_cons_self)
    · rcases List.mem_cons.1 hx with rfl | hx
      · exact .inl rfl
      · have := hnewer x hx
        omega

/-- The last version that a view reaches is the only one that is the newest for it. -/
theorem versionAt?_eq_some_iff (h : Ascending vs) :
    versionAt? vs view = some v ↔ IsNewestFor view vs v := by
  refine ⟨isNewestFor_of_versionAt? h, fun hv => ?_⟩
  cases hat : versionAt? vs view with
  | none =>
    have := versionAt?_eq_none_iff.1 hat v hv.mem
    have := hv.reached
    omega
  | some w => exact congrArg some ((isNewestFor_of_versionAt? h hat).unique hv)

/-! ## 2. Versions that come to a chain -/

/-- One version came to a chain: behind the others, or in the place of the newest one, if that has its
number. -/
inductive Arrives (v : Version) : List Version → List Version → Prop
  | behind {vs : List Version} (h : ∀ w ∈ vs, w.seqno < v.seqno) : Arrives v vs (vs ++ [v])
  | replacing {older : List Version} {last : Version} (h : ∀ w ∈ older, w.seqno < v.seqno)
      (hlast : last.seqno = v.seqno) : Arrives v (older ++ [last]) (older ++ [v])

theorem arrives_pushVersion (h : Ascending vs) (hle : ∀ w ∈ vs, w.seqno ≤ v.seqno) :
    Arrives v vs (pushVersion vs v) := by
  rcases List.eq_nil_or_concat vs with rfl | ⟨older, last, rfl⟩
  · exact .behind fun _ hw => absurd hw List.not_mem_nil
  · rw [List.concat_eq_append] at h hle ⊢
    have hbelow : ∀ w ∈ older, w.seqno < last.seqno := fun w hw =>
      (List.pairwise_append.1 h).2.2 w hw last List.mem_cons_self
    have hlast : last.seqno ≤ v.seqno := hle last (by simp)
    simp only [pushVersion, List.getLast?_append, List.getLast?_singleton, Option.some_or,
      List.dropLast_concat]
    split
    · next heq => exact .replacing (fun w hw => heq ▸ hbelow w hw) heq
    · next hne =>
      refine .behind fun w hw => ?_
      rcases List.mem_append.1 hw with hw | hw
      · have := hbelow w hw
        omega
      · rw [List.mem_singleton.1 hw]
        omega

theorem Arrives.ascending (ha : Arrives v vs vs') (h : Ascending vs) : Ascending vs' := by
  cases ha with
  | behind hlt =>
    refine List.pairwise_append.2 ⟨h, List.pairwise_singleton _ _, fun w hw x hx => ?_⟩
    exact (List.mem_singleton.1 hx) ▸ hlt w hw
  | replacing hlt =>
    refine List.pairwise_append.2
      ⟨(List.pairwise_append.1 h).1, List.pairwise_singleton _ _, fun w hw x hx => ?_⟩
    exact (List.mem_singleton.1 hx) ▸ hlt w hw

/-- A version above all others can only come behind them. -/
theorem Arrives.eq_concat (ha : Arrives v vs vs') (h : ∀ w ∈ vs, w.seqno < v.seqno) :
    vs' = vs ++ [v] := by
  cases ha with
  | behind => rfl
  | @replacing older last _ hlast =>
    have := h last (by simp)
    omega

/-! ## 3. Trees of chains -/

/-- The tree after insertions at one number, one after another. -/
def insertAll (t : VersionTree) (n : Nat) (entries : List (Bytes × Option Bytes)) : VersionTree :=
  entries.foldl (fun t e => t.insert e.1 n e.2) t

/-- Each of some insertions, made one after another, leaves the chain of its key a chain. -/
def InsertsInOrder (t : VersionTree) (n : Nat) (entries : List (Bytes × Option Bytes)) : Prop :=
  ∀ before e rest, entries = before ++ e :: rest →
    Arrives ⟨n, e.2⟩ ((t.insertAll n before).versionsOf e.1)
      ((t.insertAll n (before ++ [e])).versionsOf e.1)

theorem insertAll_concat (t : VersionTree) (n : Nat) (before : List (Bytes × Option Bytes))
    (e : Bytes × Option Bytes) :
    t.insertAll n (before ++ [e]) = (t.insertAll n before).insert e.1 n e.2 := by
  simp [insertAll]

/-- A commit of a write set makes its insertions after its prefix deletions. -/
theorem applyTo_eq_insertAll (w : WriteSet) (t : VersionTree) (n : Nat) :
    w.applyTo t n = (w.applyPrefixes t n).insertAll n w.entries.entries := rfl

/-- Loading makes one insertion for each record, in the order of the records. -/
theorem ofRecords_eq_insertAll (records : List (Bytes × Bytes)) :
    ofRecords records = insertAll {} 0 (records.map fun e => (e.1, some e.2)) := by
  simp [ofRecords, insertAll, List.foldl_map]

/-- Every key that a tree lists has versions, all of them in strict order, and nothing in the tree has
a number above `n`. -/
structure Chained (t : VersionTree) (n : Nat) : Prop where
  listed : t.NoEmptyList
  ascending : ∀ key, Ascending (t.versionsOf key)
  upTo : t.UpTo n

namespace Chained

theorem mono (h : t.Chained n) (hle : n ≤ n') : t.Chained n' :=
  ⟨h.listed, h.ascending, h.upTo.mono hle⟩

theorem of_flat (h : t.Flat) : t.Chained 0 := by
  refine ⟨h.listed, fun key => ?_, fun key v hv => ?_, fun s hs => ?_⟩
  · rcases h.single key with hnone | ⟨v, hv⟩
    · exact hnone ▸ List.Pairwise.nil
    · exact hv ▸ List.pairwise_singleton _ _
  · rcases h.single key with hnone | ⟨value, hvalue⟩
    · simp [hnone] at hv
    · rw [hvalue, List.mem_singleton] at hv
      exact hv ▸ Nat.le_refl 0
  · rw [h.tombstones] at hs
    exact absurd hs List.not_mem_nil

/-- How an insertion changes the list of its key. -/
theorem arrives (h : t.Chained n) (key : Bytes) (value : Option Bytes) :
    Arrives ⟨n, value⟩ (t.versionsOf key) ((t.insert key n value).versionsOf key) := by
  rw [versionsOf_insert, if_pos rfl]
  exact arrives_pushVersion (h.ascending key) (h.upTo.versions key)

theorem insert (h : t.Chained n) (key : Bytes) (value : Option Bytes) :
    (t.insert key n value).Chained n := by
  refine ⟨h.listed.insert key n value, fun key' => ?_, h.upTo.insert key value⟩
  by_cases hkey : key' = key
  · exact hkey ▸ (h.arrives key value).ascending (h.ascending key)
  · rw [versionsOf_insert, if_neg hkey]
    exact h.ascending key'

theorem deletePrefix (h : t.Chained n) (stem : Bytes) : (t.deletePrefix stem n).Chained n :=
  ⟨h.listed, h.ascending, h.upTo.deletePrefix stem⟩

theorem insertAll (h : t.Chained n) (entries : List (Bytes × Option Bytes)) :
    (t.insertAll n entries).Chained n := by
  induction entries generalizing t with
  | nil => exact h
  | cons e rest ih => exact ih (h.insert e.1 e.2)

theorem insertsInOrder (h : t.Chained n) (entries : List (Bytes × Option Bytes)) :
    t.InsertsInOrder n entries := by
  intro before e rest _
  rw [insertAll_concat]
  exact (h.insertAll before).arrives e.1 e.2

theorem applyPrefixes (h : t.Chained n) (w : WriteSet) : (w.applyPrefixes t n).Chained n := by
  unfold WriteSet.applyPrefixes
  induction w.prefixes generalizing t with
  | nil => exact h
  | cons stem rest ih => exact ih (h.deletePrefix stem)

theorem applyTo (h : t.Chained n) (w : WriteSet) : (w.applyTo t n).Chained n :=
  (h.applyPrefixes w).insertAll w.entries.entries

theorem pruned (h : t.Chained n) (horizon : Nat) : (t.pruned horizon).Chained n := by
  refine ⟨noEmptyList_pruned horizon t, fun key => ?_, h.upTo.pruned horizon⟩
  obtain ⟨gone, heq⟩ :=
    exists_append_pruneVersions (t.settled horizon) horizon key (t.versionsOf key)
  rw [versionsOf_pruned]
  exact (heq ▸ h.ascending key).sublist (List.sublist_append_right gone _)

end Chained

/-! ## 4. Trees at a later time -/

/-- A tree became another: of each list, versions went at the front and versions above `n` came behind;
tombstones went, and some above `n` came behind the others. -/
structure Passes (n : Nat) (t t' : VersionTree) : Prop where
  versions : ∀ key, ∃ gone kept new, t.versionsOf key = gone ++ kept ∧
    t'.versionsOf key = kept ++ new ∧ ∀ v ∈ new, n < v.seqno
  tombstones : ∃ kept new, kept.Sublist t.tombstones ∧ t'.tombstones = kept ++ new ∧
    ∀ s ∈ new, n < s.seqno

namespace Passes

theorem refl (n : Nat) (t : VersionTree) : Passes n t t :=
  ⟨fun key => ⟨[], t.versionsOf key, [], by simp⟩, t.tombstones, [], by simp⟩

theorem trans (h : Passes n t t') (hle : n ≤ n') (h' : Passes n' t' t'') : Passes n t t'' := by
  constructor
  · intro key
    obtain ⟨gone, kept, new, hold, hnow, hnew⟩ := h.versions key
    obtain ⟨gone', kept', new', hnow', hlater, hnew'⟩ := h'.versions key
    have habove : ∀ v ∈ new', n < v.seqno := fun v hv => Nat.lt_of_le_of_lt hle (hnew' v hv)
    -- what went later reaches into the versions that were kept, or beyond them into the new ones
    rcases List.append_eq_append_iff.1 (hnow.symm.trans hnow') with
      ⟨more, hgone', hrest⟩ | ⟨more, hkept, hkept'⟩
    · refine ⟨t.versionsOf key, [], kept' ++ new', by simp, by simpa using hlater, fun v hv => ?_⟩
      rcases List.mem_append.1 hv with hv | hv
      · exact hnew v (hrest ▸ List.mem_append_right more hv)
      · exact habove v hv
    · refine ⟨gone ++ gone', more, new ++ new', ?_, ?_, fun v hv => ?_⟩
      · rw [hold, hkept, List.append_assoc]
      · rw [hlater, hkept', List.append_assoc]
      · exact (List.mem_append.1 hv).elim (hnew v) (habove v)
  · obtain ⟨kept, new, hkept, hnow, hnew⟩ := h.tombstones
    obtain ⟨kept', new', hkept', hlater, hnew'⟩ := h'.tombstones
    obtain ⟨old, fresh, rfl, hold, hfresh⟩ := List.sublist_append_iff.1 (hnow ▸ hkept')
    refine ⟨old, fresh ++ new', hold.trans hkept, by rw [hlater, List.append_assoc], fun s hs => ?_⟩
    rcases List.mem_append.1 hs with hs | hs
    · exact hnew s (hfresh.mem hs)
    · exact Nat.lt_of_le_of_lt hle (hnew' s hs)

theorem pruned (n horizon : Nat) (t : VersionTree) : Passes n t (t.pruned horizon) := by
  constructor
  · intro key
    obtain ⟨gone, heq⟩ :=
      exists_append_pruneVersions (t.settled horizon) horizon key (t.versionsOf key)
    exact ⟨gone, _, [], heq, by rw [versionsOf_pruned, List.append_nil], by simp⟩
  · exact ⟨_, [], List.filter_sublist, by rw [tombstones_pruned, List.append_nil], by simp⟩

/-- A commit at the next number puts at most one version behind each list. -/
theorem applyTo (h : t.Chained n) (w : WriteSet) : Passes n t (w.applyTo t (n + 1)) := by
  constructor
  · intro key
    rw [WriteSet.versionsOf_applyTo]
    cases w.entries.get? key with
    | none => exact ⟨[], t.versionsOf key, [], by simp⟩
    | some value =>
      have hlt : ∀ v ∈ t.versionsOf key, v.seqno < n + 1 := fun v hv =>
        Nat.lt_succ_of_le (h.upTo.versions key v hv)
      have harrives : Arrives ⟨n + 1, value⟩ (t.versionsOf key) _ :=
        arrives_pushVersion (h.ascending key) fun v hv => Nat.le_of_lt (hlt v hv)
      exact ⟨[], t.versionsOf key, [⟨n + 1, value⟩], rfl, harrives.eq_concat hlt, by simp⟩
  · refine ⟨t.tombstones, w.prefixes.map fun stem => ⟨stem, n + 1⟩, List.Sublist.refl _,
      WriteSet.tombstones_applyTo w t (n + 1), fun s hs => ?_⟩
    obtain ⟨stem, -, rfl⟩ := List.mem_map.1 hs
    exact Nat.lt_succ_self n

end Passes

/-- New versions in a chain up to the next number are one version at most. -/
theorem eq_nil_or_singleton {new : List Version} (h : Ascending new)
    (hnew : ∀ v ∈ new, n < v.seqno ∧ v.seqno ≤ n') (hle : n' ≤ n + 1) :
    new = [] ∨ n' = n + 1 ∧ ∃ value, new = [⟨n', value⟩] := by
  match new with
  | [] => exact .inl rfl
  | [⟨seqno, value⟩] =>
    have := hnew ⟨seqno, value⟩ List.mem_cons_self
    simp only at this
    obtain rfl : seqno = n' := by omega
    exact .inr ⟨by omega, value, rfl⟩
  | v :: w :: rest =>
    have hlt : v.seqno < w.seqno := (List.pairwise_cons.1 h).1 w List.mem_cons_self
    have := hnew v List.mem_cons_self
    have := hnew w (List.mem_cons_of_mem v List.mem_cons_self)
    omega

end SnapshotKv.VersionTree
