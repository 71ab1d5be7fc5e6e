import SnapshotKv.Proofs.Ranges
import SnapshotKv.Proofs.Views

/-!
# Pruning

`VersionTree.prune` at a horizon keeps what the views at or above the horizon see, and with it what
decides conflicts and outdated cursors there. It also commutes with later changes, and a second
pruning at a horizon no lower forgets the first.

Results:
1. `pruneVersions_append`, `exists_split`: what pruning leaves of a list of versions.
2. `get_pruned`, `contents_pruned`, `nextVisible_pruned`, `touchedSince_pruned`,
   `touchedUnder_pruned`, `prefixDeletedSince_pruned`: the answers to views at or above the horizon.
3. `pruned_insert`, `pruned_deletePrefix`, `pruned_pruned`.
-/

namespace SnapshotKv

namespace VersionTree

/-- The tree after it was pruned at a horizon. -/
def pruned (horizon : Nat) (t : VersionTree) : VersionTree := (t.prune horizon).2

/-- The tombstones at or below a horizon. -/
def settled (horizon : Nat) (t : VersionTree) : List Tombstone :=
  t.tombstones.filter fun s => s.seqno ≤ horizon

/-- Whether a version that the horizon sees is a deletion, or hidden by one of some tombstones. -/
def isDead (tombstones : List Tombstone) (key : Bytes) (v : Version) : Bool :=
  v.value.isNone || tombstones.any fun s => v.seqno < s.seqno && s.stem.isPrefixOf key

/-! ## 1. Versions -/

namespace PruningLemmas

/-- Either all versions are above a horizon, or there is a last one at or below it. -/
theorem exists_split (vs : List Version) (horizon : Nat) :
    (∀ v ∈ vs, horizon < v.seqno) ∨
      ∃ older v newer, vs = older ++ v :: newer ∧ v.seqno ≤ horizon ∧
        ∀ x ∈ newer, horizon < x.seqno := by
  induction vs with
  | nil => exact .inl fun _ h => absurd h List.not_mem_nil
  | cons a rest ih =>
    rcases ih with hall | ⟨older, v, newer, rfl, hv, hnewer⟩
    · by_cases ha : a.seqno ≤ horizon
      · exact .inr ⟨[], a, rest, rfl, ha, hall⟩
      · refine .inl fun v hv => ?_
        rcases List.mem_cons.1 hv with rfl | hv
        · omega
        · exact hall v hv
    · exact .inr ⟨a :: older, v, newer, rfl, hv, hnewer⟩

theorem findIdx?_of_all_lt {vs : List Version} {horizon : Nat}
    (h : ∀ v ∈ vs, horizon < v.seqno) :
    vs.reverse.findIdx? (fun v => v.seqno ≤ horizon) = none := by
  rw [List.findIdx?_eq_none_iff]
  intro v hv
  have := h v (List.mem_reverse.1 hv)
  simp only [decide_eq_false_iff_not]
  omega

theorem findIdx?_append {older newer : List Version} {v : Version} {horizon : Nat}
    (hv : v.seqno ≤ horizon) (h : ∀ x ∈ newer, horizon < x.seqno) :
    (older ++ v :: newer).reverse.findIdx? (fun v => v.seqno ≤ horizon) = some newer.length := by
  rw [List.reverse_append, List.reverse_cons, List.append_assoc, List.findIdx?_append,
    findIdx?_of_all_lt h]
  simp [List.findIdx?_cons, hv]

theorem fromHorizon_of_all_lt {vs : List Version} {horizon : Nat}
    (h : ∀ v ∈ vs, horizon < v.seqno) : fromHorizon vs horizon = vs := by
  simp only [fromHorizon, findIdx?_of_all_lt h]

theorem fromHorizon_append {older newer : List Version} {v : Version} {horizon : Nat}
    (hv : v.seqno ≤ horizon) (h : ∀ x ∈ newer, horizon < x.seqno) :
    fromHorizon (older ++ v :: newer) horizon = v :: newer := by
  have hlen : (older ++ v :: newer).length - 1 - newer.length = older.length := by
    rw [List.length_append, List.length_cons]
    omega
  simp only [fromHorizon, findIdx?_append hv h, hlen, List.drop_left]

end PruningLemmas

open PruningLemmas

theorem pruneVersions_of_all_lt {tombstones : List Tombstone} {horizon : Nat} {key : Bytes}
    {vs : List Version} (h : ∀ v ∈ vs, horizon < v.seqno) :
    pruneVersions tombstones horizon key vs = vs := by
  unfold pruneVersions
  rw [fromHorizon_of_all_lt h]
  cases vs with
  | nil => rfl
  | cons v rest =>
    have : ¬ v.seqno ≤ horizon := by
      have := h v (by simp)
      omega
    simp only [this, false_and, ↓reduceIte]

theorem pruneVersions_append {tombstones : List Tombstone} {horizon : Nat} {key : Bytes}
    {older newer : List Version} {v : Version} (hv : v.seqno ≤ horizon)
    (h : ∀ x ∈ newer, horizon < x.seqno) :
    pruneVersions tombstones horizon key (older ++ v :: newer) =
      if isDead tombstones key v then newer else v :: newer := by
  unfold pruneVersions
  rw [fromHorizon_append hv h]
  simp only [hv, true_and, isDead, Bool.or_eq_true]

theorem versionsOf_pruned (horizon : Nat) (t : VersionTree) (key : Bytes) :
    (t.pruned horizon).versionsOf key =
      pruneVersions (t.settled horizon) horizon key (t.versionsOf key) := by
  simp only [versionsOf, pruned, prune, SortedMap.get?_filterMap, settled]
  cases t.versions.get? key with
  | none => rfl
  | some vs =>
    simp only [Option.bind_some, Option.getD_some]
    split
    · next h => rw [h]; rfl
    · rfl

@[simp] theorem tombstones_pruned (horizon : Nat) (t : VersionTree) :
    (t.pruned horizon).tombstones = t.tombstones.filter fun s => horizon < s.seqno := rfl

theorem isDead_iff {tombstones : List Tombstone} {key : Bytes} {v : Version} :
    isDead tombstones key v = true ↔ v.value = none ∨
      ∃ s ∈ tombstones, v.seqno < s.seqno ∧ s.stem.isPrefixOf key = true := by
  simp only [isDead, Bool.or_eq_true, Option.isNone_iff_eq_none, List.any_eq_true,
    Bool.and_eq_true, decide_eq_true_eq]

theorem mem_settled {horizon : Nat} {t : VersionTree} {s : Tombstone} :
    s ∈ t.settled horizon ↔ s ∈ t.tombstones ∧ s.seqno ≤ horizon := by
  simp [settled]

/-- No key is listed without a version. -/
def NoEmptyList (t : VersionTree) : Prop := ∀ key, t.versions.get? key ≠ some []

/-- A tree that lists no key without a version is known by the versions of its keys and its
tombstones. -/
theorem eq_of_versionsOf_eq {t t' : VersionTree} (h : t.NoEmptyList) (h' : t'.NoEmptyList)
    (hv : ∀ key, t.versionsOf key = t'.versionsOf key) (ht : t.tombstones = t'.tombstones) :
    t = t' := by
  have hsome : ∀ t : VersionTree, t.NoEmptyList → ∀ key vs, t.versions.get? key = some vs ↔
      t.versionsOf key = vs ∧ vs ≠ [] := by
    intro t h key vs
    have hkey := h key
    unfold versionsOf
    constructor
    · intro hg
      exact ⟨by rw [hg, Option.getD_some], fun he => hkey (he ▸ hg)⟩
    · rintro ⟨hg, hne⟩
      cases hx : t.versions.get? key with
      | none => exact absurd (by simpa [hx] using hg.symm) hne
      | some w => rw [← hg, hx, Option.getD_some]
  have hmap : t.versions = t'.versions := by
    apply SortedMap.ext_get?
    intro key
    apply Option.ext
    intro vs
    rw [hsome t h, hsome t' h', hv]
  cases t
  cases t'
  simp only [VersionTree.mk.injEq]
  exact ⟨hmap, ht⟩

theorem noEmptyList_pruned (horizon : Nat) (t : VersionTree) : (t.pruned horizon).NoEmptyList := by
  intro key h
  simp only [pruned, prune, SortedMap.get?_filterMap, Option.bind_eq_some_iff] at h
  obtain ⟨vs, -, hvs⟩ := h
  split at hvs
  · cases hvs
  · next hne => exact hne (Option.some.inj hvs)

theorem NoEmptyList.insert {t : VersionTree} (h : t.NoEmptyList) (key : Bytes) (n : Nat)
    (value : Option Bytes) : (t.insert key n value).NoEmptyList := by
  intro key' hk
  simp only [VersionTree.insert, SortedMap.get?_insert] at hk
  split at hk
  · have hlast := getLast?_pushVersion (t.versionsOf key) ⟨n, value⟩
    rw [Option.some.inj hk] at hlast
    cases hlast
  · exact h key' hk

/-! ## 2. Views at or above the horizon -/

section Views

variable {t : VersionTree} {horizon view : Nat}

theorem isHidden_pruned (key : Bytes) {v : Version} (h : horizon < v.seqno) :
    (t.pruned horizon).isHidden key v view = t.isHidden key v view := by
  rw [Bool.eq_iff_iff, isHidden_iff, isHidden_iff]
  simp only [tombstones_pruned, List.mem_filter, decide_eq_true_eq]
  constructor
  · rintro ⟨s, ⟨hs, -⟩, hrest⟩
    exact ⟨s, hs, hrest⟩
  · rintro ⟨s, hs, hle, hlt, hp⟩
    exact ⟨s, ⟨hs, by omega⟩, hle, hlt, hp⟩

/-- What a view sees in a list of versions is what it sees after pruning. -/
theorem visible_pruned (hview : horizon ≤ view) (key : Bytes) (vs : List Version) :
    (t.pruned horizon).visible key (pruneVersions (t.settled horizon) horizon key vs) view =
      t.visible key vs view := by
  rcases exists_split vs horizon with hall | ⟨older, v, newer, rfl, hv, hnewer⟩
  · rw [pruneVersions_of_all_lt hall, visible, visible]
    cases hx : versionAt? vs view with
    | none => rfl
    | some x =>
      simp only [Option.bind_some]
      rw [isHidden_pruned key (hall x (mem_of_versionAt? hx).1)]
  · rw [pruneVersions_append hv hnewer, visible, visible]
    have hsplit : ∀ l : List Version, versionAt? (l ++ v :: newer) view =
        (versionAt? newer view).or (some v) := by
      intro l
      have hv' : v.seqno ≤ view := Nat.le_trans hv hview
      rw [← List.singleton_append, versionAt?_append, versionAt?_append, versionAt?_singleton,
        if_pos hv']
      cases versionAt? newer view <;> rfl
    rw [hsplit older]
    cases hx : versionAt? newer view with
    | some x =>
      -- the version that is seen lies above the horizon, where nothing went
      have hpr : versionAt? (if isDead (t.settled horizon) key v then newer else v :: newer) view =
          some x := by
        split
        · exact hx
        · simpa [hx] using hsplit []
      rw [hpr]
      simp only [Option.some_or, Option.bind_some]
      rw [isHidden_pruned key (hnewer x (mem_of_versionAt? hx).1)]
    | none =>
      simp only [Option.none_or, Option.bind_some]
      by_cases hd : isDead (t.settled horizon) key v = true
      · rw [if_pos hd, hx, Option.bind_none]
        rcases Bool.or_eq_true_iff.1 hd with hnone | hhid
        · split
          · rfl
          · exact (Option.isNone_iff_eq_none.1 hnone).symm
        · obtain ⟨s, hs, hlt⟩ := List.any_eq_true.1 hhid
          simp only [Bool.and_eq_true, decide_eq_true_eq] at hlt
          have hle := (mem_settled.1 hs).2
          rw [if_pos (isHidden_iff.2 ⟨s, (mem_settled.1 hs).1, by omega, hlt.1, hlt.2⟩)]
      · have hone : versionAt? (v :: newer) view = some v := by simpa [hx] using hsplit []
        rw [if_neg hd, hone, Option.bind_some]
        have hsame : (t.pruned horizon).isHidden key v view = t.isHidden key v view := by
          rw [Bool.eq_iff_iff, isHidden_iff, isHidden_iff]
          simp only [tombstones_pruned, List.mem_filter, decide_eq_true_eq]
          constructor
          · rintro ⟨s, ⟨hs, -⟩, hrest⟩
            exact ⟨s, hs, hrest⟩
          · rintro ⟨s, hs, hle, hlt, hp⟩
            refine ⟨s, ⟨hs, ?_⟩, hle, hlt, hp⟩
            apply Decidable.byContradiction
            intro hns
            refine hd (Bool.or_eq_true_iff.2 (.inr (List.any_eq_true.2 ⟨s, ?_, by simp [hlt, hp]⟩)))
            exact mem_settled.2 ⟨hs, by omega⟩
        rw [hsame]

theorem get_pruned (hview : horizon ≤ view) (key : Bytes) :
    (t.pruned horizon).get key view = t.get key view := by
  rw [get, versionsOf_pruned, visible_pruned hview, get]

theorem contents_pruned (hview : horizon ≤ view) :
    (t.pruned horizon).contents view = t.contents view :=
  SortedMap.ext_get? fun key => by rw [get?_contents, get?_contents, get_pruned hview]

theorem liveRecords_pruned (hview : horizon ≤ view) :
    (t.pruned horizon).liveRecords view = t.liveRecords view :=
  congrArg SortedMap.entries (contents_pruned hview)

theorem nextVisible_pruned (hview : horizon ≤ view) (lower upper : Bound Bytes) (reverse : Bool)
    (accept : Bytes → Bool) :
    (t.pruned horizon).nextVisible lower upper reverse view accept =
      t.nextVisible lower upper reverse view accept := by
  rw [nextVisible_eq, nextVisible_eq, contents_pruned hview]

/-- Pruning leaves the newest version of a key where it is above the horizon. -/
theorem getLast?_pruneVersions (key : Bytes) (vs : List Version) {seqno : Nat}
    (h : horizon ≤ seqno) :
    (∃ v, (pruneVersions (t.settled horizon) horizon key vs).getLast? = some v ∧ seqno < v.seqno) ↔
      ∃ v, vs.getLast? = some v ∧ seqno < v.seqno := by
  rcases exists_split vs horizon with hall | ⟨older, v, newer, rfl, hv, hnewer⟩
  · rw [pruneVersions_of_all_lt hall]
  · rw [pruneVersions_append hv hnewer]
    rcases List.eq_nil_or_concat newer with rfl | ⟨l, x, rfl⟩
    · have hno : ¬ seqno < v.seqno := by omega
      split <;> simp [hno]
    · have hlast : ∀ l' : List Version, (l' ++ l.concat x).getLast? = some x := by
        intro l'
        rw [List.concat_eq_append, List.getLast?_append, List.getLast?_append]
        rfl
      have hnewer' := hlast []
      have hkept := hlast [v]
      have hall := hlast (older ++ [v])
      rw [List.append_assoc, List.singleton_append] at hall
      rw [List.singleton_append] at hkept
      rw [List.nil_append] at hnewer'
      rw [hall]
      split
      · rw [hnewer']
      · rw [hkept]

theorem exists_tombstone_pruned {p : Tombstone → Prop} (hview : horizon ≤ view) :
    (∃ s ∈ (t.pruned horizon).tombstones, p s ∧ view < s.seqno) ↔
      ∃ s ∈ t.tombstones, p s ∧ view < s.seqno := by
  simp only [tombstones_pruned, List.mem_filter, decide_eq_true_eq]
  constructor
  · rintro ⟨s, ⟨hs, -⟩, hrest⟩
    exact ⟨s, hs, hrest⟩
  · rintro ⟨s, hs, hp, hlt⟩
    exact ⟨s, ⟨hs, by omega⟩, hp, hlt⟩

theorem touchedSince_pruned (hview : horizon ≤ view) (key : Bytes) :
    (t.pruned horizon).touchedSince view key = t.touchedSince view key := by
  rw [Bool.eq_iff_iff, touchedSince_iff, touchedSince_iff, versionsOf_pruned,
    getLast?_pruneVersions key _ hview, exists_tombstone_pruned hview]

theorem touchedUnder_pruned (hview : horizon ≤ view) (stem : Bytes) :
    (t.pruned horizon).touchedUnder view stem = t.touchedUnder view stem := by
  rw [Bool.eq_iff_iff, touchedUnder_iff, touchedUnder_iff, exists_tombstone_pruned hview]
  refine or_congr_left (exists_congr fun key => ?_)
  have hlast := getLast?_pruneVersions (t := t) key (t.versionsOf key) hview
  rw [← versionsOf_pruned] at hlast
  rw [exists_and_left, exists_and_left, hlast]

theorem prefixDeletedSince_pruned (hview : horizon ≤ view) (filter : Bytes) :
    (t.pruned horizon).prefixDeletedSince filter view = t.prefixDeletedSince filter view := by
  have hiff : ∀ t' : VersionTree, t'.prefixDeletedSince filter view = true ↔
      ∃ s ∈ t'.tombstones, s.stem.comparable filter = true ∧ view < s.seqno := by
    intro t'
    simp only [prefixDeletedSince, List.any_eq_true, Bool.and_eq_true, decide_eq_true_eq, and_comm]
  rw [Bool.eq_iff_iff, hiff, hiff, exists_tombstone_pruned hview]

end Views

/-! ## 3. Later changes and later prunings -/

theorem pushVersion_append (older : List Version) {newer : List Version} {v x : Version}
    (h : v.seqno ≠ x.seqno) :
    pushVersion (older ++ v :: newer) x = older ++ v :: pushVersion newer x := by
  rcases List.eq_nil_or_concat newer with rfl | ⟨l, last, rfl⟩
  · simp [pushVersion, h]
  · have hall : older ++ v :: l.concat last = (older ++ v :: l) ++ [last] := by simp
    rw [hall, List.concat_eq_append]
    simp only [pushVersion, List.getLast?_append, List.getLast?_singleton, Option.some_or,
      List.dropLast_concat]
    split <;> simp

theorem pruneVersions_pushVersion (tombstones : List Tombstone) {horizon : Nat} (key : Bytes)
    (vs : List Version) {x : Version} (h : horizon < x.seqno) :
    pruneVersions tombstones horizon key (pushVersion vs x) =
      pushVersion (pruneVersions tombstones horizon key vs) x := by
  rcases exists_split vs horizon with hall | ⟨older, v, newer, rfl, hv, hnewer⟩
  · rw [pruneVersions_of_all_lt hall, pruneVersions_of_all_lt]
    intro v hv
    rcases mem_pushVersion hv with hv | rfl
    · exact hall v hv
    · exact h
  · have hne : v.seqno ≠ x.seqno := by omega
    have hnewer' : ∀ y ∈ pushVersion newer x, horizon < y.seqno := by
      intro y hy
      rcases mem_pushVersion hy with hy | rfl
      · exact hnewer y hy
      · exact h
    rw [pushVersion_append older hne, pruneVersions_append hv hnewer',
      pruneVersions_append hv hnewer]
    split
    · rfl
    · exact (pushVersion_append [] hne).symm

theorem pruned_insert (t : VersionTree) (key : Bytes) {horizon n : Nat} (value : Option Bytes)
    (h : horizon < n) :
    (t.insert key n value).pruned horizon = (t.pruned horizon).insert key n value := by
  have hset : (t.insert key n value).settled horizon = t.settled horizon := rfl
  apply eq_of_versionsOf_eq (noEmptyList_pruned _ _) ((noEmptyList_pruned _ _).insert _ _ _)
  · intro key'
    rw [versionsOf_pruned, hset, versionsOf_insert, versionsOf_insert, versionsOf_pruned,
      versionsOf_pruned]
    split
    · next hk =>
      subst hk
      exact pruneVersions_pushVersion _ _ _ h
    · rfl
  · rfl

theorem pruned_deletePrefix (t : VersionTree) (stem : Bytes) {horizon n : Nat}
    (h : horizon < n) :
    (t.deletePrefix stem n).pruned horizon = (t.pruned horizon).deletePrefix stem n := by
  have hn : ¬ n ≤ horizon := by omega
  have hset : (t.deletePrefix stem n).settled horizon = t.settled horizon := by simp [settled, hn]
  have hne : ((t.pruned horizon).deletePrefix stem n).NoEmptyList := noEmptyList_pruned horizon t
  apply eq_of_versionsOf_eq (noEmptyList_pruned _ _) hne
  · intro key
    rw [versionsOf_pruned, hset, versionsOf_deletePrefix, versionsOf_deletePrefix,
      versionsOf_pruned]
  · simp [h]

/-- Versions above the horizon outlive a pruning, whatever comes before them. -/
theorem pruneVersions_append_of_lt (tombstones : List Tombstone) (key : Bytes) {horizon : Nat}
    (older : List Version) {newer : List Version} (h : ∀ x ∈ newer, horizon < x.seqno) :
    ∃ older', pruneVersions tombstones horizon key (older ++ newer) = older' ++ newer := by
  rcases exists_split older horizon with hall | ⟨first, u, rest, rfl, hu, hrest⟩
  · refine ⟨older, pruneVersions_of_all_lt fun v hv => ?_⟩
    rcases List.mem_append.1 hv with hv | hv
    · exact hall v hv
    · exact h v hv
  · have hrest' : ∀ x ∈ rest ++ newer, horizon < x.seqno := by
      intro x hx
      rcases List.mem_append.1 hx with hx | hx
      · exact hrest x hx
      · exact h x hx
    rw [List.append_assoc, List.cons_append, pruneVersions_append hu hrest']
    split
    · exact ⟨rest, rfl⟩
    · exact ⟨u :: rest, rfl⟩

/-- The tombstones that the first pruning dropped matter to the second one only for versions that
the first one dropped too. -/
theorem isDead_settled_pruned (t : VersionTree) (key : Bytes) {horizon later : Nat} {v : Version}
    (h : horizon < v.seqno ∨ isDead (t.settled horizon) key v = false) :
    isDead ((t.pruned horizon).settled later) key v = isDead (t.settled later) key v := by
  rw [Bool.eq_iff_iff, isDead_iff, isDead_iff]
  refine or_congr_right ⟨?_, ?_⟩
  · rintro ⟨s, hs, hlt, hp⟩
    rw [mem_settled, tombstones_pruned, List.mem_filter] at hs
    exact ⟨s, mem_settled.2 ⟨hs.1.1, hs.2⟩, hlt, hp⟩
  · rintro ⟨s, hs, hlt, hp⟩
    obtain ⟨hs, hsl⟩ := mem_settled.1 hs
    have habove : horizon < s.seqno := by
      rcases h with h | h
      · omega
      · apply Decidable.byContradiction
        intro hn
        rw [Bool.eq_false_iff, ne_eq, isDead_iff] at h
        exact h (.inr ⟨s, mem_settled.2 ⟨hs, by omega⟩, hlt, hp⟩)
    refine ⟨s, mem_settled.2 ⟨?_, hsl⟩, hlt, hp⟩
    rw [tombstones_pruned]
    exact List.mem_filter.2 ⟨hs, decide_eq_true habove⟩

theorem isDead_mono (t : VersionTree) (key : Bytes) {horizon later : Nat} {v : Version}
    (hle : horizon ≤ later) (h : isDead (t.settled horizon) key v = true) :
    isDead (t.settled later) key v = true := by
  rcases isDead_iff.1 h with h | ⟨s, hs, hlt, hp⟩
  · exact isDead_iff.2 (.inl h)
  · obtain ⟨hs, hsl⟩ := mem_settled.1 hs
    exact isDead_iff.2 (.inr ⟨s, mem_settled.2 ⟨hs, by omega⟩, hlt, hp⟩)

/-- A pruning at a horizon no lower forgets that the tree was pruned before. -/
theorem pruned_pruned (t : VersionTree) {horizon later : Nat} (h : horizon ≤ later) :
    (t.pruned horizon).pruned later = t.pruned later := by
  apply eq_of_versionsOf_eq (noEmptyList_pruned _ _) (noEmptyList_pruned _ _)
  · intro key
    rw [versionsOf_pruned, versionsOf_pruned, versionsOf_pruned]
    rcases exists_split (t.versionsOf key) later with hall | ⟨older, v, newer, heq, hv, hnewer⟩
    · have hall' : ∀ v ∈ t.versionsOf key, horizon < v.seqno := fun v hv =>
        Nat.lt_of_le_of_lt h (hall v hv)
      rw [pruneVersions_of_all_lt hall', pruneVersions_of_all_lt hall,
        pruneVersions_of_all_lt hall]
    · have hnewer' : ∀ x ∈ newer, horizon < x.seqno := fun x hx =>
        Nat.lt_of_le_of_lt h (hnewer x hx)
      rw [heq, pruneVersions_append hv hnewer]
      by_cases hvh : v.seqno ≤ horizon
      · rw [pruneVersions_append hvh hnewer']
        by_cases hd : isDead (t.settled horizon) key v = true
        · rw [if_pos hd, if_pos (isDead_mono t key h hd), pruneVersions_of_all_lt hnewer]
        · have hd' := Bool.eq_false_iff.2 hd
          rw [if_neg hd, ← List.nil_append (v :: newer), pruneVersions_append hv hnewer,
            isDead_settled_pruned t key (.inr hd'), List.nil_append]
      · have hv' : ∀ x ∈ v :: newer, horizon < x.seqno := by
          intro x hx
          rcases List.mem_cons.1 hx with rfl | hx
          · omega
          · exact hnewer' x hx
        obtain ⟨older', hold⟩ := pruneVersions_append_of_lt (t.settled horizon) key older hv'
        rw [hold, pruneVersions_append hv hnewer, isDead_settled_pruned t key (.inl (by omega))]
  · simp only [tombstones_pruned, List.filter_filter]
    apply List.filter_congr
    intro s _
    rw [Bool.eq_iff_iff, Bool.and_eq_true, decide_eq_true_eq, decide_eq_true_eq]
    omega

theorem mem_pruneVersions {tombstones : List Tombstone} {horizon : Nat} {key : Bytes}
    {vs : List Version} {v : Version} (h : v ∈ pruneVersions tombstones horizon key vs) :
    v ∈ vs := by
  rcases exists_split vs horizon with hall | ⟨older, x, newer, rfl, hx, hnewer⟩
  · rwa [pruneVersions_of_all_lt hall] at h
  · rw [pruneVersions_append hx hnewer] at h
    split at h
    · exact List.mem_append_right _ (List.mem_cons_of_mem _ h)
    · exact List.mem_append_right _ h

theorem UpTo.pruned {t : VersionTree} {n : Nat} (ht : t.UpTo n) (horizon : Nat) :
    (t.pruned horizon).UpTo n := by
  refine ⟨fun key v hv => ?_, fun s hs => ht.tombstones s (List.mem_of_mem_filter hs)⟩
  rw [versionsOf_pruned] at hv
  exact ht.versions key v (mem_pruneVersions hv)

end VersionTree

end SnapshotKv
