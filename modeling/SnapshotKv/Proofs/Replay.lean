import SnapshotKv.Proofs.Changes

/-!
# Commits and replays

A write set keeps neither the order of its changes nor the ones that a later prefix deletion made
pointless, and a commit makes them all at one sequence number. The replay of the changes makes them
one by one, in their order, each at a number of its own.

Results:
1. `get_replay`: a replay at increasing fresh numbers leaves under each key what its changes leave,
   whatever the numbers are.
2. `commit_eq_replay`: so a commit and a replay leave the same under every key, the views below the
   commit see what they saw, and the write set says of a key what its last change did.
-/

namespace SnapshotKv

/-! ## 1. Replays -/

namespace VersionTree

/-- The tree after some changes were made one by one, each at its own sequence number. -/
def replay (t : VersionTree) (steps : List (Change × Nat)) : VersionTree :=
  steps.foldl (fun t step => step.1.onTree t step.2) t

/-- The sequence numbers of a replay ascend, and each of them is fresh in the tree. -/
structure Fresh (t : VersionTree) (steps : List (Change × Nat)) : Prop where
  below : ∀ step ∈ steps, t.Below step.2
  ascending : steps.Pairwise fun a b => a.2 < b.2

theorem replay_cons (t : VersionTree) (c : Change) (n : Nat) (rest : List (Change × Nat)) :
    t.replay ((c, n) :: rest) = (c.onTree t n).replay rest := rfl

/-- After the first change of a replay the numbers of the others are still fresh. -/
theorem Fresh.tail {t : VersionTree} {c : Change} {n : Nat} {rest : List (Change × Nat)}
    (h : t.Fresh ((c, n) :: rest)) : (c.onTree t n).Fresh rest := by
  obtain ⟨hlt, hrest⟩ := List.pairwise_cons.1 h.ascending
  have hover := overwrites_onTree (h.below (c, n) List.mem_cons_self) c
  exact ⟨fun step hstep => hover.upTo.below (hlt step hstep), hrest⟩

/-- The views that reach every number of a replay see each key as the changes leave it. -/
theorem get_replay {t : VersionTree} {steps : List (Change × Nat)} (h : t.Fresh steps)
    (key : Bytes) {view : Nat} (hview : ∀ step ∈ steps, step.2 ≤ view) :
    (t.replay steps).get key view =
      Change.after (steps.map Prod.fst) key (t.get key view) := by
  induction steps generalizing t with
  | nil => rfl
  | cons step rest ih =>
    obtain ⟨c, n⟩ := step
    have hover := overwrites_onTree (h.below (c, n) List.mem_cons_self) c
    rw [replay_cons, ih h.tail fun step hstep => hview step (List.mem_cons_of_mem _ hstep),
      hover.since key view (hview (c, n) List.mem_cons_self)]
    exact (Change.after_append [c] (rest.map Prod.fst) key (t.get key view)).symm

/-- Two views above everything in a tree see the same. -/
theorem Below.get_eq {t : VersionTree} {m n : Nat} (hm : t.Below m) (hn : t.Below n)
    (key : Bytes) : t.get key m = t.get key n := by
  rcases Nat.le_total m n with h | h
  · exact (hm.upTo.get_eq h key).symm
  · exact hn.upTo.get_eq h key

/-- The last number of a replay, or another one when nothing is replayed. -/
def lastNumber (steps : List (Change × Nat)) (otherwise : Nat) : Nat :=
  (steps.getLast?.map Prod.snd).getD otherwise

theorem Fresh.le_lastNumber {t : VersionTree} {steps : List (Change × Nat)} (h : t.Fresh steps)
    (otherwise : Nat) : ∀ step ∈ steps, step.2 ≤ lastNumber steps otherwise := by
  rcases List.eq_nil_or_concat steps with rfl | ⟨older, last, rfl⟩
  · exact fun _ hstep => absurd hstep List.not_mem_nil
  · rw [List.concat_eq_append] at h ⊢
    have hlast : lastNumber (older ++ [last]) otherwise = last.2 := by simp [lastNumber]
    rw [hlast]
    intro step hstep
    rcases List.mem_append.1 hstep with hstep | hstep
    · exact Nat.le_of_lt ((List.pairwise_append.1 h.ascending).2.2 step hstep last
        (List.mem_singleton_self last))
    · exact Nat.le_of_eq (congrArg Prod.snd (List.mem_singleton.1 hstep))

theorem Fresh.below_lastNumber {t : VersionTree} {steps : List (Change × Nat)} (h : t.Fresh steps)
    {otherwise : Nat} (ht : t.Below otherwise) : t.Below (lastNumber steps otherwise) := by
  unfold lastNumber
  cases hlast : steps.getLast? with
  | none => exact ht
  | some last => exact h.below last (List.mem_of_getLast? hlast)

/-- A replay at increasing fresh numbers makes a tree what a commit of its changes makes it. -/
theorem get_replay_lastNumber {t : VersionTree} {steps : List (Change × Nat)} (h : t.Fresh steps)
    {n : Nat} (ht : t.Below n) (key : Bytes) :
    (t.replay steps).get key (lastNumber steps n) =
      Change.after (steps.map Prod.fst) key (t.get key n) := by
  rw [get_replay h key (h.le_lastNumber n), (h.below_lastNumber ht).get_eq ht]

end VersionTree

/-! ## 2. Commits -/

/-- Changes that were collected in a write set and committed to a tree, at a number above everything
in it, leave under each key what their replay leaves at its last number. The views below the commit
see what they saw before, and the write set decides the keys as the last change on each of them
does. -/
theorem commit_eq_replay {t : VersionTree} {n : Nat} (ht : t.Below n) (changes : List Change) :
    (∀ steps, t.Fresh steps → steps.map Prod.fst = changes → ∀ key,
      ((WriteSet.ofChanges changes).applyTo t n).get key n =
        (t.replay steps).get key (VersionTree.lastNumber steps n)) ∧
    (∀ key view, view < n →
      ((WriteSet.ofChanges changes).applyTo t n).get key view = t.get key view) ∧
    ∀ key, (WriteSet.ofChanges changes).lookup key =
      match Change.lastOn changes key with
      | some (.put _ value) => .value value
      | some (.delete _) => .deleted
      | some (.deletePrefix _) => .deleted
      | none => .absent := by
  have hover := WriteSet.overwrites_applyTo ht changes
  refine ⟨fun steps hfresh hsteps key => ?_, hover.before, fun key => ?_⟩
  · rw [hover.since key n (Nat.le_refl n), VersionTree.get_replay_lastNumber hfresh ht, hsteps]
  · rw [WriteSet.lookup_ofChanges]
    rcases Change.lastOn changes key with _ | ⟨_, _⟩ | _ | _ <;> rfl

/-- A tree with two keys, one of which starts with the other. -/
def nestedTree : VersionTree :=
  (VersionTree.insert {} [97] 1 (some [1])).insert [97, 98] 1 (some [2])

/-- Changes with nested and repeated prefixes, and puts before, between and after them. -/
def nestedSteps : List (Change × Nat) :=
  [(.put [97, 98, 99] [3], 2), (.deletePrefix [97, 98], 3), (.put [97, 98] [4], 5),
    (.deletePrefix [97], 6), (.put [97, 98, 99] [5], 7), (.deletePrefix [97, 98], 9),
    (.put [97, 99] [6], 10), (.delete [97], 11)]

/-- Committed at 2 at once, the changes leave what they leave one by one up to 11: of the three keys
that were put only the last one is there. -/
theorem commit_eq_replay_nested :
    nestedTree.Below 2 ∧ nestedTree.Fresh nestedSteps ∧
      (∀ key, ((WriteSet.ofChanges (nestedSteps.map Prod.fst)).applyTo nestedTree 2).get key 2 =
        (nestedTree.replay nestedSteps).get key 11) ∧
      (nestedTree.replay nestedSteps).get [97, 98, 99] 11 = none ∧
      (nestedTree.replay nestedSteps).get [97, 99] 11 = some [6] ∧
      ((WriteSet.ofChanges (nestedSteps.map Prod.fst)).applyTo nestedTree 2).get [97] 1 =
        some [1] := by
  have hup : nestedTree.UpTo 1 := ((VersionTree.upTo_empty 1).insert _ _).insert _ _
  have hfresh : nestedTree.Fresh nestedSteps :=
    ⟨fun step hstep => hup.below ((by decide : ∀ step ∈ nestedSteps, 1 < step.2) step hstep),
      by decide⟩
  obtain ⟨hreplay, hbefore, -⟩ :=
    commit_eq_replay (hup.below (Nat.lt_succ_self 1)) (nestedSteps.map Prod.fst)
  exact ⟨hup.below (Nat.lt_succ_self 1), hfresh, hreplay nestedSteps hfresh rfl, by decide,
    by decide, (hbefore [97] 1 (by decide)).trans (by decide)⟩

end SnapshotKv
