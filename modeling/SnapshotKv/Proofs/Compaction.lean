import SnapshotKv.Proofs.Mirrors

/-!
# Compaction

Nothing that a caller can ask tells whether a database was compacted, except the calls of compaction
themselves. Two sites are alike when they differ only in what no view at or above some horizon sees,
and no view in use is below it. Every event leaves alike sites alike: since the oldest view in use
never goes back, the horizon can stay where it is, until a compaction raises it.

Results:
1. `Steps.horizon_le`: the oldest view in use never goes back.
2. `prunedAt_compact`: a compaction drops what a pruning at the oldest view in use would drop.
3. `Alike.next`: what one event does to alike sites; `compact_invisible`.
-/

namespace SnapshotKv

open Database

/-! ## 1. The oldest view in use -/

theorem Pins.le_horizon_iff {p : Pins} {n published : Nat} :
    n ≤ p.horizon published ↔ n ≤ published ∧ ∀ v ∈ p.views, n ≤ v := by
  constructor
  · intro h
    exact ⟨Nat.le_trans h (p.horizon_le_published published), fun v hv =>
      Nat.le_trans h (Pins.horizon_le_of_mem hv published)⟩
  · rintro ⟨hpublished, hviews⟩
    obtain ⟨views⟩ := p
    simp only [Pins.horizon] at hviews ⊢
    induction views generalizing published with
    | nil => exact hpublished
    | cons v rest ih =>
      have hv := hviews v List.mem_cons_self
      exact ih (Nat.le_min.2 ⟨hpublished, hv⟩) fun v hv => hviews v (List.mem_cons_of_mem _ hv)

/-- The oldest view in use: what compaction prunes at. -/
def Database.horizon (db : Database) : Nat := db.pins.horizon db.published

namespace CompactionLemmas

variable {db db' : Database} {L L' : Ledger}

/-- Views may come that are not older than the oldest one, and any views may go. -/
theorem horizon_le_of_views (hpublished : db.published ≤ db'.published)
    (hviews : ∀ v ∈ db'.pins.views, v = db.published ∨ v ∈ db.pins.views) :
    db.horizon ≤ db'.horizon := by
  unfold horizon
  rw [Pins.le_horizon_iff]
  constructor
  · exact Nat.le_trans (HeldViews.horizon_le_published db) hpublished
  · intro v hv
    rcases hviews v hv with rfl | hv
    · exact HeldViews.horizon_le_published db
    · exact Pins.horizon_le_of_mem hv _

end CompactionLemmas

open CompactionLemmas

theorem Step.horizon_le {db db' : Database} {L L' : Ledger} (hr : Registry db L)
    (hv : HeldViews db) (hstep : Step db L db' L') : db.horizon ≤ db'.horizon := by
  cases hstep with
  | beginTxn now hx hidle =>
    exact horizon_le_of_views (Nat.le_refl _) fun v hv => List.mem_cons.1 hv
  | endCycle hc =>
    exact horizon_le_of_views (Nat.le_refl _) fun v hv => .inr (List.mem_of_mem_erase hv)
  | @commit t c hc hdoomed =>
    obtain ⟨cells, published, heq, -, -, hpublished⟩ := publish_spec hr.ids c
    rw [heq]
    refine horizon_le_of_views ?_ fun v hv => .inr (List.mem_of_mem_erase hv)
    show db.published ≤ published
    rcases hpublished with rfl | ⟨rfl, -⟩ <;> omega
  | plain change hh hs hplain => exact horizon_le_of_views (Nat.le_succ _) fun v hv => .inr hv
  | openCursor c hview =>
    refine horizon_le_of_views (Nat.le_refl _) fun v hmem => ?_
    rcases List.mem_cons.1 hmem with rfl | hmem
    · rcases hview with hview | ⟨t, cycle, hc, hview⟩
      · exact .inl hview
      · exact .inr (hview ▸ hv.mem_cycle hc)
    · exact .inr hmem
  | closeCursor hc =>
    exact horizon_le_of_views (Nat.le_refl _) fun v hv => .inr (List.mem_of_mem_erase hv)
  | refreshCursor hc =>
    exact horizon_le_of_views (Nat.le_refl _) fun v hv => List.mem_cons.1 (List.mem_of_mem_erase hv)
  | fileFault | list | number | delist | createStore | dropStore | openStore | closeStore | saved
  | close | allocTxn | claim | doom | write | moveCursor | compact => exact Nat.le_refl _

/-- The oldest view in use never goes back. -/
theorem Steps.horizon_le {db db' : Database} {L L' : Ledger} (hreached : Reached db L)
    (h : Steps db L db' L') : db.horizon ≤ db'.horizon := by
  induction h with
  | refl => exact Nat.le_refl _
  | tail hsteps hstep ih =>
    have hmiddle := hreached.steps hsteps
    exact Nat.le_trans ih (hstep.horizon_le (.of_reached hmiddle) (.of_reached hmiddle))

/-! ## 2. Compaction is a pruning -/

namespace CompactionLemmas

theorem store_prunedAt_prunedAt (s : Store) {horizon later : Nat} (h : horizon ≤ later) :
    (s.prunedAt horizon).prunedAt later = s.prunedAt later := by
  rw [Store.prunedAt, Store.prunedAt, VersionTree.pruned_pruned _ h]
  rfl

theorem prunedAt_prunedAt (db : Database) {horizon later : Nat} (h : horizon ≤ later) :
    (db.prunedAt horizon).prunedAt later = db.prunedAt later := by
  simp only [prunedAt, Pool.map_map, store_prunedAt_prunedAt _ h]

theorem map_pruneCell (horizon : Nat) (acc : Nat × Pool Store) (cell : Nat) :
    (pruneCell horizon acc cell).2.map (Store.prunedAt horizon) =
      acc.2.map (Store.prunedAt horizon) := by
  unfold pruneCell
  split
  · next s hs =>
    -- the tree that is put back is that of the store that was read
    have hmodify : acc.2.modify cell (fun s' => { s' with tree := (s.tree.prune horizon).2 }) =
        acc.2.modify cell (Store.prunedAt horizon) := by
      apply Pool.modify_congr
      intro s' hs'
      obtain rfl := Option.some.inj (hs.symm.trans hs')
      rfl
    simp only [hmodify]
    exact Pool.map_modify_of_eq _ _ fun s' => store_prunedAt_prunedAt s' (Nat.le_refl _)
  · rfl

end CompactionLemmas

/-- What a compaction drops, a pruning at the oldest view in use would drop. -/
theorem prunedAt_compact (db : Database) :
    (compact.on db).2.prunedAt db.horizon = db.prunedAt db.horizon := by
  have hall : ∀ (cells : List Nat) (acc : Nat × Pool Store),
      (cells.foldl (pruneCell db.horizon) acc).2.map (Store.prunedAt db.horizon) =
        acc.2.map (Store.prunedAt db.horizon) := by
    intro cells
    induction cells with
    | nil => exact fun _ => rfl
    | cons cell rest ih =>
      intro acc
      exact (ih _).trans (map_pruneCell db.horizon acc cell)
  simp only [compact, Attempt.on_bind, Attempt.on_get, Attempt.on_check]
  cases db.checkOpen with
  | error f => rfl
  | ok _ =>
    have hcells := hall db.stores.values (0, db.cells)
    exact congrArg (fun cells => { db with cells }) hcells

/-! ## 3. Alike sites -/

/-- The sites differ only in what no view at or above some horizon sees, and no view in use is below
it. -/
def Alike (s s' : Site) : Prop :=
  ∃ horizon, horizon ≤ s.db.horizon ∧ horizon ≤ s'.db.horizon ∧
    s.prunedAt horizon = s'.prunedAt horizon

/-- Whether an event is a call of compaction. -/
def Event.isOfCompaction : Event → Bool
  | .call _ c => c.isOfCompaction
  | .files _ => false

namespace CompactionLemmas

theorem mirrors_event {horizon : Nat} {s : Site} (hv : HeldViews s.db)
    (hh : horizon ≤ s.db.horizon) {e : Event} (he : e.isOfCompaction = false) :
    Mirrors (Site.prunedAt horizon) s e.attempt e.attempt := by
  cases e with
  | files fs => rfl
  | call now c => exact c.mirrors hv hh now he

theorem horizon_eq_of_prunedAt {s s' : Site} {horizon : Nat}
    (h : s.prunedAt horizon = s'.prunedAt horizon) : s.db.horizon = s'.db.horizon := by
  have hpins : s.db.pins = s'.db.pins := congrArg (fun s => s.db.pins) h
  have hpublished : s.db.published = s'.db.published := congrArg (fun s => s.db.published) h
  unfold Database.horizon
  rw [hpins, hpublished]

/-- A call of compaction leaves the site as it was but for what the oldest view in use does not
need. -/
theorem prunedAt_next_of_isOfCompaction {e : Event} (he : e.isOfCompaction = true) (s : Site) :
    (e.next s).prunedAt s.db.horizon = s.prunedAt s.db.horizon := by
  cases e with
  | files fs => cases he
  | call now c =>
    cases c with
    | compact =>
      simp only [Event.next, Event.attempt, Call.attempt, Attempt.on_map, Storage.on_onDatabase]
      exact congrArg (fun db => { s with db }) (prunedAt_compact s.db)
    | compactStatus =>
      simp only [Event.next, Event.attempt, Call.attempt, Attempt.on_map, Storage.on_ask]
    | _ => cases he

end CompactionLemmas

/-- Alike sites answer every event alike that is not a call of compaction, and stay alike. -/
theorem Alike.next {s s' : Site} {L L' : Ledger} (hrun : Run s L) (hrun' : Run s' L')
    (h : Alike s s') (e : Event) :
    Alike (e.next s) (e.next s') ∧ (e.isOfCompaction = false → e.answer s = e.answer s') := by
  obtain ⟨horizon, hle, hle', heq⟩ := h
  have hgrows := Steps.horizon_le hrun.reached (e.steps s L)
  have hgrows' := Steps.horizon_le hrun'.reached (e.steps s' L')
  cases he : e.isOfCompaction with
  | false =>
    -- both answer as their common pruned site does
    have hon := mirrors_event (.of_reached hrun.reached) hle he
    have hon' := mirrors_event (.of_reached hrun'.reached) hle' he
    unfold Mirrors at hon
    rw [heq, hon'] at hon
    obtain ⟨hanswer, hnext⟩ := Prod.mk.inj hon
    exact ⟨⟨horizon, Nat.le_trans hle hgrows, Nat.le_trans hle' hgrows', hnext.symm⟩,
      fun _ => hanswer.symm⟩
  | true =>
    -- both sites would prune at one horizon, which is not below the old one
    have hsame := horizon_eq_of_prunedAt heq
    refine ⟨⟨s.db.horizon, hgrows, hsame ▸ hgrows', ?_⟩, fun hno => nomatch hno⟩
    have hprune : ∀ s : Site, (s.prunedAt horizon).prunedAt s'.db.horizon =
        s.prunedAt s'.db.horizon := fun s =>
      congrArg (fun db => { s with db }) (prunedAt_prunedAt s.db hle')
    calc (e.next s).prunedAt s.db.horizon
      _ = s.prunedAt s.db.horizon := prunedAt_next_of_isOfCompaction he s
      _ = (s.prunedAt horizon).prunedAt s'.db.horizon := by rw [hsame, hprune]
      _ = s'.prunedAt s'.db.horizon := by rw [heq, hprune]
      _ = (e.next s').prunedAt s'.db.horizon := (prunedAt_next_of_isOfCompaction he s').symm
      _ = (e.next s').prunedAt s.db.horizon := by rw [hsame]

/-- The site after some events. -/
def Site.after (s : Site) (events : List Event) : Site := events.foldl (fun s e => e.next s) s

theorem Alike.after {s s' : Site} {L L' : Ledger} (hrun : Run s L) (hrun' : Run s' L')
    (h : Alike s s') (events : List Event) :
    Alike (s.after events) (s'.after events) ∧
      ∃ L L', Run (s.after events) L ∧ Run (s'.after events) L' := by
  induction events generalizing s s' L L' with
  | nil => exact ⟨h, L, L', hrun, hrun'⟩
  | cons e rest ih => exact ih (.step e hrun) (.step e hrun') (h.next hrun hrun' e).1

theorem Alike.compact (s : Site) (now : Nat) {L : Ledger} (hrun : Run s L) :
    Alike (Event.next (.call now .compact) s) s :=
  ⟨s.db.horizon, Steps.horizon_le hrun.reached (Event.steps (.call now .compact) s L),
    Nat.le_refl _, prunedAt_next_of_isOfCompaction (e := .call now .compact) rfl s⟩

/-- In every run a compaction can be put in before any further events: the files are the same after
them, and so is the answer of any event that then follows and is not a call of compaction. -/
theorem compact_invisible {s : Site} {L : Ledger} (hrun : Run s L) (now : Nat)
    (events : List Event) :
    (((Event.call now .compact).next s).after events).fs = (s.after events).fs ∧
      ∀ e : Event, e.isOfCompaction = false →
        e.answer (((Event.call now .compact).next s).after events) = e.answer (s.after events) := by
  obtain ⟨halike, _, _, hrun₁, hrun₂⟩ :=
    Alike.after (.step (.call now .compact) hrun) hrun (Alike.compact s now hrun) events
  constructor
  · obtain ⟨horizon, -, -, heq⟩ := halike
    exact (Site.mk.inj heq).2
  · intro e
    exact (halike.next hrun₁ hrun₂ e).2

/-- A key that is put twice. -/
def overwritten : List Event :=
  [.call 0 (.openStore "a" []), .call 0 (.write 0 none (.put [107] [1])),
    .call 0 (.write 0 none (.put [107] [2]))]

set_option maxRecDepth 2000 in
/-- The compaction drops the first version, and the value is still there. -/
theorem compact_invisible_overwritten :
    (Event.call 0 .compact).answer (playSmall overwritten).1 = .ok (.number 1) ∧
      (Event.call 0 (.get 0 none [107])).answer
        (((Event.call 0 .compact).next (playSmall overwritten).1).after []) =
          .ok (.value (some [2])) := by
  have hsame := (compact_invisible (run_playSmall overwritten) 0 []).2
    (.call 0 (.get 0 none [107])) rfl
  have hcompact : (Event.call 0 .compact).answer (playSmall overwritten).1 = .ok (.number 1) := rfl
  have hget : (Event.call 0 (.get 0 none [107])).answer ((playSmall overwritten).1.after []) =
    .ok (.value (some [2])) := rfl
  exact ⟨hcompact, hsame.trans hget⟩

end SnapshotKv
