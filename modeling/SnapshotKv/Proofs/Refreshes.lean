import SnapshotKv.Proofs.Courses
import SnapshotKv.Proofs.ScanPaths

/-!
# Refreshed cursors

A refresh moves the view of a cursor to what is committed, and leaves its place. However often a
cursor is refreshed between its reads, and whatever is committed meanwhile before, at and beyond its
place, the keys that it reads only ever advance, and after each refresh nothing is left out that is
committed beyond them.

Results:
1. `Charted.returned_advance`: the keys that were read since a cursor was made or moved.
2. `refresh_law`.
-/

namespace SnapshotKv

open Database

/-! ## 1. The keys that were read -/

namespace RefreshLemmas

open CourseLemmas

variable {x : Course} {L : Ledger} {records : List (Bytes × Bytes)}

/-- A key that lies ahead comes after all that were read. -/
theorem before_of_ahead (h : x.returned.Pairwise (Before x.reverse)) {key : Bytes}
    (hahead : x.ahead key = true) : ∀ a ∈ x.returned, Before x.reverse a key := by
  intro a ha
  cases hlast : x.returned.getLast? with
  | none =>
    rw [List.getLast?_eq_none_iff.1 hlast] at ha
    cases ha
  | some last =>
    have hbefore : Before x.reverse last key := by
      unfold Course.ahead at hahead
      rw [hlast] at hahead
      exact of_decide_eq_true hahead
    obtain ⟨earlier, heq⟩ := List.getLast?_eq_some_iff.1 hlast
    rw [heq] at h ha
    rcases List.mem_append.1 ha with ha | ha
    · have hlater := (List.pairwise_append.1 h).2.2 a ha last (List.mem_singleton_self _)
      exact before_trans hlater hbefore
    · rwa [List.mem_singleton.1 ha]

theorem advance_read (h : x.returned.Pairwise (Before x.reverse)) :
    (x.read (x.left records).head?).returned.Pairwise (Before x.reverse) := by
  cases hhead : (x.left records).head? with
  | none => exact h
  | some found =>
    refine List.pairwise_append.2 ⟨h, List.pairwise_singleton _ _, fun a ha b hb => ?_⟩
    rw [List.mem_singleton.1 hb]
    exact before_of_ahead h (ahead_and_within hhead).1 a ha

end RefreshLemmas

open RefreshLemmas

/-- The keys that were read since a cursor was made or moved, the last one at the end, advance
strictly. -/
theorem Charted.returned_advance {i : Nat} {s : Site} {L : Ledger} {x : Option Course}
    (h : Charted i s L x) : ∀ y, x = some y → y.returned.Pairwise (Before y.reverse) := by
  induction h with
  | opened fs hdb => exact nofun
  | @step s L x e hcharted ih =>
    intro y hy
    cases x with
    | none =>
      obtain ⟨now, handle, txn, filter, reverse, hd, -, -, -, rfl⟩ :=
        CourseLemmas.opened_of_noted hy
      exact List.Pairwise.nil
    | some x =>
      have hadvance := ih x rfl
      have hgoes := (hcharted.shows.goes hcharted.run e).1
      rw [hy] at hgoes
      cases hgoes with
      | still | unread | unrefreshed => exact hadvance
      | @read _ records =>
        have hread : (x.read (x.left records).head?).returned.Pairwise (Before x.reverse) :=
          advance_read hadvance
        cases hhead : (x.left records).head? <;> rw [hhead] at hread <;> exact hread
      | moved => exact List.Pairwise.nil
      | refused =>
        unfold Course.refused
        split <;> exact hadvance
      | refreshed =>
        unfold Course.refreshed
        split <;> exact hadvance

/-! ## 2. The law -/

/-- What the refreshes of a cursor do to its reads. -/
structure RefreshLaw (s : Site) (L : Ledger) (i : Nat) (x : Course) : Prop where
  /-- Across all refreshes no key is read again, and none after a later one. -/
  advance : x.returned.Pairwise (Before x.reverse)
  /-- After a refresh the reads answer the records that are committed then, from its place on. -/
  refreshed : x.writes = none → ∀ now r, (Event.call now (.refreshCursor i)).answer s = .ok r →
    ∃ records : List (Bytes × Bytes), (records.Pairwise fun a b => Before x.reverse a.1 b.1) ∧
      (∀ key v, (key, v) ∈ records ↔ landedValue L.loaded L.commits x.cell key = some v ∧
        x.filter.isPrefixOf key = true ∧ x.within key = true ∧ x.ahead key = true) ∧
      Yields ((Event.call now (.refreshCursor i)).next s) L i
        { x.sight with taken := L.commits.length } records
  /-- The refresh of a cursor that belongs to a transaction changes nothing. -/
  bound : x.writes ≠ none → ∀ now (events : List Event),
    ((Event.call now (.refreshCursor i)).next s).answers events = s.answers events
  available : s.db.closed = false → ∀ now, (Event.call now (.refreshCursor i)).answer s = .ok .done

namespace RefreshLemmas

open CourseLemmas OutdatedLemmas

variable {s : Site} {L : Ledger} {i : Nat} {x : Course}

theorem refreshed_of_unbound (hwrites : x.writes = none) :
    x.refreshed L = { x with taken := L.commits.length, ended := false } := by
  unfold Course.refreshed
  rw [hwrites]

/-- What is left after a refresh. -/
theorem mem_left_refreshed (hwrites : x.writes = none) {records : List (Bytes × Bytes)}
    (hspans : (x.refreshed L).Spans L records) (key v : Bytes) :
    (key, v) ∈ (x.refreshed L).left records ↔
      landedValue L.loaded L.commits x.cell key = some v ∧
        x.filter.isPrefixOf key = true ∧ x.within key = true ∧ x.ahead key = true := by
  rw [refreshed_of_unbound hwrites] at hspans ⊢
  have hvalue : Course.value { x with taken := L.commits.length, ended := false } L key =
      landedValue L.loaded L.commits x.cell key := by
    unfold Course.value
    rw [hwrites, List.take_length]
    rfl
  have hleft : Course.left { x with taken := L.commits.length, ended := false } records =
      records.filter fun e => x.ahead e.1 && x.within e.1 := rfl
  rw [hleft, List.mem_filter, hspans.exact, hvalue, Bool.and_eq_true]
  constructor
  · rintro ⟨⟨hfilter, hv⟩, hahead, hwithin⟩
    exact ⟨hv, hfilter, hwithin, hahead⟩
  · rintro ⟨hv, hfilter, hwithin, hahead⟩
    exact ⟨⟨hfilter, hv⟩, hahead, hwithin⟩

end RefreshLemmas

/-- **Refreshes neither repeat nor skip.** The keys that a cursor answers between two of its moves
advance strictly, across all its refreshes and the ends that these undo. After a refresh the reads
of a cursor without transaction answer what is then committed under its filter and within its cap,
strictly beyond the last key that was read, or from the place on that it was moved to. For a cursor
that belongs to a transaction a refresh changes no later answer. -/
theorem refresh_law {s : Site} {L : Ledger} {i : Nat} {x : Course} (h : Charted i s L (some x)) :
    RefreshLaw s L i x where
  advance := h.returned_advance x rfl
  refreshed := fun hwrites now r hok => by
    have hcharted := h.step (.call now (.refreshCursor i))
    have hnoted : (Event.call now (.refreshCursor i)).noted i s L (some x) =
        some (x.refreshed L) := by
      simp only [Event.noted, hok, Course.afterCall, ↓reduceIte, Option.map_some]
    rw [OutdatedLemmas.after_refreshCursor hok, hnoted] at hcharted
    obtain ⟨records, hspans⟩ := hcharted.exists_spans
    have hsight : (x.refreshed L).sight = { x.sight with taken := L.commits.length } := by
      rw [refreshed_of_unbound hwrites]
      rfl
    have hordered : ((x.refreshed L).left records).Pairwise fun a b =>
        Before x.reverse a.1 b.1 := by
      have hreverse : (x.refreshed L).reverse = x.reverse := congrArg Sight.reverse hsight
      unfold Course.left
      split
      · exact List.Pairwise.nil
      · exact hreverse ▸ hspans.ordered.filter _
    exact ⟨_, hordered, mem_left_refreshed hwrites hspans, hsight ▸ hcharted.yields hspans⟩
  bound := fun hwrites now events => by
    obtain ⟨c, st, hc, hs, hmatch⟩ := h.shows
    cases hanswer : (Event.call now (.refreshCursor i)).answer s with
    | error f => rw [CourseLemmas.next_refreshCursor_error hanswer]
    | ok r =>
      have hbound : c.isBound = true :=
        hmatch.sight.bound.trans (Option.isSome_iff_ne_none.2 hwrites)
      rw [CourseLemmas.next_refreshCursor hc hs hanswer, if_pos hbound]
  available := fun hopen now => by
    obtain ⟨c, st, hc, hs, -⟩ := h.shows
    exact OutdatedLemmas.answer_refreshCursor hopen hc hs now

/-- A cursor comes to its end; then records are put before, at and beyond its place, one record
beyond it is deleted, and the tree is compacted. -/
def refreshEvents : List Event :=
  [.call 0 (.openStore "a" []), .call 0 (.write 0 none (.put [1, 2] [2])),
    .call 0 (.openCursor 0 none [1] false), .call 0 (.readCursor 0), .call 0 (.readCursor 0),
    .call 0 (.write 0 none (.put [1, 1] [1])), .call 0 (.write 0 none (.put [1, 2] [7])),
    .call 0 (.write 0 none (.put [1, 3] [3])), .call 0 (.write 0 none (.put [1, 4] [4])),
    .call 0 (.write 0 none (.delete [1, 3])), .call 0 .compact]

/-- The cursor after that. -/
def refreshCourse : Course :=
  { cell := 0, filter := [1], reverse := false, writes := none, taken := 1, returned := [[1, 2]]
    ended := true }

set_option maxRecDepth 10000 in
/-- The end is undone, and of the records that were put only the last one is read. -/
theorem refresh_law_undoes_end :
    let s := (playSmall refreshEvents).1
    let refreshed := (Event.call 0 (.refreshCursor 0)).next s
    let reads := List.replicate 2 (Event.call 0 (.readCursor 0))
    readsOf 0 reads refreshed = [some ([1, 4], [4]), none] ∧
      ∃ records : List (Bytes × Bytes), ([1, 4], [4]) ∈ records ∧
        Yields refreshed (playSmall refreshEvents).2 0 { refreshCourse.sight with taken := 6 }
          records := by
  have hcharted : Charted 0 (playSmall refreshEvents).1 (playSmall refreshEvents).2
    (some refreshCourse) := charted_playSmall 0 refreshEvents
  obtain ⟨records, -, hmem, hyields⟩ := (refresh_law hcharted).refreshed rfl 0 .done rfl
  exact ⟨rfl, records, (hmem [1, 4] [4]).2 ⟨rfl, rfl, rfl, rfl⟩, hyields⟩

end SnapshotKv
