import SnapshotKv.Proofs.Courses
import SnapshotKv.Proofs.ScanPaths

/-!
# Seeks

A seek answers the first record from a key on in scan order, among those that its cursor sees, and
the reads that follow start with that record. A range does the same within a cap, and the cap stays
until the cursor is moved to a key again, across all refreshes.

A seek sets or lifts the cap as soon as its key has been judged, and only then looks whether the
view is outdated. So a cap also ends with a seek that is refused for that
(`refused_seek_lifts_cap`).

Results:
1. `moved_of_ok`: the answer of a seek or range that succeeded, and the course after it.
2. `within_cap`: the reads of a capped cursor.
3. `seek_law`.
-/

namespace SnapshotKv

open Database

/-! ## 1. Seeks and ranges that succeeded -/

namespace SeekLemmas

open CourseLemmas OutdatedLemmas EnumerationLemmas ListingLemmas

variable {s : Site} {L : Ledger} {i : Nat} {x : Course} {call : Call} {key : Bytes}
  {cap : Option Bytes} {now : Nat}

/-- The records from a key on within a cap. -/
abbrev fromKey (records : List (Bytes × Bytes)) (reverse : Bool) (key : Bytes)
    (cap : Option Bytes) : List (Bytes × Bytes) :=
  records.filter fun e =>
    !decide (Before reverse e.1 key) && cap.all fun high => !decide (high < e.1)

theorem after_target (htarget : call.target = some (i, key, cap)) {r : Reply}
    (h : (Event.call now call).answer s = .ok r) : L.after s (.call now call) = L := by
  unfold Ledger.after
  rw [h]
  cases call with
  | seekCursor j key' | seekRangeCursor j low high => rfl
  | _ => cases htarget

/-- What lies from the landed key on is what lies from the key on that was sought. -/
theorem left_moved {records : List (Bytes × Bytes)} (h : Ordered x.reverse records) :
    (x.moved key cap ((fromKey records x.reverse key cap).head?.map Prod.fst)).left records =
      fromKey records x.reverse key cap := by
  have hsplit : ∀ stop, fromKey records x.reverse stop cap =
      (records.filter fun e => cap.all fun high => !decide (high < e.1)).filter fun e =>
        !decide (Before x.reverse e.1 stop) := fun stop => List.filter_filter.symm
  refine (if_neg Bool.false_ne_true).trans ?_
  simp only [Course.ahead_moved]
  cases hhead : (fromKey records x.reverse key cap).head? with
  | none => rfl
  | some found =>
    rw [hsplit] at hhead
    exact (hsplit _).trans ((filter_from_head? (h.filter _) hhead).trans (hsplit _).symm)

/-- A seek or range that succeeded was admissible, and landed on the first record from the key on
within the cap. What it left to read starts there. -/
theorem moved_of_ok (h : Charted i s L (some x)) (htarget : call.target = some (i, key, cap))
    {r : Reply} (hok : (Event.call now call).answer s = .ok r) :
    call.Admissible x.reverse ∧ ∃ records, x.Spans L records ∧
      r = .value ((fromKey records x.reverse key cap).head?.map Prod.fst) ∧
      ∃ y, Charted i ((Event.call now call).next s) L (some y) ∧ y.cap = cap ∧
        y.reverse = x.reverse ∧ y.sight = x.sight ∧ y.Spans L records ∧
        y.left records = fromKey records x.reverse key cap := by
  have hgoes := (h.shows.goes h.run (.call now call)).1
  have hcharted := h.step (.call now call)
  rw [after_target htarget hok] at hcharted
  generalize (Event.call now call).noted i s L (some x) = y at hgoes hcharted
  cases hgoes with
  | still hmoves => cases hmoves.symm.trans (moves_of_target htarget)
  | @moved _ _ key' cap' records htarget' hadmissible hspans landed hlanded hanswer =>
    cases htarget.symm.trans htarget'
    cases hok.symm.trans hanswer
    subst hlanded
    exact ⟨hadmissible, records, hspans, rfl, _, hcharted, rfl, rfl, rfl,
      ⟨hspans.ordered, hspans.exact⟩, left_moved hspans.ordered⟩
  | refused _ hanswer => cases hok.symm.trans hanswer
  | unread | read | unrefreshed | refreshed | closed => cases htarget

end SeekLemmas

/-! ## 2. Caps -/

/-- Whether an event is an admissible seek or range of a cursor that runs in a direction. -/
def Event.Aims (i : Nat) (reverse : Bool) (e : Event) : Prop :=
  ∃ now call key cap,
    e = .call now call ∧ call.target = some (i, key, cap) ∧ call.Admissible reverse

namespace SeekLemmas

open CourseLemmas

variable {s : Site} {L : Ledger} {i : Nat} {x : Course} {e : Event}

/-- The cap stays, unless the cursor is moved to a key or given up. -/
theorem cap_next (h : x.Shows s.db L i) (hrun : Run s L)
    (hclose : ∀ now, e ≠ .call now (.closeCursor i)) (haims : ¬ e.Aims i x.reverse) :
    ∃ y, e.noted i s L (some x) = some y ∧ y.cap = x.cap ∧ y.reverse = x.reverse := by
  have hgoes := (h.goes hrun e).1
  generalize e.noted i s L (some x) = y at hgoes
  cases hgoes with
  | still | unread | unrefreshed => exact ⟨x, rfl, rfl, rfl⟩
  | read =>
    refine ⟨_, rfl, ?_⟩
    cases (x.left _).head? <;> exact ⟨rfl, rfl⟩
  | moved htarget hadmissible => exact absurd ⟨_, _, _, _, rfl, htarget, hadmissible⟩ haims
  | @refused now call key cap f htarget =>
    have hnot : ¬ call.Admissible x.reverse := fun hadm => haims ⟨_, _, _, _, rfl, htarget, hadm⟩
    refine ⟨_, rfl, ?_⟩
    rw [Course.refused, if_neg hnot]
    exact ⟨rfl, rfl⟩
  | refreshed =>
    refine ⟨_, rfl, ?_⟩
    unfold Course.refreshed
    split <;> exact ⟨rfl, rfl⟩
  | closed => exact absurd rfl (hclose _)

/-- Until a capped cursor is moved to a key, its reads stay within the cap. -/
theorem within_cap (h : Charted i s L (some x)) {events : List Event}
    (hclose : ∀ e ∈ events, ∀ now, e ≠ .call now (.closeCursor i))
    (haims : ∀ e ∈ events, ¬ e.Aims i x.reverse) {key v : Bytes}
    (hread : some (key, v) ∈ readsOf i events s) : x.within key = true := by
  induction events generalizing s L x with
  | nil => cases hread
  | cons e rest ih =>
    obtain ⟨hclosee, hcloserest⟩ := List.forall_mem_cons.1 hclose
    obtain ⟨haimse, haimsrest⟩ := List.forall_mem_cons.1 haims
    obtain ⟨y, hy, hcap, hreverse⟩ := cap_next h.shows h.run hclosee haimse
    have hlater : some (key, v) ∈ readsOf i rest (e.next s) → x.within key = true := by
      intro hread
      have hwithin := ih (hy ▸ h.step e) hcloserest (hreverse ▸ haimsrest) hread
      unfold Course.within at hwithin ⊢
      rwa [hcap] at hwithin
    unfold readsOf at hread
    split at hread
    · next r hreads hanswer =>
      rcases List.mem_cons.1 hread with hfirst | hread
      · have hgoes := (h.shows.goes h.run e).1
        generalize e.noted i s L (some x) = y at hgoes
        cases hgoes with
        | read hspans hanswer' =>
          cases hanswer.symm.trans hanswer'
          exact (ahead_and_within hfirst.symm).2
        | still _ hreads' => cases hreads.symm.trans hreads'
        | unread hanswer' | refused _ hanswer' | unrefreshed hanswer' =>
          cases hanswer.symm.trans hanswer'
        | moved _ _ _ _ hanswer' => cases hanswer.symm.trans hanswer'
        | refreshed | closed => cases hreads
      · exact hlater hread
    · exact hlater hread

end SeekLemmas

open SeekLemmas

/-! ## 3. The law -/

/-- What the seeks and ranges of a cursor answer, and the reads after them. -/
structure SeekLaw (s : Site) (L : Ledger) (i : Nat) (x : Course) : Prop where
  seek : ∀ now key r, (Event.call now (.seekCursor i key)).answer s = .ok r →
    ∃ records, x.Spans L records ∧
      let onward := records.filter fun e => !decide (Before x.reverse e.1 key)
      r = .value (onward.head?.map Prod.fst) ∧
        Yields ((Event.call now (.seekCursor i key)).next s) L i x.sight onward
  seekRange : ∀ now low high r, (Event.call now (.seekRangeCursor i low high)).answer s = .ok r →
    x.reverse = false ∧ ∃ records, x.Spans L records ∧
      let onward := records.filter fun e => !decide (e.1 < low) && !decide (high < e.1)
      r = .value (onward.head?.map Prod.fst) ∧
        Yields ((Event.call now (.seekRangeCursor i low high)).next s) L i x.sight onward
  /-- On an open database they succeed, unless the cursor is outdated. -/
  available : s.db.closed = false → ¬ x.sight.Overlapped L → ∀ now call key cap,
    call.target = some (i, key, cap) → call.Admissible x.reverse →
      ∃ r, (Event.call now call).answer s = .ok r
  /-- The cap of a range stays, whatever happens, until the next admissible seek or range. -/
  capped : ∀ now low high r, (Event.call now (.seekRangeCursor i low high)).answer s = .ok r →
    ∀ events : List Event, (∀ e ∈ events, ∀ now, e ≠ .call now (.closeCursor i)) →
      (∀ e ∈ events, ¬ e.Aims i x.reverse) → ∀ key v,
        some (key, v) ∈ readsOf i events ((Event.call now (.seekRangeCursor i low high)).next s) →
          ¬ high < key

/-- **Seeks and the reads after them agree.** A seek of any cursor, wherever it stands, answers the
first key at or beyond the one sought, in its direction, among the records that it sees, and the
reads that follow answer the records from there on one after another. A range does so from its lower
key within its upper one, which caps all reads until the next admissible seek or range. -/
theorem seek_law {s : Site} {L : Ledger} {i : Nat} {x : Course} (h : Charted i s L (some x)) :
    SeekLaw s L i x where
  seek := fun now key r hok => by
    obtain ⟨-, records, hspans, hr, y, hcharted, -, -, hsight, hspans', hleft⟩ :=
      moved_of_ok h rfl hok
    have hyields := hcharted.yields hspans'
    simp only [fromKey, Option.all_none, Bool.and_true] at hr hleft
    rw [hleft, hsight] at hyields
    exact ⟨records, hspans, hr, hyields⟩
  seekRange := fun now low high r hok => by
    obtain ⟨⟨hforward, -, -⟩, records, hspans, hr, y, hcharted, -, -, hsight, hspans', hleft⟩ :=
      moved_of_ok h rfl hok
    have hyields := hcharted.yields hspans'
    rw [hforward] at hr hleft
    rw [hleft, hsight] at hyields
    exact ⟨hforward, records, hspans, hr, hyields⟩
  available := fun hopen hcurrent now call key cap htarget hadmissible => by
    obtain ⟨c, st, hc, hs, hmatch⟩ := h.shows
    have hreverse : c.reverse = x.reverse := hmatch.sight.reverse
    rcases OutdatedLemmas.checkReady_cases hopen hmatch.sight with ⟨hover, -⟩ | ⟨-, hready⟩
    · exact absurd hover hcurrent
    · have hon := CourseLemmas.on_target htarget hc hs (hreverse ▸ hadmissible) now
      rw [hready, Cursor.on_reposition_ready] at hon
      exact ⟨_, congrArg Prod.fst hon⟩
  capped := fun now low high r hok events hclose haims key v hread => by
    obtain ⟨-, records, -, -, y, hcharted, hcap, hreverse, -⟩ := moved_of_ok h rfl hok
    have hwithin := within_cap hcharted hclose (hreverse ▸ haims) hread
    unfold Course.within at hwithin
    rw [hcap] at hwithin
    simpa using hwithin

/-- Three records, and a cursor that has been capped and has come to its end. -/
def cappedEvents : List Event :=
  [.call 0 (.openStore "a" []), .call 0 (.write 0 none (.put [1, 1] [1])),
    .call 0 (.write 0 none (.put [1, 3] [3])), .call 0 (.write 0 none (.put [1, 5] [5])),
    .call 0 (.openCursor 0 none [1] false), .call 0 (.seekRangeCursor 0 [1, 2] [1, 4]),
    .call 0 (.readCursor 0), .call 0 (.readCursor 0)]

/-- The cursor after that. -/
def cappedCourse : Course :=
  { cell := 0, filter := [1], reverse := false, writes := none, taken := 3, origin := some [1, 3]
    returned := [[1, 3]], cap := some [1, 4], ended := true }

set_option maxRecDepth 10000 in
/-- A seek back from there lands between two records, and lifts the cap. -/
theorem seek_law_uncapped :
    let s := (playSmall cappedEvents).1
    let sought := (Event.call 0 (.seekCursor 0 [1, 2])).next s
    let reads := List.replicate 3 (Event.call 0 (.readCursor 0))
    readsOf 0 reads sought = [some ([1, 3], [3]), some ([1, 5], [5]), none] ∧
      ∃ records, cappedCourse.Spans (playSmall cappedEvents).2 records ∧
        Yields sought (playSmall cappedEvents).2 0 cappedCourse.sight
          (records.filter fun e => !decide (Before false e.1 [1, 2])) := by
  have hcharted : Charted 0 (playSmall cappedEvents).1 (playSmall cappedEvents).2
    (some cappedCourse) := charted_playSmall 0 cappedEvents
  obtain ⟨records, hspans, -, hyields⟩ :=
    (seek_law hcharted).seek 0 [1, 2] (.value (some [1, 3])) rfl
  exact ⟨rfl, records, hspans, hyields⟩

set_option maxRecDepth 10000 in
/-- A cap does not last until the next seek that succeeds: it is lifted by a seek that is refused
because the view is outdated, and after a refresh the cursor reads on beyond it. -/
theorem refused_seek_lifts_cap :
    (playSmall cappedEvents).1.answers
        [.call 0 (.seekRangeCursor 0 [1, 2] [1, 4]), .call 0 (.write 0 none (.deletePrefix [1])),
          .call 0 (.seekCursor 0 [1, 2]), .call 0 (.write 0 none (.put [1, 5] [5])),
          .call 0 (.refreshCursor 0), .call 0 (.readCursor 0)] =
      [.ok (.value (some [1, 3])), .ok .done, .error (Fault.viewOutdated "a"), .ok .done, .ok .done,
        .ok (.record (some ([1, 5], [5])))] ∧
      ([1, 4] : Bytes) < [1, 5] := ⟨rfl, by decide⟩

end SnapshotKv
