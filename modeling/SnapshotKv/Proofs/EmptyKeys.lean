import SnapshotKv.Proofs.Seeks

/-!
# Seeks to the empty key

The empty key comes before every other one, so as the lower end of a scan it constrains nothing: it
sends a forward cursor back to its first record, with a cap or without. As the upper end it is a key
like any other. A cursor in reverse that is sent to it, and a range that ends with it, have nothing
left to read but a record under the empty key itself (`empty_key_bounds_from_above`), and no call
puts one.

Results:
1. `onward_of_ok`: what a seek or range left to read.
2. `Charted.loaded_of_empty`: a record under the empty key was loaded from a file.
3. `empty_key_law`.
-/

namespace SnapshotKv

open Database

namespace EmptyKeyLemmas

open SeekLemmas CourseLemmas

variable {s : Site} {L : Ledger} {i : Nat} {x : Course} {call : Call} {key : Bytes}
  {cap : Option Bytes} {now : Nat}

/-! ## 1. The empty key as a bound -/

theorem not_empty_lt_iff (key : Bytes) : ¬ [] < key ↔ key.isEmpty = true := by
  cases key with
  | nil => exact iff_of_true (List.lt_irrefl []) rfl
  | cons b rest => exact iff_of_false (not_not_intro (List.nil_lt_cons b rest)) Bool.false_ne_true

theorem fromKey_empty (records : List (Bytes × Bytes)) (cap : Option Bytes) :
    fromKey records false [] cap =
      records.filter fun e => cap.all fun high => !decide (high < e.1) :=
  List.filter_congr fun e _ => by
    have hlow : decide (Before false e.1 []) = false := decide_eq_false (List.not_lt_nil e.1)
    rw [hlow, Bool.not_false, Bool.true_and]

theorem fromKey_reverse_empty (records : List (Bytes × Bytes)) :
    fromKey records true [] none = records.filter fun e => e.1.isEmpty :=
  List.filter_congr fun e _ => by
    rw [Option.all_none, Bool.and_true, Bool.eq_iff_iff, Bool.not_eq_true', decide_eq_false_iff_not]
    exact not_empty_lt_iff e.1

theorem fromKey_upTo_empty (records : List (Bytes × Bytes)) (low : Bytes) :
    fromKey records false low (some []) =
      records.filter fun e => low.isEmpty && e.1.isEmpty :=
  List.filter_congr fun e _ => by
    rw [Option.all_some, Bool.eq_iff_iff, Bool.and_eq_true, Bool.and_eq_true, Bool.not_eq_true',
      decide_eq_false_iff_not, Bool.not_eq_true', decide_eq_false_iff_not, not_empty_lt_iff]
    refine and_congr_left fun hempty => ?_
    rw [List.isEmpty_iff.1 hempty]
    exact not_empty_lt_iff low

/-- A seek or range that succeeded answers the first record from its key on within its cap, and the
reads that follow answer all of these. -/
theorem onward_of_ok (h : Charted i s L (some x)) (htarget : call.target = some (i, key, cap))
    {r : Reply} (hok : (Event.call now call).answer s = .ok r) :
    ∃ records, x.Spans L records ∧
      r = .value ((fromKey records x.reverse key cap).head?.map Prod.fst) ∧
        Yields ((Event.call now call).next s) L i x.sight (fromKey records x.reverse key cap) := by
  obtain ⟨-, records, hspans, hr, y, hcharted, -, -, hsight, hspans', hleft⟩ :=
    moved_of_ok h htarget hok
  have hyields := hcharted.yields hspans'
  rw [hleft, hsight] at hyields
  exact ⟨records, hspans, hr, hyields⟩

/-- An admissible seek or range on an open database succeeds, unless the cursor is outdated. -/
theorem available_of_admissible (h : Charted i s L (some x)) (hopen : s.db.closed = false)
    (hcurrent : ¬ x.sight.Overlapped L) (htarget : call.target = some (i, key, cap))
    (hadmissible : call.Admissible x.reverse) (now : Nat) :
    ∃ r, (Event.call now call).answer s = .ok r := by
  obtain ⟨c, st, hc, hs, hmatch⟩ := h.shows
  have hreverse : x.reverse = c.reverse := hmatch.sight.reverse.symm
  rcases OutdatedLemmas.checkReady_cases hopen hmatch.sight with ⟨hover, -⟩ | ⟨-, hready⟩
  · exact absurd hover hcurrent
  · have hon := on_target htarget hc hs (hreverse ▸ hadmissible) now
    rw [hready, Cursor.on_reposition_ready] at hon
    exact ⟨_, congrArg Prod.fst hon⟩

end EmptyKeyLemmas

/-! ## 2. Records under the empty key -/

/-- What the transaction of a cursor had written was checked. -/
theorem Charted.writes_checked {i : Nat} {s : Site} {L : Ledger} {x : Option Course}
    (h : Charted i s L x) : ∀ y, x = some y → ∀ c ∈ y.writes.getD [], c.Checked := by
  induction h with
  | opened fs hdb => exact nofun
  | @step s L x e hcharted ih =>
    intro y hy
    cases x with
    | none =>
      obtain ⟨now, handle, txn, filter, reverse, hd, -, -, -, rfl⟩ :=
        CourseLemmas.opened_of_noted hy
      cases txn with
      | none => exact fun c hc => nomatch hc
      | some t =>
        intro c hc
        obtain ⟨w, hw, rfl⟩ := List.mem_map.1 hc
        exact hcharted.run.checked.drafts t w (List.mem_of_mem_filter hw)
    | some x =>
      have hchecked := ih x rfl
      have hgoes := (hcharted.shows.goes hcharted.run e).1
      rw [hy] at hgoes
      -- the writes of a cursor are those it was made with
      cases hgoes with
      | still | unread | unrefreshed | moved => exact hchecked
      | @read _ records =>
        show ∀ c ∈ (x.read (x.left records).head?).writes.getD [], c.Checked
        cases (x.left records).head? <;> exact hchecked
      | refused =>
        unfold Course.refused
        split <;> exact hchecked
      | refreshed =>
        unfold Course.refreshed
        split <;> exact hchecked

/-- No call puts a record under the empty key: one that a cursor sees was loaded. -/
theorem Charted.loaded_of_empty {i : Nat} {s : Site} {L : Ledger} {x : Course}
    (h : Charted i s L (some x)) {v : Bytes} (hv : x.value L [] = some v) :
    L.loaded x.cell [] = some v := by
  have hrefused : Limits.checkKey [] ≠ .ok () := nofun
  rcases Change.put_of_after hv with hlanded | hput
  · exact (EnumerationLemmas.accepted_of_landedValue h.run.checked hlanded).resolve_left hrefused
  · exact absurd (h.writes_checked x rfl _ hput).1 hrefused

/-! ## 3. The law -/

/-- What a cursor makes of an empty key. -/
structure EmptyKeyLaw (s : Site) (L : Ledger) (i : Nat) (x : Course) : Prop where
  /-- A forward cursor starts over, from the first of all records that it sees. -/
  seek : x.reverse = false → ∀ now r, (Event.call now (.seekCursor i [])).answer s = .ok r →
    ∃ records, x.Spans L records ∧ r = .value (records.head?.map Prod.fst) ∧
      Yields ((Event.call now (.seekCursor i [])).next s) L i x.sight records
  /-- As the lower end of a range the empty key leaves the upper end alone. -/
  seekRange_low : ∀ now high r, (Event.call now (.seekRangeCursor i [] high)).answer s = .ok r →
    ∃ records, x.Spans L records ∧
      let onward := records.filter fun e => !decide (high < e.1)
      r = .value (onward.head?.map Prod.fst) ∧
        Yields ((Event.call now (.seekRangeCursor i [] high)).next s) L i x.sight onward
  /-- A cursor in reverse is left with what lies under the empty key. -/
  seek_reverse : x.reverse = true → ∀ now r,
    (Event.call now (.seekCursor i [])).answer s = .ok r →
      ∃ records, x.Spans L records ∧
        let onward := records.filter fun e => e.1.isEmpty
        r = .value (onward.head?.map Prod.fst) ∧
          Yields ((Event.call now (.seekCursor i [])).next s) L i x.sight onward
  /-- So is a forward one after a range that ends with the empty key. -/
  seekRange_high : ∀ now low r, (Event.call now (.seekRangeCursor i low [])).answer s = .ok r →
    ∃ records, x.Spans L records ∧
      let onward := records.filter fun e => low.isEmpty && e.1.isEmpty
      r = .value (onward.head?.map Prod.fst) ∧
        Yields ((Event.call now (.seekRangeCursor i low [])).next s) L i x.sight onward
  /-- There is nothing under the empty key that was not loaded from a file. -/
  loaded : ∀ records, x.Spans L records → ∀ v, ([], v) ∈ records → L.loaded x.cell [] = some v
  /-- On an open database the calls succeed, unless the cursor is outdated. -/
  available : s.db.closed = false → ¬ x.sight.Overlapped L → ∀ now,
    (∃ r, (Event.call now (.seekCursor i [])).answer s = .ok r) ∧
      (x.reverse = false → ∀ key : Bytes, key.length ≤ Limits.keyLength →
        (∃ r, (Event.call now (.seekRangeCursor i [] key)).answer s = .ok r) ∧
          ∃ r, (Event.call now (.seekRangeCursor i key [])).answer s = .ok r)

open EmptyKeyLemmas

/-- **The empty key constrains a scan from above only.** Wherever a forward cursor stands, a seek to
the empty key lands on the first record that it sees, and the reads that follow answer all of them.
As the key of a seek in reverse, and as the upper key of a range, the empty key is a bound that no
record lies within but one under the empty key itself. -/
theorem empty_key_law {s : Site} {L : Ledger} {i : Nat} {x : Course} (h : Charted i s L (some x)) :
    EmptyKeyLaw s L i x where
  seek := fun hforward now r hok => by
    obtain ⟨records, hspans, hr, hyields⟩ := onward_of_ok h rfl hok
    rw [hforward, fromKey_empty] at hr hyields
    simp only [Option.all_none, List.filter_true] at hr hyields
    exact ⟨records, hspans, hr, hyields⟩
  seekRange_low := fun now high r hok => by
    obtain ⟨⟨hforward, -, -⟩, -⟩ := SeekLemmas.moved_of_ok h rfl hok
    obtain ⟨records, hspans, hr, hyields⟩ := onward_of_ok h rfl hok
    rw [hforward, fromKey_empty] at hr hyields
    exact ⟨records, hspans, hr, hyields⟩
  seek_reverse := fun hreverse now r hok => by
    obtain ⟨records, hspans, hr, hyields⟩ := onward_of_ok h rfl hok
    rw [hreverse, fromKey_reverse_empty] at hr hyields
    exact ⟨records, hspans, hr, hyields⟩
  seekRange_high := fun now low r hok => by
    obtain ⟨⟨hforward, -, -⟩, -⟩ := SeekLemmas.moved_of_ok h rfl hok
    obtain ⟨records, hspans, hr, hyields⟩ := onward_of_ok h rfl hok
    rw [hforward, fromKey_upTo_empty] at hr hyields
    exact ⟨records, hspans, hr, hyields⟩
  loaded := fun records hspans v hmem => h.loaded_of_empty ((hspans.exact [] v).1 hmem).2
  available := fun hopen hcurrent now => by
    have hready : ∀ {call : Call} {key : Bytes} {cap : Option Bytes},
        call.target = some (i, key, cap) → call.Admissible x.reverse →
          ∃ r, (Event.call now call).answer s = .ok r :=
      fun htarget hadmissible => available_of_admissible h hopen hcurrent htarget hadmissible now
    have hempty : ([] : Bytes).length ≤ Limits.keyLength := Nat.zero_le _
    exact ⟨hready rfl hempty, fun hforward key hkey =>
      ⟨hready rfl ⟨hforward, hempty, hkey⟩, hready rfl ⟨hforward, hkey, hempty⟩⟩⟩

set_option maxRecDepth 10000 in
/-- A capped cursor that has come to its end starts over. -/
theorem empty_key_law_starts_over :
    let s := (playSmall cappedEvents).1
    let sought := (Event.call 0 (.seekCursor 0 [])).next s
    let reads := List.replicate 4 (Event.call 0 (.readCursor 0))
    readsOf 0 reads sought = [some ([1, 1], [1]), some ([1, 3], [3]), some ([1, 5], [5]), none] ∧
      ∃ records, cappedCourse.Spans (playSmall cappedEvents).2 records ∧
        Yields sought (playSmall cappedEvents).2 0 cappedCourse.sight records := by
  have hcharted : Charted 0 (playSmall cappedEvents).1 (playSmall cappedEvents).2
    (some cappedCourse) := charted_playSmall 0 cappedEvents
  obtain ⟨records, hspans, -, hyields⟩ :=
    (empty_key_law hcharted).seek rfl 0 (.value (some [1, 1])) rfl
  exact ⟨rfl, records, hspans, hyields⟩

/-- Two records, and a cursor in each direction. -/
def bothWaysEvents : List Event :=
  [.call 0 (.openStore "a" []), .call 0 (.write 0 none (.put [1, 1] [1])),
    .call 0 (.write 0 none (.put [1, 3] [3])), .call 0 (.openCursor 0 none [] true),
    .call 0 (.openCursor 0 none [] false)]

set_option maxRecDepth 10000 in
/-- An empty key is not always the absence of a constraint: the cursor in reverse, which would read
from the last record on, finds nothing after a seek to the empty key, and neither does the forward
one after a range that ends with it. -/
theorem empty_key_bounds_from_above :
    let s := (playSmall bothWaysEvents).1
    s.answers [.call 0 (.readCursor 0)] = [.ok (.record (some ([1, 3], [3])))] ∧
      s.answers [.call 0 (.seekCursor 0 []), .call 0 (.readCursor 0)] =
        [.ok (.value none), .ok (.record none)] ∧
      s.answers [.call 0 (.readCursor 1)] = [.ok (.record (some ([1, 1], [1])))] ∧
      s.answers [.call 0 (.seekRangeCursor 1 [1, 1] []), .call 0 (.readCursor 1)] =
        [.ok (.value none), .ok (.record none)] :=
  ⟨rfl, rfl, rfl, rfl⟩

end SnapshotKv
