import SnapshotKv.Proofs.Outdated
import SnapshotKv.Proofs.SavePoints

/-!
# Courses of cursors

A cursor keeps a position, a cap and a view, and searches its store anew at every read. What a
caller can note of it from the calls and their answers alone is its course (`Course`): what it was
made with, how many commits its view sees, where it was moved to the last time, and which keys were
read since. The course decides everything that a read may answer, and with it the whole of what is
left to read.

Results:
1. `Course.left`: the records that are left to a course, of those that it spans.
2. `Charted`: runs with what is noted of one cursor.
3. `Cursor.on_read_ready`, `Cursor.on_reposition_ready`: a read and a move in terms of the listing.
4. `Course.Shows.goes`: what an event makes of a cursor that is as it is noted; `Charted.shows`: so
   it is in every run; `Run.exists_course`: every cursor of a run has its course.
5. `Charted.yields`: the reads of a cursor answer what is left to its course.
-/

namespace SnapshotKv

open Database

/-! ## 1. Courses -/

/-- What a caller has noted of a cursor. -/
structure Course where
  /-- The number of its store in the database. -/
  cell : Nat
  filter : Bytes
  reverse : Bool
  /-- What its transaction had written to the store when it was made, if it was made in one. -/
  writes : Option (List Change)
  /-- How many commits its view sees. -/
  taken : Nat
  /-- The key that it was moved to the last time: the one it landed on, or else the one it was sent
  to. -/
  origin : Option Bytes := none
  /-- The keys that were read since it was made or moved, the last one at the end. -/
  returned : List Bytes := []
  cap : Option Bytes := none
  /-- Whether a read has found the end since it was made, moved or refreshed. -/
  ended : Bool := false

/-- The key that a call moves a cursor to, with the number of the cursor and the cap it sets. -/
def Call.target : Call → Option (Nat × Bytes × Option Bytes)
  | .seekCursor i key => some (i, key, none)
  | .seekRangeCursor i low high => some (i, low, some high)
  | _ => none

/-- Whether the call is admissible, as a test. -/
def Call.isAdmissible (reverse : Bool) : Call → Bool
  | .seekCursor _ key => decide (key.length ≤ Limits.keyLength)
  | .seekRangeCursor _ low high =>
    !reverse && decide (low.length ≤ Limits.keyLength) && decide (high.length ≤ Limits.keyLength)
  | _ => true

theorem Call.isAdmissible_iff (reverse : Bool) (call : Call) :
    call.isAdmissible reverse = true ↔ call.Admissible reverse := by
  cases call with
  | seekCursor i key => exact decide_eq_true_iff
  | seekRangeCursor i low high => simp [isAdmissible, Admissible, and_assoc]
  | _ => exact iff_of_true rfl trivial

instance (reverse : Bool) (call : Call) : Decidable (call.Admissible reverse) :=
  decidable_of_iff _ (call.isAdmissible_iff reverse)

namespace Course

/-- The course of a new cursor. -/
def start (L : Ledger) (cell : Nat) (txn : Option Nat) (filter : Bytes) (reverse : Bool) :
    Course where
  cell
  filter
  reverse
  writes := txn.map fun t => changesTo (L.drafts t).writes cell
  taken := match txn with
    | none => L.commits.length
    | some t => (L.drafts t).began

/-- The course after a read. -/
def read (x : Course) : Option (Bytes × Bytes) → Course
  | some (key, _) => { x with returned := x.returned ++ [key] }
  | none => { x with ended := true }

/-- The course after a seek or range. -/
def moved (x : Course) (key : Bytes) (cap landed : Option Bytes) : Course :=
  { x with origin := some (landed.getD key), returned := [], cap, ended := false }

/-- The course after a seek or range that was refused: if it was admissible, its cap is set all the
same. -/
def refused (x : Course) (call : Call) (cap : Option Bytes) : Course :=
  if call.Admissible x.reverse then { x with cap } else x

/-- The course after a refresh. The view of a transaction stays. -/
def refreshed (x : Course) (L : Ledger) : Course :=
  match x.writes with
  | none => { x with taken := L.commits.length, ended := false }
  | some _ => x

/-- What decides whether the cursor is outdated. -/
def sight (x : Course) : Sight :=
  { cell := x.cell, filter := x.filter, reverse := x.reverse, bound := x.writes.isSome
    taken := x.taken }

/-- The value of a key: what its transaction had left under it, else what the commits that its view
sees have left. -/
def value (x : Course) (L : Ledger) (key : Bytes) : Option Bytes :=
  Change.after (x.writes.getD []) key
    (landedValue L.loaded (L.commits.take x.taken) x.cell key)

/-- Some records are those that the cursor sees under its filter, in scan order. -/
structure Spans (x : Course) (L : Ledger) (records : List (Bytes × Bytes)) : Prop where
  ordered : records.Pairwise fun a b => Before x.reverse a.1 b.1
  exact : ∀ key v, (key, v) ∈ records ↔
    x.filter.isPrefixOf key = true ∧ x.value L key = some v

/-- Whether a key lies ahead: strictly beyond the last one that was read, or, if none was read, not
before the one that the cursor was moved to. -/
def ahead (x : Course) (key : Bytes) : Bool :=
  match x.returned.getLast?, x.origin with
  | some last, _ => decide (Before x.reverse last key)
  | none, some origin => !decide (Before x.reverse key origin)
  | none, none => true

@[simp] theorem ahead_read (x : Course) (found : Bytes × Bytes) (key : Bytes) :
    (x.read (some found)).ahead key = decide (Before x.reverse found.1 key) := by
  unfold ahead read
  rw [List.getLast?_concat]

@[simp] theorem ahead_moved (x : Course) (key : Bytes) (cap landed : Option Bytes) (key' : Bytes) :
    (x.moved key cap landed).ahead key' = !decide (Before x.reverse key' (landed.getD key)) := rfl

/-- Whether a key lies within the cap. -/
def within (x : Course) (key : Bytes) : Bool := x.cap.all fun high => !decide (high < key)

/-- The records that are left to read, of those that the cursor spans. -/
def left (x : Course) (records : List (Bytes × Bytes)) : List (Bytes × Bytes) :=
  if x.ended then [] else records.filter fun e => x.ahead e.1 && x.within e.1

end Course

/-! ## 2. What is noted of a cursor -/

/-- What is noted of cursor `i` after a call and its answer. -/
def Course.afterCall (i : Nat) (s : Site) (L : Ledger) (x : Option Course) :
    Call → Except Fault Reply → Option Course
  | .openCursor handle txn filter reverse, .ok (.number j) =>
    if j = i then (s.db.handles.get? handle).map fun h => .start L h.cell txn filter reverse else x
  | .closeCursor j, .ok _ => if j = i then none else x
  | .readCursor j, .ok (.record r) => if j = i then x.map (·.read r) else x
  | .refreshCursor j, .ok _ => if j = i then x.map (·.refreshed L) else x
  | call, answer => match call.target, answer with
    | some (j, key, cap), .ok (.value landed) =>
      if j = i then x.map (·.moved key cap landed) else x
    | some (j, _, cap), .error _ => if j = i then x.map (·.refused call cap) else x
    | _, _ => x

/-- What is noted of cursor `i` after an event. -/
def Event.noted (i : Nat) (s : Site) (L : Ledger) (x : Option Course) : Event → Option Course
  | .call now c => Course.afterCall i s L x c ((Event.call now c).answer s)
  | .files _ => x

/-- Runs with what is noted of cursor `i`. -/
inductive Charted (i : Nat) : Site → Ledger → Option Course → Prop
  | opened {db : Database} (fs : FileSystem) :
      db.Opened → Charted i ⟨db, fs⟩ (Ledger.opened db) none
  | step {s : Site} {L : Ledger} {x : Option Course} (e : Event) :
      Charted i s L x → Charted i (e.next s) (L.after s e) (e.noted i s L x)

theorem Charted.run {i : Nat} {s : Site} {L : Ledger} {x : Option Course} (h : Charted i s L x) :
    Run s L := by
  induction h with
  | opened fs hdb => exact .opened fs hdb
  | step e _ ih => exact .step e ih

/-- What is noted of cursor `i` after some events. -/
def courseAfter (i : Nat) : List Event → Site → Ledger → Option Course → Option Course
  | [], _, _, x => x
  | e :: rest, s, L, x => courseAfter i rest (e.next s) (L.after s e) (e.noted i s L x)

theorem Charted.play {i : Nat} {s : Site} {L : Ledger} {x : Option Course} (h : Charted i s L x)
    (events : List Event) :
    Charted i (play events s L).1 (play events s L).2 (courseAfter i events s L x) := by
  induction events generalizing s L x with
  | nil => exact h
  | cons e rest ih => exact ih (.step e h)

/-- What is noted of a cursor of the small database after some events. -/
def courseSmall (i : Nat) (events : List Event) : Option Course :=
  courseAfter i events ⟨smallDatabase, {}⟩ (Ledger.opened smallDatabase) none

theorem charted_playSmall (i : Nat) (events : List Event) :
    Charted i (playSmall events).1 (playSmall events).2 (courseSmall i events) :=
  (Charted.opened {} opened_smallDatabase).play events

/-! ## 3. Reads and moves in terms of the listing -/

namespace Cursor

/-- The records that are left to read. -/
def left (c : Cursor) (tree : VersionTree) : List (Bytes × Bytes) :=
  if c.atEnd then [] else (c.listing tree).filter fun e => c.admits e.1

/-- The cursor after a read that found a record, or none. -/
def afterRead (c : Cursor) : Option (Bytes × Bytes) → Cursor
  | some (key, _) => { c with position := .past key }
  | none => { c with atEnd := true }

/-- A read answers the first record that is left. -/
theorem on_read_ready (c : Cursor) (tree : VersionTree) :
    (Cursor.read (.ok ()) tree).on c =
      (.ok (c.left tree).head?, c.afterRead (c.left tree).head?) := by
  simp only [read, Attempt.on_bind, Attempt.on_check, Attempt.on_get, find_eq, left]
  by_cases hend : c.atEnd = true
  · have hsame : c.afterRead none = c := by
      unfold afterRead
      rw [← hend]
    rw [if_pos hend, if_pos hend]
    exact Prod.ext rfl hsame.symm
  · rw [if_neg hend, if_neg hend]
    cases ((c.listing tree).filter fun e => c.admits e.1).head? <;> rfl

/-- The first record from a key on, within a cap. -/
def landing (c : Cursor) (tree : VersionTree) (key : Bytes) : Option Bytes :=
  ((c.listing tree).filter fun e => !decide (Before c.reverse e.1 key) &&
    c.cap.all fun high => !decide (high < e.1)).head?.map Prod.fst

/-- A move answers the first record from the key on, and stays there. -/
theorem on_reposition_ready (c : Cursor) (tree : VersionTree) (key : Bytes) :
    (Cursor.reposition (.ok ()) tree key).on c =
      (.ok (c.landing tree key),
        { c with atEnd := false, position := .upTo ((c.landing tree key).getD key) }) := by
  have hfind : find { c with atEnd := false, position := .upTo key } tree =
      ((c.listing tree).filter fun e => !decide (Before c.reverse e.1 key) &&
        c.cap.all fun high => !decide (high < e.1)).head? := by
    rw [find_eq]
    simp only [admits, Position.admits_upTo]
    rfl
  simp only [reposition, Attempt.on_bind, Attempt.on_check, Attempt.on_modify, Attempt.on_get,
    hfind, landing]
  cases ((c.listing tree).filter fun e => !decide (Before c.reverse e.1 key) &&
    c.cap.all fun high => !decide (high < e.1)).head? <;> rfl

end Cursor

/-! ## 4. Cursors that are as they are noted -/

/-- A cursor on a store is as it is noted. -/
structure Course.Matches (x : Course) (L : Ledger) (c : Cursor) (st : Store) : Prop where
  sight : x.sight.Matches L c st
  overlay : c.overlay = x.writes.map WriteSet.ofChanges
  get : ∀ key, st.tree.get key c.view =
    landedValue L.loaded (L.commits.take x.taken) x.cell key
  ahead : ∀ key, c.position.admits c.reverse key = x.ahead key
  cap : c.cap = x.cap
  atEnd : c.atEnd = x.ended

/-- The cursor of a number is as it is noted. -/
def Course.Shows (x : Course) (db : Database) (L : Ledger) (i : Nat) : Prop :=
  ∃ c st, db.cursors.get? i = some c ∧ db.cells.get? c.cell = some st ∧ x.Matches L c st

namespace CourseLemmas

open OutdatedLemmas EnumerationLemmas ListingLemmas

variable {s : Site} {L : Ledger} {i : Nat} {c : Cursor} {x : Course} {st : Store}

theorem nodup_of_ordered {reverse : Bool} {records : List (Bytes × Bytes)}
    (h : Ordered reverse records) : records.Nodup :=
  h.imp fun {a b} hlt (heq : a = b) => before_irrefl reverse b.1 (heq ▸ hlt)

/-- A course spans one list of records only. -/
theorem spans_unique {records records' : List (Bytes × Bytes)} (h : x.Spans L records)
    (h' : x.Spans L records') : records = records' := by
  have hmem : ∀ e, e ∈ records ↔ e ∈ records' := fun e =>
    (h.exact e.1 e.2).trans (h'.exact e.1 e.2).symm
  have hperm : records.Perm records' :=
    (List.perm_ext_iff_of_nodup (nodup_of_ordered h.ordered) (nodup_of_ordered h'.ordered)).2 hmem
  exact hperm.eq_of_pairwise
    (fun _ _ _ _ hlt hgt => absurd (before_trans hlt hgt) (before_irrefl _ _)) h.ordered h'.ordered

/-- A cursor sees the records that are noted. -/
theorem get?_contents_eq (h : x.Matches L c st) (key : Bytes) :
    (c.contents st.tree).get? key = x.value L key := by
  rw [get?_contents, h.overlay, Course.value, Change.after_eq, h.get]
  cases x.writes with
  | none => rfl
  | some changes =>
    simp only [Option.map_some, Option.getD_some, WriteSet.lookup_ofChanges]
    cases Change.lastOn changes key with
    | none => rfl
    | some change =>
      simp only [Option.map_some, Option.getD_some]
      cases change.leaves <;> rfl

theorem spans_listing (h : x.Matches L c st) : x.Spans L (c.listing st.tree) where
  ordered := by
    have hreverse : c.reverse = x.reverse := h.sight.reverse
    exact hreverse ▸ c.ordered_listing st.tree
  exact := fun key v => by
    have hfilter : c.filter = x.filter := h.sight.filter
    rw [Cursor.mem_listing_iff, get?_contents_eq h, hfilter, and_comm]

theorem listing_eq (h : x.Matches L c st) {records : List (Bytes × Bytes)}
    (hspans : x.Spans L records) : c.listing st.tree = records :=
  spans_unique (spans_listing h) hspans

theorem left_eq (h : x.Matches L c st) {records : List (Bytes × Bytes)}
    (hspans : x.Spans L records) : c.left st.tree = x.left records := by
  unfold Cursor.left Course.left Cursor.admits Course.within
  rw [listing_eq h hspans, h.atEnd, h.cap]
  simp only [h.ahead]

/-- What a course spans stays. -/
theorem value_next (htaken : x.taken ≤ L.commits.length) (s : Site) (e : Event) (key : Bytes) :
    x.value (L.after s e) key = x.value L key := by
  obtain ⟨later, hlater⟩ := L.commits_after s e
  unfold Course.value
  rw [DurabilityLemmas.loaded_after, ← hlater, List.take_append_of_le_length htaken]

theorem spans_next (htaken : x.taken ≤ L.commits.length) (s : Site) (e : Event)
    {records : List (Bytes × Bytes)} (h : x.Spans L records) : x.Spans (L.after s e) records where
  ordered := h.ordered
  exact := fun key v => by rw [value_next htaken, h.exact]

/-- While a cursor keeps its scope, it sees what is noted, and only its place may change. -/
theorem matches_next (hrun : Run s L) (e : Event) (hc : s.db.cursors.get? i = some c)
    (hs : s.db.cells.get? c.cell = some st) (h : x.Matches L c st) {c' : Cursor}
    (hc' : (e.next s).db.cursors.get? i = some c') (hscope : c'.scope = c.scope) {y : Course}
    (hsight : y.sight = x.sight) (hwrites : y.writes = x.writes)
    (hahead : ∀ key, c'.position.admits c.reverse key = y.ahead key) (hcap : c'.cap = y.cap)
    (hend : c'.atEnd = y.ended) : y.Shows (e.next s).db (L.after s e) i := by
  obtain ⟨hcell, hview, hfilter, hreverse, hoverlay⟩ := fields_of_scope hscope
  obtain ⟨c'', st', hc'', hs', hmatch⟩ : y.sight.Shows (e.next s).db (L.after s e) i := by
    rw [hsight]
    refine shows_of_scope hrun e ⟨c, st, hc, hs, h.sight⟩ fun c₀ hc₀ => ⟨c', hc', ?_⟩
    rw [hscope, Option.some.inj (hc.symm.trans hc₀)]
  obtain rfl := Option.some.inj (hc'.symm.trans hc'')
  obtain ⟨htaken, hcells⟩ : y.taken = x.taken ∧ y.cell = x.cell :=
    ⟨congrArg Sight.taken hsight, congrArg Sight.cell hsight⟩
  refine ⟨c', st', hc', hs', hmatch, ?_, fun key => ?_, ?_, hcap, hend⟩
  · rw [hoverlay, h.overlay, hwrites]
  · have hheld := HeldViews.of_reached hrun.reached
    have hheld' := HeldViews.of_reached (hrun.step e).reached
    obtain ⟨st'', hs'', hsame⟩ := ((e.steps s L).stands hrun.reached).cells c.cell st hs
    obtain rfl := Option.some.inj (hs'.symm.trans (hcell ▸ hs''))
    -- the view is pinned on both sides of the event
    have hpinned := hheld'.horizon_le_cursor hc'
    have htree := hsame c.view key (hview ▸ hpinned) (hheld.le _ (hheld.mem_cursor hc))
    obtain ⟨later, hlater⟩ := L.commits_after s e
    have hle : x.taken ≤ L.commits.length := h.sight.taken_le
    rw [hview, htree, h.get, DurabilityLemmas.loaded_after, ← hlater, htaken, hcells,
      List.take_append_of_le_length hle]
  · intro key
    rw [hreverse]
    exact hahead key

/-- A seek or range that is admissible sets the cap and moves the cursor, if it is ready. -/
theorem on_target {call : Call} {key : Bytes} {cap : Option Bytes}
    (htarget : call.target = some (i, key, cap)) (hc : s.db.cursors.get? i = some c)
    (hs : s.db.cells.get? c.cell = some st) (hadmissible : call.Admissible c.reverse) (now : Nat) :
    (call.attempt now).on s =
      let o := (Cursor.reposition (s.db.checkReady c st) st.tree key).on { c with cap }
      (o.1.map .value, { s with
        db := { s.db with cursors := s.db.cursors.modify i fun _ => o.2 } }) := by
  cases call with
  | seekCursor j key =>
    cases htarget
    simp only [Call.attempt, Attempt.on_map, Storage.on_onDatabase, seekCursor, on_onCursor hc hs,
      Cursor.seek, Attempt.on_bind, Attempt.on_check, checkBound_of_le hadmissible,
      Attempt.on_modify]
  | seekRangeCursor j low high =>
    cases htarget
    obtain ⟨hforward, hlow, hhigh⟩ := hadmissible
    simp only [Call.attempt, Attempt.on_map, Storage.on_onDatabase, seekRangeCursor,
      on_onCursor hc hs, Cursor.seekRange, Attempt.on_bind, Attempt.on_get, hforward,
      Bool.false_eq_true, ↓reduceIte, Attempt.on_check, checkBound_of_le hlow,
      checkBound_of_le hhigh, Attempt.on_modify]
  | _ => cases htarget

/-- One that is not admissible is refused for that, and leaves the site as it is. -/
theorem on_target_inadmissible {call : Call} {key : Bytes} {cap : Option Bytes}
    (htarget : call.target = some (i, key, cap)) (hc : s.db.cursors.get? i = some c)
    (hs : s.db.cells.get? c.cell = some st) (hadmissible : ¬ call.Admissible c.reverse)
    (now : Nat) : ∃ f, f.kind = .usage ∧ (call.attempt now).on s = (.error f, s) := by
  have hsame : ({ s with db := { s.db with cursors := s.db.cursors.modify i fun _ => c } } : Site)
      = s := by
    rw [Pool.modify_eq_self fun c' hc' => Option.some.inj (hc.symm.trans hc')]
  cases call with
  | seekCursor j key =>
    cases htarget
    refine ⟨Fault.boundTooLong key.length Limits.keyLength, rfl, ?_⟩
    simp only [Call.attempt, Attempt.on_map, Storage.on_onDatabase, seekCursor, on_onCursor hc hs,
      Cursor.seek, Attempt.on_bind, Attempt.on_check, checkBound_of_lt hadmissible]
    exact Prod.ext rfl hsame
  | seekRangeCursor j low high =>
    cases htarget
    simp only [Call.attempt, Attempt.on_map, Storage.on_onDatabase, seekRangeCursor,
      on_onCursor hc hs, Cursor.seekRange, Attempt.on_bind, Attempt.on_get]
    cases hreverse : c.reverse with
    | true => exact ⟨_, rfl, Prod.ext rfl hsame⟩
    | false =>
      simp only [Bool.false_eq_true, ↓reduceIte, Attempt.on_bind, Attempt.on_check]
      by_cases hlow : key.length ≤ Limits.keyLength
      · have hhigh : ¬ high.length ≤ Limits.keyLength := fun h => hadmissible ⟨hreverse, hlow, h⟩
        rw [checkBound_of_le hlow, checkBound_of_lt hhigh]
        exact ⟨_, rfl, Prod.ext rfl hsame⟩
      · rw [checkBound_of_lt hlow]
        exact ⟨_, rfl, Prod.ext rfl hsame⟩
  | _ => cases htarget

end CourseLemmas

/-- What an event makes of a cursor, as far as it is noted: its answer, if it is a call on the
cursor, and what is noted then. -/
inductive Course.Goes (i : Nat) (s : Site) (L : Ledger) (x : Course) : Event → Option Course → Prop
  /-- The event neither moves nor reads the cursor. -/
  | still {e : Event} (hmoves : e.moves i = false) (hreads : e.reads i = false) :
      Goes i s L x e (some x)
  | unread {now : Nat} {f : Fault} (h : (Event.call now (.readCursor i)).answer s = .error f) :
      Goes i s L x (.call now (.readCursor i)) (some x)
  | read {now : Nat} {records : List (Bytes × Bytes)} (hspans : x.Spans L records)
      (h : (Event.call now (.readCursor i)).answer s = .ok (.record (x.left records).head?)) :
      Goes i s L x (.call now (.readCursor i)) (some (x.read (x.left records).head?))
  | moved {now : Nat} {call : Call} {key : Bytes} {cap : Option Bytes}
      {records : List (Bytes × Bytes)} (htarget : call.target = some (i, key, cap))
      (hadmissible : call.Admissible x.reverse) (hspans : x.Spans L records) {landed : Option Bytes}
      (hlanded : landed = (records.filter fun e => !decide (Before x.reverse e.1 key) &&
        cap.all fun high => !decide (high < e.1)).head?.map Prod.fst)
      (h : (Event.call now call).answer s = .ok (.value landed)) :
      Goes i s L x (.call now call) (some (x.moved key cap landed))
  | refused {now : Nat} {call : Call} {key : Bytes} {cap : Option Bytes} {f : Fault}
      (htarget : call.target = some (i, key, cap))
      (h : (Event.call now call).answer s = .error f) :
      Goes i s L x (.call now call) (some (x.refused call cap))
  | unrefreshed {now : Nat} {f : Fault}
      (h : (Event.call now (.refreshCursor i)).answer s = .error f) :
      Goes i s L x (.call now (.refreshCursor i)) (some x)
  | refreshed {now : Nat} {r : Reply}
      (h : (Event.call now (.refreshCursor i)).answer s = .ok r) :
      Goes i s L x (.call now (.refreshCursor i)) (some (x.refreshed L))
  | closed {now : Nat} : Goes i s L x (.call now (.closeCursor i)) none

namespace CourseLemmas

open OutdatedLemmas EnumerationLemmas ListingLemmas

variable {s : Site} {L : Ledger} {i : Nat} {c : Cursor} {x : Course} {st : Store}

/-- A cursor that is made gets a number that no cursor has. -/
theorem ne_of_openCursor (hrun : Run s L) (hc : s.db.cursors.get? i = some c) {now handle : Nat}
    {txn : Option Nat} {filter : Bytes} {reverse : Bool} {j : Nat}
    (hmade : (Event.call now (.openCursor handle txn filter reverse)).answer s = .ok (.number j)) :
    j ≠ i := by
  obtain ⟨hd, -, -, -, hh, -⟩ := walks_start hmade
  rw [(shows_openCursor hrun hh hmade).1]
  exact Nat.ne_of_gt (Pool.lt_nextId hc)

/-- An event that neither moves nor reads a cursor leaves what is noted of it. -/
theorem noted_of_still (hrun : Run s L) {e : Event} (hmoves : e.moves i = false)
    (hreads : e.reads i = false) (hc : s.db.cursors.get? i = some c) (y : Option Course) :
    e.noted i s L y = y := by
  cases e with
  | files fs => rfl
  | call now call =>
    cases hanswer : (Event.call now call).answer s with
    | error f =>
      cases call with
      | seekCursor j key | seekRangeCursor j low high =>
        simp only [Event.noted, hanswer, Course.afterCall, Call.target]
        exact if_neg (beq_eq_false_iff_ne.1 hmoves)
      | _ => simp only [Event.noted, hanswer, Course.afterCall, Call.target]
    | ok r =>
      cases call with
      | openCursor handle txn filter reverse =>
        cases r with
        | number j =>
          simp only [Event.noted, hanswer, Course.afterCall]
          exact if_neg (ne_of_openCursor hrun hc hanswer)
        | _ => simp only [Event.noted, hanswer, Course.afterCall, Call.target]
      | closeCursor j | refreshCursor j =>
        simp only [Event.noted, hanswer, Course.afterCall]
        exact if_neg (beq_eq_false_iff_ne.1 hmoves)
      | readCursor j =>
        cases r with
        | record r =>
          simp only [Event.noted, hanswer, Course.afterCall]
          exact if_neg (beq_eq_false_iff_ne.1 hreads)
        | _ => simp only [Event.noted, hanswer, Course.afterCall, Call.target]
      | seekCursor j key | seekRangeCursor j low high =>
        cases r with
        | value landed =>
          simp only [Event.noted, hanswer, Course.afterCall, Call.target]
          exact if_neg (beq_eq_false_iff_ne.1 hmoves)
        | _ => simp only [Event.noted, hanswer, Course.afterCall, Call.target]
      | _ => simp only [Event.noted, hanswer, Course.afterCall, Call.target]

/-- A refresh takes the published view, unless the cursor belongs to a transaction. -/
theorem next_refreshCursor (hc : s.db.cursors.get? i = some c)
    (hs : s.db.cells.get? c.cell = some st) {now : Nat} {r : Reply}
    (h : (Event.call now (.refreshCursor i)).answer s = .ok r) :
    (Event.call now (.refreshCursor i)).next s =
      if c.isBound then s else { s with db := { s.db with
        cursors := s.db.cursors.modify i fun c => { c with view := s.db.published, atEnd := false }
        pins := (s.db.pins.pin s.db.published).unpin c.view } } := by
  simp only [Event.answer, Event.next, Event.attempt, Call.attempt, Attempt.on_map,
    Storage.on_onDatabase, refreshCursor, Attempt.on_bind, Attempt.on_get, Attempt.on_check,
    cursorStore_eq hc hs] at h ⊢
  cases hopen : s.db.checkOpen with
  | error f =>
    rw [hopen] at h
    cases h
  | ok _ => cases c.isBound <;> rfl

/-- One that is refused leaves the site as it is. -/
theorem next_refreshCursor_error {now : Nat} {f : Fault}
    (h : (Event.call now (.refreshCursor i)).answer s = .error f) :
    (Event.call now (.refreshCursor i)).next s = s := by
  simp only [Event.answer, Event.next, Event.attempt, Call.attempt, Attempt.on_map,
    Storage.on_onDatabase] at h ⊢
  cases hon : (refreshCursor i).on s.db with
  | mk r db' =>
    rw [hon] at h
    cases r with
    | ok _ => cases h
    | error f => rw [refreshCursor_error hon]

/-! What a call on the cursor itself makes of it. -/

theorem goes_read (hrun : Run s L) (h : x.Shows s.db L i) (now : Nat) :
    let e := Event.call now (.readCursor i)
    ∃ y, e.noted i s L (some x) = some y ∧ x.Goes i s L e (some y) ∧
      y.Shows (e.next s).db (L.after s e) i := by
  intro e
  obtain ⟨c, st, hc, hs, hmatch⟩ := h
  have hon := on_readCursor hc hs now
  have hget : ∀ c' : Cursor, (s.db.cursors.modify i fun _ => c').get? i = some c' := by
    intro c'
    rw [Pool.get?_modify, if_pos rfl, hc, Option.map_some]
  have hspans := spans_listing hmatch
  cases hready : s.db.checkReady c st with
  | error f =>
    rw [hready, Cursor.read_refused] at hon
    have hanswer : e.answer s = .error f := congrArg Prod.fst hon
    have hnext : (e.next s).db.cursors.get? i = some c :=
      (congrArg (fun o => o.2.db.cursors.get? i) hon).trans (hget c)
    refine ⟨x, ?_, .unread hanswer, matches_next hrun e hc hs hmatch hnext rfl rfl rfl
      hmatch.ahead hmatch.cap hmatch.atEnd⟩
    simp only [e, Event.noted, hanswer, Course.afterCall, Call.target]
  | ok _ =>
    rw [hready, Cursor.on_read_ready, left_eq hmatch hspans] at hon
    generalize hr : (x.left (c.listing st.tree)).head? = r at hon
    have hanswer : e.answer s = .ok (.record r) := congrArg Prod.fst hon
    have hnext : (e.next s).db.cursors.get? i = some (c.afterRead r) :=
      (congrArg (fun o => o.2.db.cursors.get? i) hon).trans (hget _)
    have hreverse : c.reverse = x.reverse := hmatch.sight.reverse
    refine ⟨x.read r, ?_, hr ▸ .read hspans (hr ▸ hanswer), ?_⟩
    · simp only [e, Event.noted, hanswer, Course.afterCall, ↓reduceIte, Option.map_some]
    · cases r with
      | none =>
        exact matches_next hrun e hc hs hmatch hnext rfl rfl rfl hmatch.ahead hmatch.cap rfl
      | some found =>
        refine matches_next hrun e hc hs hmatch hnext rfl rfl rfl (fun key => ?_) hmatch.cap
          hmatch.atEnd
        rw [hreverse]
        simp only [Cursor.afterRead, Position.admits_past, Course.ahead_read]

/-- What is noted after a seek or range. -/
theorem noted_moved {call : Call} {key : Bytes} {cap landed : Option Bytes} {now : Nat}
    (htarget : call.target = some (i, key, cap))
    (h : (Event.call now call).answer s = .ok (.value landed)) :
    (Event.call now call).noted i s L (some x) = some (x.moved key cap landed) := by
  cases call with
  | seekCursor j key' | seekRangeCursor j low high =>
    cases htarget
    simp only [Event.noted, h, Course.afterCall, Call.target, ↓reduceIte, Option.map_some]
  | _ => cases htarget

theorem noted_refused {call : Call} {key : Bytes} {cap : Option Bytes} {now : Nat} {f : Fault}
    (htarget : call.target = some (i, key, cap))
    (h : (Event.call now call).answer s = .error f) :
    (Event.call now call).noted i s L (some x) = some (x.refused call cap) := by
  cases call with
  | seekCursor j key' | seekRangeCursor j low high =>
    cases htarget
    simp only [Event.noted, h, Course.afterCall, Call.target, ↓reduceIte, Option.map_some]
  | _ => cases htarget

theorem goes_target (hrun : Run s L) (h : x.Shows s.db L i) {call : Call} {key : Bytes}
    {cap : Option Bytes} (htarget : call.target = some (i, key, cap)) (now : Nat) :
    let e := Event.call now call
    ∃ y, e.noted i s L (some x) = some y ∧ x.Goes i s L e (some y) ∧
      y.Shows (e.next s).db (L.after s e) i := by
  intro e
  obtain ⟨c, st, hc, hs, hmatch⟩ := h
  have hreverse : c.reverse = x.reverse := hmatch.sight.reverse
  have hget : ∀ c' : Cursor, (s.db.cursors.modify i fun _ => c').get? i = some c' := by
    intro c'
    rw [Pool.get?_modify, if_pos rfl, hc, Option.map_some]
  by_cases hadmissible : call.Admissible c.reverse
  · have hon := on_target htarget hc hs hadmissible now
    have hadm : call.Admissible x.reverse := hreverse ▸ hadmissible
    cases hready : s.db.checkReady c st with
    | error f =>
      rw [hready] at hon
      have hanswer : e.answer s = .error f := congrArg Prod.fst hon
      have hnext : (e.next s).db.cursors.get? i = some { c with cap } :=
        (congrArg (fun o => o.2.db.cursors.get? i) hon).trans (hget _)
      refine ⟨_, noted_refused htarget hanswer, .refused htarget hanswer, ?_⟩
      rw [Course.refused, if_pos hadm]
      exact matches_next hrun e hc hs hmatch hnext rfl rfl rfl hmatch.ahead rfl hmatch.atEnd
    | ok _ =>
      rw [hready, Cursor.on_reposition_ready] at hon
      generalize hl : Cursor.landing { c with cap } st.tree key = landed at hon
      have hanswer : e.answer s = .ok (.value landed) := congrArg Prod.fst hon
      have hnext : (e.next s).db.cursors.get? i =
          some { c with cap, atEnd := false, position := .upTo (landed.getD key) } :=
        (congrArg (fun o => o.2.db.cursors.get? i) hon).trans (hget _)
      refine ⟨_, noted_moved htarget hanswer, .moved htarget hadm (spans_listing hmatch) ?_ hanswer,
        ?_⟩
      · rw [← hl, ← hreverse]
        rfl
      · refine matches_next hrun e hc hs hmatch hnext rfl rfl rfl (fun key' => ?_) rfl rfl
        rw [hreverse]
        simp only [Position.admits_upTo, Course.ahead_moved]
  · obtain ⟨f, -, hon⟩ := on_target_inadmissible htarget hc hs hadmissible now
    have hanswer : e.answer s = .error f := congrArg Prod.fst hon
    have hnext : (e.next s).db.cursors.get? i = some c :=
      (congrArg (fun o => o.2.db.cursors.get? i) hon).trans hc
    refine ⟨_, noted_refused htarget hanswer, .refused htarget hanswer, ?_⟩
    rw [Course.refused, if_neg (hreverse ▸ hadmissible)]
    exact matches_next hrun e hc hs hmatch hnext rfl rfl rfl hmatch.ahead hmatch.cap hmatch.atEnd

theorem goes_refresh (hrun : Run s L) (h : x.Shows s.db L i) (now : Nat) :
    let e := Event.call now (.refreshCursor i)
    ∃ y, e.noted i s L (some x) = some y ∧ x.Goes i s L e (some y) ∧
      y.Shows (e.next s).db (L.after s e) i := by
  intro e
  obtain ⟨c, st, hc, hs, hmatch⟩ := h
  cases hanswer : e.answer s with
  | error f =>
    have hnext := next_refreshCursor_error hanswer
    refine ⟨x, ?_, .unrefreshed hanswer, matches_next hrun e hc hs hmatch ?_ rfl rfl rfl
      hmatch.ahead hmatch.cap hmatch.atEnd⟩
    · simp only [e, Event.noted]
      rw [hanswer]
      rfl
    · rw [hnext, hc]
  | ok r =>
    have hnext := next_refreshCursor hc hs hanswer
    have hbound : c.isBound = x.writes.isSome := hmatch.sight.bound
    refine ⟨x.refreshed L, ?_, .refreshed hanswer, ?_⟩
    · simp only [e, Event.noted]
      rw [hanswer]
      exact if_pos rfl
    · rw [hbound] at hnext
      cases hwrites : x.writes with
      | some changes =>
        rw [hwrites] at hnext
        have hsame : x.refreshed L = x := by
          unfold Course.refreshed
          rw [hwrites]
        rw [hsame]
        refine matches_next hrun e hc hs hmatch ?_ rfl rfl rfl hmatch.ahead hmatch.cap hmatch.atEnd
        rw [hnext]
        exact hc
      | none =>
        rw [hwrites] at hnext
        have hrefreshed : x.refreshed L = { x with taken := L.commits.length, ended := false } := by
          unfold Course.refreshed
          rw [hwrites]
        have hc' : (e.next s).db.cursors.get? i =
            some { c with view := s.db.published, atEnd := false } := by
          rw [hnext]
          show (s.db.cursors.modify i _).get? i = _
          rw [Pool.get?_modify, if_pos rfl, hc, Option.map_some]
        have hs' : (e.next s).db.cells.get? c.cell = some st := by
          rw [hnext]
          exact hs
        obtain ⟨c'', st'', hc'', hs'', hsight⟩ :=
          shows_refreshCursor hrun hanswer ⟨c, st, hc, hs, hmatch.sight⟩
        obtain rfl := Option.some.inj (hc'.symm.trans hc'')
        obtain rfl := Option.some.inj (hs'.symm.trans hs'')
        have hcell : c.cell = x.cell := hmatch.sight.cell
        rw [after_refreshCursor hanswer, hrefreshed]
        refine ⟨_, st, hc', hs', hsight, hmatch.overlay, fun key => ?_, hmatch.ahead, hmatch.cap,
          rfl⟩
        rw [(History.of_reached hrun.reached).current.get c.cell st key hs, hcell]

/-- An event that leaves a cursor alone leaves it as it is noted. -/
theorem goes_still (hrun : Run s L) (h : x.Shows s.db L i) {e : Event} (hmoves : e.moves i = false)
    (hreads : e.reads i = false) :
    ∃ y, e.noted i s L (some x) = some y ∧ x.Goes i s L e (some y) ∧
      y.Shows (e.next s).db (L.after s e) i := by
  obtain ⟨c, st, hc, hs, hmatch⟩ := h
  have hc' := e.cursor_next hmoves hreads hc
  exact ⟨x, noted_of_still hrun hmoves hreads hc _, .still hmoves hreads,
    matches_next hrun e hc hs hmatch hc' rfl rfl rfl hmatch.ahead hmatch.cap hmatch.atEnd⟩

end CourseLemmas

open CourseLemmas

/-- An event makes of a cursor what is noted of it. -/
theorem Course.Shows.goes {s : Site} {L : Ledger} {i : Nat} {x : Course} (hrun : Run s L)
    (h : x.Shows s.db L i) (e : Event) :
    x.Goes i s L e (e.noted i s L (some x)) ∧
      ∀ y, e.noted i s L (some x) = some y → y.Shows (e.next s).db (L.after s e) i := by
  have hown : (∃ y, e.noted i s L (some x) = some y ∧ x.Goes i s L e (some y) ∧
      y.Shows (e.next s).db (L.after s e) i) → x.Goes i s L e (e.noted i s L (some x)) ∧
        ∀ y, e.noted i s L (some x) = some y → y.Shows (e.next s).db (L.after s e) i := by
    rintro ⟨y, hy, hgoes, hshows⟩
    exact ⟨hy ▸ hgoes, fun y' hy' => Option.some.inj (hy.symm.trans hy') ▸ hshows⟩
  by_cases hstill : e.moves i = false ∧ e.reads i = false
  · exact hown (goes_still hrun h hstill.1 hstill.2)
  cases e with
  | files fs => exact absurd ⟨rfl, rfl⟩ hstill
  | call now call =>
    cases call with
    | closeCursor j =>
      obtain rfl : j = i := by simpa [Event.moves, Event.reads] using hstill
      have hnoted : (Event.call now (.closeCursor j)).noted j s L (some x) = none := by
        simp only [Event.noted, Event.answer, Event.attempt, Call.attempt, Attempt.on_map]
        exact if_pos rfl
      rw [hnoted]
      exact ⟨.closed, fun _ hy => absurd hy (Option.some_ne_none _).symm⟩
    | readCursor j =>
      obtain rfl : j = i := by simpa [Event.moves, Event.reads] using hstill
      exact hown (goes_read hrun h now)
    | refreshCursor j =>
      obtain rfl : j = i := by simpa [Event.moves, Event.reads] using hstill
      exact hown (goes_refresh hrun h now)
    | seekCursor j key | seekRangeCursor j low high =>
      obtain rfl : j = i := by simpa [Event.moves, Event.reads] using hstill
      exact hown (goes_target hrun h rfl now)
    | _ => exact absurd ⟨rfl, rfl⟩ hstill

namespace CourseLemmas

open OutdatedLemmas EnumerationLemmas

variable {s : Site} {L : Ledger} {i : Nat} {x : Course}

/-- A cursor that was not noted before was made by the event. -/
theorem opened_of_noted {e : Event} (h : e.noted i s L none = some x) :
    ∃ now handle txn filter reverse hd, e = .call now (.openCursor handle txn filter reverse) ∧
      e.answer s = .ok (.number i) ∧ s.db.handles.get? handle = some hd ∧
      x = .start L hd.cell txn filter reverse := by
  cases e with
  | files fs => cases h
  | call now call =>
    simp only [Event.noted] at h
    generalize (Event.call now call).answer s = answer at h ⊢
    cases call with
    | openCursor handle txn filter reverse =>
      cases answer with
      | error f => cases h
      | ok r =>
        cases r with
        | number j =>
          simp only [Course.afterCall] at h
          split at h
          · next hj =>
            obtain ⟨hd, hh, rfl⟩ := Option.map_eq_some_iff.1 h
            exact ⟨now, handle, txn, filter, reverse, hd, rfl, hj ▸ rfl, hh, rfl⟩
          · cases h
        | _ => cases h
    | closeCursor j | readCursor j | refreshCursor j | seekCursor j key
    | seekRangeCursor j low high =>
      -- what is noted of another cursor, or of none, stays
      cases answer with
      | error f => simp [Course.afterCall, Call.target] at h
      | ok r => cases r <;> simp [Course.afterCall, Call.target] at h
    | _ => cases h

/-- A new cursor is as it is noted. -/
theorem shows_start (hrun : Run s L) {now handle : Nat} {txn : Option Nat} {filter : Bytes}
    {reverse : Bool} {hd : Handle} (hh : s.db.handles.get? handle = some hd)
    (hmade : (Event.call now (.openCursor handle txn filter reverse)).answer s = .ok (.number i)) :
    (Course.start L hd.cell txn filter reverse).Shows
      ((Event.call now (.openCursor handle txn filter reverse)).next s).db
      (L.after s (.call now (.openCursor handle txn filter reverse))) i := by
  obtain ⟨-, c, st, hc, hs, hsight⟩ := shows_openCursor hrun hh hmade
  have hhistory := History.of_reached hrun.reached
  rw [after_openCursor hmade]
  simp only [Event.answer, Event.next, Event.attempt, Call.attempt, Attempt.on_map,
    Storage.on_onDatabase] at hmade hc hs ⊢
  cases hon : (openCursor now handle txn filter reverse).on s.db with
  | mk r db' =>
    rw [hon] at hmade hc hs
    cases r with
    | error f => cases hmade
    | ok i' =>
      cases hmade
      obtain ⟨hd', st', view, overlay, hh', hs', hbinds, rfl, rfl, -⟩ := openCursor_ok hon
      obtain rfl := Option.some.inj (hh.symm.trans hh')
      obtain rfl := Option.some.inj ((Pool.get?_add_nextId _ _).symm.trans hc)
      obtain rfl := Option.some.inj (hs'.symm.trans hs)
      refine ⟨_, st', hc, hs', ?_⟩
      cases txn with
      | none =>
        obtain ⟨rfl, rfl⟩ := hbinds
        exact ⟨hsight, rfl, fun key => hhistory.current.get hd.cell st' key hs',
          fun key => Position.admits_start _ _, rfl, rfl⟩
      | some t =>
        obtain ⟨cycle, hcycle, rfl, rfl⟩ := hbinds
        have hwrites := (Drafts.of_reached hrun.reached).writes t cycle hd.cell st' hcycle hs'
        have hview := (hhistory.cycles t cycle hcycle).get hd.cell st'
        have hunbound : (Option.some (changesTo (L.drafts t).writes hd.cell)).isSome ≠ false :=
          Bool.false_ne_true.symm
        refine ⟨⟨rfl, rfl, rfl, rfl, hhistory.began_le t cycle hcycle, fun h => absurd h hunbound⟩,
          congrArg some hwrites, fun key => hview key hs', fun key => Position.admits_start _ _,
          rfl, rfl⟩

end CourseLemmas

/-- In a run the cursor is as it is noted. -/
theorem Charted.shows {i : Nat} {s : Site} {L : Ledger} {x : Course} (h : Charted i s L (some x)) :
    x.Shows s.db L i := by
  generalize hx : some x = x' at h
  induction h generalizing x with
  | opened fs hdb => cases hx
  | @step s L x₀ e hcharted ih =>
    cases x₀ with
    | none =>
      obtain ⟨now, handle, txn, filter, reverse, hd, rfl, hmade, hh, rfl⟩ := opened_of_noted hx.symm
      exact shows_start hcharted.run hh hmade
    | some x₀ => exact ((ih rfl).goes hcharted.run e).2 x hx.symm

namespace CourseLemmas

variable {i j : Nat}

theorem get?_onCursor_none {α : Type} {call : Store → Except Fault Unit → Attempt Cursor α}
    {db : Database} (h : db.cursors.get? i = none) :
    ((onCursor j call).on db).2.cursors.get? i = none := by
  simp only [onCursor, Attempt.on_bind, Attempt.on_get, Attempt.on_check]
  cases db.cursorStore j with
  | error f => exact h
  | ok found =>
    simp only [Attempt.on_set]
    rw [Pool.get?_modify, h]
    split <;> rfl

theorem get?_refreshCursor_none {db : Database} (h : db.cursors.get? i = none) :
    ((refreshCursor j).on db).2.cursors.get? i = none := by
  simp only [refreshCursor, Attempt.on_bind, Attempt.on_get, Attempt.on_check]
  cases db.checkOpen with
  | error f => exact h
  | ok _ =>
    cases db.cursorStore j with
    | error f => exact h
    | ok found =>
      simp only
      split
      · simp only [Attempt.on_set]
        rw [Pool.get?_modify, h]
        split <;> rfl
      · exact h

theorem get?_closeCursor_none {db : Database} (h : db.cursors.get? i = none) :
    (db.closeCursor j).cursors.get? i = none := by
  unfold closeCursor
  split
  · simp only [Pool.get?_remove, h, ite_self]
  · exact h

theorem get?_closeCursor_self (db : Database) : (db.closeCursor i).cursors.get? i = none := by
  unfold closeCursor
  split
  · simp only [Pool.get?_remove, ↓reduceIte]
  · next hnone => exact hnone

/-- A cursor that is not there after an event was made by it is not there at all. -/
theorem cursor_none_next {s : Site} {L : Ledger} {e : Event} (h : s.db.cursors.get? i = none)
    (hnoted : e.noted i s L none = none) : (e.next s).db.cursors.get? i = none := by
  cases e with
  | files fs => exact h
  | call now call =>
    by_cases hcursors : call.isOfCursors = false
    · exact (congrArg (·.get? i) (call.cursors_next hcursors now s)).trans h
    · cases call with
      | openCursor handle txn filter reverse =>
        have hcases := EnumerationLemmas.cursors_openCursor now handle txn filter reverse s.db
        have hnext : ((Event.call now (.openCursor handle txn filter reverse)).next s).db =
            ((openCursor now handle txn filter reverse).on s.db).2 := by
          simp only [Event.next, Event.attempt, Call.attempt, Attempt.on_map, Storage.on_onDatabase]
        rw [hnext]
        rcases hcases with hsame | ⟨hmade, c, hadded⟩
        · rw [hsame, h]
        · rw [hadded, Pool.get?_add, h]
          refine if_neg fun hi => ?_
          have hanswer : (Event.call now (.openCursor handle txn filter reverse)).answer s =
              .ok (.number s.db.cursors.nextId) := by
            simp only [Event.answer, Event.attempt, Call.attempt, Attempt.on_map,
              Storage.on_onDatabase, hmade]
            rfl
          obtain ⟨hd, -, -, -, hh, -⟩ := walks_start hanswer
          simp only [Event.noted, hanswer, Course.afterCall, hh, Option.map_some] at hnoted
          rw [if_pos hi.symm] at hnoted
          cases hnoted
      | closeCursor j => exact get?_closeCursor_none h
      | readCursor j | seekCursor j key | seekRangeCursor j low high =>
        simp only [Event.next, Event.attempt, Call.attempt, Attempt.on_map, Storage.on_onDatabase]
        exact get?_onCursor_none h
      | refreshCursor j =>
        simp only [Event.next, Event.attempt, Call.attempt, Attempt.on_map, Storage.on_onDatabase]
        exact get?_refreshCursor_none h
      | _ => exact absurd rfl hcursors

end CourseLemmas

/-- A cursor of which nothing is noted is not there. -/
theorem Charted.cursor_none {i : Nat} {s : Site} {L : Ledger} {x : Option Course}
    (h : Charted i s L x) (hx : x = none) : s.db.cursors.get? i = none := by
  induction h with
  | opened fs hdb =>
    obtain ⟨-, home, settings, config, lock, tree, -, hat⟩ := hdb.attached
    show (Database.cursors _).get? i = none
    rw [hat.same]
    rfl
  | @step s L x e hcharted ih =>
    cases x with
    | none => exact cursor_none_next (ih rfl) hx
    | some x =>
      -- only the call that gives the cursor up ends its course
      have hgoes := (hcharted.shows.goes hcharted.run e).1
      rw [hx] at hgoes
      cases hgoes
      exact get?_closeCursor_self s.db

/-- Every cursor of a run has its course. -/
theorem Run.exists_course {s : Site} {L : Ledger} (hrun : Run s L) {i : Nat} {c : Cursor}
    (hc : s.db.cursors.get? i = some c) : ∃ x, Charted i s L (some x) := by
  have hcharted : ∃ x, Charted i s L x := by
    clear hc
    induction hrun with
    | opened fs hdb => exact ⟨none, .opened fs hdb⟩
    | step e _ ih =>
      obtain ⟨x, hx⟩ := ih
      exact ⟨_, hx.step e⟩
  obtain ⟨x, hx⟩ := hcharted
  cases x with
  | none => cases hc.symm.trans (hx.cursor_none rfl)
  | some x => exact ⟨x, hx⟩

/-! ## 5. What the reads answer -/

namespace CourseLemmas

open OutdatedLemmas EnumerationLemmas ListingLemmas

variable {s : Site} {L : Ledger} {i : Nat} {x : Course} {records : List (Bytes × Bytes)}

/-- What lies beyond a key that is ahead is ahead as well. -/
theorem ahead_of_before {a b : Bytes} (ha : x.ahead a = true) (hab : Before x.reverse a b) :
    x.ahead b = true := by
  unfold Course.ahead at ha ⊢
  split
  · next last _ hlast =>
    rw [hlast] at ha
    exact decide_eq_true (before_trans (of_decide_eq_true ha) hab)
  · next origin hnone horigin =>
    rw [hnone, horigin] at ha
    simp only [Bool.not_eq_true', decide_eq_false_iff_not] at ha ⊢
    exact fun hlt => ha (before_trans hab hlt)
  · rfl

/-- What is read next lies ahead and within the cap. -/
theorem ahead_and_within {found : Bytes × Bytes} (h : (x.left records).head? = some found) :
    x.ahead found.1 = true ∧ x.within found.1 = true := by
  have hmem := List.mem_of_mem_head? h
  unfold Course.left at hmem
  split at hmem
  · cases hmem
  · exact (Bool.and_eq_true _ _).mp (List.mem_filter.1 hmem).2

/-- A read takes the first of the records that are left. -/
theorem left_read (h : x.Spans L records) :
    (x.read (x.left records).head?).left records = (x.left records).drop 1 := by
  cases hhead : (x.left records).head? with
  | none =>
    rw [List.head?_eq_none_iff.1 hhead]
    exact if_pos rfl
  | some found =>
    have hend : x.ended = false := by
      by_contra hend
      rw [Course.left, if_pos (Bool.not_eq_false _ ▸ hend)] at hhead
      cases hhead
    have hleft : x.left records = records.filter fun e => x.ahead e.1 && x.within e.1 :=
      if_neg (by rw [hend]; exact Bool.false_ne_true)
    have hfound : (x.left records)[0]? = some found := by rw [← List.head?_eq_getElem?, hhead]
    have hordered : Ordered x.reverse (x.left records) := hleft ▸ h.ordered.filter _
    have hahead := (ahead_and_within hhead).1
    rw [← filter_before hordered hfound, hleft, List.filter_filter]
    refine (if_neg (by rw [Course.read, hend]; exact Bool.false_ne_true)).trans ?_
    refine List.filter_congr fun e _ => ?_
    rw [Course.ahead_read]
    by_cases hbefore : Before x.reverse found.1 e.1
    · rw [decide_eq_true hbefore, ahead_of_before hahead hbefore]
      rfl
    · rw [decide_eq_false hbefore]
      rfl

/-- A read of an open database succeeds while no overlapping prefix deletion has been committed. -/
theorem read_available (h : x.Shows s.db L i) (hopen : s.db.closed = false)
    (hcurrent : ¬ x.sight.Overlapped L) (hspans : x.Spans L records) (now : Nat) :
    (Event.call now (.readCursor i)).answer s = .ok (.record (x.left records).head?) := by
  obtain ⟨c, st, hc, hs, hmatch⟩ := h
  rcases checkReady_cases hopen hmatch.sight with ⟨hover, -⟩ | ⟨-, hready⟩
  · exact absurd hover hcurrent
  · have hon := on_readCursor hc hs now
    rw [hready, Cursor.on_read_ready, left_eq hmatch hspans] at hon
    exact congrArg Prod.fst hon

theorem spans_read (h : x.Spans L records) (r : Option (Bytes × Bytes)) :
    (x.read r).Spans L records := by
  cases r <;> exact ⟨h.ordered, h.exact⟩

end CourseLemmas

/-- There is one list of records that the cursor sees. -/
theorem Charted.exists_spans {i : Nat} {s : Site} {L : Ledger} {x : Course}
    (h : Charted i s L (some x)) : ∃ records, x.Spans L records := by
  obtain ⟨c, st, -, -, hmatch⟩ := h.shows
  exact ⟨_, spans_listing hmatch⟩

theorem Charted.taken_le {i : Nat} {s : Site} {L : Ledger} {x : Course}
    (h : Charted i s L (some x)) : x.taken ≤ L.commits.length := by
  obtain ⟨c, st, -, -, hmatch⟩ := h.shows
  exact hmatch.sight.taken_le

/-- From here on the reads of a cursor answer some records one after another, and the end after the
last, whatever else happens, until the cursor is moved, refreshed or closed. A read that fails takes
nothing; on an open database none fails before a prefix deletion makes the cursor outdated. -/
structure Yields (s : Site) (L : Ledger) (i : Nat) (x : Sight) (records : List (Bytes × Bytes)) :
    Prop where
  answers : ∀ events : List Event, (∀ e ∈ events, e.moves i = false) →
    ∀ (k : Nat) r, (readsOf i events s)[k]? = some r → r = records[k]?
  available : ∀ events : List Event, (∀ e ∈ events, e.moves i = false) →
    let later := play events s L
    later.1.db.closed = false → ¬ x.Overlapped later.2 →
      ∀ now, (Event.call now (.readCursor i)).answer later.1 =
        .ok (.record records[(readsOf i events s).length]?)

namespace CourseLemmas

theorem moves_of_target {i now : Nat} {call : Call} {key : Bytes} {cap : Option Bytes}
    (htarget : call.target = some (i, key, cap)) : (Event.call now call).moves i = true := by
  cases call with
  | seekCursor j key' | seekRangeCursor j low high =>
    cases htarget
    exact beq_self_eq_true i
  | _ => cases htarget

/-- After events that do not move the cursor, its course has lost the records that were read. -/
theorem along {i : Nat} {s : Site} {L : Ledger} {x : Course} (h : Charted i s L (some x))
    {records : List (Bytes × Bytes)} (hspans : x.Spans L records) {events : List Event}
    (hmoves : ∀ e ∈ events, e.moves i = false) :
    (∀ (k : Nat) r, (readsOf i events s)[k]? = some r → r = (x.left records)[k]?) ∧
      ∃ y, Charted i (play events s L).1 (play events s L).2 (some y) ∧ y.sight = x.sight ∧
        y.Spans (play events s L).2 records ∧
        y.left records = (x.left records).drop (readsOf i events s).length := by
  induction events generalizing s L x with
  | nil => exact ⟨nofun, x, h, rfl, hspans, rfl⟩
  | cons e rest ih =>
    obtain ⟨hmove, hrest⟩ := List.forall_mem_cons.1 hmoves
    have hspans' := spans_next h.taken_le s e hspans
    have hgoes := (h.shows.goes h.run e).1
    have hcharted := h.step e
    generalize e.noted i s L (some x) = y at hgoes hcharted
    unfold readsOf
    cases hgoes with
    | still _ hreads =>
      rw [hreads]
      exact ih hcharted hspans' hrest
    | unread hanswer =>
      rw [hanswer, Event.reads, beq_self_eq_true]
      exact ih hcharted hspans' hrest
    | @read now records' hspans₀ hanswer =>
      obtain rfl := spans_unique hspans hspans₀
      obtain ⟨hall, y, hlast, hsight, hspansy, hleft⟩ := ih hcharted (spans_read hspans' _) hrest
      rw [hanswer, Event.reads, beq_self_eq_true]
      rw [left_read hspans] at hall hleft
      refine ⟨fun k r hr => ?_, y, hlast, hsight.trans ?_, hspansy, ?_⟩
      · cases k with
        | zero => exact (Option.some.inj hr).symm.trans List.head?_eq_getElem?
        | succ k =>
          rw [hall k r hr, List.getElem?_drop, Nat.add_comm]
      · cases (x.left records).head? <;> rfl
      · rw [hleft, List.drop_drop, List.length_cons, Nat.add_comm]
    | moved htarget | refused htarget => cases hmove.symm.trans (moves_of_target htarget)
    | unrefreshed | refreshed | closed => cases hmove.symm.trans (beq_self_eq_true i)

end CourseLemmas

/-- The reads of a cursor answer what is left to its course. -/
theorem Charted.yields {i : Nat} {s : Site} {L : Ledger} {x : Course} (h : Charted i s L (some x))
    {records : List (Bytes × Bytes)} (hspans : x.Spans L records) :
    Yields s L i x.sight (x.left records) where
  answers := fun _ hmoves => (along h hspans hmoves).1
  available := fun events hmoves hopen hcurrent now => by
    obtain ⟨-, y, hcharted, hsight, hspans', hleft⟩ := along h hspans hmoves
    rw [read_available hcharted.shows hopen (hsight ▸ hcurrent) hspans', hleft, List.head?_drop]

end SnapshotKv
