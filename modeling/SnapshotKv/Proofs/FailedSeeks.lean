import SnapshotKv.Proofs.ScanPaths
import SnapshotKv.Proofs.Seeks

/-!
# Seeks that fail

A seek or range that is refused for its arguments is as if it had not been made. One that is refused
later, on a closed database or because the view is outdated, leaves the cursor where it stands, but
it has set or lifted the cap already. From then on the site is the one without the call, up to that
cap. No answer tells the two apart before the cursor is read with success, and the next admissible
seek or range makes them one again.

Results:
1. `Site.withCap`: a site with another cap on one of its cursors.
2. `Event.mirrors_withCap`, `Event.on_withCap_of_aims`: what one event does to both.
3. `answers_withCap`, `courseAfter_withCap`: what a run does to both.
4. `failed_seek_law`; `failed_seek_changes_reads`: a cursor that reads on beyond its cap after one.
-/

namespace SnapshotKv

open Database MirrorLemmas

/-! ## 1. Other caps -/

/-- The cursor with a cap, or without one. -/
def Cursor.withCap (cap : Option Bytes) (c : Cursor) : Cursor := { c with cap }

/-- The database with a cap on one of its cursors. -/
def Database.withCap (i : Nat) (cap : Option Bytes) (db : Database) : Database :=
  { db with cursors := db.cursors.modify i (Cursor.withCap cap) }

/-- The site with a cap on one of the cursors of its database. -/
def Site.withCap (s : Site) (i : Nat) (cap : Option Bytes) : Site := s.map (Database.withCap i cap)

/-- Whether a read of the cursor is answered. -/
def Event.Tells (i : Nat) (s : Site) (e : Event) : Prop :=
  e.reads i = true ∧ ∃ r, e.answer s = .ok (.record r)

/-- Among some events the cursor is not read with success before it is the aim of a seek. -/
def UnreadBeforeAimed (i : Nat) (reverse : Bool) : List Event → Site → Prop
  | [], _ => True
  | e :: rest, s =>
    e.Aims i reverse ∨ ¬ e.Tells i s ∧ UnreadBeforeAimed i reverse rest (e.next s)

namespace FailedSeekLemmas

open CourseLemmas EnumerationLemmas ScanPathLemmas OutdatedLemmas

variable {s : Site} {L : Ledger} {i : Nat} {x : Option Course} {cap : Option Bytes}

/-- Images of one cursor only. -/
theorem keepsSight_only {f : Cursor → Cursor} (i : Nat) (h : KeepsSight fun _ => f) :
    KeepsSight fun j => if i = j then f else id where
  cell j c := by
    split
    · exact h.cell j c
    · rfl
  view j c := by
    split
    · exact h.view j c
    · rfl
  filter j c := by
    split
    · exact h.filter j c
    · rfl
  overlay j c := by
    split
    · exact h.overlay j c
    · rfl
  refreshed j c view := by
    split
    · exact h.refreshed j c view
    · rfl

theorem keepsSight_withCap (i : Nat) (cap : Option Bytes) :
    KeepsSight fun j => if i = j then Cursor.withCap cap else id :=
  keepsSight_only i
    ⟨fun _ _ => rfl, fun _ _ => rfl, fun _ _ => rfl, fun _ _ => rfl, fun _ _ _ => rfl⟩

theorem withCap_eq_image (i : Nat) (cap : Option Bytes) :
    Database.withCap i cap = image id fun j => if i = j then Cursor.withCap cap else id :=
  modifyCursor_eq_image i (Cursor.withCap cap)

/-- A cap that the cursor has already, if it is there. -/
theorem withCap_eq_self (h : ∀ c, s.db.cursors.get? i = some c → c.cap = cap) :
    s.withCap i cap = s := by
  have hcursors : s.db.cursors.modify i (Cursor.withCap cap) = s.db.cursors :=
    Pool.modify_eq_self fun c hc => by
      rw [← h c hc]
      rfl
  exact congrArg (fun cursors => ({ s with db := { s.db with cursors } } : Site)) hcursors

theorem withCap_of_none (hc : s.db.cursors.get? i = none) : s.withCap i cap = s :=
  withCap_eq_self fun c hc' => absurd (hc.symm.trans hc') (Option.some_ne_none c).symm

theorem get?_withCap {db : Database} {c : Cursor} (hc : db.cursors.get? i = some c) :
    (db.withCap i cap).cursors.get? i = some (c.withCap cap) := by
  show (db.cursors.modify i _).get? i = _
  rw [Pool.get?_modify, if_pos rfl, hc, Option.map_some]

/-- A call on the cursor itself that does the same whatever the cap. -/
theorem mirrors_own {α : Type} {c : Cursor} {st : Store} (hc : s.db.cursors.get? i = some c)
    (hs : s.db.cells.get? c.cell = some st) {call : Store → Except Fault Unit → Attempt Cursor α}
    (h : Mirrors (Cursor.withCap cap) c (call st (s.db.checkReady c st))
      (call st (s.db.checkReady c st))) :
    Mirrors (Database.withCap i cap) s.db (onCursor i call) (onCursor i call) := by
  have hready : (s.db.withCap i cap).checkReady (c.withCap cap) st = s.db.checkReady c st := rfl
  have hs' : (s.db.withCap i cap).cells.get? (c.withCap cap).cell = some st := hs
  unfold Mirrors at h ⊢
  rw [on_onCursor hc hs, on_onCursor (get?_withCap hc) hs', hready, h]
  generalize (call st (s.db.checkReady c st)).on c = o
  have hcursors : ((s.db.cursors.modify i (Cursor.withCap cap)).modify i fun _ => o.2.withCap cap) =
      (s.db.cursors.modify i fun _ => o.2).modify i (Cursor.withCap cap) :=
    (Pool.modify_modify _ _ _ _).trans (Pool.modify_modify _ _ _ _).symm
  exact Prod.ext rfl (congrArg (fun cursors => ({ s.db with cursors } : Database)) hcursors)

/-- A read that is refused. -/
theorem mirrors_read_refused {c : Cursor} {st : Store} (hc : s.db.cursors.get? i = some c)
    (hs : s.db.cells.get? c.cell = some st) {now : Nat}
    (hunread : ¬ (Event.call now (.readCursor i)).Tells i s) :
    Mirrors (Database.withCap i cap) s.db (readCursor i) (readCursor i) := by
  refine mirrors_own hc hs ?_
  cases hready : s.db.checkReady c st with
  | error f =>
    unfold Mirrors
    rw [Cursor.read_refused, Cursor.read_refused]
  | ok _ =>
    have hon := on_readCursor hc hs now
    rw [hready, Cursor.on_read_ready] at hon
    exact absurd ⟨beq_self_eq_true i, _, congrArg Prod.fst hon⟩ hunread

/-- A key that is too long. -/
theorem mirrors_tooLong {σ α : Type} {g : σ → σ} {t : σ} {key : Bytes}
    (hkey : ¬ key.length ≤ Limits.keyLength) {f f' : Unit → Attempt σ α} :
    Mirrors g t (Attempt.check (Limits.checkBound key) >>= f)
      (Attempt.check (Limits.checkBound key) >>= f') := by
  rw [checkBound_of_lt hkey]
  exact mirrors_throw _

/-- A call that scans with a cursor reads it, or moves it to a key. -/
theorem reads_or_aims {call : Call} (h : call.scans? = some i) :
    call = .readCursor i ∨ ∃ key cap, call.target = some (i, key, cap) := by
  cases call with
  | readCursor j =>
    cases h
    exact .inl rfl
  | seekCursor j key | seekRangeCursor j low high =>
    cases h
    exact .inr ⟨_, _, rfl⟩
  | _ => cases h

/-- A seek or range that is refused for its arguments. -/
theorem mirrors_inadmissible {c : Cursor} {st : Store} (hc : s.db.cursors.get? i = some c)
    (hs : s.db.cells.get? c.cell = some st) {call : Call} {key : Bytes} {cap' : Option Bytes}
    (htarget : call.target = some (i, key, cap'))
    (hadmissible : ¬ call.Admissible c.reverse) (now : Nat) :
    Mirrors (Site.map (Database.withCap i cap)) s (call.attempt now) (call.attempt now) := by
  cases call with
  | seekCursor j key' =>
    cases htarget
    exact mirrors_map _ (mirrors_onDatabase (mirrors_own hc hs (mirrors_tooLong hadmissible)))
  | seekRangeCursor j low high =>
    cases htarget
    refine mirrors_map _ (mirrors_onDatabase (mirrors_own hc hs (mirrors_get_bind ?_)))
    refine mirrors_if (fun _ => mirrors_throw _) fun hreverse => ?_
    by_cases hlow : key.length ≤ Limits.keyLength
    · refine mirrors_check_bind fun _ _ => mirrors_tooLong fun hhigh => hadmissible ?_
      exact ⟨Bool.eq_false_iff.2 hreverse, hlow, hhigh⟩
    · exact mirrors_tooLong hlow
  | _ => cases htarget

/-- A cursor that has been given up does not come back. -/
theorem noted_none (h : Charted i s L none) (hi : i < s.db.cursors.nextId) (e : Event) :
    e.noted i s L none = none := by
  cases hnoted : e.noted i s L none with
  | none => rfl
  | some y =>
    obtain ⟨now, handle, txn, filter, reverse, hd, rfl, hmade, hh, -⟩ := opened_of_noted hnoted
    exact absurd (shows_openCursor h.run hh hmade).1 (Nat.ne_of_lt hi)

/-- The direction of a cursor stays. -/
theorem reverse_noted {x y : Course} (h : Charted i s L (some x)) {e : Event}
    (hy : e.noted i s L (some x) = some y) : y.reverse = x.reverse := by
  have hgoes := (h.shows.goes h.run e).1
  rw [hy] at hgoes
  cases hgoes with
  | still | unread | unrefreshed | moved => rfl
  | read => cases (x.left _).head? <;> rfl
  | refused =>
    unfold Course.refused
    split <;> rfl
  | refreshed =>
    unfold Course.refreshed
    split <;> rfl

/-- A call that scans with the cursor, but neither reads it with success nor sets its cap. -/
theorem mirrors_own_scan {x : Course} (h : Charted i s L (some x)) {now : Nat} {call : Call}
    (hscans : call.scans? = some i) (haims : ¬ (Event.call now call).Aims i x.reverse)
    (hunread : ¬ (Event.call now call).Tells i s) (cap : Option Bytes) :
    Mirrors (Site.map (Database.withCap i cap)) s (call.attempt now) (call.attempt now) := by
  obtain ⟨c, st, hc, hs, hmatch⟩ := h.shows
  have hreverse : c.reverse = x.reverse := hmatch.sight.reverse
  rcases reads_or_aims hscans with rfl | ⟨key, cap', htarget⟩
  · exact mirrors_map _ (mirrors_onDatabase (mirrors_read_refused hc hs hunread))
  · refine mirrors_inadmissible hc hs htarget (fun hadmissible => ?_) now
    exact haims ⟨now, call, key, cap', rfl, htarget, hreverse ▸ hadmissible⟩

/-- A call that scans with another cursor, which is the same on both. -/
theorem mirrors_other_scan {j now : Nat} {call : Call} (hscans : call.scans? = some j)
    (hj : i ≠ j) (cap : Option Bytes) :
    Mirrors (Site.map (Database.withCap i cap)) s (call.attempt now) (call.attempt now) := by
  have hother : ∀ {α : Type} (call : Store → Except Fault Unit → Attempt Cursor α),
      Mirrors (Database.withCap i cap) s.db (onCursor j call) (onCursor j call) := by
    intro α call
    rw [withCap_eq_image]
    refine mirrors_onCursor faithful_id (seenFrom_zero s.db) (keepsSight_withCap i cap) j
      fun st ready c _ => ?_
    rw [if_neg hj]
    rfl
  cases call with
  | readCursor j | seekCursor j key | seekRangeCursor j low high =>
    cases hscans
    exact mirrors_map _ (mirrors_onDatabase (hother _))
  | _ => cases hscans

end FailedSeekLemmas

open FailedSeekLemmas

/-! ## 2. Events -/

section Events

open CourseLemmas EnumerationLemmas ScanPathLemmas

variable {s : Site} {L : Ledger} {i : Nat} {x : Option Course}

/-- An admissible seek or range sets the cap anew. -/
theorem Event.on_withCap_of_aims {e : Event} {x : Course} (h : Charted i s L (some x))
    (haims : e.Aims i x.reverse) (cap : Option Bytes) :
    e.attempt.on (s.withCap i cap) = e.attempt.on s := by
  obtain ⟨now, call, key, cap', rfl, htarget, hadmissible⟩ := haims
  obtain ⟨c, st, hc, hs, hmatch⟩ := h.shows
  have hreverse : x.reverse = c.reverse := hmatch.sight.reverse.symm
  rw [hreverse] at hadmissible
  have hs' : (s.withCap i cap).db.cells.get? (c.withCap cap).cell = some st := hs
  have hon := on_target htarget (get?_withCap hc) hs' hadmissible now
  refine (hon.trans ?_).trans (on_target htarget hc hs hadmissible now).symm
  exact Prod.ext rfl (congrArg (fun cursors => ({ s with db := { s.db with cursors } } : Site))
    (Pool.modify_modify _ _ _ _))

/-- Every other event but a read that is answered goes the same way whatever the cap of a cursor. -/
theorem Event.mirrors_withCap {e : Event} (h : Charted i s L x) (hi : i < s.db.cursors.nextId)
    (haims : ∀ y, x = some y → ¬ e.Aims i y.reverse) (hunread : ¬ e.Tells i s)
    (cap : Option Bytes) : Mirrors (Site.map (Database.withCap i cap)) s e.attempt e.attempt := by
  cases x with
  | none =>
    -- the cursor has been given up, so there is nothing to cap, before the event and after it
    have hnone := h.cursor_none rfl
    have hsame : s.map (Database.withCap i cap) = s := withCap_of_none hnone
    have hsame' : (e.next s).map (Database.withCap i cap) = e.next s :=
      withCap_of_none (cursor_none_next hnone (noted_none h hi e))
    unfold Mirrors
    rw [hsame]
    exact Prod.ext rfl hsame'.symm
  | some x =>
    cases e with
    | files fs => rfl
    | call now call =>
      cases hcompaction : call.isOfCompaction with
      | true =>
        exact call.mirrors_compaction (fun p => p.modify i (Cursor.withCap cap)) s now hcompaction
      | false =>
        cases hscans : call.scans? with
        | none =>
          have hnew : (if i = s.db.cursors.nextId then Cursor.withCap cap else id) = id :=
            if_neg (Nat.ne_of_lt hi)
          rw [withCap_eq_image]
          exact call.mirrors_others faithful_id (keepsSight_withCap i cap) (seenFrom_zero s.db) hnew
            now hcompaction hscans
        | some j =>
          by_cases hj : i = j
          · subst hj
            exact mirrors_own_scan h hscans (haims x rfl) hunread cap
          · exact mirrors_other_scan hscans hj cap

end Events

/-! ## 3. Runs -/

/-- No step opens a database again. -/
theorem Step.closed_stays {db db' : Database} {L L' : Ledger} (h : Step db L db' L')
    (hclosed : db.closed = true) : db'.closed = true := by
  cases h with
  | commit hc hdoomed =>
    obtain ⟨cells, published, heq, -⟩ := publish_same db _
    rw [heq]
    exact hclosed
  | close => rfl
  | _ => exact hclosed

/-- The course with a cap. -/
def Course.withCap (cap : Option Bytes) (x : Course) : Course := { x with cap }

/-- A cursor was made at some time, and runs in a direction as long as it is there. -/
structure Made (i : Nat) (reverse : Bool) (s : Site) (L : Ledger) (x : Option Course) : Prop where
  charted : Charted i s L x
  lt : i < s.db.cursors.nextId
  reverse : ∀ y, x = some y → y.reverse = reverse

namespace FailedSeekLemmas

open CourseLemmas EnumerationLemmas OutdatedLemmas

variable {s : Site} {L : Ledger} {i : Nat} {reverse : Bool} {x : Option Course} {e : Event}
  {cap : Option Bytes}

theorem made_of_charted {x : Course} (h : Charted i s L (some x)) :
    Made i x.reverse s L (some x) := by
  obtain ⟨c, st, hc, -⟩ := h.shows
  exact ⟨h, Pool.lt_nextId hc, fun y hy => Option.some.inj hy ▸ rfl⟩

theorem made_next (h : Made i reverse s L x) (e : Event) :
    Made i reverse (e.next s) (L.after s e) (e.noted i s L x) where
  charted := h.charted.step e
  lt := Nat.lt_of_lt_of_le h.lt (e.cursors_nextId_le s)
  reverse := fun y hy => by
    cases x with
    | none => cases (noted_none h.charted h.lt e).symm.trans hy
    | some x => exact (reverse_noted h.charted hy).trans (h.reverse x rfl)

/-- After an admissible seek or range no difference is left. -/
theorem on_of_aims (h : Made i reverse s L x) (haims : e.Aims i reverse) (cap : Option Bytes) :
    e.attempt.on (s.withCap i cap) = e.attempt.on s := by
  cases x with
  | none => rw [withCap_of_none (h.charted.cursor_none rfl)]
  | some x => exact e.on_withCap_of_aims h.charted ((h.reverse x rfl).symm ▸ haims) cap

/-- Before that, the difference stays. -/
theorem on_withCap (h : Made i reverse s L x) (haims : ¬ e.Aims i reverse)
    (hunread : ¬ e.Tells i s) (cap : Option Bytes) :
    e.attempt.on (s.withCap i cap) = (e.answer s, (e.next s).withCap i cap) :=
  e.mirrors_withCap h.charted h.lt (fun y hy => h.reverse y hy ▸ haims) hunread cap

/-- The ledger does not depend on the cap. -/
theorem after_withCap
    (hon : e.attempt.on (s.withCap i cap) = (e.answer s, (e.next s).withCap i cap)) :
    L.after (s.withCap i cap) e = L.after s e := by
  have hanswer : e.answer (s.withCap i cap) = e.answer s := (Prod.ext_iff.1 hon).1
  have hnext : e.next (s.withCap i cap) = (e.next s).withCap i cap := (Prod.ext_iff.1 hon).2
  unfold Ledger.after
  rw [hanswer, hnext]
  cases e.answer s with
  | error f => rfl
  | ok r =>
    cases e with
    | files fs => rfl
    | call now call => cases call <;> rfl

/-- What is noted of the cursor depends on the site by its answers and its handles only. -/
theorem noted_congr {s' : Site} (hanswer : e.answer s' = e.answer s)
    (hhandles : s'.db.handles = s.db.handles) (L : Ledger) (x : Option Course) :
    e.noted i s' L x = e.noted i s L x := by
  cases e with
  | files fs => rfl
  | call now call =>
    simp only [Event.noted, hanswer]
    unfold Course.afterCall
    rw [hhandles]

theorem refreshed_withCap (x : Course) (cap : Option Bytes) (L : Ledger) :
    (x.withCap cap).refreshed L = (x.refreshed L).withCap cap := by
  obtain ⟨cell, filter, reverse, writes, taken, origin, returned, _, ended⟩ := x
  cases writes <;> rfl

/-- Of a cursor that is neither read with success nor the aim of a seek, the same is noted whatever
its cap, up to the cap. -/
theorem noted_withCap {x y : Course} (h : Charted i s L (some x)) (haims : ¬ e.Aims i x.reverse)
    (hunread : ¬ e.Tells i s) (hy : e.noted i s L (some x) = some y) :
    e.noted i s L (some (x.withCap cap)) = some (y.withCap cap) := by
  have hgoes := (h.shows.goes h.run e).1
  rw [hy] at hgoes
  cases hgoes with
  | still hmoves hreads =>
    obtain ⟨c, st, hc, -⟩ := h.shows
    exact noted_of_still h.run hmoves hreads hc _
  | unread hanswer | unrefreshed hanswer =>
    simp only [Event.noted, hanswer, Course.afterCall, Call.target]
  | read _ hanswer => exact absurd ⟨beq_self_eq_true i, _, hanswer⟩ hunread
  | moved htarget hadmissible => exact absurd ⟨_, _, _, _, rfl, htarget, hadmissible⟩ haims
  | @refused now call key cap' f htarget hanswer =>
    have hnot : ¬ call.Admissible x.reverse := fun hadm => haims ⟨_, _, _, _, rfl, htarget, hadm⟩
    have hnot' : ¬ call.Admissible (x.withCap cap).reverse := hnot
    rw [noted_refused htarget hanswer, Course.refused, Course.refused, if_neg hnot, if_neg hnot']
  | refreshed hanswer =>
    simp only [Event.noted, hanswer, Course.afterCall, ↓reduceIte, Option.map_some]
    rw [refreshed_withCap]

/-- As long as the cursor is not read, no answer depends on its cap. -/
theorem answers_withCap (h : Made i reverse s L x) {events : List Event}
    (hunread : UnreadBeforeAimed i reverse events s) (cap : Option Bytes) :
    (s.withCap i cap).answers events = s.answers events := by
  induction events generalizing s L x with
  | nil => rfl
  | cons e rest ih =>
    unfold Site.answers
    by_cases haims : e.Aims i reverse
    · rw [Event.answer, Event.next, on_of_aims h haims cap]
      rfl
    · obtain ⟨htells, hrest⟩ := hunread.resolve_left haims
      have hon := on_withCap h haims htells cap
      rw [Event.answer, Event.next, hon]
      exact congrArg _ (ih (made_next h e) hrest)

/-- The reads of a list of events that none of them answers. -/
theorem readsOf_nil {rest : List Event} (h : readsOf i (e :: rest) s = []) :
    ¬ e.Tells i s ∧ readsOf i rest (e.next s) = [] := by
  unfold readsOf at h
  split at h
  · cases h
  · next hnot => exact ⟨fun ⟨hreads, r, hanswer⟩ => hnot r hreads hanswer, h⟩

/-- Of a cursor that is gone nothing is noted any more. -/
theorem courseAfter_none (h : Made i reverse s L none) (events : List Event) :
    courseAfter i events s L none = none := by
  induction events generalizing s L with
  | nil => rfl
  | cons e rest ih =>
    have hnext := made_next h e
    unfold courseAfter
    rw [noted_none h.charted h.lt e] at hnext ⊢
    exact ih hnext

/-- Without a seek or range, the course stays the one with the other cap. -/
theorem courseAfter_withCap {x y : Course} (h : Made i reverse s L (some x)) {events : List Event}
    (hreads : readsOf i events s = []) (haims : ∀ e ∈ events, ¬ e.Aims i reverse)
    (hy : courseAfter i events s L (some x) = some y) :
    courseAfter i events (s.withCap i cap) L (some (x.withCap cap)) = some (y.withCap cap) := by
  induction events generalizing s L x with
  | nil =>
    have hsame : x = y := Option.some.inj hy
    exact congrArg (fun z => some (z.withCap cap)) hsame
  | cons e rest ih =>
    obtain ⟨haimse, haimsrest⟩ := List.forall_mem_cons.1 haims
    obtain ⟨htells, hrest⟩ := readsOf_nil hreads
    have hon := on_withCap h haimse htells cap
    have hanswer : e.answer (s.withCap i cap) = e.answer s := (Prod.ext_iff.1 hon).1
    have hnext : e.next (s.withCap i cap) = (e.next s).withCap i cap := (Prod.ext_iff.1 hon).2
    have hmade := made_next h e
    unfold courseAfter at hy ⊢
    rw [hnext, after_withCap hon, noted_congr (s := s) hanswer rfl]
    cases hnoted : e.noted i s L (some x) with
    | none =>
      rw [hnoted] at hy hmade
      cases (courseAfter_none hmade rest).symm.trans hy
    | some z =>
      rw [hnoted] at hy hmade
      rw [noted_withCap h.charted (h.reverse x rfl ▸ haimse) htells hnoted]
      exact ih hmade hrest haimsrest hy

theorem read_of_closed (hclosed : s.db.closed = true) (i now : Nat) :
    ∃ f, (Event.call now (.readCursor i)).answer s = .error f := by
  simp only [Event.answer, Event.attempt, Call.attempt, Attempt.on_map, Storage.on_onDatabase,
    readCursor, onCursor, Attempt.on_bind, Attempt.on_get, Attempt.on_check]
  cases s.db.cursorStore i with
  | error f => exact ⟨f, rfl⟩
  | ok found =>
    have hready : s.db.checkReady found.1 found.2 = .error (Fault.databaseClosed s.db.home) := by
      unfold checkReady checkOpen
      rw [hclosed]
      rfl
    simp only [hready, Cursor.read_refused]
    exact ⟨_, rfl⟩

/-- On a closed database no cursor is read. -/
theorem unreadBeforeAimed_of_closed (h : Made i reverse s L x) (hclosed : s.db.closed = true)
    (events : List Event) : UnreadBeforeAimed i reverse events s := by
  induction events generalizing s L x with
  | nil => trivial
  | cons e rest ih =>
    refine .inr ⟨?_, ih (made_next h e) (e.keeps Step.closed_stays hclosed)⟩
    rintro ⟨hreads, r, hanswer⟩
    cases e with
    | files fs => cases hreads
    | call now call =>
      cases call with
      | readCursor j =>
        obtain ⟨f, hf⟩ := read_of_closed hclosed j now
        cases hf.symm.trans hanswer
      | _ => cases hreads

/-- What an admissible seek or range leaves when it fails: it was too late for the database or for
the view, and the cap is set. -/
theorem refused_target {x : Course} (h : Charted i s L (some x)) {now : Nat} {call : Call}
    {key : Bytes} {f : Fault} (htarget : call.target = some (i, key, cap))
    (hadmissible : call.Admissible x.reverse) (hfail : (Event.call now call).answer s = .error f) :
    (s.db.closed = true ∨ x.sight.Overlapped L) ∧ L.after s (.call now call) = L ∧
      (Event.call now call).next s = s.withCap i cap := by
  obtain ⟨c, st, hc, hs, hmatch⟩ := h.shows
  have hreverse : x.reverse = c.reverse := hmatch.sight.reverse.symm
  have hon := on_target htarget hc hs (hreverse ▸ hadmissible) now
  have hrefused : (s.db.closed = true ∨ x.sight.Overlapped L) ∧
      ∃ f', s.db.checkReady c st = .error f' ∧ Cause.systemCall ∉ f'.causes := by
    cases hclosed : s.db.closed with
    | true =>
      refine ⟨.inl rfl, Fault.databaseClosed s.db.home, ?_, List.not_mem_nil⟩
      unfold checkReady checkOpen
      rw [hclosed]
      rfl
    | false =>
      rcases checkReady_cases hclosed hmatch.sight with ⟨hover, hready⟩ | ⟨-, hready⟩
      · exact ⟨.inr hover, _, hready, List.not_mem_nil⟩
      · rw [hready, Cursor.on_reposition_ready] at hon
        cases hfail.symm.trans (congrArg Prod.fst hon)
  obtain ⟨hwhy, f', hready, hcauses⟩ := hrefused
  rw [hready] at hon
  have hanswer : (Event.call now call).answer s = .error f' := congrArg Prod.fst hon
  refine ⟨hwhy, ?_, (congrArg Prod.snd hon).trans ?_⟩
  · unfold Ledger.after
    rw [hanswer]
    exact if_neg hcauses
  · refine congrArg (fun cursors => ({ s with db := { s.db with cursors } } : Site)) ?_
    exact Pool.modify_congr fun c' hc' => by
      rw [Option.some.inj (hc'.symm.trans hc)]
      rfl

end FailedSeekLemmas

open FailedSeekLemmas

/-! ## 4. The law -/

/-- What a seek or range of a cursor that failed makes of its site. -/
structure FailedSeekLaw (s : Site) (L : Ledger) (i : Nat) (x : Course) (now : Nat) (call : Call)
    (cap : Option Bytes) : Prop where
  /-- Refused for its arguments, it is as if it had not been made. -/
  inadmissible : ¬ call.Admissible x.reverse → (Event.call now call).next s = s
  /-- Refused later, it sets or lifts the cap, and that is all. -/
  refused : call.Admissible x.reverse →
    (s.db.closed = true ∨ x.sight.Overlapped L) ∧ (Event.call now call).next s = s.withCap i cap
  sameCap : cap = x.cap → (Event.call now call).next s = s
  /-- No call answers differently for it, unless the cursor is read with success before its next
  admissible seek or range. -/
  answers : ∀ events, UnreadBeforeAimed i x.reverse events s →
    ((Event.call now call).next s).answers events = s.answers events
  closed : s.db.closed = true → ∀ events,
    ((Event.call now call).next s).answers events = s.answers events
  /-- Such reads go on from where the cursor stands without the call, within the cap of the call. -/
  reads : call.Admissible x.reverse → ∀ events, readsOf i events s = [] →
    (∀ e ∈ events, ¬ e.Aims i x.reverse) → ∀ y, courseAfter i events s L (some x) = some y →
      let later := play events ((Event.call now call).next s) L
      ∀ records, y.Spans later.2 records →
        Yields later.1 later.2 i y.sight ((y.withCap cap).left records)

/-- **A failed seek leaves the cursor where it stands.** Refused for its arguments, a seek or range
changes nothing. Refused later, it keeps the position and the end, but sets or lifts the cap:
nothing else changes, no other call tells, and the difference ends with the next admissible seek or
range. -/
theorem failed_seek_law {s : Site} {L : Ledger} {i : Nat} {x : Course} (h : Charted i s L (some x))
    {now : Nat} {call : Call} {key : Bytes} {cap : Option Bytes} {f : Fault}
    (htarget : call.target = some (i, key, cap))
    (hfail : (Event.call now call).answer s = .error f) : FailedSeekLaw s L i x now call cap := by
  obtain ⟨c, st, hc, hs, hmatch⟩ := h.shows
  have hreverse : x.reverse = c.reverse := hmatch.sight.reverse.symm
  have hinadmissible : ¬ call.Admissible x.reverse → (Event.call now call).next s = s := by
    intro hnot
    obtain ⟨f', -, hon⟩ := CourseLemmas.on_target_inadmissible htarget hc hs (hreverse ▸ hnot) now
    exact congrArg Prod.snd hon
  have hanswers : ∀ events, UnreadBeforeAimed i x.reverse events s →
      ((Event.call now call).next s).answers events = s.answers events := by
    intro events hunread
    by_cases hadmissible : call.Admissible x.reverse
    · rw [(refused_target h htarget hadmissible hfail).2.2]
      exact answers_withCap (made_of_charted h) hunread cap
    · rw [hinadmissible hadmissible]
  refine ⟨hinadmissible, fun hadmissible => ?_, fun hcap => ?_, hanswers, fun hclosed events => ?_,
    fun hadmissible events hreads haims y hy => ?_⟩
  · obtain ⟨hwhy, -, hnext⟩ := refused_target h htarget hadmissible hfail
    exact ⟨hwhy, hnext⟩
  · by_cases hadmissible : call.Admissible x.reverse
    · rw [(refused_target h htarget hadmissible hfail).2.2]
      refine withCap_eq_self fun c' hc' => ?_
      rw [← Option.some.inj (hc.symm.trans hc'), hmatch.cap, hcap]
    · exact hinadmissible hadmissible
  · exact hanswers events (unreadBeforeAimed_of_closed (made_of_charted h) hclosed events)
  · intro later records hspans
    obtain ⟨-, hledger, hnext⟩ := refused_target h htarget hadmissible hfail
    have hcharted := (h.step (.call now call)).play events
    rw [hledger, CourseLemmas.noted_refused htarget hfail, Course.refused, if_pos hadmissible]
      at hcharted
    have hcourse : courseAfter i events ((Event.call now call).next s) L (some (x.withCap cap)) =
        some (y.withCap cap) := by
      rw [hnext]
      exact courseAfter_withCap (made_of_charted h) hreads haims hy
    have hspans' : (y.withCap cap).Spans later.2 records := ⟨hspans.ordered, hspans.exact⟩
    exact (hcourse ▸ hcharted : Charted i later.1 later.2 (some (y.withCap cap))).yields hspans'

/-- A prefix deletion has made the capped cursor outdated. -/
def outdatedEvents : List Event := cappedEvents ++ [.call 0 (.write 0 none (.deletePrefix [1]))]

/-- A record is put beyond the cap, and the cursor is refreshed. -/
def recoveryEvents : List Event :=
  [.call 0 (.write 0 none (.put [1, 5] [5])), .call 0 (.refreshCursor 0)]

/-- The cursor after that, without a seek. -/
def recoveredCourse : Course := { cappedCourse with taken := 5, ended := false }

set_option maxRecDepth 10000 in
/-- A seek that is refused then: the reads after the refresh go on from the last key. -/
theorem failed_seek_law_recovered :
    let s := (playSmall outdatedEvents).1
    let L := (playSmall outdatedEvents).2
    let later := play recoveryEvents ((Event.call 0 (.seekCursor 0 [1, 2])).next s) L
    (Event.call 0 (.seekCursor 0 [1, 2])).answer s = .error (Fault.viewOutdated "a") ∧
      ∀ records, recoveredCourse.Spans later.2 records →
        Yields later.1 later.2 0 recoveredCourse.sight
          ((recoveredCourse.withCap none).left records) := by
  have hcharted : Charted 0 (playSmall outdatedEvents).1 (playSmall outdatedEvents).2
    (some cappedCourse) := charted_playSmall 0 outdatedEvents
  refine ⟨rfl, fun records hspans => ?_⟩
  have hlaw : FailedSeekLaw _ _ 0 cappedCourse 0 (.seekCursor 0 [1, 2]) none :=
    failed_seek_law hcharted rfl rfl
  refine hlaw.reads (by decide) recoveryEvents rfl ?_ recoveredCourse rfl records hspans
  rintro e he ⟨now, call, key, cap, rfl, htarget, -⟩
  rcases List.mem_pair.1 he with he | he <;> cases he <;> cases htarget

set_option maxRecDepth 10000 in
/-- A seek that is refused does not leave the cursor as it was: without it, the cursor comes to its
end at the cap, and after it the cursor reads on beyond. -/
theorem failed_seek_changes_reads :
    let s := (playSmall outdatedEvents).1
    let seek := Event.call 0 (.seekCursor 0 [1, 2])
    let onward := recoveryEvents ++ [.call 0 (.readCursor 0)]
    seek.answer s = .error (Fault.viewOutdated "a") ∧
      s.answers onward = [.ok .done, .ok .done, .ok (.record none)] ∧
      (seek.next s).answers onward = [.ok .done, .ok .done, .ok (.record (some ([1, 5], [5])))] :=
  ⟨rfl, rfl, rfl⟩

end SnapshotKv
