import SnapshotKv.Proofs.Compaction
import SnapshotKv.Proofs.Edits

/-!
# Scan paths

The scan path of a cursor decides how its searches are bounded and nothing else. A database with a
cursor on another scan path goes through every event as the database itself does: it answers the
same, and is left as the database itself would be, with that cursor on the other path.

Results:
1. `Database.withPath`: such a database is an image of the database itself.
2. `Event.mirrors_withPath`: what one event does to both.
3. `scan_path_invisible`: any events get the same answers and leave the same files.
-/

namespace SnapshotKv

open Database MirrorLemmas

/-! ## 1. Cursors on other paths -/

/-- The cursor on a scan path. -/
def Cursor.onPath (path : ScanPath) (c : Cursor) : Cursor := { c with path }

/-- The database with one of its cursors on a scan path. -/
def Database.withPath (i : Nat) (path : ScanPath) (db : Database) : Database :=
  { db with cursors := db.cursors.modify i (Cursor.onPath path) }

/-- The site with one of the cursors of its database on a scan path. -/
def Site.withPath (s : Site) (i : Nat) (path : ScanPath) : Site := s.map (Database.withPath i path)

namespace ScanPathLemmas

/-- The one cursor is taken to the path, the others stay on theirs. -/
def onlyPath (i : Nat) (path : ScanPath) (j : Nat) : ScanPath → ScanPath :=
  if i = j then fun _ => path else id

theorem faithful_id : Faithful 0 id where
  empty := rfl
  get _ _ _ _ := rfl
  liveRecords _ _ _ := rfl
  latest _ _ _ _ := rfl
  find _ _ _ := rfl
  isOutdated _ _ _ := rfl
  onTree _ _ _ _ := rfl
  applyTo _ _ _ _ := rfl

theorem seenFrom_zero (db : Database) : db.SeenFrom 0 where
  published := Nat.zero_le _
  cycle _ := Nat.zero_le _
  cursor _ := Nat.zero_le _

end ScanPathLemmas

open ScanPathLemmas

/-- With another cursor in the place of one, a database is an image of itself on which the trees
stay. -/
theorem Database.modifyCursor_eq_image (i : Nat) (f : Cursor → Cursor) :
    (fun db : Database => { db with cursors := db.cursors.modify i f }) =
      image id fun j => if i = j then f else id := by
  funext db
  have hcells : db.cells = db.cells.map (Store.mapTree id) :=
    Pool.ext_get? (by simp) fun j => by
      rw [Pool.get?_map]
      exact Option.map_id'.symm
  have hcursors : db.cursors.modify i f = db.cursors.mapIdx fun j => if i = j then f else id :=
    Pool.ext_get? (by simp) fun j => by
      rw [Pool.get?_modify, Pool.get?_mapIdx]
      split
      · rfl
      · exact Option.map_id'.symm
  show ({ db with cursors := db.cursors.modify i f } : Database) =
    { db with cells := db.cells.map (Store.mapTree id), cursors := _ }
  rw [← hcells, ← hcursors]

theorem Database.withPath_eq_image (i : Nat) (path : ScanPath) :
    withPath i path = image id fun j => Cursor.mapPath (onlyPath i path j) := by
  refine (modifyCursor_eq_image i (Cursor.onPath path)).trans (congrArg (image id) ?_)
  funext j
  unfold onlyPath
  split <;> rfl

/-- A number that no cursor has yet. -/
theorem Site.withPath_of_le {s : Site} {i : Nat} (h : s.db.cursors.nextId ≤ i) (path : ScanPath) :
    s.withPath i path = s := by
  have hnone : s.db.cursors.get? i = none := by
    cases hc : s.db.cursors.get? i with
    | none => rfl
    | some c => exact absurd (Pool.lt_nextId hc) (by omega)
  have hcursors : s.db.cursors.modify i (Cursor.onPath path) = s.db.cursors :=
    Pool.modify_eq_self fun c hc => absurd (hnone.symm.trans hc) (Option.some_ne_none c).symm
  exact congrArg (fun cursors => { s with db := { s.db with cursors } }) hcursors

/-! ## 2. Events -/

/-- The calls of compaction do not depend on the cursors. -/
theorem Call.mirrors_compaction (f : Pool Cursor → Pool Cursor) (s : Site) (now : Nat) {c : Call}
    (hc : c.isOfCompaction = true) :
    Mirrors (Site.map fun db => { db with cursors := f db.cursors }) s (c.attempt now)
      (c.attempt now) := by
  cases c with
  | compact =>
    refine mirrors_map _ (mirrors_onDatabase (mirrors_get_bind ?_))
    exact mirrors_check_bind fun _ _ => mirrors_bind (mirrors_set rfl) fun _ _ _ => rfl
  | compactStatus => exact mirrors_map _ (mirrors_ask rfl)
  | _ => cases hc

/-- An event answers the same with a cursor on another path, and leaves the site as it would be left
otherwise, with that cursor on the other path. -/
theorem Event.mirrors_withPath {s : Site} {i : Nat} (hi : i < s.db.cursors.nextId) (path : ScanPath)
    (e : Event) : Mirrors (Site.map (withPath i path)) s e.attempt e.attempt := by
  cases e with
  | files fs => rfl
  | call now c =>
    cases hc : c.isOfCompaction with
    | false =>
      -- a cursor that is opened now has another number, so its path is its own
      have hnew : onlyPath i path s.db.cursors.nextId = id := if_neg (by omega)
      rw [withPath_eq_image]
      exact c.mirrors_image faithful_id (seenFrom_zero s.db) hnew now hc
    | true => exact c.mirrors_compaction (fun p => p.modify i (Cursor.onPath path)) s now hc

/-- No step takes back the number of a cursor. -/
theorem Step.cursors_nextId_le {db db' : Database} {L L' : Ledger} (h : Step db L db' L') :
    db.cursors.nextId ≤ db'.cursors.nextId := by
  cases h with
  | commit hc hdoomed =>
    obtain ⟨cells, published, heq, -⟩ := publish_same db _
    rw [heq]
    exact Nat.le_refl _
  | openCursor c hview => exact Nat.le_of_lt (by simp)
  | closeCursor hc => exact Nat.le_of_eq (Pool.nextId_remove _ _).symm
  | moveCursor c' hc hview => exact Nat.le_of_eq (Pool.nextId_modify _ _ _).symm
  | refreshCursor hc => exact Nat.le_of_eq (Pool.nextId_modify _ _ _).symm
  | fileFault | list | number | delist | createStore | dropStore | openStore | closeStore | saved
  | close | plain | allocTxn | beginTxn | claim | doom | write | endCycle | compact =>
    exact Nat.le_refl _

/-- What every step keeps, every event keeps. -/
theorem Event.keeps {P : Database → Prop}
    (hstep : ∀ {db db' : Database} {L L' : Ledger}, Step db L db' L' → P db → P db') (e : Event)
    {s : Site} (h : P s.db) : P (e.next s).db := by
  have hall : ∀ {db' : Database} {L' : Ledger}, Steps s.db (Ledger.opened s.db) db' L' → P db' := by
    intro db' L' hsteps
    induction hsteps with
    | refl => exact h
    | tail _ hlast ih => exact hstep hlast ih
  exact hall (e.steps s (Ledger.opened s.db))

theorem Event.cursors_nextId_le (e : Event) (s : Site) :
    s.db.cursors.nextId ≤ (e.next s).db.cursors.nextId :=
  e.keeps (P := fun db => s.db.cursors.nextId ≤ db.cursors.nextId)
    (fun hstep hle => Nat.le_trans hle hstep.cursors_nextId_le) (Nat.le_refl _)

/-! ## 3. Runs -/

/-- What the site answers to some events, one after another. -/
def Site.answers (s : Site) : List Event → List (Except Fault Reply)
  | [] => []
  | e :: rest => e.answer s :: (e.next s).answers rest

namespace ScanPathLemmas

theorem answers_withPath (path : ScanPath) {i : Nat} (events : List Event) {s : Site}
    (hi : i < s.db.cursors.nextId) :
    (s.withPath i path).answers events = s.answers events ∧
      (s.withPath i path).after events = (s.after events).withPath i path := by
  induction events generalizing s with
  | nil => exact ⟨rfl, rfl⟩
  | cons e rest ih =>
    have hon : e.attempt.on (s.withPath i path) = (e.answer s, (e.next s).withPath i path) :=
      e.mirrors_withPath hi path
    have hanswer : e.answer (s.withPath i path) = e.answer s := (Prod.ext_iff.1 hon).1
    have hnext : e.next (s.withPath i path) = (e.next s).withPath i path := (Prod.ext_iff.1 hon).2
    obtain ⟨hanswers, hafter⟩ := ih (Nat.lt_of_lt_of_le hi (e.cursors_nextId_le s))
    unfold Site.answers
    rw [hanswer, hnext, hanswers]
    refine ⟨rfl, ?_⟩
    show (e.next (s.withPath i path)).after rest = _
    rw [hnext, hafter]
    rfl

end ScanPathLemmas

/-- A cursor on either path gives the same answers to every sequence of calls, whatever else is
called in between: with one of its cursors on one path or on the other, a site answers any events
alike, and has the same files after them. -/
theorem scan_path_invisible (s : Site) (i : Nat) (path path' : ScanPath) (events : List Event) :
    (s.withPath i path).answers events = (s.withPath i path').answers events ∧
      ((s.withPath i path).after events).fs = ((s.withPath i path').after events).fs := by
  rcases Nat.lt_or_ge i s.db.cursors.nextId with hi | hi
  · obtain ⟨hanswers, hafter⟩ := answers_withPath path events hi
    obtain ⟨hanswers', hafter'⟩ := answers_withPath path' events hi
    rw [hanswers, hafter, hanswers', hafter']
    exact ⟨rfl, rfl⟩
  · rw [Site.withPath_of_le hi, Site.withPath_of_le hi]
    exact ⟨rfl, rfl⟩

end SnapshotKv
