import SnapshotKv.Proofs.HeldViews
import SnapshotKv.Proofs.Listings

/-!
# Mirrored calls

Calls answer the same on a database and on certain images of it, and leave the image of what they
leave. The images have other trees, which no view in use tells apart, and other cursors in the place
of the cursors, on other scan paths for instance. A database all of whose trees were pruned is such
an image; only what compaction tells about itself is different there.

Results:
1. `Mirrors`: an attempt on the image of a state goes as one on the state, with rules to show it.
2. `Faithful`, `Database.image`: trees that views do not tell apart, and databases with such trees.
3. One lemma for each call; `Call.mirrors_others`: all but those that scan, with any images of the
   cursors that keep to what they see; `Call.mirrors_image`: all of them, with cursors on other
   paths.
4. `Database.prunedAt`, `Call.mirrors`: pruned databases.
-/

namespace SnapshotKv

open Database

/-! ## 1. Attempts on images of states -/

/-- The second attempt, on the image of the state, goes as the first one on the state: with the same
result, and leaving the image of what the first one leaves. -/
def Mirrors {σ α : Type} (g : σ → σ) (s : σ) (a b : Attempt σ α) : Prop :=
  b.on (g s) = ((a.on s).1, g (a.on s).2)

namespace MirrorLemmas

section Rules

variable {σ α β : Type} {g : σ → σ} {s : σ}

theorem mirrors_pure (x : α) : Mirrors g s (pure x) (pure x) := rfl

theorem mirrors_throw (f : Fault) : Mirrors g s (throw f : Attempt σ α) (throw f) := rfl

theorem mirrors_set {t t' : σ} (h : t' = g t) : Mirrors g s (set t) (set t') := by
  unfold Mirrors
  rw [Attempt.on_set, Attempt.on_set, h]

theorem mirrors_modify {f f' : σ → σ} (h : f' (g s) = g (f s)) :
    Mirrors g s (modify f : Attempt σ Unit) (modify f') := by
  unfold Mirrors
  rw [Attempt.on_modify, Attempt.on_modify, h]

theorem mirrors_check {r r' : Except Fault α} (h : r' = r) :
    Mirrors g s (Attempt.check r) (Attempt.check r') := by
  rw [h]
  rfl

theorem mirrors_bind {a b : Attempt σ α} {f f' : α → Attempt σ β} (hab : Mirrors g s a b)
    (h : ∀ x s', a.on s = (.ok x, s') → Mirrors g s' (f x) (f' x)) :
    Mirrors g s (a >>= f) (b >>= f') := by
  unfold Mirrors
  rw [Attempt.on_bind, Attempt.on_bind, hab]
  revert h
  cases a.on s with
  | mk r s' =>
    cases r with
    | error e => exact fun _ => rfl
    | ok x =>
      intro h
      exact h x s' rfl

theorem mirrors_get_bind {f f' : σ → Attempt σ β} (h : Mirrors g s (f s) (f' (g s))) :
    Mirrors g s (get >>= f) (get >>= f') := h

/-- A check whose result on the image is the image, by `m`, of its result. -/
theorem mirrors_map_bind {r : Except Fault α} {r' : Except Fault α} {m : α → α}
    {f f' : α → Attempt σ β} (hr : r' = r.map m)
    (h : ∀ x, r = .ok x → Mirrors g s (f x) (f' (m x))) :
    Mirrors g s (Attempt.check r >>= f) (Attempt.check r' >>= f') := by
  subst hr
  cases r with
  | error e => exact mirrors_throw e
  | ok x => exact h x rfl

/-- A check with one result on both. -/
theorem mirrors_check_bind {r : Except Fault α} {f f' : α → Attempt σ β}
    (h : ∀ x, r = .ok x → Mirrors g s (f x) (f' x)) :
    Mirrors g s (Attempt.check r >>= f) (Attempt.check r >>= f') := by
  cases r with
  | error e => exact mirrors_throw e
  | ok x => exact h x rfl

theorem mirrors_map {a b : Attempt σ α} (f : α → β) (h : Mirrors g s a b) :
    Mirrors g s (f <$> a) (f <$> b) := by
  unfold Mirrors
  rw [Attempt.on_map, Attempt.on_map, h]

theorem mirrors_if {p : Prop} [Decidable p] {a a' b b' : Attempt σ α}
    (h : p → Mirrors g s a b) (h' : ¬ p → Mirrors g s a' b') :
    Mirrors g s (if p then a else a') (if p then b else b') := by
  by_cases hp : p
  · rw [if_pos hp, if_pos hp]
    exact h hp
  · rw [if_neg hp, if_neg hp]
    exact h' hp

end Rules

end MirrorLemmas

/-- The site with an image of its database. -/
def Site.map (g : Database → Database) (s : Site) : Site := { s with db := g s.db }

namespace MirrorLemmas

section Sites

variable {α : Type} {g : Database → Database} {s : Site}

theorem mirrors_onDatabase {a : Attempt Database α} (h : Mirrors g s.db a a) :
    Mirrors (Site.map g) s (Storage.onDatabase a) (Storage.onDatabase a) := by
  unfold Mirrors
  rw [Storage.on_onDatabase, Storage.on_onDatabase]
  have hdb : (s.map g).db = g s.db := rfl
  rw [hdb, h]
  rfl

theorem mirrors_ask {f : Database → Except Fault α} (h : f (g s.db) = f s.db) :
    Mirrors (Site.map g) s (Storage.ask f) (Storage.ask f) := by
  unfold Mirrors
  rw [Storage.on_ask, Storage.on_ask, Site.map, h]

theorem mirrors_onFiles (a : Attempt FileSystem α) :
    Mirrors (Site.map g) s (Storage.onFiles a) (Storage.onFiles a) := rfl

theorem mirrors_update {f : Database → Database} (h : f (g s.db) = g (f s.db)) :
    Mirrors (Site.map g) s (Storage.update f) (Storage.update f) := by
  unfold Mirrors
  rw [Storage.on_update, Storage.on_update, Site.map, h]
  rfl

/-- An attempt, and a change of the site after it whatever its result. -/
theorem mirrors_after {a b : Attempt Site α} (h : Mirrors (Site.map g) s a b)
    {f : Site → Site} (hf : ∀ s', f (s'.map g) = (f s').map g) :
    Mirrors (Site.map g) s (Attempt.ofStep fun s => ((a.on s).1, f (a.on s).2))
      (Attempt.ofStep fun s => ((b.on s).1, f (b.on s).2)) := by
  unfold Mirrors
  rw [Attempt.on_ofStep, Attempt.on_ofStep, h, hf]

/-- Saving a catalog, with a catalog to go on with when that fails. -/
theorem mirrors_saveCatalog (home : String) (c failed : Catalog)
    (hg : ∀ db : Database, { g db with catalog := failed } = g { db with catalog := failed }) :
    Mirrors (Site.map g) s
      (Attempt.ofStep fun s => match (Storage.onFiles (Storage.saveCatalog home c)).on s with
        | (.ok (), s') => (.ok (), s')
        | (.error e, s') => (.error e, { s' with db := { s'.db with catalog := failed } }))
      (Attempt.ofStep fun s => match (Storage.onFiles (Storage.saveCatalog home c)).on s with
        | (.ok (), s') => (.ok (), s')
        | (.error e, s') => (.error e, { s' with db := { s'.db with catalog := failed } })) := by
  simp only [Mirrors, Attempt.on_ofStep, Storage.on_onFiles, Site.map]
  generalize (Storage.saveCatalog home c).on s.fs = file
  obtain ⟨written, fs⟩ := file
  cases written with
  | ok _ => rfl
  | error f => simp only [hg]

end Sites

end MirrorLemmas

/-! ## 2. Images of databases -/

/-- A change of trees that no view from the horizon on notices, and that goes with every commit
above the horizon. -/
structure Faithful (horizon : Nat) (r : VersionTree → VersionTree) : Prop where
  /-- Nothing is made of nothing. -/
  empty : r {} = {}
  get : ∀ (t : VersionTree) (key : Bytes) {view : Nat}, horizon ≤ view →
    (r t).get key view = t.get key view
  liveRecords : ∀ (t : VersionTree) {view : Nat}, horizon ≤ view →
    (r t).liveRecords view = t.liveRecords view
  /-- Whether the newest commit a change would overlap is after the view. -/
  latest : ∀ (c : Change) (t : VersionTree) {view : Nat}, horizon ≤ view →
    (c.latest (r t)).any (fun seqno => view < seqno) = (c.latest t).any fun seqno => view < seqno
  find : ∀ (c : Cursor) (t : VersionTree), horizon ≤ c.view → c.find (r t) = c.find t
  isOutdated : ∀ (c : Cursor) (t : VersionTree), horizon ≤ c.view →
    c.isOutdated (r t) = c.isOutdated t
  onTree : ∀ (c : Change) (t : VersionTree) {n : Nat}, horizon < n →
    r (c.onTree t n) = c.onTree (r t) n
  applyTo : ∀ (w : WriteSet) (t : VersionTree) {n : Nat}, horizon < n →
    r (w.applyTo t n) = w.applyTo (r t) n

/-- The store with an image of its tree. -/
def Store.mapTree (r : VersionTree → VersionTree) (s : Store) : Store := { s with tree := r s.tree }

/-- The cursor with an image of its scan path. -/
def Cursor.mapPath (f : ScanPath → ScanPath) (c : Cursor) : Cursor := { c with path := f c.path }

/-- A search does not depend on the path: it finds the first record of the listing that the position
and the cap admit. -/
theorem Cursor.find_mapPath (f : ScanPath → ScanPath) (c : Cursor) (tree : VersionTree) :
    (c.mapPath f).find tree = c.find tree := by
  rw [Cursor.find_eq, Cursor.find_eq]
  rfl

namespace Database

/-- The database with images of all its trees, also those of stores that can no longer be found, and
of its cursors. -/
def image (r : VersionTree → VersionTree) (g : Nat → Cursor → Cursor) (db : Database) : Database :=
  { db with
    cells := db.cells.map (Store.mapTree r)
    cursors := db.cursors.mapIdx g }

/-- Images of cursors see what the cursors see, and are refreshed like them. -/
structure KeepsSight (g : Nat → Cursor → Cursor) : Prop where
  cell : ∀ i c, (g i c).cell = c.cell
  view : ∀ i c, (g i c).view = c.view
  filter : ∀ i c, (g i c).filter = c.filter
  overlay : ∀ i c, (g i c).overlay = c.overlay
  refreshed : ∀ i (c : Cursor) view,
    g i { c with view, atEnd := false } = { g i c with view, atEnd := false }

theorem keepsSight_mapPath (paths : Nat → ScanPath → ScanPath) :
    KeepsSight fun i => Cursor.mapPath (paths i) :=
  ⟨fun _ _ => rfl, fun _ _ => rfl, fun _ _ => rfl, fun _ _ => rfl, fun _ _ _ => rfl⟩

/-- No view in use is below the horizon. -/
structure SeenFrom (horizon : Nat) (db : Database) : Prop where
  published : horizon ≤ db.published
  cycle : ∀ {t : Nat} {c : Cycle}, db.txns.get? t = some (.active c) → horizon ≤ c.view
  cursor : ∀ {i : Nat} {c : Cursor}, db.cursors.get? i = some c → horizon ≤ c.view

variable (r : VersionTree → VersionTree) (g : Nat → Cursor → Cursor) (db : Database)

theorem handleStore_image (handle : Nat) :
    (db.image r g).handleStore handle =
      (db.handleStore handle).map fun p => (p.1, p.2.mapTree r) := by
  unfold handleStore
  simp only [image, Pool.get?_map]
  cases db.handles.get? handle with
  | none => rfl
  | some h =>
    simp only
    cases db.cells.get? h.cell <;> rfl

theorem cursorStore_image (hg : KeepsSight g) (cursor : Nat) :
    (db.image r g).cursorStore cursor =
      (db.cursorStore cursor).map fun p => (g cursor p.1, p.2.mapTree r) := by
  unfold cursorStore
  simp only [image, Pool.get?_map, Pool.get?_mapIdx]
  cases db.cursors.get? cursor with
  | none => rfl
  | some c =>
    simp only [Option.map_some, hg.cell]
    cases db.cells.get? c.cell <;> rfl

theorem storeNamed_image (name : String) :
    (db.image r g).storeNamed name =
      (db.storeNamed name).map fun p => (p.1, p.2.mapTree r) := by
  unfold storeNamed
  simp only [image, Pool.get?_map]
  cases db.stores.get? name with
  | none => rfl
  | some cell =>
    simp only
    cases db.cells.get? cell <;> rfl

theorem cellOfId?_image (id : Nat) : (db.image r g).cellOfId? id = db.cellOfId? id := by
  unfold cellOfId?
  congr 1
  funext cell
  simp only [image, Pool.get?_map]
  cases db.cells.get? cell <;> rfl

/-- A change of one store that goes with the images of its tree. -/
theorem image_modifyStore (cell : Nat) {f : Store → Store}
    (h : ∀ s, (f s).mapTree r = f (s.mapTree r)) :
    (db.modifyStore cell f).image r g = (db.image r g).modifyStore cell f := by
  simp only [image, modifyStore, Pool.map_modify db.cells cell fun s _ => h s]

theorem image_attach (hr : r {} = {}) (record : StoreRecord) :
    (Storage.attach db record {}).image r g = Storage.attach (db.image r g) record {} := by
  simp only [image, Storage.attach, Pool.map_add, Pool.nextId_map, Store.mapTree, Store.ofRecord, hr]

end Database

/-! ## 3. Calls on images -/

namespace MirrorLemmas

section Calls

variable {horizon : Nat} {r : VersionTree → VersionTree} {g : Nat → Cursor → Cursor}
  {db : Database} {α β : Type}

theorem mirrors_openStore (name : String) (params : List String) :
    Mirrors (image r g) db (openStore name params) (openStore name params) := by
  refine mirrors_get_bind (mirrors_check_bind fun _ _ => ?_)
  refine mirrors_map_bind (storeNamed_image r g db name) ?_
  rintro ⟨cell, s⟩ hs
  refine mirrors_check_bind fun settings _ => ?_
  refine mirrors_if (fun _ => mirrors_throw _) fun _ => ?_
  have hmodify := image_modifyStore r g db cell
    (f := fun s => { s with isOpen := true }) fun _ => rfl
  refine mirrors_bind (mirrors_set ?_) fun _ _ _ => mirrors_pure _
  exact congrArg (fun db' => { db' with handles := db.handles.add ⟨cell, settings⟩ }) hmodify.symm

theorem image_closeStore (handle : Nat) :
    (db.image r g).closeStore handle = (db.closeStore handle).image r g := by
  unfold closeStore
  unfold image
  cases db.handles.get? handle with
  | none => rfl
  | some h =>
    have hmodify := image_modifyStore r g db h.cell
      (f := fun s => { s with isOpen := false }) fun _ => rfl
    exact congrArg (fun db' => { db' with handles := db.handles.remove handle }) hmodify.symm

theorem image_closeCursor (hg : KeepsSight g) (cursor : Nat) :
    (db.image r g).closeCursor cursor = (db.closeCursor cursor).image r g := by
  simp only [closeCursor, image, Pool.get?_mapIdx]
  cases db.cursors.get? cursor with
  | none => rfl
  | some c => simp only [Option.map_some, Pool.mapIdx_remove, hg.view]

theorem storeParam_image (handle : Nat) (key : String) :
    (db.image r g).storeParam handle key = db.storeParam handle key := by
  simp only [storeParam, bind, Except.bind, handleStore_image]
  cases db.handleStore handle with
  | error f => rfl
  | ok p => rfl

/-! ### Transactions -/

theorem mirrors_activeCycle (now t : Nat) :
    Mirrors (image r g) db (activeCycle now t) (activeCycle now t) := by
  refine mirrors_get_bind (mirrors_check_bind fun _ _ => mirrors_check_bind fun x _ => ?_)
  cases x with
  | active c => exact mirrors_if (fun _ => mirrors_bind (mirrors_set rfl) fun _ _ _ =>
      mirrors_throw _) fun _ => mirrors_pure c
  | invalid | committed | aborted => exact mirrors_throw _

/-- A sequence that starts with the cycle of an active transaction. -/
theorem mirrors_activeCycle_bind {now t : Nat} {f f' : Cycle → Attempt Database β}
    (h : ∀ c, db.txns.get? t = some (.active c) → Mirrors (image r g) db (f c) (f' c)) :
    Mirrors (image r g) db (activeCycle now t >>= f) (activeCycle now t >>= f') := by
  refine mirrors_bind (mirrors_activeCycle now t) fun c db' hc => ?_
  rcases StepLemmas.activeCycle_cases now t db (.opened db) with ⟨c₀, heq, hactive⟩ | ⟨e, _, heq, -⟩
  · cases heq.symm.trans hc
    exact h c hactive
  · cases heq.symm.trans hc

theorem mirrors_loseConflict_bind {t : Nat} {c : Cycle} {store : String}
    {f f' : α → Attempt Database β} :
    Mirrors (image r g) db (loseConflict t c store >>= f) (loseConflict t c store >>= f') :=
  rfl

/-- A new cursor is the same on both. -/
theorem mirrors_openCursor (hnew : g db.cursors.nextId = id) (now handle : Nat)
    (txn : Option Nat) (filter : Bytes) (reverse : Bool) :
    Mirrors (image r g) db (openCursor now handle txn filter reverse)
      (openCursor now handle txn filter reverse) := by
  refine mirrors_get_bind (mirrors_map_bind (handleStore_image r g db handle) ?_)
  rintro ⟨h, s⟩ hhs
  refine mirrors_check_bind fun _ _ => mirrors_check_bind fun _ _ => ?_
  have hnext : (db.image r g).cursors.nextId = db.cursors.nextId := Pool.nextId_mapIdx _ _
  have hadd : ∀ c : Cursor, (db.cursors.mapIdx g).add c = (db.cursors.add c).mapIdx g := by
    intro c
    rw [Pool.mapIdx_add, hnew]
    rfl
  have hopen : ∀ (view : Nat) (c : Cursor),
      { db.image r g with
        cursors := (db.image r g).cursors.add c
        pins := (db.image r g).pins.pin view } =
      image r g { db with cursors := db.cursors.add c, pins := db.pins.pin view } := by
    intro view c
    exact congrArg (fun cursors =>
      ({ db.image r g with cursors, pins := db.pins.pin view } : Database)) (hadd c)
  cases txn with
  | none =>
    refine mirrors_bind (mirrors_pure _) fun _ _ hp => ?_
    cases hp
    rw [hnext]
    exact mirrors_bind (mirrors_modify (hopen _ _)) fun _ _ _ => mirrors_pure _
  | some t =>
    refine mirrors_activeCycle_bind fun c hc => mirrors_bind (mirrors_pure _) fun _ _ hp => ?_
    cases hp
    rw [hnext]
    exact mirrors_bind (mirrors_modify (hopen _ _)) fun _ _ _ => mirrors_pure _

/-! ### Commits -/

theorem applySingle_image (hr : Faithful horizon r) (hle : horizon ≤ db.published) (cell : Nat)
    (change : Change) :
    (db.image r g).applySingle cell change.onTree =
      (db.applySingle cell change.onTree).image r g := by
  have hmodify := image_modifyStore r g db cell
    (f := fun s => { s with tree := change.onTree s.tree (db.published + 1), dirty := true })
    fun s => by
      rw [Store.mapTree, hr.onTree change s.tree (Nat.lt_succ_of_le hle)]
      rfl
  exact congrArg (fun db' => { db' with published := db.published + 1 }) hmodify.symm

theorem mirrors_beginTxn (now t : Nat) :
    Mirrors (image r g) db (beginTxn now t) (beginTxn now t) := by
  refine mirrors_get_bind (mirrors_check_bind fun _ _ => mirrors_check_bind fun x hx => ?_)
  cases x with
  | active c => exact mirrors_throw _
  | invalid | committed | aborted => exact mirrors_set rfl

theorem applyWrites_image (hr : Faithful horizon r) {seqno : Nat} (hlt : horizon < seqno)
    (applied : Bool) (db : Database) (e : Nat × WriteSet) :
    applyWrites seqno (applied, db.image r g) e =
      ((applyWrites seqno (applied, db) e).1,
        (applyWrites seqno (applied, db) e).2.image r g) := by
  simp only [applyWrites, cellOfId?_image]
  split
  · next cell _ =>
    have hmodify := image_modifyStore r g db cell
      (f := fun s => { s with tree := e.2.applyTo s.tree seqno, dirty := true })
      fun s => by
        rw [Store.mapTree, hr.applyTo e.2 s.tree hlt]
        rfl
    rw [hmodify]
  · rfl

theorem publish_image (hr : Faithful horizon r) (hle : horizon ≤ db.published) (c : Cycle) :
    (db.image r g).publish c = (db.publish c).image r g := by
  have hall : ∀ (l : List (Nat × WriteSet)) (applied : Bool) (db' : Database),
      l.foldl (applyWrites (db.published + 1)) (applied, db'.image r g) =
        ((l.foldl (applyWrites (db.published + 1)) (applied, db')).1,
          (l.foldl (applyWrites (db.published + 1)) (applied, db')).2.image r g) := by
    intro l
    induction l with
    | nil => exact fun _ _ => rfl
    | cons e rest ih =>
      intro applied db'
      rw [List.foldl_cons, List.foldl_cons, applyWrites_image hr (Nat.lt_succ_of_le hle)]
      exact ih _ _
  have hpublished : (db.image r g).published = db.published := rfl
  unfold publish
  rw [hpublished]
  simp only [hall]
  split <;> rfl

theorem mirrors_commitTxn (hr : Faithful horizon r) (hle : horizon ≤ db.published) (now t : Nat) :
    Mirrors (image r g) db (commitTxn now t) (commitTxn now t) := by
  refine mirrors_activeCycle_bind fun c hc => ?_
  refine mirrors_if (fun _ => ?_) fun _ => ?_
  · exact mirrors_bind (mirrors_modify rfl) fun _ _ _ => mirrors_throw _
  · refine mirrors_modify ?_
    rw [publish_image hr hle]
    rfl

theorem mirrors_abortTxn (t : Nat) :
    Mirrors (image r g) db (abortTxn t) (abortTxn t) := by
  refine mirrors_get_bind (mirrors_check_bind fun x hx => ?_)
  cases x with
  | active c => exact mirrors_set rfl
  | invalid | committed | aborted => exact mirrors_throw _

theorem mirrors_closeTxn (hr : Faithful horizon r) (hle : horizon ≤ db.published) (now t : Nat) :
    Mirrors (image r g) db (closeTxn now t) (closeTxn now t) := by
  refine mirrors_get_bind (mirrors_check_bind fun x hx => ?_)
  cases x with
  | active c => exact mirrors_commitTxn hr hle now t
  | invalid | committed | aborted => exact mirrors_pure _

/-! ### Views in use -/

variable (hr : Faithful horizon r) (hseen : db.SeenFrom horizon)

include hr hseen

theorem mirrors_getRecord (now handle : Nat) (txn : Option Nat) (key : Bytes) :
    Mirrors (image r g) db (getRecord now handle txn key)
      (getRecord now handle txn key) := by
  refine mirrors_get_bind (mirrors_map_bind (handleStore_image r g db handle) ?_)
  rintro ⟨h, s⟩ hhs
  refine mirrors_check_bind fun _ _ => mirrors_check_bind fun _ _ => ?_
  cases txn with
  | none =>
    have hget := hr.get s.tree key hseen.published
    exact congrArg (fun v => (Except.ok v, image r g db)) hget
  | some t =>
    refine mirrors_activeCycle_bind fun c hc => ?_
    have hget := hr.get s.tree key (hseen.cycle hc)
    unfold Store.mapTree
    rw [hget]
    cases (c.writesTo s.id).lookup key <;> exact mirrors_pure _

theorem mirrors_writeInTxn (now t : Nat) (s : Store) (change : Change) :
    Mirrors (image r g) db
      (writeInTxn now t s (change.claim s.id) (change.latest s.tree) change.onWrites)
      (writeInTxn now t (s.mapTree r) (change.claim s.id) (change.latest (r s.tree))
        change.onWrites) := by
  refine mirrors_activeCycle_bind fun c hc => ?_
  refine mirrors_check_bind fun _ _ => mirrors_get_bind ?_
  have hlatest := hr.latest change s.tree (hseen.cycle hc)
  -- claims do not look at the tree, and the check only looks above the view
  have hlocks : (db.image r g).locks = db.locks := rfl
  rw [hlocks]
  cases change.claim s.id db.locks c.id with
  | mk granted locks =>
    refine mirrors_if (fun _ => mirrors_loseConflict_bind) fun _ => ?_
    refine mirrors_bind (mirrors_set rfl) fun _ _ _ => ?_
    simp only
    rw [hlatest]
    exact mirrors_if (fun _ => mirrors_loseConflict_bind) fun _ => mirrors_modify rfl

theorem mirrors_writeRecord (now handle : Nat) (txn : Option Nat) (change : Change) :
    Mirrors (image r g) db (writeRecord now handle txn change)
      (writeRecord now handle txn change) := by
  refine mirrors_get_bind (mirrors_map_bind (handleStore_image r g db handle) ?_)
  rintro ⟨h, s⟩ hhs
  refine mirrors_check_bind fun _ _ => ?_
  have hcheck : change.check (s.mapTree r) = change.check s := by
    cases change <;> rfl
  rw [hcheck]
  refine mirrors_check_bind fun _ _ => ?_
  cases txn with
  | none => exact mirrors_set (applySingle_image hr hseen.published h.cell change)
  | some t => exact mirrors_writeInTxn hr hseen now t s change

end Calls

section Cursors

variable {f : ScanPath → ScanPath} {c : Cursor} {tree tree' : VersionTree}

/-! ### Cursors -/

/-- The cursor finds the same in both trees, wherever it stands. -/
def FindsSame (c : Cursor) (tree tree' : VersionTree) : Prop :=
  ∀ c' : Cursor, c'.view = c.view → c'.find tree' = c'.find tree

theorem mirrors_read (ready : Except Fault Unit) (h : FindsSame c tree tree') :
    Mirrors (Cursor.mapPath f) c (Cursor.read ready tree) (Cursor.read ready tree') := by
  have hfind : (c.mapPath f).find tree' = c.find tree := by rw [Cursor.find_mapPath, h c rfl]
  refine mirrors_check_bind fun _ _ => mirrors_get_bind (mirrors_if (fun _ => rfl) fun _ => ?_)
  rw [hfind]
  cases c.find tree with
  | none => exact mirrors_bind (mirrors_set rfl) fun _ _ _ => mirrors_pure _
  | some e => exact mirrors_bind (mirrors_set rfl) fun _ _ _ => mirrors_pure _

theorem mirrors_reposition (ready : Except Fault Unit) (key : Bytes) (h : FindsSame c tree tree') :
    Mirrors (Cursor.mapPath f) c (Cursor.reposition ready tree key)
      (Cursor.reposition ready tree' key) := by
  refine mirrors_check_bind fun _ _ => mirrors_bind (mirrors_modify rfl) fun _ c' hc' => ?_
  have hview : c'.view = c.view := by
    cases hc'
    rfl
  have hfind : (c'.mapPath f).find tree' = c'.find tree := by rw [Cursor.find_mapPath, h c' hview]
  refine mirrors_get_bind ?_
  rw [hfind]
  cases c'.find tree with
  | none => exact mirrors_pure _
  | some e => exact mirrors_bind (mirrors_set rfl) fun _ _ _ => mirrors_pure _

theorem mirrors_seek (ready : Except Fault Unit) (key : Bytes) (h : FindsSame c tree tree') :
    Mirrors (Cursor.mapPath f) c (Cursor.seek ready tree key) (Cursor.seek ready tree' key) := by
  refine mirrors_check_bind fun _ _ => mirrors_bind (mirrors_modify rfl) fun _ c' hc' => ?_
  cases hc'
  exact mirrors_reposition ready key h

theorem mirrors_seekRange (store : String) (ready : Except Fault Unit) (low high : Bytes)
    (h : FindsSame c tree tree') :
    Mirrors (Cursor.mapPath f) c (Cursor.seekRange store ready tree low high)
      (Cursor.seekRange store ready tree' low high) := by
  refine mirrors_get_bind (mirrors_if (fun _ => mirrors_throw _) fun _ => ?_)
  refine mirrors_check_bind fun _ _ => mirrors_check_bind fun _ _ => ?_
  refine mirrors_bind (mirrors_modify rfl) fun _ c' hc' => ?_
  cases hc'
  exact mirrors_reposition ready low h

variable {horizon : Nat} {r : VersionTree → VersionTree} {g : Nat → Cursor → Cursor}
  {paths : Nat → ScanPath → ScanPath} {db : Database} {α : Type}

theorem mirrors_refreshCursor (hg : KeepsSight g) (i : Nat) :
    Mirrors (image r g) db (refreshCursor i) (refreshCursor i) := by
  refine mirrors_get_bind (mirrors_check_bind fun _ _ => ?_)
  refine mirrors_map_bind (cursorStore_image r g db hg i) ?_
  rintro ⟨c, s⟩ hcs
  have hbound : (g i c).isBound = c.isBound := by
    unfold Cursor.isBound
    rw [hg.overlay]
  simp only [hbound, hg.view]
  refine mirrors_if (fun _ => mirrors_set ?_) fun _ => mirrors_pure _
  have hmodify := db.cursors.mapIdx_modify i (f := g)
    (g := fun c => { c with view := db.published, atEnd := false })
    (k := fun c => { c with view := db.published, atEnd := false })
    fun c _ => hg.refreshed i c db.published
  exact congrArg (fun cursors => ({ db.image r g with
    cursors, pins := (db.pins.pin db.published).unpin c.view } : Database)) hmodify.symm

variable (hr : Faithful horizon r) (hseen : db.SeenFrom horizon)

include hr hseen

/-- A call that does the same with the image of its cursor and a tree in which it finds the same. -/
theorem mirrors_onCursor (hg : KeepsSight g) (i : Nat)
    {call : Store → Except Fault Unit → Attempt Cursor α}
    (hcall : ∀ s ready c, FindsSame c s.tree (r s.tree) →
      Mirrors (g i) c (call s ready) (call (s.mapTree r) ready)) :
    Mirrors (image r g) db (onCursor i call) (onCursor i call) := by
  refine mirrors_get_bind (mirrors_map_bind (cursorStore_image r g db hg i) ?_)
  rintro ⟨c, s⟩ hcs
  have hview := hseen.cursor (StepLemmas.cursorStore_ok hcs).1
  have hready : (db.image r g).checkReady (g i c) (s.mapTree r) = db.checkReady c s := by
    have houtdated : (g i c).isOutdated (s.mapTree r).tree = c.isOutdated s.tree := by
      rw [← hr.isOutdated c s.tree hview]
      simp only [Cursor.isOutdated, Cursor.isBound, hg.overlay, hg.filter, hg.view, Store.mapTree]
    unfold checkReady
    rw [houtdated]
    rfl
  have hon := hcall s (db.checkReady c s) c fun c' hc' => hr.find c' s.tree (hc' ▸ hview)
  unfold Mirrors at hon
  simp only
  rw [hready, hon]
  refine mirrors_bind (mirrors_set ?_) fun _ _ _ => mirrors_check rfl
  have hmodify := db.cursors.mapIdx_modify i (f := g)
    (g := fun _ => ((call s (db.checkReady c s)).on c).2)
    (k := fun _ => g i ((call s (db.checkReady c s)).on c).2) fun _ _ => rfl
  exact congrArg (fun cursors => ({ db.image r g with cursors } : Database)) hmodify.symm

theorem mirrors_readCursor (i : Nat) :
    Mirrors (image r fun i => Cursor.mapPath (paths i)) db (readCursor i) (readCursor i) :=
  mirrors_onCursor hr hseen (keepsSight_mapPath paths) i fun _ ready _ h => mirrors_read ready h

theorem mirrors_seekCursor (i : Nat) (key : Bytes) :
    Mirrors (image r fun i => Cursor.mapPath (paths i)) db (seekCursor i key) (seekCursor i key) :=
  mirrors_onCursor hr hseen (keepsSight_mapPath paths) i fun _ ready _ h => mirrors_seek ready key h

theorem mirrors_seekRangeCursor (i : Nat) (low high : Bytes) :
    Mirrors (image r fun i => Cursor.mapPath (paths i)) db (seekRangeCursor i low high)
      (seekRangeCursor i low high) :=
  mirrors_onCursor hr hseen (keepsSight_mapPath paths) i fun s ready _ h =>
    mirrors_seekRange s.name ready low high h

end Cursors

section Files

variable {horizon : Nat} {r : VersionTree → VersionTree} {g : Nat → Cursor → Cursor}
  {s : Site} {α : Type}

/-! ### Calls that use files -/

theorem published_persistCell (cell : Nat) (s : Site) :
    ((Storage.persistCell cell).on s).2.db.published = s.db.published := by
  simp only [Storage.persistCell, Attempt.on_bind, Attempt.on_get]
  split
  · split
    · simp only [Storage.about, Attempt.on_bind, Attempt.on_ofStep, Storage.on_onFiles]
      generalize (Storage.saveDataFile _ _ _).on s.fs = file
      obtain ⟨written, fs⟩ := file
      cases written <;> rfl
    · rfl
  · rfl

theorem mirrors_persistCell (hr : Faithful horizon r) (hle : horizon ≤ s.db.published) (cell : Nat) :
    Mirrors (Site.map (image r g)) s (Storage.persistCell cell) (Storage.persistCell cell) := by
  refine mirrors_get_bind ?_
  have hcell : (s.map (image r g)).db.cells.get? cell =
      (s.db.cells.get? cell).map (Store.mapTree r) := Pool.get?_map _ _ _
  rw [hcell]
  cases s.db.cells.get? cell with
  | none => exact mirrors_pure ()
  | some store =>
    have hlive := hr.liveRecords store.tree hle
    simp only [Option.map_some]
    refine mirrors_if (fun _ => ?_) fun _ => mirrors_pure _
    refine mirrors_bind ?_ fun _ s' _ => mirrors_update ?_
    · have hpublished : (s.map (image r g)).db.published = s.db.published := rfl
      unfold Store.mapTree
      rw [hpublished, hlive]
      rfl
    · have hmodify := image_modifyStore r g s'.db cell
        (f := fun s => { s with dirty := false }) fun _ => rfl
      exact hmodify.symm

theorem mirrors_persist (hr : Faithful horizon r) (hle : horizon ≤ s.db.published) :
    Mirrors (Site.map (image r g)) s Storage.persist Storage.persist := by
  have hall : ∀ (cells : List Nat) (s : Site), horizon ≤ s.db.published →
      Mirrors (Site.map (image r g)) s (cells.forM Storage.persistCell)
        (cells.forM Storage.persistCell) := by
    intro cells
    induction cells with
    | nil => exact fun _ _ => mirrors_pure ()
    | cons cell rest ih =>
      intro s hle
      refine mirrors_bind (mirrors_persistCell hr hle cell) fun _ s' hs' => ih s' ?_
      -- what is published stays, so the horizon stays below it
      have hsame := published_persistCell cell s
      rw [hs'] at hsame
      exact Nat.le_trans hle (Nat.le_of_eq hsame.symm)
  exact mirrors_get_bind (mirrors_if (fun _ => hall _ s hle) fun _ => mirrors_pure _)

theorem mirrors_sync (hr : Faithful horizon r) (hle : horizon ≤ s.db.published) :
    Mirrors (Site.map (image r g)) s Storage.sync Storage.sync :=
  mirrors_get_bind (mirrors_check_bind fun _ _ => mirrors_persist hr hle)

theorem mirrors_close (hr : Faithful horizon r) (hle : horizon ≤ s.db.published) :
    Mirrors (Site.map (image r g)) s Storage.close Storage.close := by
  refine mirrors_get_bind (mirrors_if (fun _ => ?_) fun _ => mirrors_pure _)
  refine mirrors_bind (mirrors_update rfl) fun _ s' hs' => ?_
  cases hs'
  refine mirrors_after (f := fun s => { s with fs := s.fs.unlock s.db.lock }) ?_ fun _ => rfl
  exact mirrors_persist hr hle

theorem mirrors_createStore (hr : Faithful horizon r) (name : String) (params : List String) :
    Mirrors (Site.map (image r g)) s (Storage.createStore name params)
      (Storage.createStore name params) := by
  refine mirrors_get_bind (mirrors_check_bind fun _ _ => mirrors_check_bind fun _ _ => ?_)
  refine mirrors_check_bind fun _ _ => mirrors_check_bind fun shape _ => ?_
  refine mirrors_if (fun _ => mirrors_throw _) fun _ => ?_
  refine mirrors_if (fun _ => mirrors_throw _) fun _ => ?_
  refine mirrors_bind (mirrors_update rfl) fun _ _ _ => ?_
  refine mirrors_bind (mirrors_onFiles _) fun _ _ _ => ?_
  refine mirrors_bind ?_ fun _ s' _ => mirrors_update (image_attach r g s'.db hr.empty _).symm
  exact mirrors_saveCatalog s.db.home _ _ fun _ => rfl

theorem mirrors_dropStore (name : String) :
    Mirrors (Site.map (image r g)) s (Storage.dropStore name) (Storage.dropStore name) := by
  refine mirrors_get_bind (mirrors_check_bind fun _ _ => mirrors_check_bind fun _ _ => ?_)
  refine mirrors_map_bind (storeNamed_image r g s.db name) ?_
  rintro ⟨cell, store⟩ hstore
  refine mirrors_if (fun _ => mirrors_throw _) fun _ => ?_
  refine mirrors_bind (mirrors_onFiles _) fun _ _ _ => ?_
  refine mirrors_bind (mirrors_update rfl) fun _ _ _ => ?_
  exact mirrors_bind (mirrors_onFiles _) fun _ _ _ => mirrors_update rfl

theorem mirrors_mediaUsage (m : MediaClass) :
    Mirrors (Site.map (image r g)) s (Storage.mediaUsage m) (Storage.mediaUsage m) := by
  refine mirrors_get_bind ?_
  have hpath : (s.map (image r g)).db.catalog = s.db.catalog := rfl
  rw [hpath]
  cases s.db.catalog.mediaPath? m with
  | none => exact mirrors_throw _
  | some path => exact mirrors_bind (mirrors_onFiles _) fun _ _ _ => mirrors_pure _

end Files

end MirrorLemmas

open MirrorLemmas

/-- Whether a call prunes, or tells how much there is to prune. -/
def Call.isOfCompaction : Call → Bool
  | .compact | .compactStatus => true
  | _ => false

/-- The cursor that a call reads or moves to a key. -/
def Call.scans? : Call → Option Nat
  | .readCursor i | .seekCursor i _ | .seekRangeCursor i _ _ => some i
  | _ => none

section Images

variable {horizon : Nat} {r : VersionTree → VersionTree} {s : Site}

/-- Every call but scans and those of compaction answers on an image as on the database itself, as
long as no view in use is below the horizon and a new cursor is the same on both. -/
theorem Call.mirrors_others {g : Nat → Cursor → Cursor} (hr : Faithful horizon r)
    (hg : KeepsSight g) (hseen : s.db.SeenFrom horizon) (hnew : g s.db.cursors.nextId = id)
    (now : Nat) {c : Call} (hc : c.isOfCompaction = false) (hscans : c.scans? = none) :
    Mirrors (Site.map (image r g)) s (c.attempt now) (c.attempt now) := by
  have hle := hseen.published
  cases c with
  | compact | compactStatus => cases hc
  | readCursor | seekCursor | seekRangeCursor => cases hscans
  | param key => exact mirrors_map _ (mirrors_ask rfl)
  | storeNames => exact mirrors_map _ (mirrors_ask rfl)
  | createStore name params => exact mirrors_map _ (mirrors_createStore hr name params)
  | dropStore name => exact mirrors_map _ (mirrors_dropStore name)
  | openStore name params =>
    exact mirrors_map _ (mirrors_onDatabase (mirrors_openStore name params))
  | closeStore handle => exact mirrors_map _ (mirrors_update (image_closeStore handle))
  | storeParam handle key => exact mirrors_map _ (mirrors_ask (storeParam_image handle key))
  | get handle txn key =>
    exact mirrors_map _ (mirrors_onDatabase (mirrors_getRecord hr hseen now handle txn key))
  | write handle txn change =>
    refine mirrors_map _ (mirrors_onDatabase ?_)
    unfold Mirrors
    rw [on_changeRecord, on_changeRecord]
    exact mirrors_writeRecord hr hseen now handle txn change
  | allocTxn => exact mirrors_map _ (mirrors_onDatabase rfl)
  | beginTxn t => exact mirrors_map _ (mirrors_onDatabase (mirrors_beginTxn now t))
  | commitTxn t => exact mirrors_map _ (mirrors_onDatabase (mirrors_commitTxn hr hle now t))
  | abortTxn t => exact mirrors_map _ (mirrors_onDatabase (mirrors_abortTxn t))
  | closeTxn t => exact mirrors_map _ (mirrors_onDatabase (mirrors_closeTxn hr hle now t))
  | txnState t => exact mirrors_map _ (mirrors_ask rfl)
  | openCursor handle txn filter reverse =>
    exact mirrors_map _ (mirrors_onDatabase (mirrors_openCursor hnew now handle txn filter reverse))
  | closeCursor cursor =>
    exact mirrors_map _ (mirrors_update (image_closeCursor hg cursor))
  | refreshCursor cursor =>
    exact mirrors_map _ (mirrors_onDatabase (mirrors_refreshCursor hg cursor))
  | mediaUsage m => exact mirrors_map _ (mirrors_mediaUsage m)
  | sync => exact mirrors_map _ (mirrors_sync hr hle)
  | close => exact mirrors_map _ (mirrors_close hr hle)

/-- Every call but those of compaction answers with cursors on other paths as with the cursors
themselves. -/
theorem Call.mirrors_image {paths : Nat → ScanPath → ScanPath} (hr : Faithful horizon r)
    (hseen : s.db.SeenFrom horizon) (hnew : paths s.db.cursors.nextId = id) (now : Nat) {c : Call}
    (hc : c.isOfCompaction = false) :
    Mirrors (Site.map (image r fun i => Cursor.mapPath (paths i))) s (c.attempt now)
      (c.attempt now) := by
  have hnew' : Cursor.mapPath (paths s.db.cursors.nextId) = id := by
    rw [hnew]
    rfl
  cases c with
  | readCursor cursor => exact mirrors_map _ (mirrors_onDatabase (mirrors_readCursor hr hseen cursor))
  | seekCursor cursor key =>
    exact mirrors_map _ (mirrors_onDatabase (mirrors_seekCursor hr hseen cursor key))
  | seekRangeCursor cursor low high =>
    exact mirrors_map _ (mirrors_onDatabase (mirrors_seekRangeCursor hr hseen cursor low high))
  | _ => exact Call.mirrors_others hr (keepsSight_mapPath paths) hseen hnew' now hc rfl

end Images

/-! ## 4. Pruned databases -/

/-- The store after its tree was pruned. -/
def Store.prunedAt (horizon : Nat) (s : Store) : Store := { s with tree := s.tree.pruned horizon }

namespace Database

/-- The database after every tree was pruned, also those of stores that can no longer be found. -/
def prunedAt (horizon : Nat) (db : Database) : Database :=
  { db with cells := db.cells.map (Store.prunedAt horizon) }

end Database

/-- The site with its database pruned. -/
def Site.prunedAt (horizon : Nat) (s : Site) : Site := { s with db := s.db.prunedAt horizon }

/-- A pruned database is an image on which the cursors stay. -/
theorem Database.prunedAt_eq_image (horizon : Nat) :
    prunedAt horizon = image (VersionTree.pruned horizon) fun _ => Cursor.mapPath id := by
  funext db
  have hcursors : db.cursors = db.cursors.mapIdx fun _ => Cursor.mapPath id :=
    Pool.ext_get? (by simp) fun i => by
      rw [Pool.get?_mapIdx]
      exact Option.map_id'.symm
  exact congrArg (fun cursors => { db.prunedAt horizon with cursors }) hcursors

theorem faithful_pruned (horizon : Nat) : Faithful horizon (VersionTree.pruned horizon) where
  empty := rfl
  get _ key _ hview := VersionTree.get_pruned hview key
  liveRecords _ _ hview := VersionTree.liveRecords_pruned hview
  latest change _ _ hview := by
    cases change with
    | put key value | delete key => exact VersionTree.touchedSince_pruned hview key
    | deletePrefix stem => exact VersionTree.touchedUnder_pruned hview stem
  find _ _ hview := by simp only [Cursor.find, VersionTree.nextVisible_pruned hview]
  isOutdated _ _ hview := by
    unfold Cursor.isOutdated
    rw [VersionTree.prefixDeletedSince_pruned hview]
  onTree change t _ hlt := pruned_onTree change t hlt
  applyTo w t _ hlt := pruned_applyTo w t hlt

/-- No view in use is below what is at most the oldest one. -/
theorem HeldViews.seenFrom {db : Database} {horizon : Nat} (hv : HeldViews db)
    (hh : horizon ≤ db.pins.horizon db.published) : db.SeenFrom horizon where
  published := Nat.le_trans hh (HeldViews.horizon_le_published db)
  cycle hc := Nat.le_trans hh (hv.horizon_le_cycle hc)
  cursor hc := Nat.le_trans hh (hv.horizon_le_cursor hc)

/-- Every call but those of compaction answers on a database pruned no higher than its oldest view
as on the database itself. -/
theorem Call.mirrors {horizon : Nat} {s : Site} (hv : HeldViews s.db)
    (hh : horizon ≤ s.db.pins.horizon s.db.published) (now : Nat) {c : Call}
    (hc : c.isOfCompaction = false) :
    Mirrors (Site.prunedAt horizon) s (c.attempt now) (c.attempt now) := by
  show Mirrors (Site.map (prunedAt horizon)) s (c.attempt now) (c.attempt now)
  rw [prunedAt_eq_image]
  exact Call.mirrors_image (faithful_pruned horizon) (hv.seenFrom hh) rfl now hc

end SnapshotKv
