import SnapshotKv.Proofs.Enumeration
import SnapshotKv.Proofs.ScanPaths

/-!
# Databases that readers cannot tell apart

A reader sees of a tree what its view sees, and whether a newer prefix deletion has outdated a scan.
Where two trees agree on this for some views, and all views in use are among them, no call that only
reads tells the two databases apart, nor do the cursors and transactions that come of such calls.

Results:
1. `VersionTree.Agrees`, `Database.Agrees`: databases with trees that some views see alike.
2. `Together`: attempts with one result on both, which leave databases that agree; one lemma for each
   call that only reads.
3. `Agrees.answers`: whatever is read, and in whatever order, the answers are the same.
-/

namespace SnapshotKv

open Database

/-! ## 1. Agreement -/

/-- Two trees in which some views see the same, and find the same scans outdated. -/
structure VersionTree.Agrees (views : Nat → Prop) (t t' : VersionTree) : Prop where
  get : ∀ view, views view → ∀ key, t'.get key view = t.get key view
  outdates : ∀ view, views view → ∀ filter,
    t'.prefixDeletedSince filter view = t.prefixDeletedSince filter view

/-- Two stores that differ in their contents alone, where some views see no difference. -/
structure Store.Agrees (views : Nat → Prop) (s s' : Store) : Prop where
  frame : s'.frame = s.frame
  tree : s.tree.Agrees views s'.tree

/-- The database agrees with the one that has other stores in place of its own: the stores agree in
some views, and these are all the views in use. -/
structure Database.Agrees (views : Nat → Prop) (db : Database) (cells : Pool Store) : Prop where
  cells : ∀ i, (db.cells.get? i = none ∧ cells.get? i = none) ∨
    ∃ s s', db.cells.get? i = some s ∧ cells.get? i = some s' ∧ s.Agrees views s'
  published : views db.published
  cycle : ∀ t c, db.txns.get? t = some (.active c) → views c.view
  cursor : ∀ i c, db.cursors.get? i = some c → views c.view

/-- The first attempt on the database and the second one on that with the other stores end with the
same result, and leave databases that agree. -/
def Together {α : Type} (views : Nat → Prop) (db : Database) (cells : Pool Store)
    (a a' : Attempt Database α) : Prop :=
  ∃ cells', a'.on { db with cells } = ((a.on db).1, { (a.on db).2 with cells := cells' }) ∧
    (a.on db).2.Agrees views cells'

namespace AgreementLemmas

variable {views : Nat → Prop} {α β : Type} {db : Database} {cells : Pool Store}

section Stores

variable {s s' : Store}

theorem name_eq (h : s.Agrees views s') : s'.name = s.name := by
  show s'.frame.name = s.frame.name
  rw [h.frame]

theorem prefixLength_eq (h : s.Agrees views s') : s'.prefixLength = s.prefixLength := by
  show s'.frame.prefixLength = s.frame.prefixLength
  rw [h.frame]

/-- A change of the frames of stores. -/
theorem agrees_modifyStore (h : db.Agrees views cells) (cell : Nat) {f : Store → Store}
    (hframe : ∀ s s' : Store, s'.frame = s.frame → (f s').frame = (f s).frame)
    (htree : ∀ s, (f s).tree = s.tree) :
    (db.modifyStore cell f).Agrees views (cells.modify cell f) :=
  { h with
    cells := fun i => by
      rw [ContentsLemmas.get?_modifyStore, Pool.get?_modify]
      rcases h.cells i with ⟨hnone, hnone'⟩ | ⟨s, s', hs, hs', hagrees⟩
      · rw [hnone, hnone']
        exact .inl ⟨ite_self _, ite_self _⟩
      · rw [hs, hs']
        split
        · refine .inr ⟨_, _, rfl, rfl, hframe s s' hagrees.frame, ?_⟩
          rw [htree, htree]
          exact hagrees.tree
        · exact .inr ⟨s, s', rfl, rfl, hagrees⟩ }

/-- What a cursor lists, its searches find, wherever it stands. -/
theorem findsSame (h : s.Agrees views s') {c : Cursor} (hview : views c.view) :
    MirrorLemmas.FindsSame c s.tree s'.tree := by
  intro c' hc'
  rw [Cursor.find_eq, Cursor.find_eq,
    EnumerationLemmas.listing_congr c' fun key => h.tree.get _ (hc' ▸ hview) key]

theorem isOutdated_eq (h : s.Agrees views s') {c : Cursor} (hview : views c.view) :
    c.isOutdated s'.tree = c.isOutdated s.tree := by
  unfold Cursor.isOutdated
  rw [h.tree.outdates c.view hview]

end Stores

/-! ## 2. Attempts on both -/

section Rules

theorem together_pure (h : db.Agrees views cells) (x : α) :
    Together views db cells (pure x) (pure x) := ⟨cells, rfl, h⟩

theorem together_throw (h : db.Agrees views cells) (f : Fault) :
    Together views db cells (throw f : Attempt Database α) (throw f) := ⟨cells, rfl, h⟩

theorem together_set {db' db'' : Database} {cells' : Pool Store} (h : db'.Agrees views cells')
    (heq : db'' = { db' with cells := cells' }) :
    Together views db cells (set db') (set db'') := by
  subst heq
  exact ⟨cells', rfl, h⟩

theorem together_bind {a a' : Attempt Database α} {f f' : α → Attempt Database β}
    (hab : Together views db cells a a')
    (h : ∀ x db' cells', a.on db = (.ok x, db') → db'.Agrees views cells' →
      Together views db' cells' (f x) (f' x)) :
    Together views db cells (a >>= f) (a' >>= f') := by
  obtain ⟨cells', heq, hagrees⟩ := hab
  unfold Together
  rw [Attempt.on_bind, Attempt.on_bind, heq]
  revert h hagrees
  cases a.on db with
  | mk r db' =>
    cases r with
    | error e => exact fun _ hagrees => ⟨cells', rfl, hagrees⟩
    | ok x => exact fun h hagrees => h x db' cells' rfl hagrees

theorem together_get_bind {f f' : Database → Attempt Database β}
    (h : Together views db cells (f db) (f' { db with cells })) :
    Together views db cells (get >>= f) (get >>= f') := h

/-- A check with one result on both. -/
theorem together_check_bind (h : db.Agrees views cells) {r : Except Fault α}
    {f f' : α → Attempt Database β}
    (hf : ∀ x, r = .ok x → Together views db cells (f x) (f' x)) :
    Together views db cells (Attempt.check r >>= f) (Attempt.check r >>= f') := by
  cases r with
  | error e => exact together_throw h e
  | ok x => exact hf x rfl

theorem together_if (h : db.Agrees views cells) {p : Prop} [Decidable p] {f : Fault}
    {a a' : Attempt Database α} (ha : Together views db cells a a') :
    Together views db cells (if p then throw f else a) (if p then throw f else a') := by
  by_cases hp : p
  · rw [if_pos hp, if_pos hp]
    exact together_throw h f
  · rwa [if_neg hp, if_neg hp]

/-- The same handle has stores that agree. -/
theorem together_handleStore_bind (h : db.Agrees views cells) (handle : Nat)
    {f f' : Handle × Store → Attempt Database β}
    (hf : ∀ hd s s', s.Agrees views s' → Together views db cells (f (hd, s)) (f' (hd, s'))) :
    Together views db cells (Attempt.check (db.handleStore handle) >>= f)
      (Attempt.check (handleStore { db with cells } handle) >>= f') := by
  unfold handleStore
  cases db.handles.get? handle with
  | none => exact together_throw h _
  | some hd =>
    rcases h.cells hd.cell with ⟨hnone, hnone'⟩ | ⟨s, s', hs, hs', hagrees⟩
    · simp only [hnone, hnone']
      exact together_throw h _
    · simp only [hs, hs']
      exact hf hd s s' hagrees

theorem together_cursorStore_bind (h : db.Agrees views cells) (cursor : Nat)
    {f f' : Cursor × Store → Attempt Database β}
    (hf : ∀ c s s', db.cursors.get? cursor = some c → s.Agrees views s' →
      Together views db cells (f (c, s)) (f' (c, s'))) :
    Together views db cells (Attempt.check (db.cursorStore cursor) >>= f)
      (Attempt.check (cursorStore { db with cells } cursor) >>= f') := by
  unfold cursorStore
  cases hc : db.cursors.get? cursor with
  | none => exact together_throw h _
  | some c =>
    rcases h.cells c.cell with ⟨hnone, hnone'⟩ | ⟨s, s', hs, hs', hagrees⟩
    · simp only [hnone, hnone']
      exact together_throw h _
    · simp only [hs, hs']
      exact hf c s s' hc hagrees

theorem together_storeNamed_bind (h : db.Agrees views cells) (name : String)
    {f f' : Nat × Store → Attempt Database β}
    (hf : ∀ cell s s', s.Agrees views s' → Together views db cells (f (cell, s)) (f' (cell, s'))) :
    Together views db cells (Attempt.check (db.storeNamed name) >>= f)
      (Attempt.check (storeNamed { db with cells } name) >>= f') := by
  unfold storeNamed
  cases db.stores.get? name with
  | none => exact together_throw h _
  | some cell =>
    rcases h.cells cell with ⟨hnone, hnone'⟩ | ⟨s, s', hs, hs', hagrees⟩
    · simp only [hnone, hnone']
      exact together_throw h _
    · simp only [hs, hs']
      exact hf cell s s' hagrees

end Rules

/-! ### Stores and transactions -/

theorem together_openStore (h : db.Agrees views cells) (name : String) (params : List String) :
    Together views db cells (openStore name params) (openStore name params) := by
  refine together_get_bind (together_check_bind h fun _ _ => ?_)
  refine together_storeNamed_bind h name fun cell s s' hs => ?_
  refine together_check_bind h fun settings _ => ?_
  have hopen : s'.isOpen = s.isOpen := ContentsLemmas.isOpen_of_frame hs.frame
  simp only [hopen]
  refine together_if h (together_bind (together_set ?_ rfl) fun _ _ _ _ h' => together_pure h' _)
  have hmodify := agrees_modifyStore h cell (f := fun s => { s with isOpen := true })
    (fun s s' hf => congrArg (fun s : Store => { s with isOpen := true }) hf) fun _ => rfl
  exact { hmodify with }

theorem agrees_closeStore (h : db.Agrees views cells) (handle : Nat) :
    ∃ cells', closeStore { db with cells } handle = { db.closeStore handle with cells := cells' } ∧
      (db.closeStore handle).Agrees views cells' := by
  unfold closeStore
  cases db.handles.get? handle with
  | none => exact ⟨cells, rfl, h⟩
  | some hd =>
    have hmodify := agrees_modifyStore h hd.cell (f := fun s => { s with isOpen := false })
      (fun s s' hf => congrArg (fun s : Store => { s with isOpen := false }) hf) fun _ => rfl
    exact ⟨_, rfl, { hmodify with }⟩

theorem storeParam_eq (h : db.Agrees views cells) (handle : Nat) (key : String) :
    storeParam { db with cells } handle key = db.storeParam handle key := by
  unfold storeParam handleStore
  simp only [bind, Except.bind]
  cases db.handles.get? handle with
  | none => rfl
  | some hd =>
    rcases h.cells hd.cell with ⟨hnone, hnone'⟩ | ⟨s, s', hs, hs', hagrees⟩
    · simp only [hnone, hnone']
    · simp only [hs, hs', pure, Except.pure, name_eq hagrees, prefixLength_eq hagrees]

theorem agrees_endCycle (h : db.Agrees views cells) (t : Nat) (c : Cycle) :
    (db.endCycle t c .aborted).Agrees views cells :=
  { h with
    cycle := fun t' c' hc' => h.cycle t' c' (HeldViewsLemmas.active_of_endCycle rfl hc').2 }

theorem together_activeCycle (h : db.Agrees views cells) (now t : Nat) :
    Together views db cells (activeCycle now t) (activeCycle now t) := by
  refine together_get_bind (together_check_bind h fun _ _ => ?_)
  refine together_check_bind h fun x hx => ?_
  cases x with
  | active c =>
    have hexpired : isExpired { db with cells } now c = db.isExpired now c := rfl
    simp only [hexpired]
    split
    · exact together_bind (together_set (agrees_endCycle h t c) rfl) fun _ _ _ _ h' =>
        together_throw h' _
    · exact together_pure h c
  | invalid | committed | aborted => exact together_throw h _

/-- A sequence that starts with the cycle of an active transaction. -/
theorem together_activeCycle_bind (h : db.Agrees views cells) {now t : Nat}
    {f f' : Cycle → Attempt Database β}
    (hf : ∀ c cells', db.Agrees views cells' → views c.view →
      Together views db cells' (f c) (f' c)) :
    Together views db cells (activeCycle now t >>= f) (activeCycle now t >>= f') := by
  refine together_bind (together_activeCycle h now t) fun c db' cells' hc h' => ?_
  obtain ⟨rfl, hactive⟩ := StepLemmas.activeCycle_ok hc
  exact hf c cells' h' (h'.cycle t c hactive)

theorem together_allocTxn (h : db.Agrees views cells) :
    Together views db cells allocTxn allocTxn :=
  ⟨cells, rfl, { h with
    cycle := fun t c hc => h.cycle t c (HeldViewsLemmas.active_of_allocTxn hc) }⟩

theorem together_beginTxn (h : db.Agrees views cells) (now t : Nat) :
    Together views db cells (beginTxn now t) (beginTxn now t) := by
  refine together_get_bind (together_check_bind h fun _ _ => ?_)
  refine together_check_bind h fun x hx => ?_
  cases x with
  | active c => exact together_throw h _
  | invalid | committed | aborted =>
    refine together_set (show Agrees views _ cells from
      { h with cycle := fun t' c' hc' => ?_ }) rfl
    rcases HeldViewsLemmas.get?_setTxn hc' with ⟨-, hc'⟩ | ⟨-, heq⟩
    · exact h.cycle t' c' hc'
    · -- the new cycle has the published view
      cases heq
      exact h.published

theorem together_abortTxn (h : db.Agrees views cells) (t : Nat) :
    Together views db cells (abortTxn t) (abortTxn t) := by
  refine together_get_bind (together_check_bind h fun x _ => ?_)
  cases x with
  | active c => exact together_set (agrees_endCycle h t c) rfl
  | invalid | committed | aborted => exact together_throw h _

/-! ### Reads -/

theorem checkAccess_eq {s s' : Store} (hs : s.Agrees views s') (hd : Handle) (bound : Bool)
    (access : Access) :
    checkAccess { db with cells } hd s' bound access = db.checkAccess hd s bound access := by
  unfold checkAccess
  rw [name_eq hs]
  rfl

theorem together_getRecord (h : db.Agrees views cells) (now handle : Nat) (txn : Option Nat)
    (key : Bytes) :
    Together views db cells (getRecord now handle txn key) (getRecord now handle txn key) := by
  refine together_get_bind (together_handleStore_bind h handle fun hd s s' hs => ?_)
  simp only [checkAccess_eq hs]
  refine together_check_bind h fun _ _ => together_check_bind h fun _ _ => ?_
  cases txn with
  | none =>
    have hget := hs.tree.get db.published h.published key
    simp only [hget]
    exact together_pure h _
  | some t =>
    refine together_activeCycle_bind h fun c cells' h' hview => ?_
    have hid : s'.id = s.id := ContentsLemmas.id_of_frame hs.frame
    simp only [hid, hs.tree.get c.view hview]
    cases (c.writesTo s.id).lookup key <;> exact together_pure h' _

theorem agrees_addCursor (h : db.Agrees views cells) {c : Cursor} (hview : views c.view)
    (pins : Pins) : Agrees views { db with cursors := db.cursors.add c, pins } cells :=
  { h with
    cursor := fun i c' hc' => by
      rcases Pool.get?_add_eq_some hc' with hc' | ⟨-, rfl⟩
      · exact h.cursor i c' hc'
      · exact hview }

theorem together_openCursor (h : db.Agrees views cells) (now handle : Nat) (txn : Option Nat)
    (filter : Bytes) (reverse : Bool) :
    Together views db cells (openCursor now handle txn filter reverse)
      (openCursor now handle txn filter reverse) := by
  refine together_get_bind (together_handleStore_bind h handle fun hd s s' hs => ?_)
  have hid : s'.id = s.id := ContentsLemmas.id_of_frame hs.frame
  simp only [checkAccess_eq hs, prefixLength_eq hs, hid]
  refine together_check_bind h fun _ _ => together_check_bind h fun _ _ => ?_
  cases txn with
  | none => exact ⟨cells, rfl, agrees_addCursor h h.published _⟩
  | some t =>
    refine together_activeCycle_bind h fun c cells' h' hview => ?_
    exact ⟨cells', rfl, agrees_addCursor h' hview _⟩

theorem agrees_closeCursor (h : db.Agrees views cells) (cursor : Nat) :
    closeCursor { db with cells } cursor = { db.closeCursor cursor with cells } ∧
      (db.closeCursor cursor).Agrees views cells := by
  unfold closeCursor
  cases db.cursors.get? cursor with
  | none => exact ⟨rfl, h⟩
  | some c =>
    refine ⟨rfl, { h with cursor := fun i c' hc' => ?_ }⟩
    rw [Pool.get?_remove] at hc'
    split at hc'
    · cases hc'
    · exact h.cursor i c' hc'

theorem agrees_modifyCursor (h : db.Agrees views cells) {cursor : Nat} {f : Cursor → Cursor}
    (hf : ∀ c, views c.view → views (f c).view) (pins : Pins) :
    Agrees views { db with cursors := db.cursors.modify cursor f, pins } cells :=
  { h with
    cursor := fun i c' hc' => by
      have hc' : (db.cursors.modify cursor f).get? i = some c' := hc'
      rw [Pool.get?_modify] at hc'
      split at hc'
      · obtain ⟨c, hc, rfl⟩ := Option.map_eq_some_iff.1 hc'
        exact hf c (h.cursor i c hc)
      · exact h.cursor i c' hc' }

/-- A call on a cursor that does the same on trees in which the cursor finds the same. -/
theorem together_onCursor (h : db.Agrees views cells) (i : Nat)
    {call : Store → Except Fault Unit → Attempt Cursor α}
    (hscope : ∀ s ready c, ((call s ready).on c).2.scope = c.scope)
    (hcall : ∀ s s' ready c, s.Agrees views s' → views c.view →
      (call s' ready).on c = (call s ready).on c) :
    Together views db cells (onCursor i call) (onCursor i call) := by
  refine together_get_bind (together_cursorStore_bind h i fun c s s' hc hs => ?_)
  have hview := h.cursor i c hc
  have hready : checkReady { db with cells } c s' = db.checkReady c s := by
    unfold checkReady
    rw [name_eq hs, isOutdated_eq hs hview]
    rfl
  simp only [hready, hcall s s' _ c hs hview]
  have hscoped := congrArg Cursor.view (hscope s (db.checkReady c s) c)
  refine together_bind (together_set (agrees_modifyCursor h (fun _ _ => ?_) db.pins) rfl)
    fun _ _ _ _ h' => ?_
  · exact hscoped ▸ hview
  · exact ⟨_, rfl, h'⟩

theorem together_readCursor (h : db.Agrees views cells) (i : Nat) :
    Together views db cells (readCursor i) (readCursor i) :=
  together_onCursor h i (fun s ready c => StepLemmas.scope_read ready s.tree c)
    fun _ _ ready _ hs hview => MirrorLemmas.mirrors_read (f := id) ready (findsSame hs hview)

theorem together_seekCursor (h : db.Agrees views cells) (i : Nat) (key : Bytes) :
    Together views db cells (seekCursor i key) (seekCursor i key) :=
  together_onCursor h i (fun s ready c => StepLemmas.scope_seek ready s.tree key c)
    fun _ _ ready _ hs hview => MirrorLemmas.mirrors_seek (f := id) ready key (findsSame hs hview)

theorem together_seekRangeCursor (h : db.Agrees views cells) (i : Nat) (low high : Bytes) :
    Together views db cells (seekRangeCursor i low high) (seekRangeCursor i low high) :=
  together_onCursor h i (fun s ready c => StepLemmas.scope_seekRange s.name ready s.tree low high c)
    fun s s' ready _ hs hview => by
      rw [name_eq hs]
      exact MirrorLemmas.mirrors_seekRange (f := id) s.name ready low high (findsSame hs hview)

theorem together_refreshCursor (h : db.Agrees views cells) (i : Nat) :
    Together views db cells (refreshCursor i) (refreshCursor i) := by
  refine together_get_bind (together_check_bind h fun _ _ => ?_)
  refine together_cursorStore_bind h i fun c s s' hc hs => ?_
  simp only
  split
  · exact together_set (agrees_modifyCursor h (fun _ _ => h.published) _) rfl
  · exact together_pure h ()

end AgreementLemmas

open AgreementLemmas

/-- Whether a call neither writes, commits or saves anything, nor looks at how the contents are
stored. -/
def Call.onlyReads : Call → Bool
  | .param _ | .storeNames | .openStore _ _ | .closeStore _ | .storeParam _ _ | .get _ _ _
  | .allocTxn | .beginTxn _ | .abortTxn _ | .txnState _ | .openCursor _ _ _ _ | .closeCursor _
  | .readCursor _ | .seekCursor _ _ | .seekRangeCursor _ _ _ | .refreshCursor _
  | .mediaUsage _ => true
  | _ => false

/-- Whether an event is a call that only reads. -/
def Event.onlyReads : Event → Bool
  | .call _ c => c.onlyReads
  | .files _ => false

namespace AgreementLemmas

variable {views : Nat → Prop} {s : Site} {cells : Pool Store}

/-- The site with other stores in place of its own. -/
def withCells (s : Site) (cells : Pool Store) : Site := { s with db := { s.db with cells } }

theorem mediaUsage_eq (m : MediaClass) :
    ((Storage.mediaUsage m).on (withCells s cells)).1 = ((Storage.mediaUsage m).on s).1 := by
  simp only [Storage.mediaUsage, Attempt.on_bind, Attempt.on_get, withCells]
  cases s.db.catalog.mediaPath? m with
  | none => rfl
  | some path =>
    simp only [Attempt.on_bind, Storage.on_onFiles, Attempt.ask, Attempt.on_ofStep]
    cases s.fs.readDirectory path <;> rfl

theorem agrees_onDatabase {α : Type} {a : Attempt Database α} (g : α → Reply)
    (h : Together views s.db cells a a) :
    ∃ cells', (g <$> Storage.onDatabase a).on (withCells s cells) =
        (((g <$> Storage.onDatabase a).on s).1,
          withCells ((g <$> Storage.onDatabase a).on s).2 cells') ∧
      ((g <$> Storage.onDatabase a).on s).2.db.Agrees views cells' := by
  obtain ⟨cells', heq, hagrees⟩ := h
  refine ⟨cells', ?_, ?_⟩
  · simp only [Attempt.on_map, Storage.on_onDatabase, withCells, heq]
  · simpa only [Attempt.on_map, Storage.on_onDatabase] using hagrees

theorem agrees_ask {α : Type} {f : Database → Except Fault α} (g : α → Reply)
    (h : s.db.Agrees views cells) (hf : f { s.db with cells } = f s.db) :
    ∃ cells', (g <$> Storage.ask f).on (withCells s cells) =
        (((g <$> Storage.ask f).on s).1, withCells ((g <$> Storage.ask f).on s).2 cells') ∧
      ((g <$> Storage.ask f).on s).2.db.Agrees views cells' := by
  refine ⟨cells, ?_, ?_⟩
  · simp only [Attempt.on_map, Storage.on_ask, withCells, hf]
  · simpa only [Attempt.on_map, Storage.on_ask] using h

end AgreementLemmas

/-- A call that only reads answers the same on sites that agree, and leaves sites that agree. -/
theorem Call.agrees {views : Nat → Prop} {s : Site} {cells : Pool Store}
    (h : s.db.Agrees views cells) (now : Nat) {c : Call} (hc : c.onlyReads = true) :
    ∃ cells', (c.attempt now).on (withCells s cells) =
        (((c.attempt now).on s).1, withCells ((c.attempt now).on s).2 cells') ∧
      ((c.attempt now).on s).2.db.Agrees views cells' := by
  cases c with
  | param key => exact agrees_ask _ h rfl
  | storeNames => exact agrees_ask _ h rfl
  | openStore name params => exact agrees_onDatabase _ (together_openStore h name params)
  | closeStore handle =>
    obtain ⟨cells', heq, hagrees⟩ := agrees_closeStore h handle
    refine ⟨cells', ?_, hagrees⟩
    simp only [attempt, Attempt.on_map, Storage.on_update, withCells, heq]
  | storeParam handle key => exact agrees_ask _ h (storeParam_eq h handle key)
  | get handle txn key => exact agrees_onDatabase _ (together_getRecord h now handle txn key)
  | allocTxn => exact agrees_onDatabase _ (together_allocTxn h)
  | beginTxn t => exact agrees_onDatabase _ (together_beginTxn h now t)
  | abortTxn t => exact agrees_onDatabase _ (together_abortTxn h t)
  | txnState t => exact agrees_ask _ h rfl
  | openCursor handle txn filter reverse =>
    exact agrees_onDatabase _ (together_openCursor h now handle txn filter reverse)
  | closeCursor cursor =>
    obtain ⟨heq, hagrees⟩ := agrees_closeCursor h cursor
    refine ⟨cells, ?_, hagrees⟩
    simp only [attempt, Attempt.on_map, Storage.on_update, withCells, heq]
  | readCursor cursor => exact agrees_onDatabase _ (together_readCursor h cursor)
  | seekCursor cursor key => exact agrees_onDatabase _ (together_seekCursor h cursor key)
  | seekRangeCursor cursor low high =>
    exact agrees_onDatabase _ (together_seekRangeCursor h cursor low high)
  | refreshCursor cursor => exact agrees_onDatabase _ (together_refreshCursor h cursor)
  | mediaUsage m =>
    refine ⟨cells, ?_, ?_⟩
    · rw [attempt, Attempt.on_map, Attempt.on_map, EditLemmas.on_mediaUsage,
        EditLemmas.on_mediaUsage, mediaUsage_eq]
    · rwa [attempt, Attempt.on_map, EditLemmas.on_mediaUsage]
  | _ => cases hc

/-! ## 3. Whatever is read -/

/-- Sites that agree give the same answers to any calls that only read. -/
theorem Database.Agrees.answers {views : Nat → Prop} {s : Site} {cells : Pool Store}
    (h : s.db.Agrees views cells) {events : List Event}
    (hreads : ∀ e ∈ events, e.onlyReads = true) :
    (withCells s cells).answers events = s.answers events := by
  induction events generalizing s cells with
  | nil => rfl
  | cons e rest ih =>
    obtain ⟨he, hrest⟩ := List.forall_mem_cons.1 hreads
    cases e with
    | files fs => cases he
    | call now c =>
      obtain ⟨cells', heq, hagrees⟩ := c.agrees h now he
      have hanswer : Event.answer (.call now c) (withCells s cells) =
        Event.answer (.call now c) s := (Prod.ext_iff.1 heq).1
      have hnext : Event.next (.call now c) (withCells s cells) =
        withCells (Event.next (.call now c) s) cells' := (Prod.ext_iff.1 heq).2
      have hanswers := ih (s := Event.next (.call now c) s) hagrees hrest
      unfold Site.answers
      rw [hanswer, hnext, hanswers]

end SnapshotKv
