import SnapshotKv.Proofs.Contents
import SnapshotKv.Proofs.StoreCalls

/-!
# Saving stores

The calls that write the contents of a database to disk go through its stores one by one. `Saved`
lists how it ends for one store, so an invariant that holds for the three cases holds for the calls.

Results:
1. `saved`: how saving one store ends.
2. `persist_induct`, `sync_induct`, `on_close`: what saving one store keeps, the calls keep.
3. `clean_of_persist`, `clean_of_sync`, `clean_of_close`: after a success no store that can be found
   is dirty.
-/

namespace SnapshotKv

open Storage

/-! ## 1. One store -/

/-- The store without commits that its data file lacks. -/
def Store.clean (s : Store) : Store := { s with dirty := false }

/-- How saving the store of a number ends. -/
inductive Saved (s : Site) (cell : Nat) : Except Fault Unit × Site → Prop
  /-- There was nothing to save. -/
  | skipped (hclean : ∀ st, s.db.cells.get? cell = some st → st.dirty = false) :
      Saved s cell (.ok (), s)
  | written {st : Store} {fs : FileSystem} (hs : s.db.cells.get? cell = some st)
      (hdirty : st.dirty = true)
      (hfile : (saveDataFile (s.db.catalog.dataFile st.name) st.prefixLength
        (st.tree.liveRecords s.db.published)).on s.fs = (.ok (), fs)) :
      Saved s cell (.ok (), ⟨s.db.modifyStore cell Store.clean, fs⟩)
  /-- The data file could not be written. -/
  | unwritten {st : Store} {f : Fault} {fs : FileSystem} (hs : s.db.cells.get? cell = some st)
      (hdirty : st.dirty = true)
      (hfile : (saveDataFile (s.db.catalog.dataFile st.name) st.prefixLength
        (st.tree.liveRecords s.db.published)).on s.fs = (.error f, fs)) :
      Saved s cell (.error (f.about st.name), { s with fs })

theorem saved (s : Site) (cell : Nat) : Saved s cell ((persistCell cell).on s) := by
  simp only [persistCell, Attempt.on_bind, Attempt.on_get]
  cases hs : s.db.cells.get? cell with
  | none =>
    refine .skipped fun st hst => ?_
    cases hs.symm.trans hst
  | some st =>
    simp only
    cases hdirty : st.dirty with
    | false =>
      refine .skipped fun st' hst' => ?_
      obtain rfl := Option.some.inj (hs.symm.trans hst')
      exact hdirty
    | true =>
      simp only [↓reduceIte, about, Attempt.on_bind, Attempt.on_ofStep, on_onFiles, on_update]
      cases hfile : (saveDataFile (s.db.catalog.dataFile st.name) st.prefixLength
        (st.tree.liveRecords s.db.published)).on s.fs with
      | mk written fs =>
        cases written with
        | error f => exact .unwritten hs hdirty hfile
        | ok _ => exact .written hs hdirty hfile

/-- Saving a store changes the stores alone. -/
theorem Saved.same {s : Site} {cell : Nat} {o : Except Fault Unit × Site} (h : Saved s cell o) :
    ∃ cells, o.2.db = { s.db with cells } := by
  cases h with
  | skipped hclean | unwritten hs hdirty hfile => exact ⟨s.db.cells, rfl⟩
  | written hs hdirty hfile => exact ⟨_, rfl⟩

theorem Saved.stores {s : Site} {cell : Nat} {o : Except Fault Unit × Site} (h : Saved s cell o) :
    o.2.db.stores = s.db.stores := by
  obtain ⟨cells, heq⟩ := h.same
  rw [heq]

/-- Saving a store leaves the trees as they are. -/
theorem Saved.tree {s : Site} {cell : Nat} {o : Except Fault Unit × Site} (h : Saved s cell o)
    {i : Nat} {st' : Store} (hs' : o.2.db.cells.get? i = some st') :
    ∃ st, s.db.cells.get? i = some st ∧ st'.tree = st.tree := by
  cases h with
  | skipped hclean | unwritten hs hdirty hfile => exact ⟨st', hs', rfl⟩
  | written hs hdirty hfile =>
    rw [ContentsLemmas.get?_modifyStore] at hs'
    split at hs'
    · obtain ⟨st, hs, rfl⟩ := Option.map_eq_some_iff.1 hs'
      exact ⟨st, hs, rfl⟩
    · exact ⟨st', hs', rfl⟩

/-! ## 2. All stores -/

/-- What saving one store keeps, saving all that can be found keeps. -/
theorem persist_induct {P : Site → Prop}
    (hkeep : ∀ s cell o, cell ∈ s.db.stores.values → Saved s cell o → P s → P o.2)
    {s : Site} (hs : P s) : P (persist.on s).2 := by
  have hall : ∀ (cells : List Nat) (s : Site), (∀ cell ∈ cells, cell ∈ s.db.stores.values) → P s →
      P ((cells.forM persistCell).on s).2 := by
    intro cells
    induction cells with
    | nil => exact fun _ _ => id
    | cons cell rest ih =>
      intro s hcells hs
      obtain ⟨hcell, hrest⟩ := List.forall_mem_cons.1 hcells
      have hone := hkeep s cell _ hcell (saved s cell) hs
      have hstores := (saved s cell).stores
      show P ((persistCell cell >>= fun _ => rest.forM persistCell).on s).2
      rw [Attempt.on_bind]
      revert hone hstores
      cases (persistCell cell).on s with
      | mk r s' =>
        intro hone hstores
        cases r with
        | error f => exact hone
        | ok _ => exact ih s' (fun cell hcell => hstores ▸ hrest cell hcell) hone
  simp only [persist, Attempt.on_bind, Attempt.on_get]
  split
  · exact hall _ s (fun _ => id) hs
  · exact hs

/-- Writing the committed contents to disk keeps what saving one store keeps. -/
theorem sync_induct {P : Site → Prop}
    (hkeep : ∀ s cell o, cell ∈ s.db.stores.values → Saved s cell o → P s → P o.2)
    {s : Site} (hs : P s) : P (sync.on s).2 := by
  simp only [sync, Attempt.on_bind, Attempt.on_get, Attempt.on_check]
  cases s.db.checkOpen with
  | error f => exact hs
  | ok _ => exact persist_induct hkeep hs

/-- A database that is closed, and not yet unlocked, has all that saving one store keeps. -/
theorem on_close (s : Site) : close.on s =
    if s.db.closed then (.ok (), s)
    else
      let o := persist.on ⟨{ s.db with closed := true }, s.fs⟩
      (o.1, { o.2 with fs := o.2.fs.unlock o.2.db.lock }) := by
  simp only [close, Attempt.on_bind, Attempt.on_get]
  cases s.db.closed with
  | true => rfl
  | false => rfl

/-- Closing marks the database as closed, and changes the stores alone besides. -/
theorem close_same {s : Site} (hopen : s.db.closed = false) :
    ∃ cells, (close.on s).2.db = { s.db with closed := true, cells } := by
  rw [on_close, hopen]
  refine persist_induct (P := fun s' => ∃ cells, s'.db = { s.db with closed := true, cells }) ?_
    ⟨s.db.cells, rfl⟩
  rintro s' cell o - hends ⟨cells, heq⟩
  obtain ⟨cells', heq'⟩ := hends.same
  exact ⟨cells', heq'.trans (by rw [heq])⟩

/-! ## 3. Success -/

/-- Saving a store leaves no store dirty that was clean, and after a success not this one. -/
theorem Saved.clean {s : Site} {cell : Nat} {o : Except Fault Unit × Site} (h : Saved s cell o)
    {i : Nat} {st' : Store} (hs' : o.2.db.cells.get? i = some st') :
    (∃ st, s.db.cells.get? i = some st ∧ (st.dirty = false → st'.dirty = false)) ∧
      (o.1 = .ok () → i = cell → st'.dirty = false) := by
  cases h with
  | skipped hclean => exact ⟨⟨st', hs', id⟩, fun _ hi => hclean st' (hi ▸ hs')⟩
  | unwritten hs hdirty hfile => exact ⟨⟨st', hs', id⟩, fun hok => nomatch hok⟩
  | @written st fs hs hdirty hfile =>
    rw [ContentsLemmas.get?_modifyStore] at hs'
    split at hs'
    · obtain ⟨st, hs, rfl⟩ := Option.map_eq_some_iff.1 hs'
      exact ⟨⟨st, hs, fun _ => rfl⟩, fun _ _ => rfl⟩
    · next hne => exact ⟨⟨st', hs', id⟩, fun _ hi => absurd hi.symm hne⟩

/-- After all stores were saved none of them is dirty. -/
theorem clean_of_persist {s s' : Site} (h : persist.on s = (.ok (), s'))
    (hwritable : s.db.settings.readOnly = false) {cell : Nat} (hcell : cell ∈ s.db.stores.values)
    {st' : Store} (hs' : s'.db.cells.get? cell = some st') : st'.dirty = false := by
  have hall : ∀ (cells : List Nat) (s : Site), (cells.forM persistCell).on s = (.ok (), s') →
      (cell ∈ cells ∨ ∀ st, s.db.cells.get? cell = some st → st.dirty = false) →
        st'.dirty = false := by
    intro cells
    induction cells with
    | nil =>
      intro s h hclean
      cases h
      rcases hclean with hmem | hclean
      · cases hmem
      · exact hclean st' hs'
    | cons first rest ih =>
      intro s h hclean
      obtain ⟨_, s₁, hfirst, hrest⟩ := Attempt.ok_of_bind (a := persistCell first) h
      have hsaved := saved s first
      rw [hfirst] at hsaved
      refine ih s₁ hrest ?_
      rcases hclean with hmem | hclean
      · rcases List.mem_cons.1 hmem with rfl | hmem
        · exact .inr fun st hs => (hsaved.clean hs).2 rfl rfl
        · exact .inl hmem
      · refine .inr fun st hs => ?_
        obtain ⟨⟨st₀, hs₀, hdirty⟩, -⟩ := hsaved.clean hs
        exact hdirty (hclean st₀ hs₀)
  simp only [persist, Attempt.on_bind, Attempt.on_get, hwritable, Bool.not_false, ↓reduceIte] at h
  exact hall _ s h (.inl hcell)

/-- After the contents were written to disk with success no store is dirty. -/
theorem clean_of_sync {s s' : Site} (h : sync.on s = (.ok (), s'))
    (hwritable : s.db.settings.readOnly = false) {cell : Nat} (hcell : cell ∈ s.db.stores.values)
    {st' : Store} (hs' : s'.db.cells.get? cell = some st') : st'.dirty = false := by
  simp only [sync, Attempt.on_bind, Attempt.on_get, Attempt.on_check] at h
  cases hopen : s.db.checkOpen with
  | error f =>
    rw [hopen] at h
    cases h
  | ok _ =>
    rw [hopen] at h
    exact clean_of_persist h hwritable hcell hs'

/-- After a database was closed with success none of its stores is dirty. -/
theorem clean_of_close {s s' : Site} (h : close.on s = (.ok (), s')) (hopen : s.db.closed = false)
    (hwritable : s.db.settings.readOnly = false) {cell : Nat} (hcell : cell ∈ s.db.stores.values)
    {st' : Store} (hs' : s'.db.cells.get? cell = some st') : st'.dirty = false := by
  rw [on_close, hopen] at h
  obtain ⟨hok, hsite⟩ := Prod.mk.inj h
  subst hsite
  exact clean_of_persist (s := ⟨{ s.db with closed := true }, s.fs⟩) (Prod.ext hok rfl) hwritable hcell
    hs'

end SnapshotKv
