import SnapshotKv.Proofs.Edits
import SnapshotKv.Proofs.HeldViews

/-!
# What calls leave of the stores

Calls that do not use the files leave the stores of a database where they are. Such a call may commit
to a store, but it marks it as dirty then; and it never takes the mark away. So a store that is clean
afterwards has kept its committed contents, whatever was compacted or published meanwhile.

Results:
1. `Retains`: what a database keeps; `Edit.retains`: every edit keeps it.
2. `Call.retains`: so does every call that does not use the files.
-/

namespace SnapshotKv

open Database ContentsLemmas

/-! ## 1. Edits -/

/-- A store is kept: what the catalog says of it, and when it is clean in the end, its contents. -/
structure Store.Kept (s s' : Store) (published published' : Nat) : Prop where
  id : s'.id = s.id
  name : s'.name = s.name
  prefixLength : s'.prefixLength = s.prefixLength
  clean : s'.dirty = false → s.dirty = false
  contents : s'.dirty = false → s.tree.UpTo published → s'.tree.UpTo published' ∧
    s'.tree.contents published' = s.tree.contents published

/-- A database keeps its place, its catalog and its stores. -/
structure Retains (db db' : Database) : Prop where
  home : db'.home = db.home
  settings : db'.settings = db.settings
  catalog : db'.catalog = db.catalog
  stores : db'.stores = db.stores
  lock : db'.lock = db.lock
  closed : db'.closed = db.closed
  cells : ∀ i s', db'.cells.get? i = some s' → ∃ s, db.cells.get? i = some s ∧
    s.Kept s' db.published db'.published

namespace Store.Kept

variable {s s' s'' : Store} {p p' p'' : Nat}

theorem refl (s : Store) (p : Nat) : s.Kept s p p :=
  ⟨rfl, rfl, rfl, fun hclean => hclean, fun _ ht => ⟨ht, rfl⟩⟩

theorem trans (h : s.Kept s' p p') (h' : s'.Kept s'' p' p'') : s.Kept s'' p p'' where
  id := h'.id.trans h.id
  name := h'.name.trans h.name
  prefixLength := h'.prefixLength.trans h.prefixLength
  clean := fun hclean => h.clean (h'.clean hclean)
  contents := fun hclean ht => by
    obtain ⟨ht', hcontents⟩ := h.contents (h'.clean hclean) ht
    obtain ⟨ht'', hcontents'⟩ := h'.contents hclean ht'
    exact ⟨ht'', hcontents'.trans hcontents⟩

/-- A store that becomes dirty may have any contents. -/
theorem of_dirty (hframe : s'.frame = s.frame) (hdirty : s'.dirty = true) : s.Kept s' p p' where
  id := id_of_frame hframe
  name := (congrArg Store.name hframe : s'.frame.name = s.frame.name)
  prefixLength := (congrArg Store.prefixLength hframe : s'.frame.prefixLength = s.frame.prefixLength)
  clean := fun hclean => absurd (hdirty.symm.trans hclean) (by decide)
  contents := fun hclean => absurd (hdirty.symm.trans hclean) (by decide)

/-- Nothing was committed to the store while others were published. -/
theorem of_le (s : Store) (h : p ≤ p') : s.Kept s p p' where
  id := rfl
  name := rfl
  prefixLength := rfl
  clean := fun hclean => hclean
  contents := fun _ ht => ⟨ht.mono h, SortedMap.ext_get? fun key => by
    rw [VersionTree.get?_contents, VersionTree.get?_contents, ht.get_eq h]⟩

theorem of_pruned (hid : s'.id = s.id) (hname : s'.name = s.name)
    (hlen : s'.prefixLength = s.prefixLength) (hdirty : s'.dirty = s.dirty) {horizon : Nat}
    (hle : horizon ≤ p) (htree : s'.tree = s.tree ∨ s'.tree = s.tree.pruned horizon) : s.Kept s' p p where
  id := hid
  name := hname
  prefixLength := hlen
  clean := fun hclean => hdirty ▸ hclean
  contents := fun _ ht => by
    rcases htree with htree | htree
    · rw [htree]
      exact ⟨ht, rfl⟩
    · rw [htree]
      exact ⟨ht.pruned horizon, VersionTree.contents_pruned hle⟩

end Store.Kept

namespace Retains

variable {db db' db'' : Database}

/-- The stores and what is published are the same. -/
theorem of_cells (hhome : db'.home = db.home) (hsettings : db'.settings = db.settings)
    (hcatalog : db'.catalog = db.catalog) (hstores : db'.stores = db.stores)
    (hlock : db'.lock = db.lock) (hclosed : db'.closed = db.closed) (hcells : db'.cells = db.cells)
    (hpublished : db'.published = db.published) : Retains db db' where
  home := hhome
  settings := hsettings
  catalog := hcatalog
  stores := hstores
  lock := hlock
  closed := hclosed
  cells := fun _ s hs => ⟨s, hcells ▸ hs, hpublished ▸ .refl s _⟩

theorem refl (db : Database) : Retains db db := of_cells rfl rfl rfl rfl rfl rfl rfl rfl

theorem trans (h : Retains db db') (h' : Retains db' db'') : Retains db db'' where
  home := h'.home.trans h.home
  settings := h'.settings.trans h.settings
  catalog := h'.catalog.trans h.catalog
  stores := h'.stores.trans h.stores
  lock := h'.lock.trans h.lock
  closed := h'.closed.trans h.closed
  cells := fun i s'' hs'' => by
    obtain ⟨s', hs', hkept'⟩ := h'.cells i s'' hs''
    obtain ⟨s, hs, hkept⟩ := h.cells i s' hs'
    exact ⟨s, hs, hkept.trans hkept'⟩

end Retains

theorem Edit.retains {db db' : Database} (h : Edit db db') : Retains db db' := by
  cases h with
  | txns txns nextCycle locks pins => exact .of_cells rfl rfl rfl rfl rfl rfl rfl rfl
  | handles cell isOpen handles =>
    refine ⟨rfl, rfl, rfl, rfl, rfl, rfl, fun i s' hs' => ?_⟩
    rw [get?_modifyStore] at hs'
    split at hs'
    · obtain ⟨s, hs, rfl⟩ := Option.map_eq_some_iff.1 hs'
      exact ⟨s, hs, rfl, rfl, rfl, id, fun _ ht => ⟨ht, rfl⟩⟩
    · exact ⟨s', hs', .refl s' _⟩
  | plain cell change =>
    refine ⟨rfl, rfl, rfl, rfl, rfl, rfl, fun i s' hs' => ?_⟩
    rw [applySingle, get?_modifyStore] at hs'
    split at hs'
    · obtain ⟨s, hs, rfl⟩ := Option.map_eq_some_iff.1 hs'
      exact ⟨s, hs, .of_dirty rfl rfl⟩
    · exact ⟨s', hs', .of_le s' (Nat.le_succ _)⟩
  | publish c =>
    obtain ⟨cells, published, heq, hle, hcells⟩ := publish_same db c
    rw [heq]
    refine ⟨rfl, rfl, rfl, rfl, rfl, rfl, fun i s' hs' => ?_⟩
    obtain ⟨s, hs, hframe, rfl | hdirty⟩ := hcells i s' hs'
    · exact ⟨s', hs, .of_le s' hle⟩
    · exact ⟨s, hs, .of_dirty hframe hdirty⟩
  | compact =>
    refine ⟨rfl, rfl, rfl, rfl, rfl, rfl, fun i s' hs' => ?_⟩
    obtain ⟨s, hs, htree⟩ := get?_compact _ _ (0, db.cells) hs'
    have hrest := map_compact (f := fun s => (s.id, s.name, s.prefixLength, s.dirty)) (fun _ _ => rfl)
      (db.pins.horizon db.published) db.stores.values (0, db.cells)
    obtain ⟨s₀, hs₀, heq⟩ := Pool.get?_of_map_eq hrest hs'
    obtain rfl := Option.some.inj (hs.symm.trans hs₀)
    simp only [Prod.mk.injEq] at heq
    obtain ⟨hid, hname, hlen, hdirty⟩ := heq
    exact ⟨s, hs, .of_pruned hid hname hlen hdirty (HeldViews.horizon_le_published db) htree⟩

theorem Edits.retains {db db' : Database} (h : Edits db db') : Retains db db' := by
  induction h with
  | refl => exact .refl db
  | tail _ hedit ih => exact ih.trans hedit.retains

/-! ## 2. Calls -/

/-- Whether a call uses the files and may change them. -/
def Call.writesFiles : Call → Bool
  | .createStore _ _ | .dropStore _ | .sync | .close => true
  | _ => false

namespace RetentionLemmas

variable {db : Database}

theorem retains_cursors (cursors : Pool Cursor) (pins : Pins) :
    Retains db { db with cursors, pins } := .of_cells rfl rfl rfl rfl rfl rfl rfl rfl

theorem retains_onCursor {α : Type} (cursor : Nat)
    (call : Store → Except Fault Unit → Attempt Cursor α) (db : Database) :
    Retains db ((onCursor cursor call).on db).2 := by
  simp only [onCursor, Attempt.on_bind, Attempt.on_get, Attempt.on_check]
  cases db.cursorStore cursor with
  | error f => exact .refl db
  | ok found => exact retains_cursors _ _

theorem retains_closeCursor (cursor : Nat) (db : Database) : Retains db (db.closeCursor cursor) := by
  unfold closeCursor
  split
  · exact retains_cursors _ _
  · exact .refl db

theorem retains_refreshCursor (cursor : Nat) (db : Database) :
    Retains db ((refreshCursor cursor).on db).2 := by
  simp only [refreshCursor, Attempt.on_bind, Attempt.on_get, Attempt.on_check]
  cases db.checkOpen with
  | error f => exact .refl db
  | ok _ =>
    cases db.cursorStore cursor with
    | error f => exact .refl db
    | ok found =>
      simp only
      split
      · exact retains_cursors _ _
      · exact .refl db

theorem retains_openCursor (now handle : Nat) (txn : Option Nat) (filter : Bytes) (reverse : Bool)
    (db : Database) : Retains db ((openCursor now handle txn filter reverse).on db).2 := by
  simp only [openCursor, Attempt.on_bind, Attempt.on_get, Attempt.on_check]
  cases db.handleStore handle with
  | error f => exact .refl db
  | ok found =>
    simp only
    cases db.checkAccess found.1 found.2 txn.isSome .read with
    | error f => exact .refl db
    | ok _ =>
      cases Limits.checkBound filter with
      | error f => exact .refl db
      | ok _ =>
        cases txn with
        | none => exact retains_cursors _ _
        | some t =>
          have hactive := (EditLemmas.edits_activeCycle now t db).retains
          simp only [Attempt.on_bind]
          revert hactive
          cases (activeCycle now t).on db with
          | mk r db' =>
            intro hactive
            cases r with
            | error f => exact hactive
            | ok c => exact hactive.trans (retains_cursors _ _)

end RetentionLemmas

open RetentionLemmas

/-- A call that does not write files keeps what a database keeps, and the files. -/
theorem Call.retains {c : Call} (hc : c.writesFiles = false) (now : Nat) (s : Site) :
    Retains s.db ((c.attempt now).on s).2.db ∧ ((c.attempt now).on s).2.fs = s.fs := by
  by_cases hinner : c.isInner = true
  · obtain ⟨hedits, hfs⟩ := c.edits hinner now s
    exact ⟨hedits.retains, hfs⟩
  · cases c with
    | createStore | dropStore | sync | close => cases hc
    | openCursor handle txn filter reverse =>
      rw [Call.attempt, Attempt.on_map, Storage.on_onDatabase]
      exact ⟨retains_openCursor now handle txn filter reverse s.db, rfl⟩
    | closeCursor cursor => exact ⟨retains_closeCursor cursor s.db, rfl⟩
    | readCursor cursor | seekCursor cursor key | seekRangeCursor cursor low high =>
      rw [Call.attempt, Attempt.on_map, Storage.on_onDatabase]
      exact ⟨retains_onCursor cursor _ s.db, rfl⟩
    | refreshCursor cursor =>
      rw [Call.attempt, Attempt.on_map, Storage.on_onDatabase]
      exact ⟨retains_refreshCursor cursor s.db, rfl⟩
    | _ => exact absurd rfl hinner

end SnapshotKv
