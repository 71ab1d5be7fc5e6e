import SnapshotKv.Proofs.Contents

/-!
# Stores and handles

Which stores can be found, and which handles are on them. The contents of the stores do not matter
here, so changes of contents leave everything as it is (`Registry.of_frame`).

Results:
1. `Registry.step`: stores have numbers of their own in the catalog, and each is open under one
   handle at most.
2. `Registry.of_reached`.
-/

namespace SnapshotKv

open Database

/-- The stores that can be found and the handles that are on them, as the ledger knows them. -/
structure Registry (db : Database) (L : Ledger) : Prop where
  numbered : db.catalog.Numbered
  id_lt : ∀ i s, db.cells.get? i = some s → s.id < db.catalog.nextId
  ids : db.DistinctIds
  found : ∀ name i, db.stores.get? name = some i → ∃ s, db.cells.get? i = some s
  isOpen : ∀ n h, db.handles.get? n = some h → ∃ s, db.cells.get? h.cell = some s ∧ s.isOpen = true
  single : ∀ n m h h', db.handles.get? n = some h → db.handles.get? m = some h' →
    h.cell = h'.cell → n = m
  openings : L.openings.length = db.handles.nextId
  opening : ∀ n h, db.handles.get? n = some h →
    L.openings[n]? = some ⟨h.cell, h.settings.transactional⟩
  /-- The catalog lists every store that can be found. -/
  listed : L.fileFault = false → ∀ name i, db.stores.get? name = some i →
    db.catalog.find? name ≠ none
  /-- A store with a handle can be found. -/
  attached : L.fileFault = false → ∀ n h, db.handles.get? n = some h →
    ∃ name, db.stores.get? name = some h.cell

namespace RegistryLemmas

variable {db db' : Database} {L : Ledger}

theorem get?_of_setOpen {p : Pool Store} {cell i : Nat} {b : Bool} {s' : Store}
    (h : (p.modify cell fun s => { s with isOpen := b }).get? i = some s') :
    ∃ s, p.get? i = some s ∧ s'.id = s.id := by
  rw [Pool.get?_modify] at h
  split at h
  · obtain ⟨s, hs, rfl⟩ := Option.map_eq_some_iff.1 h
    exact ⟨s, hs, rfl⟩
  · exact ⟨s', h, rfl⟩

theorem get?_setOpen {p : Pool Store} (cell : Nat) {i : Nat} (b : Bool) {s : Store}
    (h : p.get? i = some s) :
    ∃ s', (p.modify cell fun s => { s with isOpen := b }).get? i = some s' ∧
      s'.isOpen = if cell = i then b else s.isOpen := by
  rw [Pool.get?_modify]
  split
  · rw [h]
    exact ⟨_, rfl, rfl⟩
  · exact ⟨s, h, rfl⟩

theorem find?_ne_none_iff {c : Catalog} {name : String} :
    c.find? name ≠ none ↔ ∃ r ∈ c.stores, r.name = name := by
  simp [Catalog.find?]

theorem find?_without_ne_none {c : Catalog} {name name' : String} (hne : name' ≠ name)
    (h : c.find? name' ≠ none) : (c.without name).find? name' ≠ none := by
  obtain ⟨r, hr, rfl⟩ := find?_ne_none_iff.1 h
  exact find?_ne_none_iff.2 ⟨r, List.mem_filter.2 ⟨hr, bne_iff_ne.2 hne⟩, rfl⟩

theorem find?_withRecord_ne_none {c : Catalog} {name name' : String} (prefixLength : Nat)
    (h : c.find? name' ≠ none) : (c.withRecord name prefixLength).find? name' ≠ none := by
  obtain ⟨r, hr, hname⟩ := find?_ne_none_iff.1 h
  exact find?_ne_none_iff.2 ⟨r, List.mem_append_left _ hr, hname⟩

theorem find?_withRecord_self (c : Catalog) (name : String) (prefixLength : Nat) :
    (c.withRecord name prefixLength).find? name ≠ none :=
  find?_ne_none_iff.2 ⟨_, List.mem_append_right _ (List.mem_singleton_self _), rfl⟩

theorem numbered_withRecord {c : Catalog} (h : c.Numbered) (name : String) (prefixLength : Nat) :
    (c.withRecord name prefixLength).Numbered := by
  constructor
  · simp only [Catalog.withRecord, List.map_append, List.map_cons, List.map_nil]
    rw [List.nodup_append]
    refine ⟨h.distinct, by simp, ?_⟩
    intro id hid id' hid' heq
    obtain ⟨r, hr, rfl⟩ := List.mem_map.1 hid
    have := h.lt r hr
    rw [List.mem_singleton.1 hid'] at heq
    omega
  · intro r hr
    rcases List.mem_append.1 hr with hr | hr
    · exact Nat.lt_succ_of_lt (h.lt r hr)
    · rw [List.mem_singleton.1 hr]
      exact Nat.lt_succ_self _

theorem numbered_without {c : Catalog} (h : c.Numbered) (name : String) :
    (c.without name).Numbered :=
  ⟨h.distinct.sublist (List.filter_sublist.map _), fun r hr => h.lt r (List.mem_of_mem_filter hr)⟩

end RegistryLemmas

open RegistryLemmas ContentsLemmas

namespace Registry

variable {db db' : Database} {L L' : Ledger}

/-- Contents do not matter. -/
theorem of_frame {cells : Pool Store} (h : Registry db L)
    (hf : cells.map Store.frame = db.cells.map Store.frame) : Registry { db with cells } L :=
  { h with
    id_lt := fun i s hs => by
      obtain ⟨s₀, hs₀, hf₀⟩ := Pool.get?_of_map_eq hf hs
      rw [id_of_frame hf₀]
      exact h.id_lt i s₀ hs₀
    ids := fun i j s s' hs hs' hid => by
      obtain ⟨s₀, hs₀, hf₀⟩ := Pool.get?_of_map_eq hf hs
      obtain ⟨s₁, hs₁, hf₁⟩ := Pool.get?_of_map_eq hf hs'
      rw [id_of_frame hf₀, id_of_frame hf₁] at hid
      exact h.ids i j s₀ s₁ hs₀ hs₁ hid
    found := fun name i hi => by
      obtain ⟨s, hs⟩ := h.found name i hi
      obtain ⟨s', hs', -⟩ := Pool.get?_of_map_eq hf.symm hs
      exact ⟨s', hs'⟩
    isOpen := fun n hd hn => by
      obtain ⟨s, hs, hopen⟩ := h.isOpen n hd hn
      obtain ⟨s', hs', hf'⟩ := Pool.get?_of_map_eq hf.symm hs
      exact ⟨s', hs', isOpen_of_frame hf' ▸ hopen⟩ }

theorem withStore (h : Registry db L) {name : String} (prefixLength : Nat)
    (hnew : db.catalog.find? name = none) : Registry (db.withStore name prefixLength) L where
  numbered := numbered_withRecord h.numbered name prefixLength
  id_lt := fun i s hs => by
    rcases Pool.get?_add_eq_some hs with hs | ⟨-, rfl⟩
    · exact Nat.lt_succ_of_lt (h.id_lt i s hs)
    · exact Nat.lt_succ_self _
  ids := fun i j s s' hs hs' hid => by
    rcases Pool.get?_add_eq_some hs with hs | ⟨hi, rfl⟩ <;>
      rcases Pool.get?_add_eq_some hs' with hs' | ⟨hj, rfl⟩
    · exact h.ids i j s s' hs hs' hid
    · exact absurd hid (Nat.ne_of_lt (h.id_lt i s hs))
    · exact absurd hid.symm (Nat.ne_of_lt (h.id_lt j s' hs'))
    · rw [hi, hj]
  found := fun name' i hi => by
    simp only [Database.withStore, Storage.attach, SortedMap.get?_insert] at hi
    split at hi
    · rw [← Option.some.inj hi]
      exact ⟨_, Pool.get?_add_nextId db.cells _⟩
    · obtain ⟨s, hs⟩ := h.found name' i hi
      exact ⟨s, Pool.get?_add_of_some _ hs⟩
  isOpen := fun n hd hn => by
    obtain ⟨s, hs, hopen⟩ := h.isOpen n hd hn
    exact ⟨s, Pool.get?_add_of_some _ hs, hopen⟩
  single := h.single
  openings := h.openings
  opening := h.opening
  listed := fun hfile name' i hi => by
    simp only [Database.withStore, Storage.attach, SortedMap.get?_insert] at hi
    split at hi
    · next hname =>
      rw [eq_of_beq hname]
      exact find?_withRecord_self _ _ _
    · exact find?_withRecord_ne_none _ (h.listed hfile name' i hi)
  attached := fun hfile n hd hn => by
    obtain ⟨name', hname'⟩ := h.attached hfile n hd hn
    refine ⟨name', ?_⟩
    -- the name of a store that can be found is listed, so the new store has another one
    have hne : name' ≠ name := by
      rintro rfl
      exact h.listed hfile name' hd.cell hname' hnew
    simp only [Database.withStore, Storage.attach, SortedMap.get?_insert, beq_iff_eq, if_neg hne]
    exact hname'

theorem dropStore (h : Registry db L) {name : String} {cell : Nat} {s : Store}
    (hname : db.stores.get? name = some cell) (hs : db.cells.get? cell = some s)
    (hopen : s.isOpen = false) :
    Registry { db with catalog := db.catalog.without name, stores := db.stores.erase name } L :=
  have hfound : ∀ {name' i}, (db.stores.erase name).get? name' = some i →
      name' ≠ name ∧ db.stores.get? name' = some i := by
    intro name' i hi
    rw [SortedMap.get?_erase] at hi
    split at hi
    · cases hi
    · next hne => exact ⟨fun heq => hne (beq_iff_eq.2 heq), hi⟩
  { h with
    numbered := numbered_without h.numbered name
    found := fun name' i hi => h.found name' i (hfound hi).2
    listed := fun hfile name' i hi =>
      find?_without_ne_none (hfound hi).1 (h.listed hfile name' i (hfound hi).2)
    attached := fun hfile n hd hn => by
      obtain ⟨name', hname'⟩ := h.attached hfile n hd hn
      refine ⟨name', ?_⟩
      -- the dropped store is not open, so the handle is on another one
      have hne : name' ≠ name := by
        rintro rfl
        rw [hname] at hname'
        obtain ⟨s', hs', hopen'⟩ := h.isOpen n hd hn
        rw [← Option.some.inj hname', hs] at hs'
        rw [← Option.some.inj hs', hopen] at hopen'
        cases hopen'
      rw [SortedMap.get?_erase, if_neg fun heq => hne (beq_iff_eq.1 heq)]
      exact hname' }

theorem openStore (h : Registry db L) {name : String} {cell : Nat} {s : Store}
    (settings : StoreSettings) (hname : db.stores.get? name = some cell)
    (hs : db.cells.get? cell = some s) (hopen : s.isOpen = false) :
    Registry
      { db.modifyStore cell (fun s => { s with isOpen := true }) with
        handles := db.handles.add ⟨cell, settings⟩ }
      (L.addOpening ⟨cell, settings⟩) where
  numbered := h.numbered
  id_lt := fun i s' hs' => by
    obtain ⟨s₀, hs₀, hid⟩ := get?_of_setOpen hs'
    exact hid ▸ h.id_lt i s₀ hs₀
  ids := fun i j s₁ s₂ hs₁ hs₂ hid => by
    obtain ⟨s₁', hs₁', hid₁⟩ := get?_of_setOpen hs₁
    obtain ⟨s₂', hs₂', hid₂⟩ := get?_of_setOpen hs₂
    exact h.ids i j s₁' s₂' hs₁' hs₂' (hid₁ ▸ hid₂ ▸ hid)
  found := fun name' i hi => by
    obtain ⟨s', hs'⟩ := h.found name' i hi
    obtain ⟨s'', hs'', -⟩ := get?_setOpen cell true hs'
    exact ⟨s'', hs''⟩
  isOpen := fun n hd hn => by
    rcases Pool.get?_add_eq_some hn with hn | ⟨-, rfl⟩
    · obtain ⟨s', hs', hopen'⟩ := h.isOpen n hd hn
      obtain ⟨s'', hs'', hopen''⟩ := get?_setOpen cell true hs'
      exact ⟨s'', hs'', by rw [hopen'', hopen', ite_self]⟩
    · obtain ⟨s', hs', hopen'⟩ := get?_setOpen cell true hs
      exact ⟨s', hs', by rw [hopen', if_pos rfl]⟩
  single := fun n m hd hd' hn hm hcell => by
    -- the store was not open, so no older handle is on it
    have hnot : ∀ k hdk, db.handles.get? k = some hdk → hdk.cell ≠ cell := by
      intro k hdk hk hcell
      obtain ⟨s', hs', hopen'⟩ := h.isOpen k hdk hk
      rw [hcell, hs] at hs'
      rw [← Option.some.inj hs', hopen] at hopen'
      cases hopen'
    rcases Pool.get?_add_eq_some hn with hold | ⟨hnew, rfl⟩ <;>
      rcases Pool.get?_add_eq_some hm with hold' | ⟨hnew', rfl⟩
    · exact h.single n m hd hd' hold hold' hcell
    · exact absurd hcell (hnot n hd hold)
    · exact absurd hcell.symm (hnot m hd' hold')
    · rw [hnew, hnew']
  openings := by
    unfold Ledger.addOpening
    rw [List.length_append, List.length_singleton, h.openings, Pool.nextId_add]
  opening := fun n hd hn => by
    rcases Pool.get?_add_eq_some hn with hn | ⟨rfl, rfl⟩
    · have hlt : n < L.openings.length := h.openings ▸ Pool.lt_nextId hn
      unfold Ledger.addOpening
      rw [List.getElem?_append_left hlt]
      exact h.opening n hd hn
    · unfold Ledger.addOpening
      rw [← h.openings, List.getElem?_concat_length]
  listed := h.listed
  attached := fun hfile n hd hn => by
    rcases Pool.get?_add_eq_some hn with hn | ⟨-, rfl⟩
    · exact h.attached hfile n hd hn
    · exact ⟨name, hname⟩

theorem closeStore (h : Registry db L) {n : Nat} {hd : Handle}
    (hn : db.handles.get? n = some hd) :
    Registry
      { db.modifyStore hd.cell (fun s => { s with isOpen := false }) with
        handles := db.handles.remove n } L :=
  have hkept : ∀ {m hd'}, (db.handles.remove n).get? m = some hd' →
      m ≠ n ∧ db.handles.get? m = some hd' := by
    intro m hd' hm
    rw [Pool.get?_remove] at hm
    split at hm
    · cases hm
    · next hne => exact ⟨Ne.symm hne, hm⟩
  { h with
    id_lt := fun i s' hs' => by
      obtain ⟨s₀, hs₀, hid⟩ := get?_of_setOpen hs'
      exact hid ▸ h.id_lt i s₀ hs₀
    ids := fun i j s₁ s₂ hs₁ hs₂ hid => by
      obtain ⟨s₁', hs₁', hid₁⟩ := get?_of_setOpen hs₁
      obtain ⟨s₂', hs₂', hid₂⟩ := get?_of_setOpen hs₂
      exact h.ids i j s₁' s₂' hs₁' hs₂' (hid₁ ▸ hid₂ ▸ hid)
    found := fun name' i hi => by
      obtain ⟨s', hs'⟩ := h.found name' i hi
      obtain ⟨s'', hs'', -⟩ := get?_setOpen hd.cell false hs'
      exact ⟨s'', hs''⟩
    isOpen := fun m hd' hm => by
      obtain ⟨hne, hm⟩ := hkept hm
      obtain ⟨s, hs, hopen⟩ := h.isOpen m hd' hm
      obtain ⟨s', hs', hopen'⟩ := get?_setOpen hd.cell false hs
      have hcell : hd.cell ≠ hd'.cell := fun hcell => hne (h.single m n hd' hd hm hn hcell.symm)
      exact ⟨s', hs', by rw [hopen', if_neg hcell, hopen]⟩
    single := fun m m' hd₁ hd₂ hm hm' => h.single m m' hd₁ hd₂ (hkept hm).2 (hkept hm').2
    openings := h.openings.trans (Pool.nextId_remove _ _).symm
    opening := fun m hd' hm => h.opening m hd' (hkept hm).2
    attached := fun hfile m hd' hm => h.attached hfile m hd' (hkept hm).2 }

theorem addFileFault (h : Registry db L) : Registry db L.addFileFault :=
  { h with
    listed := fun hfile => absurd hfile (by simp [Ledger.addFileFault])
    attached := fun hfile => absurd hfile (by simp [Ledger.addFileFault]) }

theorem opened (h : db.Opened) : Registry db (Ledger.opened db) := by
  obtain ⟨hnumbered, home, settings, config, lock, tree, -, hat⟩ := h.attached
  have hhandles : db.handles = {} := by rw [hat.same]
  have hnone : ∀ n hd, db.handles.get? n ≠ some hd := by
    intro n hd
    rw [hhandles]
    simp [Pool.get?]
  constructor
  · exact hnumbered
  · intro i s hs
    obtain ⟨r, hr, rfl⟩ := (hat.cells i s).1 hs
    exact hnumbered.lt r (List.mem_of_getElem? hr)
  · intro i j s s' hs hs' hid
    obtain ⟨r, hr, rfl⟩ := (hat.cells i s).1 hs
    obtain ⟨r', hr', rfl⟩ := (hat.cells j s').1 hs'
    have hi : (db.catalog.stores.map (·.id))[i]? = some r.id := by simp [hr]
    have hj : (db.catalog.stores.map (·.id))[j]? = some r.id := by
      have hid' : r'.id = r.id := hid.symm
      simp [hr', hid']
    have hlt := (List.getElem?_eq_some_iff.1 hi).1
    -- the stores stand in the pool in the order of the catalog
    exact (List.getElem?_inj hlt hnumbered.distinct).1 (hi.trans hj.symm)
  · intro name i hi
    obtain ⟨r, hr, -⟩ := hat.stores name i hi
    exact ⟨_, (hat.cells i _).2 ⟨r, hr, rfl⟩⟩
  · intro n hd hn
    exact absurd hn (hnone n hd)
  · intro n m hd hd' hn
    exact absurd hn (hnone n hd)
  · rw [hhandles]
    rfl
  · intro n hd hn
    exact absurd hn (hnone n hd)
  · intro _ name i hi
    obtain ⟨r, hr, hname⟩ := hat.stores name i hi
    exact find?_ne_none_iff.2 ⟨r, List.mem_of_getElem? hr, hname⟩
  · intro _ n hd hn
    exact absurd hn (hnone n hd)

/-- Every step keeps the registry. -/
theorem step (hstep : Step db L db' L') (h : Registry db L) : Registry db' L' := by
  cases hstep with
  | fileFault => exact h.addFileFault
  | list name prefixLength hnew =>
    exact { h with
      numbered := numbered_withRecord h.numbered name prefixLength
      id_lt := fun i s hs => Nat.lt_succ_of_lt (h.id_lt i s hs)
      listed := fun hfile name' i hi => find?_withRecord_ne_none _ (h.listed hfile name' i hi) }
  | number =>
    exact { h with
      numbered := ⟨h.numbered.distinct, fun r hr => Nat.lt_succ_of_lt (h.numbered.lt r hr)⟩
      id_lt := fun i s hs => Nat.lt_succ_of_lt (h.id_lt i s hs) }
  | delist name =>
    exact { h.addFileFault with
      numbered := numbered_without h.numbered name
      listed := fun hfile => absurd hfile (by simp [Ledger.addFileFault]) }
  | createStore name prefixLength hnew => exact h.withStore prefixLength hnew
  | dropStore hname hs hopen => exact h.dropStore hname hs hopen
  | openStore settings hname hs hopen => exact h.openStore settings hname hs hopen
  | closeStore hh => exact h.closeStore hh
  | saved cell => exact h.of_frame (frame_modify _ cell fun _ => rfl)
  | plain change hh hs hplain =>
    exact { h.of_frame (frame_applySingle db _ change.onTree) with }
  | commit hc hdoomed =>
    obtain ⟨cells, published, heq, hf, -⟩ := publish_spec h.ids _
    rw [heq]
    exact { h.of_frame hf with }
  | compact => exact h.of_frame (frame_compact _ _ (0, db.cells))
  | close | allocTxn | beginTxn | claim | doom | write | endCycle | openCursor | closeCursor
  | moveCursor | refreshCursor => exact { h with }

/-- The registry holds for all that is reached. -/
theorem of_reached (h : Reached db L) : Registry db L := by
  induction h with
  | opened hdb => exact opened hdb
  | step _ hstep ih => exact step hstep ih

end Registry

end SnapshotKv
