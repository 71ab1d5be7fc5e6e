import SnapshotKv.Proofs.HeldViews

/-!
# The writes of active cycles

An active cycle carries its writes as write sets, one per store, and as claims in the lock table.
Both stand for the writes that the ledger has noted since its begin.

Results:
1. `Drafts.step`: the write sets collect the noted writes, and every noted write is claimed.
2. `Drafts.of_reached`.
3. `Drafts.disjoint`: two active cycles never decide one key.
-/

namespace SnapshotKv

open Database

/-- What an active cycle carries is what the ledger has noted for it. -/
structure Drafts (db : Database) (L : Ledger) : Prop where
  exclusive : db.locks.Exclusive
  claimed : ∀ t c, db.txns.get? t = some (.active c) → ∀ w ∈ (L.drafts t).writes,
    ∃ s, db.cells.get? w.cell = some s ∧ db.locks.Holds s.id w.change c.id
  writes : ∀ t c i s, db.txns.get? t = some (.active c) → db.cells.get? i = some s →
    c.writesTo s.id = WriteSet.ofChanges (changesTo (L.drafts t).writes i)
  /-- No store that is still to come was written. -/
  unwritten : ∀ t c id, db.txns.get? t = some (.active c) → db.catalog.nextId ≤ id →
    c.writes.get? id = none
  /-- Every write went through a handle that was opened for transactions before. -/
  opened : ∀ t c, db.txns.get? t = some (.active c) → ∀ w ∈ (L.drafts t).writes,
    L.openings[w.handle]? = some ⟨w.cell, true⟩ ∧ w.opened ≤ L.openings.length

namespace DraftsLemmas

variable {db : Database} {L : Ledger}

theorem changesTo_append (ws ws' : List Write) (cell : Nat) :
    changesTo (ws ++ ws') cell = changesTo ws cell ++ changesTo ws' cell := by
  simp [changesTo]

theorem changesTo_singleton (w : Write) (cell : Nat) :
    changesTo [w] cell = if w.cell = cell then [w.change] else [] := by
  by_cases h : w.cell = cell <;> simp [changesTo, h]

theorem changesTo_eq_nil {ws : List Write} {cell : Nat} (h : ∀ w ∈ ws, w.cell ≠ cell) :
    changesTo ws cell = [] := by
  unfold changesTo
  rw [List.map_eq_nil_iff, List.filter_eq_nil_iff]
  intro w hw
  simpa using h w hw

theorem ids_of_frame {p p' : Pool Store} (hf : p'.map Store.frame = p.map Store.frame) :
    p'.map Store.id = p.map Store.id := by
  have h := congrArg (fun q => q.map Store.id) hf
  simp only [Pool.map_map] at h
  exact h

theorem writesTo_insert (c : Cycle) (id id' : Nat) (w : WriteSet) :
    Cycle.writesTo { c with writes := c.writes.insert id w } id' =
      if id' = id then w else c.writesTo id' := by
  simp only [Cycle.writesTo, SortedMap.get?_insert, beq_iff_eq]
  by_cases h : id' = id <;> simp [h]

end DraftsLemmas

open DraftsLemmas HeldViewsLemmas ContentsLemmas

namespace Drafts

variable {db db' : Database} {L L' : Ledger}

/-- Of the stores only the numbers matter. -/
theorem of_ids (h : Drafts db L) {cells : Pool Store}
    (hids : cells.map Store.id = db.cells.map Store.id) : Drafts { db with cells } L :=
  { h with
    claimed := fun t c hc w hw => by
      obtain ⟨s, hs, hholds⟩ := h.claimed t c hc w hw
      obtain ⟨s', hs', hid⟩ := Pool.get?_of_map_eq hids.symm hs
      exact ⟨s', hs', hid ▸ hholds⟩
    writes := fun t c i s hc hs => by
      obtain ⟨s', hs', hid⟩ := Pool.get?_of_map_eq hids hs
      rw [hid]
      exact h.writes t c i s' hc hs' }

theorem withStore (h : Drafts db L) (name : String) (prefixLength : Nat) :
    Drafts (db.withStore name prefixLength) L :=
  { h with
    claimed := fun t c hc w hw => by
      obtain ⟨s, hs, hholds⟩ := h.claimed t c hc w hw
      exact ⟨s, Pool.get?_add_of_some _ hs, hholds⟩
    writes := fun t c i s hc hs => by
      rcases Pool.get?_add_eq_some hs with hs | ⟨rfl, rfl⟩
      · exact h.writes t c i s hc hs
      · -- nothing was written yet to the new store
        have hno : ∀ w ∈ (L.drafts t).writes, w.cell ≠ db.cells.nextId := by
          intro w hw heq
          obtain ⟨s, hs, -⟩ := h.claimed t c hc w hw
          rw [heq, Pool.get?_nextId] at hs
          cases hs
        rw [changesTo_eq_nil hno, Cycle.writesTo]
        have := h.unwritten t c db.catalog.nextId hc (Nat.le_refl _)
        simp only [Store.ofRecord, this]
        rfl
    unwritten := fun t c id hc hid => h.unwritten t c id hc (Nat.le_of_succ_le hid) }

theorem beginTxn (h : Drafts db L) {t : Nat} (now : Nat) :
    Drafts
      { db.setCycle t { id := db.nextCycle, view := db.published, started := now } with
        nextCycle := db.nextCycle + 1
        pins := db.pins.pin db.published }
      (L.addBegin t) where
  exclusive := h.exclusive
  claimed := fun t' c hc w hw => by
    rcases get?_setTxn hc with ⟨hne, hc⟩ | ⟨rfl, -⟩
    · rw [L.drafts_addBegin_of_ne hne] at hw
      exact h.claimed t' c hc w hw
    · rw [L.drafts_addBegin_self] at hw
      cases hw
  writes := fun t' c i s hc hs => by
    rcases get?_setTxn hc with ⟨hne, hc⟩ | ⟨rfl, heq⟩
    · rw [L.drafts_addBegin_of_ne hne]
      exact h.writes t' c i s hc hs
    · cases heq
      rw [L.drafts_addBegin_self]
      rfl
  unwritten := fun t' c id hc hid => by
    rcases get?_setTxn hc with ⟨-, hc⟩ | ⟨-, heq⟩
    · exact h.unwritten t' c id hc hid
    · cases heq
      rfl
  opened := fun t' c hc w hw => by
    rcases get?_setTxn hc with ⟨hne, hc⟩ | ⟨rfl, -⟩
    · rw [L.drafts_addBegin_of_ne hne] at hw
      exact h.opened t' c hc w hw
    · rw [L.drafts_addBegin_self] at hw
      cases hw

/-- A cycle that stays active under its number, with the same writes. -/
theorem setCycle (h : Drafts db L) {t : Nat} {c c' : Cycle}
    (hc : db.txns.get? t = some (.active c)) (hid : c'.id = c.id) (hwrites : c'.writes = c.writes) :
    Drafts (db.setCycle t c') L :=
  { h with
    claimed := fun t' c₁ h₁ w hw => by
      obtain ⟨c₀, h₀, hid₀⟩ := active_of_setCycle Cycle.id hc hid h₁
      exact hid₀ ▸ h.claimed t' c₀ h₀ w hw
    writes := fun t' c₁ i s h₁ hs => by
      obtain ⟨c₀, h₀, hw₀⟩ := active_of_setCycle Cycle.writes hc hwrites h₁
      unfold Cycle.writesTo
      rw [hw₀]
      exact h.writes t' c₀ i s h₀ hs
    unwritten := fun t' c₁ id h₁ hle => by
      obtain ⟨c₀, h₀, hw₀⟩ := active_of_setCycle Cycle.writes hc hwrites h₁
      rw [hw₀]
      exact h.unwritten t' c₀ id h₀ hle
    opened := fun t' c₁ h₁ => by
      obtain ⟨c₀, h₀, -⟩ := active_of_setCycle Cycle.id hc hid h₁
      exact h.opened t' c₀ h₀ }

theorem write (h : Drafts db L) (hr : Registry db L) {t handle : Nat} {c : Cycle} {hd : Handle}
    {s : Store} {change : Change} (hc : db.txns.get? t = some (.active c))
    (hh : db.handles.get? handle = some hd) (hs : db.cells.get? hd.cell = some s)
    (hbound : hd.settings.transactional = true) (hclaim : db.locks.Holds s.id change c.id) :
    Drafts
      (db.setCycle t { c with writes := c.writes.insert s.id (change.onWrites (c.writesTo s.id)) })
      (L.addWrite t (L.writeBy handle hd change)) where
  exclusive := h.exclusive
  claimed := fun t' c' hc' w hw => by
    rcases get?_setTxn hc' with ⟨hne, hc'⟩ | ⟨rfl, heq⟩
    · rw [L.drafts_addWrite_of_ne _ hne] at hw
      exact h.claimed t' c' hc' w hw
    · cases heq
      rw [L.drafts_addWrite_self] at hw
      rcases List.mem_append.1 hw with hw | hw
      · exact h.claimed t c hc w hw
      · rw [List.mem_singleton.1 hw]
        exact ⟨s, hs, hclaim⟩
  writes := fun t' c' i s' hc' hs' => by
    rcases get?_setTxn hc' with ⟨hne, hc'⟩ | ⟨rfl, heq⟩
    · rw [L.drafts_addWrite_of_ne _ hne]
      exact h.writes t' c' i s' hc' hs'
    · cases heq
      have hold := h.writes t c i s' hc hs'
      have hnew : changesTo [L.writeBy handle hd change] i =
          if hd.cell = i then [change] else [] := changesTo_singleton _ _
      rw [L.drafts_addWrite_self, changesTo_append, hnew, writesTo_insert]
      by_cases hcell : hd.cell = i
      · subst hcell
        have hss : s' = s := Option.some.inj (hs'.symm.trans hs)
        subst hss
        rw [if_pos rfl, if_pos rfl, WriteSet.ofChanges_concat, hold]
      · have hid : s'.id ≠ s.id := fun heq => hcell (hr.ids i hd.cell s' s hs' hs heq).symm
        rw [if_neg hid, if_neg hcell, List.append_nil, hold]
  unwritten := fun t' c' id hc' hid => by
    rcases get?_setTxn hc' with ⟨-, hc'⟩ | ⟨-, heq⟩
    · exact h.unwritten t' c' id hc' hid
    · cases heq
      have hlt := hr.id_lt hd.cell s hs
      have hne : (id == s.id) = false :=
        beq_eq_false_iff_ne.2 (Nat.ne_of_gt (Nat.lt_of_lt_of_le hlt hid))
      rw [SortedMap.get?_insert, hne]
      exact h.unwritten t c id hc hid
  opened := fun t' c' hc' w hw => by
    rcases get?_setTxn hc' with ⟨hne, hc'⟩ | ⟨rfl, -⟩
    · rw [L.drafts_addWrite_of_ne _ hne] at hw
      exact h.opened t' c' hc' w hw
    · rw [L.drafts_addWrite_self] at hw
      rcases List.mem_append.1 hw with hw | hw
      · exact h.opened t c hc w hw
      · rw [List.mem_singleton.1 hw]
        exact ⟨hbound ▸ hr.opening handle hd hh, Nat.le_refl _⟩

theorem endCycle (h : Drafts db L) (hv : HeldViews db) {t : Nat} {c : Cycle} {final : Txn}
    (hc : db.txns.get? t = some (.active c)) (hfinal : final.view? = none) :
    Drafts (db.endCycle t c final) L :=
  { h with
    exclusive := h.exclusive.release c.id
    claimed := fun t' c' hc' w hw => by
      -- only the claims of the ended cycle went, and no other cycle has its number
      obtain ⟨hne, hc'⟩ := active_of_endCycle hfinal hc'
      obtain ⟨s, hs, hholds⟩ := h.claimed t' c' hc' w hw
      exact ⟨s, hs, hholds.release fun heq => hne (hv.id_inj t t' c c' hc hc' heq.symm)⟩
    writes := fun t' c' i s hc' hs => h.writes t' c' i s (active_of_endCycle hfinal hc').2 hs
    unwritten := fun t' c' id hc' hid => h.unwritten t' c' id (active_of_endCycle hfinal hc').2 hid
    opened := fun t' c' hc' => h.opened t' c' (active_of_endCycle hfinal hc').2 }

theorem opened_database (h : db.Opened) : Drafts db (Ledger.opened db) := by
  have hnone := not_active_of_opened h
  obtain ⟨-, home, settings, config, lock, tree, -, hat⟩ := h.attached
  refine ⟨?_, fun t c hc => absurd hc (hnone t c), fun t c _ _ hc => absurd hc (hnone t c),
    fun t c _ hc => absurd hc (hnone t c), fun t c hc => absurd hc (hnone t c)⟩
  rw [hat.same]
  exact LockTable.exclusive_empty

/-- Every step keeps what active cycles carry. -/
theorem step (hr : Registry db L) (hv : HeldViews db) (hstep : Step db L db' L')
    (h : Drafts db L) : Drafts db' L' := by
  cases hstep with
  | allocTxn =>
    exact { h with
      claimed := fun t c hc => h.claimed t c (active_of_allocTxn hc)
      writes := fun t c i s hc => h.writes t c i s (active_of_allocTxn hc)
      unwritten := fun t c id hc => h.unwritten t c id (active_of_allocTxn hc)
      opened := fun t c hc => h.opened t c (active_of_allocTxn hc) }
  | list name prefixLength hnew =>
    exact { h with unwritten := fun t c id hc hid => h.unwritten t c id hc (Nat.le_of_succ_le hid) }
  | number =>
    exact { h with unwritten := fun t c id hc hid => h.unwritten t c id hc (Nat.le_of_succ_le hid) }
  | createStore name prefixLength hnew => exact h.withStore name prefixLength
  | @openStore name cell s settings hname hs hopen =>
    have hids := Pool.map_modify_of_eq db.cells cell (f := Store.id)
      (g := fun s => { s with isOpen := true }) fun _ => rfl
    have hd := h.of_ids hids
    exact { hd with
      opened := fun t c hc w hw => by
        obtain ⟨hopening, hle⟩ := h.opened t c hc w hw
        unfold Ledger.addOpening
        rw [List.length_append]
        exact ⟨List.getElem?_append_left (List.getElem?_eq_some_iff.1 hopening).1 ▸ hopening,
          Nat.le_add_right_of_le hle⟩ }
  | @closeStore handle hd hh =>
    have hids := Pool.map_modify_of_eq db.cells hd.cell (f := Store.id)
      (g := fun s => { s with isOpen := false }) fun _ => rfl
    exact { h.of_ids hids with }
  | saved cell => exact h.of_ids (ids_of_frame (frame_modify _ cell fun _ => rfl))
  | plain change hh hs hplain =>
    exact { h.of_ids (ids_of_frame (frame_applySingle db _ change.onTree)) with }
  | compact => exact h.of_ids (ids_of_frame (frame_compact _ _ (0, db.cells)))
  | beginTxn now hx hidle => exact h.beginTxn now
  | claim change hc hs =>
    exact { h with
      exclusive := h.exclusive.claim _ change _
      claimed := fun t c hc w hw => by
        obtain ⟨s, hs, hholds⟩ := h.claimed t c hc w hw
        exact ⟨s, hs, hholds.claim⟩ }
  | doom hc => exact h.setCycle hc rfl rfl
  | write change hc hh hs hbound hclaim hfresh => exact h.write hr hc hh hs hbound hclaim
  | endCycle hc => exact h.endCycle hv hc rfl
  | @commit t c hc hdoomed =>
    obtain ⟨cells, published, heq, hf, -⟩ := publish_spec hr.ids c
    rw [heq]
    have hd : Drafts { db with cells } L := h.of_ids (ids_of_frame hf)
    have hheld : HeldViews { db with cells } := { hv with }
    have hcommitted : Drafts (Database.endCycle { db with cells } t c .committed) L :=
      hd.endCycle hheld hc rfl
    exact { hcommitted with }
  | fileFault | delist | dropStore | close | openCursor | closeCursor | moveCursor
  | refreshCursor => exact { h with }

/-- Active cycles carry what was noted for them in all that is reached. -/
theorem of_reached (h : Reached db L) : Drafts db L := by
  induction h with
  | opened hdb => exact opened_database hdb
  | step hr hstep ih => exact step (.of_reached hr) (.of_reached hr) hstep ih

/-- Two active cycles never decide one key of a store. -/
theorem disjoint (h : Drafts db L) (hv : HeldViews db) {t t' cell : Nat} {c c' : Cycle}
    {key : Bytes} (hc : db.txns.get? t = some (.active c))
    (hc' : db.txns.get? t' = some (.active c')) (hne : t ≠ t')
    (hd : Decides (L.drafts t).writes cell key) : ¬ Decides (L.drafts t').writes cell key := by
  rintro ⟨w', hw', hcell', hkey'⟩
  obtain ⟨w, hw, hcell, hkey⟩ := hd
  obtain ⟨s, hs, hholds⟩ := h.claimed t c hc w hw
  obtain ⟨s', hs', hholds'⟩ := h.claimed t' c' hc' w' hw'
  rw [hcell] at hs
  rw [hcell', hs] at hs'
  obtain rfl := Option.some.inj hs'
  exact hne (hv.id_inj t t' c c' hc hc' (h.exclusive.owner_eq hholds hholds' hkey hkey'))

end Drafts

end SnapshotKv
