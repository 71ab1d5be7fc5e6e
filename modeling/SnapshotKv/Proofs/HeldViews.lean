import SnapshotKv.Proofs.Registry

/-!
# Held views

Every active cycle and every cursor reads a view, and each of them pins it for as long as it lives.
So the horizon of compaction is never above a view that is still read.

Results:
1. `HeldViews.step`: the pinned views are exactly the views in use, each as often as it is used.
2. `HeldViews.of_reached`, `HeldViews.horizon_le_cycle`, `HeldViews.horizon_le_cursor`.
-/

namespace SnapshotKv

open Database

/-- The view of an active transaction. -/
def Txn.view? : Txn → Option Nat
  | .active c => some c.view
  | _ => none

/-- The views in use, once for every active cycle and every cursor. -/
def Database.viewsInUse (db : Database) : List Nat :=
  db.txns.members.filterMap Txn.view? ++ db.cursors.members.map (·.view)

/-- The pins stand for the views in use, and the active cycles have numbers of their own. -/
structure HeldViews (db : Database) : Prop where
  pins : db.pins.views.Perm db.viewsInUse
  le : ∀ v ∈ db.pins.views, v ≤ db.published
  id_lt : ∀ t c, db.txns.get? t = some (.active c) → c.id < db.nextCycle
  id_inj : ∀ t t' c c', db.txns.get? t = some (.active c) → db.txns.get? t' = some (.active c') →
    c.id = c'.id → t = t'

namespace HeldViewsLemmas

variable {db db' : Database}

/-- Of the views in use, one transaction accounts for its own. -/
theorem exists_viewsInUse_txn {t : Nat} {x : Txn} (h : db.txns.get? t = some x) :
    ∃ others, db.viewsInUse.Perm (x.view?.toList ++ others) ∧
      ∀ y, (viewsInUse { db with txns := db.txns.modify t (fun _ => y) }).Perm
        (y.view?.toList ++ others) := by
  obtain ⟨rest, hperm, -, hmodify⟩ := Pool.exists_members_perm h
  have hcons : ∀ y : Txn, (y :: rest).filterMap Txn.view? =
      y.view?.toList ++ rest.filterMap Txn.view? := by
    intro y
    rw [List.filterMap_cons]
    cases y.view? <;> rfl
  refine ⟨rest.filterMap Txn.view? ++ db.cursors.members.map (·.view), ?_, fun y => ?_⟩
  · rw [← List.append_assoc, ← hcons]
    exact (hperm.filterMap _).append_right _
  · rw [← List.append_assoc, ← hcons]
    exact ((hmodify fun _ => y).filterMap _).append_right _

/-- Of the views in use, one cursor accounts for its own. -/
theorem exists_viewsInUse_cursor {i : Nat} {c : Cursor} (h : db.cursors.get? i = some c) :
    ∃ others, db.viewsInUse.Perm (c.view :: others) ∧
      (viewsInUse { db with cursors := db.cursors.remove i }).Perm others ∧
      ∀ f : Cursor → Cursor,
        (viewsInUse { db with cursors := db.cursors.modify i f }).Perm ((f c).view :: others) := by
  obtain ⟨rest, hperm, hremove, hmodify⟩ := Pool.exists_members_perm h
  refine ⟨db.txns.members.filterMap Txn.view? ++ rest.map (·.view), ?_, ?_, fun f => ?_⟩
  · exact ((hperm.map _).append_left _).trans List.perm_middle
  · unfold viewsInUse
    rw [hremove]
  · exact (((hmodify f).map _).append_left _).trans List.perm_middle

theorem get?_setTxn {p : Pool Txn} {t t' : Nat} {y : Txn} {c : Cycle}
    (h : (p.modify t fun _ => y).get? t' = some (.active c)) :
    t ≠ t' ∧ p.get? t' = some (.active c) ∨ t = t' ∧ y = .active c := by
  rw [Pool.get?_modify] at h
  split at h
  · next heq =>
    obtain ⟨x, -, hx⟩ := Option.map_eq_some_iff.1 h
    exact .inr ⟨heq, hx⟩
  · next hne => exact .inl ⟨hne, h⟩

/-! Which cycles are active after a step: those that were, but for the transaction of the step. -/

theorem active_of_allocTxn {p : Pool Txn} {t : Nat} {c : Cycle}
    (h : (p.add .invalid).get? t = some (.active c)) : p.get? t = some (.active c) := by
  rcases Pool.get?_add_eq_some h with h | ⟨-, h⟩
  · exact h
  · cases h

theorem active_of_endCycle {t t' : Nat} {c c' : Cycle} {final : Txn} (hfinal : final.view? = none)
    (h : (db.endCycle t c final).txns.get? t' = some (.active c')) :
    t ≠ t' ∧ db.txns.get? t' = some (.active c') := by
  rcases get?_setTxn h with h | ⟨-, rfl⟩
  · exact h
  · cases hfinal

/-- The data of a cycle that a replacement keeps are those of a cycle that was active before. -/
theorem active_of_setCycle {β : Type} (data : Cycle → β) {t t' : Nat} {c c' c₁ : Cycle}
    (hc : db.txns.get? t = some (.active c)) (hdata : data c' = data c)
    (h : (db.setCycle t c').txns.get? t' = some (.active c₁)) :
    ∃ c₀, db.txns.get? t' = some (.active c₀) ∧ data c₁ = data c₀ := by
  rcases get?_setTxn h with ⟨-, h⟩ | ⟨rfl, hnew⟩
  · exact ⟨c₁, h, rfl⟩
  · cases hnew
    exact ⟨c, hc, hdata⟩

/-- A database that was just opened has no transactions. -/
theorem not_active_of_opened (h : db.Opened) (t : Nat) (c : Cycle) :
    db.txns.get? t ≠ some (.active c) := by
  obtain ⟨-, home, settings, config, lock, tree, -, hat⟩ := h.attached
  rw [hat.same]
  intro hc
  cases hc

end HeldViewsLemmas

open HeldViewsLemmas

namespace HeldViews

variable {db db' : Database} {L L' : Ledger}

theorem horizon_le_published (db : Database) : db.pins.horizon db.published ≤ db.published :=
  Pins.horizon_le_published _ _

theorem mem_cycle (h : HeldViews db) {t : Nat} {c : Cycle}
    (hc : db.txns.get? t = some (.active c)) : c.view ∈ db.pins.views := by
  obtain ⟨others, hperm, -⟩ := exists_viewsInUse_txn hc
  exact (h.pins.trans hperm).mem_iff.2 List.mem_cons_self

theorem mem_cursor (h : HeldViews db) {i : Nat} {c : Cursor}
    (hc : db.cursors.get? i = some c) : c.view ∈ db.pins.views := by
  obtain ⟨others, hperm, -⟩ := exists_viewsInUse_cursor hc
  exact (h.pins.trans hperm).mem_iff.2 List.mem_cons_self

/-- The horizon is not above the view of an active cycle. -/
theorem horizon_le_cycle (h : HeldViews db) {t : Nat} {c : Cycle}
    (hc : db.txns.get? t = some (.active c)) : db.pins.horizon db.published ≤ c.view :=
  Pins.horizon_le_of_mem (h.mem_cycle hc) _

/-- The horizon is not above the view of a cursor. -/
theorem horizon_le_cursor (h : HeldViews db) {i : Nat} {c : Cursor}
    (hc : db.cursors.get? i = some c) : db.pins.horizon db.published ≤ c.view :=
  Pins.horizon_le_of_mem (h.mem_cursor hc) _

/-- A cycle that stays active under its number and view. -/
theorem setCycle (h : HeldViews db) {t : Nat} {c c' : Cycle}
    (hc : db.txns.get? t = some (.active c)) (hid : c'.id = c.id) (hview : c'.view = c.view) :
    HeldViews (db.setCycle t c') := by
  obtain ⟨others, hperm, hmodify⟩ := exists_viewsInUse_txn hc
  constructor
  · refine (h.pins.trans hperm).trans ((hmodify (.active c')).trans ?_).symm
    rw [Txn.view?, Txn.view?, hview]
  · exact h.le
  · intro t' c₁ h₁
    obtain ⟨c₀, h₀, hid₀⟩ := active_of_setCycle Cycle.id hc hid h₁
    exact hid₀ ▸ h.id_lt t' c₀ h₀
  · intro t₁ t₂ c₁ c₂ h₁ h₂ heq
    obtain ⟨c₃, h₃, hid₃⟩ := active_of_setCycle Cycle.id hc hid h₁
    obtain ⟨c₄, h₄, hid₄⟩ := active_of_setCycle Cycle.id hc hid h₂
    exact h.id_inj t₁ t₂ c₃ c₄ h₃ h₄ (hid₃ ▸ hid₄ ▸ heq)

theorem beginTxn (h : HeldViews db) {t : Nat} {x : Txn} (now : Nat)
    (hx : db.txns.get? t = some x) (hidle : x.state ≠ .active) :
    HeldViews
      { db.setCycle t { id := db.nextCycle, view := db.published, started := now } with
        nextCycle := db.nextCycle + 1
        pins := db.pins.pin db.published } := by
  obtain ⟨others, hperm, hmodify⟩ := exists_viewsInUse_txn hx
  have hnone : x.view? = none := by
    cases x with
    | active c => exact absurd rfl hidle
    | invalid | committed | aborted => rfl
  -- the transaction held no view before
  rw [hnone] at hperm
  constructor
  · exact (List.Perm.cons _ (h.pins.trans hperm)).trans
      (hmodify (.active { id := db.nextCycle, view := db.published, started := now })).symm
  · intro v hv
    rcases List.mem_cons.1 hv with rfl | hv
    · exact Nat.le_refl _
    · exact h.le v hv
  · intro t' c' hc'
    rcases get?_setTxn hc' with ⟨-, hold⟩ | ⟨-, hnew⟩
    · exact Nat.lt_succ_of_lt (h.id_lt t' c' hold)
    · cases hnew
      exact Nat.lt_succ_self _
  · intro t₁ t₂ c₁ c₂ h₁ h₂ heq
    rcases get?_setTxn h₁ with ⟨-, hold₁⟩ | ⟨ht₁, hnew₁⟩ <;>
      rcases get?_setTxn h₂ with ⟨-, hold₂⟩ | ⟨ht₂, hnew₂⟩
    · exact h.id_inj t₁ t₂ c₁ c₂ hold₁ hold₂ heq
    · -- the new cycle has a number that no other one has had
      cases hnew₂
      exact absurd heq (Nat.ne_of_lt (h.id_lt t₁ c₁ hold₁))
    · cases hnew₁
      exact absurd heq.symm (Nat.ne_of_lt (h.id_lt t₂ c₂ hold₂))
    · rw [← ht₁, ht₂]

theorem endCycle (h : HeldViews db) {t : Nat} {c : Cycle} {final : Txn}
    (hc : db.txns.get? t = some (.active c)) (hfinal : final.view? = none) :
    HeldViews (db.endCycle t c final) := by
  obtain ⟨others, hperm, hmodify⟩ := exists_viewsInUse_txn hc
  have hm := hmodify final
  rw [hfinal] at hm
  constructor
  · -- one pin of the view goes, the one of this cycle
    have herase := (h.pins.trans hperm).erase c.view
    unfold Txn.view? at herase
    rw [Option.toList_some, List.singleton_append, List.erase_cons_head] at herase
    exact herase.trans hm.symm
  · intro v hv
    exact h.le v (List.mem_of_mem_erase hv)
  · intro t' c' hc'
    exact h.id_lt t' c' (active_of_endCycle hfinal hc').2
  · intro t₁ t₂ c₁ c₂ h₁ h₂
    exact h.id_inj t₁ t₂ c₁ c₂ (active_of_endCycle hfinal h₁).2
      (active_of_endCycle hfinal h₂).2

/-- Nothing changes but what is published, and that only grows. -/
theorem of_published_le (h : HeldViews db) (cells : Pool Store) {published : Nat}
    (hle : db.published ≤ published) : HeldViews { db with cells, published } :=
  { h with le := fun v hv => Nat.le_trans (h.le v hv) hle }

theorem openCursor (h : HeldViews db) (c : Cursor) (hle : c.view ≤ db.published) :
    HeldViews { db with cursors := db.cursors.add c, pins := db.pins.pin c.view } :=
  { h with
    pins := by
      unfold viewsInUse
      rw [Pool.members_add, List.map_append, ← List.append_assoc]
      exact (h.pins.cons c.view).trans (List.perm_append_singleton _ _).symm
    le := fun v hv => by
      rcases List.mem_cons.1 hv with rfl | hv
      · exact hle
      · exact h.le v hv }

theorem closeCursor (h : HeldViews db) {i : Nat} {c : Cursor} (hc : db.cursors.get? i = some c) :
    HeldViews { db with cursors := db.cursors.remove i, pins := db.pins.unpin c.view } :=
  { h with
    pins := by
      obtain ⟨others, hperm, hremove, -⟩ := exists_viewsInUse_cursor hc
      have herase := (h.pins.trans hperm).erase c.view
      rw [List.erase_cons_head] at herase
      exact herase.trans hremove.symm
    le := fun v hv => h.le v (List.mem_of_mem_erase hv) }

theorem moveCursor (h : HeldViews db) {i : Nat} {c : Cursor} (c' : Cursor)
    (hc : db.cursors.get? i = some c) (hview : c'.view = c.view) :
    HeldViews { db with cursors := db.cursors.modify i (fun _ => c') } :=
  { h with
    pins := by
      obtain ⟨others, hperm, -, hmodify⟩ := exists_viewsInUse_cursor hc
      have hm := hmodify fun _ => c'
      rw [hview] at hm
      exact (h.pins.trans hperm).trans hm.symm }

theorem refreshCursor (h : HeldViews db) {i : Nat} {c : Cursor}
    (hc : db.cursors.get? i = some c) :
    HeldViews
      { db with
        cursors := db.cursors.modify i (fun c => { c with view := db.published, atEnd := false })
        pins := (db.pins.pin db.published).unpin c.view } :=
  { h with
    pins := by
      obtain ⟨others, hperm, -, hmodify⟩ := exists_viewsInUse_cursor hc
      have hpinned := (h.pins.trans hperm).cons db.published
      have herase := (hpinned.trans (List.Perm.swap _ _ _)).erase c.view
      rw [List.erase_cons_head] at herase
      exact herase.trans
        (hmodify fun c => { c with view := db.published, atEnd := false }).symm
    le := fun v hv => by
      rcases List.mem_cons.1 (List.mem_of_mem_erase hv) with rfl | hv
      · exact Nat.le_refl _
      · exact h.le v hv }

theorem opened (h : db.Opened) : HeldViews db := by
  have hnone := not_active_of_opened h
  obtain ⟨-, home, settings, config, lock, tree, -, hat⟩ := h.attached
  rw [hat.same] at hnone ⊢
  exact ⟨List.Perm.refl [], fun v hv => absurd hv List.not_mem_nil,
    fun t c hc => absurd hc (hnone t c), fun t t' c c' hc => absurd hc (hnone t c)⟩

/-- Every step keeps the views in use pinned. -/
theorem step (hr : Registry db L) (hstep : Step db L db' L') (h : HeldViews db) :
    HeldViews db' := by
  cases hstep with
  | allocTxn =>
    exact
      { pins := by
          have hnone : [Txn.invalid].filterMap Txn.view? = [] := rfl
          unfold viewsInUse
          rw [Pool.members_add, List.filterMap_append, hnone, List.append_nil]
          exact h.pins
        le := h.le
        id_lt := fun t c hc => h.id_lt t c (active_of_allocTxn hc)
        id_inj := fun t t' c c' hc hc' =>
          h.id_inj t t' c c' (active_of_allocTxn hc) (active_of_allocTxn hc') }
  | beginTxn now hx hidle => exact h.beginTxn now hx hidle
  | doom hc => exact h.setCycle hc rfl rfl
  | write change hc hh hs hbound hclaim hfresh => exact h.setCycle hc rfl rfl
  | endCycle hc => exact h.endCycle hc rfl
  | @commit t c hc hdoomed =>
    obtain ⟨cells, published, heq, -, -, hpublished⟩ := publish_spec hr.ids c
    have hle : db.published ≤ published := by
      rcases hpublished with rfl | ⟨rfl, -⟩ <;> omega
    rw [heq]
    exact (h.of_published_le cells hle).endCycle hc rfl
  | plain change hh hs hplain => exact h.of_published_le _ (Nat.le_succ _)
  | openCursor c hview =>
    refine h.openCursor c ?_
    rcases hview with hview | ⟨t, cycle, hc, hview⟩
    · exact Nat.le_of_eq hview
    · exact hview ▸ h.le _ (h.mem_cycle hc)
  | closeCursor hc => exact h.closeCursor hc
  | moveCursor c' hc hview => exact h.moveCursor c' hc hview
  | refreshCursor hc => exact h.refreshCursor hc
  | fileFault | list | number | delist | createStore | dropStore | openStore | closeStore | saved
  | close | claim | compact => exact { h with }

/-- The views in use are pinned in all that is reached. -/
theorem of_reached (h : Reached db L) : HeldViews db := by
  induction h with
  | opened hdb => exact opened hdb
  | step hr hstep ih => exact step (.of_reached hr) hstep ih

end HeldViews

end SnapshotKv
