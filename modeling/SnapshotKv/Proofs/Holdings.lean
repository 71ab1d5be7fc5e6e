import SnapshotKv.Proofs.Drafts

/-!
# What active transactions hold

An active cycle holds locks, a pin of its view and a number of its own, a cursor only a pin. The lock
table, the pins and the write sets are kept apart and changed by different calls; the statement here
is that they agree after every event.

Results:
1. `Holdings.step`: every lock belongs to an active cycle, and every write is under a lock of its
   cycle.
2. `Holdings.of_reached`.
3. `consistent_of_run`: the transactions, the locks and the pins are `Consistent` in every run.
-/

namespace SnapshotKv

open Database

/-- Every key and every prefix of a write set is locked for its owner. -/
structure LockTable.Covers (t : LockTable) (store : Nat) (w : WriteSet) (owner : Nat) : Prop where
  keys : ∀ key value, w.entries.get? key = some value → ⟨store, key, owner⟩ ∈ t.keys
  prefixes : ∀ stem ∈ w.prefixes, ⟨store, stem, owner⟩ ∈ t.prefixes

/-- An active cycle has the number. -/
def Database.IsOwner (db : Database) (owner : Nat) : Prop :=
  ∃ t c, db.txns.get? t = some (.active c) ∧ c.id = owner

/-- Locks are held by active cycles, and active cycles write under locks of their own. -/
structure Holdings (db : Database) : Prop where
  keys : ∀ l ∈ db.locks.keys, db.IsOwner l.owner
  prefixes : ∀ l ∈ db.locks.prefixes, db.IsOwner l.owner
  covered : ∀ t c store, db.txns.get? t = some (.active c) →
    db.locks.Covers store (c.writesTo store) c.id

namespace HoldingsLemmas

variable {t t' : LockTable} {store owner : Nat} {w : WriteSet}

theorem covers_empty (t : LockTable) (store owner : Nat) : t.Covers store {} owner := by
  constructor
  · intro key value hkey
    cases hkey
  · intro stem hstem
    cases hstem

/-- More locks still cover. -/
theorem covers_mono (h : t.Covers store w owner) (hkeys : ∀ l ∈ t.keys, l ∈ t'.keys)
    (hprefixes : ∀ l ∈ t.prefixes, l ∈ t'.prefixes) : t'.Covers store w owner :=
  ⟨fun key value hkey => hkeys _ (h.keys key value hkey),
    fun stem hstem => hprefixes _ (h.prefixes stem hstem)⟩

/-- The locks of another owner are not needed. -/
theorem covers_release (h : t.Covers store w owner) {other : Nat} (hne : owner ≠ other) :
    (t.release other).Covers store w owner :=
  ⟨fun key value hkey => List.mem_filter.2 ⟨h.keys key value hkey, bne_iff_ne.2 hne⟩,
    fun stem hstem => List.mem_filter.2 ⟨h.prefixes stem hstem, bne_iff_ne.2 hne⟩⟩

theorem covers_insert (h : t.Covers store w owner) {key : Bytes} (value : Option Bytes)
    (hkey : ⟨store, key, owner⟩ ∈ t.keys) :
    t.Covers store { w with entries := w.entries.insert key value } owner := by
  refine ⟨fun k v hk => ?_, h.prefixes⟩
  rw [SortedMap.get?_insert] at hk
  split at hk
  · next heq => exact eq_of_beq heq ▸ hkey
  · exact h.keys k v hk

theorem covers_deletePrefix (h : t.Covers store w owner) {stem : Bytes}
    (hstem : ⟨store, stem, owner⟩ ∈ t.prefixes) :
    t.Covers store (w.deletePrefix stem) owner := by
  constructor
  · intro k v hk
    simp only [WriteSet.deletePrefix, SortedMap.get?_filter, Option.filter_eq_some_iff] at hk
    exact h.keys k v hk.1
  · intro stem' hstem'
    simp only [WriteSet.deletePrefix] at hstem'
    split at hstem'
    · exact h.prefixes stem' hstem'
    · rcases List.mem_append.1 hstem' with hstem' | hstem'
      · exact h.prefixes stem' hstem'
      · exact List.mem_singleton.1 hstem' ▸ hstem

/-- A change that is written under its lock. -/
theorem covers_onWrites (h : t.Covers store w owner) {c : Change} (hc : t.Holds store c owner) :
    t.Covers store (c.onWrites w) owner := by
  cases c with
  | put key value => exact covers_insert h (some value) hc
  | delete key => exact covers_insert h none hc
  | deletePrefix stem => exact covers_deletePrefix h hc

/-- A lock that is there after a change was claimed was there before, or is on the store and of the
owner of the claim. -/
theorem of_mem_claim {c : Change} :
    (∀ l ∈ (c.claim store t owner).2.keys, l ∈ t.keys ∨ l.store = store ∧ l.owner = owner) ∧
      ∀ l ∈ (c.claim store t owner).2.prefixes,
        l ∈ t.prefixes ∨ l.store = store ∧ l.owner = owner := by
  have hnew : ∀ (locks : List Lock) (key : Bytes), ∀ l ∈ locks ++ [⟨store, key, owner⟩],
      l ∈ locks ∨ l.store = store ∧ l.owner = owner := by
    intro locks key l hl
    rcases List.mem_append.1 hl with hl | hl
    · exact .inl hl
    · exact .inr (List.mem_singleton.1 hl ▸ ⟨rfl, rfl⟩)
  cases c with
  | put key value | delete key =>
    simp only [Change.claim]
    rcases LockTable.lockKey_eq t store key owner with h | ⟨-, -, h⟩ <;> rw [h]
    · exact ⟨fun _ hl => .inl hl, fun _ hl => .inl hl⟩
    · exact ⟨hnew t.keys key, fun _ hl => .inl hl⟩
  | deletePrefix stem =>
    simp only [Change.claim, LockTable.lockPrefix]
    split
    · exact ⟨fun _ hl => .inl hl, fun _ hl => .inl hl⟩
    · exact ⟨fun _ hl => .inl hl, hnew t.prefixes stem⟩

theorem get?_setTxn_of_ne {p : Pool Txn} {t t' : Nat} (y : Txn) (hne : t ≠ t') :
    (p.modify t fun _ => y).get? t' = p.get? t' := by
  rw [Pool.get?_modify, if_neg hne]

theorem get?_setTxn_self {p : Pool Txn} {t : Nat} {x : Txn} (y : Txn) (hx : p.get? t = some x) :
    (p.modify t fun _ => y).get? t = some y := by
  rw [Pool.get?_modify, if_pos rfl, hx, Option.map_some]

end HoldingsLemmas

open HoldingsLemmas HeldViewsLemmas DraftsLemmas

namespace Holdings

variable {db db' : Database} {L L' : Ledger}

/-- Owners stay owners under another table of transactions that has their cycles. -/
theorem of_owners (h : Holdings db) {txns : Pool Txn}
    (howner : ∀ owner, db.IsOwner owner → IsOwner { db with txns } owner)
    (hcovered : ∀ t c store, txns.get? t = some (.active c) →
      db.locks.Covers store (c.writesTo store) c.id) : Holdings { db with txns } :=
  ⟨fun l hl => howner _ (h.keys l hl), fun l hl => howner _ (h.prefixes l hl), hcovered⟩

theorem allocTxn (h : Holdings db) : Holdings { db with txns := db.txns.add .invalid } := by
  refine h.of_owners ?_ fun t c store hc => h.covered t c store (active_of_allocTxn hc)
  rintro owner ⟨t, c, hc, hid⟩
  exact ⟨t, c, Pool.get?_add_of_some _ hc, hid⟩

/-- A transaction that was not active gets a cycle without writes. -/
theorem beginTxn (h : Holdings db) {t : Nat} {x : Txn} (now : Nat)
    (hx : db.txns.get? t = some x) (hidle : x.state ≠ .active) :
    Holdings (db.setCycle t { id := db.nextCycle, view := db.published, started := now }) := by
  refine h.of_owners ?_ fun t' c store hc => ?_
  · rintro owner ⟨t', c, hc, hid⟩
    have hne : t ≠ t' := by
      rintro rfl
      rw [hc] at hx
      cases hx
      exact hidle rfl
    exact ⟨t', c, (get?_setTxn_of_ne _ hne).trans hc, hid⟩
  · rcases get?_setTxn hc with ⟨-, hc⟩ | ⟨-, heq⟩
    · exact h.covered t' c store hc
    · cases heq
      exact covers_empty _ _ _

/-- A cycle that stays active under its number, with writes that are covered. -/
theorem setCycle (h : Holdings db) {t : Nat} {c c' : Cycle}
    (hc : db.txns.get? t = some (.active c)) (hid : c'.id = c.id)
    (hcovered : ∀ store, db.locks.Covers store (c'.writesTo store) c.id) :
    Holdings (db.setCycle t c') := by
  refine h.of_owners ?_ fun t₁ c₁ store h₁ => ?_
  · rintro owner ⟨t₁, c₁, h₁, hid₁⟩
    by_cases hne : t = t₁
    · subst hne
      rw [hc] at h₁
      cases h₁
      exact ⟨t, c', get?_setTxn_self _ hc, hid.trans hid₁⟩
    · exact ⟨t₁, c₁, (get?_setTxn_of_ne _ hne).trans h₁, hid₁⟩
  · rcases get?_setTxn h₁ with ⟨-, h₁⟩ | ⟨-, heq⟩
    · exact h.covered t₁ c₁ store h₁
    · cases heq
      exact hid ▸ hcovered store

theorem claim (h : Holdings db) {t store : Nat} {c : Cycle} (change : Change)
    (hc : db.txns.get? t = some (.active c)) :
    Holdings { db with locks := (change.claim store db.locks c.id).2 } := by
  obtain ⟨hkeys, hprefixes⟩ := @of_mem_claim db.locks store c.id change
  obtain ⟨hkept, hkept'⟩ := LockTable.subset_claim db.locks store change c.id
  have howner : db.IsOwner c.id := ⟨t, c, hc, rfl⟩
  constructor
  · intro l hl
    rcases hkeys l hl with hl | ⟨-, hl⟩
    · exact h.keys l hl
    · exact hl ▸ howner
  · intro l hl
    rcases hprefixes l hl with hl | ⟨-, hl⟩
    · exact h.prefixes l hl
    · exact hl ▸ howner
  · intro t' c' store' hc'
    exact covers_mono (h.covered t' c' store' hc') hkept hkept'

theorem write (h : Holdings db) {t id : Nat} {c : Cycle} {change : Change}
    (hc : db.txns.get? t = some (.active c)) (hclaim : db.locks.Holds id change c.id) :
    Holdings
      (db.setCycle t
        { c with writes := c.writes.insert id (change.onWrites (c.writesTo id)) }) := by
  refine h.setCycle hc rfl fun store => ?_
  rw [writesTo_insert]
  split
  · next heq =>
    subst heq
    exact covers_onWrites (h.covered t c store hc) hclaim
  · exact h.covered t c store hc

theorem endCycle (h : Holdings db) (hv : HeldViews db) {t : Nat} {c : Cycle} {final : Txn}
    (hc : db.txns.get? t = some (.active c)) (hfinal : final.view? = none) :
    Holdings (db.endCycle t c final) := by
  -- the owner of a lock that is left is another cycle, which goes on
  have howner : ∀ owner, owner ≠ c.id → db.IsOwner owner →
      (db.endCycle t c final).IsOwner owner := by
    rintro owner hne ⟨t', c', hc', rfl⟩
    have hother : t ≠ t' := by
      rintro rfl
      rw [hc] at hc'
      cases hc'
      exact hne rfl
    exact ⟨t', c', (get?_setTxn_of_ne _ hother).trans hc', rfl⟩
  constructor
  · intro l hl
    obtain ⟨hl, hne⟩ := List.mem_filter.1 hl
    exact howner _ (bne_iff_ne.1 hne) (h.keys l hl)
  · intro l hl
    obtain ⟨hl, hne⟩ := List.mem_filter.1 hl
    exact howner _ (bne_iff_ne.1 hne) (h.prefixes l hl)
  · intro t' c' store hc'
    obtain ⟨hne, hc'⟩ := active_of_endCycle hfinal hc'
    exact covers_release (h.covered t' c' store hc') fun heq =>
      hne (hv.id_inj t t' c c' hc hc' heq.symm)

theorem opened (h : db.Opened) : Holdings db := by
  have hnone := not_active_of_opened h
  obtain ⟨-, home, settings, config, lock, tree, -, hat⟩ := h.attached
  rw [hat.same] at hnone ⊢
  exact ⟨fun l hl => absurd hl List.not_mem_nil, fun l hl => absurd hl List.not_mem_nil,
    fun t c store hc => absurd hc (hnone t c)⟩

/-- Every step keeps the locks and the write sets together. -/
theorem step (hr : Registry db L) (hv : HeldViews db) (hstep : Step db L db' L')
    (h : Holdings db) : Holdings db' := by
  cases hstep with
  | allocTxn => exact h.allocTxn
  | beginTxn now hx hidle => exact { h.beginTxn now hx hidle with }
  | claim change hc hs => exact h.claim change hc
  | @doom t c hc => exact h.setCycle hc rfl fun store => h.covered t c store hc
  | write change hc hh hs hbound hclaim hfresh => exact h.write hc hclaim
  | endCycle hc => exact h.endCycle hv hc rfl
  | @commit t c hc hdoomed =>
    obtain ⟨cells, published, heq, -⟩ := publish_spec hr.ids c
    rw [heq]
    have hended : Holdings (db.endCycle t c .committed) := h.endCycle hv hc rfl
    exact { hended with }
  | fileFault | list | number | delist | createStore | dropStore | openStore | closeStore | saved
  | close | plain | openCursor | closeCursor | moveCursor | refreshCursor | compact =>
    exact { h with }

/-- The locks and the write sets agree in all that is reached. -/
theorem of_reached (h : Reached db L) : Holdings db := by
  induction h with
  | opened hdb => exact opened hdb
  | step hr hstep ih => exact step (.of_reached hr) (.of_reached hr) hstep ih

end Holdings

/-! ## Runs -/

/-- How many active cycles and cursors read a view. -/
def Database.holders (db : Database) (view : Nat) : Nat :=
  db.txns.members.countP (fun x => x.view? == some view) +
    db.cursors.members.countP (fun c => c.view == view)

/-- The transactions, the locks and the pins of a database agree. -/
structure Database.Consistent (db : Database) : Prop where
  /-- A transaction has a cycle exactly while its state is active. The type of transactions says so
  already; all other parts are kept by the steps. -/
  active : ∀ t, db.txnState t = .ok .active ↔ ∃ c, db.txns.get? t = some (.active c)
  /-- Active cycles have numbers of their own. -/
  numbers : ∀ t t' c c', db.txns.get? t = some (.active c) →
    db.txns.get? t' = some (.active c') → c.id = c'.id → t = t'
  /-- Every lock belongs to an active cycle. -/
  owned : ∀ l ∈ db.locks.keys ++ db.locks.prefixes, db.IsOwner l.owner
  /-- Every key and prefix that an active cycle has written is locked for it. -/
  covered : ∀ t c store, db.txns.get? t = some (.active c) →
    db.locks.Covers store (c.writesTo store) c.id
  /-- Locks that overlap have one owner. -/
  exclusive : db.locks.Exclusive
  /-- A view is pinned once for every active cycle and every cursor that reads it. -/
  pinned : ∀ view, db.pins.views.count view = db.holders view
  /-- Only what was published is pinned. -/
  published : ∀ view ∈ db.pins.views, view ≤ db.published
  /-- The horizon of compaction is not above a view that is still read. -/
  horizon : ∀ view, 0 < db.holders view → db.pins.horizon db.published ≤ view

namespace HoldingsLemmas

theorem count_filterMap {α : Type} (f : α → Option Nat) (l : List α) (n : Nat) :
    (l.filterMap f).count n = l.countP fun a => f a == some n := by
  induction l with
  | nil => rfl
  | cons a rest ih =>
    rw [List.filterMap_cons, List.countP_cons, ← ih]
    cases f a with
    | none => rfl
    | some m => rw [List.count_cons]; rfl

theorem count_viewsInUse (db : Database) (view : Nat) :
    db.viewsInUse.count view = db.holders view := by
  unfold Database.viewsInUse Database.holders
  rw [List.count_append, count_filterMap, List.count, List.countP_map]
  rfl

theorem txnState_eq_ok_iff (db : Database) (t : Nat) (state : TxnState) :
    db.txnState t = .ok state ↔ ∃ x, db.txns.get? t = some x ∧ x.state = state := by
  unfold Database.txnState Database.txn
  cases db.txns.get? t with
  | none =>
    constructor
    · intro h
      cases h
    · rintro ⟨x, hx, -⟩
      cases hx
  | some x =>
    constructor
    · intro h
      exact ⟨x, rfl, Except.ok.inj h⟩
    · rintro ⟨x', hx, rfl⟩
      cases hx
      rfl

theorem state_active_iff (x : Txn) : x.state = .active ↔ ∃ c, x = .active c := by
  cases x with
  | active c => exact iff_of_true rfl ⟨c, rfl⟩
  | invalid | committed | aborted =>
    refine iff_of_false TxnState.noConfusion ?_
    rintro ⟨c, hc⟩
    cases hc

end HoldingsLemmas

/-- In every run the transactions, the locks and the pins agree. -/
theorem consistent_of_run {s : Site} {L : Ledger} (hrun : Run s L) : s.db.Consistent := by
  have hviews := HeldViews.of_reached hrun.reached
  have hholdings := Holdings.of_reached hrun.reached
  have hcount : ∀ view, s.db.pins.views.count view = s.db.holders view := fun view =>
    (hviews.pins.count_eq view).trans (count_viewsInUse s.db view)
  exact
    { active := fun t => by
        simp only [txnState_eq_ok_iff, state_active_iff]
        exact ⟨fun ⟨_, hx, c, hc⟩ => ⟨c, hc ▸ hx⟩, fun ⟨c, hc⟩ => ⟨_, hc, c, rfl⟩⟩
      numbers := hviews.id_inj
      owned := fun l hl => (List.mem_append.1 hl).elim (hholdings.keys l) (hholdings.prefixes l)
      covered := hholdings.covered
      exclusive := (Drafts.of_reached hrun.reached).exclusive
      pinned := hcount
      published := hviews.le
      horizon := fun view hview =>
        Pins.horizon_le_of_mem (List.count_pos_iff.1 (hcount view ▸ hview)) _ }

/-- Two cycles at once, one with a key and one with a prefix, and a write that is refused. There are
cursors on the published contents and on the view of a cycle, and a cycle that was aborted. -/
def sharedEvents : List Event :=
  [.call 0 (.openStore "a" ["transactions.enabled=true"]), .call 0 .allocTxn, .call 0 .allocTxn,
    .call 0 (.beginTxn 0), .call 0 (.write 0 (some 0) (.put [106] [1])), .call 0 (.commitTxn 0),
    .call 0 (.beginTxn 0), .call 0 (.beginTxn 1), .call 0 (.write 0 (some 0) (.put [107] [1])),
    .call 0 (.write 0 (some 1) (.deletePrefix [108])),
    .call 0 (.write 0 (some 1) (.delete [107])), .call 0 (.openCursor 0 (some 0) [107] false),
    .call 0 .allocTxn, .call 0 (.beginTxn 2), .call 0 (.write 0 (some 2) (.put [109] [1])),
    .call 0 (.abortTxn 2), .call 0 (.openCursor 0 none [] true)]

set_option maxRecDepth 2000 in
/-- After these events two cycles hold one lock each, and the published view is read four times. -/
theorem consistent_of_run_shared :
    (playSmall sharedEvents).1.db.locks.keys = [⟨1, [107], 2⟩] ∧
      (playSmall sharedEvents).1.db.locks.prefixes = [⟨1, [108], 3⟩] ∧
      (playSmall sharedEvents).1.db.holders 1 = 4 ∧
      (playSmall sharedEvents).1.db.Consistent :=
  ⟨rfl, rfl, rfl, consistent_of_run (run_playSmall sharedEvents)⟩

end SnapshotKv
