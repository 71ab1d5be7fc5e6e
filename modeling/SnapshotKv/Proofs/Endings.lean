import SnapshotKv.Proofs.InTransaction
import SnapshotKv.Proofs.ReadLaw

/-!
# How cycles end

A cycle ends with a commit or without a trace. Many calls can end it: a commit, the closing of the
transaction, an abort, and every call in the transaction that finds the cycle too old. What decides
between the two ends can be told by a caller, who knows when the cycle began and whether one of its
writes was refused with a conflict (`Seen`).

Results:
1. `Watched`: runs together with what is seen of the cycles; `Watched.cycle`: it is so.
2. `answer_of_expired`: every call that uses a cycle finds it too old when it is.
3. `Database.IsPast.play`: a cycle that is over does not come back.
4. `transaction_law`: when a commit succeeds, and what any other end leaves.
-/

namespace SnapshotKv

open Database WithinLemmas

/-! ## 1. What is seen of a cycle -/

/-- What a caller has seen of the last cycle of a transaction. -/
structure Seen where
  /-- The time of the begin. -/
  begun : Nat := 0
  /-- Whether a write was refused with a conflict. -/
  lost : Bool := false
  deriving DecidableEq

namespace Seen

/-- What is seen of the last cycle of a transaction after a call was answered. -/
def afterCall (seen : Seen) (t now : Nat) : Call → Except Fault Reply → Seen
  | .beginTxn t', .ok _ => if t' = t then { begun := now } else seen
  | .write _ (some t') _, .error f =>
    if t' = t ∧ f.isConflict = true then { seen with lost := true } else seen
  | _, _ => seen

/-- What is seen of the last cycle of a transaction after an event. -/
def after (seen : Seen) (t : Nat) (s : Site) : Event → Seen
  | .call now call => seen.afterCall t now call ((Event.call now call).answer s)
  | .files _ => seen

end Seen

/-- Runs with what is seen of the cycles of the transactions. -/
inductive Watched : Site → Ledger → (Nat → Seen) → Prop
  | opened {db : Database} (fs : FileSystem) :
      db.Opened → Watched ⟨db, fs⟩ (Ledger.opened db) fun _ => {}
  | step {s : Site} {L : Ledger} {seen : Nat → Seen} (e : Event) :
      Watched s L seen → Watched (e.next s) (L.after s e) fun t => (seen t).after t s e

theorem Watched.run {s : Site} {L : Ledger} {seen : Nat → Seen} (h : Watched s L seen) : Run s L := by
  induction h with
  | opened fs hdb => exact .opened fs hdb
  | step e _ ih => exact .step e ih

/-- Every run can be watched. -/
theorem Run.watched {s : Site} {L : Ledger} (h : Run s L) : ∃ seen, Watched s L seen := by
  induction h with
  | opened fs hdb => exact ⟨_, .opened fs hdb⟩
  | step e _ ih =>
    obtain ⟨seen, hseen⟩ := ih
    exact ⟨_, .step e hseen⟩

/-- What is seen of the cycles after some events. -/
def watch : List Event → Site → (Nat → Seen) → Nat → Seen
  | [], _, seen => seen
  | e :: rest, s, seen => watch rest (e.next s) fun t => (seen t).after t s e

theorem Watched.play {s : Site} {L : Ledger} {seen : Nat → Seen} (h : Watched s L seen)
    (events : List Event) :
    Watched (play events s L).1 (play events s L).2 (watch events s seen) := by
  induction events generalizing s L seen with
  | nil => exact h
  | cons e rest ih => exact ih (.step e h)

namespace EndingLemmas

variable {now t : Nat} {db : Database} {call : Call} {seen : Seen}

theorem isConflict_of_kind {f : Fault} (h : f.kind ≠ .canceled) : f.isConflict = false := by
  unfold Fault.isConflict
  rw [decide_eq_false h]
  rfl

theorem afterCall_of_plain {f : Fault} (h : f.kind ≠ .canceled) :
    seen.afterCall t now call (.error f) = seen := by
  unfold Seen.afterCall
  split
  · next heq => cases heq
  · next heq =>
    cases heq
    rw [if_neg]
    rintro ⟨-, hconflict⟩
    rw [isConflict_of_kind h] at hconflict
    cases hconflict
  · rfl

theorem afterCall_of_conflict {handle : Nat} {change : Change} {f : Fault}
    (h : f.isConflict = true) :
    seen.afterCall t now (.write handle (some t) change) (.error f) = { seen with lost := true } :=
  if_pos ⟨rfl, h⟩

theorem after_of_other {s : Site} {e : Event} (h : e.txn? ≠ some t) :
    seen.after t s e = seen := by
  cases e with
  | files fs => rfl
  | call now call =>
    show seen.afterCall t now call _ = seen
    unfold Seen.afterCall
    split
    · exact if_neg fun heq => h (congrArg some heq)
    · exact if_neg fun heq => h (congrArg some heq.1)
    · rfl

end EndingLemmas

open EndingLemmas

namespace Within

variable {now t : Nat} {db : Database} {call : Call} {o : Except Fault Reply × Database}

/-- What is seen of an active cycle stays so. -/
theorem seen (h : Within now t db call o) {x : Seen}
    (hbefore : ∀ c, db.txns.get? t = some (.active c) → c.started = x.begun ∧ c.doomed = x.lost)
    {c : Cycle} (hc : o.2.txns.get? t = some (.active c)) :
    c.started = (x.afterCall t now call o.1).begun ∧
      c.doomed = (x.afterCall t now call o.1).lost := by
  cases h with
  | refused hkind =>
    rw [afterCall_of_plain hkind]
    exact hbefore c hc
  | expired hc₀ | lost _ hc₀ | aborted hc₀ =>
    exact absurd rfl (HeldViewsLemmas.active_of_endCycle rfl hc).1
  | committed =>
    exact absurd rfl (HeldViewsLemmas.active_of_endCycle rfl hc).1
  | began hx hidle =>
    obtain ⟨hne, -⟩ | ⟨-, heq⟩ := HeldViewsLemmas.get?_setTxn hc
    · exact absurd rfl hne
    · cases heq
      simp only [Seen.afterCall, ↓reduceIte, and_self]
  | idle | read | openedCursor => exact hbefore c hc
  | doomed hc₀ hlive hdoomed =>
    cases hc₀.symm.trans hc
    rw [afterCall_of_conflict rfl]
    exact ⟨(hbefore c hc).1, hdoomed⟩
  | conflict name locks hc₀ hlive =>
    obtain ⟨hne, -⟩ | ⟨-, heq⟩ := HeldViewsLemmas.get?_setTxn hc
    · exact absurd rfl hne
    · cases heq
      rw [afterCall_of_conflict rfl]
      exact ⟨(hbefore _ hc₀).1, rfl⟩
  | wrote writes locks hc₀ hlive hdoomed =>
    obtain ⟨hne, -⟩ | ⟨-, heq⟩ := HeldViewsLemmas.get?_setTxn hc
    · exact absurd rfl hne
    · cases heq
      have hseen := hbefore _ hc₀
      exact hseen

end Within

/-- In a watched run the active cycle of a transaction began when it is seen to have begun, and is
doomed exactly when a conflict was seen. -/
theorem Watched.cycle {s : Site} {L : Ledger} {seen : Nat → Seen} (h : Watched s L seen) {t : Nat}
    {c : Cycle} (hc : s.db.txns.get? t = some (.active c)) :
    c.started = (seen t).begun ∧ c.doomed = (seen t).lost := by
  induction h generalizing t c with
  | opened fs hdb => exact absurd hc (HeldViewsLemmas.not_active_of_opened hdb t c)
  | @step s L seen e _ ih =>
    by_cases ht : e.txn? = some t
    · cases e with
      | files fs => cases ht
      | call now call => exact (within ht now s).1.seen (fun c hc => ih hc) hc
    · beta_reduce
      rw [after_of_other ht]
      exact ih ((active_next_of_other ht).1 hc)

/-! ## 2. Cycles that are too old -/

/-- Whenever the second attempt succeeds, the first one finds the cycle too old. -/
def EndsLate {α : Type} (db : Database) (late early : Attempt Database α) : Prop :=
  ∀ x db', early.on db = (.ok x, db') → (late.on db).1 = .error Fault.transactionExpired

namespace EndingLemmas

variable {α β : Type} {now now' t : Nat} {db : Database} {c : Cycle}

theorem late_get_bind {f f' : Database → Attempt Database β} (h : EndsLate db (f db) (f' db)) :
    EndsLate db (get >>= f) (get >>= f') := h

theorem late_check_bind {r : Except Fault α} {f f' : α → Attempt Database β}
    (h : ∀ x, r = .ok x → EndsLate db (f x) (f' x)) :
    EndsLate db (Attempt.check r >>= f) (Attempt.check r >>= f') := by
  cases r with
  | error e =>
    intro x db' hearly
    cases hearly
  | ok x => exact h x rfl

/-- A transaction that is active does not begin again. -/
theorem late_beginTxn (hc : db.txns.get? t = some (.active c)) :
    EndsLate db (beginTxn now t) (beginTxn now' t) := by
  refine late_get_bind (late_check_bind fun _ _ => late_check_bind fun x hx => ?_)
  cases (StepLemmas.txn_ok hx).symm.trans hc
  intro x db' hearly
  cases hearly

section Expired

variable (hc : db.txns.get? t = some (.active c)) (hold : db.isExpired now c = true)

include hc hold

theorem late_activeCycle_bind {f f' : Cycle → Attempt Database β} :
    EndsLate db (activeCycle now t >>= f) (activeCycle now' t >>= f') := by
  intro x db' hearly
  obtain ⟨c', db₁, hactive, -⟩ := Attempt.ok_of_bind hearly
  rcases activeCycle_ends now' t db with ⟨e, heq, -⟩ | ⟨c', hopen, -, -⟩
  · cases heq.symm.trans hactive
  · rw [Attempt.on_bind, ReadLemmas.activeCycle_of_active hopen hc, if_pos hold]

theorem late_get (handle : Nat) (key : Bytes) :
    EndsLate db (getRecord now handle (some t) key) (getRecord now' handle (some t) key) := by
  refine late_get_bind (late_check_bind fun hs _ => late_check_bind fun _ _ => ?_)
  exact late_check_bind fun _ _ => late_activeCycle_bind hc hold

theorem late_write (handle : Nat) (change : Change) :
    EndsLate db (writeRecord now handle (some t) change)
      (writeRecord now' handle (some t) change) := by
  refine late_get_bind (late_check_bind fun hs _ => late_check_bind fun _ _ => ?_)
  exact late_check_bind fun _ _ => late_activeCycle_bind hc hold

theorem late_openCursor (handle : Nat) (filter : Bytes) (reverse : Bool) :
    EndsLate db (openCursor now handle (some t) filter reverse)
      (openCursor now' handle (some t) filter reverse) := by
  refine late_get_bind (late_check_bind fun hs _ => late_check_bind fun _ _ => ?_)
  exact late_check_bind fun _ _ => late_activeCycle_bind hc hold

theorem late_closeTxn : EndsLate db (closeTxn now t) (closeTxn now' t) := by
  refine late_get_bind (late_check_bind fun x hx => ?_)
  cases (StepLemmas.txn_ok hx).symm.trans hc
  exact late_activeCycle_bind hc hold

end Expired

theorem late_onDatabase {s : Site} {call : Call} {g : α → Reply} {late early : Attempt Database α}
    (hlate : (Event.call now call).attempt = g <$> Storage.onDatabase late)
    (hearly : (Event.call now' call).attempt = g <$> Storage.onDatabase early)
    (h : EndsLate s.db late early) {r : Reply} (hok : (Event.call now' call).answer s = .ok r) :
    (Event.call now call).answer s = .error Fault.transactionExpired := by
  rw [answer_onDatabase hearly] at hok
  rw [answer_onDatabase hlate]
  cases hon : (early.on s.db).1 with
  | error e =>
    rw [hon] at hok
    cases hok
  | ok x =>
    rw [h x _ (Prod.ext hon rfl)]
    rfl

end EndingLemmas

/-- A call in an active transaction that would succeed at one time finds the cycle too old at another
time at which it is; it is no abort. -/
theorem answer_of_expired {s : Site} {t now now' : Nat} {c : Cycle} {call : Call} {r : Reply}
    (ht : call.txn? = some t) (habort : call.isAbort t = false)
    (hc : s.db.txns.get? t = some (.active c)) (hold : s.db.isExpired now c = true)
    (hok : (Event.call now' call).answer s = .ok r) :
    (Event.call now call).answer s = .error Fault.transactionExpired := by
  cases call with
  | get handle txn key =>
    cases ht
    exact late_onDatabase rfl rfl (late_get hc hold handle key) hok
  | write handle txn change =>
    cases ht
    refine late_onDatabase rfl rfl ?_ hok
    intro x db' hearly
    rw [on_changeRecord] at hearly ⊢
    exact late_write hc hold handle change x db' hearly
  | openCursor handle txn filter reverse =>
    cases ht
    exact late_onDatabase rfl rfl (late_openCursor hc hold handle filter reverse) hok
  | beginTxn t' =>
    cases ht
    exact late_onDatabase rfl rfl (late_beginTxn hc) hok
  | commitTxn t' =>
    cases ht
    exact late_onDatabase rfl rfl (late_activeCycle_bind hc hold) hok
  | abortTxn t' =>
    cases ht
    exact absurd (beq_self_eq_true t) (Bool.eq_false_iff.1 habort)
  | closeTxn t' =>
    cases ht
    exact late_onDatabase rfl rfl (late_closeTxn hc hold) hok
  | param | storeNames | createStore | dropStore | openStore | closeStore | storeParam | allocTxn
  | txnState | closeCursor | readCursor | seekCursor | seekRangeCursor | refreshCursor | compact
  | compactStatus | mediaUsage | sync | close => cases ht

/-! ## 3. Cycles that are over -/

/-- A number that an active cycle had, and that no cycle has again. -/
def Database.IsPast (db : Database) (id : Nat) : Prop := id < db.nextCycle ∧ ¬ db.IsOwner id

namespace Database.IsPast

variable {db db' : Database} {L L' : Ledger} {id : Nat}

/-- New cycles get new numbers. -/
theorem step (h : db.IsPast id) (hstep : Step db L db' L') : db'.IsPast id := by
  obtain ⟨hlt, hnot⟩ := h
  cases hstep with
  | allocTxn =>
    refine ⟨hlt, ?_⟩
    rintro ⟨t, c, hc, hid⟩
    exact hnot ⟨t, c, HeldViewsLemmas.active_of_allocTxn hc, hid⟩
  | beginTxn now hx hidle =>
    refine ⟨Nat.lt_succ_of_lt hlt, ?_⟩
    rintro ⟨t, c, hc, hid⟩
    rcases HeldViewsLemmas.get?_setTxn hc with ⟨-, hc⟩ | ⟨-, heq⟩
    · exact hnot ⟨t, c, hc, hid⟩
    · cases heq
      exact absurd hid (Nat.ne_of_gt hlt)
  | doom hc | write change hc =>
    refine ⟨hlt, ?_⟩
    rintro ⟨t, c, hc', hid⟩
    obtain ⟨c₀, hc₀, hid₀⟩ := HeldViewsLemmas.active_of_setCycle Cycle.id hc (by rfl) hc'
    exact hnot ⟨t, c₀, hc₀, hid₀.symm.trans hid⟩
  | endCycle hc =>
    refine ⟨hlt, ?_⟩
    rintro ⟨t, c, hc', hid⟩
    exact hnot ⟨t, c, (HeldViewsLemmas.active_of_endCycle rfl hc').2, hid⟩
  | @commit t c hc hdoomed =>
    obtain ⟨cells, published, heq, -, -⟩ := publish_same db c
    rw [heq]
    refine ⟨hlt, ?_⟩
    rintro ⟨t, c, hc', hid⟩
    exact hnot ⟨t, c, (HeldViewsLemmas.active_of_endCycle rfl hc').2, hid⟩
  | fileFault | list | number | delist | createStore | dropStore | openStore | closeStore | saved
  | close | plain | claim | openCursor | closeCursor | moveCursor | refreshCursor | compact =>
    exact ⟨hlt, hnot⟩

theorem steps (h : db.IsPast id) (hsteps : Steps db L db' L') : db'.IsPast id := by
  induction hsteps with
  | refl => exact h
  | tail _ hstep ih => exact ih.step hstep

theorem play {s : Site} {L : Ledger} (h : s.db.IsPast id) (events : List Event) :
    (play events s L).1.db.IsPast id := by
  induction events generalizing s L with
  | nil => exact h
  | cons e rest ih => exact ih (h.steps (e.steps s L))

end Database.IsPast

/-- No lock of a cycle that is over is left, or comes back. -/
theorem Holdings.owner_ne {db : Database} (h : Holdings db) {id : Nat} (hpast : db.IsPast id) :
    ∀ l ∈ db.locks.keys ++ db.locks.prefixes, l.owner ≠ id := by
  intro l hl heq
  refine hpast.2 (heq ▸ ?_)
  exact (List.mem_append.1 hl).elim (h.keys l) (h.prefixes l)

/-! ## 4. The law -/

namespace EndingLemmas

variable {now t : Nat} {db : Database} {c : Cycle}

theorem commitTxn_of_active (hopen : db.closed = false) (hc : db.txns.get? t = some (.active c))
    (now : Nat) :
    (commitTxn now t).on db =
      if db.isExpired now c then (.error Fault.transactionExpired, db.endCycle t c .aborted)
      else if c.doomed then (.error Fault.lostConflict, db.endCycle t c .aborted)
      else (.ok (), (db.publish c).endCycle t c .committed) := by
  rw [commitTxn, Attempt.on_bind, ReadLemmas.activeCycle_of_active hopen hc]
  cases db.isExpired now c with
  | true => rfl
  | false =>
    simp only [Bool.false_eq_true, ↓reduceIte]
    cases c.doomed <;> rfl

theorem lookup_of_isEmpty {w : WriteSet} (h : w.isEmpty = true) (key : Bytes) :
    w.lookup key = .absent := by
  simp only [WriteSet.isEmpty, Bool.and_eq_true, List.isEmpty_iff] at h
  simp only [WriteSet.lookup, SortedMap.get?, h.1, h.2, List.lookup_nil, List.any_nil,
    Bool.false_eq_true, ↓reduceIte]

/-- After a commit the published view sees the writes of the cycle over what it saw before, and the
views before it see no difference. -/
theorem get_publish (hids : db.DistinctIds) (hupTo : ∀ i s, db.cells.get? i = some s →
    s.tree.UpTo db.published) (c : Cycle) {i : Nat} {s : Store} (hi : i ∈ db.stores.values)
    (hs : db.cells.get? i = some s) :
    ∃ s', (db.publish c).cells.get? i = some s' ∧
      (∀ key, s'.tree.get key (db.publish c).published =
        match (c.writesTo s.id).lookup key with
        | .value v => some v
        | .deleted => none
        | .absent => s.tree.get key db.published) ∧
      ∀ key view, view ≤ db.published → s'.tree.get key view = s.tree.get key view := by
  obtain ⟨cells, published, heq, -, htrees, hpublished⟩ := publish_spec hids c
  obtain ⟨s', hs', htree⟩ := htrees i s hs
  rw [if_pos hi] at htree
  rw [heq]
  refine ⟨s', hs', fun key => ?_, fun key view hview => ?_⟩ <;> rw [htree]
  · rcases hpublished with rfl | ⟨rfl, hempty⟩
    · have hget := (hupTo i s hs).get_eq (Nat.le_succ db.published) key
      have happlied := WriteSet.get_applyTo_of_le
        ((hupTo i s hs).below (Nat.lt_succ_self db.published)) (c.writesTo s.id) key (Nat.le_refl _)
      rw [hget] at happlied
      exact happlied
    · have hno := hempty i s hi hs
      rw [ContentsLemmas.applyTo_of_isEmpty hno, lookup_of_isEmpty hno]
  · exact WriteSet.get_applyTo_of_lt _ _ key (Nat.lt_succ_of_le hview)

end EndingLemmas

/-- What holds of a transaction on a site with a ledger, after what was seen of its cycle. -/
structure TransactionLaw (s : Site) (L : Ledger) (t : Nat) (seen : Seen) : Prop where
  /-- A commit succeeds exactly when the database is open, the transaction is active and not too old,
  and none of its writes was refused with a conflict. -/
  commits : ∀ now, (Event.call now (.commitTxn t)).answer s = .ok .done ↔
    s.db.closed = false ∧ s.db.txnState t = .ok .active ∧
      now - seen.begun ≤ s.db.settings.txnTimeout * 1000 ∧ seen.lost = false
  /-- On an open database the commit of an active transaction fails for its age or for a conflict. -/
  refuses : ∀ now f, s.db.closed = false → s.db.txnState t = .ok .active →
    (Event.call now (.commitTxn t)).answer s = .error f →
      f = Fault.transactionExpired ∨ f = Fault.lostConflict
  /-- The closing of an active transaction is a commit. -/
  closes : ∀ now, s.db.txnState t = .ok .active →
    (Event.call now (.closeTxn t)).answer s = (Event.call now (.commitTxn t)).answer s ∧
      (Event.call now (.closeTxn t)).next s = (Event.call now (.commitTxn t)).next s
  /-- The abort of an active transaction succeeds. -/
  aborts : ∀ now, s.db.txnState t = .ok .active →
    (Event.call now (.abortTxn t)).answer s = .ok .done
  /-- A call in an active transaction, other than an abort, that would succeed at some time finds the
  cycle expired at every time at which it is too old. -/
  expires : ∀ now now' call r, s.db.txnState t = .ok .active → call.txn? = some t →
    call.isAbort t = false → s.db.settings.txnTimeout * 1000 < now - seen.begun →
    (Event.call now' call).answer s = .ok r →
      (Event.call now call).answer s = .error Fault.transactionExpired
  /-- A successful commit leaves an active transaction committed. An abort, an expiry and a commit
  after a conflict leave it aborted. After all else it is still active. -/
  state : ∀ e : Event, s.db.txnState t = .ok .active →
    (e.next s).db.txnState t = .ok (e.leaves t s)
  /-- A successful commit makes the writes of the cycle visible, in every store that can be found, to
  the view that is published then, and changes no view before. -/
  publishes : ∀ now call c, s.db.txns.get? t = some (.active c) → call.isCommit t = true →
    (Event.call now call).answer s = .ok .done →
    ∀ i st, i ∈ s.db.stores.values → s.db.cells.get? i = some st →
      ∃ st', ((Event.call now call).next s).db.cells.get? i = some st' ∧
        (∀ key, st'.tree.get key ((Event.call now call).next s).db.published =
          match (c.writesTo st.id).lookup key with
          | .value v => some v
          | .deleted => none
          | .absent => st.tree.get key s.db.published) ∧
        ∀ key view, view ≤ s.db.published → st'.tree.get key view = st.tree.get key view
  /-- Nothing else that is called in a transaction changes what is committed, or the files. -/
  keeps : ∀ now call, call.txn? = some t → ((Event.call now call).next s).fs = s.fs ∧
    (SameCommitted s.db ((Event.call now call).next s).db ∨
      call.isCommit t = true ∧ s.db.txnState t = .ok .active ∧
        (Event.call now call).answer s = .ok .done)
  /-- Once a cycle is over, the locks and the pins are those of the others, and it has no lock ever
  after. -/
  clears : ∀ (e : Event) c, s.db.txns.get? t = some (.active c) →
    (e.next s).db.txnState t ≠ .ok .active → Cleared t c s.db (e.next s).db ∧
      ∀ rest, ∀ l ∈ (play rest (e.next s) (L.after s e)).1.db.locks.keys ++
        (play rest (e.next s) (L.after s e)).1.db.locks.prefixes, l.owner ≠ c.id

namespace EndingLemmas

variable {s : Site} {L : Ledger} {seen : Nat → Seen} {t : Nat}

theorem answer_commitTxn (now : Nat) (s : Site) :
    (Event.call now (.commitTxn t)).answer s = ((commitTxn now t).on s.db).1.map fun _ => .done :=
  answer_onDatabase rfl s

theorem isExpired_eq (h : Watched s L seen) {c : Cycle}
    (hc : s.db.txns.get? t = some (.active c)) (now : Nat) :
    s.db.isExpired now c = decide (s.db.settings.txnTimeout * 1000 < now - (seen t).begun) := by
  rw [← (h.cycle hc).1]
  rfl

/-- A commit that succeeds found the cycle of an active transaction. -/
theorem active_of_commit {now : Nat} {r : Reply}
    (hok : (Event.call now (.commitTxn t)).answer s = .ok r) :
    s.db.closed = false ∧ ∃ c, s.db.txns.get? t = some (.active c) := by
  rw [answer_commitTxn] at hok
  rcases activeCycle_ends now t s.db with ⟨e, heq, -⟩ | ⟨c, hopen, hc, -⟩
  · rw [commitTxn, Attempt.on_bind, heq] at hok
    cases hok
  · exact ⟨hopen, c, hc⟩

/-- The answer of the commit of an active transaction, by its age and by whether a conflict was
seen. -/
theorem answer_of_watched (h : Watched s L seen) (hopen : s.db.closed = false) {c : Cycle}
    (hc : s.db.txns.get? t = some (.active c)) (now : Nat) :
    (Event.call now (.commitTxn t)).answer s =
      if s.db.settings.txnTimeout * 1000 < now - (seen t).begun then
        .error Fault.transactionExpired
      else if (seen t).lost then .error Fault.lostConflict else .ok .done := by
  obtain ⟨hbegun, hlost⟩ := h.cycle hc
  rw [answer_commitTxn, commitTxn_of_active hopen hc, ← hbegun, ← hlost]
  unfold Database.isExpired
  by_cases hold : s.db.settings.txnTimeout * 1000 < now - c.started
  · rw [if_pos hold, if_pos (decide_eq_true hold)]
    rfl
  · rw [if_neg hold, if_neg (by rw [decide_eq_false hold]; exact Bool.false_ne_true)]
    cases c.doomed <;> rfl

theorem commits_of_watched (h : Watched s L seen) (now : Nat) :
    (Event.call now (.commitTxn t)).answer s = .ok .done ↔
      s.db.closed = false ∧ s.db.txnState t = .ok .active ∧
        now - (seen t).begun ≤ s.db.settings.txnTimeout * 1000 ∧ (seen t).lost = false := by
  constructor
  · intro hok
    obtain ⟨hopen, c, hc⟩ := active_of_commit hok
    rw [answer_of_watched h hopen hc] at hok
    split at hok
    · cases hok
    · next hage =>
      split at hok
      · cases hok
      · next hlost =>
        exact ⟨hopen, state_of_active hc, Nat.not_lt.1 hage, Bool.eq_false_iff.2 hlost⟩
  · rintro ⟨hopen, hstate, hage, hlost⟩
    obtain ⟨c, hc⟩ := active_of_state hstate
    rw [answer_of_watched h hopen hc, if_neg (Nat.not_lt.2 hage), hlost]
    rfl

theorem refuses_of_watched (h : Watched s L seen) {now : Nat} {f : Fault}
    (hopen : s.db.closed = false) (hstate : s.db.txnState t = .ok .active)
    (hf : (Event.call now (.commitTxn t)).answer s = .error f) :
    f = Fault.transactionExpired ∨ f = Fault.lostConflict := by
  obtain ⟨c, hc⟩ := active_of_state hstate
  rw [answer_of_watched h hopen hc] at hf
  split at hf
  · cases hf
    exact .inl rfl
  · split at hf
    · cases hf
      exact .inr rfl
    · cases hf

/-- On an active transaction closing and committing are one attempt. -/
theorem closeTxn_of_active {db : Database} {c : Cycle} (hc : db.txns.get? t = some (.active c))
    (now : Nat) : (closeTxn now t).on db = (commitTxn now t).on db := by
  have htxn : db.txn t = .ok (.active c) := by
    unfold Database.txn
    rw [hc]
    rfl
  simp only [closeTxn, Attempt.on_bind, Attempt.on_get, Attempt.on_check, htxn]

theorem on_closeTxn {c : Cycle} (hc : s.db.txns.get? t = some (.active c)) (now : Nat) :
    ((Call.closeTxn t).attempt now).on s = ((Call.commitTxn t).attempt now).on s := by
  simp only [Call.attempt, Attempt.on_map, Storage.on_onDatabase, closeTxn_of_active hc]

theorem aborts_of_active {c : Cycle} (hc : s.db.txns.get? t = some (.active c)) (now : Nat) :
    (Event.call now (.abortTxn t)).answer s = .ok .done := by
  have htxn : s.db.txn t = .ok (.active c) := by
    unfold Database.txn
    rw [hc]
    rfl
  rw [answer_onDatabase (a := abortTxn t) (g := fun _ => .done) rfl s]
  simp only [abortTxn, Attempt.on_bind, Attempt.on_get, Attempt.on_check, htxn]
  rfl

theorem state_next (s : Site) (e : Event) (hstate : s.db.txnState t = .ok .active) :
    (e.next s).db.txnState t = .ok (e.leaves t s) := by
  obtain ⟨c, hc⟩ := active_of_state hstate
  by_cases ht : e.txn? = some t
  · cases e with
    | files fs => cases ht
    | call now call =>
      exact (HoldingsLemmas.txnState_eq_ok_iff _ t _).2 ((within ht now s).1.leaves ht hc)
  · rw [leaves_of_other ht]
    exact state_of_active ((active_next_of_other ht).2 hc)

/-- A commit that succeeds publishes the cycle and ends it. -/
theorem next_commitTxn {now : Nat} {c : Cycle} {r : Reply}
    (hc : s.db.txns.get? t = some (.active c))
    (hok : (Event.call now (.commitTxn t)).answer s = .ok r) :
    ((Event.call now (.commitTxn t)).next s).db = (s.db.publish c).endCycle t c .committed := by
  have hon := commitTxn_of_active (active_of_commit hok).1 hc now
  rw [answer_commitTxn, hon] at hok
  rw [next_onDatabase (a := commitTxn now t) (g := fun _ => .done) rfl s, hon]
  split at hok
  · cases hok
  · next hage =>
    split at hok
    · cases hok
    · next hdoomed => rw [if_neg hage, if_neg hdoomed]

theorem next_commit {now : Nat} {call : Call} {c : Cycle} {r : Reply}
    (hc : s.db.txns.get? t = some (.active c)) (hcall : call.isCommit t = true)
    (hok : (Event.call now call).answer s = .ok r) :
    ((Event.call now call).next s).db = (s.db.publish c).endCycle t c .committed := by
  unfold Call.isCommit at hcall
  split at hcall
  · cases eq_of_beq hcall
    exact next_commitTxn hc hok
  · cases eq_of_beq hcall
    unfold Event.answer Event.next at *
    unfold Event.attempt at *
    rw [on_closeTxn hc] at hok ⊢
    exact next_commitTxn hc hok
  · cases hcall

/-- The cycle of an active transaction is over after an event: nothing of it is left, now or later. -/
theorem clears_next (hrun : Run s L) (e : Event) {c : Cycle}
    (hc : s.db.txns.get? t = some (.active c)) (hover : (e.next s).db.txnState t ≠ .ok .active) :
    Cleared t c s.db (e.next s).db ∧ (e.next s).db.IsPast c.id := by
  have hviews := HeldViews.of_reached hrun.reached
  have hnone : ∀ c', (e.next s).db.txns.get? t ≠ some (.active c') := fun c' hc' =>
    hover (state_of_active hc')
  by_cases ht : e.txn? = some t
  · cases e with
    | files fs => cases ht
    | call now call =>
      obtain ⟨hcleared, hnext⟩ := (within ht now s).1.cleared hviews hc hnone
      refine ⟨hcleared, ?_, ?_⟩
      · rw [hnext]
        exact hviews.id_lt t c hc
      · rintro ⟨t', c', hc', hid⟩
        have hne : t' ≠ t := fun heq => hnone c' (heq ▸ hc')
        rw [hcleared.txns t' hne] at hc'
        exact hne (hviews.id_inj t' t c' c hc' hc hid)
  · exact absurd ((active_next_of_other ht).2 hc) (hnone c)

end EndingLemmas

/-- The law of every transaction in every run. -/
theorem transaction_law {s : Site} {L : Ledger} {seen : Nat → Seen} (h : Watched s L seen) (t : Nat) :
    TransactionLaw s L t (seen t) where
  commits := commits_of_watched h
  refuses := fun _ _ => refuses_of_watched h
  closes := fun now hstate => by
    obtain ⟨c, hc⟩ := active_of_state hstate
    have hon := on_closeTxn hc now
    exact ⟨congrArg Prod.fst hon, congrArg Prod.snd hon⟩
  aborts := fun now hstate => by
    obtain ⟨c, hc⟩ := active_of_state hstate
    exact aborts_of_active hc now
  expires := fun now now' call r hstate ht habort hage hok => by
    obtain ⟨c, hc⟩ := active_of_state hstate
    exact answer_of_expired ht habort hc ((isExpired_eq h hc now).trans (decide_eq_true hage)) hok
  state := state_next s
  publishes := fun now call c hc hcall hok i st hi hst => by
    have hreached := h.run.reached
    rw [next_commit hc hcall hok]
    exact get_publish (Registry.of_reached hreached).ids (History.of_reached hreached).upTo c hi hst
  keeps := fun now call ht => by
    obtain ⟨hends, hfs⟩ := within ht now s
    refine ⟨hfs, ?_⟩
    rcases hends.committed_same with hsame | ⟨hcall, ⟨c, hc⟩, hok⟩
    · exact .inl hsame
    · exact .inr ⟨hcall, state_of_active hc, hok⟩
  clears := fun e c hc hover => by
    obtain ⟨hcleared, hpast⟩ := clears_next h.run e hc hover
    refine ⟨hcleared, fun rest => ?_⟩
    have hlater := (Run.step e h.run).play rest
    exact (Holdings.of_reached hlater.reached).owner_ne (hpast.play rest)

/-- Two cycles at once; the second one writes a key of its own, and then loses a conflict over a key of
the first one. -/
def contestedEvents : List Event :=
  [.call 0 (.openStore "a" ["transactions.enabled=true"]), .call 0 .allocTxn, .call 0 .allocTxn,
    .call 3 (.beginTxn 0), .call 5 (.beginTxn 1), .call 6 (.write 0 (some 0) (.put [107] [1])),
    .call 6 (.write 0 (some 1) (.put [108] [2])), .call 6 (.write 0 (some 1) (.put [107] [2]))]

set_option maxRecDepth 2000 in
/-- The second transaction is active and holds a lock, but was seen to lose a conflict, so no commit of
it can succeed; the first one can. -/
theorem transaction_law_contested :
    watch contestedEvents ⟨smallDatabase, {}⟩ (fun _ => {}) 1 = ⟨5, true⟩ ∧
      (playSmall contestedEvents).1.db.txnState 1 = .ok .active ∧
      (playSmall contestedEvents).1.db.locks.keys = [⟨1, [107], 1⟩, ⟨1, [108], 2⟩] ∧
      (Event.call 7 (.commitTxn 0)).answer (playSmall contestedEvents).1 = .ok .done ∧
      TransactionLaw (playSmall contestedEvents).1 (playSmall contestedEvents).2 1 ⟨5, true⟩ :=
  ⟨rfl, rfl, rfl, rfl,
    transaction_law ((Watched.opened {} opened_smallDatabase).play contestedEvents) 1⟩

end SnapshotKv
