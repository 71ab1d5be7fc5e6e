import SnapshotKv.Proofs.Edits
import SnapshotKv.Proofs.Holdings
import SnapshotKv.Proofs.Saving

/-!
# Calls in a transaction

Many calls can be made in a transaction, and each of them can be refused or end the cycle. `Within`
lists the ways in which such a call ends, so what holds of each way holds of every call; calls that
are not made in a transaction leave its cycle alone.

Results:
1. `Within`, `within`: how a call in a transaction ends.
2. `txns_next`, `active_next_of_other`: other calls leave the transactions.
3. `Within.leaves`, `Within.committed_same`, `Within.cleared`: the state of the transaction
   afterwards, what stays of the committed contents, and what is left of a cycle that is over.
-/

namespace SnapshotKv

open Database

/-! ## 1. How a call ends -/

/-- The transaction that a call is made in, or on. -/
def Call.txn? : Call → Option Nat
  | .get _ txn _ | .write _ txn _ | .openCursor _ txn _ _ => txn
  | .beginTxn t | .commitTxn t | .abortTxn t | .closeTxn t => some t
  | _ => none

/-- Whether a call commits a transaction that is active. -/
def Call.isCommit (t : Nat) : Call → Bool
  | .commitTxn t' | .closeTxn t' => t' == t
  | _ => false

/-- Whether a call aborts a transaction. -/
def Call.isAbort (t : Nat) : Call → Bool
  | .abortTxn t' => t' == t
  | _ => false

/-- How a call in a transaction ends: its answer and the database that it leaves. -/
inductive Within (now t : Nat) (db : Database) : Call → Except Fault Reply × Database → Prop
  /-- A check failed that has nothing to do with the cycle. -/
  | refused {call : Call} {f : Fault} (hkind : f.kind ≠ .canceled) :
      Within now t db call (.error f, db)
  | expired {call : Call} {c : Cycle} (hc : db.txns.get? t = some (.active c))
      (hold : db.isExpired now c = true) :
      Within now t db call (.error Fault.transactionExpired, db.endCycle t c .aborted)
  | began {x : Txn} (hx : db.txns.get? t = some x) (hidle : x.state ≠ .active) :
      Within now t db (.beginTxn t)
        (.ok .done, { db.setCycle t { id := db.nextCycle, view := db.published, started := now } with
          nextCycle := db.nextCycle + 1
          pins := db.pins.pin db.published })
  | committed {call : Call} {c : Cycle} (hcall : call.isCommit t = true)
      (hopen : db.closed = false) (hc : db.txns.get? t = some (.active c))
      (hlive : db.isExpired now c = false) (hdoomed : c.doomed = false) :
      Within now t db call (.ok .done, (db.publish c).endCycle t c .committed)
  /-- A commit after a lost conflict. -/
  | lost {call : Call} {c : Cycle} (hcall : call.isCommit t = true)
      (hc : db.txns.get? t = some (.active c)) (hlive : db.isExpired now c = false) :
      Within now t db call (.error Fault.lostConflict, db.endCycle t c .aborted)
  | aborted {c : Cycle} (hc : db.txns.get? t = some (.active c)) :
      Within now t db (.abortTxn t) (.ok .done, db.endCycle t c .aborted)
  /-- The closing of a transaction that was not active. -/
  | idle {x : Txn} (hx : db.txns.get? t = some x) (hidle : x.state ≠ .active) :
      Within now t db (.closeTxn t) (.ok .done, db)
  | read {handle : Nat} {key : Bytes} {c : Cycle} (v : Option Bytes)
      (hc : db.txns.get? t = some (.active c)) (hlive : db.isExpired now c = false) :
      Within now t db (.get handle (some t) key) (.ok (.value v), db)
  | openedCursor {handle : Nat} {filter : Bytes} {reverse : Bool} {c : Cycle} (cursor : Cursor)
      (hc : db.txns.get? t = some (.active c)) (hlive : db.isExpired now c = false) :
      Within now t db (.openCursor handle (some t) filter reverse)
        (.ok (.number db.cursors.nextId),
          { db with cursors := db.cursors.add cursor, pins := db.pins.pin c.view })
  /-- A write after a lost conflict. -/
  | doomed {handle : Nat} {change : Change} {c : Cycle} (hc : db.txns.get? t = some (.active c))
      (hlive : db.isExpired now c = false) (hdoomed : c.doomed = true) :
      Within now t db (.write handle (some t) change) (.error Fault.alreadyLost, db)
  /-- A write that lost a conflict. -/
  | conflict {handle : Nat} {change : Change} {c : Cycle} (name : String) (locks : LockTable)
      (hc : db.txns.get? t = some (.active c)) (hlive : db.isExpired now c = false) :
      Within now t db (.write handle (some t) change)
        (.error (Fault.writeConflict name),
          { db.setCycle t { c with doomed := true } with locks })
  | wrote {handle : Nat} {change : Change} {c : Cycle} (writes : SortedMap Nat WriteSet)
      (locks : LockTable) (hc : db.txns.get? t = some (.active c))
      (hlive : db.isExpired now c = false) (hdoomed : c.doomed = false) :
      Within now t db (.write handle (some t) change)
        (.ok .done, { db.setCycle t { c with writes } with locks })

namespace WithinLemmas

variable {α β : Type} {now t : Nat} {db : Database} {call : Call}

/-- A check that fails, if it does, for a reason that has nothing to do with a cycle. -/
def Plain (r : Except Fault α) : Prop := ∀ f, r = .error f → f.kind ≠ .canceled

theorem plain_ok (x : α) : Plain (.ok x : Except Fault α) := by
  intro f hf
  cases hf

theorem plain_throw {f : Fault} (hf : f.kind ≠ .canceled) : Plain (throw f : Except Fault α) := by
  intro f' hf'
  cases hf'
  exact hf

theorem plain_bind {r : Except Fault α} {f : α → Except Fault β} (hr : Plain r)
    (hf : ∀ x, Plain (f x)) : Plain (r >>= f) := by
  cases r with
  | error e => exact plain_throw (hr e rfl)
  | ok x => exact hf x

theorem plain_if {p : Prop} [Decidable p] {r r' : Except Fault α} (hr : Plain r)
    (hr' : Plain r') : Plain (if p then r else r') := by
  split
  · exact hr
  · exact hr'

theorem plain_checkOpen (db : Database) : Plain db.checkOpen :=
  plain_if (plain_throw FaultKind.noConfusion) (plain_ok ())

theorem plain_handleStore (db : Database) (handle : Nat) : Plain (db.handleStore handle) := by
  unfold Database.handleStore
  split
  · split
    · exact plain_ok _
    · exact plain_throw FaultKind.noConfusion
  · exact plain_throw FaultKind.noConfusion

theorem plain_checkDoomed {c : Cycle} (h : c.doomed = false) : Plain (checkDoomed c) := by
  unfold checkDoomed
  rw [h]
  exact plain_ok ()

theorem plain_txn (db : Database) (t : Nat) : Plain (db.txn t) := by
  unfold Database.txn
  split
  · exact plain_ok _
  · exact plain_throw FaultKind.noConfusion

theorem plain_checkKey (key : Bytes) : Plain (Limits.checkKey key) :=
  plain_if (plain_throw FaultKind.noConfusion)
    (plain_if (plain_throw FaultKind.noConfusion) (plain_ok ()))

theorem plain_checkBound (bound : Bytes) : Plain (Limits.checkBound bound) :=
  plain_if (plain_throw FaultKind.noConfusion) (plain_ok ())

theorem plain_check (change : Change) (s : Store) : Plain (change.check s) := by
  cases change with
  | put key value =>
    exact plain_bind (plain_checkKey key) fun _ =>
      plain_if (plain_throw FaultKind.noConfusion) (plain_ok ())
  | delete key => exact plain_checkKey key
  | deletePrefix stem => exact plain_if (plain_throw FaultKind.noConfusion) (plain_ok ())

theorem plain_checkAccess (db : Database) (h : Handle) (s : Store) (bound : Bool)
    (access : Access) : Plain (db.checkAccess h s bound access) := by
  refine plain_bind (plain_checkOpen db) fun _ => ?_
  refine plain_if (plain_throw FaultKind.noConfusion) (plain_if ?_ (plain_ok ()))
  refine plain_bind (plain_if (plain_throw FaultKind.noConfusion) (plain_ok ())) fun _ => ?_
  exact plain_if (plain_throw FaultKind.noConfusion) (plain_ok ())

/-- The outcome of an attempt, with the answer of a call. -/
def answered (g : α → Reply) (o : Except Fault α × Database) : Except Fault Reply × Database :=
  (o.1.map g, o.2)

theorem within_get_bind {g : β → Reply} {f : Database → Attempt Database β}
    (h : Within now t db call (answered g ((f db).on db))) :
    Within now t db call (answered g ((get >>= f).on db)) := h

theorem within_check_bind {g : β → Reply} {r : Except Fault α} {f : α → Attempt Database β}
    (hr : Plain r) (h : ∀ x, r = .ok x → Within now t db call (answered g ((f x).on db))) :
    Within now t db call (answered g ((Attempt.check r >>= f).on db)) := by
  cases hx : r with
  | error f' => exact .refused (hr f' hx)
  | ok x => exact h x hx

theorem closed_of_checkOpen (h : db.checkOpen = .ok ()) : db.closed = false := by
  unfold Database.checkOpen at h
  split at h
  · cases h
  · next hopen => exact Bool.eq_false_iff.2 hopen

/-- Asking for the cycle of an active transaction is refused, ends the cycle, or answers it. -/
theorem activeCycle_ends (now t : Nat) (db : Database) :
    (∃ f, (activeCycle now t).on db = (.error f, db) ∧ f.kind ≠ .canceled) ∨
      ∃ c, db.closed = false ∧ db.txns.get? t = some (.active c) ∧
        (activeCycle now t).on db =
          if db.isExpired now c then (.error Fault.transactionExpired, db.endCycle t c .aborted)
          else (.ok c, db) := by
  simp only [activeCycle, Attempt.on_bind, Attempt.on_get, Attempt.on_check]
  cases hopen : db.checkOpen with
  | error e => exact .inl ⟨e, rfl, plain_checkOpen db e hopen⟩
  | ok _ =>
    cases hx : db.txn t with
    | error e => exact .inl ⟨e, rfl, plain_txn db t e hx⟩
    | ok x =>
      cases x with
      | active c =>
        refine .inr ⟨c, closed_of_checkOpen hopen, StepLemmas.txn_ok hx, ?_⟩
        simp only
        split <;> rfl
      | invalid | committed | aborted => exact .inl ⟨_, rfl, FaultKind.noConfusion⟩

/-- A sequence that starts with the cycle of an active transaction. -/
theorem within_activeCycle_bind {g : β → Reply} {f : Cycle → Attempt Database β}
    (h : ∀ c, db.closed = false → db.txns.get? t = some (.active c) → db.isExpired now c = false →
      Within now t db call (answered g ((f c).on db))) :
    Within now t db call (answered g ((activeCycle now t >>= f).on db)) := by
  rw [Attempt.on_bind]
  rcases activeCycle_ends now t db with ⟨e, heq, hkind⟩ | ⟨c, hopen, hc, heq⟩
  · rw [heq]
    exact .refused hkind
  · rw [heq]
    cases hold : db.isExpired now c with
    | true => exact .expired hc hold
    | false => exact h c hopen hc hold

theorem within_get (handle : Nat) (key : Bytes) :
    Within now t db (.get handle (some t) key)
      (answered .value ((getRecord now handle (some t) key).on db)) := by
  refine within_get_bind (within_check_bind (plain_handleStore db handle) fun hs _ => ?_)
  refine within_check_bind (plain_checkAccess _ _ _ _ _) fun _ _ => ?_
  refine within_check_bind (plain_checkKey key) fun _ _ => ?_
  refine within_activeCycle_bind fun c _ hc hlive => ?_
  split
  · exact .read _ hc hlive
  · exact .read _ hc hlive
  · exact .read _ hc hlive

theorem within_openCursor (handle : Nat) (filter : Bytes) (reverse : Bool) :
    Within now t db (.openCursor handle (some t) filter reverse)
      (answered .number ((openCursor now handle (some t) filter reverse).on db)) := by
  refine within_get_bind (within_check_bind (plain_handleStore db handle) fun hs _ => ?_)
  refine within_check_bind (plain_checkAccess _ _ _ _ _) fun _ _ => ?_
  refine within_check_bind (plain_checkBound filter) fun _ _ => ?_
  exact within_activeCycle_bind fun c _ hc hlive => .openedCursor _ hc hlive

theorem within_write (handle : Nat) (change : Change) :
    Within now t db (.write handle (some t) change)
      (answered (fun _ => .done) ((writeRecord now handle (some t) change).on db)) := by
  refine within_get_bind (within_check_bind (plain_handleStore db handle) fun hs _ => ?_)
  refine within_check_bind (plain_checkAccess _ _ _ _ _) fun _ _ => ?_
  refine within_check_bind (plain_check change _) fun _ _ => ?_
  refine within_activeCycle_bind fun c _ hc hlive => ?_
  by_cases hdoomed : c.doomed = true
  · unfold checkDoomed
    rw [if_pos hdoomed]
    exact .doomed hc hlive hdoomed
  · rw [Bool.not_eq_true] at hdoomed
    refine within_check_bind (plain_checkDoomed hdoomed) fun _ _ => within_get_bind ?_
    cases hgranted : (change.claim hs.2.id db.locks c.id).1 with
    | false =>
      simp only [hgranted, Bool.not_false, ↓reduceIte]
      exact .conflict _ db.locks hc hlive
    | true =>
      simp only [hgranted, Bool.not_true, Bool.false_eq_true, ↓reduceIte, Attempt.on_bind,
        Attempt.on_set]
      split
      · exact .conflict _ _ hc hlive
      · exact .wrote _ _ hc hlive hdoomed

theorem within_beginTxn :
    Within now t db (.beginTxn t) (answered (fun _ => .done) ((beginTxn now t).on db)) := by
  refine within_get_bind (within_check_bind (plain_checkOpen db) fun _ _ => ?_)
  refine within_check_bind (plain_txn db t) fun x hx => ?_
  cases x with
  | active c => exact .refused FaultKind.noConfusion
  | invalid | committed | aborted => exact .began (StepLemmas.txn_ok hx) TxnState.noConfusion

theorem within_commitTxn (hcall : call.isCommit t = true) :
    Within now t db call (answered (fun _ => .done) ((commitTxn now t).on db)) := by
  refine within_activeCycle_bind fun c hopen hc hlive => ?_
  cases hdoomed : c.doomed with
  | true => exact .lost hcall hc hlive
  | false => exact .committed hcall hopen hc hlive hdoomed

theorem within_abortTxn :
    Within now t db (.abortTxn t) (answered (fun _ => .done) ((abortTxn t).on db)) := by
  refine within_get_bind (within_check_bind (plain_txn db t) fun x hx => ?_)
  cases x with
  | active c => exact .aborted (StepLemmas.txn_ok hx)
  | invalid | committed | aborted => exact .refused FaultKind.noConfusion

theorem within_closeTxn :
    Within now t db (.closeTxn t) (answered (fun _ => .done) ((closeTxn now t).on db)) := by
  refine within_get_bind (within_check_bind (plain_txn db t) fun x hx => ?_)
  cases x with
  | active c => exact within_commitTxn (beq_self_eq_true t)
  | invalid | committed | aborted => exact .idle (StepLemmas.txn_ok hx) TxnState.noConfusion

theorem answer_onDatabase {g : α → Reply} {a : Attempt Database α}
    (hcall : (Event.call now call).attempt = g <$> Storage.onDatabase a) (s : Site) :
    (Event.call now call).answer s = (a.on s.db).1.map g := by
  unfold Event.answer
  rw [hcall, Attempt.on_map, Storage.on_onDatabase]

theorem next_onDatabase {g : α → Reply} {a : Attempt Database α}
    (hcall : (Event.call now call).attempt = g <$> Storage.onDatabase a) (s : Site) :
    (Event.call now call).next s = { s with db := (a.on s.db).2 } := by
  unfold Event.next
  rw [hcall, Attempt.on_map, Storage.on_onDatabase]

/-- A call that is an attempt on the database leaves the files. -/
theorem within_onDatabase {s : Site} {g : α → Reply} {a : Attempt Database α}
    (hcall : (Event.call now call).attempt = g <$> Storage.onDatabase a)
    (h : Within now t s.db call (answered g (a.on s.db))) :
    Within now t s.db call ((Event.call now call).answer s, ((Event.call now call).next s).db) ∧
      ((Event.call now call).next s).fs = s.fs := by
  rw [answer_onDatabase hcall, next_onDatabase hcall]
  exact ⟨h, rfl⟩

end WithinLemmas

open WithinLemmas

/-- A call in a transaction ends in one of these ways, and leaves the files. -/
theorem within {call : Call} {t : Nat} (ht : call.txn? = some t) (now : Nat) (s : Site) :
    Within now t s.db call ((Event.call now call).answer s, ((Event.call now call).next s).db) ∧
      ((Event.call now call).next s).fs = s.fs := by
  cases call with
  | get handle txn key =>
    cases ht
    exact within_onDatabase rfl (within_get handle key)
  | write handle txn change =>
    cases ht
    refine within_onDatabase rfl ?_
    rw [on_changeRecord]
    exact within_write handle change
  | openCursor handle txn filter reverse =>
    cases ht
    exact within_onDatabase rfl (within_openCursor handle filter reverse)
  | beginTxn t =>
    cases ht
    exact within_onDatabase rfl within_beginTxn
  | commitTxn t =>
    cases ht
    exact within_onDatabase rfl (within_commitTxn (beq_self_eq_true t))
  | abortTxn t =>
    cases ht
    exact within_onDatabase rfl within_abortTxn
  | closeTxn t =>
    cases ht
    exact within_onDatabase rfl within_closeTxn
  | param | storeNames | createStore | dropStore | openStore | closeStore | storeParam | allocTxn
  | txnState | closeCursor | readCursor | seekCursor | seekRangeCursor | refreshCursor | compact
  | compactStatus | mediaUsage | sync | close => cases ht

/-! ## 2. Other calls -/

/-- The transactions and their locks are the same. -/
structure SameTxns (db db' : Database) : Prop where
  txns : db'.txns = db.txns
  locks : db'.locks = db.locks

namespace WithinLemmas

variable {α β : Type} {db : Database}

theorem same_get_bind {f : Database → Attempt Database β} (h : SameTxns db ((f db).on db).2) :
    SameTxns db ((get >>= f).on db).2 := h

theorem same_check_bind {r : Except Fault α} {f : α → Attempt Database β}
    (h : ∀ x, SameTxns db ((f x).on db).2) :
    SameTxns db ((Attempt.check r >>= f).on db).2 := by
  cases r with
  | error e => exact ⟨rfl, rfl⟩
  | ok x => exact h x

theorem same_openStore (name : String) (params : List String) :
    SameTxns db ((openStore name params).on db).2 := by
  refine same_get_bind (same_check_bind fun _ => same_check_bind fun found => ?_)
  refine same_check_bind fun settings => ?_
  simp only
  split <;> exact ⟨rfl, rfl⟩

theorem same_closeStore (handle : Nat) : SameTxns db (db.closeStore handle) := by
  unfold Database.closeStore
  split <;> exact ⟨rfl, rfl⟩

theorem same_getRecord (now handle : Nat) (key : Bytes) :
    SameTxns db ((getRecord now handle none key).on db).2 := by
  refine same_get_bind (same_check_bind fun hs => same_check_bind fun _ => ?_)
  exact same_check_bind fun _ => ⟨rfl, rfl⟩

theorem same_writeRecord (now handle : Nat) (change : Change) :
    SameTxns db ((writeRecord now handle none change).on db).2 := by
  refine same_get_bind (same_check_bind fun hs => same_check_bind fun _ => ?_)
  exact same_check_bind fun _ => ⟨rfl, rfl⟩

theorem same_openCursor (now handle : Nat) (filter : Bytes) (reverse : Bool) :
    SameTxns db ((openCursor now handle none filter reverse).on db).2 := by
  refine same_get_bind (same_check_bind fun hs => same_check_bind fun _ => ?_)
  exact same_check_bind fun _ => ⟨rfl, rfl⟩

theorem same_closeCursor (cursor : Nat) : SameTxns db (db.closeCursor cursor) := by
  unfold Database.closeCursor
  split <;> exact ⟨rfl, rfl⟩

theorem same_onCursor (cursor : Nat) (call : Store → Except Fault Unit → Attempt Cursor α) :
    SameTxns db ((onCursor cursor call).on db).2 :=
  same_get_bind (same_check_bind fun _ => ⟨rfl, rfl⟩)

theorem same_refreshCursor (cursor : Nat) : SameTxns db ((refreshCursor cursor).on db).2 := by
  refine same_get_bind (same_check_bind fun _ => same_check_bind fun found => ?_)
  simp only
  split <;> exact ⟨rfl, rfl⟩

theorem same_compact : SameTxns db (compact.on db).2 :=
  same_get_bind (same_check_bind fun _ => ⟨rfl, rfl⟩)

theorem same_saved {s : Site} {cell : Nat} {o : Except Fault Unit × Site} (h : Saved s cell o) :
    SameTxns s.db o.2.db := by
  obtain ⟨cells, heq⟩ := h.same
  rw [heq]
  exact ⟨rfl, rfl⟩

theorem same_sync (s : Site) : SameTxns s.db (Storage.sync.on s).2.db :=
  sync_induct (P := fun s' => SameTxns s.db s'.db)
    (fun _ _ _ _ hends h =>
      ⟨(same_saved hends).txns.trans h.txns, (same_saved hends).locks.trans h.locks⟩)
    ⟨rfl, rfl⟩

theorem same_close (s : Site) : SameTxns s.db (Storage.close.on s).2.db := by
  cases hopen : s.db.closed with
  | true =>
    rw [on_close, hopen, if_pos rfl]
    exact ⟨rfl, rfl⟩
  | false =>
    obtain ⟨cells, heq⟩ := close_same hopen
    rw [heq]
    exact ⟨rfl, rfl⟩

end WithinLemmas

/-- A call that is not in a transaction leaves the transactions and their locks, but for one that
makes a new transaction. -/
theorem txns_next {call : Call} (ht : call.txn? = none) (now : Nat) (s : Site) :
    SameTxns s.db ((Event.call now call).next s).db ∨
      ((Event.call now call).next s).db = { s.db with txns := s.db.txns.add .invalid } := by
  simp only [Event.next, Event.attempt]
  cases call with
  | beginTxn | commitTxn | abortTxn | closeTxn => cases ht
  | allocTxn => exact .inr rfl
  | param | storeNames | storeParam | txnState | compactStatus =>
    rw [Call.attempt, Attempt.on_map]
    exact .inl ⟨rfl, rfl⟩
  | createStore name params =>
    have hends := creation s name params
    simp only [Call.attempt, Attempt.on_map]
    generalize (Storage.createStore name params).on s = o at hends ⊢
    cases hends <;> exact .inl ⟨rfl, rfl⟩
  | dropStore name =>
    have hends := removal s name
    simp only [Call.attempt, Attempt.on_map]
    generalize (Storage.dropStore name).on s = o at hends ⊢
    cases hends <;> exact .inl ⟨rfl, rfl⟩
  | openStore name params =>
    simp only [Call.attempt, Attempt.on_map]
    exact .inl (same_openStore name params)
  | closeStore handle => exact .inl (same_closeStore handle)
  | get handle txn key =>
    cases ht
    simp only [Call.attempt, Attempt.on_map]
    exact .inl (same_getRecord now handle key)
  | write handle txn change =>
    cases ht
    simp only [Call.attempt, Attempt.on_map, Storage.on_onDatabase, on_changeRecord]
    exact .inl (same_writeRecord now handle change)
  | openCursor handle txn filter reverse =>
    cases ht
    simp only [Call.attempt, Attempt.on_map]
    exact .inl (same_openCursor now handle filter reverse)
  | closeCursor cursor => exact .inl (same_closeCursor cursor)
  | readCursor cursor | seekCursor cursor key | seekRangeCursor cursor low high =>
    simp only [Call.attempt, Attempt.on_map]
    exact .inl (same_onCursor cursor _)
  | refreshCursor cursor =>
    simp only [Call.attempt, Attempt.on_map]
    exact .inl (same_refreshCursor cursor)
  | compact =>
    simp only [Call.attempt, Attempt.on_map]
    exact .inl same_compact
  | mediaUsage m =>
    rw [Call.attempt, Attempt.on_map, EditLemmas.on_mediaUsage]
    exact .inl ⟨rfl, rfl⟩
  | sync =>
    simp only [Call.attempt, Attempt.on_map]
    exact .inl (same_sync s)
  | close =>
    simp only [Call.attempt, Attempt.on_map]
    exact .inl (same_close s)

/-- The transaction that an event is a call in. -/
def Event.txn? : Event → Option Nat
  | .call _ c => c.txn?
  | .files _ => none

namespace Within

variable {now t : Nat} {db : Database} {call : Call} {o : Except Fault Reply × Database}

/-- A call in a transaction leaves the other transactions. -/
theorem others (h : Within now t db call o) {t' : Nat} (hne : t' ≠ t) :
    o.2.txns.get? t' = db.txns.get? t' := by
  cases h with
  | refused | idle | read | openedCursor | doomed => rfl
  | expired | began | lost | aborted | conflict | wrote =>
    exact HoldingsLemmas.get?_setTxn_of_ne _ hne.symm
  | @committed call c =>
    obtain ⟨cells, published, heq, -, -⟩ := publish_same db c
    rw [heq]
    exact HoldingsLemmas.get?_setTxn_of_ne _ hne.symm

end Within

/-- An event that is no call in a transaction leaves its cycle. -/
theorem active_next_of_other {s : Site} {e : Event} {t : Nat} {c : Cycle} (h : e.txn? ≠ some t) :
    (e.next s).db.txns.get? t = some (.active c) ↔ s.db.txns.get? t = some (.active c) := by
  cases e with
  | files fs => exact Iff.rfl
  | call now call =>
    cases ht : call.txn? with
    | some t' =>
      have hne : t ≠ t' := fun heq => h (heq ▸ ht)
      rw [(within ht now s).1.others hne]
    | none =>
      rcases txns_next ht now s with hsame | heq
      · rw [hsame.txns]
      · rw [heq]
        exact ⟨HeldViewsLemmas.active_of_allocTxn, Pool.get?_add_of_some _⟩

/-! ## 3. What a call leaves -/

/-- The committed contents and the marks of what is to be saved are the same. -/
structure SameCommitted (db db' : Database) : Prop where
  cells : db'.cells = db.cells
  stores : db'.stores = db.stores
  published : db'.published = db.published

/-- Of the locks and the pins those of one cycle are gone, and the others are as before; so are the
other transactions and the cursors. -/
structure Cleared (t : Nat) (c : Cycle) (db db' : Database) : Prop where
  keys : ∀ l, l ∈ db'.locks.keys ↔ l ∈ db.locks.keys ∧ l.owner ≠ c.id
  prefixes : ∀ l, l ∈ db'.locks.prefixes ↔ l ∈ db.locks.prefixes ∧ l.owner ≠ c.id
  pins : db.pins.views.Perm (c.view :: db'.pins.views)
  txns : ∀ t', t' ≠ t → db'.txns.get? t' = db.txns.get? t'
  cursors : db'.cursors = db.cursors

/-- The state in which a call leaves a transaction that was active, by its answer. -/
def Call.leaves (t : Nat) (call : Call) : Except Fault Reply → TxnState
  | .ok _ => if call.isCommit t then .committed else if call.isAbort t then .aborted else .active
  | .error f =>
    if call.txn? = some t ∧ (f = Fault.transactionExpired ∨ f = Fault.lostConflict) then .aborted
    else .active

/-- The state in which an event leaves a transaction that was active. -/
def Event.leaves (t : Nat) (s : Site) : Event → TxnState
  | .call now c => c.leaves t ((Event.call now c).answer s)
  | .files _ => .active

namespace WithinLemmas

variable {now t : Nat} {db : Database} {call : Call}

theorem active_of_state {db : Database} (h : db.txnState t = .ok .active) :
    ∃ c, db.txns.get? t = some (.active c) := by
  obtain ⟨x, hx, hstate⟩ := (HoldingsLemmas.txnState_eq_ok_iff db t .active).1 h
  obtain ⟨c, rfl⟩ := (HoldingsLemmas.state_active_iff x).1 hstate
  exact ⟨c, hx⟩

theorem state_of_active {db : Database} {c : Cycle} (h : db.txns.get? t = some (.active c)) :
    db.txnState t = .ok .active :=
  (HoldingsLemmas.txnState_eq_ok_iff db t .active).2 ⟨_, h, rfl⟩

theorem cleared_endCycle (hv : HeldViews db) {c : Cycle} (hc : db.txns.get? t = some (.active c))
    (cells : Pool Store) (published : Nat) (final : Txn) :
    Cleared t c db (Database.endCycle { db with cells, published } t c final) where
  keys := fun l => by
    refine List.mem_filter.trans (and_congr_right fun _ => ?_)
    exact bne_iff_ne
  prefixes := fun l => by
    refine List.mem_filter.trans (and_congr_right fun _ => ?_)
    exact bne_iff_ne
  pins := List.perm_cons_erase (hv.mem_cycle hc)
  txns := fun t' hne => HoldingsLemmas.get?_setTxn_of_ne _ hne.symm
  cursors := rfl

theorem leaves_of_plain {f : Fault} (h : f.kind ≠ .canceled) :
    call.leaves t (.error f) = .active := by
  refine if_neg ?_
  rintro ⟨-, rfl | rfl⟩
  · exact h rfl
  · exact h rfl

theorem leaves_of_other {s : Site} {e : Event} (h : e.txn? ≠ some t) :
    e.leaves t s = .active := by
  cases e with
  | files fs => rfl
  | call now call =>
    have hcommit : call.isCommit t = false := by
      unfold Call.isCommit
      split
      · exact beq_eq_false_iff_ne.2 fun heq => h (congrArg some heq)
      · exact beq_eq_false_iff_ne.2 fun heq => h (congrArg some heq)
      · rfl
    have habort : call.isAbort t = false := by
      unfold Call.isAbort
      split
      · exact beq_eq_false_iff_ne.2 fun heq => h (congrArg some heq)
      · rfl
    show call.leaves t _ = .active
    unfold Call.leaves
    split
    · rw [hcommit, habort]
      rfl
    · exact if_neg fun hf => h hf.1

end WithinLemmas

namespace Within

variable {now t : Nat} {db : Database} {call : Call} {o : Except Fault Reply × Database}

/-- The committed contents stay, but for a successful commit. -/
theorem committed_same (h : Within now t db call o) :
    SameCommitted db o.2 ∨
      call.isCommit t = true ∧ (∃ c, db.txns.get? t = some (.active c)) ∧ o.1 = .ok .done := by
  cases h with
  | refused | expired | began | lost | aborted | idle | read | openedCursor | doomed | conflict
  | wrote => exact .inl ⟨rfl, rfl, rfl⟩
  | committed hcall hopen hc hlive hdoomed => exact .inr ⟨hcall, ⟨_, hc⟩, rfl⟩

/-- The state of a transaction that was active. -/
theorem leaves (h : Within now t db call o) (ht : call.txn? = some t) {c : Cycle}
    (hc : db.txns.get? t = some (.active c)) :
    ∃ x, o.2.txns.get? t = some x ∧ x.state = call.leaves t o.1 := by
  have hself : ∀ y : Txn, (db.txns.modify t fun _ => y).get? t = some y := fun y =>
    HoldingsLemmas.get?_setTxn_self y hc
  cases h with
  | refused hkind => exact ⟨_, hc, (leaves_of_plain hkind).symm⟩
  | expired hc₀ hold => exact ⟨_, hself _, (if_pos ⟨ht, .inl rfl⟩).symm⟩
  | lost hcall hc₀ hlive => exact ⟨_, hself _, (if_pos ⟨ht, .inr rfl⟩).symm⟩
  | began hx hidle | idle hx hidle =>
    cases hx.symm.trans hc
    exact absurd rfl hidle
  | @committed call c₀ hcall hopen hc₀ hlive hdoomed =>
    obtain ⟨cells, published, heq, -, -⟩ := publish_same db c₀
    rw [heq]
    exact ⟨_, hself _, (if_pos hcall).symm⟩
  | aborted hc₀ =>
    refine ⟨_, hself _, ?_⟩
    show TxnState.aborted = if (t == t) = true then .aborted else .active
    rw [if_pos (beq_self_eq_true t)]
  | read | openedCursor => exact ⟨_, hc, rfl⟩
  | doomed =>
    refine ⟨_, hc, (if_neg ?_).symm⟩
    rintro ⟨-, h | h⟩
    · exact absurd h (by decide)
    · exact absurd h (by decide)
  | conflict name =>
    -- only the fault of a write that lost a conflict names a store
    refine ⟨_, hself _, (if_neg ?_).symm⟩
    rintro ⟨-, h | h⟩
    · exact Option.some_ne_none name (congrArg Fault.store h)
    · exact Option.some_ne_none name (congrArg Fault.store h)
  | wrote => exact ⟨_, hself _, rfl⟩

/-- When an active cycle is over, nothing of it is left. -/
theorem cleared (h : Within now t db call o) (hv : HeldViews db) {c : Cycle}
    (hc : db.txns.get? t = some (.active c))
    (hover : ∀ c', o.2.txns.get? t ≠ some (.active c')) :
    Cleared t c db o.2 ∧ o.2.nextCycle = db.nextCycle := by
  cases h with
  | refused | read | openedCursor | doomed => exact absurd hc (hover c)
  | conflict | wrote => exact absurd (HoldingsLemmas.get?_setTxn_self _ hc) (hover _)
  | began hx hidle | idle hx hidle =>
    cases hx.symm.trans hc
    exact absurd rfl hidle
  | expired hc₀ | lost _ hc₀ | aborted hc₀ =>
    cases hc₀.symm.trans hc
    exact ⟨cleared_endCycle hv hc db.cells db.published .aborted, rfl⟩
  | @committed call c₀ hcall hopen hc₀ hlive hdoomed =>
    obtain ⟨cells, published, heq, -, -⟩ := publish_same db c₀
    cases hc₀.symm.trans hc
    rw [heq]
    exact ⟨cleared_endCycle hv hc cells published .committed, rfl⟩

end Within

end SnapshotKv
