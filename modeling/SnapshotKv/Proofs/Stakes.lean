import SnapshotKv.Proofs.Conflicts
import SnapshotKv.Proofs.Endings
import SnapshotKv.Proofs.Occupancy
import SnapshotKv.Proofs.SavePoints

/-!
# What stands in the way of a write

A write in a transaction is refused for a claim of another transaction, or for a commit after its
view. The claim of a write is made before the commits are looked at, so it stays when the write is
then refused for a commit, until the cycle ends. The writes that a transaction has claims for are
its stakes: those that were accepted, and those that it has lost to a commit.

Results:
1. `Ledger.stakes`, `Obstructed`, `Outrun`: what a caller can tell of the two reasons; `Contended`:
   runs together with the writes that were lost to a commit.
2. `write_ends`: how a write in a transaction ends.
3. `Staked`: the claims of the transactions are those of their stakes; `Staked.release`,
   `Staked.begin`, `Staked.stake`: what one call makes of it.
4. `Contended.staked`, `Contended.outrun`: so it is in every run.
-/

namespace SnapshotKv

open Database WithinLemmas

/-! ## 1. Stakes -/

/-- Whether two changes decide a common key. -/
def Change.meets (c : Change) : Change → Bool
  | .put key _ | .delete key => c.covers key
  | .deletePrefix stem => match c with
    | .put key _ | .delete key => stem.isPrefixOf key
    | .deletePrefix stem' => stem'.comparable stem

theorem Change.meets_iff {c c' : Change} :
    c.meets c' = true ↔ ∃ key, c.covers key = true ∧ c'.covers key = true := by
  have hkey : ∀ (c : Change) (k : Bytes),
      c.covers k = true ↔ ∃ key, c.covers key = true ∧ (key == k) = true := fun c k =>
    ⟨fun h => ⟨k, h, beq_self_eq_true k⟩, fun ⟨key, h, heq⟩ => eq_of_beq heq ▸ h⟩
  cases c' with
  | put k value | delete k => exact hkey c k
  | deletePrefix stem =>
    cases c with
    | put k value | delete k =>
      exact (hkey (.deletePrefix stem) k).trans (exists_congr fun key => and_comm)
    | deletePrefix stem' =>
      refine ⟨VersionTree.exists_of_comparable, ?_⟩
      rintro ⟨key, hkey, hkey'⟩
      exact VersionTree.comparable_of_isPrefixOf hkey hkey'

instance (w p : Write) : Decidable (w.Meets p) :=
  decidable_of_iff (w.cell = p.cell ∧ w.change.meets p.change = true)
    (and_congr_right fun _ => Change.meets_iff)

/-- The writes that each transaction has lost to a commit in its last cycle. -/
abbrev Late := Nat → List Write

/-- The writes of the last cycle of a transaction that were accepted, and those lost to a commit. -/
def Ledger.stakes (L : Ledger) (late : Late) (t : Nat) : List Write := (L.drafts t).writes ++ late t

/-- Another active transaction has a stake in what a write decides. -/
def Obstructed (db : Database) (L : Ledger) (late : Late) (t : Nat) (w : Write) : Prop :=
  ∃ t', t' ≠ t ∧ db.txnState t' = .ok .active ∧ ∃ p ∈ L.stakes late t', w.Meets p

/-- A commit after the begin of the cycle put, deleted or prefix-deleted what a write decides. -/
def Outrun (L : Ledger) (t : Nat) (w : Write) : Prop :=
  ∃ cm ∈ L.commits.drop (L.drafts t).began, ∃ key, w.change.covers key = true ∧ cm.Lands w.cell key

namespace StakeLemmas

theorem lt_nextId_of_state {db : Database} {t : Nat} {state : TxnState}
    (h : db.txnState t = .ok state) : t < db.txns.nextId := by
  obtain ⟨x, hx, -⟩ := (HoldingsLemmas.txnState_eq_ok_iff db t state).1 h
  exact Pool.lt_nextId hx

end StakeLemmas

open StakeLemmas

instance (db : Database) (L : Ledger) (late : Late) (t : Nat) (w : Write) :
    Decidable (Obstructed db L late t w) :=
  decidable_of_iff
    (∃ t' ∈ List.range db.txns.nextId, t' ≠ t ∧ db.txnState t' = .ok .active ∧
      ∃ p ∈ L.stakes late t', w.Meets p)
    (exists_congr fun _ => and_iff_right_of_imp fun h =>
      List.mem_range.2 (lt_nextId_of_state h.2.1))

/-- The writes that were lost to a commit after an event. A write that is refused with a conflict,
the first one of its cycle, was lost to a commit when no other transaction stood in its way. -/
def Late.after (late : Late) (seen : Nat → Seen) (s : Site) (L : Ledger) (e : Event) : Late :=
  match e.answer s, e with
  | .ok _, .call _ (.beginTxn t) => fun t' => if t' = t then [] else late t'
  | .error f, .call _ (.write handle (some t) change) =>
    match s.db.handles.get? handle with
    | some h =>
      let w := L.writeBy handle h change
      if f.isConflict = true ∧ (seen t).lost = false ∧ ¬ Obstructed s.db L late t w then
        fun t' => if t' = t then late t ++ [w] else late t'
      else late
    | none => late
  | _, _ => late

/-- Runs with what is seen of the cycles and the writes that were lost to a commit. -/
inductive Contended : Site → Ledger → (Nat → Seen) → Late → Prop
  | opened {db : Database} (fs : FileSystem) :
      db.Opened → Contended ⟨db, fs⟩ (Ledger.opened db) (fun _ => {}) fun _ => []
  | step {s : Site} {L : Ledger} {seen : Nat → Seen} {late : Late} (e : Event) :
      Contended s L seen late →
        Contended (e.next s) (L.after s e) (fun t => (seen t).after t s e) (late.after seen s L e)

theorem Contended.watched {s : Site} {L : Ledger} {seen : Nat → Seen} {late : Late}
    (h : Contended s L seen late) : Watched s L seen := by
  induction h with
  | opened fs hdb => exact .opened fs hdb
  | step e _ ih => exact .step e ih

/-- Every watched run has its writes that were lost to a commit. -/
theorem Watched.contended {s : Site} {L : Ledger} {seen : Nat → Seen} (h : Watched s L seen) :
    ∃ late, Contended s L seen late := by
  induction h with
  | opened fs hdb => exact ⟨_, .opened fs hdb⟩
  | step e _ ih =>
    obtain ⟨late, hlate⟩ := ih
    exact ⟨_, .step e hlate⟩

/-- The writes that were lost to a commit after some events. -/
def lost : List Event → Site → Ledger → (Nat → Seen) → Late → Late
  | [], _, _, _, late => late
  | e :: rest, s, L, seen, late =>
    lost rest (e.next s) (L.after s e) (fun t => (seen t).after t s e) (late.after seen s L e)

theorem Contended.play {s : Site} {L : Ledger} {seen : Nat → Seen} {late : Late}
    (h : Contended s L seen late) (events : List Event) :
    Contended (play events s L).1 (play events s L).2 (watch events s seen)
      (lost events s L seen late) := by
  induction events generalizing s L seen late with
  | nil => exact h
  | cons e rest ih => exact ih (.step e h)

/-! ## 2. How a write ends -/

/-- The checks that come before the transaction let a write in a transaction pass. -/
structure Database.Admits (db : Database) (handle : Nat) (change : Change) (h : Handle)
    (s : Store) :
    Prop where
  handle : db.handles.get? handle = some h
  store : db.cells.get? h.cell = some s
  access : db.checkAccess h s true .write = .ok ()
  check : change.check s = .ok ()

/-- How a write is decided for which nothing but conflicts is in question. -/
inductive Settles (t : Nat) (db : Database) (c : Cycle) (s : Store) (change : Change) :
    Except Fault Reply × Database → Prop
  /-- Another transaction has a claim. -/
  | blocked (hclaim : (change.claim s.id db.locks c.id).1 = false) :
      Settles t db c s change
        (.error (Fault.writeConflict s.name), db.setCycle t { c with doomed := true })
  /-- There was a commit after the view; the claim stays. -/
  | overtaken (hclaim : (change.claim s.id db.locks c.id).1 = true)
      (hstale : (change.latest s.tree).any (fun seqno => c.view < seqno) = true) :
      Settles t db c s change
        (.error (Fault.writeConflict s.name),
          { db.setCycle t { c with doomed := true } with
            locks := (change.claim s.id db.locks c.id).2 })
  | accepted (hclaim : (change.claim s.id db.locks c.id).1 = true)
      (hfresh : (change.latest s.tree).any (fun seqno => c.view < seqno) = false) :
      Settles t db c s change
        (.ok .done,
          { db.setCycle t
              { c with writes := c.writes.insert s.id (change.onWrites (c.writesTo s.id)) } with
            locks := (change.claim s.id db.locks c.id).2 })

/-- How a write in a transaction ends. -/
inductive WriteEnds (now t : Nat) (db : Database) (handle : Nat) (change : Change) :
    Except Fault Reply × Database → Prop
  /-- A check failed that has nothing to do with the cycle. -/
  | refused {f : Fault} (hkind : f.kind ≠ .canceled) :
      WriteEnds now t db handle change (.error f, db)
  | expired {c : Cycle} (hc : db.txns.get? t = some (.active c))
      (hold : db.isExpired now c = true) :
      WriteEnds now t db handle change
        (.error Fault.transactionExpired, db.endCycle t c .aborted)
  /-- A conflict was lost before. -/
  | doomed {c : Cycle} (hc : db.txns.get? t = some (.active c)) (hdoomed : c.doomed = true) :
      WriteEnds now t db handle change (.error Fault.alreadyLost, db)
  | settled {h : Handle} {s : Store} {c : Cycle} {o : Except Fault Reply × Database}
      (hadmits : db.Admits handle change h s) (hc : db.txns.get? t = some (.active c))
      (hlive : db.isExpired now c = false) (hdoomed : c.doomed = false)
      (hsettles : Settles t db c s change o) : WriteEnds now t db handle change o

namespace StakeLemmas

variable {now t : Nat} {db : Database} {handle : Nat} {change : Change} {c : Cycle}

/-- A write in a live cycle that has lost no conflict is decided by the claims and the commits. -/
theorem settles_writeInTxn {s : Store} (hopen : db.closed = false)
    (hc : db.txns.get? t = some (.active c)) (hlive : db.isExpired now c = false)
    (hdoomed : c.doomed = false) :
    Settles t db c s change (answered (fun _ => .done)
      ((writeInTxn now t s (change.claim s.id) (change.latest s.tree) change.onWrites).on db)) := by
  have hcheck : checkDoomed c = .ok () := if_neg (Bool.eq_false_iff.1 hdoomed)
  simp only [writeInTxn, Attempt.on_bind, ReadLemmas.activeCycle_eq hopen hc hlive,
    Attempt.on_check, hcheck, Attempt.on_get]
  cases hclaim : (change.claim s.id db.locks c.id).1 with
  | false =>
    simp only [Bool.not_false, ↓reduceIte]
    exact .blocked hclaim
  | true =>
    simp only [Bool.not_true, Bool.false_eq_true, ↓reduceIte, Attempt.on_bind, Attempt.on_set]
    split
    · next hstale => exact .overtaken hclaim hstale
    · next hfresh => exact .accepted hclaim (Bool.eq_false_iff.2 hfresh)

theorem open_of_access {h : Handle} {s : Store} {bound : Bool} {access : Access}
    (hok : db.checkAccess h s bound access = .ok ()) : db.closed = false := by
  refine closed_of_checkOpen ?_
  unfold Database.checkAccess at hok
  cases hopen : db.checkOpen with
  | error f =>
    rw [hopen] at hok
    cases hok
  | ok _ => rfl

theorem writeRecord_ends (now t : Nat) (db : Database) (handle : Nat) (change : Change) :
    WriteEnds now t db handle change
      (answered (fun _ => .done) ((writeRecord now handle (some t) change).on db)) := by
  simp only [writeRecord, Attempt.on_bind, Attempt.on_get, Attempt.on_check]
  cases hstore : db.handleStore handle with
  | error f => exact .refused (plain_handleStore db handle f hstore)
  | ok hs =>
    obtain ⟨h, s⟩ := hs
    simp only [Option.isSome_some]
    cases haccess : db.checkAccess h s true .write with
    | error f => exact .refused (plain_checkAccess db h s true .write f haccess)
    | ok _ =>
      cases hcheck : change.check s with
      | error f => exact .refused (plain_check change s f hcheck)
      | ok _ =>
        obtain ⟨hh, hs⟩ := StepLemmas.handleStore_ok hstore
        rcases activeCycle_ends now t db with ⟨f, heq, hkind⟩ | ⟨c, hopen, hc, heq⟩
        · simp only [writeInTxn, Attempt.on_bind, heq]
          exact .refused hkind
        · cases hold : db.isExpired now c with
          | true =>
            simp only [writeInTxn, Attempt.on_bind, heq, hold, ↓reduceIte]
            exact .expired hc hold
          | false =>
            cases hdoomed : c.doomed with
            | true =>
              have hno : checkDoomed c = .error Fault.alreadyLost := if_pos hdoomed
              simp only [writeInTxn, Attempt.on_bind, heq, hold, Bool.false_eq_true, ↓reduceIte,
                Attempt.on_check, hno]
              exact .doomed hc hdoomed
            | false =>
              exact .settled ⟨hh, hs, haccess, hcheck⟩ hc hold hdoomed
                (settles_writeInTxn hopen hc hold hdoomed)

/-- A write in a transaction, as what it does to the database. -/
theorem on_write (now t handle : Nat) (change : Change) (s : Site) :
    ((Event.call now (.write handle (some t) change)).answer s,
        ((Event.call now (.write handle (some t) change)).next s).db) =
      answered (fun _ => .done) ((writeRecord now handle (some t) change).on s.db) := by
  rw [← on_changeRecord]
  exact Prod.ext (answer_onDatabase rfl s) (congrArg Site.db (next_onDatabase rfl s))

end StakeLemmas

/-- A write in a transaction ends in one of these ways. -/
theorem write_ends (now t handle : Nat) (change : Change) (s : Site) :
    WriteEnds now t s.db handle change
      ((Event.call now (.write handle (some t) change)).answer s,
        ((Event.call now (.write handle (some t) change)).next s).db) := by
  rw [on_write]
  exact writeRecord_ends now t s.db handle change

/-- A write is decided by the claims and the commits when nothing else stands against it. -/
theorem settles {now t handle : Nat} {change : Change} {s : Site} {h : Handle} {st : Store}
    {c : Cycle}
    (hadmits : s.db.Admits handle change h st) (hc : s.db.txns.get? t = some (.active c))
    (hlive : s.db.isExpired now c = false) (hdoomed : c.doomed = false) :
    Settles t s.db c st change
      ((Event.call now (.write handle (some t) change)).answer s,
        ((Event.call now (.write handle (some t) change)).next s).db) := by
  rw [on_write]
  simp only [writeRecord, Attempt.on_bind, Attempt.on_get, Attempt.on_check, Option.isSome_some,
    ReadLemmas.handleStore_eq hadmits.handle hadmits.store, hadmits.access, hadmits.check]
  exact settles_writeInTxn (open_of_access hadmits.access) hc hlive hdoomed

/-! ## 3. The claims of the stakes -/

/-- A transaction is in the cycle of a number. -/
def Database.Runs (db : Database) (t id : Nat) : Prop :=
  ∃ c, db.txns.get? t = some (.active c) ∧ c.id = id

/-- The transactions that run have claims for their stakes, and there are no other claims. -/
structure Staked (locks : LockTable) (cells : Pool Store) (runs : Nat → Nat → Prop)
    (stakes : Nat → List Write) : Prop where
  held : ∀ t id, runs t id → ∀ w ∈ stakes t,
    ∃ s, cells.get? w.cell = some s ∧ locks.Holds s.id w.change id
  backed : ∀ store change id, locks.Holds store change id → ∀ key, change.covers key = true →
    ∃ t i s, runs t id ∧ cells.get? i = some s ∧ s.id = store ∧ Decides (stakes t) i key

namespace Staked

variable {locks : LockTable} {cells cells' : Pool Store} {runs runs' : Nat → Nat → Prop}
  {stakes stakes' : Nat → List Write}

theorem empty (cells : Pool Store) (h : ∀ t id, ¬ runs t id) : Staked {} cells runs stakes where
  held := fun t id hruns => absurd hruns (h t id)
  backed := fun store change id hheld => by
    cases change <;> cases hheld

/-- Stores may change, but for their numbers. -/
theorem of_ids (h : Staked locks cells runs stakes)
    (hids : ∀ i s, cells.get? i = some s → ∃ s', cells'.get? i = some s' ∧ s'.id = s.id) :
    Staked locks cells' runs stakes where
  held := fun t id hruns w hw => by
    obtain ⟨s, hs, hheld⟩ := h.held t id hruns w hw
    obtain ⟨s', hs', hid⟩ := hids _ s hs
    exact ⟨s', hs', hid ▸ hheld⟩
  backed := fun store change id hheld key hkey => by
    obtain ⟨t, i, s, hruns, hs, hstore, hdecides⟩ := h.backed store change id hheld key hkey
    obtain ⟨s', hs', hid⟩ := hids i s hs
    exact ⟨t, i, s', hruns, hs', hid.trans hstore, hdecides⟩

theorem of_runs (h : Staked locks cells runs stakes) (hruns : ∀ t id, runs' t id ↔ runs t id) :
    Staked locks cells runs' stakes where
  held := fun t id hr => h.held t id ((hruns t id).1 hr)
  backed := fun store change id hheld key hkey => by
    obtain ⟨t, i, s, hr, hrest⟩ := h.backed store change id hheld key hkey
    exact ⟨t, i, s, (hruns t id).2 hr, hrest⟩

/-- A cycle ends and gives up its claims. -/
theorem release (h : Staked locks cells runs stakes) {id : Nat}
    (hruns : ∀ t' id', runs' t' id' ↔ runs t' id' ∧ id' ≠ id) :
    Staked (locks.release id) cells runs' stakes where
  held := fun t' id' hr w hw => by
    obtain ⟨hr, hne⟩ := (hruns t' id').1 hr
    obtain ⟨s, hs, hheld⟩ := h.held t' id' hr w hw
    exact ⟨s, hs, hheld.release hne⟩
  backed := fun store change id' hheld key hkey => by
    obtain ⟨hheld, hne⟩ := hheld.of_release
    obtain ⟨t', i, s, hr, hrest⟩ := h.backed store change id' hheld key hkey
    exact ⟨t', i, s, (hruns t' id').2 ⟨hr, hne⟩, hrest⟩

/-- A cycle begins without stakes. -/
theorem begin (h : Staked locks cells runs stakes) {t id : Nat} (hidle : ∀ id', ¬ runs t id')
    (hruns : ∀ t' id', runs' t' id' ↔ runs t' id' ∨ t' = t ∧ id' = id) (hnone : stakes' t = [])
    (hothers : ∀ t', t' ≠ t → stakes' t' = stakes t') : Staked locks cells runs' stakes' where
  held := fun t' id' hr w hw => by
    by_cases ht : t' = t
    · rw [ht, hnone] at hw
      cases hw
    · rw [hothers t' ht] at hw
      rcases (hruns t' id').1 hr with hr | ⟨heq, -⟩
      · exact h.held t' id' hr w hw
      · exact absurd heq ht
  backed := fun store change id' hheld key hkey => by
    obtain ⟨t', i, s, hr, hs, hstore, hdecides⟩ := h.backed store change id' hheld key hkey
    have hne : t' ≠ t := fun heq => hidle id' (heq ▸ hr)
    exact ⟨t', i, s, (hruns t' id').2 (.inl hr), hs, hstore, hothers t' hne ▸ hdecides⟩

/-- A cycle gets a further stake, under a claim. -/
theorem stake (h : Staked locks cells runs stakes) {t id : Nat} {w : Write} {s : Store}
    (hr : runs t id) (hone : ∀ id', runs t id' → id' = id) (hs : cells.get? w.cell = some s)
    (hclaim : (w.change.claim s.id locks id).1 = true)
    (hstakes : ∀ t' p, p ∈ stakes' t' ↔ p ∈ stakes t' ∨ t' = t ∧ p = w) :
    Staked (w.change.claim s.id locks id).2 cells runs stakes' where
  held := fun t' id' hr' p hp => by
    rcases (hstakes t' p).1 hp with hp | ⟨rfl, rfl⟩
    · obtain ⟨s', hs', hheld⟩ := h.held t' id' hr' p hp
      exact ⟨s', hs', hheld.claim⟩
    · rw [hone id' hr']
      exact ⟨s, hs, LockTable.holds_claim hclaim⟩
  backed := fun store change id' hheld key hkey => by
    rcases hheld.of_claim with hheld | ⟨rfl, rfl, hcovers⟩
    · obtain ⟨t', i, s', hr', hs', hstore, p, hp, hrest⟩ := h.backed store change id' hheld key hkey
      exact ⟨t', i, s', hr', hs', hstore, p, (hstakes t' p).2 (.inl hp), hrest⟩
    · -- the new claim covers what the new stake covers
      refine ⟨t, w.cell, s, hr, hs, rfl, w, (hstakes t w).2 (.inr ⟨rfl, rfl⟩), rfl, ?_⟩
      rw [← hcovers]
      exact hkey

end Staked

namespace StakeLemmas

variable {now t : Nat} {db : Database} {c : Cycle}

theorem runs_self (hc : db.txns.get? t = some (.active c)) {id : Nat} (h : db.Runs t id) :
    id = c.id := by
  obtain ⟨c', hc', rfl⟩ := h
  cases hc.symm.trans hc'
  rfl

theorem runs_allocTxn (db : Database) (t' id : Nat) :
    Database.Runs { db with txns := db.txns.add .invalid } t' id ↔ db.Runs t' id := by
  refine exists_congr fun c => and_congr_left fun _ => ?_
  exact ⟨HeldViewsLemmas.active_of_allocTxn, Pool.get?_add_of_some _⟩

theorem runs_setCycle (hc : db.txns.get? t = some (.active c)) {c' : Cycle} (hid : c'.id = c.id)
    (t' id : Nat) : (db.setCycle t c').Runs t' id ↔ db.Runs t' id := by
  constructor
  · rintro ⟨c₁, hc₁, rfl⟩
    obtain ⟨c₀, hc₀, hid₀⟩ := HeldViewsLemmas.active_of_setCycle Cycle.id hc hid hc₁
    exact ⟨c₀, hc₀, hid₀.symm⟩
  · rintro ⟨c₁, hc₁, rfl⟩
    by_cases ht : t = t'
    · subst ht
      cases hc.symm.trans hc₁
      exact ⟨c', HoldingsLemmas.get?_setTxn_self _ hc, hid⟩
    · exact ⟨c₁, (HoldingsLemmas.get?_setTxn_of_ne _ ht).trans hc₁, rfl⟩

theorem runs_endCycle (hv : HeldViews db) (hc : db.txns.get? t = some (.active c)) {final : Txn}
    (hfinal : final.view? = none) (t' id : Nat) :
    (db.endCycle t c final).Runs t' id ↔ db.Runs t' id ∧ id ≠ c.id := by
  constructor
  · rintro ⟨c', hc', rfl⟩
    obtain ⟨hne, hc'⟩ := HeldViewsLemmas.active_of_endCycle hfinal hc'
    exact ⟨⟨c', hc', rfl⟩, fun heq => hne (hv.id_inj t t' c c' hc hc' heq.symm)⟩
  · rintro ⟨⟨c', hc', rfl⟩, hid⟩
    have hne : t ≠ t' := by
      rintro rfl
      exact hid (runs_self hc ⟨c', hc', rfl⟩)
    exact ⟨c', (HoldingsLemmas.get?_setTxn_of_ne _ hne).trans hc', rfl⟩

theorem not_runs_of_idle {x : Txn} (hx : db.txns.get? t = some x) (hidle : x.state ≠ .active)
    (id : Nat) : ¬ db.Runs t id := by
  rintro ⟨c, hc, -⟩
  cases hx.symm.trans hc
  exact hidle rfl

theorem runs_begin {x : Txn} (hx : db.txns.get? t = some x) (hidle : x.state ≠ .active)
    (c : Cycle) (t' id : Nat) :
    (db.setCycle t c).Runs t' id ↔ db.Runs t' id ∨ t' = t ∧ id = c.id := by
  constructor
  · rintro ⟨c', hc', rfl⟩
    rcases HeldViewsLemmas.get?_setTxn hc' with ⟨-, hc'⟩ | ⟨rfl, heq⟩
    · exact .inl ⟨c', hc', rfl⟩
    · cases heq
      exact .inr ⟨rfl, rfl⟩
  · rintro (⟨c', hc', rfl⟩ | ⟨rfl, rfl⟩)
    · have hne : t ≠ t' := by
        rintro rfl
        exact not_runs_of_idle hx hidle c'.id ⟨c', hc', rfl⟩
      exact ⟨c', (HoldingsLemmas.get?_setTxn_of_ne _ hne).trans hc', rfl⟩
    · exact ⟨c, HoldingsLemmas.get?_setTxn_self _ hx, rfl⟩

end StakeLemmas

/-- A call in a transaction that neither begins a cycle nor writes keeps claims with stakes. -/
theorem Within.staked {now t : Nat} {db : Database} {call : Call}
    {o : Except Fault Reply × Database}
    (h : Within now t db call o) (hv : HeldViews db) (hbegin : call ≠ .beginTxn t)
    (hwrite : ∀ handle change, call ≠ .write handle (some t) change) {cells : Pool Store}
    {stakes : Nat → List Write} (hstaked : Staked db.locks cells db.Runs stakes) :
    Staked o.2.locks cells o.2.Runs stakes := by
  cases h with
  | refused | idle | read | openedCursor => exact hstaked
  | expired hc | lost _ hc | aborted hc => exact hstaked.release (runs_endCycle hv hc rfl)
  | @committed call c hcall hopen hc hlive hdoomed =>
    obtain ⟨cells', published, heq, -, -⟩ := publish_same db c
    rw [heq]
    exact hstaked.release (runs_endCycle hv hc rfl)
  | began => exact absurd rfl hbegin
  | doomed | conflict | wrote => exact absurd rfl (hwrite _ _)

/-! ## 4. Contended runs -/

/-- A change overlaps a commit after a view exactly when a key it covers was changed after it. -/
theorem Change.latest_any_iff {t : VersionTree} {view : Nat} {change : Change} :
    (change.latest t).any (fun seqno => view < seqno) = true ↔
      ∃ key, change.covers key = true ∧ t.touchedSince view key = true := by
  refine ⟨fun h => ?_, fun ⟨key, hkey, htouched⟩ => ?_⟩
  · cases change with
    | put key value | delete key => exact ⟨key, beq_self_eq_true key, h⟩
    | deletePrefix stem => exact VersionTree.exists_touchedSince h
  · cases hany : (change.latest t).any (fun seqno => view < seqno) with
    | true => rfl
    | false => exact (ConflictsLemmas.touchedSince_of_fresh hany hkey).symm.trans htouched

namespace StakeLemmas

variable {s : Site} {L : Ledger} {seen : Nat → Seen} {late : Late} {t handle : Nat}
  {change : Change}
  {h : Handle} {st : Store} {c : Cycle}

/-- The commits that stand against a write are those after the begin of its cycle. -/
theorem stale_iff (hrun : Run s L) (hc : s.db.txns.get? t = some (.active c))
    (hadmits : s.db.Admits handle change h st) :
    (change.latest st.tree).any (fun seqno => c.view < seqno) = true ↔
      Outrun L t (L.writeBy handle h change) := by
  have hsees := (History.of_reached hrun.reached).cycles t c hc
  rw [Change.latest_any_iff]
  constructor
  · rintro ⟨key, hkey, htouched⟩
    obtain ⟨cm, hcm, hlands⟩ := (hsees.touched h.cell st key hadmits.store).1 htouched
    exact ⟨cm, hcm, key, hkey, hlands⟩
  · rintro ⟨cm, hcm, key, hkey, hlands⟩
    exact ⟨key, hkey, (hsees.touched h.cell st key hadmits.store).2 ⟨cm, hcm, hlands⟩⟩

/-- The claims that stand against a write are those of the stakes of the other transactions. -/
theorem refused_iff (hrun : Run s L)
    (hstaked : Staked s.db.locks s.db.cells s.db.Runs (L.stakes late))
    (hc : s.db.txns.get? t = some (.active c)) (hadmits : s.db.Admits handle change h st) :
    (change.claim st.id s.db.locks c.id).1 = false ↔
      Obstructed s.db L late t (L.writeBy handle h change) := by
  have hviews := HeldViews.of_reached hrun.reached
  rw [(Drafts.of_reached hrun.reached).exclusive.refused_iff]
  constructor
  · rintro ⟨change', owner, key, hheld, hne, hkey, hkey'⟩
    obtain ⟨t', i, s', hruns, hs', hid, p, hp, hcell, hcovers⟩ :=
      hstaked.backed st.id change' owner hheld key hkey'
    have hother : t' ≠ t := by
      rintro rfl
      exact hne (runs_self hc hruns)
    obtain ⟨c', hc', -⟩ := hruns
    have hcell' := (Registry.of_reached hrun.reached).ids i h.cell s' st hs' hadmits.store hid
    exact ⟨t', hother, state_of_active hc', p, hp, (hcell.trans hcell').symm, key, hkey, hcovers⟩
  · rintro ⟨t', hother, hstate, p, hp, hcell, key, hkey, hkey'⟩
    obtain ⟨c', hc'⟩ := active_of_state hstate
    obtain ⟨s', hs', hheld⟩ := hstaked.held t' c'.id ⟨c', hc', rfl⟩ p hp
    have hcell : h.cell = p.cell := hcell
    obtain rfl := Option.some.inj (hs'.symm.trans (hcell ▸ hadmits.store))
    refine ⟨p.change, c'.id, key, hheld, fun heq => ?_, hkey, hkey'⟩
    exact hother (hviews.id_inj t' t c' c hc' hc heq)

/-! What an event notes of the writes of a transaction. -/

theorem drafts_after_error {e : Event} {f : Fault} (hf : e.answer s = .error f) :
    (L.after s e).drafts = L.drafts := by
  unfold Ledger.after
  rw [hf]
  simp only
  split <;> rfl

theorem stakes_after_other {now : Nat} {call : Call} (hbegin : ∀ t, call ≠ .beginTxn t)
    (hwrite : ∀ handle t change, call ≠ .write handle (some t) change) :
    (L.after s (.call now call)).stakes (late.after seen s L (.call now call)) = L.stakes late := by
  have hdrafts : (L.after s (.call now call)).drafts = L.drafts := by
    cases hanswer : (Event.call now call).answer s with
    | error f => exact drafts_after_error hanswer
    | ok r =>
      unfold Ledger.after
      rw [hanswer]
      cases call with
      | beginTxn t => exact absurd rfl (hbegin t)
      | write handle txn change =>
        cases txn with
        | none =>
          simp only [Ledger.afterCall]
          split <;> rfl
        | some t => exact absurd rfl (hwrite handle t change)
      | openStore | closeTxn =>
        simp only [Ledger.afterCall]
        split <;> rfl
      | _ => rfl
  have hlate : late.after seen s L (.call now call) = late := by
    unfold Late.after
    split
    · next heq => cases heq; exact absurd rfl (hbegin _)
    · next heq => cases heq; exact absurd rfl (hwrite _ _ _)
    · rfl
  funext t
  unfold Ledger.stakes
  rw [hdrafts, hlate]

theorem stakes_after_begin {now : Nat} {r : Reply}
    (hok : (Event.call now (.beginTxn t)).answer s = .ok r) (t' : Nat) :
    (L.after s (.call now (.beginTxn t))).stakes
        (late.after seen s L (.call now (.beginTxn t))) t' =
      if t' = t then [] else L.stakes late t' := by
  unfold Ledger.stakes Ledger.after Late.after
  rw [hok]
  by_cases ht : t' = t
  · simp [ht, Ledger.afterCall]
  · simp [ht, Ledger.afterCall, L.drafts_addBegin_of_ne (Ne.symm ht)]

theorem stakes_after_failed_begin {now : Nat} {f : Fault}
    (hf : (Event.call now (.beginTxn t)).answer s = .error f) :
    (L.after s (.call now (.beginTxn t))).stakes
      (late.after seen s L (.call now (.beginTxn t))) = L.stakes late := by
  funext t'
  unfold Ledger.stakes Late.after
  rw [drafts_after_error hf, hf]

theorem stakes_after_write {now : Nat} {r : Reply} (hh : s.db.handles.get? handle = some h)
    (hok : (Event.call now (.write handle (some t) change)).answer s = .ok r) (t' : Nat)
    (p : Write) :
    p ∈ (L.after s (.call now (.write handle (some t) change))).stakes
        (late.after seen s L (.call now (.write handle (some t) change))) t' ↔
      p ∈ L.stakes late t' ∨ t' = t ∧ p = L.writeBy handle h change := by
  unfold Ledger.stakes Ledger.after Late.after
  rw [hok]
  simp only [Ledger.afterCall, hh]
  by_cases ht : t' = t
  · subst ht
    simp only [Ledger.drafts_addWrite_self, List.mem_append, List.mem_singleton, true_and]
    exact or_right_comm
  · simp [ht, L.drafts_addWrite_of_ne _ (Ne.symm ht)]

theorem late_after_write {now : Nat} {f : Fault}
    (hf : (Event.call now (.write handle (some t) change)).answer s = .error f) :
    late.after seen s L (.call now (.write handle (some t) change)) =
      match s.db.handles.get? handle with
      | some h =>
        if f.isConflict = true ∧ (seen t).lost = false ∧
            ¬ Obstructed s.db L late t (L.writeBy handle h change) then
          fun t' => if t' = t then late t ++ [L.writeBy handle h change] else late t'
        else late
      | none => late := by
  unfold Late.after
  rw [hf]

/-- A write that is refused is no stake, unless it was the first one to lose a conflict and no other
transaction stood in its way. -/
theorem stakes_after_refused {now : Nat} {f : Fault}
    (hf : (Event.call now (.write handle (some t) change)).answer s = .error f)
    (hno : f.isConflict = false ∨ (seen t).lost = true ∨
      ∃ h, s.db.handles.get? handle = some h ∧
        Obstructed s.db L late t (L.writeBy handle h change)) :
    (L.after s (.call now (.write handle (some t) change))).stakes
      (late.after seen s L (.call now (.write handle (some t) change))) = L.stakes late := by
  have hlate : late.after seen s L (.call now (.write handle (some t) change)) = late := by
    rw [late_after_write hf]
    split
    · next h hh =>
      refine if_neg ?_
      rintro ⟨hconflict, hlost, hopen⟩
      rcases hno with hno | hno | ⟨h', hh', hno⟩
      · exact Bool.false_ne_true (hno.symm.trans hconflict)
      · exact Bool.false_ne_true (hlost.symm.trans hno)
      · cases hh.symm.trans hh'
        exact hopen hno
    · rfl
  funext t'
  unfold Ledger.stakes
  rw [drafts_after_error hf, hlate]

/-- A write that was lost to a commit is a stake. -/
theorem stakes_after_overtaken {now : Nat} {f : Fault} (hh : s.db.handles.get? handle = some h)
    (hf : (Event.call now (.write handle (some t) change)).answer s = .error f)
    (hconflict : f.isConflict = true) (hlost : (seen t).lost = false)
    (hopen : ¬ Obstructed s.db L late t (L.writeBy handle h change)) (t' : Nat) (p : Write) :
    p ∈ (L.after s (.call now (.write handle (some t) change))).stakes
        (late.after seen s L (.call now (.write handle (some t) change))) t' ↔
      p ∈ L.stakes late t' ∨ t' = t ∧ p = L.writeBy handle h change := by
  unfold Ledger.stakes
  rw [drafts_after_error hf, late_after_write hf, hh]
  simp only
  rw [if_pos ⟨hconflict, hlost, hopen⟩]
  by_cases ht : t' = t
  · subst ht
    simp [or_assoc]
  · simp [ht]

end StakeLemmas

/-- A write keeps the claims with the stakes. -/
theorem WriteEnds.staked {s : Site} {L : Ledger} {seen : Nat → Seen} {late : Late}
    {now t handle : Nat}
    {change : Change} {o : Except Fault Reply × Database}
    (h : WriteEnds now t s.db handle change o) (hwatched : Watched s L seen)
    (hanswer : (Event.call now (.write handle (some t) change)).answer s = o.1)
    (hstaked : Staked s.db.locks s.db.cells s.db.Runs (L.stakes late)) :
    Staked o.2.locks s.db.cells o.2.Runs
      ((L.after s (.call now (.write handle (some t) change))).stakes
        (late.after seen s L (.call now (.write handle (some t) change)))) := by
  have hrun := hwatched.run
  cases h with
  | refused hkind =>
    rw [stakes_after_refused hanswer (.inl (EndingLemmas.isConflict_of_kind hkind))]
    exact hstaked
  | expired hc hold =>
    rw [stakes_after_refused hanswer (.inl rfl)]
    exact hstaked.release (runs_endCycle (HeldViews.of_reached hrun.reached) hc rfl)
  | doomed hc hdoomed =>
    rw [stakes_after_refused hanswer (.inr (.inl ((hwatched.cycle hc).2.symm.trans hdoomed)))]
    exact hstaked
  | @settled h st c o hadmits hc hlive hdoomed hsettles =>
    have hlost : (seen t).lost = false := (hwatched.cycle hc).2.symm.trans hdoomed
    have hstore : s.db.cells.get? (L.writeBy handle h change).cell = some st := hadmits.store
    cases hsettles with
    | blocked hclaim =>
      have hblocked := (refused_iff hrun hstaked hc hadmits).1 hclaim
      rw [stakes_after_refused hanswer (.inr (.inr ⟨h, hadmits.handle, hblocked⟩))]
      exact hstaked.of_runs (runs_setCycle hc rfl)
    | overtaken hclaim hstale =>
      have hopen : ¬ Obstructed s.db L late t (L.writeBy handle h change) := fun hno =>
        Bool.false_ne_true (((refused_iff hrun hstaked hc hadmits).2 hno).symm.trans hclaim)
      exact (hstaked.stake ⟨c, hc, rfl⟩ (fun id => runs_self hc) hstore hclaim
        (stakes_after_overtaken hadmits.handle hanswer rfl hlost hopen)).of_runs
          (runs_setCycle hc rfl)
    | accepted hclaim hfresh =>
      exact (hstaked.stake ⟨c, hc, rfl⟩ (fun id => runs_self hc) hstore hclaim
        (stakes_after_write hadmits.handle hanswer)).of_runs (runs_setCycle hc rfl)

/-- A begin keeps the claims with the stakes. -/
theorem Within.staked_begin {s : Site} {L : Ledger} {seen : Nat → Seen} {late : Late} {now t : Nat}
    {o : Except Fault Reply × Database} (h : Within now t s.db (.beginTxn t) o)
    (hv : HeldViews s.db)
    (hanswer : (Event.call now (.beginTxn t)).answer s = o.1)
    (hstaked : Staked s.db.locks s.db.cells s.db.Runs (L.stakes late)) :
    Staked o.2.locks s.db.cells o.2.Runs
      ((L.after s (.call now (.beginTxn t))).stakes
        (late.after seen s L (.call now (.beginTxn t)))) := by
  cases h with
  | refused hkind =>
    rw [stakes_after_failed_begin hanswer]
    exact hstaked
  | expired hc | lost hcall hc =>
    rw [stakes_after_failed_begin hanswer]
    exact hstaked.release (runs_endCycle hv hc rfl)
  | committed hcall => cases hcall
  | began hx hidle =>
    have hstakes : ∀ t', (L.after s (.call now (.beginTxn t))).stakes
        (late.after seen s L (.call now (.beginTxn t))) t' =
          if t' = t then [] else L.stakes late t' := stakes_after_begin hanswer
    refine hstaked.begin (not_runs_of_idle hx hidle) (runs_begin hx hidle _) ?_ fun t' hne => ?_
    · rw [hstakes, if_pos rfl]
    · rw [hstakes, if_neg hne]

/-- In every run the claims of the transactions are those of their stakes. -/
theorem Contended.staked {s : Site} {L : Ledger} {seen : Nat → Seen} {late : Late}
    (h : Contended s L seen late) : Staked s.db.locks s.db.cells s.db.Runs (L.stakes late) := by
  induction h with
  | @opened db fs hdb =>
    have hidle : ∀ t id, ¬ db.Runs t id := fun t id ⟨c, hc, _⟩ =>
      HeldViewsLemmas.not_active_of_opened hdb t c hc
    obtain ⟨-, home, settings, config, lock, tree, -, hat⟩ := hdb.attached
    rw [hat.same] at hidle ⊢
    exact .empty _ hidle
  | @step s L seen late e hcontended ih =>
    have hrun := hcontended.watched.run
    have hviews := HeldViews.of_reached hrun.reached
    -- stores keep their numbers, so only the claims and the cycles matter
    refine Staked.of_ids ?_ (Endures.steps hrun.reached (e.steps s L)).ids
    cases e with
    | files fs => exact ih
    | call now call =>
      cases ht : call.txn? with
      | none =>
        rw [stakes_after_other (by rintro t rfl; cases ht)
          (by rintro handle t change rfl; cases ht)]
        rcases txns_next ht now s with hsame | heq
        · rw [hsame.locks]
          exact ih.of_runs fun t id => by rw [Database.Runs, hsame.txns, Database.Runs]
        · rw [heq]
          exact ih.of_runs (runs_allocTxn s.db)
      | some t =>
        have hwithin := (within ht now s).1
        cases call with
        | beginTxn t' =>
          cases ht
          exact hwithin.staked_begin hviews rfl ih
        | write handle txn change =>
          cases ht
          exact (write_ends now t handle change s).staked hcontended.watched rfl ih
        | _ =>
          rw [stakes_after_other (by rintro t ⟨⟩) (by rintro handle t change ⟨⟩)]
          exact hwithin.staked hviews (by rintro ⟨⟩) (by rintro handle change ⟨⟩) ih

/-- A cycle of a transaction begins with an event. -/
def Event.Begins (e : Event) (s : Site) (t : Nat) : Prop :=
  ∃ now r, e = .call now (.beginTxn t) ∧ e.answer s = .ok r

/-- A transaction that is active after a call in it was active before, or began. -/
theorem Within.was_active {now t : Nat} {db : Database} {call : Call}
    {o : Except Fault Reply × Database} (h : Within now t db call o) {c : Cycle}
    (hc : o.2.txns.get? t = some (.active c)) :
    (∃ c, db.txns.get? t = some (.active c)) ∨ call = .beginTxn t ∧ o.1 = .ok .done := by
  cases h with
  | refused | idle => exact .inl ⟨c, hc⟩
  | began => exact .inr ⟨rfl, rfl⟩
  | expired hc₀ | committed _ _ hc₀ | lost _ hc₀ | aborted hc₀ | read _ hc₀ | openedCursor _ hc₀
  | doomed hc₀ | conflict _ _ hc₀ | wrote _ _ hc₀ => exact .inl ⟨_, hc₀⟩

namespace StakeLemmas

variable {s : Site} {L : Ledger} {seen : Nat → Seen} {late : Late} {t : Nat}

theorem was_active {e : Event} {c : Cycle} (hc : (e.next s).db.txns.get? t = some (.active c)) :
    (∃ c, s.db.txns.get? t = some (.active c)) ∨ e.Begins s t := by
  by_cases ht : e.txn? = some t
  · cases e with
    | files fs => cases ht
    | call now call =>
      rcases (within ht now s).1.was_active hc with hc | ⟨rfl, hok⟩
      · exact .inl hc
      · exact .inr ⟨now, .done, rfl, hok⟩
  · exact .inl ⟨c, (active_next_of_other ht).1 hc⟩

theorem began_after {e : Event} (h : ¬ e.Begins s t) :
    ((L.after s e).drafts t).began = (L.drafts t).began := by
  cases e with
  | files fs => rfl
  | call now call =>
    cases hanswer : (Event.call now call).answer s with
    | error f => rw [drafts_after_error hanswer]
    | ok r =>
      unfold Ledger.after
      rw [hanswer]
      cases call with
      | beginTxn t' =>
        have ht : t' ≠ t := by
          rintro rfl
          exact h ⟨now, r, rfl, hanswer⟩
        exact congrArg Draft.began (L.drafts_addBegin_of_ne ht)
      | write handle txn change =>
        cases txn with
        | none =>
          simp only [Ledger.afterCall]
          split <;> rfl
        | some t' =>
          simp only [Ledger.afterCall]
          split
          · exact History.began_addWrite L t' t _
          · rfl
      | openStore | closeTxn =>
        simp only [Ledger.afterCall]
        split <;> rfl
      | _ => rfl

theorem outrun_after {w : Write} (h : Outrun L t w) {e : Event} (hbegins : ¬ e.Begins s t) :
    Outrun (L.after s e) t w := by
  obtain ⟨cm, hcm, hlands⟩ := h
  obtain ⟨more, hmore⟩ := L.commits_after s e
  refine ⟨cm, ?_, hlands⟩
  rw [began_after hbegins, ← hmore, List.drop_append]
  exact List.mem_append_left _ hcm

/-- A write that is lost to a commit after an event was lost before, or by the event. -/
theorem mem_late_after {e : Event} {w : Write} (hw : w ∈ late.after seen s L e t) :
    w ∈ late t ∧ ¬ e.Begins s t ∨
      ∃ now handle change h f, e = .call now (.write handle (some t) change) ∧
        s.db.handles.get? handle = some h ∧ e.answer s = .error f ∧ f.isConflict = true ∧
        (seen t).lost = false ∧ w = L.writeBy handle h change ∧ ¬ Obstructed s.db L late t w := by
  cases e with
  | files fs => exact .inl ⟨hw, by rintro ⟨now, r, ⟨⟩, -⟩⟩
  | call now call =>
    cases hanswer : (Event.call now call).answer s with
    | ok r =>
      unfold Late.after at hw
      rw [hanswer] at hw
      cases call with
      | beginTxn t' =>
        simp only at hw
        split at hw
        · cases hw
        · next ht => exact .inl ⟨hw, by rintro ⟨now, r, ⟨⟩, -⟩; exact ht rfl⟩
      | _ => exact .inl ⟨hw, by rintro ⟨now, r, ⟨⟩, -⟩⟩
    | error f =>
      have hno : ¬ (Event.call now call).Begins s t := by
        rintro ⟨-, r, -, hok⟩
        cases hanswer.symm.trans hok
      refine (em (w ∈ late t)).imp (fun h => ⟨h, hno⟩) fun hnew => ?_
      cases call with
      | write handle txn change =>
        cases txn with
        | none =>
          unfold Late.after at hw
          rw [hanswer] at hw
          exact absurd hw hnew
        | some t' =>
          rw [late_after_write hanswer] at hw
          split at hw
          · next h hh =>
            split at hw
            · next hlost =>
              beta_reduce at hw
              split at hw
              · next ht =>
                subst ht
                obtain rfl := List.mem_singleton.1 ((List.mem_append.1 hw).resolve_left hnew)
                exact ⟨now, handle, change, h, f, rfl, hh, rfl, hlost.1, hlost.2.1, rfl, hlost.2.2⟩
              · exact absurd hw hnew
            · exact absurd hw hnew
          · exact absurd hw hnew
      | _ =>
        unfold Late.after at hw
        rw [hanswer] at hw
        exact absurd hw hnew

end StakeLemmas

/-- A write that is the first of its cycle to lose a conflict was outrun by a commit, unless another
transaction stood in its way. -/
theorem WriteEnds.outrun {s : Site} {L : Ledger} {seen : Nat → Seen} {late : Late}
    {now t handle : Nat}
    {change : Change} {o : Except Fault Reply × Database}
    (hends : WriteEnds now t s.db handle change o) (hwatched : Watched s L seen)
    (hstaked : Staked s.db.locks s.db.cells s.db.Runs (L.stakes late)) {f : Fault}
    (hf : o.1 = .error f) (hconflict : f.isConflict = true) (hlost : (seen t).lost = false)
    {h : Handle} (hh : s.db.handles.get? handle = some h)
    (hopen : ¬ Obstructed s.db L late t (L.writeBy handle h change)) :
    Outrun L t (L.writeBy handle h change) := by
  cases hends with
  | refused hkind =>
    cases hf
    rw [EndingLemmas.isConflict_of_kind hkind] at hconflict
    cases hconflict
  | expired =>
    cases hf
    cases hconflict
  | doomed hc hdoomed =>
    rw [(hwatched.cycle hc).2, hlost] at hdoomed
    cases hdoomed
  | settled hadmits hc hlive hdoomed hsettles =>
    cases hh.symm.trans hadmits.handle
    cases hsettles with
    | blocked hclaim => exact absurd ((refused_iff hwatched.run hstaked hc hadmits).1 hclaim) hopen
    | overtaken hclaim hstale => exact (stale_iff hwatched.run hc hadmits).1 hstale
    | accepted => cases hf

/-- In every run there was a commit, after the begin of an active cycle, for each write that the
cycle has lost to a commit. -/
theorem Contended.outrun {s : Site} {L : Ledger} {seen : Nat → Seen} {late : Late}
    (h : Contended s L seen late) {t : Nat} {c : Cycle} (hc : s.db.txns.get? t = some (.active c))
    {w : Write} (hw : w ∈ late t) : Outrun L t w := by
  induction h generalizing c w with
  | opened => cases hw
  | @step s L seen late e hcontended ih =>
    have hwatched := hcontended.watched
    rcases mem_late_after hw with ⟨hw, hbegins⟩ |
      ⟨now, handle, change, h, f, rfl, hh, hf, hconflict, hlost, rfl, hopen⟩
    · obtain ⟨c₀, hc₀⟩ := (was_active hc).resolve_right hbegins
      exact outrun_after (ih hc₀ hw) hbegins
    · refine outrun_after ?_ (by rintro ⟨now, r, ⟨⟩, -⟩)
      exact (write_ends now t handle change s).outrun hcontended.watched hcontended.staked hf
        hconflict
        hlost hh hopen

end SnapshotKv
