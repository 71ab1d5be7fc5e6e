import SnapshotKv.Proofs.History

/-!
# The law of reading

What a read of an open database answers, after whatever happened since it was opened. Without a
transaction it is the value that the commits so far left; in a transaction it is what the cycle wrote
itself, else the value at its begin.

Results:
1. `History.landedValue_eq`: what reached a store that can be found is all that was committed to it;
   `Run.get_eq_value`, `Run.valueIn_eq`: so it has what was committed, and a transaction sees in it
   what the ledger says.
2. `get_eq_committed`, `get_eq_begun`: the two kinds of reads; `read_law`: both for every run.
-/

namespace SnapshotKv

open Database

/-! ## 1. All commits reach the stores in use -/

theorem History.landedValue_eq {db : Database} {L : Ledger} (h : History db L) {name : String}
    {i : Nat} (hname : db.stores.get? name = some i) (n : Nat) (key : Bytes) :
    landedValue L.loaded (L.commits.take n) i key = L.valueAt n i key := by
  have hall : ∀ c ∈ L.commits.take n, c.landed i = changesTo c.writes i := by
    intro c hc
    unfold Commit.landed
    split
    · rfl
    · next hnot =>
      refine (DraftsLemmas.changesTo_eq_nil fun w hw hcell => hnot ?_).symm
      subst hcell
      exact h.reached c (List.mem_of_mem_take hc) w hw name hname
  unfold landedValue Ledger.valueAt
  congr 1
  rw [List.flatMap_def, List.flatMap_def, List.map_congr_left hall]

/-- What was committed to a store is what its tree has. -/
theorem Run.get_eq_value {s : Site} {L : Ledger} (hrun : Run s L) {name : String} {cell : Nat}
    {st : Store} (hname : s.db.stores.get? name = some cell) (hs : s.db.cells.get? cell = some st)
    (key : Bytes) : st.tree.get key s.db.published = L.value cell key := by
  have hhistory := History.of_reached hrun.reached
  rw [hhistory.current.get cell st key hs, hhistory.landedValue_eq hname]
  rfl

/-- What a transaction sees in a store is what its writes to the store left, else the value at its
begin. -/
theorem Run.valueIn_eq {s : Site} {L : Ledger} (hrun : Run s L) {name : String} {cell t : Nat}
    {st : Store} {c : Cycle} (hname : s.db.stores.get? name = some cell)
    (hs : s.db.cells.get? cell = some st) (hc : s.db.txns.get? t = some (.active c)) (key : Bytes) :
    (match (c.writesTo st.id).lookup key with
      | .value v => some v
      | .deleted => none
      | .absent => st.tree.get key c.view) = L.valueIn t cell key := by
  have hhistory := History.of_reached hrun.reached
  have hget := (hhistory.cycles t c hc).get cell st key hs
  rw [hhistory.landedValue_eq hname] at hget
  rw [(Drafts.of_reached hrun.reached).writes t c cell st hc hs, hget, WriteSet.lookup_ofChanges,
    Ledger.valueIn]
  cases Change.lastOn (changesTo (L.drafts t).writes cell) key with
  | none => rfl
  | some change =>
    simp only [Option.map_some, Option.getD_some]
    cases change.leaves <;> rfl

/-! ## 2. Reads -/

namespace ReadLemmas

variable {db : Database}

theorem handleStore_eq {handle : Nat} {h : Handle} {s : Store}
    (hh : db.handles.get? handle = some h) (hs : db.cells.get? h.cell = some s) :
    db.handleStore handle = .ok (h, s) := by
  unfold handleStore
  rw [hh]
  simp only [hs]
  rfl

theorem checkOpen_eq (hopen : db.closed = false) : db.checkOpen = .ok () := by
  unfold checkOpen
  rw [hopen]
  rfl

theorem checkAccess_read (hopen : db.closed = false) (h : Handle) (s : Store) (bound : Bool) :
    db.checkAccess h s bound .read =
      if bound && !h.settings.transactional then .error (Fault.notTransactional s.name)
      else .ok () := by
  unfold checkAccess
  rw [checkOpen_eq hopen]
  cases bound <;> cases h.settings.transactional <;> rfl

theorem activeCycle_of_active {t : Nat} {c : Cycle} (hopen : db.closed = false)
    (hc : db.txns.get? t = some (.active c)) (now : Nat) :
    (activeCycle now t).on db =
      if db.isExpired now c then (.error Fault.transactionExpired, db.endCycle t c .aborted)
      else (.ok c, db) := by
  have htxn : db.txn t = .ok (.active c) := by
    unfold txn
    rw [hc]
    rfl
  simp only [activeCycle, Attempt.on_bind, Attempt.on_get, Attempt.on_check, checkOpen_eq hopen,
    htxn]
  split <;> rfl

theorem activeCycle_eq {now t : Nat} {c : Cycle} (hopen : db.closed = false)
    (hc : db.txns.get? t = some (.active c)) (hlive : db.isExpired now c = false) :
    (activeCycle now t).on db = (.ok c, db) := by
  rw [activeCycle_of_active hopen hc, hlive]
  rfl

end ReadLemmas

open ReadLemmas

/-- A read without transaction answers what the published view sees. -/
theorem get_eq_committed {s : Site} {handle : Nat} {h : Handle} {store : Store} {key : Bytes}
    (hopen : s.db.closed = false) (hh : s.db.handles.get? handle = some h)
    (hs : s.db.cells.get? h.cell = some store) (hkey : Limits.checkKey key = .ok ()) (now : Nat) :
    ((Call.get handle none key).attempt now).on s =
      (.ok (.value (store.tree.get key s.db.published)), s) := by
  unfold Call.attempt
  rw [Attempt.on_map, Storage.on_onDatabase, getRecord]
  simp only [Attempt.on_bind, Attempt.on_get, Attempt.on_check, handleStore_eq hh hs,
    checkAccess_read hopen, hkey]
  rfl

/-- A read in a transaction answers what its writes say, else what its view sees. -/
theorem get_eq_begun {s : Site} {handle t : Nat} {h : Handle} {store : Store} {c : Cycle}
    {key : Bytes} {now : Nat} (hopen : s.db.closed = false)
    (hh : s.db.handles.get? handle = some h) (hs : s.db.cells.get? h.cell = some store)
    (hkey : Limits.checkKey key = .ok ()) (hc : s.db.txns.get? t = some (.active c))
    (hlive : s.db.isExpired now c = false) :
    ((Call.get handle (some t) key).attempt now).on s =
      (if h.settings.transactional then
          .ok (.value (match (c.writesTo store.id).lookup key with
            | .value v => some v
            | .deleted => none
            | .absent => store.tree.get key c.view))
        else .error (Fault.notTransactional store.name), s) := by
  unfold Call.attempt
  rw [Attempt.on_map, Storage.on_onDatabase, getRecord]
  simp only [Attempt.on_bind, Attempt.on_get, Attempt.on_check, handleStore_eq hh hs,
    checkAccess_read hopen, hkey, Option.isSome_some, Bool.true_and]
  cases h.settings.transactional with
  | false => rfl
  | true =>
    simp only [Bool.not_true, Bool.false_eq_true, ↓reduceIte, activeCycle_eq hopen hc hlive]
    cases (c.writesTo store.id).lookup key <;> rfl

/-- Two cycles of a transaction; the first commits. -/
def twoCycles : List Event :=
  [.call 0 (.openStore "a" ["transactions.enabled=true"]), .call 0 .allocTxn,
    .call 0 (.beginTxn 0), .call 0 (.write 0 (some 0) (.put [107] [1])), .call 0 (.commitTxn 0),
    .call 0 (.beginTxn 0), .call 0 (.write 0 (some 0) (.put [107] [2]))]

/-- In every run in which no file operation failed: a read of a valid key without transaction answers
the value that all commits so far left in the store. A read in an active transaction that is not
expired answers what the last write of the cycle left that decides the key, else the value at the
begin; on a store that was not opened for transactions it is refused. No read changes anything. -/
theorem read_law {s : Site} {L : Ledger} (hrun : Run s L) (hfiles : L.fileFault = false)
    (hopen : s.db.closed = false) {handle : Nat} {h : Handle}
    (hh : s.db.handles.get? handle = some h) {key : Bytes} (hkey : Limits.checkKey key = .ok ())
    (now : Nat) :
    ((Call.get handle none key).attempt now).on s = (.ok (.value (L.value h.cell key)), s) ∧
    ∀ t c store, s.db.txns.get? t = some (.active c) → s.db.isExpired now c = false →
      s.db.cells.get? h.cell = some store →
      ((Call.get handle (some t) key).attempt now).on s =
        (if h.settings.transactional then .ok (.value (L.valueIn t h.cell key))
          else .error (Fault.notTransactional store.name), s) := by
  have hregistry := Registry.of_reached hrun.reached
  obtain ⟨store, hs, -⟩ := hregistry.isOpen handle h hh
  obtain ⟨name, hname⟩ := hregistry.attached hfiles handle h hh
  constructor
  · rw [get_eq_committed hopen hh hs hkey, hrun.get_eq_value hname hs]
  · intro t c store' hc hlive hs'
    obtain rfl := Option.some.inj (hs.symm.trans hs')
    rw [get_eq_begun hopen hh hs hkey hc hlive, hrun.valueIn_eq hname hs hc]

set_option maxRecDepth 2000 in
/-- A key was committed, then put again in a cycle that is still active: a read without transaction
answers the first value, a read in the transaction the second. -/
theorem read_law_two_cycles :
    ((Call.get 0 none [107]).attempt 0).on (playSmall twoCycles).1 =
        (.ok (.value (some [1])), (playSmall twoCycles).1) ∧
      ((Call.get 0 (some 0) [107]).attempt 0).on (playSmall twoCycles).1 =
        (.ok (.value (some [2])), (playSmall twoCycles).1) := by
  have hhandle : (playSmall twoCycles).1.db.handles.get? 0 = some ⟨0, ⟨true⟩⟩ := rfl
  have hkey : Limits.checkKey [107] = .ok () := rfl
  have hcommitted : (playSmall twoCycles).2.value 0 [107] = some [1] := rfl
  have hbegun : (playSmall twoCycles).2.valueIn 0 0 [107] = some [2] := rfl
  obtain ⟨hplain, htxn⟩ := read_law (run_playSmall twoCycles) rfl rfl hhandle hkey 0
  rw [hcommitted] at hplain
  have htxn := htxn 0 _ _ rfl (by simp [isExpired]) rfl
  rw [hbegun] at htxn
  exact ⟨hplain, htxn⟩

end SnapshotKv
