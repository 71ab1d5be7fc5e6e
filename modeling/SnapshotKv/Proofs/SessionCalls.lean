import SnapshotKv.CommandLine.Run
import SnapshotKv.Proofs.Durability
import SnapshotKv.Proofs.Outdated
import SnapshotKv.Proofs.Sessions

/-!
# What a session calls

In a session the records of the store are an ordered map. Its writes are changes of the map, its
reads are lookups, and its scans list the records of the map that a filter selects.

Results:
1. `Change.onMap`, `Change.answer`, `listed`, `scanAnswer`: changes and scans of an ordered map.
2. `Held.write`, `Held.read`: writes and reads of the open store.
3. `Database.Scanning`: how far a cursor has come in a scan; `Held.scan`: scans of the open store;
   `Serves.scanRecords`: the program makes them.
-/

namespace SnapshotKv

open Storage

/-! ## 1. An ordered map -/

/-- A change of an ordered map. -/
def Change.onMap : Change → SortedMap Bytes Bytes → SortedMap Bytes Bytes
  | .put key value, m => m.insert key value
  | .delete key, m => m.erase key
  | .deletePrefix stem, m => m.filter fun key _ => !stem.isPrefixOf key

/-- What a change answers in the store of a record, and the map that it leaves. A database that is
read only refuses every change, and a change that is not sound is refused too. -/
def Change.answer (r : StoreRecord) (m : SortedMap Bytes Bytes) (settings : OpenSettings)
    (c : Change) : Except Fault (Unit × SortedMap Bytes Bytes) := do
  if settings.readOnly then throw Fault.openReadOnly
  c.check (Store.ofRecord r {})
  pure ((), c.onMap m)

/-- The records of a map under a filter in scan order, from the first one at or past a key on. -/
def listed (m : SortedMap Bytes Bytes) (filter : Bytes) (reverse : Bool) (start : Option Bytes) :
    List (Bytes × Bytes) :=
  let selected := inScanOrder reverse (m.entries.filter fun e => filter.isPrefixOf e.1)
  match start with
  | none => selected
  | some key => selected.filter fun e => !decide (Before reverse e.1 key)

/-- A list cut to a length. -/
def cutTo {α : Type} (limit : Option Nat) (l : List α) : List α :=
  match limit with
  | none => l
  | some n => l.take n

/-- What a scan answers, and the map that it leaves. -/
def scanAnswer (m : SortedMap Bytes Bytes) (filter : Bytes) (reverse : Bool) (start : Option Bytes)
    (limit : Option Nat) : Except Fault (List (Bytes × Bytes) × SortedMap Bytes Bytes) := do
  Limits.checkBound filter
  if let some key := start then Limits.checkBound key
  pure (cutTo limit (listed m filter reverse start), m)

theorem Change.get?_onMap (c : Change) (m : SortedMap Bytes Bytes) (key : Bytes) :
    (c.onMap m).get? key = if c.covers key then c.leaves else m.get? key := by
  cases c with
  | put k value => exact SortedMap.get?_insert m k key value
  | delete k => exact SortedMap.get?_erase m k key
  | deletePrefix stem =>
    rw [onMap, SortedMap.get?_filter]
    simp only [covers, leaves]
    by_cases hp : stem.isPrefixOf key = true <;> cases m.get? key <;> simp [hp]

/-- A change of a tree is a change of its contents. -/
theorem Change.contents_onTree (c : Change) {t : VersionTree} {n : Nat} (ht : t.UpTo n) :
    (c.onTree t (n + 1)).contents (n + 1) = c.onMap (t.contents n) := by
  refine SortedMap.ext_get? fun key => ?_
  have hafter : Change.after [c] key (t.get key n) =
      if c.covers key then c.leaves else t.get key n := rfl
  rw [VersionTree.get?_contents, c.get?_onMap, VersionTree.get?_contents, ← hafter,
    (VersionTree.overwrites_onTree (ht.below (Nat.lt_succ_self n)) c).since key (n + 1) (Nat.le_refl _),
    ht.get_eq (Nat.le_succ n)]

/-! ## 2. Writes and reads -/

namespace Held

open Database ReadLemmas

variable {x : SessionStart} {m : SortedMap Bytes Bytes} {db : Database} {handle : Nat}

theorem checkAccess_write (h : Held x m db) (st : Store) :
    db.checkAccess ⟨0, {}⟩ st false .write =
      if x.settings.readOnly then .error Fault.openReadOnly else .ok () := by
  unfold checkAccess checkWritable
  rw [checkOpen_eq h.isOpen, h.settings]
  cases x.settings.readOnly <;> rfl

/-- A checked change that was committed. -/
theorem applySingle (h : Held x m db) (hwritable : x.settings.readOnly = false) {c : Change}
    (hc : c.Checked) : Held x (c.onMap m) (db.applySingle 0 c.onTree) := by
  obtain ⟨st, hs, hhas, -⟩ := h.store
  have hover := VersionTree.overwrites_onTree (hhas.upTo.below (Nat.lt_succ_self db.published)) c
  refine { h with fits := fun e he => ?_, store := ?_ }
  · obtain ⟨key, v⟩ := e
    have hv := (SortedMap.mem_entries_iff _).1 he
    rw [c.get?_onMap] at hv
    split at hv
    · next hcovers =>
      obtain rfl := Change.eq_put hcovers hv
      exact DurabilityLemmas.fits_of_checked hc
    · exact h.fits _ ((SortedMap.mem_entries_iff _).2 hv)
  · refine ⟨{ st with tree := c.onTree st.tree (db.published + 1), dirty := true }, ?_,
      ⟨hhas.name, hhas.prefixLength, hover.upTo, ?_⟩, fun _ => hwritable,
      fun hclean => nomatch hclean⟩
    · show (db.modifyStore 0 _).cells.get? 0 = _
      rw [ContentsLemmas.get?_modifyStore, hs]
      rfl
    · exact (c.contents_onTree hhas.upTo).trans (by rw [hhas.contents])

/-- A write answers what its change answers on the map. -/
theorem write (h : Held x m db) (hh : db.handles.get? handle = some ⟨0, {}⟩) (c : Change) :
    ∃ db', (changeRecord 0 handle none c).on db =
        ((c.answer x.record m x.settings).map Prod.fst, db') ∧
      Held x (recordsAfter m (c.answer x.record m x.settings)) db' := by
  obtain ⟨st, hs, hhas, -⟩ := h.store
  have hcheck : c.check st = c.check (Store.ofRecord x.record {}) := by
    cases c with
    | put key value | delete key => rfl
    | deletePrefix stem =>
      unfold Change.check
      rw [hhas.name, hhas.prefixLength]
      rfl
  rw [on_changeRecord]
  simp only [writeRecord, Attempt.on_bind, Attempt.on_get, Attempt.on_check, handleStore_eq hh hs,
    Option.isSome_none, h.checkAccess_write, hcheck]
  cases hreadOnly : x.settings.readOnly with
  | true =>
    simp only [Change.answer, hreadOnly]
    exact ⟨db, rfl, h⟩
  | false =>
    simp only [Change.answer, hreadOnly]
    cases hchecked : c.check (Store.ofRecord x.record {}) with
    | error f => exact ⟨db, rfl, h⟩
    | ok _ => exact ⟨_, rfl, h.applySingle hreadOnly (Change.checked_of_check hchecked)⟩

/-- A read answers what the map has. -/
theorem read (h : Held x m db) (hh : db.handles.get? handle = some ⟨0, {}⟩) (key : Bytes) :
    (getRecord 0 handle none key).on db = ((Limits.checkKey key).map fun _ => m.get? key, db) := by
  obtain ⟨st, hs, hhas, -⟩ := h.store
  simp only [getRecord, Attempt.on_bind, Attempt.on_get, Attempt.on_check, handleStore_eq hh hs,
    checkAccess_read h.isOpen, Option.isSome_none, Bool.false_and, Bool.false_eq_true, ↓reduceIte]
  cases Limits.checkKey key with
  | error f => rfl
  | ok _ =>
    rw [← hhas.contents, VersionTree.get?_contents]
    rfl

end Held

/-! ## 3. Scans -/

namespace Database

/-- A cursor can be read and has come through the first `n` of some records. -/
def Scanning (db : Database) (i : Nat) (reverse : Bool) (records : List (Bytes × Bytes)) (n : Nat) :
    Prop :=
  ∃ c st, db.cursors.get? i = some c ∧ db.cells.get? c.cell = some st ∧ c.reverse = reverse ∧
    db.checkReady c st = .ok () ∧ c.listing st.tree = records ∧ c.HasRead records n

/-- Up to a number of records that a cursor reads. -/
def takeRecords (i : Nat) : (fuel : Nat) → Attempt Database (List (Bytes × Bytes))
  | 0 => pure []
  | fuel + 1 => do
    match ← readCursor i with
    | some r => do
      let rest ← takeRecords i fuel
      pure (r :: rest)
    | none => pure []

/-- Moves a cursor to where a scan is to start. -/
def moveTo (i : Nat) : Option Bytes → Attempt Database Unit
  | none => pure ()
  | some key => do
    let _ ← seekCursor i key

/-- The records that a scan lists. -/
def scanRecords (handle : Nat) (filter : Bytes) (reverse : Bool) (start : Option Bytes)
    (limit : Option Nat) : Attempt Database (List (Bytes × Bytes)) := do
  let i ← openCursor 0 handle none filter reverse
  moveTo i start
  let db ← get
  let records ← takeRecords i (limit.getD (CommandLine.keyCount db + 1))
  modify (·.closeCursor i)
  pure records

namespace Scanning

variable {db : Database} {i : Nat} {reverse : Bool} {records : List (Bytes × Bytes)} {n : Nat}

theorem get?_modify {c : Cursor} (hc : db.cursors.get? i = some c) (c' : Cursor) :
    (db.cursors.modify i fun _ => c').get? i = some c' := by
  rw [Pool.get?_modify, if_pos rfl, hc]
  rfl

theorem read (h : db.Scanning i reverse records n) :
    ∃ cursors, (readCursor i).on db = (.ok records[n]?, { db with cursors }) ∧
      Scanning { db with cursors } i reverse records (n + 1) := by
  obtain ⟨c, st, hc, hs, hreverse, hready, rfl, hread⟩ := h
  obtain ⟨position, atEnd, hon, hread'⟩ := hread.read
  refine ⟨db.cursors.modify i fun _ => { c with position, atEnd }, ?_,
    { c with position, atEnd }, st, get?_modify hc _, hs, hreverse, hready, rfl, hread'⟩
  rw [readCursor, EnumerationLemmas.on_onCursor hc hs, hready]
  simp only [hon]

theorem seek (h : db.Scanning i reverse records n) {key : Bytes}
    (hkey : Limits.checkBound key = .ok ()) :
    ∃ landed cursors n', (seekCursor i key).on db = (.ok landed, { db with cursors }) ∧
      Scanning { db with cursors } i reverse records n' ∧
      records.drop n' = records.filter fun e => !decide (Before reverse e.1 key) := by
  obtain ⟨c, st, hc, hs, rfl, hready, rfl, -⟩ := h
  obtain ⟨landed, position, n', hon, hread', hdrop⟩ := c.seek_spec st.tree hkey
  refine ⟨landed, db.cursors.modify i fun _ => { c with cap := none, atEnd := false, position },
    n', ?_, ⟨{ c with cap := none, atEnd := false, position }, st, get?_modify hc _, hs, rfl, hready, rfl,
      hread'⟩, hdrop⟩
  rw [seekCursor, EnumerationLemmas.on_onCursor hc hs, hready]
  simp only [hon]

/-- A bound that is too long does not move the cursor. -/
theorem seek_refused (h : db.Scanning i reverse records n) {key : Bytes} {f : Fault}
    (hkey : Limits.checkBound key = .error f) :
    ∃ cursors, (seekCursor i key).on db = (.error f, { db with cursors }) := by
  obtain ⟨c, st, hc, hs, -⟩ := h
  refine ⟨db.cursors.modify i fun _ => c, ?_⟩
  rw [seekCursor, EnumerationLemmas.on_onCursor hc hs]
  simp only [Cursor.seek, Attempt.on_bind, Attempt.on_check, hkey]

/-- The reads answer the records that are still ahead, as many as are asked for. -/
theorem takeRecords (h : db.Scanning i reverse records n) (fuel : Nat) :
    ∃ cursors, (takeRecords i fuel).on db =
      (.ok ((records.drop n).take fuel), { db with cursors }) := by
  induction fuel generalizing db n with
  | zero => exact ⟨db.cursors, rfl⟩
  | succ fuel ih =>
    obtain ⟨cursors, hon, hnext⟩ := h.read
    rw [Database.takeRecords, Attempt.on_bind, hon]
    cases hrecord : records[n]? with
    | none =>
      rw [List.drop_eq_nil_of_le (List.getElem?_eq_none_iff.1 hrecord)]
      exact ⟨cursors, rfl⟩
    | some e =>
      obtain ⟨cursors', hon'⟩ := ih hnext
      obtain ⟨hlt, rfl⟩ := List.getElem?_eq_some_iff.1 hrecord
      rw [List.drop_eq_getElem_cons hlt, List.take_succ_cons]
      simp only [Attempt.on_bind, hon']
      exact ⟨cursors', rfl⟩

/-- A scan starts at the first record, or at the first one at or past a key. -/
theorem moveTo {m : SortedMap Bytes Bytes} {filter : Bytes}
    (h : db.Scanning i reverse (listed m filter reverse none) 0) {start : Option Bytes}
    (hstart : ∀ key, start = some key → Limits.checkBound key = .ok ()) :
    ∃ cursors n, (moveTo i start).on db = (.ok (), { db with cursors }) ∧
      Scanning { db with cursors } i reverse (listed m filter reverse none) n ∧
      (listed m filter reverse none).drop n =
        listed m filter reverse start := by
  cases start with
  | none => exact ⟨db.cursors, 0, rfl, h, rfl⟩
  | some key =>
    obtain ⟨landed, cursors, n, hon, hnext, hdrop⟩ := h.seek (hstart key rfl)
    refine ⟨cursors, n, ?_, hnext, hdrop⟩
    rw [Database.moveTo, Attempt.on_bind, hon]
    rfl

end Scanning

end Database

namespace Held

open Database ReadLemmas

variable {x : SessionStart} {m : SortedMap Bytes Bytes} {db : Database} {handle : Nat}

theorem closeCursor (h : Held x m db) (i : Nat) : Held x m (db.closeCursor i) := by
  unfold Database.closeCursor
  split
  · exact { h with }
  · exact h

/-- A store has no fewer keys than records. -/
theorem length_le_keyCount (h : Held x m db) : m.entries.length ≤ CommandLine.keyCount db := by
  obtain ⟨st, hs, hhas, -⟩ := h.store
  have hattached : db.attached = [st] := by simp [attached, h.cells, hs]
  have hcount : CommandLine.keyCount db = st.tree.versions.entries.length := by
    simp [CommandLine.keyCount, hattached, SortedMap.keys]
  rw [hcount, ← hhas.contents]
  exact List.length_filterMap_le _ _

theorem length_listed_le (m : SortedMap Bytes Bytes) (filter : Bytes) (reverse : Bool)
    (start : Option Bytes) :
    (listed m filter reverse start).length ≤ m.entries.length := by
  have hselected : (listed m filter reverse none).length ≤ m.entries.length := by
    have hfilter := List.length_filter_le (fun e => filter.isPrefixOf e.1) m.entries
    cases reverse with
    | false => exact hfilter
    | true => exact Nat.le_trans (Nat.le_of_eq List.length_reverse) hfilter
  cases start with
  | none => exact hselected
  | some key => exact Nat.le_trans (List.length_filter_le _ _) hselected

/-- A new cursor has the records under its filter ahead, and none is outdated. -/
theorem openCursor (h : Held x m db) (hh : db.handles.get? handle = some ⟨0, {}⟩) {filter : Bytes}
    (hfilter : Limits.checkBound filter = .ok ()) (reverse : Bool) :
    ∃ i cursors pins, (openCursor 0 handle none filter reverse).on db =
        (.ok i, { db with cursors, pins }) ∧
      Scanning { db with cursors, pins } i reverse (listed m filter reverse none) 0 := by
  obtain ⟨st, hs, hhas, -⟩ := h.store
  have hon : (Database.openCursor 0 handle none filter reverse).on db =
      (.ok db.cursors.nextId, { db with
        cursors := db.cursors.add (.start 0 db.published none st.prefixLength filter reverse)
        pins := db.pins.pin db.published }) := by
    simp only [Database.openCursor, Attempt.on_bind, Attempt.on_get, Attempt.on_check,
      handleStore_eq hh hs, checkAccess_read h.isOpen, Option.isSome_none, Bool.false_and,
      Bool.false_eq_true, ↓reduceIte, hfilter]
    rfl
  refine ⟨_, _, _, hon, .start 0 db.published none st.prefixLength filter reverse, st,
    Pool.get?_add_nextId _ _, hs, rfl, ?_, ?_, Cursor.hasRead_start rfl rfl rfl _⟩
  · have hcurrent : Cursor.isOutdated (.start 0 db.published none st.prefixLength filter reverse)
        st.tree = false := by
      have hnone := OutdatedLemmas.prefixDeletedSince_of_upTo hhas.upTo filter
      simp only [Cursor.isOutdated, Cursor.start, hnone, Bool.and_false]
    show db.checkReady _ st = .ok ()
    unfold checkReady
    rw [checkOpen_eq h.isOpen, hcurrent]
    rfl
  · show inScanOrder reverse ((st.tree.contents db.published).entries.filter _) = _
    rw [hhas.contents]
    rfl

theorem openCursor_refused (h : Held x m db) (hh : db.handles.get? handle = some ⟨0, {}⟩)
    {filter : Bytes} {f : Fault} (hfilter : Limits.checkBound filter = .error f) (reverse : Bool) :
    (Database.openCursor 0 handle none filter reverse).on db = (.error f, db) := by
  obtain ⟨st, hs, hhas, -⟩ := h.store
  simp only [Database.openCursor, Attempt.on_bind, Attempt.on_get, Attempt.on_check,
    handleStore_eq hh hs, checkAccess_read h.isOpen, Option.isSome_none, Bool.false_and,
    Bool.false_eq_true, ↓reduceIte, hfilter]

/-- A scan whose bounds are sound answers the listed records, cut to its limit. -/
theorem scan_listed (h : Held x m db) (hh : db.handles.get? handle = some ⟨0, {}⟩) {filter : Bytes}
    (hfilter : Limits.checkBound filter = .ok ()) (reverse : Bool) {start : Option Bytes}
    (hstart : ∀ key, start = some key → Limits.checkBound key = .ok ()) (limit : Option Nat) :
    ∃ db', (scanRecords handle filter reverse start limit).on db =
        (.ok (cutTo limit (listed m filter reverse start)), db') ∧
      Held x m db' := by
  obtain ⟨i, cursors, pins, hopen, hscanning⟩ := h.openCursor hh hfilter reverse
  obtain ⟨cursors', n, hmove, hscanning', hdrop⟩ := hscanning.moveTo hstart
  have hheld : Held x m { db with cursors := cursors', pins } := { h with }
  obtain ⟨cursors'', htake⟩ := hscanning'.takeRecords
    (limit.getD (CommandLine.keyCount { db with cursors := cursors', pins } + 1))
  have hcut : (listed m filter reverse start).take
      (limit.getD (CommandLine.keyCount { db with cursors := cursors', pins } + 1)) =
        cutTo limit (listed m filter reverse start) := by
    cases limit with
    | some n => rfl
    | none =>
      -- Without a limit more records are asked for than the store has keys.
      exact List.take_of_length_le (Nat.le_succ_of_le
        (Nat.le_trans (length_listed_le m filter reverse start) hheld.length_le_keyCount))
  rw [hdrop, hcut] at htake
  have hheld' : Held x m { db with cursors := cursors'', pins } := { h with }
  refine ⟨_, ?_, hheld'.closeCursor i⟩
  simp only [scanRecords, Attempt.on_bind, hopen, hmove, Attempt.on_get, htake, Attempt.on_modify]
  rfl

/-- A scan answers the listed records, cut to its limit, unless one of its bounds is too long. -/
theorem scan (h : Held x m db) (hh : db.handles.get? handle = some ⟨0, {}⟩) (filter : Bytes)
    (reverse : Bool) (start : Option Bytes) (limit : Option Nat) :
    ∃ db', (scanRecords handle filter reverse start limit).on db =
        ((scanAnswer m filter reverse start limit).map Prod.fst, db') ∧
      Held x (recordsAfter m (scanAnswer m filter reverse start limit)) db' := by
  cases hfilter : Limits.checkBound filter with
  | error f =>
    simp only [scanAnswer, hfilter]
    refine ⟨db, ?_, h⟩
    rw [scanRecords, Attempt.on_bind, h.openCursor_refused hh hfilter reverse]
    rfl
  | ok _ =>
    cases start with
    | none =>
      simp only [scanAnswer, hfilter]
      exact h.scan_listed hh hfilter reverse (by rintro key ⟨⟩) limit
    | some key =>
      cases hkey : Limits.checkBound key with
      | ok _ =>
        simp only [scanAnswer, hfilter, hkey]
        exact h.scan_listed hh hfilter reverse (fun key' heq => Option.some.inj heq ▸ hkey) limit
      | error f =>
        -- The cursor stays open here; it goes with the database.
        obtain ⟨i, cursors, pins, hopen, hscanning⟩ := h.openCursor hh hfilter reverse
        obtain ⟨cursors', hseek⟩ := hscanning.seek_refused hkey
        simp only [scanAnswer, hfilter, hkey]
        refine ⟨{ db with cursors := cursors', pins }, ?_, { h with }⟩
        simp only [scanRecords, Attempt.on_bind, hopen, Database.moveTo, hseek]
        rfl

end Held

namespace Serves

theorem takeRecords (i fuel : Nat) :
    Serves (CommandLine.takeRecords ⟨0, i⟩ fuel) (Database.takeRecords i fuel) := by
  induction fuel with
  | zero => exact .pure []
  | succ fuel ih =>
    refine (Serves.onDatabase (Database.readCursor i)).bind fun record => ?_
    cases record with
    | none => exact .pure []
    | some e => exact ih.bind fun rest => .pure (e :: rest)

theorem scanRecords (handle : Nat) (filter start : Option String) (reverse : Bool)
    (limit : Option Nat) :
    Serves (CommandLine.scanRecords ⟨0, handle⟩ filter start reverse limit)
      (Database.scanRecords handle (Bytes.ofText (filter.getD "")) reverse (start.map Bytes.ofText)
        limit) := by
  have hopen := Serves.onStore handle fun now txn =>
    Database.openCursor now handle txn (Bytes.ofText (filter.getD "")) reverse
  unfold CommandLine.scanRecords Database.scanRecords Host.openCursor
  refine hopen.bind_map (fun i => (⟨0, i⟩ : CursorRef)) fun i => ?_
  have hmodify : Serves (Host.closeCursor ⟨0, i⟩) (modify (·.closeCursor i)) := .onDatabase _
  have hclose : ∀ records : List (Bytes × Bytes),
      Serves (Host.closeCursor ⟨0, i⟩ >>= fun _ => Pure.pure records)
        (modify (·.closeCursor i) >>= fun _ => Pure.pure records) := fun records =>
    hmodify.bind fun _ => .pure records
  have hrest := Serves.ask CommandLine.keyCount fun keys =>
    (Serves.takeRecords i (limit.getD (keys + 1))).bind hclose
  cases start with
  | none => exact hrest
  | some key =>
    have hseek : Serves (Host.seek ⟨0, i⟩ (Bytes.ofText key))
      (Database.seekCursor i (Bytes.ofText key)) := .onDatabase _
    rw [Option.map_some, Database.moveTo, bind_assoc]
    simp only [pure_bind]
    exact hseek.bind fun _ => hrest

end Serves

end SnapshotKv
