import SnapshotKv.Proofs.Durability
import SnapshotKv.Proofs.ReadOnly

/-!
# Runs of databases that were opened read-only

What the data files held when a database was opened read-only is what every get and every scan finds
in it, as long as it is open; and whatever is called, the files stay as they were.

Results:
1. `FileSystem.recordsAt`: what a data file holds; `frozen_of_openDatabase`: it is what was loaded.
2. `FileSystem.Grows`: what stays in the file system; `files_of_openDatabase`: what opening a database
   does to the files.
3. `Database.Readable`: when a call can read; `getRecord_readable`, `getRecord_of_readable`,
   `openCursor_of_readable`.
4. `scan_of_frozen`: scans go on through what was loaded.
5. `ReadOnlyLaw`, `read_only_unchanged`: what is so after all events, and what calls leave of the files.
-/

namespace SnapshotKv

open Database Storage FileSystem

/-! ## 1. What is loaded -/

/-- The records in the data file of a path: of several with one key the last one. Where there is no
file there are no records. -/
def FileSystem.recordsAt (fs : FileSystem) (path : String) : SortedMap Bytes Bytes :=
  match fs.entryAt path with
  | some (.file _ data) => match DataFile.decode data with
    | .ok (_, records) => .ofList records
    | .error _ => .empty
  | _ => .empty

/-- What was loaded from a data file is what it holds. -/
theorem Holds.contents {fs : FileSystem} {path : String} {len : Nat} {t : VersionTree}
    (h : Holds (fs.entryAt path) len t) : t.Flat ∧ t.contents 0 = fs.recordsAt path := by
  unfold recordsAt
  cases he : fs.entryAt path with
  | none =>
    rw [he] at h
    cases h
    exact ⟨.empty, rfl⟩
  | some e =>
    rw [he] at h
    cases h with
    | @file inode len data records hdata =>
      simp only [hdata]
      exact ⟨.ofRecords records, VersionTree.contents_foldl_insert records (VersionTree.upTo_empty 0)⟩

/-- What is loaded from an entry that has some records is these. -/
theorem recordsAt_of_keeps {fs : FileSystem} {path : String} {len : Nat} {m : SortedMap Bytes Bytes}
    (h : Keeps (fs.entryAt path) len m) : fs.recordsAt path = m := by
  rw [← h.holds.contents.2, VersionTree.contents_ofRecords]

/-- A database has what was loaded from the data files: nothing was committed, and the records of each
store are those of its file. -/
structure Database.LoadedFrom (fs : FileSystem) (db : Database) : Prop where
  published : db.published = 0
  contents : ∀ i s, db.cells.get? i = some s →
    s.tree.contents 0 = fs.recordsAt (db.catalog.dataFile s.name)

/-- What holds of a database that was just opened read-only. -/
theorem frozen_of_openDatabase {home : String} {params : List String} {fs fs' : FileSystem}
    {db : Database} (hopen : (openDatabase home params).on fs = (.ok db, fs'))
    (hreadOnly : db.settings.readOnly = true) : db.Frozen db ∧ db.LoadedFrom fs' := by
  obtain ⟨config, settings, catalog, lock, -, -, htrees, hdb⟩ := openDatabase_spec hopen
  have hat := Database.attached_withStores home settings config catalog lock
    (LoadingLemmas.treeIn catalog fs')
  rw [← hdb] at hat
  have hloaded : ∀ i s, db.cells.get? i = some s →
      s.tree.Flat ∧ s.tree.contents 0 = fs'.recordsAt (catalog.dataFile s.name) := by
    intro i s hs
    obtain ⟨r, hr, rfl⟩ := (hat.cells i s).1 hs
    obtain ⟨t, ht⟩ := htrees r (List.mem_of_getElem? hr)
    have hheld := (loadTree_ok_iff.1 ht).contents
    rw [← LoadingLemmas.treeIn_eq ht] at hheld
    exact hheld
  obtain ⟨hcatalog, hpublished, htxns, hcursors⟩ : db.catalog = catalog ∧ db.published = 0 ∧
      db.txns = {} ∧ db.cursors = {} := by
    rw [hat.same]
    exact ⟨rfl, rfl, rfl, rfl⟩
  refine ⟨?_, hpublished, fun i s hs => hcatalog ▸ (hloaded i s hs).2⟩
  exact
    { readOnly := hreadOnly
      flat := fun i s hs => (hloaded i s hs).1
      settings := rfl
      catalog := rfl
      stores := rfl
      published := rfl
      cells := rfl
      cycle := fun t c hc => by
        rw [htxns] at hc
        cases hc
      cursor := fun i c hc => by
        rw [hcursors] at hc
        cases hc }

/-! ## 2. The files -/

namespace FileSystem

/-- A path leads to what is under its names, unless that is a file and the path ends in a slash. -/
theorem entryAt_iff {fs : FileSystem} {path : String} {e : Entry} :
    fs.entryAt path = some e ↔ checkText path = .ok () ∧
      ∃ names, (Path.parts path).foldlM fs.step (fs.start path) = .ok names ∧
        fs.entry? names = some e ∧ (e = .directory ∨ Path.endsInSlash path = false) := by
  rw [entryAt_eq_some_iff]
  simp only [stat, resolve]
  constructor
  · intro h
    cases htext : checkText path with
    | error f =>
      rw [htext] at h
      cases h
    | ok _ =>
      cases hwalk : (Path.parts path).foldlM fs.step (fs.start path) with
      | error f =>
        rw [htext, hwalk] at h
        cases h
      | ok names =>
        simp only [htext, hwalk, bind, Except.bind, pure, Except.pure] at h
        cases hentry : fs.entry? names with
        | none =>
          simp only [hentry] at h
          cases h
        | some e' =>
          cases e' with
          | directory =>
            simp only [hentry] at h
            cases h
            exact ⟨rfl, names, rfl, hentry, .inl rfl⟩
          | file inode data =>
            cases hslash : Path.endsInSlash path with
            | true =>
              simp only [hentry, hslash, ↓reduceIte] at h
              cases h
            | false =>
              simp only [hentry, hslash, Bool.false_eq_true, ↓reduceIte] at h
              cases h
              exact ⟨rfl, names, rfl, hentry, .inr rfl⟩
  · rintro ⟨htext, names, hwalk, hentry, hslash⟩
    simp only [htext, hwalk, bind, Except.bind, pure, Except.pure]
    cases e with
    | directory => simp only [hentry]
    | file inode data =>
      rcases hslash with hdir | hplain
      · cases hdir
      · simp only [hentry, hplain, Bool.false_eq_true, ↓reduceIte]

/-- Every entry of a file system is still there in another one. -/
structure Grows (fs fs' : FileSystem) : Prop where
  cwd : fs'.cwd = fs.cwd
  entries : ∀ names e, fs.entry? names = some e → fs'.entry? names = some e

namespace Grows

variable {fs fs' : FileSystem}

theorem step (h : fs.Grows fs') {origin next : List String} {part : String}
    (hstep : fs.step origin part = .ok next) : fs'.step origin part = .ok next := by
  have hdir := PathLemmas.directory_of_step hstep
  simp only [FileSystem.step, hdir] at hstep
  simp only [FileSystem.step, h.entries _ _ hdir]
  split at hstep
  · next hdot => rw [if_pos hdot, hstep]
  · next hdot =>
    rw [if_neg hdot]
    split at hstep
    · next hdots => rw [if_pos hdots, hstep]
    · next hdots =>
      rw [if_neg hdots]
      split at hstep
      · cases hstep
      · next hsize =>
        rw [if_neg hsize]
        split at hstep
        · next he =>
          simp only [h.entries _ _ he]
          exact hstep
        · cases hstep

theorem walk (h : fs.Grows fs') {parts origin names : List String}
    (hwalk : parts.foldlM fs.step origin = .ok names) :
    parts.foldlM fs'.step origin = .ok names := by
  induction parts generalizing origin with
  | nil => exact hwalk
  | cons part rest ih =>
    rw [List.foldlM_cons] at hwalk ⊢
    cases hstep : fs.step origin part with
    | error e =>
      rw [hstep] at hwalk
      cases hwalk
    | ok next =>
      rw [hstep] at hwalk
      rw [h.step hstep]
      exact ih hwalk

/-- A path that leads to an entry still leads to it. -/
theorem entryAt (h : fs.Grows fs') {path : String} {e : Entry} (he : fs.entryAt path = some e) :
    fs'.entryAt path = some e := by
  rw [entryAt_iff] at he ⊢
  obtain ⟨htext, names, hwalk, hentry, hslash⟩ := he
  have hstart : fs'.start path = fs.start path := by
    unfold start
    rw [h.cwd]
  exact ⟨htext, names, hstart ▸ h.walk hwalk, h.entries names e hentry, hslash⟩

theorem of_insert {names : List String} (hne : names ≠ []) (hvacant : fs.entry? names = none)
    (e : Entry) (nextInode : Nat) :
    fs.Grows { fs with entries := fs.entries.insert names e, nextInode } where
  cwd := rfl
  entries := fun names' e' he' => by
    refine (entry?_insert hne e names').trans ?_
    split
    · next heq =>
      rw [heq, hvacant] at he'
      cases he'
    · exact he'

end Grows

theorem grows_of_openFile {fs fs' : FileSystem} {path : String} {names : List String}
    {inode : Nat} {data : Bytes} (h : fs.openFile path = .ok (names, inode, data, fs')) :
    fs.Grows fs' := by
  unfold openFile at h
  cases hplace : fs.place path with
  | error e =>
    rw [hplace] at h
    cases h
  | ok place =>
    obtain ⟨dir, last⟩ := place
    simp only [hplace, bind, Except.bind] at h
    split at h
    · cases h
    · cases hentry : fs.entry? (dir ++ [last]) with
      | none =>
        simp only [hentry] at h
        cases h
        exact .of_insert (names_ne_nil dir last) hentry _ _
      | some e =>
        cases e with
        | directory =>
          simp only [hentry] at h
          cases h
        | file inode' data' =>
          simp only [hentry] at h
          cases h
          exact ⟨rfl, fun _ _ he => he⟩

end FileSystem

/-- To take the lock makes at most one entry. -/
theorem grows_of_lockHome {home : String} {fs fs' : FileSystem} {lock : Nat}
    (h : (lockHome home).on fs = (.ok lock, fs')) : fs.Grows fs' := by
  simp only [lockHome, Attempt.on_ofStep, FileSystem.lockFile] at h
  cases hfile : fs.openFile (Storage.lockFile home) with
  | error e =>
    rw [hfile] at h
    cases h
  | ok opened =>
    obtain ⟨names, inode, data, fs₁⟩ := opened
    simp only [hfile] at h
    split at h
    · next heq =>
      split at heq
      · cases heq
      · cases heq
        cases h
        have hgrows := grows_of_openFile hfile
        exact ⟨hgrows.cwd, hgrows.entries⟩
    · cases h

/-- Opening a database leaves every file and every directory as it was. In a sound place nothing is new
but the lock file. -/
theorem files_of_openDatabase {home : String} {params : List String} {fs fs' : FileSystem}
    {db : Database} (hopen : (openDatabase home params).on fs = (.ok db, fs')) :
    (∀ path e, fs.entryAt path = some e → fs'.entryAt path = some e) ∧
      ∀ base name, Path.IsName name → name ≠ "kvdb.lock" →
        fs'.entryAt (Path.join base name) = fs.entryAt (Path.join base name) := by
  obtain ⟨config, settings, catalog, lock, hlock, -, -, -⟩ := openDatabase_spec hopen
  exact ⟨fun path e he => (grows_of_lockHome hlock).entryAt he, (lockHome_spec hlock).2.2.2⟩

/-! ## 3. Reading -/

/-- A call that reads can go through a handle to a store: the database is open, and the transaction of
the call, if it has one, is active and the handle is for transactions. -/
structure Database.Readable (db : Database) (now handle : Nat) (txn : Option Nat) (s : Store) :
    Prop where
  isOpen : db.closed = false
  granted : ∃ h, db.handleStore handle = .ok (h, s) ∧
    (txn.isSome = true → h.settings.transactional = true)
  active : ∀ t, txn = some t → ∃ c, db.txns.get? t = some (.active c) ∧ db.isExpired now c = false

namespace ReadOnlyLemmas

variable {α : Type} {base db db' : Database} {now handle : Nat} {txn : Option Nat}

theorem checkAccess_read_ok_iff {h : Handle} {s : Store} {bound : Bool} :
    db.checkAccess h s bound .read = .ok () ↔
      db.closed = false ∧ (bound = true → h.settings.transactional = true) := by
  rcases checkOpen_cases db with hopen | ⟨f, hf, hclosed⟩
  · have hopen := WithinLemmas.closed_of_checkOpen hopen
    rw [ReadLemmas.checkAccess_read hopen]
    cases bound <;> cases h.settings.transactional <;> simp [hopen]
  · have haccess : db.checkAccess h s bound .read = .error f := by
      unfold checkAccess
      rw [hf]
      rfl
    rw [haccess]
    exact iff_of_false (fun hok => nomatch hok) fun hopen => hclosed hopen.1

/-- The cycle that a transaction is asked for is active and not expired. -/
theorem isExpired_of_activeCycle {t : Nat} {c : Cycle}
    (h : (activeCycle now t).on db = (.ok c, db')) : db.isExpired now c = false := by
  rcases WithinLemmas.activeCycle_ends now t db with ⟨f, heq, -⟩ | ⟨c', -, -, heq⟩
  · rw [heq] at h
    cases h
  · rw [heq] at h
    cases hlive : db.isExpired now c' with
    | true =>
      rw [hlive] at h
      cases h
    | false =>
      rw [hlive] at h
      cases h
      exact hlive

theorem readable_none {h : Handle} {s : Store} (hs : db.handleStore handle = .ok (h, s))
    (haccess : db.checkAccess h s false .read = .ok ()) : db.Readable now handle none s where
  isOpen := (checkAccess_read_ok_iff.1 haccess).1
  granted := ⟨h, hs, (checkAccess_read_ok_iff.1 haccess).2⟩
  active := fun _ ht => nomatch ht

theorem readable_some {h : Handle} {s : Store} {t : Nat} {c : Cycle}
    (hs : db.handleStore handle = .ok (h, s))
    (haccess : db.checkAccess h s true .read = .ok ())
    (hactive : (activeCycle now t).on db = (.ok c, db')) : db.Readable now handle (some t) s where
  isOpen := (checkAccess_read_ok_iff.1 haccess).1
  granted := ⟨h, hs, (checkAccess_read_ok_iff.1 haccess).2⟩
  active := fun t' ht' => by
    cases ht'
    exact ⟨c, (StepLemmas.activeCycle_ok hactive).2, isExpired_of_activeCycle hactive⟩

/-- A cycle that has written nothing decides no key. -/
theorem lookup_of_empty {c : Cycle} (hc : c.writes = .empty) (store : Nat) (key : Bytes) :
    (c.writesTo store).lookup key = .absent := by
  rw [writesTo_of_empty hc]
  rfl

end ReadOnlyLemmas

open ReadOnlyLemmas

namespace Database.Readable

variable {db : Database} {now handle : Nat} {txn : Option Nat} {s : Store}

theorem judged (h : db.Readable now handle txn s) :
    ∃ hd, db.handleStore handle = .ok (hd, s) ∧
      db.checkAccess hd s txn.isSome .read = .ok () := by
  obtain ⟨hd, hs, hbound⟩ := h.granted
  exact ⟨hd, hs, checkAccess_read_ok_iff.2 ⟨h.isOpen, hbound⟩⟩

theorem cycle {t : Nat} (h : db.Readable now handle (some t) s) :
    ∃ c, db.txns.get? t = some (.active c) ∧ (activeCycle now t).on db = (.ok c, db) := by
  obtain ⟨c, hc, hlive⟩ := h.active t rfl
  exact ⟨c, hc, ReadLemmas.activeCycle_eq h.isOpen hc hlive⟩

end Database.Readable

/-- A get that answers could read, and answers what was loaded. -/
theorem getRecord_readable {base db db' : Database} (h : base.Frozen db) {now handle : Nat}
    {txn : Option Nat} {key : Bytes} {v : Option Bytes}
    (hget : (getRecord now handle txn key).on db = (.ok v, db')) :
    Limits.checkKey key = .ok () ∧
      ∃ s, db.Readable now handle txn s ∧ v = s.tree.get key base.published := by
  obtain ⟨_, _, hself, hget⟩ := Attempt.ok_of_bind hget
  cases hself
  obtain ⟨⟨hd, s⟩, _, hcheck, hget⟩ := Attempt.ok_of_bind hget
  obtain ⟨hs, rfl⟩ := Prod.mk.inj hcheck
  obtain ⟨_, _, hcheck, hget⟩ := Attempt.ok_of_bind hget
  obtain ⟨haccess, rfl⟩ := Prod.mk.inj hcheck
  obtain ⟨_, _, hcheck, hget⟩ := Attempt.ok_of_bind hget
  obtain ⟨hkey, rfl⟩ := Prod.mk.inj hcheck
  refine ⟨hkey, s, ?_⟩
  cases txn with
  | none =>
    cases hget
    exact ⟨readable_none hs haccess, by rw [h.published]⟩
  | some t =>
    obtain ⟨c, _, hactive, hread⟩ := Attempt.ok_of_bind hget
    refine ⟨readable_some hs haccess hactive, ?_⟩
    obtain ⟨hview, hwrites⟩ := h.cycle t c (StepLemmas.activeCycle_ok hactive).2
    simp only [lookup_of_empty hwrites, hview] at hread
    cases hread
    rfl

/-- A get answers whenever a call can read and the key is sound. -/
theorem getRecord_of_readable {base db : Database} (h : base.Frozen db) {now handle : Nat}
    {txn : Option Nat} {key : Bytes} {s : Store} (hkey : Limits.checkKey key = .ok ())
    (hread : db.Readable now handle txn s) :
    (getRecord now handle txn key).on db = (.ok (s.tree.get key base.published), db) := by
  obtain ⟨hd, hs, haccess⟩ := hread.judged
  simp only [getRecord, Attempt.on_bind, Attempt.on_get, Attempt.on_check, hs, haccess, hkey]
  cases txn with
  | none =>
    rw [h.published]
    rfl
  | some t =>
    obtain ⟨c, hc, hactive⟩ := hread.cycle
    obtain ⟨hview, hwrites⟩ := h.cycle t c hc
    simp only [Attempt.on_bind, hactive, lookup_of_empty hwrites, hview]
    rfl

/-- A cursor can be made whenever a call can read and the filter is sound. -/
theorem openCursor_of_readable {db : Database} {now handle : Nat} {txn : Option Nat}
    {filter : Bytes} {s : Store} (hfilter : Limits.checkBound filter = .ok ())
    (hread : db.Readable now handle txn s) (reverse : Bool) :
    ∃ db', (openCursor now handle txn filter reverse).on db = (.ok db.cursors.nextId, db') := by
  obtain ⟨hd, hs, haccess⟩ := hread.judged
  simp only [openCursor, Attempt.on_bind, Attempt.on_get, Attempt.on_check, hs, haccess, hfilter]
  cases txn with
  | none => exact ⟨_, rfl⟩
  | some t =>
    obtain ⟨c, hc, hactive⟩ := hread.cycle
    simp only [Attempt.on_bind, hactive]
    exact ⟨_, rfl⟩

/-! ## 4. Scans -/

/-- Whether an event is a call that gives a cursor up, or sends it to a key. -/
def Event.repositions (i : Nat) : Event → Bool
  | .call _ (.closeCursor j) | .call _ (.seekCursor j _) | .call _ (.seekRangeCursor j _ _) => j == i
  | _ => false

/-- The records of a map that start with a filter, in scan order. -/
def scanOf (m : SortedMap Bytes Bytes) (filter : Bytes) (reverse : Bool) : List (Bytes × Bytes) :=
  inScanOrder reverse (m.entries.filter fun e => filter.isPrefixOf e.1)

namespace ReadOnlyLemmas

variable {base db : Database} {s : Site} {i n : Nat} {filter : Bytes} {bound : Bool}
  {records : List (Bytes × Bytes)}

/-- A cursor whose cycle has written nothing lists what its view sees. -/
theorem listing_of_empty {c : Cursor} (hc : c.overlay.getD {} = {}) (tree : VersionTree) :
    c.listing tree = scanOf (tree.contents c.view) c.filter c.reverse := by
  have hcontents : c.contents tree = tree.contents c.view := by
    unfold Cursor.contents
    cases hw : c.overlay with
    | none => rfl
    | some w =>
      rw [hw] at hc
      cases hc
      refine SortedMap.ext_get? fun key => ?_
      rw [WriteSet.get?_overlaid]
      rfl
  unfold Cursor.listing scanOf
  rw [hcontents]

/-- What a new cursor is bound to is the view of the opening, with nothing over it. -/
theorem binds_of_frozen (h : base.Frozen db) {store view : Nat} {overlay : Option WriteSet}
    {txn : Option Nat} (hbinds : db.Binds store view overlay txn) :
    view = base.published ∧ overlay.getD {} = {} := by
  cases txn with
  | none =>
    obtain ⟨rfl, rfl⟩ := hbinds
    exact ⟨h.published, rfl⟩
  | some t =>
    obtain ⟨c, hc, rfl, rfl⟩ := hbinds
    obtain ⟨hview, hwrites⟩ := h.cycle t c hc
    exact ⟨hview, writesTo_of_empty hwrites store⟩

/-- A refresh of a cursor does not move its view, for nothing was published. -/
theorem refreshCursor_cases (h : base.Frozen db) {c : Cursor} (hc : db.cursors.get? i = some c) :
    ((refreshCursor i).on db).2.cursors.get? i = some c ∨
      ((refreshCursor i).on db).2.cursors.get? i = some { c with atEnd := false } := by
  have hview : db.published = c.view := h.published.trans (h.cursor i c hc).1.symm
  simp only [refreshCursor, Attempt.on_bind, Attempt.on_get, Attempt.on_check]
  cases db.checkOpen with
  | error f => exact .inl hc
  | ok _ =>
    cases hfound : db.cursorStore i with
    | error f => exact .inl hc
    | ok found =>
      simp only
      split
      · refine .inr ?_
        simp only [Attempt.on_set, Pool.get?_modify, hc, Option.map_some, hview, ↓reduceIte]
      · exact .inl hc

/-- Whatever happens besides, a cursor that is not sent elsewhere goes on from where it is, through the
same records. -/
theorem walks_next (h : base.Frozen s.db) {e : Event} (hkeeps : e.repositions i = false)
    (hreads : e.reads i = false) (hwalks : Walks s.db i filter bound records n) :
    Walks (e.next s).db i filter bound records n := by
  obtain ⟨c, st, hc, hs, hfilter, hbound, hlisting, hread⟩ := hwalks
  have hcells : s.db.cells.map Store.resting = (e.next s).db.cells.map Store.resting := by
    rw [h.cells, (e.frozen h).cells]
  obtain ⟨st', hs', hrest⟩ := Pool.get?_of_map_eq hcells hs
  have htree : st'.resting.tree = st.resting.tree := by rw [hrest]
  have hlisting' : c.listing st'.tree = records := (congrArg c.listing htree).trans hlisting
  have hsame : (e.next s).db.cursors.get? i = some c ∨
      (e.next s).db.cursors.get? i = some { c with atEnd := false } := by
    cases hmoves : e.moves i with
    | false => exact .inl (e.cursor_next hmoves hreads hc)
    | true =>
      -- of the calls that move a cursor, only a refresh keeps to the scan
      unfold Event.moves at hmoves
      split at hmoves
      · exact absurd hmoves (Bool.eq_false_iff.1 hkeeps)
      · exact absurd hmoves (Bool.eq_false_iff.1 hkeeps)
      · exact absurd hmoves (Bool.eq_false_iff.1 hkeeps)
      · next now j =>
        cases beq_iff_eq.1 hmoves
        simp only [Event.next, Event.attempt, Call.attempt, Attempt.on_map, on_onDatabase]
        exact refreshCursor_cases h hc
      · cases hmoves
  rcases hsame with hc' | hc'
  · exact ⟨c, st', hc', hs', hfilter, hbound, hlisting', hread⟩
  · exact ⟨_, st', hc', hs', hfilter, hbound, hlisting',
      { uncapped := hread.uncapped, ahead := hread.ahead
        atEnd := fun hend => absurd hend Bool.false_ne_true }⟩

/-- No cursor is outdated in a tree that has no tombstones. -/
theorem checkReady_of_flat {st : Store} (hst : st.tree.Flat) (hopen : db.closed = false)
    (c : Cursor) : db.checkReady c st = .ok () := by
  have hcurrent : c.isOutdated st.tree = false := by
    unfold Cursor.isOutdated VersionTree.prefixDeletedSince
    rw [hst.tombstones, List.any_nil, Bool.and_false]
  unfold checkReady
  rw [ReadLemmas.checkOpen_eq hopen, hcurrent]
  rfl

end ReadOnlyLemmas

/-- A scan goes through what was loaded, from the time its cursor was made, whatever happens between
its reads; and no read fails as long as the database is open. -/
theorem scan_of_frozen {base : Database} {s : Site} (h : base.Frozen s.db) {now handle i : Nat}
    {txn : Option Nat} {filter : Bytes} {reverse : Bool}
    (hmade : (Event.call now (.openCursor handle txn filter reverse)).answer s = .ok (.number i)) :
    ∃ st, s.db.Readable now handle txn st ∧
      let records := scanOf (st.tree.contents base.published) filter reverse
      let made := (Event.call now (.openCursor handle txn filter reverse)).next s
      ∀ events : List Event, (∀ e ∈ events, e.repositions i = false) →
        (∀ (k : Nat) r, (readsOf i events made)[k]? = some r → r = records[k]?) ∧
        ((made.after events).db.closed = false → ∀ now,
          (Event.call now (.readCursor i)).answer (made.after events) =
            .ok (.record records[(readsOf i events made).length]?)) := by
  obtain ⟨hd, st, view, overlay, hh, hs, hbinds, hget, hwalks⟩ := walks_start hmade
  obtain ⟨-, st', hread, -⟩ := getRecord_readable h (hget [0] rfl)
  obtain rfl : st' = st := by
    obtain ⟨hd', hstore, -⟩ := hread.granted
    rw [ReadLemmas.handleStore_eq hh hs] at hstore
    cases hstore
    rfl
  obtain ⟨rfl, hoverlay⟩ := binds_of_frozen h hbinds
  rw [listing_of_empty hoverlay] at hwalks
  refine ⟨st', hread, fun events hkeeps => ?_⟩
  have hfrozen := Event.frozen h (.call now (.openCursor handle txn filter reverse))
  obtain ⟨hlater, hreads⟩ := hwalks.along (P := fun s => base.Frozen s.db)
    (fun e _ s hs => e.frozen hs) (fun e he s n hs hreads hw => walks_next hs (hkeeps e he) hreads hw)
    hfrozen
  rw [Nat.zero_add] at hlater
  simp only [Nat.zero_add] at hreads
  refine ⟨hreads, fun hopen now => hlater.read_of_ready (fun c st hs _ _ => ?_) now⟩
  exact checkReady_of_flat ((hfrozen.after events).flat_tree hs) hopen c

/-! ## 5. Databases that were opened read-only -/

/-- What is so at a site of a database that was opened read-only, on some files. -/
structure ReadOnlyLaw (opened : Database) (fs : FileSystem) (s : Site) : Prop where
  /-- Nothing was committed. -/
  published : s.db.published = 0
  catalog : s.db.catalog = opened.catalog
  stores : s.db.stores = opened.stores
  /-- What writes is refused and changes nothing. On an open database the reason is that it is
  read-only, unless the handle or its mode do not fit. -/
  writes : ∀ (now : Nat) (c : Call), c.isWrite = true →
    ∃ f, (Event.call now c).answer s = .error f ∧ (Event.call now c).next s = s ∧
      (s.db.closed = false → c.Reaches s.db → f = Fault.openReadOnly)
  /-- A get answers exactly when it can read, with what the data file of the store held. -/
  gets : ∀ (now handle : Nat) (txn : Option Nat) (key : Bytes) (v : Option Bytes),
    (Event.call now (.get handle txn key)).answer s = .ok (.value v) ↔
      Limits.checkKey key = .ok () ∧ ∃ st, s.db.Readable now handle txn st ∧
        v = (fs.recordsAt (opened.catalog.dataFile st.name)).get? key
  /-- A cursor can be made wherever a get can read. -/
  cursors : ∀ (now handle : Nat) (txn : Option Nat) (filter : Bytes) (reverse : Bool) (st : Store),
    Limits.checkBound filter = .ok () → s.db.Readable now handle txn st →
      ∃ i, (Event.call now (.openCursor handle txn filter reverse)).answer s = .ok (.number i)
  /-- The reads of a new cursor answer the records that the data file of the store held, one after
  another, whatever happens between them, and none fails while the database is open. -/
  scans : ∀ (now handle : Nat) (txn : Option Nat) (filter : Bytes) (reverse : Bool) (i : Nat),
    (Event.call now (.openCursor handle txn filter reverse)).answer s = .ok (.number i) →
      ∃ st, s.db.Readable now handle txn st ∧
        let records := scanOf (fs.recordsAt (opened.catalog.dataFile st.name)) filter reverse
        let made := (Event.call now (.openCursor handle txn filter reverse)).next s
        ∀ events : List Event, (∀ e ∈ events, e.repositions i = false) →
          (∀ (k : Nat) r, (readsOf i events made)[k]? = some r → r = records[k]?) ∧
          ((made.after events).db.closed = false → ∀ now,
            (Event.call now (.readCursor i)).answer (made.after events) =
              .ok (.record records[(readsOf i events made).length]?))

section

variable {opened : Database} {fs : FileSystem} {s : Site}

/-- The store of a handle has what its data file held. -/
theorem contents_of_frozen {db : Database} (h : opened.Frozen db) (hloaded : opened.LoadedFrom fs)
    {now handle : Nat} {txn : Option Nat} {st : Store} (hread : db.Readable now handle txn st) :
    st.tree.contents opened.published = fs.recordsAt (opened.catalog.dataFile st.name) := by
  obtain ⟨hd, hstore, -⟩ := hread.granted
  obtain ⟨st₀, hst₀, hrest⟩ := h.store (StepLemmas.handleStore_ok hstore).2
  have htree : st₀.tree = st.tree := congrArg (fun st => st.resting.tree) hrest
  have hname : st₀.name = st.name := congrArg (fun st => st.resting.name) hrest
  have hheld := hloaded.contents _ st₀ hst₀
  rw [htree, hname] at hheld
  rw [hloaded.published, hheld]

/-- Gets answer what the data files held. -/
theorem get_iff_of_frozen (h : opened.Frozen s.db) (hloaded : opened.LoadedFrom fs)
    (now handle : Nat) (txn : Option Nat) (key : Bytes) (v : Option Bytes) :
    (Event.call now (.get handle txn key)).answer s = .ok (.value v) ↔
      Limits.checkKey key = .ok () ∧ ∃ st, s.db.Readable now handle txn st ∧
        v = (fs.recordsAt (opened.catalog.dataFile st.name)).get? key := by
  have hvalue : ∀ {st}, s.db.Readable now handle txn st →
      st.tree.get key opened.published =
        (fs.recordsAt (opened.catalog.dataFile st.name)).get? key := fun {st} hread => by
    rw [← contents_of_frozen h hloaded hread, VersionTree.get?_contents]
  have hanswer : (Event.call now (.get handle txn key)).answer s =
      ((getRecord now handle txn key).on s.db).1.map .value := by
    simp only [Event.answer, Event.attempt, Call.attempt, Attempt.on_map, on_onDatabase]
  rw [hanswer]
  constructor
  · intro hget
    cases hres : (getRecord now handle txn key).on s.db with
    | mk r db' =>
      rw [hres] at hget
      cases r with
      | error f => cases hget
      | ok v' =>
        cases hget
        obtain ⟨hkey, st, hread, rfl⟩ := getRecord_readable h hres
        exact ⟨hkey, st, hread, hvalue hread⟩
  · rintro ⟨hkey, st, hread, rfl⟩
    rw [getRecord_of_readable h hkey hread, ← hvalue hread]
    rfl

theorem law_of_frozen (h : opened.Frozen s.db) (hloaded : opened.LoadedFrom fs) :
    ReadOnlyLaw opened fs s where
  published := h.published.trans hloaded.published
  catalog := h.catalog
  stores := h.stores
  writes := fun now c hwrite => by
    obtain ⟨f, hf, hwhy⟩ := refused_of_readOnly h.isReadOnly now hwrite
    exact ⟨f, congrArg Prod.fst hf, congrArg Prod.snd hf, hwhy⟩
  gets := get_iff_of_frozen h hloaded
  cursors := fun now handle txn filter reverse st hfilter hread => by
    obtain ⟨db', hmade⟩ := openCursor_of_readable hfilter hread reverse
    refine ⟨s.db.cursors.nextId, ?_⟩
    simp only [Event.answer, Event.attempt, Call.attempt, Attempt.on_map, on_onDatabase, hmade]
    rfl
  scans := fun now handle txn filter reverse i hmade => by
    obtain ⟨st, hread, hscan⟩ := scan_of_frozen h hmade
    rw [contents_of_frozen h hloaded hread] at hscan
    exact ⟨st, hread, hscan⟩

end

/-! ### A database with one record that is opened read-only -/

/-- The catalog of a database with one store. -/
def oneStore : Catalog where
  nextId := 2
  capacity := "/db/capacity"
  staging := none
  pmem := none
  stores := [{ name := "a", id := 1, prefixLength := 0 }]

/-- The record of the store. -/
def oneRecord : SortedMap Bytes Bytes := .ofList [([107], [1])]

/-- The directory of the database, when nobody has it open. -/
def savedHome : FileSystem where
  entries := .ofList [(["db"], .directory), (["db", "capacity"], .directory),
    (["db", "kvdb.lock"], .file 1 []), (["db", "kvdb.meta"], .file 2 (Bytes.ofText oneStore.text)),
    (["db", "capacity", "a.kvs"], .file 3 (DataFile.encode 0 oneRecord.entries))]
  nextInode := 4

theorem entryAt_savedHome : savedHome.entryAt "/db/capacity/a.kvs" =
    some (.file 3 (DataFile.encode 0 oneRecord.entries)) := rfl

theorem houses_savedHome : Houses savedHome "/db" oneStore fun _ => oneRecord where
  sound :=
    { numbered := ⟨by decide, by decide⟩
      distinct := by decide
      named := by decide
      short := by decide }
  nextId := by decide
  catalog := ⟨2, _, rfl, Utf8.decode?_ofText _⟩
  stores := fun r hr => by
    rw [List.mem_singleton.1 hr]
    refine ⟨3, _, entryAt_savedHome, DataFile.decode_encode (by decide) (fun e he => ?_) (by decide)⟩
    rw [List.mem_singleton.1 he]
    exact ⟨by decide, by decide⟩

/-- The database after it was opened read-only. -/
def readOnlyDatabase : Database :=
  .withStores
    { home := "/db", settings := { readOnly := true }, config := {}, lock := 1
      catalog := oneStore } (treeOfRecord fun _ => oneRecord)

theorem openDatabase_savedHome : (openDatabase "/db" ["read_only=true"]).on savedHome =
    (.ok readOnlyDatabase, { savedHome with locked := [1] }) := by
  have hsettings : OpenSettings.scheme.ofLayers [({} : Config).database] ["read_only=true"] =
      .ok { readOnly := true } := by decide +kernel
  exact houses_savedHome.openDatabase_eq (loadConfig_of_missing rfl) hsettings rfl (by decide)

/-- A database that was opened read-only is never changed. After all events, other programs that write
to the files among them, nothing was committed and the stores are the same, every call that writes is
refused, and gets and scans answer what the data files held. The calls alone leave every file and
every directory as it was before the opening, and in a sound place they make nothing but the lock
file. -/
theorem read_only_unchanged {home : String} {params : List String} {fs fs' : FileSystem}
    {db : Database} (hopen : (openDatabase home params).on fs = (.ok db, fs'))
    (hreadOnly : db.settings.readOnly = true) (events : List Event) :
    ReadOnlyLaw db fs' ((⟨db, fs'⟩ : Site).after events) ∧
      ((∀ e ∈ events, ∃ now c, e = .call now c) →
        (∀ path e, fs.entryAt path = some e →
          ((⟨db, fs'⟩ : Site).after events).fs.entryAt path = some e) ∧
        ∀ base name, Path.IsName name → name ≠ "kvdb.lock" →
          ((⟨db, fs'⟩ : Site).after events).fs.entryAt (Path.join base name) =
            fs.entryAt (Path.join base name)) := by
  obtain ⟨hfrozen, hloaded⟩ := frozen_of_openDatabase hopen hreadOnly
  refine ⟨law_of_frozen (hfrozen.after (s := ⟨db, fs'⟩) events) hloaded, fun hcalls => ?_⟩
  obtain ⟨hkept, hnothing⟩ := files_of_openDatabase hopen
  obtain ⟨locked, hfiles⟩ := sameFiles_after (s := ⟨db, fs'⟩) hfrozen hcalls
  rw [hfiles]
  exact ⟨hkept, hnothing⟩

/-- A store is opened, a write and a new store are refused, and a cycle is committed. -/
def readOnlyEvents : List Event :=
  [.call 0 (.openStore "a" ["transactions.enabled=true"]), .call 0 .allocTxn,
    .call 0 (.beginTxn 0), .call 0 (.write 0 (some 0) (.put [107] [2])), .call 0 (.commitTxn 0),
    .call 0 (.createStore "c" []), .call 0 .compact, .call 0 .sync]

/-- The database after that. -/
def readOnlyLater : Site :=
  (⟨readOnlyDatabase, { savedHome with locked := [1] }⟩ : Site).after readOnlyEvents

theorem readOnlyLater_spec : readOnlyDatabase.settings.readOnly = true ∧
    readOnlyLater.db.closed = false ∧
    (readOnlyLater.db.handles.get? 0).map (·.cell) = some 0 ∧
    (readOnlyLater.db.cells.get? 0).map (·.name) = some "a" := by decide +kernel

/-- After the write and the new store were refused and the cycle was committed, the store has what its
data file had, and so has the file. -/
theorem read_only_unchanged_savedHome :
    (openDatabase "/db" ["read_only=true"]).on savedHome =
        (.ok readOnlyDatabase, { savedHome with locked := [1] }) ∧
      (Event.call 0 (.write 0 none (.put [107] [2]))).answer readOnlyLater =
        .error Fault.openReadOnly ∧
      (Event.call 0 (.get 0 none [107])).answer readOnlyLater = .ok (.value (some [1])) ∧
      readOnlyLater.fs.entryAt "/db/capacity/a.kvs" =
        some (.file 3 (DataFile.encode 0 oneRecord.entries)) := by
  obtain ⟨hreadOnly, hopen, hhandle, hcell⟩ := readOnlyLater_spec
  obtain ⟨h, hh, hfirst⟩ := Option.map_eq_some_iff.1 hhandle
  obtain ⟨st, hs, hname⟩ := Option.map_eq_some_iff.1 hcell
  have hstore := ReadLemmas.handleStore_eq hh (hfirst.symm ▸ hs)
  have hread : readOnlyLater.db.Readable 0 0 none st :=
    ⟨hopen, ⟨h, hstore, fun hbound => nomatch hbound⟩, fun t ht => nomatch ht⟩
  obtain ⟨hjust, hhouses, -⟩ := houses_savedHome.opened openDatabase_savedHome
  have hrecords := recordsAt_of_keeps (hhouses.stores _ List.mem_cons_self)
  obtain ⟨hlaw, hfiles⟩ := read_only_unchanged openDatabase_savedHome hreadOnly readOnlyEvents
  rw [← readOnlyLater] at hlaw hfiles
  obtain ⟨hkept, -⟩ := hfiles (by simp [readOnlyEvents])
  obtain ⟨f, hf, -, hwhy⟩ := hlaw.writes 0 (.write 0 none (.put [107] [2])) rfl
  refine ⟨openDatabase_savedHome, ?_, ?_, hkept _ _ entryAt_savedHome⟩
  · rw [← hwhy hopen ⟨h, st, hstore, fun hbound => nomatch hbound⟩]
    exact hf
  · refine (hlaw.gets 0 0 none [107] _).2 ⟨by decide, st, hread, ?_⟩
    rw [hjust.catalog, hname, hrecords]
    decide

end SnapshotKv
