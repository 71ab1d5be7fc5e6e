import SnapshotKv.CommandLine.Run
import SnapshotKv.Proofs.OnDisk
import SnapshotKv.Proofs.ReadLaw

/-!
# Sessions of the program

A command of the program on the records of a store is a session: the database is opened, the store
is opened, some calls are made, and all is closed again. What the session leaves to the next one are
the files. Here the database has one store, it has no configuration, and nothing is in the way of its
files; then a session that calls the store leaves on disk what the calls left in the store.

Results:
1. `OneStore`, `AtRest`: a home with one store, and one that nobody has open.
2. `AtRest.openDatabase`, `OneStore.openDatabase_refused`: how the database is opened.
3. `Held`: what the open database has; `Held.close`: what closing it leaves on disk.
4. `Serves`: attempts of a process on its only database; `AtRest.withStore`: a session.
-/

namespace SnapshotKv

open Storage FileSystem

/-! ## 1. A home with one store -/

/-- A home houses one store with some records. It has no configuration, and the data file of the
store can be replaced. -/
structure OneStore (fs : FileSystem) (home : String) (c : Catalog) (r : StoreRecord)
    (m : SortedMap Bytes Bytes) : Prop where
  houses : Houses fs home c fun _ => m
  alone : c.stores = [r]
  unconfigured : fs.entryAt (configFile home) = none
  replaceable : fs.replaceable (c.dataFile r.name) = .ok ()

/-- A home with one store whose lock can be taken. -/
structure AtRest (fs : FileSystem) (home : String) (c : Catalog) (r : StoreRecord)
    (m : SortedMap Bytes Bytes) : Prop extends OneStore fs home c r m where
  lockable : ∃ lock fs', (lockHome home).on fs = (.ok lock, fs')

namespace SessionLemmas

theorem isName_config : Path.IsName "kvdb.conf" := by
  constructor <;> decide

theorem getLast_config : "kvdb.conf".toList.getLast? = some 'f' := rfl

/-- A layer without fields assigns nothing. -/
theorem ofLayers_empty {σ : Type} (S : Scheme σ) (params : List String) :
    S.ofLayers [.empty] params = S.ofPairs params := rfl

end SessionLemmas

open SessionLemmas OnDiskLemmas

namespace OneStore

variable {fs fs' : FileSystem} {home : String} {c : Catalog} {r : StoreRecord}
  {m m' : SortedMap Bytes Bytes}

theorem mem (h : OneStore fs home c r m) : r ∈ c.stores := by
  rw [h.alone]
  exact List.mem_singleton_self r

theorem isName (h : OneStore fs home c r m) : Path.IsName (dataFileName r.name) :=
  isName_dataFileName (h.houses.sound.named r h.mem)

theorem keeps (h : OneStore fs home c r m) :
    Keeps (fs.entryAt (c.dataFile r.name)) r.prefixLength m := h.houses.stores r h.mem

/-- The data file may have changed, but no other file of the database and no directory. -/
theorem congr (h : OneStore fs home c r m) (hsame : SameDirectories fs fs')
    (hcatalog : fs'.entryAt (catalogFile home) = fs.entryAt (catalogFile home))
    (hconfig : fs'.entryAt (configFile home) = fs.entryAt (configFile home))
    (hkeeps : Keeps (fs'.entryAt (c.dataFile r.name)) r.prefixLength m') :
    OneStore fs' home c r m' where
  houses :=
    { sound := h.houses.sound
      nextId := h.houses.nextId
      catalog := h.houses.catalog.congr hcatalog
      stores := fun r' hr' => by
        rw [h.alone, List.mem_singleton] at hr'
        exact hr' ▸ hkeeps }
  alone := h.alone
  unconfigured := hconfig.trans h.unconfigured
  replaceable := (replaceable_congr hsame h.isName).2 h.replaceable

/-- The data file was written. -/
theorem written (h : OneStore fs home c r m)
    (hfile : (saveDataFile (c.dataFile r.name) r.prefixLength m'.entries).on fs = (.ok (), fs'))
    (hfits : ∀ e ∈ m'.entries, DataFile.Fits e)
    (hbody : (DataFile.body m'.entries).length < 256 ^ 8) :
    OneStore fs' home c r m' ∧ fs'.entryAt (lockFile home) = fs.entryAt (lockFile home) ∧
      fs'.locked = fs.locked := by
  have htouches := touches_of_replaceFile h.isName hfile
  have hshort := h.houses.sound.short r h.mem
  refine ⟨h.congr htouches.same ?_ ?_ ?_, ?_, htouches.locked⟩
  · exact htouches.entryAt isName_catalog (untouched_by_dataFile _ getLast_catalog (by decide))
  · exact htouches.entryAt isName_config (untouched_by_dataFile _ getLast_config (by decide))
  · exact keeps_of_saveDataFile h.isName hfile (Nat.lt_of_le_of_lt hshort (by decide)) hfits hbody
  · exact htouches.entryAt isName_lock (untouched_by_dataFile _ getLast_lock (by decide))

/-- A missing configuration configures nothing. -/
theorem loadConfig (h : OneStore fs home c r m) : (loadConfig home).on fs = (.ok {}, fs) := by
  have hmissing : fs.stat (configFile home) = .error Errno.noEntry := by
    obtain ⟨inode, data, hcatalog, -⟩ := h.houses.catalog
    obtain ⟨dir, hspot, -⟩ := (stat_eq_ok_iff isName_catalog).1 (entryAt_eq_some_iff.1 hcatalog)
    have hspot' := hspot.sibling isName_catalog isName_config (by decide) (by decide)
    refine stat_eq_noEntry isName_config hspot' ?_
    cases he : fs.entry? (dir ++ ["kvdb.conf"]) with
    | none => rfl
    | some e =>
      have hfound := entryAt_eq_some_iff.2 ((stat_eq_ok_iff isName_config).2 ⟨dir, hspot', he⟩)
      cases h.unconfigured.symm.trans hfound
  simp only [Storage.loadConfig, Attempt.on_bind, Attempt.on_get, readText, FileSystem.contents,
    hmissing]
  rfl

/-- Giving up a lock that is held once puts the home at rest. -/
theorem released (h : OneStore fs home c r m) {lock : Nat} {data : Bytes}
    (hfile : fs.entryAt (lockFile home) = some (.file lock data))
    (honce : fs.locked.count lock = 1) : AtRest (fs.unlock lock) home c r m :=
  ⟨h.congr ⟨rfl, fun _ => Iff.rfl⟩ rfl rfl h.keeps, _, _,
    lockHome_free hfile (not_mem_unlock honce)⟩

end OneStore

/-! ## 2. Opening -/

/-- The database of a home with one store, as it is opened. -/
def openedDatabase (home : String) (c : Catalog) (r : StoreRecord) (m : SortedMap Bytes Bytes)
    (settings : OpenSettings) (lock : Nat) : Database :=
  attach { home, settings, config := {}, catalog := c, lock } r (.ofRecords m.entries)

section Opening

variable {fs : FileSystem} {home : String} {c : Catalog} {r : StoreRecord}
  {m : SortedMap Bytes Bytes} {params : List String}

/-- A home at rest can be opened whenever the parameters are sound. -/
theorem AtRest.openDatabase (h : AtRest fs home c r m) {settings : OpenSettings}
    (hsettings : OpenSettings.scheme.ofPairs params = .ok settings) :
    ∃ lock fs', (openDatabase home params).on fs =
        (.ok (openedDatabase home c r m settings lock), fs') ∧
      OneStore fs' home c r m ∧
      Site.Locked home ⟨openedDatabase home c r m settings lock, fs'⟩ := by
  obtain ⟨lock, fs', hlock⟩ := h.lockable
  obtain ⟨hfile, honce, hsame, hframe⟩ := lockHome_spec hlock
  have hdata : fs'.entryAt (c.dataFile r.name) = fs.entryAt (c.dataFile r.name) :=
    hframe _ _ h.isName (ne_of_getLast (getLast_dataFileName r.name) getLast_lock (by decide))
  have h' : OneStore fs' home c r m := h.congr hsame (hframe _ _ isName_catalog (by decide))
    (hframe _ _ isName_config (by decide)) (hdata ▸ h.keeps)
  have hopen := openDatabase_ok h.houses.hasDatabase (congrArg Prod.fst h.loadConfig)
    (ofLayers_empty _ params ▸ hsettings) hlock h'.houses.loadCatalog
    fun r' hr' => ⟨_, h'.houses.loadTree hr'⟩
  refine ⟨lock, fs', ?_, h', hfile, honce⟩
  rw [hopen, Database.withStores, h.alone, openedDatabase,
    ← LoadingLemmas.treeIn_eq (h'.houses.loadTree h.mem)]
  rfl

/-- Parameters that are not sound are refused before anything is touched. -/
theorem OneStore.openDatabase_refused (h : OneStore fs home c r m) {f : Fault}
    (hsettings : OpenSettings.scheme.ofPairs params = .error f) :
    (openDatabase home params).on fs = (.error f, fs) := by
  have hlayers : OpenSettings.scheme.ofLayers [({} : Config).database] params = .error f :=
    hsettings
  exact SnapshotKv.openDatabase_refused h.houses.hasDatabase (congrArg Prod.fst h.loadConfig) hlayers

end Opening

/-! ## 3. The open database -/

/-- What a session finds: a catalog with one store, its settings, the lock that it took, and the
records of the store on disk. -/
structure SessionStart where
  catalog : Catalog
  record : StoreRecord
  settings : OpenSettings
  lock : Nat
  saved : SortedMap Bytes Bytes

/-- A store has the shape of a record of the catalog, and some contents. -/
structure Store.Has (st : Store) (r : StoreRecord) (published : Nat) (m : SortedMap Bytes Bytes) :
    Prop where
  name : st.name = r.name
  prefixLength : st.prefixLength = r.prefixLength
  upTo : st.tree.UpTo published
  contents : st.tree.contents published = m

/-- The database of a session. Its one store has some records, and these are the records on disk
unless the store is dirty. -/
structure Kept (x : SessionStart) (m : SortedMap Bytes Bytes) (db : Database) : Prop where
  catalog : db.catalog = x.catalog
  settings : db.settings = x.settings
  lock : db.lock = x.lock
  cells : db.stores.values = [0]
  fits : ∀ e ∈ m.entries, DataFile.Fits e
  store : ∃ st, db.cells.get? 0 = some st ∧ st.Has x.record db.published m ∧
    (st.dirty = true → x.settings.readOnly = false) ∧ (st.dirty = false → m = x.saved)

/-- The database of a session is open. -/
structure Held (x : SessionStart) (m : SortedMap Bytes Bytes) (db : Database) : Prop
    extends Kept x m db where
  isOpen : db.closed = false

/-- What writing the contents to disk leaves there. -/
theorem Kept.persist {x : SessionStart} {m : SortedMap Bytes Bytes} {db : Database}
    {fs : FileSystem} {home : String} (h : Kept x m db)
    (hfiles : OneStore fs home x.catalog x.record x.saved) (hlocked : Site.Locked home ⟨db, fs⟩)
    (hbody : (DataFile.body m.entries).length < 256 ^ 8) :
    ∃ s', Storage.persist.on ⟨db, fs⟩ = (.ok (), s') ∧
      OneStore s'.fs home x.catalog x.record m ∧ s'.Locked home := by
  obtain ⟨st, hs, hhas, hwritable, hclean⟩ := h.store
  simp only [Storage.persist, Attempt.on_bind, Attempt.on_get, h.settings, h.cells]
  cases hreadOnly : x.settings.readOnly with
  | true =>
    -- What was not written is on disk already: a database that is read only has no dirty store.
    have hdirty : st.dirty = false := by
      by_contra hdirty
      exact absurd (hwritable (by simpa using hdirty)) (by simp [hreadOnly])
    exact ⟨_, rfl, hclean hdirty ▸ hfiles, hlocked⟩
  | false =>
    simp only [Bool.not_false, ↓reduceIte]
    have hends := saved ⟨db, fs⟩ 0
    show ∃ s', (persistCell 0 >>= fun _ => pure ()).on ⟨db, fs⟩ = _ ∧ _
    rw [Attempt.on_bind]
    revert hends
    generalize (persistCell 0).on ⟨db, fs⟩ = o
    intro hends
    cases hends with
    | skipped hskipped => exact ⟨_, rfl, hclean (hskipped st hs) ▸ hfiles, hlocked⟩
    | @unwritten st' f fs' hs' hdirty hfile =>
      -- Only something in the way of the data file makes this fail.
      obtain rfl := Option.some.inj (hs.symm.trans hs')
      rw [h.catalog, hhas.name] at hfile
      have hrefused := (replaceFile_spec hfiles.isName _ _ _ hfile).1
      cases hrefused.trans hfiles.replaceable
    | @written st' fs' hs' hdirty hfile =>
      obtain rfl := Option.some.inj (hs.symm.trans hs')
      rw [h.catalog, hhas.name, hhas.prefixLength] at hfile
      have hrecords : st.tree.liveRecords db.published = m.entries :=
        congrArg SortedMap.entries hhas.contents
      rw [hrecords] at hfile
      obtain ⟨hfiles', hentry, hlocks⟩ := hfiles.written hfile h.fits hbody
      exact ⟨_, rfl, hfiles', hlocked.of_same hentry (by rw [hlocks]) rfl⟩

namespace Held

variable {x : SessionStart} {m : SortedMap Bytes Bytes} {db : Database} {fs : FileSystem}
  {home : String}

theorem opened (h : OneStore fs home x.catalog x.record x.saved) : Held x x.saved
    (openedDatabase home x.catalog x.record x.saved x.settings x.lock) where
  catalog := rfl
  settings := rfl
  lock := rfl
  isOpen := rfl
  cells := rfl
  fits := fun _ he => h.keeps.fits ((SortedMap.mem_entries_iff _).1 he)
  store := ⟨_, rfl, ⟨rfl, rfl, VersionTree.upTo_ofRecords _, VersionTree.contents_ofRecords _⟩,
    (fun hdirty => nomatch hdirty), fun _ => rfl⟩

/-- A change of the one store that leaves its contents. -/
theorem modifyStore (h : Held x m db) (cell : Nat) {f : Store → Store}
    (hname : ∀ s, (f s).name = s.name) (hlen : ∀ s, (f s).prefixLength = s.prefixLength) (htree : ∀ s, (f s).tree = s.tree)
    (hdirty : ∀ s, (f s).dirty = s.dirty) : Held x m (db.modifyStore cell f) where
  catalog := h.catalog
  settings := h.settings
  lock := h.lock
  isOpen := h.isOpen
  cells := h.cells
  fits := h.fits
  store := by
    obtain ⟨st, hs, hhas, hwritable, hclean⟩ := h.store
    rw [ContentsLemmas.get?_modifyStore, hs]
    split
    · exact ⟨f st, rfl, ⟨(hname st).trans hhas.name, (hlen st).trans hhas.prefixLength,
        htree st ▸ hhas.upTo, htree st ▸ hhas.contents⟩, hdirty st ▸ hwritable, hdirty st ▸ hclean⟩
    · exact ⟨st, rfl, hhas, hwritable, hclean⟩

theorem closeStore (h : Held x m db) (handle : Nat) : Held x m (db.closeStore handle) := by
  unfold Database.closeStore
  split
  · next hd _ =>
    have hkept := h.modifyStore hd.cell (f := fun s => { s with isOpen := false }) (fun _ => rfl)
      (fun _ => rfl) (fun _ => rfl) fun _ => rfl
    exact { hkept with }
  · exact h

/-- Closing the database of a session puts the home at rest, with the records of the store. -/
theorem close (h : Held x m db) (hfiles : OneStore fs home x.catalog x.record x.saved)
    (hlocked : Site.Locked home ⟨db, fs⟩) (hbody : (DataFile.body m.entries).length < 256 ^ 8) :
    ∃ s', Storage.close.on ⟨db, fs⟩ = (.ok (), s') ∧ AtRest s'.fs home x.catalog x.record m := by
  have hmarked : Kept x m { db with closed := true } := { h.toKept with }
  have hlocked' : Site.Locked home ⟨{ db with closed := true }, fs⟩ := ⟨hlocked.file, hlocked.once⟩
  obtain ⟨s', hpersist, hfiles', ⟨data, hfile⟩, honce⟩ := hmarked.persist hfiles hlocked' hbody
  rw [on_close, h.isOpen]
  simp only [Bool.false_eq_true, ↓reduceIte, hpersist]
  exact ⟨_, rfl, hfiles'.released hfile honce⟩

end Held

/-! ## 4. Sessions -/

/-- A process that has one database open. -/
def Host.holding (fs : FileSystem) (g : GlobalSettings) (db : Database) : Host :=
  { fs, runtime := some g, databases := ⟨[some db]⟩ }

/-- An attempt of a process that has one database open is an attempt on that database. -/
def Serves {α : Type} (a : Attempt Host α) (b : Attempt Database α) : Prop :=
  ∀ fs g db, a.on (Host.holding fs g db) = ((b.on db).1, Host.holding fs g (b.on db).2)

namespace Serves

variable {α β : Type} {a : Attempt Host α} {b : Attempt Database α}

theorem pure (x : α) : Serves (pure x) (pure x) := fun _ _ _ => rfl

theorem bind (h : Serves a b) {f : α → Attempt Host β} {f' : α → Attempt Database β}
    (hf : ∀ x, Serves (f x) (f' x)) : Serves (a >>= f) (b >>= f') := by
  intro fs g db
  rw [Attempt.on_bind, Attempt.on_bind, h fs g db]
  cases b.on db with
  | mk r db' =>
    cases r with
    | error e => rfl
    | ok x => exact hf x fs g db'

/-- A process goes on with a reference to what the database numbered. -/
theorem bind_map (h : Serves a b) {γ : Type} (ref : α → γ) {f : γ → Attempt Host β}
    {f' : α → Attempt Database β} (hf : ∀ x, Serves (f (ref x)) (f' x)) :
    Serves ((a >>= fun x => Pure.pure (ref x)) >>= f) (b >>= f') := by
  intro fs g db
  simp only [Attempt.on_bind, h fs g db]
  cases b.on db with
  | mk r db' =>
    cases r with
    | error e => rfl
    | ok x => exact hf x fs g db'

/-- A process goes on with what it asked of the database. -/
theorem ask (question : Database → α) {f : α → Attempt Host β} {f' : α → Attempt Database β}
    (hf : ∀ x, Serves (f x) (f' x)) :
    Serves (Host.ask 0 (fun db => Pure.pure (question db)) >>= f)
      (MonadState.get >>= fun db => f' (question db)) := fun fs g db => hf (question db) fs g db

theorem onDatabase (b : Attempt Database α) : Serves (Host.onDatabase 0 b) b := fun _ _ _ => rfl

/-- A call on a store without a transaction; no time has passed. -/
theorem onStore (handle : Nat) (call : Nat → Option Nat → Attempt Database α) :
    Serves (Host.onStore ⟨0, handle⟩ none call) (call 0 none) := fun _ _ _ => rfl

end Serves

/-- Calls on a store, between its opening and its closing. -/
def Database.inStore {α : Type} (name : String) (b : Nat → Attempt Database α) :
    Attempt Database α := do
  let handle ← openStore name []
  let x ← b handle
  modify (·.closeStore handle)
  pure x

/-- What a session answers, and the records that it leaves, when its calls on the store do that. -/
def sessionAnswer {α : Type} (r : StoreRecord) (params : List String) (name : String)
    (answer : OpenSettings → Except Fault (α × SortedMap Bytes Bytes)) :
    Except Fault (α × SortedMap Bytes Bytes) := do
  let settings ← OpenSettings.scheme.ofPairs params
  if name = r.name then answer settings else throw (Fault.noStore name)

/-- The records after an answer. A fault leaves them as they were. -/
def recordsAfter {α : Type} (m : SortedMap Bytes Bytes) :
    Except Fault (α × SortedMap Bytes Bytes) → SortedMap Bytes Bytes
  | .ok (_, m') => m'
  | .error _ => m

section Sessions

variable {α : Type} {fs : FileSystem} {home : String} {c : Catalog} {r : StoreRecord}
  {m : SortedMap Bytes Bytes} {params : List String} {g : GlobalSettings} {db : Database}
  {a : Attempt Host α} {b : Attempt Database α}

theorem layers_empty (name : String) : ({} : Config).layers name = [] := by
  unfold Config.layers
  split <;> rfl

theorem storeNamed_opened (settings : OpenSettings) (lock : Nat) (name : String) :
    (openedDatabase home c r m settings lock).storeNamed name =
      if name = r.name then .ok (0, Store.ofRecord r (.ofRecords m.entries))
      else .error (Fault.noStore name) := by
  simp only [Database.storeNamed, openedDatabase, attach, SortedMap.get?_insert, beq_iff_eq]
  by_cases hname : name = r.name
  · rw [if_pos hname, if_pos hname]
    rfl
  · rw [if_neg hname, if_neg hname]
    rfl

/-- A store that the catalog does not list cannot be opened. -/
theorem openStore_unknown (settings : OpenSettings) (lock : Nat) {name : String}
    (hname : name ≠ r.name) :
    (Database.openStore name []).on (openedDatabase home c r m settings lock) =
      (.error (Fault.noStore name), openedDatabase home c r m settings lock) := by
  have hopen : (openedDatabase home c r m settings lock).closed = false := rfl
  simp only [Database.openStore, Attempt.on_bind, Attempt.on_get, Attempt.on_check,
    ReadLemmas.checkOpen_eq hopen, storeNamed_opened, if_neg hname]

/-- The store that the catalog lists is opened without transactions. -/
theorem openStore_listed (settings : OpenSettings) (lock : Nat) (h : OneStore fs home c r m) :
    ∃ db, (Database.openStore r.name []).on (openedDatabase home c r m settings lock) =
        (.ok 0, db) ∧
      Held ⟨c, r, settings, lock, m⟩ m db ∧ db.handles.get? 0 = some ⟨0, {}⟩ := by
  have hopened : Held ⟨c, r, settings, lock, m⟩ m (openedDatabase home c r m settings lock) :=
    .opened (x := ⟨c, r, settings, lock, m⟩) h
  have hheld := hopened.modifyStore 0 (f := fun s => { s with isOpen := true }) (fun _ => rfl)
    (fun _ => rfl) (fun _ => rfl) fun _ => rfl
  have hlayers : StoreSettings.scheme.ofLayers
      ((openedDatabase home c r m settings lock).config.layers r.name) [] = .ok {} := by
    show StoreSettings.scheme.ofLayers (({} : Config).layers r.name) [] = .ok {}
    rw [layers_empty]
    rfl
  simp only [Database.openStore, Attempt.on_bind, Attempt.on_get, Attempt.on_check,
    ReadLemmas.checkOpen_eq hopened.isOpen, storeNamed_opened, ↓reduceIte, hlayers]
  exact ⟨_, rfl, { hheld with }, rfl⟩

/-- What the calls on a store answer and leave, when the store is opened before and closed after
them. -/
theorem on_inStore (h : OneStore fs home c r m) (settings : OpenSettings) (lock : Nat)
    (name : String) {b : Nat → Attempt Database α} {answer : Except Fault (α × SortedMap Bytes Bytes)}
    (hcalls : ∀ db, Held ⟨c, r, settings, lock, m⟩ m db → db.handles.get? 0 = some ⟨0, {}⟩ →
      ∃ db', (b 0).on db = (answer.map Prod.fst, db') ∧
        Held ⟨c, r, settings, lock, m⟩ (recordsAfter m answer) db') :
    let answer' := if name = r.name then answer else .error (Fault.noStore name)
    ∃ db', (Database.inStore name b).on (openedDatabase home c r m settings lock) =
        (answer'.map Prod.fst, db') ∧
      Held ⟨c, r, settings, lock, m⟩ (recordsAfter m answer') db' := by
  intro answer'
  rw [Database.inStore, Attempt.on_bind]
  by_cases hname : name = r.name
  · subst hname
    obtain ⟨db, hopen, hheld, hhandle⟩ := openStore_listed settings lock h
    obtain ⟨db', hon, hheld'⟩ := hcalls db hheld hhandle
    have hanswer : answer' = answer := if_pos rfl
    simp only [hopen, Attempt.on_bind, hon, hanswer]
    cases answer with
    | error f => exact ⟨db', rfl, hheld'⟩
    | ok v => exact ⟨_, rfl, hheld'.closeStore 0⟩
  · have hanswer : answer' = .error (Fault.noStore name) := if_neg hname
    rw [openStore_unknown settings lock hname, hanswer]
    exact ⟨_, rfl, .opened (x := ⟨c, r, settings, lock, m⟩) h⟩

/-- A process opens a database as its first. -/
theorem on_openDatabase (home : String) (params : List String) (fs : FileSystem)
    (g : GlobalSettings) :
    (Host.openDatabase home params).on { fs, runtime := some g } =
      match (Storage.openDatabase home params).on fs with
      | (.ok db, fs') => (.ok 0, Host.holding fs' g db)
      | (.error f, fs') => (.error f, { fs := fs', runtime := some g }) := by
  have hready : Host.checkInitialized { fs, runtime := some g } = .ok () := rfl
  simp only [Host.openDatabase, Host.onFiles, Attempt.on_bind, Attempt.on_get, Attempt.on_check,
    Attempt.on_within, hready]
  cases (Storage.openDatabase home params).on fs with
  | mk o fs' => cases o <;> rfl

/-- The calls of a session are calls on the database. -/
theorem serves_inStore {a : StoreRef → Attempt Host α} {b : Nat → Attempt Database α}
    (h : ∀ handle, Serves (a ⟨0, handle⟩) (b handle)) (name : String) :
    Serves (do
      let s ← Host.openStore 0 name []
      let x ← a s
      Host.closeStore s
      pure x) (Database.inStore name b) := by
  have hopen := Serves.onDatabase (Database.openStore name [])
  exact hopen.bind_map (fun handle => (⟨0, handle⟩ : StoreRef)) fun handle =>
    (h handle).bind fun x => (Serves.onDatabase _).bind fun _ => .pure x

/-- A database is closed after its session, whether or not the session ended well. -/
theorem on_closing (h : Serves a b) (fs : FileSystem) (g : GlobalSettings) (db : Database) :
    (CommandLine.closing 0 a).on (Host.holding fs g db) =
      let o := b.on db
      let closed := Storage.close.on ⟨o.2, fs⟩
      (o.1.bind fun x => closed.1.map fun _ => x, Host.holding closed.2.fs g closed.2.db) := by
  simp only [CommandLine.closing, Attempt.on_ofStep, h fs g db]
  cases b.on db with
  | mk r db' =>
    cases r with
    | error f => rfl
    | ok x => rfl

/-- A session on the store of a home at rest answers what its calls on the store answer, and leaves
the home at rest with the records that they leave. -/
theorem AtRest.withStore (h : AtRest fs home c r m) {a : StoreRef → Attempt Host α}
    {b : Nat → Attempt Database α} (hserves : ∀ handle, Serves (a ⟨0, handle⟩) (b handle))
    {answer : OpenSettings → Except Fault (α × SortedMap Bytes Bytes)}
    (hcalls : ∀ settings lock db, Held ⟨c, r, settings, lock, m⟩ m db →
      db.handles.get? 0 = some ⟨0, {}⟩ →
      ∃ db', (b 0).on db = ((answer settings).map Prod.fst, db') ∧
        Held ⟨c, r, settings, lock, m⟩ (recordsAfter m (answer settings)) db')
    (name : String)
    (hbody : (DataFile.body
      (recordsAfter m (sessionAnswer r params name answer)).entries).length < 256 ^ 8) :
    ∃ host, (CommandLine.withStore home params name a).on { fs, runtime := some g } =
        ((sessionAnswer r params name answer).map Prod.fst, host) ∧
      AtRest host.fs home c r (recordsAfter m (sessionAnswer r params name answer)) := by
  rw [CommandLine.withStore, CommandLine.withDatabase, Attempt.on_bind]
  cases hsettings : OpenSettings.scheme.ofPairs params with
  | error f =>
    have hanswer : sessionAnswer r params name answer = .error f := by
      rw [sessionAnswer, hsettings]
      rfl
    rw [hanswer, on_openDatabase, h.openDatabase_refused hsettings]
    exact ⟨_, rfl, h⟩
  | ok settings =>
    have hanswer : sessionAnswer r params name answer =
        if name = r.name then answer settings else .error (Fault.noStore name) := by
      rw [sessionAnswer, hsettings]
      rfl
    obtain ⟨lock, fs', hopen, hfiles, hlocked⟩ := h.openDatabase hsettings
    obtain ⟨db, hon, hheld⟩ := on_inStore hfiles settings lock name (hcalls settings lock)
    rw [hanswer] at hbody ⊢
    have hlocked' : Site.Locked home ⟨db, fs'⟩ := hlocked.of_same rfl rfl hheld.lock
    obtain ⟨s', hclose, hrest⟩ := hheld.close hfiles hlocked' hbody
    rw [on_openDatabase, hopen]
    simp only [on_closing (serves_inStore hserves name), hon, hclose]
    refine ⟨_, Prod.ext ?_ rfl, hrest⟩
    cases (if name = r.name then answer settings else .error (Fault.noStore name)) <;> rfl

end Sessions

end SnapshotKv
