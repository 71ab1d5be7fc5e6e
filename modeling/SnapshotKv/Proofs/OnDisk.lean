import Mathlib.Data.List.Nodup
import SnapshotKv.Proofs.Homes
import SnapshotKv.Proofs.Retention
import SnapshotKv.Proofs.Saving

/-!
# What is on disk while a database is open

While a writable database is open, its home houses a database with the same catalog, and the data file
of every store that is clean has the committed contents of the store. What follows is one lemma for
each kind of call: those that do not write files, the making and the dropping of a store, and the
saving of one store, which ends well or not.

Results:
1. `OnDisk`: what is on disk, and `Database.Savable`: what can be saved.
2. `OnDisk.files`, `OnDisk.retained`: changes by others, and calls that do not write files.
3. `OnDisk.created`, `OnDisk.removed`: stores that were made or dropped.
4. `OnDisk.saved`, and so `OnDisk.sync` and `OnDisk.close`: stores that were saved.
-/

namespace SnapshotKv

open Storage FileSystem

/-! ## 1. Open databases and their files -/

/-- The catalog lists the stores that can be found. -/
structure Database.Listed (db : Database) : Prop where
  stores : ∀ name cell, db.stores.get? name = some cell → ∃ st r, db.cells.get? cell = some st ∧
    r ∈ db.catalog.stores ∧ r.name = name ∧ st.name = name ∧ st.prefixLength = r.prefixLength ∧
      st.id = r.id
  catalog : ∀ r ∈ db.catalog.stores, ∃ cell, db.stores.get? r.name = some cell

/-- The lock file of a home is the one whose lock the database holds. -/
structure Site.Locked (home : String) (s : Site) : Prop where
  file : ∃ data, s.fs.entryAt (lockFile home) = some (.file s.db.lock data)
  once : s.fs.locked.count s.db.lock = 1

/-- The home of an open database houses it, and every store that is clean has on disk what was
committed to it. -/
structure OnDisk (home : String) (s : Site) : Prop where
  place : s.db.home = home
  writable : s.db.settings.readOnly = false
  listed : s.db.Listed
  houses : ∃ records, Houses s.fs home s.db.catalog records
  clean : ∀ name cell st, s.db.stores.get? name = some cell → s.db.cells.get? cell = some st →
    st.dirty = false →
      Keeps (s.fs.entryAt (s.db.catalog.dataFile name)) st.prefixLength
        (st.tree.contents s.db.published)
  locked : s.db.closed = false → s.Locked home

/-- The numbers and lengths that are written to files have 64 bits, as on any machine. -/
structure Database.Bounded (db : Database) : Prop where
  nextId : db.catalog.nextId + 1 < Unsigned.limit
  lengths : ∀ st ∈ db.attached, (DataFile.body (st.tree.liveRecords db.published)).length < 256 ^ 8

instance (db : Database) : Decidable db.Bounded :=
  decidable_of_iff (db.catalog.nextId + 1 < Unsigned.limit ∧
      ∀ st ∈ db.attached, (DataFile.body (st.tree.liveRecords db.published)).length < 256 ^ 8)
    ⟨fun h => ⟨h.1, h.2⟩, fun h => ⟨h.nextId, h.lengths⟩⟩

/-- What would be saved of the stores that can be found fits the format of data files. -/
def Database.Savable (db : Database) : Prop :=
  ∀ st ∈ db.attached, (∀ r ∈ st.tree.liveRecords db.published, DataFile.Fits r) ∧
    (DataFile.body (st.tree.liveRecords db.published)).length < 256 ^ 8

namespace OnDiskLemmas

theorem mem_attached {db : Database} {name : String} {cell : Nat} {st : Store}
    (hname : db.stores.get? name = some cell) (hs : db.cells.get? cell = some st) :
    st ∈ db.attached :=
  List.mem_filterMap.2 ⟨cell, (SortedMap.mem_values_iff _).2 ⟨name, hname⟩, hs⟩

/-- A file that was to be replaced, and its temporary file, are all that can have changed. -/
theorem touches_of_replaceFile {name : String} (hname : Path.IsName name) {fs fs' : FileSystem}
    {base : String} {data : Bytes} {r : Except Fault Unit}
    (h : (replaceFile (Path.join base name) data).on fs = (r, fs')) :
    Touches [name, temporary name] fs fs' := by
  obtain ⟨-, herror, hok⟩ := replaceFile_spec hname fs base data h
  cases r with
  | error f => exact (herror f rfl).2.mono (List.subset_cons_self _ _)
  | ok _ => exact (hok rfl).touches

theorem dataFile_untouched {name name' : String} (h : name' ≠ name) :
    dataFileName name' ∉ [dataFileName name, temporary (dataFileName name)] := by
  simp only [List.mem_cons, List.not_mem_nil, or_false, not_or]
  exact ⟨fun heq => h (dataFileName_injective heq),
    ne_of_getLast (getLast_dataFileName _) (getLast_temporary _) (by decide)⟩

theorem untouched_by_dataFile (name : String) {file : String} {c : Char}
    (hlast : file.toList.getLast? = some c) (hc : c ≠ 's' ∧ c ≠ 'p') :
    file ∉ [dataFileName name, temporary (dataFileName name)] := by
  simp only [List.mem_cons, List.not_mem_nil, or_false, not_or]
  exact ⟨ne_of_getLast hlast (getLast_dataFileName _) hc.1,
    ne_of_getLast hlast (getLast_temporary _) hc.2⟩

theorem untouched_by_catalog {file : String} {c : Char}
    (hlast : file.toList.getLast? = some c) (hc : c ≠ 'a' ∧ c ≠ 'p') :
    file ∉ ["kvdb.meta", temporary "kvdb.meta"] := by
  simp only [List.mem_cons, List.not_mem_nil, or_false, not_or]
  exact ⟨ne_of_getLast hlast getLast_catalog hc.1, ne_of_getLast hlast (getLast_temporary _) hc.2⟩

/-- The stores that can be found after one was added. -/
theorem found_withStore {db : Database} {name name' : String} {len cell : Nat}
    (h : (db.withStore name len).stores.get? name' = some cell) :
    name' = name ∧ cell = db.cells.nextId ∨ name' ≠ name ∧ db.stores.get? name' = some cell := by
  simp only [Database.withStore, Storage.attach, SortedMap.get?_insert, beq_iff_eq] at h
  split at h
  · next heq => exact .inl ⟨heq, (Option.some.inj h).symm⟩
  · next hne => exact .inr ⟨hne, h⟩

theorem cell_withStore (db : Database) (name : String) (len : Nat) :
    (db.withStore name len).cells.get? db.cells.nextId =
      some (Store.ofRecord { name, id := db.catalog.nextId, prefixLength := len } {}) :=
  Pool.get?_add_nextId _ _

/-- The stores that can be found after one was dropped. -/
theorem found_erase {stores : SortedMap String Nat} {name name' : String} {cell : Nat}
    (h : (stores.erase name).get? name' = some cell) :
    name' ≠ name ∧ stores.get? name' = some cell := by
  rw [SortedMap.get?_erase] at h
  split at h
  · cases h
  · next hne => exact ⟨fun heq => hne (beq_iff_eq.2 heq), h⟩

end OnDiskLemmas

open OnDiskLemmas

/-- The lock file and the lock stay when the files that change are others. -/
theorem Site.Locked.of_same {home : String} {s s' : Site} (h : s.Locked home)
    (hfile : s'.fs.entryAt (lockFile home) = s.fs.entryAt (lockFile home))
    (honce : s'.fs.locked.count s.db.lock = s.fs.locked.count s.db.lock)
    (hlock : s'.db.lock = s.db.lock) : s'.Locked home where
  file := by
    rw [hfile, hlock]
    exact h.file
  once := by
    rw [hlock, honce]
    exact h.once

/-- Saving a store changes its mark alone, so the same would be saved next. -/
theorem Saved.savable {s : Site} {cell : Nat} {o : Except Fault Unit × Site} (h : Saved s cell o)
    (hsavable : s.db.Savable) : o.2.db.Savable := by
  cases h with
  | skipped hclean => exact hsavable
  | unwritten hs hdirty hfile => exact hsavable
  | written hs hdirty hfile =>
    intro st' hst'
    obtain ⟨i, hi, hs'⟩ := List.mem_filterMap.1 hst'
    obtain ⟨name, hname⟩ := (SortedMap.mem_values_iff _).1 hi
    rw [ContentsLemmas.get?_modifyStore] at hs'
    split at hs'
    · obtain ⟨st'', hs'', rfl⟩ := Option.map_eq_some_iff.1 hs'
      exact hsavable st'' (mem_attached hname hs'')
    · exact hsavable st' (mem_attached hname hs')

theorem JustOpened.listed {home : String} {c : Catalog} {records : String → SortedMap Bytes Bytes}
    {db : Database} (h : JustOpened home c records db) : db.Listed where
  stores := fun name cell hname => by
    obtain ⟨r, hr, rfl⟩ := (h.stores name cell).1 hname
    exact ⟨_, r, (h.cells cell _).2 ⟨r, hr, rfl⟩, h.catalog.symm ▸ List.mem_of_getElem? hr, rfl, rfl,
      rfl, rfl⟩
  catalog := fun r hr => by
    rw [h.catalog] at hr
    obtain ⟨cell, hcell⟩ := List.mem_iff_getElem?.1 hr
    exact ⟨cell, (h.stores r.name cell).2 ⟨r, hcell, rfl⟩⟩

namespace Database.Listed

variable {db : Database}

theorem found_iff (h : db.Listed) {name : String} :
    (∃ cell, db.stores.get? name = some cell) ↔ name ∈ db.catalog.names := by
  constructor
  · rintro ⟨cell, hcell⟩
    obtain ⟨-, r, -, hr, rfl, -⟩ := h.stores name cell hcell
    exact List.mem_map.2 ⟨r, hr, rfl⟩
  · intro hname
    obtain ⟨r, hr, rfl⟩ := List.mem_map.1 hname
    exact h.catalog r hr

/-- Stores of the same name in two databases with the same catalog have the same shape. -/
theorem prefixLength_eq {db' : Database} (h : db.Listed) (h' : db'.Listed)
    (hcatalog : db'.catalog = db.catalog) (hdistinct : db.catalog.names.Nodup) {name : String}
    {cell cell' : Nat} {st st' : Store} (hname : db.stores.get? name = some cell)
    (hs : db.cells.get? cell = some st) (hname' : db'.stores.get? name = some cell')
    (hs' : db'.cells.get? cell' = some st') : st'.prefixLength = st.prefixLength := by
  obtain ⟨st₀, r, hs₀, hr, rfl, -, hlen, -⟩ := h.stores name cell hname
  obtain ⟨st₁, r', hs₁, hr', hrname, -, hlen', -⟩ := h'.stores r.name cell' hname'
  obtain rfl := Option.some.inj (hs.symm.trans hs₀)
  obtain rfl := Option.some.inj (hs'.symm.trans hs₁)
  rw [hcatalog] at hr'
  obtain rfl := List.inj_on_of_nodup_map hdistinct hr hr' hrname.symm
  exact hlen'.trans hlen.symm

theorem withStore (h : db.Listed) (name : String) (len : Nat) : (db.withStore name len).Listed where
  stores := fun name' cell hcell => by
    rcases found_withStore hcell with ⟨rfl, rfl⟩ | ⟨-, hcell⟩
    · exact ⟨_, _, cell_withStore db name' len, List.mem_append_right _ (List.mem_singleton_self _),
        rfl, rfl, rfl, rfl⟩
    · obtain ⟨st, r, hs, hr, hrest⟩ := h.stores name' cell hcell
      exact ⟨st, r, Pool.get?_add_of_some _ hs, List.mem_append_left _ hr, hrest⟩
  catalog := fun r hr => by
    simp only [Database.withStore, Storage.attach, SortedMap.get?_insert, beq_iff_eq]
    split
    · exact ⟨_, rfl⟩
    · next hne =>
      rcases List.mem_append.1 hr with hr | hr
      · exact h.catalog r hr
      · rw [List.mem_singleton.1 hr] at hne
        exact absurd rfl hne

theorem without (h : db.Listed) (name : String) : Database.Listed
    { db with catalog := db.catalog.without name, stores := db.stores.erase name } where
  stores := fun name' cell hcell => by
    obtain ⟨hne, hcell⟩ := found_erase hcell
    obtain ⟨st, r, hs, hr, hrname, hrest⟩ := h.stores name' cell hcell
    exact ⟨st, r, hs, List.mem_filter.2 ⟨hr, bne_iff_ne.2 (hrname ▸ hne)⟩, hrname, hrest⟩
  catalog := fun r hr => by
    obtain ⟨hr, hne⟩ := List.mem_filter.1 hr
    obtain ⟨cell, hcell⟩ := h.catalog r hr
    refine ⟨cell, ?_⟩
    rw [SortedMap.get?_erase, if_neg fun heq => bne_iff_ne.1 hne (eq_of_beq heq)]
    exact hcell

theorem modify (h : db.Listed) (cell : Nat) {f : Store → Store} (hname : ∀ s, (f s).name = s.name)
    (hlen : ∀ s, (f s).prefixLength = s.prefixLength) (hid : ∀ s, (f s).id = s.id) :
    (db.modifyStore cell f).Listed where
  stores := fun name i hi => by
    obtain ⟨st, r, hs, hr, hrname, hst, hstlen, hstid⟩ := h.stores name i hi
    rw [ContentsLemmas.get?_modifyStore, hs]
    split
    · exact ⟨f st, r, rfl, hr, hrname, (hname st).trans hst, (hlen st).trans hstlen,
        (hid st).trans hstid⟩
    · exact ⟨st, r, rfl, hr, hrname, hst, hstlen, hstid⟩
  catalog := h.catalog

theorem retained {db' : Database} (h : db.Listed) (hretains : Retains db db')
    (hfound : ∀ name cell, db'.stores.get? name = some cell → ∃ st, db'.cells.get? cell = some st) :
    db'.Listed where
  stores := fun name cell hname => by
    obtain ⟨st', hs'⟩ := hfound name cell hname
    obtain ⟨st, hs, hkept⟩ := hretains.cells cell st' hs'
    rw [hretains.stores] at hname
    obtain ⟨st₀, r, hs₀, hr, hrname, hst, hlen, hid⟩ := h.stores name cell hname
    obtain rfl := Option.some.inj (hs.symm.trans hs₀)
    rw [hretains.catalog]
    exact ⟨st', r, hs', hr, hrname, hkept.name.trans hst, hkept.prefixLength.trans hlen,
      hkept.id.trans hid⟩
  catalog := fun r hr => by
    rw [hretains.catalog] at hr
    rw [hretains.stores]
    exact h.catalog r hr

end Database.Listed

/-- Of the files of a database, only the catalog and the data file of one store can have changed. -/
structure ChangedAt (home : String) (c : Catalog) (name : String) (fs fs' : FileSystem) : Prop where
  stores : ∀ r ∈ c.stores, r.name ≠ name →
    fs'.entryAt (c.dataFile r.name) = fs.entryAt (c.dataFile r.name)
  lockFile : fs'.entryAt (Storage.lockFile home) = fs.entryAt (Storage.lockFile home)
  locked : fs'.locked = fs.locked

namespace ChangedAt

variable {home name : String} {c : Catalog} {fs fs' fs'' : FileSystem}

theorem trans (h : ChangedAt home c name fs fs') (h' : ChangedAt home c name fs' fs'') :
    ChangedAt home c name fs fs'' where
  stores := fun r hr hne => (h'.stores r hr hne).trans (h.stores r hr hne)
  lockFile := h'.lockFile.trans h.lockFile
  locked := h'.locked.trans h.locked

theorem of_dataFile (hc : c.Sound)
    (h : Touches [dataFileName name, temporary (dataFileName name)] fs fs') :
    ChangedAt home c name fs fs' where
  stores := fun r hr hne =>
    h.entryAt (isName_dataFileName (hc.named r hr)) (dataFile_untouched hne)
  lockFile := h.entryAt isName_lock (untouched_by_dataFile name getLast_lock (by decide))
  locked := h.locked

theorem of_catalog (hc : c.Sound) (h : Touches ["kvdb.meta", temporary "kvdb.meta"] fs fs') :
    ChangedAt home c name fs fs' where
  stores := fun r hr _ => h.entryAt (isName_dataFileName (hc.named r hr))
    (untouched_by_catalog (getLast_dataFileName _) (by decide))
  lockFile := h.entryAt isName_lock (untouched_by_catalog getLast_lock (by decide))
  locked := h.locked

end ChangedAt

namespace Houses

variable {home : String} {fs fs' : FileSystem} {c : Catalog} {records : String → SortedMap Bytes Bytes}
  {m : SortedMap Bytes Bytes}

/-- The data file of one store has new records. -/
theorem written (h : Houses fs home c records) {r : StoreRecord} (hr : r ∈ c.stores)
    (hchanged : ChangedAt home c r.name fs fs')
    (hcatalog : fs'.entryAt (catalogFile home) = fs.entryAt (catalogFile home))
    (hkeeps : Keeps (fs'.entryAt (c.dataFile r.name)) r.prefixLength m) :
    Houses fs' home c fun name => if name = r.name then m else records name where
  sound := h.sound
  nextId := h.nextId
  catalog := h.catalog.congr hcatalog
  stores := fun r' hr' => by
    by_cases heq : r'.name = r.name
    · obtain rfl := List.inj_on_of_nodup_map h.sound.distinct hr' hr heq
      simp only [↓reduceIte]
      exact hkeeps
    · simp only [if_neg heq]
      exact hchanged.stores r' hr' heq ▸ h.stores r' hr'

/-- There is a further store, listed by the catalog. -/
theorem withRecord (h : Houses fs home c records) {name : String} {len : Nat}
    (hname : Limits.checkName name = .ok ()) (hnew : c.find? name = none)
    (hlen : len ≤ Limits.prefixLength) (hnext : c.nextId + 1 < Unsigned.limit)
    (hchanged : ChangedAt home c name fs fs')
    (hcatalog : fs'.Reads (catalogFile home) (c.withRecord name len).text)
    (hkeeps : Keeps (fs'.entryAt (c.dataFile name)) len m) :
    Houses fs' home (c.withRecord name len) fun name' => if name' = name then m else records name' where
  sound := h.sound.withRecord hname hnew hlen
  nextId := hnext
  catalog := hcatalog
  stores := fun r hr => by
    rcases List.mem_append.1 hr with hr | hr
    · have hne : r.name ≠ name := fun heq => RegistryLemmas.find?_ne_none_iff.2 ⟨r, hr, heq⟩ hnew
      simp only [if_neg hne]
      exact hchanged.stores r hr hne ▸ h.stores r hr
    · rw [List.mem_singleton.1 hr]
      simp only [↓reduceIte]
      exact hkeeps

end Houses

/-! ## 2. Changes by others, and calls that do not write files -/

namespace OnDisk

variable {home : String} {s s' : Site}

theorem files (h : OnDisk home s) {fs : FileSystem}
    (hsame : Undisturbed home s.db.catalog s.fs fs)
    (hentry : fs.entryAt (lockFile home) = s.fs.entryAt (lockFile home))
    (hlocked : fs.locked.count s.db.lock = s.fs.locked.count s.db.lock) :
    OnDisk home { s with fs } where
  place := h.place
  writable := h.writable
  listed := h.listed
  houses := by
    obtain ⟨records, hhouses⟩ := h.houses
    exact ⟨records, hhouses.undisturbed hsame⟩
  clean := fun name cell st hname hs hclean => by
    obtain ⟨-, r, -, hr, rfl, -⟩ := h.listed.stores name cell hname
    exact hsame.stores r hr ▸ h.clean r.name cell st hname hs hclean
  locked := fun hopen => (h.locked hopen).of_same hentry hlocked rfl

/-- A call that does not write files leaves clean stores with what they have on disk. -/
theorem retained (h : OnDisk home s) (hretains : Retains s.db s'.db) (hfs : s'.fs = s.fs)
    (hfound : ∀ name cell, s'.db.stores.get? name = some cell →
      ∃ st, s'.db.cells.get? cell = some st)
    (hupTo : ∀ i st, s.db.cells.get? i = some st → st.tree.UpTo s.db.published) :
    OnDisk home s' where
  place := hretains.home.trans h.place
  writable := hretains.settings ▸ h.writable
  listed := h.listed.retained hretains hfound
  houses := by
    rw [hfs, hretains.catalog]
    exact h.houses
  clean := fun name cell st' hname hs' hclean => by
    obtain ⟨st, hs, hkept⟩ := hretains.cells cell st' hs'
    rw [hretains.stores] at hname
    rw [hfs, hretains.catalog, hkept.prefixLength,
      (hkept.contents hclean (hupTo cell st hs)).2]
    exact h.clean name cell st hname hs (hkept.clean hclean)
  locked := fun hopen => (h.locked (hretains.closed ▸ hopen)).of_same (by rw [hfs]) (by rw [hfs])
    hretains.lock

/-! ## 3. Stores that were made or dropped -/

/-- When a store is made, no other store is touched. -/
theorem changedAt_made (h : OnDisk home s) {name : String} {len : Nat} {fs fs' : FileSystem}
    {c : Catalog} (hname : Limits.checkName name = .ok ())
    (hfile : (saveDataFile (s.db.catalog.dataFile name) len []).on s.fs = (.ok (), fs))
    (hsave : (saveCatalog s.db.home c).on fs = (.ok (), fs')) :
    ChangedAt home s.db.catalog name s.fs fs' := by
  obtain ⟨records, hhouses⟩ := h.houses
  exact (ChangedAt.of_dataFile hhouses.sound
    (touches_of_replaceFile (isName_dataFileName hname) hfile)).trans
      (.of_catalog hhouses.sound (touches_of_replaceFile isName_catalog hsave))

/-- A store was made: its data file, without records, and then the catalog that lists it. -/
theorem withStore (h : OnDisk home s) {name : String} {len : Nat} {fs fs' : FileSystem}
    (hname : Limits.checkName name = .ok ()) (hnew : s.db.catalog.find? name = none)
    (hlen : len ≤ Limits.prefixLength) (hnext : s.db.catalog.nextId + 1 < Unsigned.limit)
    (hfile : (saveDataFile (s.db.catalog.dataFile name) len []).on s.fs = (.ok (), fs))
    (hsave : (saveCatalog s.db.home (s.db.catalog.withRecord name len)).on fs = (.ok (), fs')) :
    OnDisk home ⟨s.db.withStore name len, fs'⟩ := by
  obtain ⟨records, hhouses⟩ := h.houses
  have hfileName := isName_dataFileName hname
  have hcatalog := touches_of_replaceFile isName_catalog hsave
  have hchanged := h.changedAt_made hname hfile hsave
  have hmade : Keeps (fs'.entryAt (s.db.catalog.dataFile name)) len .empty := by
    have hkeeps : Keeps (fs.entryAt (s.db.catalog.dataFile name)) len .empty :=
      keeps_of_saveDataFile (m := .empty) hfileName hfile
        (Nat.lt_of_le_of_lt hlen (by decide)) (fun r hr => nomatch hr) (by decide)
    exact hcatalog.entryAt hfileName
      (untouched_by_catalog (getLast_dataFileName _) (by decide)) ▸ hkeeps
  constructor
  · exact h.place
  · exact h.writable
  · exact h.listed.withStore name len
  · exact ⟨_, hhouses.withRecord hname hnew hlen hnext hchanged
      (h.place ▸ reads_of_saveCatalog hsave) hmade⟩
  · intro name' cell st hcell hs hclean
    rcases found_withStore hcell with ⟨rfl, rfl⟩ | ⟨hne, hcell⟩
    · obtain rfl := Option.some.inj ((cell_withStore s.db name' len).symm.trans hs)
      exact hmade
    · obtain ⟨st', r, hs', hr, rfl, -⟩ := h.listed.stores name' cell hcell
      obtain rfl := Option.some.inj ((Pool.get?_add_of_some _ hs').symm.trans hs)
      exact hchanged.stores r hr hne ▸ h.clean r.name cell st' hcell hs' hclean
  · exact fun hopen => (h.locked hopen).of_same hchanged.lockFile (by rw [hchanged.locked]) rfl

/-- The making of a store ended, but not at a file. -/
theorem created (h : OnDisk home s) {name : String} {params : List String}
    {o : Except Fault Unit × Site} (hends : Creation s name params o) (hbounded : s.db.Bounded)
    (hfiles : ∀ f, o.1 = .error f → Cause.systemCall ∉ f.causes) : OnDisk home o.2 := by
  cases hends with
  | refused hcheck => exact h
  | unwritten hcheck hfile =>
    have hname := (Database.checkCreate_eq_ok_iff.1 hcheck).sound
    have hfault := (replaceFile_spec (isName_dataFileName hname) _ _ _ hfile).2.1 _ rfl
    exact absurd hfault.1 (hfiles _ rfl)
  | unsaved hcheck hfile hsave =>
    have hfault := (replaceFile_spec isName_catalog _ _ _ hsave).2.1 _ rfl
    exact absurd hfault.1 (hfiles _ rfl)
  | made hcheck hfile hsave =>
    obtain ⟨-, -, hname, hshape, hnew, -⟩ := Database.checkCreate_eq_ok_iff.1 hcheck
    exact h.withStore hname hnew (prefixLength_le_of_ofPairs hshape) hbounded.nextId hfile hsave

/-- A data file of a store that can be found has a proper name. -/
theorem isName_of_found (h : OnDisk home s) {name : String} {cell : Nat}
    (hfound : s.db.stores.get? name = some cell) : Path.IsName (dataFileName name) := by
  obtain ⟨records, hhouses⟩ := h.houses
  obtain ⟨-, r, -, hr, rfl, -⟩ := h.listed.stores name cell hfound
  exact isName_dataFileName (hhouses.sound.named r hr)

theorem touches_of_remove (h : OnDisk home s) {name : String} {cell : Nat} {fs fs' : FileSystem}
    (hfound : s.db.stores.get? name = some cell)
    (hfile : (removeIfExists (s.db.catalog.dataFile name)).on fs = (.ok (), fs')) :
    Touches [dataFileName name, temporary (dataFileName name)] fs fs' :=
  ((removeIfExists_spec (h.isName_of_found hfound) _ _ hfile).2 rfl).1.mono (by simp)

/-- When a store is dropped, no other store is touched. -/
theorem changedAt_dropped (h : OnDisk home s) {name : String} {cell : Nat} {fs fs' : FileSystem}
    {c : Catalog} (hfound : s.db.stores.get? name = some cell)
    (hsave : (saveCatalog s.db.home c).on s.fs = (.ok (), fs))
    (hfile : (removeIfExists (s.db.catalog.dataFile name)).on fs = (.ok (), fs')) :
    ChangedAt home s.db.catalog name s.fs fs' := by
  obtain ⟨records, hhouses⟩ := h.houses
  exact (ChangedAt.of_catalog hhouses.sound (touches_of_replaceFile isName_catalog hsave)).trans
    (.of_dataFile hhouses.sound (h.touches_of_remove hfound hfile))

/-- A store was dropped: the catalog lists it no more, and its data file is gone. -/
theorem withoutStore (h : OnDisk home s) {name : String} {cell : Nat} {fs fs' : FileSystem}
    (hfound : s.db.stores.get? name = some cell)
    (hsave : (saveCatalog s.db.home (s.db.catalog.without name)).on s.fs = (.ok (), fs))
    (hfile : (removeIfExists (s.db.catalog.dataFile name)).on fs = (.ok (), fs')) :
    OnDisk home ⟨{ s.db with
      catalog := s.db.catalog.without name, stores := s.db.stores.erase name }, fs'⟩ := by
  obtain ⟨records, hhouses⟩ := h.houses
  have hremoved := h.touches_of_remove hfound hfile
  have hchanged := h.changedAt_dropped hfound hsave hfile
  constructor
  · exact h.place
  · exact h.writable
  · exact h.listed.without name
  · refine ⟨records, hhouses.sound.without name, hhouses.nextId, ?_, fun r hr => ?_⟩
    · have hreads := h.place ▸ reads_of_saveCatalog hsave
      exact hreads.congr (hremoved.entryAt isName_catalog
        (untouched_by_dataFile name getLast_catalog (by decide)))
    · obtain ⟨hr, hne⟩ := List.mem_filter.1 hr
      exact hchanged.stores r hr (bne_iff_ne.1 hne) ▸ hhouses.stores r hr
  · intro name' cell' st hcell hs hclean
    obtain ⟨hne, hcell⟩ := found_erase hcell
    obtain ⟨-, r, -, hr, rfl, -⟩ := h.listed.stores name' cell' hcell
    exact hchanged.stores r hr hne ▸ h.clean r.name cell' st hcell hs hclean
  · exact fun hopen => (h.locked hopen).of_same hchanged.lockFile (by rw [hchanged.locked]) rfl

/-- The dropping of a store ended, but not at a file. -/
theorem removed (h : OnDisk home s) {name : String} {o : Except Fault Unit × Site}
    (hends : Removal s name o) (hfiles : ∀ f, o.1 = .error f → Cause.systemCall ∉ f.causes) :
    OnDisk home o.2 := by
  cases hends with
  | refused hcheck => exact h
  | unsaved hcheck hsave =>
    have hfault := (replaceFile_spec isName_catalog _ _ _ hsave).2.1 _ rfl
    exact absurd hfault.1 (hfiles _ rfl)
  | unremoved hcheck hsave hfile =>
    obtain ⟨cell, st, hcan⟩ := Database.canDrop_of_checkDrop hcheck
    have hfault := (removeIfExists_spec (h.isName_of_found hcan.found) _ _ hfile).1 _ rfl
    exact absurd hfault.1 (hfiles _ rfl)
  | dropped hcheck hsave hfile =>
    obtain ⟨cell, st, hcan⟩ := Database.canDrop_of_checkDrop hcheck
    exact h.withoutStore hcan.found hsave hfile

/-! ## 4. Stores that were saved -/

/-- The data file of a store was written. -/
theorem written (h : OnDisk home s) {cell : Nat} {st : Store} {fs : FileSystem}
    (hcell : cell ∈ s.db.stores.values) (hs : s.db.cells.get? cell = some st)
    (hsavable : s.db.Savable)
    (hfile : (saveDataFile (s.db.catalog.dataFile st.name) st.prefixLength
      (st.tree.liveRecords s.db.published)).on s.fs = (.ok (), fs)) :
    OnDisk home ⟨s.db.modifyStore cell Store.clean, fs⟩ := by
  obtain ⟨records, hhouses⟩ := h.houses
  obtain ⟨name, hname⟩ := (SortedMap.mem_values_iff _).1 hcell
  obtain ⟨st₀, r, hs₀, hr, rfl, hstname, hlen, -⟩ := h.listed.stores name cell hname
  obtain rfl := Option.some.inj (hs.symm.trans hs₀)
  rw [hstname] at hfile
  have hfileName := h.isName_of_found hname
  have hchanged : ChangedAt home s.db.catalog r.name s.fs fs :=
    .of_dataFile hhouses.sound (touches_of_replaceFile hfileName hfile)
  have hsaved : Keeps (fs.entryAt (s.db.catalog.dataFile r.name)) st.prefixLength
      (st.tree.contents s.db.published) := by
    obtain ⟨hfits, hbody⟩ := hsavable st (mem_attached hname hs)
    refine keeps_of_saveDataFile (m := st.tree.contents s.db.published) hfileName hfile ?_ hfits hbody
    exact hlen ▸ Nat.lt_of_le_of_lt (hhouses.sound.short r hr) (by decide)
  constructor
  · exact h.place
  · exact h.writable
  · exact h.listed.modify cell (fun _ => rfl) (fun _ => rfl) fun _ => rfl
  · have hcatalog : fs.entryAt (catalogFile home) = s.fs.entryAt (catalogFile home) :=
      (touches_of_replaceFile hfileName hfile).entryAt isName_catalog
        (untouched_by_dataFile r.name getLast_catalog (by decide))
    exact ⟨_, hhouses.written hr hchanged hcatalog (hlen ▸ hsaved)⟩
  · intro name' cell' st' hname' hs' hclean
    rw [ContentsLemmas.get?_modifyStore] at hs'
    split at hs'
    · next heq =>
      obtain ⟨st'', hs'', rfl⟩ := Option.map_eq_some_iff.1 hs'
      subst heq
      obtain ⟨st₁, -, hs₁, -, -, hname₁, -⟩ := h.listed.stores name' cell hname'
      obtain rfl := Option.some.inj (hs.symm.trans hs'')
      obtain rfl := Option.some.inj (hs.symm.trans hs₁)
      obtain rfl := hstname.symm.trans hname₁
      exact hsaved
    · next hne =>
      have hother : name' ≠ r.name := by
        rintro rfl
        exact hne (Option.some.inj (hname.symm.trans hname'))
      obtain ⟨-, r', -, hr', rfl, -⟩ := h.listed.stores name' cell' hname'
      exact hchanged.stores r' hr' hother ▸ h.clean r'.name cell' st' hname' hs' hclean
  · exact fun hopen => (h.locked hopen).of_same hchanged.lockFile (by rw [hchanged.locked]) rfl

/-- A data file that could not be written is as it was, and so are the other files. -/
theorem unwritten (h : OnDisk home s) {cell : Nat} {st : Store} {f : Fault} {fs : FileSystem}
    (hcell : cell ∈ s.db.stores.values) (hs : s.db.cells.get? cell = some st)
    (hfile : (saveDataFile (s.db.catalog.dataFile st.name) st.prefixLength
      (st.tree.liveRecords s.db.published)).on s.fs = (.error f, fs)) :
    Undisturbed home s.db.catalog s.fs fs ∧
      fs.entryAt (lockFile home) = s.fs.entryAt (lockFile home) ∧ fs.locked = s.fs.locked := by
  obtain ⟨records, hhouses⟩ := h.houses
  obtain ⟨name, hname⟩ := (SortedMap.mem_values_iff _).1 hcell
  obtain ⟨st₀, -, hs₀, -, -, hstname, -⟩ := h.listed.stores name cell hname
  obtain rfl := Option.some.inj (hs.symm.trans hs₀)
  rw [hstname] at hfile
  have htouches := ((replaceFile_spec (h.isName_of_found hname) _ _ _ hfile).2.1 f rfl).2
  have hkept : ∀ {file : String} {c : Char}, file.toList.getLast? = some c → c ≠ 'p' →
      file ∉ [temporary (dataFileName name)] := fun hlast hne hmem =>
    ne_of_getLast hlast (getLast_temporary _) hne (List.mem_singleton.1 hmem)
  refine ⟨⟨?_, fun r hr => ?_⟩, ?_, htouches.locked⟩
  · exact htouches.entryAt isName_catalog (hkept getLast_catalog (by decide))
  · exact htouches.entryAt (isName_dataFileName (hhouses.sound.named r hr))
      (hkept (getLast_dataFileName _) (by decide))
  · exact htouches.entryAt isName_lock (hkept getLast_lock (by decide))

/-- Saving a store ended, well or not. -/
theorem saved (h : OnDisk home s) {cell : Nat} {o : Except Fault Unit × Site}
    (hcell : cell ∈ s.db.stores.values) (hends : Saved s cell o) (hsavable : s.db.Savable) :
    OnDisk home o.2 := by
  cases hends with
  | skipped hclean => exact h
  | written hs hdirty hfile => exact h.written hcell hs hsavable hfile
  | unwritten hs hdirty hfile =>
    obtain ⟨hsame, hentry, hlocked⟩ := h.unwritten hcell hs hfile
    exact h.files hsame hentry (by rw [hlocked])

/-- When a store is saved, well or not, no other store is touched. -/
theorem changedAt_saved (h : OnDisk home s) {cell : Nat} {o : Except Fault Unit × Site}
    (hcell : cell ∈ s.db.stores.values) (hends : Saved s cell o) :
    ∃ name, s.db.stores.get? name = some cell ∧
      ChangedAt home s.db.catalog name s.fs o.2.fs := by
  obtain ⟨records, hhouses⟩ := h.houses
  obtain ⟨name, hname⟩ := (SortedMap.mem_values_iff _).1 hcell
  obtain ⟨st₀, -, hs₀, -, -, hstname, -⟩ := h.listed.stores name cell hname
  refine ⟨name, hname, .of_dataFile hhouses.sound ?_⟩
  cases hends with
  | skipped hclean => exact .refl _ _
  | written hs hdirty hfile | unwritten hs hdirty hfile =>
    obtain rfl := Option.some.inj (hs.symm.trans hs₀)
    rw [hstname] at hfile
    exact touches_of_replaceFile (h.isName_of_found hname) hfile

/-- Saving a store leaves the lock where it is. -/
theorem locked_of_saved (h : OnDisk home s) {cell : Nat} {o : Except Fault Unit × Site}
    (hcell : cell ∈ s.db.stores.values) (hends : Saved s cell o) (hlocked : s.Locked home) :
    o.2.Locked home := by
  obtain ⟨name, -, hchanged⟩ := h.changedAt_saved hcell hends
  obtain ⟨cells, heq⟩ := hends.same
  exact hlocked.of_same hchanged.lockFile (by rw [hchanged.locked]) (by rw [heq])

/-- When a store is saved, well or not, the data file of any store is as it was, or it has what was
committed to the store. -/
theorem file_saved (h : OnDisk home s) {cell : Nat} {o : Except Fault Unit × Site}
    (hcell : cell ∈ s.db.stores.values) (hends : Saved s cell o) (hsavable : s.db.Savable)
    {name : String} {i : Nat} {st : Store} (hname : s.db.stores.get? name = some i)
    (hs : s.db.cells.get? i = some st) :
    o.2.fs.entryAt (s.db.catalog.dataFile name) = s.fs.entryAt (s.db.catalog.dataFile name) ∨
      Keeps (o.2.fs.entryAt (s.db.catalog.dataFile name)) st.prefixLength
        (st.tree.contents s.db.published) := by
  obtain ⟨changed, hfound, hchanged⟩ := h.changedAt_saved hcell hends
  obtain ⟨-, r, -, hr, rfl, -⟩ := h.listed.stores name i hname
  by_cases heq : r.name = changed
  · subst heq
    obtain rfl := Option.some.inj (hname.symm.trans hfound)
    cases hends with
    | skipped hclean => exact .inl rfl
    | unwritten hs' hdirty hfile => exact .inl ((h.unwritten hcell hs' hfile).1.stores r hr)
    | written hs' hdirty hfile =>
      obtain rfl := Option.some.inj (hs.symm.trans hs')
      refine .inr ((h.written hcell hs' hsavable hfile).clean r.name i st.clean hname ?_ rfl)
      rw [ContentsLemmas.get?_modifyStore, if_pos rfl, hs]
      rfl
  · exact .inl (hchanged.stores r hr heq)

/-- Writing all contents to disk, whether or not it succeeds. -/
theorem sync (h : OnDisk home s) (hsavable : s.db.Savable) : OnDisk home (Storage.sync.on s).2 :=
  (sync_induct (P := fun s => OnDisk home s ∧ s.db.Savable)
    (fun _ _ _ hcell hends ⟨h, hsavable⟩ => ⟨h.saved hcell hends hsavable, hends.savable hsavable⟩)
    ⟨h, hsavable⟩).1

/-- A database that is marked as closed, before its contents are written. -/
theorem marked (h : OnDisk home s) : OnDisk home ⟨{ s.db with closed := true }, s.fs⟩ :=
  ⟨h.place, h.writable, ⟨h.listed.stores, h.listed.catalog⟩, h.houses, h.clean,
    fun hopen => nomatch hopen⟩

/-- Closing an open database, whether or not its contents can be saved: its lock is free then. -/
theorem closed (h : OnDisk home s) (hsavable : s.db.Savable) (hopen : s.db.closed = false) :
    OnDisk home (Storage.close.on s).2 ∧ ∃ lock data,
      (Storage.close.on s).2.fs.entryAt (lockFile home) = some (.file lock data) ∧
        lock ∉ (Storage.close.on s).2.fs.locked := by
  have hlocked : Site.Locked home ⟨{ s.db with closed := true }, s.fs⟩ :=
    ⟨(h.locked hopen).file, (h.locked hopen).once⟩
  have hkept : ∀ s cell o, cell ∈ s.db.stores.values → Saved s cell o →
      OnDisk home s ∧ s.db.Savable ∧ s.Locked home →
        OnDisk home o.2 ∧ o.2.db.Savable ∧ o.2.Locked home :=
    fun s cell o hcell hends ⟨h, hsavable, hlocked⟩ =>
      ⟨h.saved hcell hends hsavable, hends.savable hsavable, h.locked_of_saved hcell hends hlocked⟩
  have hpersisted := persist_induct hkept ⟨h.marked, hsavable, hlocked⟩
  obtain ⟨cells, hclosed⟩ := close_same hopen
  rw [on_close, hopen] at hclosed ⊢
  simp only [Bool.false_eq_true, ↓reduceIte] at hclosed ⊢
  revert hpersisted hclosed
  generalize (persist.on ⟨{ s.db with closed := true }, s.fs⟩).2 = s'
  rintro ⟨hdisk, -, ⟨data, hfile⟩, honce⟩ hclosed
  constructor
  · refine ⟨hdisk.place, hdisk.writable, hdisk.listed, ?_, hdisk.clean, fun hopen' => ?_⟩
    · obtain ⟨records, hhouses⟩ := hdisk.houses
      exact ⟨records, hhouses.undisturbed ⟨entryAt_locked _ _ _, fun r _ => entryAt_locked _ _ _⟩⟩
    · rw [hclosed] at hopen'
      cases hopen'
  · exact ⟨s'.db.lock, data, hfile, not_mem_unlock honce⟩

/-- Closing a database, open or not. -/
theorem close (h : OnDisk home s) (hsavable : s.db.Savable) : OnDisk home (Storage.close.on s).2 := by
  cases hclosed : s.db.closed with
  | false => exact (h.closed hsavable hclosed).1
  | true =>
    rw [on_close, hclosed]
    exact h

end OnDisk

end SnapshotKv
