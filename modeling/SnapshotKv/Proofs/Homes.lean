import SnapshotKv.Proofs.FailedCalls
import SnapshotKv.Proofs.Loading
import SnapshotKv.Proofs.Registry
import SnapshotKv.Proofs.WrittenJson

/-!
# Homes of databases

A home houses a database when its files read as one: the catalog, and for each store of the catalog a
data file with some records. A home houses what was made there, and a database that is opened in a
home has the stores that the home houses, with these records.

Results:
1. `Catalog.Sound`: catalogs whose stores can be told apart; `prefixLength_le_of_ofPairs`.
2. `Storage.create_spec`: what making a database leaves.
3. `Houses`: what a home houses, and the names of its files.
4. `JustOpened`: what a database has then; `Houses.opened`, `Houses.openDatabase_eq`: opening a
   database in a home.
-/

namespace SnapshotKv

open Storage FileSystem

/-! ## 1. Catalogs -/

/-- The stores of a catalog have numbers and names of their own, and keep to the limits. -/
structure Catalog.Sound (c : Catalog) : Prop where
  numbered : c.Numbered
  distinct : c.names.Nodup
  named : ∀ r ∈ c.stores, Limits.checkName r.name = .ok ()
  short : ∀ r ∈ c.stores, r.prefixLength ≤ Limits.prefixLength

namespace Catalog.Sound

variable {c : Catalog}

theorem of_nil (h : c.stores = []) : c.Sound := by
  constructor
  · exact ⟨by simp [h], by simp [h]⟩
  · simp [Catalog.names, h]
  · simp [h]
  · simp [h]

theorem withRecord (h : c.Sound) {name : String} {prefixLength : Nat}
    (hname : Limits.checkName name = .ok ()) (hnew : c.find? name = none)
    (hlen : prefixLength ≤ Limits.prefixLength) : (c.withRecord name prefixLength).Sound where
  numbered := RegistryLemmas.numbered_withRecord h.numbered name prefixLength
  distinct := by
    rw [FailedCallsLemmas.names_withRecord]
    refine List.nodup_append.2 ⟨h.distinct, by simp, ?_⟩
    rintro _ hmem _ hmem' rfl
    rw [List.mem_singleton.1 hmem'] at hmem
    exact RegistryLemmas.find?_ne_none_iff.2 (List.mem_map.1 hmem) hnew
  named := fun r hr => by
    rcases List.mem_append.1 hr with hr | hr
    · exact h.named r hr
    · rw [List.mem_singleton.1 hr]
      exact hname
  short := fun r hr => by
    rcases List.mem_append.1 hr with hr | hr
    · exact h.short r hr
    · rw [List.mem_singleton.1 hr]
      exact hlen

theorem without (h : c.Sound) (name : String) : (c.without name).Sound where
  numbered := RegistryLemmas.numbered_without h.numbered name
  distinct := by
    rw [FailedCallsLemmas.names_without]
    exact h.distinct.sublist List.filter_sublist
  named := fun r hr => h.named r (List.mem_of_mem_filter hr)
  short := fun r hr => h.short r (List.mem_of_mem_filter hr)

/-- The numbers of the stores are below the next one, so they fit when that does. -/
theorem fits (h : c.Sound) (hnext : c.nextId < Unsigned.limit) : c.Fits where
  nextId := hnext
  stores := fun r hr => ⟨Nat.lt_trans (h.numbered.lt r hr) hnext,
    Nat.lt_of_le_of_lt (h.short r hr) (by decide)⟩

end Catalog.Sound

/-- What every assignment keeps holds of the settings that parameters give. -/
theorem Scheme.ofPairs_induct {σ : Type} {S : Scheme σ} {P : σ → Prop} (hinitial : P S.initial)
    (hassign : ∀ s key value s', P s → S.assign s key value = .ok s' → P s')
    {params : List String} {s : σ} (h : S.ofPairs params = .ok s) : P s := by
  have hone : ∀ (param : String) (s : σ), P s → P ((S.applyPair param).on s).2 := by
    intro param s hs
    simp only [applyPair, Attempt.on_bind, Attempt.on_check]
    cases Param.split param with
    | error f => exact hs
    | ok pair =>
      simp only [assignKey, Attempt.on_ofStep]
      cases hassigned : S.assign s pair.1 pair.2 with
      | error f => exact hs
      | ok s' => exact hassign s _ _ s' hs hassigned
  have hall : ∀ (params : List String) (s : σ), P s → P ((params.forM S.applyPair).on s).2 := by
    intro params
    induction params with
    | nil => exact fun _ hs => hs
    | cons param rest ih =>
      intro s hs
      have hs' := hone param s hs
      show P ((S.applyPair param >>= fun _ => rest.forM S.applyPair).on s).2
      rw [Attempt.on_bind]
      revert hs'
      cases (S.applyPair param).on s with
      | mk r s' =>
        intro hs'
        cases r with
        | error f => exact hs'
        | ok _ => exact ih s' hs'
  have hresult := hall params S.initial hinitial
  unfold ofPairs resolve applyPairs at h
  split at h
  · next heq =>
    rw [heq] at hresult
    cases h
    exact hresult
  · cases h

/-- The prefixes of a store are short enough. -/
theorem prefixLength_le_of_ofPairs {params : List String} {shape : StoreShape}
    (h : StoreShape.scheme.ofPairs params = .ok shape) :
    shape.prefixLength ≤ Limits.prefixLength := by
  refine Scheme.ofPairs_induct (P := fun shape => shape.prefixLength ≤ Limits.prefixLength)
    (Nat.zero_le _) (fun s key value s' hs hassign => ?_) h
  simp only [StoreShape.scheme] at hassign
  split at hassign
  · cases hread : Param.readNat key value with
    | error f =>
      rw [hread] at hassign
      cases hassign
    | ok n =>
      simp only [hread, bind, Except.bind] at hassign
      split at hassign
      · cases hassign
      · next hle =>
        cases hassign
        exact Nat.le_of_not_lt hle
  · cases hassign

/-! ## 2. Making a database -/

namespace Storage

theorem reads_of_saveCatalog {home : String} {c : Catalog} {fs fs' : FileSystem}
    (h : (saveCatalog home c).on fs = (.ok (), fs')) : fs'.Reads (catalogFile home) c.text := by
  have hreplaced := (replaceFile_spec isName_catalog fs home (Bytes.ofText c.text) h).2.2 rfl
  obtain ⟨inode, he⟩ := hreplaced.entryAt isName_catalog
  exact ⟨inode, _, he, Utf8.decode?_ofText c.text⟩

/-- A database that was made has a catalog without stores. -/
theorem create_spec {home : String} {params : List String} {fs fs' : FileSystem}
    (h : (create home params).on fs = (.ok (), fs')) :
    ∃ c : Catalog, c.stores = [] ∧ c.nextId = 1 ∧ fs'.Reads (catalogFile home) c.text := by
  simp only [create, Attempt.on_bind, Attempt.on_get] at h
  cases hhome : fs.isDirectory home with
  | false =>
    rw [hhome] at h
    cases h
  | true =>
    cases hnone : hasDatabase fs home with
    | true =>
      rw [hhome, hnone] at h
      cases h
    | false =>
      simp only [hhome, hnone, Bool.not_true, Bool.false_eq_true, ↓reduceIte] at h
      obtain ⟨given, fs₁, -, h₁⟩ := Attempt.ok_of_bind h
      obtain ⟨base, fs₂, -, h₂⟩ := Attempt.ok_of_bind h₁
      obtain ⟨_, fs₃, -, h₃⟩ := Attempt.ok_of_bind h₂
      exact ⟨_, rfl, rfl, reads_of_saveCatalog h₃⟩

end Storage

/-! ## 3. What a home houses -/

/-- The entry of a data file has some records. -/
def Keeps (e : Option Entry) (prefixLength : Nat) (records : SortedMap Bytes Bytes) : Prop :=
  ∃ inode data, e = some (.file inode data) ∧
    DataFile.decode data = .ok (prefixLength, records.entries)

/-- An entry has no other records. -/
theorem Keeps.unique {e : Option Entry} {len len' : Nat} {m m' : SortedMap Bytes Bytes}
    (h : Keeps e len m) (h' : Keeps e len' m') : len = len' ∧ m = m' := by
  obtain ⟨inode, data, rfl, hdata⟩ := h
  obtain ⟨inode', data', hfile, hdata'⟩ := h'
  cases hfile
  obtain ⟨hlen, hentries⟩ := Prod.mk.inj (Except.ok.inj (hdata.symm.trans hdata'))
  cases m
  cases m'
  cases hentries
  exact ⟨hlen, rfl⟩

theorem Keeps.holds {e : Option Entry} {len : Nat} {m : SortedMap Bytes Bytes} (h : Keeps e len m) :
    Holds e len (.ofRecords m.entries) := by
  obtain ⟨inode, data, rfl, hdata⟩ := h
  exact .file hdata

/-- The records of a data file have lengths that fit its format. -/
theorem Keeps.fits {e : Option Entry} {len : Nat} {m : SortedMap Bytes Bytes} (h : Keeps e len m)
    {key v : Bytes} (hv : m.get? key = some v) : DataFile.Fits (key, v) := by
  obtain ⟨inode, data, -, hdata⟩ := h
  exact DataFile.fits_of_decode hdata _ ((m.mem_entries_iff).2 hv)

/-- A data file that was written has the records that were given. -/
theorem keeps_of_saveDataFile {base name : String} (hname : Path.IsName name) {len : Nat}
    {m : SortedMap Bytes Bytes} {fs fs' : FileSystem}
    (h : (saveDataFile (Path.join base name) len m.entries).on fs = (.ok (), fs'))
    (hlen : len < 256) (hfits : ∀ r ∈ m.entries, DataFile.Fits r)
    (hbody : (DataFile.body m.entries).length < 256 ^ 8) :
    Keeps (fs'.entryAt (Path.join base name)) len m := by
  have hreplaced := (replaceFile_spec hname fs base (DataFile.encode len m.entries) h).2.2 rfl
  obtain ⟨inode, he⟩ := hreplaced.entryAt hname
  exact ⟨inode, _, he, DataFile.decode_encode hlen hfits hbody⟩

/-- A home houses the database of a catalog, whose stores have some records. -/
structure Houses (fs : FileSystem) (home : String) (c : Catalog)
    (records : String → SortedMap Bytes Bytes) : Prop where
  sound : c.Sound
  nextId : c.nextId < Unsigned.limit
  catalog : fs.Reads (catalogFile home) c.text
  stores : ∀ r ∈ c.stores, Keeps (fs.entryAt (c.dataFile r.name)) r.prefixLength (records r.name)

/-- The files of a database are as they were, its lock file apart. -/
structure Undisturbed (home : String) (c : Catalog) (fs fs' : FileSystem) : Prop where
  catalog : fs'.entryAt (catalogFile home) = fs.entryAt (catalogFile home)
  stores : ∀ r ∈ c.stores, fs'.entryAt (c.dataFile r.name) = fs.entryAt (c.dataFile r.name)

theorem FileSystem.Reads.congr {fs fs' : FileSystem} {path text : String} (h : fs.Reads path text)
    (he : fs'.entryAt path = fs.entryAt path) : fs'.Reads path text := by
  obtain ⟨inode, data, hfile, htext⟩ := h
  exact ⟨inode, data, he.trans hfile, htext⟩

/-- The files of a database are told apart by their last characters. -/
theorem ne_of_getLast {name name' : String} {c c' : Char} (h : name.toList.getLast? = some c)
    (h' : name'.toList.getLast? = some c') (hne : c ≠ c') : name ≠ name' := by
  rintro rfl
  exact hne (Option.some.inj (h.symm.trans h'))

theorem getLast_dataFileName (name : String) : (dataFileName name).toList.getLast? = some 's' := by
  simp [dataFileName]

theorem getLast_temporary (name : String) : (temporary name).toList.getLast? = some 'p' := by
  simp [temporary]

theorem getLast_catalog : "kvdb.meta".toList.getLast? = some 'a' := rfl

theorem getLast_lock : "kvdb.lock".toList.getLast? = some 'k' := rfl

theorem dataFileName_injective {name name' : String} (h : dataFileName name = dataFileName name') :
    name = name' := by
  have hchars := congrArg String.toList h
  rw [dataFileName, dataFileName, String.toList_append, String.toList_append] at hchars
  exact String.toList_inj.1 (List.append_cancel_right hchars)

/-! ## 4. Opening a database -/

theorem Database.withStores_congr {db : Database} {tree tree' : StoreRecord → VersionTree}
    (h : ∀ r ∈ db.catalog.stores, tree r = tree' r) : db.withStores tree = db.withStores tree' := by
  unfold withStores
  generalize db.catalog.stores = records at h
  induction records generalizing db with
  | nil => rfl
  | cons r rest ih =>
    obtain ⟨hr, hrest⟩ := List.forall_mem_cons.1 h
    rw [List.foldl_cons, List.foldl_cons, hr]
    exact ih hrest

/-- The tree of a store that a home houses. -/
def treeOfRecord (records : String → SortedMap Bytes Bytes) (r : StoreRecord) : VersionTree :=
  .ofRecords (records r.name).entries

theorem get_treeOfRecord (records : String → SortedMap Bytes Bytes) (r : StoreRecord) (key : Bytes) :
    (treeOfRecord records r).get key 0 = (records r.name).get? key := by
  rw [← VersionTree.get?_contents, treeOfRecord, VersionTree.contents_ofRecords]

/-- What a database has that was just opened: the stores of a catalog, with some records. -/
structure JustOpened (home : String) (c : Catalog) (records : String → SortedMap Bytes Bytes)
    (db : Database) : Prop where
  home : db.home = home
  catalog : db.catalog = c
  published : db.published = 0
  isOpen : db.closed = false
  stores : ∀ name cell, db.stores.get? name = some cell ↔
    ∃ r, c.stores[cell]? = some r ∧ r.name = name
  cells : ∀ cell st, db.cells.get? cell = some st ↔
    ∃ r, c.stores[cell]? = some r ∧ st = .ofRecord r (treeOfRecord records r)

theorem justOpened_withStores {home : String} {settings : OpenSettings} {config : Config}
    {c : Catalog} {lock : Nat} (records : String → SortedMap Bytes Bytes)
    (hdistinct : c.names.Nodup) : JustOpened home c records
      (Database.withStores { home, settings, config, catalog := c, lock } (treeOfRecord records)) := by
  have hat := Database.attached_withStores home settings config c lock (treeOfRecord records)
  revert hat
  generalize Database.withStores { home, settings, config, catalog := c, lock }
    (treeOfRecord records) = db
  intro hat
  have hfound : ∀ cell r, c.stores[cell]? = some r → db.stores.get? r.name = some cell := by
    intro cell r hr
    obtain ⟨cell', hcell'⟩ := hat.found r (List.mem_of_getElem? hr)
    obtain ⟨r', hr', hname⟩ := hat.stores r.name cell' hcell'
    -- the names tell the places in the catalog apart
    have hplace : c.names[cell]? = c.names[cell']? := by
      simp only [Catalog.names, List.getElem?_map, hr, hr', Option.map_some, hname]
    have hlt : cell < c.names.length := by
      rw [Catalog.names, List.length_map]
      exact (List.getElem?_eq_some_iff.1 hr).1
    rw [hcell', (List.getElem?_inj hlt hdistinct).1 hplace]
  refine ⟨?_, ?_, ?_, ?_, fun name cell => ⟨hat.stores name cell, ?_⟩, hat.cells⟩
  · rw [hat.same]
  · rw [hat.same]
  · rw [hat.same]
  · rw [hat.same]
  · rintro ⟨r, hr, rfl⟩
    exact hfound cell r hr

namespace Houses

variable {fs fs' : FileSystem} {home : String} {c : Catalog} {records : String → SortedMap Bytes Bytes}

theorem undisturbed (h : Houses fs home c records) (hsame : Undisturbed home c fs fs') :
    Houses fs' home c records where
  sound := h.sound
  nextId := h.nextId
  catalog := h.catalog.congr hsame.catalog
  stores := fun r hr => hsame.stores r hr ▸ h.stores r hr

theorem loadCatalog (h : Houses fs home c records) : (loadCatalog home).on fs = (.ok c, fs) := by
  rw [loadCatalog_ok h.catalog, Catalog.ofText_text (h.sound.fits h.nextId)]

theorem loadTree (h : Houses fs home c records) {r : StoreRecord} (hr : r ∈ c.stores) :
    ((loadTree c r).on fs).1 = .ok (.ofRecords (records r.name).entries) :=
  loadTree_ok_iff.2 (h.stores r hr).holds

/-- A database that was opened in a home has the stores that the home houses. -/
theorem opened (h : Houses fs home c records) {params : List String} {db : Database}
    (hopen : (openDatabase home params).on fs = (.ok db, fs')) :
    JustOpened home c records db ∧ Houses fs' home c records ∧
      (∃ data, fs'.entryAt (lockFile home) = some (.file db.lock data)) ∧
      fs'.locked.count db.lock = 1 := by
  obtain ⟨config, settings, catalog, lock, hlock, hcatalog, -, hdb⟩ := openDatabase_spec hopen
  obtain ⟨hentry, hcount, -, hframe⟩ := lockHome_spec hlock
  have hhouses : Houses fs' home c records := h.undisturbed
    { catalog := hframe _ _ isName_catalog (ne_of_getLast getLast_catalog getLast_lock (by decide))
      stores := fun r hr => hframe _ _ (isName_dataFileName (h.sound.named r hr))
        (ne_of_getLast (getLast_dataFileName r.name) getLast_lock (by decide)) }
  obtain rfl : c = catalog := by
    rw [hhouses.loadCatalog] at hcatalog
    exact Except.ok.inj (congrArg Prod.fst hcatalog)
  have htrees : ∀ r ∈ c.stores, LoadingLemmas.treeIn c fs' r = treeOfRecord records r :=
    fun r hr => LoadingLemmas.treeIn_eq (hhouses.loadTree hr)
  rw [Database.withStores_congr htrees] at hdb
  have hjust : JustOpened home c records db :=
    hdb ▸ justOpened_withStores records h.sound.distinct
  obtain rfl : lock = db.lock := by
    rw [hdb, (Database.attached_withStores home settings config c lock (treeOfRecord records)).same]
  exact ⟨hjust, hhouses, hentry, hcount⟩

theorem hasDatabase (h : Houses fs home c records) : hasDatabase fs home = true := by
  obtain ⟨inode, data, hfile, -⟩ := h.catalog
  rw [entryAt_eq_some_iff] at hfile
  simp only [Storage.hasDatabase, isFile, hfile]

/-- A database can be opened in a home that houses one when its settings are sound and nobody holds
the lock. -/
theorem openDatabase_eq (h : Houses fs home c records) {params : List String} {config : Config}
    {settings : OpenSettings} (hconfig : ((loadConfig home).on fs).1 = .ok config)
    (hsettings : OpenSettings.scheme.ofLayers [config.database] params = .ok settings) {lock : Nat}
    {data : Bytes} (hentry : fs.entryAt (lockFile home) = some (.file lock data))
    (hfree : lock ∉ fs.locked) :
    (openDatabase home params).on fs =
      (.ok (Database.withStores { home, settings, config, catalog := c, lock }
        (treeOfRecord records)), { fs with locked := lock :: fs.locked }) := by
  have hhouses : Houses { fs with locked := lock :: fs.locked } home c records := h.undisturbed
    { catalog := entryAt_locked fs _ _, stores := fun r _ => entryAt_locked fs _ _ }
  have htrees : ∀ r ∈ c.stores,
      LoadingLemmas.treeIn c { fs with locked := lock :: fs.locked } r = treeOfRecord records r :=
    fun r hr => LoadingLemmas.treeIn_eq (hhouses.loadTree hr)
  rw [SnapshotKv.openDatabase_ok h.hasDatabase hconfig hsettings (lockHome_free hentry hfree)
    hhouses.loadCatalog fun r hr => ⟨_, hhouses.loadTree hr⟩, Database.withStores_congr htrees]

theorem openDatabase_ok (h : Houses fs home c records) {params : List String} {config : Config}
    {settings : OpenSettings} (hconfig : ((loadConfig home).on fs).1 = .ok config)
    (hsettings : OpenSettings.scheme.ofLayers [config.database] params = .ok settings) {lock : Nat}
    {data : Bytes} (hentry : fs.entryAt (lockFile home) = some (.file lock data))
    (hfree : lock ∉ fs.locked) :
    ∃ db fs', (openDatabase home params).on fs = (.ok db, fs') :=
  ⟨_, _, h.openDatabase_eq hconfig hsettings hentry hfree⟩

end Houses

end SnapshotKv
