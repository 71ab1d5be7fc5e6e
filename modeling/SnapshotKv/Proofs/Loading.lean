import SnapshotKv.Proofs.Contents
import SnapshotKv.Proofs.Encodings
import SnapshotKv.Proofs.Files
import SnapshotKv.Proofs.StoreCalls

/-!
# Opening databases

What a database has after it was opened depends on a few entries of the file system: the catalog, the
data files of the stores that the catalog lists, and the lock file. Opening succeeds exactly when
these read well and the lock is free.

Results:
1. `loadTree_ok_iff`, `loadCatalog_ok`: what is read from the entries of files.
2. `lockHome_spec`, `lockHome_free`: taking the lock.
3. `openDatabase_spec`, `openDatabase_ok`, `openDatabase_refused`: what opening reads, when it
   succeeds, and when it is refused; `opened_of_openDatabase`: it starts a run.
-/

namespace SnapshotKv

open Storage

/-! ## 1. Files that are read -/

namespace FileSystem

/-- The entry that a path leads to, if it leads to one. -/
def entryAt (fs : FileSystem) (path : String) : Option Entry := (fs.stat path).toOption

theorem entryAt_eq_some_iff {fs : FileSystem} {path : String} {e : Entry} :
    fs.entryAt path = some e ↔ fs.stat path = .ok e := by
  unfold entryAt
  cases fs.stat path <;> simp [Except.toOption]

/-- What a path leads to does not depend on the locks. -/
theorem entryAt_locked (fs : FileSystem) (locked : List Nat) (path : String) :
    entryAt { fs with locked } path = fs.entryAt path := rfl

theorem Touches.entryAt {names : List String} {fs fs' : FileSystem} (h : Touches names fs fs')
    {base name : String} (hname : Path.IsName name) (hn : name ∉ names) :
    fs'.entryAt (Path.join base name) = fs.entryAt (Path.join base name) :=
  h.toOption_stat hname hn

theorem Replaced.entryAt {fs fs' : FileSystem} {base name : String} {data : Bytes}
    (hname : Path.IsName name) (h : Replaced fs fs' base name data) :
    ∃ inode, fs'.entryAt (Path.join base name) = some (.file inode data) := by
  obtain ⟨dir, inode, hspot, he⟩ := h.file
  exact ⟨inode, entryAt_eq_some_iff.2
    ((stat_eq_ok_iff hname).2 ⟨dir, (spot_congr h.touches.same).2 hspot, he⟩)⟩

end FileSystem

open FileSystem

/-- What the entry of a data file holds for a store with some prefix length; a missing file holds
nothing. -/
inductive Holds : Option Entry → Nat → VersionTree → Prop
  | missing (len : Nat) : Holds none len {}
  | file {inode len : Nat} {data : Bytes} {records : List DataFile.Record}
      (hdata : DataFile.decode data = .ok (len, records)) :
      Holds (some (.file inode data)) len (.ofRecords records)

/-- All that was loaded has the sequence number zero. -/
theorem Holds.upTo {e : Option Entry} {len : Nat} {t : VersionTree} (h : Holds e len t) : t.UpTo 0 := by
  cases h with
  | missing => exact VersionTree.upTo_empty 0
  | file hdata => exact VersionTree.upTo_ofRecords _

theorem on_loadDataFile (fs : FileSystem) (path : String) :
    (loadDataFile path).on fs =
      (match fs.stat path with
        | .error e => .error (Fault.system e path)
        | .ok .directory => .error ((Fault.corrupt "data file too small").located path)
        | .ok (.file _ data) => (DataFile.decode data).mapError (·.located path), fs) := by
  simp only [loadDataFile, Attempt.ask, Attempt.on_bind, Attempt.on_ofStep, FileSystem.contents]
  cases fs.stat path with
  | error e => rfl
  | ok e => cases e <;> rfl

theorem loadTree_ok_iff {c : Catalog} {r : StoreRecord} {fs : FileSystem} {t : VersionTree} :
    ((loadTree c r).on fs).1 = .ok t ↔ Holds (fs.entryAt (c.dataFile r.name)) r.prefixLength t := by
  simp only [loadTree, Attempt.on_bind, Attempt.on_get, exists?, entryAt]
  cases hstat : fs.stat (c.dataFile r.name) with
  | error e =>
    constructor
    · intro h
      cases h
      exact .missing _
    · rintro ⟨⟩
      rfl
  | ok e =>
    simp only [Except.toOption, Option.isSome_some, Bool.not_true, Bool.false_eq_true, ↓reduceIte,
      Attempt.on_bind, about, Attempt.on_ofStep, on_loadDataFile, hstat]
    cases e with
    | directory =>
      constructor
      · intro h
        cases h
      · rintro ⟨⟩
    | file inode data =>
      cases hdata : DataFile.decode data with
      | error f =>
        simp only [hdata, Except.mapError]
        constructor
        · intro h
          cases h
        · rintro ⟨⟩
          next hfile =>
          cases hdata.symm.trans hfile
      | ok file =>
        obtain ⟨len, records⟩ := file
        simp only [hdata, Except.mapError]
        by_cases hlen : len = r.prefixLength
        · subst hlen
          rw [if_neg (fun h => h rfl)]
          constructor
          · intro h
            cases h
            exact .file hdata
          · rintro ⟨⟩
            next hfile =>
            cases hdata.symm.trans hfile
            rfl
        · rw [if_pos hlen]
          constructor
          · intro h
            cases h
          · rintro ⟨⟩
            next hfile =>
            cases hdata.symm.trans hfile
            exact absurd rfl hlen

/-- The file of a path reads as a text. -/
def FileSystem.Reads (fs : FileSystem) (path text : String) : Prop :=
  ∃ inode data, fs.entryAt path = some (.file inode data) ∧ Utf8.decode? data = some text

theorem readText_eq_ok_iff {fs : FileSystem} {path text : String} :
    readText fs path = .ok text ↔ fs.Reads path text := by
  unfold Reads
  simp only [entryAt_eq_some_iff, readText, FileSystem.contents, bind, Except.bind]
  constructor
  · intro h
    cases hstat : fs.stat path with
    | error e =>
      rw [hstat] at h
      cases h
    | ok e =>
      rw [hstat] at h
      cases e with
      | directory => cases h
      | file inode data =>
        simp only [pure, Except.pure] at h
        cases htext : Utf8.decode? data with
        | none =>
          rw [htext] at h
          cases h
        | some text =>
          rw [htext] at h
          cases h
          exact ⟨inode, data, rfl, htext⟩
  · rintro ⟨inode, data, hstat, htext⟩
    simp only [hstat, pure, Except.pure, htext]

/-- A text is missing when its file is. -/
theorem readText_eq_noEntry_iff {fs : FileSystem} {path : String} :
    readText fs path = .error Errno.noEntry ↔ fs.stat path = .error Errno.noEntry := by
  simp only [readText, FileSystem.contents, bind, Except.bind]
  cases fs.stat path with
  | error e =>
    exact ⟨fun h => congrArg _ (Except.error.inj h), fun h => congrArg _ (Except.error.inj h)⟩
  | ok e =>
    refine ⟨fun h => ?_, fun h => nomatch h⟩
    cases e with
    | directory => cases h
    | file inode data =>
      simp only [pure, Except.pure] at h
      split at h <;> cases h

theorem loadCatalog_ok {home text : String} {fs : FileSystem}
    (h : fs.Reads (catalogFile home) text) :
    (loadCatalog home).on fs = (Catalog.ofText text (catalogFile home), fs) := by
  simp only [loadCatalog, Attempt.ask, Attempt.on_bind, Attempt.on_ofStep, Attempt.on_check,
    readText_eq_ok_iff.2 h, Except.mapError]

theorem reads_of_loadCatalog {home : String} {fs fs' : FileSystem} {c : Catalog}
    (h : (loadCatalog home).on fs = (.ok c, fs')) :
    fs' = fs ∧ ∃ text, fs.Reads (catalogFile home) text ∧
      Catalog.ofText text (catalogFile home) = .ok c := by
  simp only [loadCatalog, Attempt.ask, Attempt.on_bind, Attempt.on_ofStep, Attempt.on_check] at h
  cases hread : readText fs (catalogFile home) with
  | error e =>
    rw [hread] at h
    cases h
  | ok text =>
    simp only [hread, Except.mapError] at h
    obtain ⟨hc, rfl⟩ := Prod.mk.inj h
    exact ⟨rfl, text, readText_eq_ok_iff.1 hread, hc⟩

/-! ## 2. The lock -/

namespace FileSystem

variable {fs fs' : FileSystem} {base name : String} {names : List String} {inode : Nat}
  {data : Bytes}

theorem openFile_ok (hname : Path.IsName name)
    (h : fs.openFile (Path.join base name) = .ok (names, inode, data, fs')) :
    fs'.entryAt (Path.join base name) = some (.file inode data) ∧ Touches [name] fs fs' := by
  have hslash := Path.endsInSlash_join base hname
  have hproper : isName name = true := by simp [isName, hname.notDot, hname.notDots]
  rw [entryAt_eq_some_iff]
  unfold openFile at h
  cases hplace : fs.place (Path.join base name) with
  | error e =>
    rw [hplace] at h
    cases h
  | ok place =>
    obtain ⟨dir, last⟩ := place
    obtain ⟨hspot, rfl⟩ := (place_eq_ok_iff hname).1 hplace
    simp only [hplace, bind, Except.bind, hproper, hslash, Bool.not_true, Bool.or_self,
      Bool.false_eq_true, ↓reduceIte] at h
    cases hentry : fs.entry? (dir ++ [last]) with
    | none =>
      simp only [hentry] at h
      cases h
      have hput := @put_insert fs _ (names_ne_nil dir last) (by simp [hentry]) fs.nextInode []
      have hsame : SameDirectories fs { fs with
          entries := fs.entries.insert (dir ++ [last]) (.file fs.nextInode [])
          nextInode := fs.nextInode + 1 } := { hput.same with }
      exact ⟨(stat_eq_ok_iff hname).2 ⟨dir, (spot_congr hsame).2 hspot,
        (@entry?_insert fs _ (names_ne_nil dir last) _ _).trans (if_pos rfl)⟩,
        { hput.touches with same := hsame }⟩
    | some e =>
      cases e with
      | directory =>
        simp only [hentry] at h
        cases h
      | file inode' data' =>
        simp only [hentry] at h
        cases h
        exact ⟨(stat_eq_ok_iff hname).2 ⟨dir, hspot, hentry⟩, .refl _ _⟩

theorem openFile_of_entryAt (hname : Path.IsName name)
    (h : fs.entryAt (Path.join base name) = some (.file inode data)) :
    ∃ names, fs.openFile (Path.join base name) = .ok (names, inode, data, fs) := by
  have hslash := Path.endsInSlash_join base hname
  have hproper : isName name = true := by simp [isName, hname.notDot, hname.notDots]
  obtain ⟨dir, hspot, hentry⟩ := (stat_eq_ok_iff hname).1 (entryAt_eq_some_iff.1 h)
  refine ⟨dir ++ [name], ?_⟩
  unfold openFile
  simp only [(place_eq_ok_iff hname).2 ⟨hspot, rfl⟩, bind, Except.bind, hproper, hslash,
    Bool.not_true, Bool.or_self, Bool.false_eq_true, ↓reduceIte, hentry]
  rfl

end FileSystem

/-- A lock that was taken is held once; taking it touches no other file and no directory. -/
theorem lockHome_spec {home : String} {fs fs' : FileSystem} {lock : Nat}
    (h : (lockHome home).on fs = (.ok lock, fs')) :
    (∃ data, fs'.entryAt (lockFile home) = some (.file lock data)) ∧ fs'.locked.count lock = 1 ∧
      SameDirectories fs fs' ∧ ∀ base name, Path.IsName name → name ≠ "kvdb.lock" →
        fs'.entryAt (Path.join base name) = fs.entryAt (Path.join base name) := by
  simp only [lockHome, Attempt.on_ofStep, FileSystem.lockFile] at h
  cases hopen : fs.openFile (Storage.lockFile home) with
  | error e =>
    rw [hopen] at h
    cases h
  | ok opened =>
    obtain ⟨names, inode, data, fs₁⟩ := opened
    simp only [hopen] at h
    by_cases hlocked : fs₁.locked.contains inode = true
    · rw [if_pos hlocked] at h
      cases h
    · rw [if_neg hlocked] at h
      cases h
      obtain ⟨hentry, htouches⟩ := openFile_ok isName_lock hopen
      refine ⟨⟨data, hentry⟩, ?_, { htouches.same with }, fun base name hname hne => ?_⟩
      · show (lock :: fs₁.locked).count lock = 1
        rw [List.count_cons_self,
          List.count_eq_zero.2 fun hmem => hlocked (List.contains_iff_mem.2 hmem)]
      · exact htouches.entryAt hname fun hmem => hne (List.mem_singleton.1 hmem)

/-- The lock of a lock file that nobody holds can be taken. -/
theorem lockHome_free {home : String} {fs : FileSystem} {lock : Nat} {data : Bytes}
    (he : fs.entryAt (lockFile home) = some (.file lock data)) (hfree : lock ∉ fs.locked) :
    (lockHome home).on fs = (.ok lock, { fs with locked := lock :: fs.locked }) := by
  obtain ⟨names, hopen⟩ := openFile_of_entryAt isName_lock he
  have hcontains : ¬ fs.locked.contains lock = true := fun h => hfree (List.contains_iff_mem.1 h)
  have hopen' : fs.openFile (Storage.lockFile home) = .ok (names, lock, data, fs) := hopen
  simp only [lockHome, Attempt.on_ofStep, FileSystem.lockFile, hopen', if_neg hcontains]

/-- A lock that is held once is free when it was given up. -/
theorem FileSystem.not_mem_unlock {fs : FileSystem} {lock : Nat} (honce : fs.locked.count lock = 1) :
    lock ∉ (fs.unlock lock).locked := by
  intro hmem
  have hpositive := List.count_pos_iff.2 hmem
  rw [FileSystem.unlock, List.count_erase_self, honce] at hpositive
  exact Nat.lt_irrefl _ hpositive

/-! ## 3. Opening -/

namespace LoadingLemmas

theorem on_loadTree (c : Catalog) (r : StoreRecord) (fs : FileSystem) :
    ((loadTree c r).on fs).2 = fs := by
  simp only [loadTree, Attempt.on_bind, Attempt.on_get, about, on_loadDataFile]
  split
  · rfl
  · rw [Attempt.on_bind, Attempt.on_ofStep]
    split
    · next heq =>
      obtain ⟨-, rfl⟩ := Prod.mk.inj heq
      split <;> rfl
    · next heq => exact (Prod.mk.inj heq).2.symm

/-- The tree that an attempt to load one yields; none is the empty tree. -/
def treeOf : Except Fault VersionTree → VersionTree
  | .ok t => t
  | .error _ => {}

/-- The tree of a store in some files. -/
def treeIn (c : Catalog) (fs : FileSystem) (r : StoreRecord) : VersionTree :=
  treeOf ((loadTree c r).on fs).1

theorem upTo_treeIn (c : Catalog) (fs : FileSystem) (r : StoreRecord) : (treeIn c fs r).UpTo 0 := by
  unfold treeIn
  cases h : ((loadTree c r).on fs).1 with
  | error f => exact VersionTree.upTo_empty 0
  | ok t => exact (loadTree_ok_iff.1 h).upTo

theorem treeIn_eq {c : Catalog} {r : StoreRecord} {fs : FileSystem} {t : VersionTree}
    (h : ((loadTree c r).on fs).1 = .ok t) : treeIn c fs r = t := by
  unfold treeIn
  rw [h]
  rfl

/-- The stores of some records are attached, one after another, when the trees of all can be
loaded. -/
theorem foldlM_attach_ok_iff (c : Catalog) (records : List StoreRecord) (fs fs' : FileSystem)
    (db db' : Database) :
    (records.foldlM (fun db r => do
        let tree ← loadTree c r
        pure (attach db r tree)) db : Attempt FileSystem Database).on fs = (.ok db', fs') ↔
      fs' = fs ∧ (∀ r ∈ records, ∃ t, ((loadTree c r).on fs).1 = .ok t) ∧
        db' = records.foldl (fun db r => attach db r (treeIn c fs r)) db := by
  induction records generalizing db with
  | nil =>
    constructor
    · intro h
      cases h
      exact ⟨rfl, (fun r hr => nomatch hr), rfl⟩
    · rintro ⟨rfl, -, rfl⟩
      rfl
  | cons r rest ih =>
    rw [List.foldlM_cons, Attempt.on_bind, Attempt.on_bind, List.foldl_cons, List.forall_mem_cons]
    have hfs := on_loadTree c r fs
    have htree := @treeIn_eq c r fs
    cases hload : (loadTree c r).on fs with
    | mk result fs₁ =>
      rw [hload] at hfs htree
      subst hfs
      cases result with
      | error f =>
        constructor
        · intro h
          cases h
        · rintro ⟨-, ⟨⟨t, ht⟩, -⟩, -⟩
          cases ht
      | ok t =>
        rw [htree rfl]
        refine (ih _).trans ⟨fun h => ⟨h.1, ⟨⟨t, rfl⟩, h.2.1⟩, h.2.2⟩, fun h => ⟨h.1, h.2.1.2, h.2.2⟩⟩

theorem on_requireDatabase_ok {home : String} {fs fs' : FileSystem}
    (h : (requireDatabase home).on fs = (.ok (), fs')) : fs' = fs ∧ hasDatabase fs home = true := by
  simp only [requireDatabase, Attempt.on_bind, Attempt.on_get] at h
  cases hdb : hasDatabase fs home with
  | false =>
    rw [hdb] at h
    cases h
  | true =>
    rw [hdb] at h
    cases h
    exact ⟨rfl, rfl⟩

theorem on_requireDatabase_of_hasDatabase {home : String} {fs : FileSystem}
    (h : hasDatabase fs home = true) : (requireDatabase home).on fs = (.ok (), fs) := by
  simp only [requireDatabase, Attempt.on_bind, Attempt.on_get, h]
  rfl

theorem on_loadConfig (home : String) (fs : FileSystem) : ((loadConfig home).on fs).2 = fs := by
  simp only [loadConfig, Attempt.on_bind, Attempt.on_get]
  split
  · split <;> rfl
  · split <;> rfl

end LoadingLemmas

open LoadingLemmas

/-- What a database that was opened has read: its settings, under the lock its catalog, and for every
store of the catalog a tree. -/
theorem openDatabase_spec {home : String} {params : List String} {fs fs' : FileSystem}
    {db : Database} (h : (openDatabase home params).on fs = (.ok db, fs')) :
    ∃ config settings catalog lock, (lockHome home).on fs = (.ok lock, fs') ∧
      (loadCatalog home).on fs' = (.ok catalog, fs') ∧
      (∀ r ∈ catalog.stores, ∃ t, ((loadTree catalog r).on fs').1 = .ok t) ∧
      db = Database.withStores { home, settings, config, catalog, lock } (treeIn catalog fs') := by
  obtain ⟨_, fs₁, hrequire, h₁⟩ := Attempt.ok_of_bind h
  obtain ⟨config, fs₂, hconfig, h₂⟩ := Attempt.ok_of_bind h₁
  obtain ⟨settings, fs₃, hsettings, h₃⟩ := Attempt.ok_of_bind h₂
  obtain ⟨lock, fs₄, hlock, h₄⟩ := Attempt.ok_of_bind h₃
  have hfs₁ := (on_requireDatabase_ok hrequire).1
  have hfs₂ : fs₂ = fs₁ := by rw [← on_loadConfig home fs₁, hconfig]
  have hfs₃ : fs₂ = fs₃ := (Prod.mk.inj hsettings).2
  rw [← hfs₃, hfs₂, hfs₁] at hlock
  rw [Attempt.on_ofStep] at h₄
  split at h₄
  · next x fs₅ hx =>
    obtain ⟨catalog, fs₆, hcatalog, hstores⟩ := Attempt.ok_of_bind hx
    have hfs₆ := (reads_of_loadCatalog hcatalog).1
    subst hfs₆
    cases h₄
    obtain ⟨hfs', htrees, hdb⟩ := (foldlM_attach_ok_iff _ _ _ _ _ _).1 hstores
    subst hfs'
    exact ⟨config, settings, catalog, lock, hlock, hcatalog, htrees, hdb⟩
  · cases h₄

/-- Opening a database whose catalog is numbered starts a run. -/
theorem opened_of_openDatabase {home : String} {params : List String} {fs fs' : FileSystem}
    {db : Database} (h : (openDatabase home params).on fs = (.ok db, fs'))
    (hn : db.catalog.Numbered) : db.Opened := by
  obtain ⟨config, settings, catalog, lock, -, -, -, rfl⟩ := openDatabase_spec h
  rw [(Database.attached_withStores home settings config catalog lock _).same] at hn
  exact .mk hn (upTo_treeIn catalog fs')

/-- Opening succeeds when everything that it reads reads well and the lock is free. -/
theorem openDatabase_ok {home : String} {params : List String} {fs fs' : FileSystem}
    {config : Config} {settings : OpenSettings} {lock : Nat} {catalog : Catalog}
    (hdb : hasDatabase fs home = true) (hconfig : ((loadConfig home).on fs).1 = .ok config)
    (hsettings : OpenSettings.scheme.ofLayers [config.database] params = .ok settings)
    (hlock : (lockHome home).on fs = (.ok lock, fs'))
    (hcatalog : (loadCatalog home).on fs' = (.ok catalog, fs'))
    (htrees : ∀ r ∈ catalog.stores, ∃ t, ((loadTree catalog r).on fs').1 = .ok t) :
    (openDatabase home params).on fs =
      (.ok (Database.withStores { home, settings, config, catalog, lock } (treeIn catalog fs')),
        fs') := by
  have hrequire := on_requireDatabase_of_hasDatabase hdb
  have hconfig' : (loadConfig home).on fs = (.ok config, fs) := Prod.ext hconfig (on_loadConfig home fs)
  have hstores := (foldlM_attach_ok_iff catalog catalog.stores fs' fs'
    { home, settings, config, catalog, lock } _).2 ⟨rfl, htrees, rfl⟩
  simp only [openDatabase, underLock, Attempt.on_bind, Attempt.on_check, Attempt.on_ofStep, hrequire,
    hconfig', hsettings, hlock, hcatalog]
  rw [hstores]
  rfl

/-- Opening is refused before anything is touched when the settings are at fault. -/
theorem openDatabase_refused {home : String} {params : List String} {fs : FileSystem}
    {config : Config} {f : Fault} (hdb : hasDatabase fs home = true)
    (hconfig : ((loadConfig home).on fs).1 = .ok config)
    (hsettings : OpenSettings.scheme.ofLayers [config.database] params = .error f) :
    (openDatabase home params).on fs = (.error f, fs) := by
  have hrequire := on_requireDatabase_of_hasDatabase hdb
  have hconfig' : (loadConfig home).on fs = (.ok config, fs) :=
    Prod.ext hconfig (on_loadConfig home fs)
  simp only [openDatabase, Attempt.on_bind, Attempt.on_check, hrequire, hconfig', hsettings]

end SnapshotKv
