import SnapshotKv.Host
import SnapshotKv.Proofs.Assignments
import SnapshotKv.Proofs.ConfigTexts
import SnapshotKv.Proofs.Edits
import SnapshotKv.Proofs.Loading
import SnapshotKv.Proofs.Steps
import SnapshotKv.Proofs.WrittenJson

/-!
# Layers of settings

Three calls take their settings from a row of assignments: opening a store, opening a database and
initializing the runtime. An assignment at fault ends each of them before it changes anything.

Results:
1. `Layered`: the settings of a call come from a row; `layered_of_ofLayers`.
2. `layered_openStore`, `layered_openDatabase`, `layered_init`: the three calls;
   `finds_of_openStore`, `configured_of_openDatabase`, `fileRow_of_init`: what each has found when
   it succeeds; `openDatabase_unconfigured`, `init_unconfigured`: files that write nothing of use.
3. `Steps.config_eq`, `config_play`: an open database keeps its configuration.
4. `LayeringLaw`, `layering_law`.
-/

namespace SnapshotKv

open Storage LoadingLemmas

/-! ## 1. Settings from a row -/

namespace Config

/-- The assignments in the section of a configuration for a store; a missing section has none. -/
def sectionRow (c : Config) (name : String) : List Assignment :=
  match c.stores.get? name with
  | some layer => Assignment.ofLayer layer
  | none => []

/-- The assignments when a store is opened: the section for every store, the store's own one unless
that is the same, then the parameters. -/
def storeRow (c : Config) (name : String) (params : List String) : List Assignment :=
  c.sectionRow "default" ++ (if name = "default" then [] else c.sectionRow name) ++
    Assignment.ofParams params

/-- The assignments when a database is opened. -/
def databaseRow (c : Config) (params : List String) : List Assignment :=
  Assignment.ofLayer c.database ++ Assignment.ofParams params

theorem storeRow_eq (c : Config) (name : String) (params : List String) :
    c.storeRow name params =
      (c.layers name).flatMap Assignment.ofLayer ++ Assignment.ofParams params := by
  have hsection : ∀ n, c.sectionRow n = (c.stores.get? n).toList.flatMap Assignment.ofLayer := by
    intro n
    unfold sectionRow
    cases c.stores.get? n with
    | none => rfl
    | some layer => exact (List.append_nil _).symm
  unfold storeRow layers defaultSection
  rw [List.flatMap_append, ← hsection, apply_ite (List.flatMap Assignment.ofLayer), ← hsection]
  rfl

end Config

/-- The settings of a call come from a row of assignments. What was made has the settings
`settings?`; `free` says that nothing else is in the way. -/
structure Layered {σ α : Type} (S : Scheme σ) (t : Table) (row : List Assignment) (h : Host)
    (call : Attempt Host α) (settings? : α → Host → Option σ) (free : Prop) : Prop where
  /-- An assignment that is not accepted ends the call with a fault of the usage, that of the first
  such one, and nothing has changed. -/
  refused : (∃ a ∈ row, ¬ t.Accepts a) →
    ∃ f, row.findSome? t.fault? = some f ∧ f.kind = .usage ∧ call.on h = (.error f, h)
  /-- The call succeeds exactly when every assignment is accepted and nothing else is in the way. -/
  succeeds_iff : (∃ x h', call.on h = (.ok x, h')) ↔ (∀ a ∈ row, t.Accepts a) ∧ free
  /-- The last assignment of each key decides. -/
  settled : ∀ x h', call.on h = (.ok x, h') → ∃ s, settings? x h' = some s ∧
    ∀ key shown, S.read s key = some shown ↔ t.Decides row key shown

namespace LayeringLemmas

/-- A call that ends with the fault of its settings, and goes on with them otherwise, is layered. -/
theorem layered_of_ofLayers {σ α : Type} {S : Scheme σ} {t : Table} {layers : List Layer}
    {params : List String} {h : Host} {call : Attempt Host α} {settings? : α → Host → Option σ}
    {free : Prop} (hfollows : S.Follows t)
    (herror : ∀ f, S.ofLayers layers params = .error f → call.on h = (.error f, h))
    (hok : ∀ s, S.ofLayers layers params = .ok s →
      ((∃ x h', call.on h = (.ok x, h')) ↔ free) ∧
        ∀ x h', call.on h = (.ok x, h') → settings? x h' = some s) :
    Layered S t (layers.flatMap Assignment.ofLayer ++ Assignment.ofParams params) h call settings?
      free := by
  have hsome : ∀ x h', call.on h = (.ok x, h') → ∃ s, S.ofLayers layers params = .ok s := by
    intro x h' hcall
    cases hs : S.ofLayers layers params with
    | ok s => exact ⟨s, rfl⟩
    | error f =>
      rw [herror f hs] at hcall
      cases hcall
  refine ⟨?_, ?_, fun x h' hcall => ?_⟩
  · rintro ⟨a, ha, haccepts⟩
    cases hf : (layers.flatMap Assignment.ofLayer ++ Assignment.ofParams params).findSome?
        t.fault? with
    | none =>
      exact absurd (Table.fault?_eq_none_iff.1 (List.findSome?_eq_none_iff.1 hf a ha)) haccepts
    | some f =>
      obtain ⟨b, -, hb⟩ := List.exists_of_findSome?_eq_some hf
      exact ⟨f, rfl, hfollows.kind_of_fault? hb, herror f (hfollows.ofLayers_error_iff.2 hf)⟩
  · constructor
    · rintro ⟨x, h', hcall⟩
      obtain ⟨s, hs⟩ := hsome x h' hcall
      exact ⟨(hfollows.ofLayers_ok_iff.1 hs).1, (hok s hs).1.1 ⟨x, h', hcall⟩⟩
    · rintro ⟨hrow, hfree⟩
      cases hs : S.ofLayers layers params with
      | ok s => exact (hok s hs).1.2 hfree
      | error f =>
        obtain ⟨a, ha, hfault⟩ :=
          List.exists_of_findSome?_eq_some (hfollows.ofLayers_error_iff.1 hs)
        cases (Table.fault?_eq_none_iff.2 (hrow a ha)).symm.trans hfault
  · obtain ⟨s, hs⟩ := hsome x h' hcall
    exact ⟨s, (hok s hs).2 x h' hcall, (hfollows.ofLayers_ok_iff.1 hs).2⟩

end LayeringLemmas

open LayeringLemmas

/-! ## 2. The three calls -/

namespace Host

/-- The settings of an open store. -/
def storeSettings? (s : StoreRef) (h : Host) : Option StoreSettings := do
  let db ← h.databases.get? s.database
  let handle ← db.handles.get? s.handle
  pure handle.settings

/-- The settings of an open database. -/
def databaseSettings? (d : Nat) (h : Host) : Option OpenSettings :=
  (h.databases.get? d).map (·.settings)

/-- A database is open and has a store of a name. -/
structure Finds (h : Host) (d : Nat) (name : String) (db : Database) (s : Store) : Prop where
  database : h.databases.get? d = some db
  notClosed : db.closed = false
  store : ∃ cell, db.storeNamed name = .ok (cell, s)

/-- The runtime is initialized, and a home holds a database. -/
structure HasHome (h : Host) (home : String) : Prop where
  runtime : h.runtime.isSome = true
  database : hasDatabase h.fs home = true

/-- A home holds a database, and its file writes a configuration. -/
structure Configured (h : Host) (home : String) (c : Config) : Prop extends h.HasHome home where
  config : h.fs.Configures home c

end Host

/-- The lock of a home can be taken, and the catalog and the data files of its stores read. -/
def FileSystem.Loadable (fs : FileSystem) (home : String) : Prop :=
  ∃ lock fs' catalog, (lockHome home).on fs = (.ok lock, fs') ∧
    (loadCatalog home).on fs' = (.ok catalog, fs') ∧
      ∀ r ∈ catalog.stores, ∃ tree, ((loadTree catalog r).on fs').1 = .ok tree

/-- The assignments in the configuration file of the runtime, if one is given. -/
inductive FileSystem.FileRow (fs : FileSystem) : Option String → List Assignment → Prop
  | none : fs.FileRow none []
  | file {path text : String} {layer : Layer} (htext : fs.Reads path text)
      (hlayer : Config.WrittenGlobal layer text) : fs.FileRow (some path) (Assignment.ofLayer layer)

namespace LayeringLemmas

theorem on_openStore {h : Host} {d : Nat} {db : Database} (hdb : h.databases.get? d = some db)
    (name : String) (params : List String) :
    (Host.openStore d name params).on h =
      (((Database.openStore name params).on db).1.map fun handle => ⟨d, handle⟩,
        { h with databases :=
            h.databases.modify d (fun _ => ((Database.openStore name params).on db).2) }) := by
  simp only [Host.openStore, Host.onDatabase, Host.onSite, Attempt.on_bind, Attempt.on_ofStep, hdb,
    Storage.onDatabase, Attempt.on_within]
  rcases (Database.openStore name params).on db with ⟨_ | _, db'⟩ <;> rfl

theorem databases_kept {h : Host} {d : Nat} {db : Database} (hdb : h.databases.get? d = some db) :
    { h with databases := h.databases.modify d fun _ => db } = h := by
  have hsame : h.databases.modify d (fun _ => db) = h.databases :=
    Pool.modify_eq_self fun a ha => Option.some.inj (hdb.symm.trans ha)
  rw [hsame]

end LayeringLemmas

theorem layered_openStore {h : Host} {d : Nat} {name : String} {db : Database} {s : Store}
    (hfinds : h.Finds d name db s) (params : List String) :
    Layered StoreSettings.scheme storeTable (db.config.storeRow name params) h
      (Host.openStore d name params) Host.storeSettings? (s.isOpen = false) := by
  obtain ⟨hdb, hclosed, cell, hstore⟩ := hfinds
  have hopen : db.checkOpen = .ok () := by
    unfold Database.checkOpen
    rw [hclosed]
    rfl
  rw [Config.storeRow_eq]
  refine layered_of_ofLayers follows_store (fun f hf => ?_) fun settings hsettings => ?_
  · have herror : (Database.openStore name params).on db = (.error f, db) := by
      simp only [Database.openStore, Attempt.on_bind, Attempt.on_get, Attempt.on_check, hopen,
        hstore, hf]
    rw [on_openStore hdb, herror]
    exact congrArg _ (databases_kept hdb)
  · by_cases hbusy : s.isOpen = true
    · have herror : (Database.openStore name params).on db =
          (.error (Fault.storeAlreadyOpen name), db) := by
        simp only [Database.openStore, Attempt.on_bind, Attempt.on_get, Attempt.on_check, hopen,
          hstore, hsettings, hbusy, ↓reduceIte, Attempt.on_throw]
      rw [on_openStore hdb, herror, hbusy]
      exact ⟨⟨fun ⟨_, _, hok⟩ => (nomatch hok), fun hfree => (nomatch hfree)⟩,
        fun _ _ hok => (nomatch hok)⟩
    · have hok : (Database.openStore name params).on db = (.ok db.handles.nextId,
          { db.modifyStore cell (fun s => { s with isOpen := true }) with
            handles := db.handles.add ⟨cell, settings⟩ }) := by
        simp only [Database.openStore, Attempt.on_bind, Attempt.on_get, Attempt.on_check, hopen,
          hstore, hsettings, if_neg hbusy]
        rfl
      rw [on_openStore hdb, hok]
      refine ⟨⟨fun _ => Bool.not_eq_true _ ▸ hbusy, fun _ => ⟨_, _, rfl⟩⟩, ?_⟩
      rintro x h' heq
      cases heq
      simp [Host.storeSettings?, hdb]

/-- A call that opens a store finds it. -/
theorem finds_of_openStore {h h' : Host} {d : Nat} {name : String} {params : List String}
    {x : StoreRef} (hok : (Host.openStore d name params).on h = (.ok x, h')) :
    ∃ db s, h.Finds d name db s := by
  cases hdb : h.databases.get? d with
  | none =>
    simp only [Host.openStore, Host.onDatabase, Host.onSite, Attempt.on_bind, Attempt.on_ofStep,
      hdb] at hok
    cases hok
  | some db =>
    rw [on_openStore hdb] at hok
    rcases hon : (Database.openStore name params).on db with ⟨f | handle, db'⟩
    · rw [hon] at hok
      cases hok
    · obtain ⟨_, _, hget, hrest⟩ := Attempt.ok_of_bind hon
      cases hget
      obtain ⟨_, _, hopen, hrest⟩ := Attempt.ok_of_bind hrest
      obtain ⟨⟨cell, s⟩, _, hstore, -⟩ := Attempt.ok_of_bind hrest
      obtain ⟨hopen, rfl⟩ := Prod.mk.inj hopen
      refine ⟨db, s, hdb, ?_, cell, (Prod.mk.inj hstore).1⟩
      unfold Database.checkOpen at hopen
      split at hopen
      · cases hopen
      · next hclosed => exact Bool.not_eq_true _ ▸ hclosed

namespace LayeringLemmas

variable {h : Host} {home : String} {params : List String}

theorem on_onFiles {α : Type} (hruntime : h.runtime.isSome = true) (a : Attempt FileSystem α) :
    (Host.onFiles a).on h = ((a.on h.fs).1, { h with fs := (a.on h.fs).2 }) := by
  simp only [Host.onFiles, Host.checkInitialized, Attempt.on_bind, Attempt.on_get,
    Attempt.on_check, hruntime, ↓reduceIte]
  rfl

theorem on_openDatabase_ok (hruntime : h.runtime.isSome = true) {db : Database} {fs : FileSystem}
    (hopen : (Storage.openDatabase home params).on h.fs = (.ok db, fs)) :
    (Host.openDatabase home params).on h =
      (.ok h.databases.nextId, { h with fs, databases := h.databases.add db }) := by
  rw [Host.openDatabase, Attempt.on_bind, on_onFiles hruntime, hopen]
  rfl

theorem on_openDatabase_error (hruntime : h.runtime.isSome = true) {f : Fault} {fs : FileSystem}
    (hopen : (Storage.openDatabase home params).on h.fs = (.error f, fs)) :
    (Host.openDatabase home params).on h = (.error f, { h with fs }) := by
  rw [Host.openDatabase, Attempt.on_bind, on_onFiles hruntime, hopen]

/-- A call that opens a database opens it in the files. -/
theorem openDatabase_inv {h' : Host} {d : Nat}
    (hok : (Host.openDatabase home params).on h = (.ok d, h')) :
    h.runtime.isSome = true ∧ ∃ db fs, (Storage.openDatabase home params).on h.fs = (.ok db, fs) ∧
      d = h.databases.nextId ∧ h' = { h with fs, databases := h.databases.add db } := by
  cases hruntime : h.runtime.isSome with
  | false =>
    simp only [Host.openDatabase, Host.onFiles, Host.checkInitialized, Attempt.on_bind,
      Attempt.on_get, Attempt.on_check, hruntime] at hok
    cases hok
  | true =>
    rcases hopen : (Storage.openDatabase home params).on h.fs with ⟨f | db, fs⟩
    · rw [on_openDatabase_error hruntime hopen] at hok
      cases hok
    · rw [on_openDatabase_ok hruntime hopen] at hok
      cases hok
      exact ⟨rfl, db, fs, rfl, rfl, rfl⟩

theorem same_withStores (home : String) (settings : OpenSettings) (config : Config)
    (catalog : Catalog) (lock : Nat) (tree : StoreRecord → VersionTree) :
    (Database.withStores { home, settings, config, catalog, lock } tree).settings = settings ∧
      (Database.withStores { home, settings, config, catalog, lock } tree).config = config := by
  rw [(Database.attached_withStores home settings config catalog lock tree).same]
  exact ⟨rfl, rfl⟩

/-- What a database has that was opened with a configuration that reads. -/
theorem settings_of_openDatabase {fs fs' : FileSystem} {c : Config} {settings : OpenSettings}
    {db : Database} (hdb : hasDatabase fs home = true)
    (hc : ((loadConfig home).on fs).1 = .ok c)
    (hsettings : OpenSettings.scheme.ofLayers [c.database] params = .ok settings)
    (hopen : (Storage.openDatabase home params).on fs = (.ok db, fs')) :
    db.settings = settings ∧ db.config = c := by
  obtain ⟨_, _, catalog, lock, hlock, hcatalog, htrees, -⟩ := openDatabase_spec hopen
  rw [openDatabase_ok hdb hc hsettings hlock hcatalog htrees] at hopen
  cases hopen
  exact same_withStores home settings c catalog lock _

end LayeringLemmas

theorem layered_openDatabase {h : Host} {home : String} {c : Config} (hc : h.Configured home c)
    (params : List String) :
    Layered OpenSettings.scheme databaseTable (c.databaseRow params) h
      (Host.openDatabase home params) Host.databaseSettings? (h.fs.Loadable home) := by
  obtain ⟨⟨hruntime, hdb⟩, hconfig⟩ := hc
  have hconfig := loadConfig_eq_ok_iff.2 hconfig
  have hrow : c.databaseRow params =
      [c.database].flatMap Assignment.ofLayer ++ Assignment.ofParams params := by
    rw [List.flatMap_singleton]
    rfl
  rw [hrow]
  refine layered_of_ofLayers follows_database (fun f hf => ?_) fun settings hsettings => ⟨?_, ?_⟩
  · exact on_openDatabase_error hruntime (openDatabase_refused hdb hconfig hf)
  · constructor
    · rintro ⟨d, h', hok⟩
      obtain ⟨-, db, fs', hopen, -, -⟩ := openDatabase_inv hok
      obtain ⟨_, _, catalog, lock, hlock, hcatalog, htrees, -⟩ := openDatabase_spec hopen
      exact ⟨lock, fs', catalog, hlock, hcatalog, htrees⟩
    · rintro ⟨lock, fs', catalog, hlock, hcatalog, htrees⟩
      exact ⟨_, _, on_openDatabase_ok hruntime
        (openDatabase_ok hdb hconfig hsettings hlock hcatalog htrees)⟩
  · intro d h' hok
    obtain ⟨-, db, fs', hopen, rfl, rfl⟩ := openDatabase_inv hok
    unfold Host.databaseSettings?
    rw [Pool.get?_add_nextId]
    exact congrArg some (settings_of_openDatabase hdb hconfig hsettings hopen).1

/-- A call that opens a database has read its configuration, and the database keeps it. -/
theorem configured_of_openDatabase {h h' : Host} {home : String} {params : List String} {d : Nat}
    (hok : (Host.openDatabase home params).on h = (.ok d, h')) :
    ∃ db, h'.databases.get? d = some db ∧ h.Configured home db.config := by
  obtain ⟨hruntime, db, fs', hopen, rfl, rfl⟩ := openDatabase_inv hok
  obtain ⟨_, _, hrequire, hrest⟩ := Attempt.ok_of_bind hopen
  obtain ⟨rfl, hdb⟩ := on_requireDatabase_ok hrequire
  obtain ⟨c, _, hconfig, hrest⟩ := Attempt.ok_of_bind hrest
  have hconfig' : ((loadConfig home).on h.fs).1 = .ok c := by rw [hconfig]
  obtain ⟨settings, _, hsettings, -⟩ := Attempt.ok_of_bind hrest
  have hkept := (settings_of_openDatabase hdb hconfig' (Prod.mk.inj hsettings).1 hopen).2
  exact ⟨db, Pool.get?_add_nextId _ _, ⟨hruntime, hdb⟩, hkept ▸ loadConfig_eq_ok_iff.1 hconfig'⟩

/-- A home whose file writes no configuration is not opened. -/
theorem openDatabase_unconfigured {h : Host} {home : String} (hhome : h.HasHome home)
    (hnone : ∀ c, ¬ h.fs.Configures home c) (params : List String) :
    ∃ f, (Host.openDatabase home params).on h = (.error f, h) ∧
      ((∃ text, h.fs.Reads (configFile home) text) → f.kind = .usage) := by
  cases hload : ((loadConfig home).on h.fs).1 with
  | ok c => exact absurd (loadConfig_eq_ok_iff.1 hload) (hnone c)
  | error f =>
    have hconfig : (loadConfig home).on h.fs = (.error f, h.fs) :=
      Prod.ext hload (on_loadConfig home h.fs)
    have hopen : (Storage.openDatabase home params).on h.fs = (.error f, h.fs) := by
      simp only [Storage.openDatabase, Attempt.on_bind, hconfig,
        on_requireDatabase_of_hasDatabase hhome.database]
    refine ⟨f, on_openDatabase_error hhome.runtime hopen, ?_⟩
    rintro ⟨text, htext⟩
    have hmalformed := loadConfig_malformed htext fun c hc => hnone c (.file htext hc)
    obtain rfl := Except.error.inj (hload.symm.trans hmalformed)
    rfl

namespace LayeringLemmas

theorem on_loadGlobalConfig (path : String) (fs : FileSystem) :
    ((loadGlobalConfig path).on fs).2 = fs := by
  simp only [loadGlobalConfig, Attempt.ask, Attempt.on_bind, Attempt.on_ofStep]
  cases (readText fs path).mapError (Fault.system · path) with
  | error f => rfl
  | ok text =>
    simp only
    cases Config.globalOfText? text <;> rfl

theorem on_init_none {h : Host} (hruntime : h.runtime = none) (params : List String) :
    (Host.init none params).on h =
      match GlobalSettings.scheme.ofLayers [] params with
      | .ok settings => (.ok (), { h with runtime := some settings })
      | .error f => (.error f, h) := by
  have hnone : h.runtime.isNone = true := Option.isNone_iff_eq_none.2 hruntime
  simp only [Host.init, Attempt.on_bind, Attempt.on_get, hnone, ↓reduceIte, Attempt.on_pure,
    Attempt.on_check]
  cases GlobalSettings.scheme.ofLayers [] params <;> rfl

theorem on_init_some {h : Host} (hruntime : h.runtime = none) (path : String)
    (params : List String) :
    (Host.init (some path) params).on h =
      match ((loadGlobalConfig path).on h.fs).1 with
      | .error f => (.error f, h)
      | .ok layer =>
        match GlobalSettings.scheme.ofLayers [layer] params with
        | .ok settings => (.ok (), { h with runtime := some settings })
        | .error f => (.error f, h) := by
  have hnone : h.runtime.isNone = true := Option.isNone_iff_eq_none.2 hruntime
  obtain ⟨r, hload⟩ : ∃ r, (loadGlobalConfig path).on h.fs = (r, h.fs) :=
    ⟨_, Prod.ext rfl (on_loadGlobalConfig path h.fs)⟩
  simp only [Host.init, Attempt.on_bind, Attempt.on_get, hnone, ↓reduceIte, Attempt.on_within,
    hload]
  cases r with
  | error f => rfl
  | ok layer =>
    simp only [Attempt.on_pure, Attempt.on_check]
    cases GlobalSettings.scheme.ofLayers [layer] params <;> rfl

end LayeringLemmas

theorem layered_init {h : Host} {file : Option String} {fields : List Assignment}
    (hruntime : h.runtime = none) (hfile : h.fs.FileRow file fields) (params : List String) :
    Layered GlobalSettings.scheme runtimeTable (fields ++ Assignment.ofParams params) h
      (Host.init file params) (fun _ h' => h'.runtime) True := by
  obtain ⟨layers, hlayers, hon⟩ : ∃ layers : List Layer,
      layers.flatMap Assignment.ofLayer = fields ∧ (Host.init file params).on h =
        match GlobalSettings.scheme.ofLayers layers params with
        | .ok settings => (.ok (), { h with runtime := some settings })
        | .error f => (.error f, h) := by
    cases hfile with
    | none => exact ⟨[], rfl, on_init_none hruntime params⟩
    | @file path text layer htext hlayer =>
      refine ⟨[layer], List.flatMap_singleton _ _, ?_⟩
      rw [on_init_some hruntime, loadGlobalConfig_eq_ok_iff.2 ⟨text, htext, hlayer⟩]
  rw [← hlayers]
  refine layered_of_ofLayers follows_runtime (fun f hf => ?_) fun settings hsettings => ?_
  · rw [hon, hf]
  · rw [hon, hsettings]
    refine ⟨⟨fun _ => trivial, fun _ => ⟨_, _, rfl⟩⟩, fun x h' hok => ?_⟩
    cases hok
    rfl

/-- A call that initializes the runtime has read the file. -/
theorem fileRow_of_init {h h' : Host} {file : Option String} {params : List String}
    (hruntime : h.runtime = none) (hok : (Host.init file params).on h = (.ok (), h')) :
    ∃ fields, h.fs.FileRow file fields := by
  cases file with
  | none => exact ⟨[], .none⟩
  | some path =>
    cases hload : ((loadGlobalConfig path).on h.fs).1 with
    | ok layer =>
      obtain ⟨text, htext, hlayer⟩ := loadGlobalConfig_eq_ok_iff.1 hload
      exact ⟨_, .file htext hlayer⟩
    | error f =>
      rw [on_init_some hruntime, hload] at hok
      cases hok

/-- A file that writes no configuration of the runtime does not initialize it. -/
theorem init_unconfigured {h : Host} {path : String} (hruntime : h.runtime = none)
    (hnone : ∀ fields, ¬ h.fs.FileRow (some path) fields) (params : List String) :
    ∃ f, (Host.init (some path) params).on h = (.error f, h) ∧
      ((∃ text, h.fs.Reads path text) → f.kind = .usage) := by
  cases hload : ((loadGlobalConfig path).on h.fs).1 with
  | ok layer =>
    obtain ⟨text, htext, hlayer⟩ := loadGlobalConfig_eq_ok_iff.1 hload
    exact absurd (.file htext hlayer) (hnone _)
  | error f =>
    refine ⟨f, by rw [on_init_some hruntime, hload], ?_⟩
    rintro ⟨text, htext⟩
    have hmalformed := loadGlobalConfig_malformed htext fun layer hlayer =>
      hnone _ (.file htext hlayer)
    obtain rfl := Except.error.inj (hload.symm.trans hmalformed)
    rfl

theorem init_again {h : Host} (hruntime : h.runtime.isSome = true) (file : Option String)
    (params : List String) : (Host.init file params).on h = (.ok (), h) := by
  have hsome : ¬ h.runtime.isNone = true := fun hnone =>
    Option.isSome_iff_ne_none.1 hruntime (Option.isNone_iff_eq_none.1 hnone)
  simp only [Host.init, Attempt.on_bind, Attempt.on_get, if_neg hsome]
  rfl

/-! ## 3. Configurations of open databases -/

/-- No step changes the configuration of a database. -/
theorem Step.config_eq {db db' : Database} {L L' : Ledger} (h : Step db L db' L') :
    db'.config = db.config := by
  cases h with
  | @commit t c hc hdoomed =>
    obtain ⟨cells, published, heq, -⟩ := publish_same db c
    rw [Database.endCycle, heq]
  | _ => rfl

theorem Steps.config_eq {db db' : Database} {L L' : Ledger} (h : Steps db L db' L') :
    db'.config = db.config := by
  induction h with
  | refl => rfl
  | tail _ hstep ih => exact hstep.config_eq.trans ih

theorem config_play (events : List Event) (s : Site) (L : Ledger) :
    (play events s L).1.db.config = s.db.config := by
  induction events generalizing s L with
  | nil => rfl
  | cons e rest ih => exact (ih _ _).trans (e.steps s L).config_eq

/-! ## 4. The law -/

/-- What the layers of settings make of the calls that have them. The rows have the assignments that
the configuration files write; but of several fields of one name in a section, and of several sections
of one name, they have the last one only (`Json.Section`, `Json.Sections`). -/
structure LayeringLaw : Prop where
  /-- The settings of a store that is found come from the sections of the configuration and the
  parameters; only a handle on the store can be in the way. -/
  store : ∀ {h d name db s}, h.Finds d name db s → ∀ params,
    Layered StoreSettings.scheme storeTable (db.config.storeRow name params) h
      (Host.openStore d name params) Host.storeSettings? (s.isOpen = false)
  /-- A store that is opened was found. -/
  finds : ∀ {h d name params r h'}, (Host.openStore d name params).on h = (.ok r, h') →
    ∃ db s, h.Finds d name db s
  /-- The settings of a database come from the configuration that the file of its home writes and the
  parameters; only the lock and the files that are read under it can be in the way. -/
  database : ∀ {h home c}, h.Configured home c → ∀ params,
    Layered OpenSettings.scheme databaseTable (c.databaseRow params) h
      (Host.openDatabase home params) Host.databaseSettings? (h.fs.Loadable home)
  /-- A database that is opened was configured, and has the configuration that was written. -/
  configured : ∀ {h home params d h'}, (Host.openDatabase home params).on h = (.ok d, h') →
    ∃ db, h'.databases.get? d = some db ∧ h.Configured home db.config
  /-- A home whose file writes no configuration is not opened, and nothing has changed; a text in the
  file is a fault of the usage then. -/
  unconfigured : ∀ {h home}, h.HasHome home → (∀ c, ¬ h.fs.Configures home c) → ∀ params,
    ∃ f, (Host.openDatabase home params).on h = (.error f, h) ∧
      ((∃ text, h.fs.Reads (configFile home) text) → f.kind = .usage)
  /-- A database keeps its configuration, whatever happens to it. -/
  kept : ∀ events s L, (play events s L).1.db.config = s.db.config
  /-- The settings of the runtime come from what the file writes and the parameters; nothing else can
  be in the way. -/
  runtime : ∀ {h file fields}, h.runtime = none → h.fs.FileRow file fields → ∀ params,
    Layered GlobalSettings.scheme runtimeTable (fields ++ Assignment.ofParams params) h
      (Host.init file params) (fun _ h' => h'.runtime) True
  /-- A runtime that is initialized has read the file. -/
  fileRow : ∀ {h file params h'}, h.runtime = none →
    (Host.init file params).on h = (.ok (), h') → ∃ fields, h.fs.FileRow file fields
  /-- A file that writes no fields does not initialize it, and nothing has changed. -/
  noFileRow : ∀ {h path}, h.runtime = none → (∀ fields, ¬ h.fs.FileRow (some path) fields) →
    ∀ params, ∃ f, (Host.init (some path) params).on h = (.error f, h) ∧
      ((∃ text, h.fs.Reads path text) → f.kind = .usage)
  /-- A runtime that was initialized stays as it is, whatever the file and the parameters are. -/
  again : ∀ {h}, h.runtime.isSome = true → ∀ file params,
    (Host.init file params).on h = (.ok (), h)

/-! ### A home with a configuration -/

/-- A home with one store and a configuration file. -/
def homeWith (conf : Json) : FileSystem where
  entries := .ofList [(["db"], .directory), (["db", "capacity"], .directory),
    (["db", "kvdb.conf"], .file 0 (Bytes.ofText (conf.pretty 0))), (["db", "kvdb.lock"], .file 1 []),
    (["db", "kvdb.meta"], .file 2 (Bytes.ofText smallDatabase.catalog.text))]
  nextInode := 3

/-- A process that has opened nothing yet. -/
def hostWith (conf : Json) : Host := { runtime := some {}, fs := homeWith conf }

theorem configured_hostWith {conf : Json} {c : Config} (hplain : conf.Plain)
    (hc : Config.ofJson? conf.reread = some c) : (hostWith conf).Configured "/db" c where
  runtime := rfl
  database := rfl
  config := .file ⟨0, _, rfl, Utf8.decode?_ofText _⟩
    ⟨_, hplain.writtenAs, Config.ofJson?_eq_some_iff.1 hc⟩

/-- The home can be opened, and has its store then. -/
theorem opened_hostWith {conf : Json} {c : Config} {params : List String} {settings : OpenSettings}
    (hc : (hostWith conf).Configured "/db" c)
    (hsettings : OpenSettings.scheme.ofLayers [c.database] params = .ok settings) :
    ∃ h db s, (Host.openDatabase "/db" params).on (hostWith conf) = (.ok 0, h) ∧
      h.Finds 0 "a" db s ∧ s.isOpen = false ∧ db.config = c := by
  have hlock : (lockHome "/db").on (homeWith conf) =
      (.ok 1, { homeWith conf with locked := [1] }) := lockHome_free rfl List.not_mem_nil
  have hcatalog : (loadCatalog "/db").on { homeWith conf with locked := [1] } =
      (.ok smallDatabase.catalog, { homeWith conf with locked := [1] }) := by
    rw [loadCatalog_ok ⟨2, _, rfl, Utf8.decode?_ofText _⟩,
      Catalog.ofText_text ⟨by decide, by decide⟩]
  have htree : ∀ r ∈ smallDatabase.catalog.stores, ∃ tree,
      ((loadTree smallDatabase.catalog r).on { homeWith conf with locked := [1] }).1 = .ok tree := by
    intro r hr
    rw [List.mem_singleton.1 hr]
    exact ⟨{}, loadTree_ok_iff.2 (.missing 1)⟩
  have hopen := openDatabase_ok hc.database (loadConfig_eq_ok_iff.2 hc.config) hsettings hlock
    hcatalog htree
  exact ⟨_, _, _, on_openDatabase_ok rfl hopen, ⟨rfl, rfl, 0, rfl⟩, rfl, rfl⟩

/-- A configuration for opening the database and for its store. -/
def layeredConf : Json :=
  .record
    [("kvdb", .record [("read_only", .ofString "true"), ("txn_timeout", .ofNat 5)]),
      ("kvs", .record
        [("a", .record [("transactions.enabled", .ofString "false")]),
          ("default", .record [("transactions.enabled", .ofString "true")])])]

/-- What it says. -/
def layeredConfig : Config where
  database := .ofList
    [("read_only", (Json.ofString "true").reread), ("txn_timeout", (Json.ofNat 5).reread)]
  stores := .ofList
    [("a", .ofList [("transactions.enabled", (Json.ofString "false").reread)]),
      ("default", .ofList [("transactions.enabled", (Json.ofString "true").reread)])]

theorem layeredConf_plain : layeredConf.Plain := by
  have hswitch : ∀ key word, Json.Plain (.record [(key, .ofString word)]) := fun key word =>
    .record (List.forall_mem_singleton.2 (.text word))
  refine .record (List.forall_mem_cons.2 ⟨?_, List.forall_mem_singleton.2 ?_⟩)
  · exact .record (List.forall_mem_cons.2 ⟨.text _, List.forall_mem_singleton.2 (.nat (by decide))⟩)
  · exact .record (List.forall_mem_cons.2 ⟨hswitch _ _, List.forall_mem_singleton.2 (hswitch _ _)⟩)

/-- A configuration with two words on one parameter in one section. -/
def repeatedConf : Json :=
  .record [("kvs", .record [("a", .record
    [("transactions.enabled", .ofString "no"), ("transactions.enabled", .ofString "true")])])]

/-- The second word is all that it says. -/
def repeatedConfig : Config where
  stores := .ofList [("a", .ofList [("transactions.enabled", (Json.ofString "true").reread)])]

theorem repeatedConf_plain : repeatedConf.Plain :=
  .record (List.forall_mem_singleton.2 (.record (List.forall_mem_singleton.2 (.record
    (List.forall_mem_cons.2 ⟨.text _, List.forall_mem_singleton.2 (.text _)⟩)))))

/-- The fields of a record read back. -/
theorem fields_reread (fields : List (String × Json)) :
    (Json.record fields).reread.Fields (fields.map fun e => (e.1, e.2.reread)) :=
  Json.namedFields?_eq_some_iff.1 (Json.namedFields?_reread fields)

/-- **The last assignment of each key decides, and one assignment at fault is one too many.** The
settings of a store are the defaults, then the section for every store, then the store's own one
unless it is that one, then the parameters; those of a database and of the runtime likewise. A call
fails for its settings exactly when some assignment is malformed, unknown or of the wrong type, also
when a later one would do; then the store is not open, no lock is held, and the runtime is not
initialized, for nothing has changed. A file that writes no configuration ends a call likewise. -/
theorem layering_law : LayeringLaw where
  store := layered_openStore
  finds := finds_of_openStore
  database := layered_openDatabase
  configured := configured_of_openDatabase
  unconfigured := openDatabase_unconfigured
  kept := config_play
  runtime := layered_init
  fileRow := fileRow_of_init
  noFileRow := init_unconfigured
  again := init_again

/-- The database is opened with what its file says and the parameter, and its store with the section
of its own. -/
theorem layering_law_hostWith :
    ∃ h r h' s s',
      (Host.openDatabase "/db" ["txn_timeout = 7"]).on (hostWith layeredConf) = (.ok 0, h) ∧
      Host.databaseSettings? 0 h = some s ∧ OpenSettings.scheme.read s "read_only" = some "true" ∧
      OpenSettings.scheme.read s "txn_timeout" = some "7" ∧
      (Host.openStore 0 "a" []).on h = (.ok r, h') ∧ Host.storeSettings? r h' = some s' ∧
      StoreSettings.scheme.read s' "transactions.enabled" = some "false" := by
  have hconfigured := configured_hostWith layeredConf_plain (c := layeredConfig) rfl
  have hsettings : OpenSettings.scheme.ofLayers [layeredConfig.database] ["txn_timeout = 7"] =
      .ok { readOnly := true, txnTimeout := 7 } := by decide +kernel
  obtain ⟨h, db, st, hopen, hfinds, hfree, hconfig⟩ := opened_hostWith hconfigured hsettings
  have hdatabase := layering_law.database hconfigured ["txn_timeout = 7"]
  have hstore := layering_law.store hfinds []
  have hreadOnly : databaseTable.Sets (.field "read_only" (Json.ofString "true").reread) "read_only"
    "true" := Table.sets_iff.2 ⟨_, rfl, rfl⟩
  have hfive : databaseTable.Sets (.field "txn_timeout" (Json.ofNat 5).reread) "txn_timeout" "5" :=
    Table.sets_iff.2 ⟨_, rfl, rfl⟩
  have hseven : databaseTable.Sets (.text "txn_timeout = 7") "txn_timeout" "7" :=
    Table.sets_iff.2 ⟨_, rfl, rfl⟩
  have hyes : storeTable.Sets (.field "transactions.enabled" (Json.ofString "true").reread)
    "transactions.enabled" "true" := Table.sets_iff.2 ⟨_, rfl, rfl⟩
  have hno : storeTable.Sets (.field "transactions.enabled" (Json.ofString "false").reread)
    "transactions.enabled" "false" := Table.sets_iff.2 ⟨_, rfl, rfl⟩
  have hrow : db.config.storeRow "a" [] =
      [.field "transactions.enabled" (Json.ofString "true").reread,
        .field "transactions.enabled" (Json.ofString "false").reread] := by
    rw [hconfig]
    rfl
  rw [hrow] at hstore
  obtain ⟨s, hs, hread⟩ := hdatabase.settled _ _ hopen
  obtain ⟨r, h', hopened⟩ := hstore.succeeds_iff.2
    ⟨List.forall_mem_cons.2 ⟨⟨_, _, hyes⟩, List.forall_mem_singleton.2 ⟨_, _, hno⟩⟩, hfree⟩
  obtain ⟨s', hs', hread'⟩ := hstore.settled _ _ hopened
  refine ⟨h, r, h', s, s', hopen, hs, (hread _ _).2 ?_, (hread _ _).2 ?_, hopened, hs',
    (hread' _ _).2 ?_⟩
  · have hfive' : ∀ other, ¬ databaseTable.Sets _ "read_only" other := fun other hother =>
      absurd (hfive.unique hother).1 (by decide)
    have hseven' : ∀ other, ¬ databaseTable.Sets _ "read_only" other := fun other hother =>
      absurd (hseven.unique hother).1 (by decide)
    exact .last (show _ = [] ++ _ from rfl) hreadOnly
      (List.forall_mem_cons.2 ⟨hfive', List.forall_mem_singleton.2 hseven'⟩)
  · exact .last (show _ = [_, _] ++ _ from rfl) hseven fun b hb => absurd hb List.not_mem_nil
  · exact .last (show _ = [_] ++ _ from rfl) hno fun b hb => absurd hb List.not_mem_nil

/-- The file of a home has an assignment at fault in the section of a store, and yet the store is
opened: the field is not the last one of its name. -/
theorem overridden_field_not_judged :
    (hostWith repeatedConf).fs.Reads (configFile "/db") (repeatedConf.pretty 0) ∧
      (∃ j stores fields no yes : Json, j.WrittenAs (repeatedConf.pretty 0) ∧
        j.Fields [("kvs", stores)] ∧ stores.Fields [("a", fields)] ∧
        fields.Fields [("transactions.enabled", no), ("transactions.enabled", yes)] ∧
        ¬ storeTable.Accepts (.field "transactions.enabled" no)) ∧
      ∃ h r h', (Host.openDatabase "/db" []).on (hostWith repeatedConf) = (.ok 0, h) ∧
        (Host.openStore 0 "a" []).on h = (.ok r, h') := by
  refine ⟨⟨0, _, rfl, Utf8.decode?_ofText _⟩, ⟨_, _, _, _, _, repeatedConf_plain.writtenAs,
    fields_reread _, fields_reread _, fields_reread _, fun haccepts => ?_⟩, ?_⟩
  · have hfault : storeTable.fault? (.field "transactions.enabled" (Json.ofString "no").reread) =
        some (Fault.notABoolean "transactions.enabled" "no") := rfl
    cases (Table.fault?_eq_none_iff.2 haccepts).symm.trans hfault
  · have hconfigured := configured_hostWith repeatedConf_plain (c := repeatedConfig) rfl
    have hsettings : OpenSettings.scheme.ofLayers [repeatedConfig.database] [] = .ok {} := by
      decide +kernel
    obtain ⟨h, db, st, hopen, hfinds, hfree, hconfig⟩ := opened_hostWith hconfigured hsettings
    have hyes : storeTable.Sets (.field "transactions.enabled" (Json.ofString "true").reread)
      "transactions.enabled" "true" := Table.sets_iff.2 ⟨_, rfl, rfl⟩
    have hrow : ∀ a ∈ db.config.storeRow "a" [], storeTable.Accepts a := by
      rw [hconfig]
      exact List.forall_mem_singleton.2 ⟨_, _, hyes⟩
    obtain ⟨r, h', hopened⟩ := (layered_openStore hfinds []).succeeds_iff.2 ⟨hrow, hfree⟩
    exact ⟨h, r, h', hopen, hopened⟩

/-- A configuration that turns transactions on in every store, with another word on that for the
store `a`. -/
def sectionedConfig (word : Json) : Config where
  stores := .ofList
    [("default", .ofList [("transactions.enabled", .bool true)]),
      ("a", .ofList [("transactions.enabled", word)])]

/-- A process that has a database open with such a configuration. -/
def sectionedHost (word : Json) : Host :=
  { databases := ⟨[some { smallDatabase with config := sectionedConfig word }]⟩ }

-- The section of the store has the last word when there are no parameters.
example : Host.storeSettings? ⟨0, 0⟩
    ((Host.openStore 0 "a" []).on (sectionedHost (.bool false))).2 =
      some { transactional := false } := by rfl

-- A section at fault is not made good by the parameter that would override it.
example : ((Host.openStore 0 "a" ["transactions.enabled=true"]).on
    (sectionedHost (.ofString "no"))).1 =
      .error (Fault.notABoolean "transactions.enabled" "no") := by rfl

end SnapshotKv
