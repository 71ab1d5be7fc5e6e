import SnapshotKv.Proofs.StoreCalls

/-!
# Failed calls on stores

What is left behind by a call that could not make or could not drop a store. When the catalog cannot
be saved the database is as it was, but for a number that no store gets. When the file operation on
the data file fails, the catalog in memory has changed already: a store that could not be made is
listed, and a store that could not be dropped is not.

Results:
1. `Database.SameButNextId`: databases that differ in the next number answer the same calls alike.
2. `createStore_error`: what a call leaves that could not make a store.
3. `dropStore_error`: what a call leaves that could not drop a store.
-/

namespace SnapshotKv

open Storage FileSystem

/-! ## 1. The number of the next store -/

/-- The database is the other one but for the number that the next store gets. -/
def Database.SameButNextId (db db' : Database) : Prop :=
  ∃ nextId, db' = { db with catalog := { db.catalog with nextId } }

/-- The names of the stores in a catalog. -/
def Catalog.names (c : Catalog) : List String := c.stores.map (·.name)

namespace FailedCallsLemmas

theorem names_withRecord (c : Catalog) (name : String) (prefixLength : Nat) :
    (c.withRecord name prefixLength).names = c.names ++ [name] := by
  simp [Catalog.names, Catalog.withRecord]

theorem names_without (c : Catalog) (name : String) :
    (c.without name).names = c.names.filter (· != name) := by
  unfold Catalog.names Catalog.without
  rw [List.filter_map]
  rfl

theorem find?_withRecord_isSome (c : Catalog) (name : String) (prefixLength : Nat) :
    ((c.withRecord name prefixLength).find? name).isSome = true := by
  simp [Catalog.find?, Catalog.withRecord]

/-- A store that is listed is not made again. -/
theorem checkCreate_of_listed {db : Database} {name : String} {params : List String}
    {shape : StoreShape} (hopen : db.checkOpen = .ok ()) (hwritable : db.checkWritable = .ok ())
    (hname : Limits.checkName name = .ok ())
    (hshape : StoreShape.scheme.ofPairs params = .ok shape)
    (hlisted : (db.catalog.find? name).isSome = true) :
    db.checkCreate name params = .error (Fault.storeExists name) := by
  unfold Database.checkCreate
  simp only [hopen, hwritable, hname, hshape, hlisted, bind, Except.bind, ↓reduceIte]
  rfl

/-- Whether a catalog can be saved does not depend on it. -/
theorem saveCatalog_answer (home : String) (c c' : Catalog) (fs : FileSystem) :
    ((saveCatalog home c).on fs).1 = ((saveCatalog home c').on fs).1 := by
  have h := (replaceFile_spec isName_catalog fs home (Bytes.ofText c.text) rfl).1
  have h' := (replaceFile_spec isName_catalog fs home (Bytes.ofText c'.text) rfl).1
  exact h.trans h'.symm

theorem storeNames_answer (s : Site) (now : Nat) :
    (Event.call now .storeNames).answer s =
      s.db.checkOpen.map fun _ => Reply.names s.db.catalog.names := by
  simp only [Event.answer, Event.attempt, Call.attempt, Attempt.on_map, on_ask, Database.storeNames]
  cases s.db.checkOpen <;> rfl

/-- Opening a store looks neither at the catalog nor at the files. -/
theorem openStore_answer_congr (s : Site) (c : Catalog) (fs : FileSystem) (store : String)
    (params : List String) (now : Nat) :
    (Event.call now (.openStore store params)).answer ⟨{ s.db with catalog := c }, fs⟩ =
      (Event.call now (.openStore store params)).answer s := by
  have hopen : Database.checkOpen { s.db with catalog := c } = s.db.checkOpen := rfl
  have hfound : Database.storeNamed { s.db with catalog := c } store = s.db.storeNamed store := rfl
  simp only [Event.answer, Event.attempt, Call.attempt, Attempt.on_map, on_onDatabase,
    Database.openStore, Attempt.on_bind, Attempt.on_get, Attempt.on_check, hopen, hfound]
  cases s.db.checkOpen with
  | error f => rfl
  | ok _ =>
    cases s.db.storeNamed store with
    | error f => rfl
    | ok found =>
      cases StoreSettings.scheme.ofLayers (s.db.config.layers store) params with
      | error f => rfl
      | ok settings =>
        obtain ⟨cell, found⟩ := found
        cases hbusy : found.isOpen with
        | true => simp only [hbusy, ↓reduceIte]; rfl
        | false => simp only [hbusy]; rfl

end FailedCallsLemmas

open FailedCallsLemmas

/-- What a call that makes a store answers, and the names that are listed then. -/
def namesAfterCreate (db : Database) (fs : FileSystem) (name : String) (params : List String) :
    Except Fault Unit × List String :=
  let o := (createStore name params).on ⟨db, fs⟩
  (o.1, o.2.db.catalog.names)

theorem namesAfterCreate_eq (db : Database) (fs : FileSystem) (name : String)
    (params : List String) :
    namesAfterCreate db fs name params =
      match db.checkCreate name params with
      | .error f => (.error f, db.catalog.names)
      | .ok len => match (saveDataFile (db.catalog.dataFile name) len []).on fs with
        | (.error f, _) => (.error f, db.catalog.names ++ [name])
        | (.ok (), fs) => match ((saveCatalog db.home (db.catalog.withRecord name len)).on fs).1 with
          | .error f => (.error f, db.catalog.names)
          | .ok () => (.ok (), db.catalog.names ++ [name]) := by
  unfold namesAfterCreate
  have hends := creation ⟨db, fs⟩ name params
  generalize (createStore name params).on ⟨db, fs⟩ = o at hends ⊢
  cases hends with
  | refused hcheck => simp only [hcheck]
  | unwritten hcheck hfile => simp only [hcheck, hfile, names_withRecord]
  | unsaved hcheck hfile hsave =>
    simp only [hcheck, hfile, hsave]
    rfl
  | made hcheck hfile hsave =>
    simp only [hcheck, hfile, hsave]
    exact congrArg _ (names_withRecord db.catalog name _)

theorem namesAfterCreate_congr {db db' : Database} (h : db.SameButNextId db') (fs : FileSystem)
    (name : String) (params : List String) :
    namesAfterCreate db' fs name params = namesAfterCreate db fs name params := by
  have hanswer : ∀ (c : Catalog) (fs : FileSystem) (len : Nat),
      ((saveCatalog db.home (c.withRecord name len)).on fs).1 =
        ((saveCatalog db.home (db.catalog.withRecord name len)).on fs).1 :=
    fun c fs len => saveCatalog_answer _ _ _ fs
  obtain ⟨n, rfl⟩ := h
  rw [namesAfterCreate_eq, namesAfterCreate_eq]
  simp only [hanswer { db.catalog with nextId := n }]
  rfl

/-- The names that are listed after a call that drops a store. -/
def namesAfterDrop (db : Database) (fs : FileSystem) (name : String) : List String :=
  ((dropStore name).on ⟨db, fs⟩).2.db.catalog.names

theorem namesAfterDrop_congr {db db' : Database} (h : db.SameButNextId db') (fs : FileSystem)
    (name : String) : namesAfterDrop db' fs name = namesAfterDrop db fs name := by
  have hnames : ∀ db : Database, namesAfterDrop db fs name =
      match db.checkDrop name with
      | .error _ => db.catalog.names
      | .ok _ => match ((saveCatalog db.home (db.catalog.without name)).on fs).1 with
        | .error _ => db.catalog.names
        | .ok _ => (db.catalog.without name).names := by
    intro db
    unfold namesAfterDrop
    have hends := removal ⟨db, fs⟩ name
    generalize (dropStore name).on ⟨db, fs⟩ = o at hends ⊢
    cases hends with
    | refused hcheck => rw [hcheck]
    | unsaved hcheck hsave | unremoved hcheck hsave hfile | dropped hcheck hsave hfile =>
      simp only [hcheck, hsave]
  obtain ⟨n, rfl⟩ := h
  rw [hnames, hnames, saveCatalog_answer _ _ (db.catalog.without name)]
  rfl

/-! ## 2. Stores that could not be made -/

/-- The data file of a new store could not be written. -/
def DataFileFault (s : Site) (name : String) (params : List String) (f : Fault) : Prop :=
  ∃ len, s.db.checkCreate name params = .ok len ∧
    ((saveDataFile (s.db.catalog.dataFile name) len []).on s.fs).1 = .error f

/-- A call that could not make a store leaves the stores that can be opened. Unless it was the data
file that could not be written it changes nothing but the number that the next store gets: the same
stores are listed, and on any files the same calls make and drop stores and the same names are listed,
and saved, after them. When it was the data file, the store is listed from then on, and making it
again is refused because it exists. -/
theorem createStore_error {s s' : Site} {now : Nat} {name : String} {params : List String}
    {f : Fault} (hfail : ((Call.createStore name params).attempt now).on s = (.error f, s')) :
    (∀ now store params, (Event.call now (.openStore store params)).answer s' =
      (Event.call now (.openStore store params)).answer s) ∧
    (¬ DataFileFault s name params f →
      s.db.SameButNextId s'.db ∧
      (∀ now, (Event.call now .storeNames).answer s' = (Event.call now .storeNames).answer s) ∧
      (∀ fs name params,
        namesAfterCreate s'.db fs name params = namesAfterCreate s.db fs name params) ∧
      ∀ fs name, namesAfterDrop s'.db fs name = namesAfterDrop s.db fs name) ∧
    (DataFileFault s name params f →
      (∀ now, (Event.call now .storeNames).answer s' =
        .ok (.names (s.db.catalog.names ++ [name]))) ∧
      ∀ fs params shape, StoreShape.scheme.ofPairs params = .ok shape →
        namesAfterCreate s'.db fs name params =
          (.error (Fault.storeExists name), s.db.catalog.names ++ [name])) := by
  simp only [Call.attempt, Attempt.on_map] at hfail
  have hends := creation s name params
  generalize (createStore name params).on s = o at hends hfail
  cases hends with
  | refused hcheck =>
    dsimp only at hfail
    cases hfail
    refine ⟨fun _ _ _ => rfl, fun _ => ?_, ?_⟩
    · exact ⟨⟨_, rfl⟩, fun _ => rfl, fun _ _ _ => rfl, fun _ _ => rfl⟩
    · rintro ⟨len, hok, -⟩
      rw [hcheck] at hok
      cases hok
  | @unwritten len f fs hcheck hfile =>
    dsimp only at hfail
    cases hfail
    refine ⟨fun now store params => openStore_answer_congr s _ _ store params now,
      fun hnot => ?_, fun _ => ⟨fun now => ?_, fun fs params shape hshape => ?_⟩⟩
    · exact absurd ⟨_, hcheck, by rw [hfile]⟩ hnot
    · have hopen := (Database.checkCreate_eq_ok_iff.1 hcheck).isOpen
      rw [storeNames_answer, names_withRecord]
      exact congrArg (Except.map _) hopen
    · have hcan := Database.checkCreate_eq_ok_iff.1 hcheck
      have hagain : Database.checkCreate
          { s.db with catalog := s.db.catalog.withRecord name len } name params =
            .error (Fault.storeExists name) :=
        checkCreate_of_listed hcan.isOpen hcan.writable hcan.sound hshape
          (find?_withRecord_isSome s.db.catalog name len)
      rw [namesAfterCreate_eq, hagain, names_withRecord]
  | unsaved hcheck hfile hsave =>
    dsimp only at hfail
    cases hfail
    have hsame : s.db.SameButNextId { s.db with catalog := s.db.catalog.skipId } := ⟨_, rfl⟩
    refine ⟨fun now store params => openStore_answer_congr s _ _ store params now, fun _ => ?_, ?_⟩
    · refine ⟨hsame, fun now => ?_, namesAfterCreate_congr hsame, namesAfterDrop_congr hsame⟩
      rw [storeNames_answer, storeNames_answer]
      rfl
    · rintro ⟨len', hok, herror⟩
      rw [hcheck] at hok
      cases hok
      rw [hfile] at herror
      cases herror
  | made hcheck hfile hsave => cases hfail

/-- The small database on files among which a directory is in the way. -/
def blockedAt (names : List String) : Site where
  db := smallDatabase
  fs.entries := .ofList
    [(["db"], .directory), (["db", "capacity"], .directory), (names, .directory)]

set_option maxRecDepth 10000 in
/-- The catalog cannot be saved: the new store is not listed. -/
theorem createStore_error_unsaved :
    (Event.call 0 (.createStore "b" [])).answer (blockedAt ["db", "kvdb.meta.tmp"]) =
        .error (Fault.system Errno.isDirectory "/db/kvdb.meta.tmp") ∧
      (Event.call 0 .storeNames).answer
          ((Event.call 0 (.createStore "b" [])).next (blockedAt ["db", "kvdb.meta.tmp"])) =
        .ok (.names ["a"]) := by
  have hfail : ((Call.createStore "b" []).attempt 0).on (blockedAt ["db", "kvdb.meta.tmp"]) =
    (.error (Fault.system Errno.isDirectory "/db/kvdb.meta.tmp"),
      (Event.call 0 (.createStore "b" [])).next (blockedAt ["db", "kvdb.meta.tmp"])) := rfl
  have hwritten : ((saveDataFile "/db/capacity/b.kvs" 0 []).on
    (blockedAt ["db", "kvdb.meta.tmp"]).fs).1 = .ok () := rfl
  obtain ⟨-, hkeeps, -⟩ := createStore_error hfail
  have hnot : ¬ DataFileFault (blockedAt ["db", "kvdb.meta.tmp"]) "b" []
      (Fault.system Errno.isDirectory "/db/kvdb.meta.tmp") := by
    rintro ⟨len, hok, herror⟩
    cases (rfl : (blockedAt ["db", "kvdb.meta.tmp"]).db.checkCreate "b" [] = .ok 0).symm.trans hok
    cases hwritten.symm.trans herror
  exact ⟨congrArg Prod.fst hfail, (hkeeps hnot).2.1 0⟩

set_option maxRecDepth 10000 in
/-- The data file cannot be written: the store that could not be made is listed, but it cannot be
opened. -/
theorem createStore_error_listed :
    (Event.call 0 (.createStore "b" [])).answer (blockedAt ["db", "capacity", "b.kvs.tmp"]) =
        .error (Fault.system Errno.isDirectory "/db/capacity/b.kvs.tmp") ∧
      (Event.call 0 .storeNames).answer (blockedAt ["db", "capacity", "b.kvs.tmp"]) =
        .ok (.names ["a"]) ∧
      (Event.call 0 .storeNames).answer
          ((Event.call 0 (.createStore "b" [])).next (blockedAt ["db", "capacity", "b.kvs.tmp"])) =
        .ok (.names ["a", "b"]) ∧
      (Event.call 0 (.openStore "b" [])).answer
          ((Event.call 0 (.createStore "b" [])).next (blockedAt ["db", "capacity", "b.kvs.tmp"])) =
        .error (Fault.noStore "b") := ⟨rfl, rfl, rfl, rfl⟩

/-! ## 3. Stores that could not be dropped -/

/-- The catalog was saved without a store whose data file could then not be removed. -/
def RemovalFault (s : Site) (name : String) (f : Fault) : Prop :=
  ∃ fs, s.db.checkDrop name = .ok () ∧
    (saveCatalog s.db.home (s.db.catalog.without name)).on s.fs = (.ok (), fs) ∧
    ((removeIfExists (s.db.catalog.dataFile name)).on fs).1 = .error f

/-- A call that could not drop a store leaves the database as it was, and every file but the
temporary one of the catalog, unless it was the data file that could not be removed. When it was, the
store is not listed from then on, while it can be found and opened as before. -/
theorem dropStore_error {s s' : Site} {now : Nat} {name : String} {f : Fault}
    (hfail : ((Call.dropStore name).attempt now).on s = (.error f, s')) :
    (¬ RemovalFault s name f →
      s'.db = s.db ∧
      ∀ base file, Path.IsName file → file ≠ temporary "kvdb.meta" → ∀ e,
        s'.fs.stat (Path.join base file) = .ok e ↔ s.fs.stat (Path.join base file) = .ok e) ∧
    (RemovalFault s name f →
      s'.db = { s.db with catalog := s.db.catalog.without name } ∧
      (∀ now, (Event.call now .storeNames).answer s' =
        .ok (.names (s.db.catalog.names.filter (· != name)))) ∧
      (∃ cell, s'.db.stores.get? name = some cell) ∧
      ∀ now store params, (Event.call now (.openStore store params)).answer s' =
        (Event.call now (.openStore store params)).answer s) := by
  simp only [Call.attempt, Attempt.on_map] at hfail
  have hends := removal s name
  generalize (dropStore name).on s = o at hends hfail
  cases hends with
  | refused hcheck =>
    dsimp only at hfail
    cases hfail
    refine ⟨fun _ => ⟨rfl, fun _ _ _ _ _ => Iff.rfl⟩, ?_⟩
    rintro ⟨fs, hok, -⟩
    rw [hcheck] at hok
    cases hok
  | unsaved hcheck hsave =>
    dsimp only at hfail
    cases hfail
    have htouches := ((replaceFile_spec isName_catalog _ _ _ hsave).2.1 _ rfl).2
    refine ⟨fun _ => ⟨rfl, fun base file hname hne e => ?_⟩, ?_⟩
    · exact htouches.stat_eq_ok_iff hname fun hmem => hne (List.mem_singleton.1 hmem)
    · rintro ⟨fs, -, hok, -⟩
      rw [hsave] at hok
      cases hok
  | unremoved hcheck hsave hfile =>
    dsimp only at hfail
    cases hfail
    refine ⟨fun hnot => absurd ⟨_, hcheck, hsave, by rw [hfile]⟩ hnot, fun _ => ⟨rfl, ?_, ?_, ?_⟩⟩
    · obtain ⟨cell, store, hcan⟩ := Database.canDrop_of_checkDrop hcheck
      intro now
      rw [storeNames_answer, names_without]
      exact congrArg (Except.map _) hcan.isOpen
    · obtain ⟨cell, store, hcan⟩ := Database.canDrop_of_checkDrop hcheck
      exact ⟨cell, hcan.found⟩
    · exact fun now store params => openStore_answer_congr s _ _ store params now
  | dropped hcheck hsave hfile => cases hfail

set_option maxRecDepth 10000 in
/-- The catalog cannot be saved: the store can still be opened. -/
theorem dropStore_error_unsaved :
    (Event.call 0 (.dropStore "a")).answer (blockedAt ["db", "kvdb.meta.tmp"]) =
        .error (Fault.system Errno.isDirectory "/db/kvdb.meta.tmp") ∧
      ((Event.call 0 (.dropStore "a")).next (blockedAt ["db", "kvdb.meta.tmp"])).db =
        smallDatabase := by
  have hfail : ((Call.dropStore "a").attempt 0).on (blockedAt ["db", "kvdb.meta.tmp"]) =
    (.error (Fault.system Errno.isDirectory "/db/kvdb.meta.tmp"),
      (Event.call 0 (.dropStore "a")).next (blockedAt ["db", "kvdb.meta.tmp"])) := rfl
  have hunsaved : ((saveCatalog "/db" (smallDatabase.catalog.without "a")).on
    (blockedAt ["db", "kvdb.meta.tmp"]).fs).1 =
      .error (Fault.system Errno.isDirectory "/db/kvdb.meta.tmp") := rfl
  refine ⟨congrArg Prod.fst hfail, ((dropStore_error hfail).1 ?_).1⟩
  rintro ⟨fs, -, hsave, -⟩
  cases hunsaved.symm.trans (congrArg Prod.fst hsave)

set_option maxRecDepth 10000 in
/-- The data file cannot be removed: the store is not listed any more, but it can be opened. -/
theorem dropStore_error_unlisted :
    (Event.call 0 (.dropStore "a")).answer (blockedAt ["db", "capacity", "a.kvs"]) =
        .error (Fault.system Errno.isDirectory "/db/capacity/a.kvs") ∧
      (Event.call 0 .storeNames).answer
          ((Event.call 0 (.dropStore "a")).next (blockedAt ["db", "capacity", "a.kvs"])) =
        .ok (.names []) ∧
      (Event.call 0 (.openStore "a" [])).answer
          ((Event.call 0 (.dropStore "a")).next (blockedAt ["db", "capacity", "a.kvs"])) =
        .ok (.number 0) := ⟨rfl, rfl, rfl⟩

end SnapshotKv
