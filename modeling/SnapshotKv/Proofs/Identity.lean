import SnapshotKv.Proofs.Durability
import SnapshotKv.Proofs.Occupancy

/-!
# The identity of stores

A store has a number in the catalog, and what transactions buffer and lock goes by this number. The
next number to give is kept in the catalog file, so it outlives a closed database, and no number is
given out twice. Only the catalog file matters for this: data files may fail to be written, or be
changed by others.

Results:
1. `HoldsCatalog`, `InPlace`: the catalog of a home, and the open database that goes with it.
2. `InPlace.next`: what a call does to it, one lemma for each kind of call; `InPlace.opened`.
3. `Lineage`: the openings of a database with the stores that were made in them; `Lineage.settled`.
4. `store_ids_never_reused`: the stores of an open database agree with its catalog, and a store takes
   nothing from what transactions have written to another one, whatever their names are.
-/

namespace SnapshotKv

open Storage FileSystem OnDiskLemmas

/-! ## 1. Catalogs and the databases that go with them -/

/-- What the catalog says of a store. -/
def Store.record (s : Store) : StoreRecord :=
  { name := s.name, id := s.id, prefixLength := s.prefixLength }

/-- The catalog file of a home has a catalog that is sound and within its limits. -/
structure HoldsCatalog (fs : FileSystem) (home : String) (c : Catalog) : Prop where
  sound : c.Sound
  count : c.stores.length ≤ Limits.storeCount
  nextId : c.nextId < Unsigned.limit
  reads : fs.Reads (catalogFile home) c.text

/-- An open database, writable or not, lists its stores in its catalog, which is on disk. -/
structure InPlace (home : String) (s : Site) : Prop where
  place : s.db.home = home
  listed : s.db.Listed
  catalog : HoldsCatalog s.fs home s.db.catalog

/-- How the catalog and the stores of a database go on: at most one store is made or dropped, and the
others stay what they are. -/
structure GoesOn (s s' : Site) : Prop where
  catalog : s'.db.catalog = s.db.catalog ∨
    (∃ name len, s'.db.catalog = s.db.catalog.withRecord name len) ∨
    ∃ name, s'.db.catalog = s.db.catalog.without name
  cells : ∀ i st', s'.db.cells.get? i = some st' →
    (∃ st, s.db.cells.get? i = some st ∧ st'.record = st.record) ∨
      st'.record ∈ s'.db.catalog.stores

namespace IdentityLemmas

variable {home : String} {fs fs' : FileSystem} {c : Catalog}

theorem record_eq {st : Store} {r : StoreRecord} (hname : st.name = r.name)
    (hlen : st.prefixLength = r.prefixLength) (hid : st.id = r.id) : st.record = r := by
  rw [Store.record, hname, hlen, hid]

theorem holdsCatalog_congr (h : HoldsCatalog fs home c)
    (he : fs'.entryAt (catalogFile home) = fs.entryAt (catalogFile home)) : HoldsCatalog fs' home c :=
  { h with reads := h.reads.congr he }

theorem loadCatalog_of_holds (h : HoldsCatalog fs home c) :
    (loadCatalog home).on fs = (.ok c, fs) := by
  rw [loadCatalog_ok h.reads, Catalog.ofText_text (h.sound.fits h.nextId)]

theorem holdsCatalog_withRecord (h : HoldsCatalog fs home c) {name : String} {len : Nat}
    (hname : Limits.checkName name = .ok ()) (hnew : c.find? name = none)
    (hlen : len ≤ Limits.prefixLength) (hcount : c.stores.length < Limits.storeCount)
    (hnext : c.nextId + 1 < Unsigned.limit)
    (hreads : fs'.Reads (catalogFile home) (c.withRecord name len).text) :
    HoldsCatalog fs' home (c.withRecord name len) where
  sound := h.sound.withRecord hname hnew hlen
  count := by
    unfold Catalog.withRecord
    rw [List.length_append]
    exact hcount
  nextId := hnext
  reads := hreads

theorem holdsCatalog_without (h : HoldsCatalog fs home c) (name : String)
    (hreads : fs'.Reads (catalogFile home) (c.without name).text) :
    HoldsCatalog fs' home (c.without name) where
  sound := h.sound.without name
  count := Nat.le_trans (List.length_filter_le _ _) h.count
  nextId := h.nextId
  reads := hreads

theorem goesOn_of_cells {s s' : Site} (hcatalog : s'.db.catalog = s.db.catalog)
    (hcells : ∀ i st', s'.db.cells.get? i = some st' →
      ∃ st, s.db.cells.get? i = some st ∧ st'.record = st.record) : GoesOn s s' :=
  ⟨.inl hcatalog, fun i st' hs' => .inl (hcells i st' hs')⟩

theorem goesOn_refl (s : Site) : GoesOn s s := goesOn_of_cells rfl fun _ st hs => ⟨st, hs, rfl⟩

theorem goesOn_of_map {s s' : Site} (hcatalog : s'.db.catalog = s.db.catalog)
    (hcells : s'.db.cells.map Store.record = s.db.cells.map Store.record) : GoesOn s s' :=
  goesOn_of_cells hcatalog fun _ _ hs' => Pool.get?_of_map_eq hcells hs'

/-- Saving a store leaves the catalog and the records of the stores. -/
theorem same_saved {s s₀ : Site} {cell : Nat} {o : Except Fault Unit × Site} (hends : Saved s cell o)
    (h : s.db.catalog = s₀.db.catalog ∧ s.db.cells.map Store.record = s₀.db.cells.map Store.record) :
    o.2.db.catalog = s₀.db.catalog ∧
      o.2.db.cells.map Store.record = s₀.db.cells.map Store.record := by
  cases hends with
  | skipped hclean | unwritten hs hdirty hfile => exact h
  | written hs hdirty hfile =>
    exact ⟨h.1, (Pool.map_modify_of_eq s.db.cells cell (g := Store.clean) fun _ => rfl).trans h.2⟩

end IdentityLemmas

open IdentityLemmas

/-! ## 2. Calls -/

/-- No store is made or dropped by halves, and others leave the catalog file as it is. -/
def Event.Orderly (home : String) (s : Site) : Event → Prop
  | .files fs => fs.entryAt (catalogFile home) = s.fs.entryAt (catalogFile home)
  | .call now c => c.listsStores = true → ∀ f, (Event.call now c).answer s = .error f →
      Cause.systemCall ∉ f.causes

namespace InPlace

variable {home : String} {s s' : Site}

theorem files (h : InPlace home s) {fs : FileSystem}
    (he : fs.entryAt (catalogFile home) = s.fs.entryAt (catalogFile home)) :
    InPlace home { s with fs } :=
  ⟨h.place, h.listed, holdsCatalog_congr h.catalog he⟩

theorem retained (h : InPlace home s) (hretains : Retains s.db s'.db) (hfs : s'.fs = s.fs)
    (hfound : ∀ name cell, s'.db.stores.get? name = some cell →
      ∃ st, s'.db.cells.get? cell = some st) : InPlace home s' ∧ GoesOn s s' := by
  constructor
  · refine ⟨hretains.home.trans h.place, h.listed.retained hretains hfound, ?_⟩
    rw [hretains.catalog, hfs]
    exact h.catalog
  · refine goesOn_of_cells hretains.catalog fun i st' hs' => ?_
    obtain ⟨st, hs, hkept⟩ := hretains.cells i st' hs'
    exact ⟨st, hs, record_eq hkept.name hkept.prefixLength hkept.id⟩

theorem created (h : InPlace home s) {name : String} {params : List String}
    {o : Except Fault Unit × Site} (hends : Creation s name params o)
    (hnext : s.db.catalog.nextId + 1 < Unsigned.limit)
    (hfiles : ∀ f, o.1 = .error f → Cause.systemCall ∉ f.causes) :
    InPlace home o.2 ∧ GoesOn s o.2 := by
  cases hends with
  | refused hcheck => exact ⟨h, goesOn_refl s⟩
  | unwritten hcheck hfile =>
    have hname := (Database.checkCreate_eq_ok_iff.1 hcheck).sound
    have hfault := (replaceFile_spec (isName_dataFileName hname) _ _ _ hfile).2.1 _ rfl
    exact absurd hfault.1 (hfiles _ rfl)
  | unsaved hcheck hfile hsave =>
    have hfault := (replaceFile_spec isName_catalog _ _ _ hsave).2.1 _ rfl
    exact absurd hfault.1 (hfiles _ rfl)
  | @made len fs fs' hcheck hfile hsave =>
    obtain ⟨-, -, hname, hshape, hnew, hcount⟩ := Database.checkCreate_eq_ok_iff.1 hcheck
    constructor
    · exact ⟨h.place, h.listed.withStore name len, holdsCatalog_withRecord h.catalog hname hnew
        (prefixLength_le_of_ofPairs hshape) hcount hnext (h.place ▸ reads_of_saveCatalog hsave)⟩
    · refine ⟨.inr (.inl ⟨name, len, rfl⟩), fun i st' hs' => ?_⟩
      rcases Pool.get?_add_eq_some hs' with hs' | ⟨-, rfl⟩
      · exact .inl ⟨st', hs', rfl⟩
      · exact .inr (List.mem_append_right _ (List.mem_singleton_self _))

/-- A data file of a store that can be found has a proper name. -/
theorem isName_of_found (h : InPlace home s) {name : String} {cell : Nat}
    (hfound : s.db.stores.get? name = some cell) : Path.IsName (dataFileName name) := by
  obtain ⟨-, r, -, hr, rfl, -⟩ := h.listed.stores name cell hfound
  exact isName_dataFileName (h.catalog.sound.named r hr)

theorem removed (h : InPlace home s) {name : String} {o : Except Fault Unit × Site}
    (hends : Removal s name o) (hfiles : ∀ f, o.1 = .error f → Cause.systemCall ∉ f.causes) :
    InPlace home o.2 ∧ GoesOn s o.2 := by
  cases hends with
  | refused hcheck => exact ⟨h, goesOn_refl s⟩
  | unsaved hcheck hsave =>
    have hfault := (replaceFile_spec isName_catalog _ _ _ hsave).2.1 _ rfl
    exact absurd hfault.1 (hfiles _ rfl)
  | unremoved hcheck hsave hfile =>
    obtain ⟨cell, st, hcan⟩ := Database.canDrop_of_checkDrop hcheck
    have hfault := (removeIfExists_spec (h.isName_of_found hcan.found) _ _ hfile).1 _ rfl
    exact absurd hfault.1 (hfiles _ rfl)
  | dropped hcheck hsave hfile =>
    obtain ⟨cell, st, hcan⟩ := Database.canDrop_of_checkDrop hcheck
    have htouches := ((removeIfExists_spec (h.isName_of_found hcan.found) _ _ hfile).2 rfl).1
    have hother : "kvdb.meta" ∉ [dataFileName name] := fun hmem =>
      ne_of_getLast getLast_catalog (getLast_dataFileName name) (by decide) (List.mem_singleton.1 hmem)
    have hreads := h.place ▸ reads_of_saveCatalog hsave
    exact ⟨⟨h.place, h.listed.without name, holdsCatalog_without h.catalog name
        (hreads.congr (htouches.entryAt isName_catalog hother))⟩,
      .inr (.inr ⟨name, rfl⟩), fun i st hs => .inl ⟨st, hs, rfl⟩⟩

/-- Saving a store ended, well or not. -/
theorem saved (h : InPlace home s) {cell : Nat} {o : Except Fault Unit × Site}
    (hcell : cell ∈ s.db.stores.values) (hends : Saved s cell o) : InPlace home o.2 := by
  have hentry : ∀ {st : Store} {r : Except Fault Unit} {fs : FileSystem},
      s.db.cells.get? cell = some st →
      (saveDataFile (s.db.catalog.dataFile st.name) st.prefixLength
        (st.tree.liveRecords s.db.published)).on s.fs = (r, fs) →
      fs.entryAt (catalogFile home) = s.fs.entryAt (catalogFile home) := by
    intro st r fs hs hfile
    obtain ⟨name, hname⟩ := (SortedMap.mem_values_iff _).1 hcell
    obtain ⟨st₀, -, hs₀, -, -, rfl, -⟩ := h.listed.stores name cell hname
    obtain rfl := Option.some.inj (hs.symm.trans hs₀)
    exact (touches_of_replaceFile (h.isName_of_found hname) hfile).entryAt isName_catalog
      (untouched_by_dataFile st.name getLast_catalog (by decide))
  cases hends with
  | skipped hclean => exact h
  | unwritten hs hdirty hfile => exact h.files (hentry hs hfile)
  | written hs hdirty hfile =>
    exact ⟨h.place, h.listed.modify cell (fun _ => rfl) (fun _ => rfl) fun _ => rfl,
      holdsCatalog_congr h.catalog (hentry hs hfile)⟩

theorem sync (h : InPlace home s) :
    InPlace home (Storage.sync.on s).2 ∧ GoesOn s (Storage.sync.on s).2 := by
  obtain ⟨hplace, hcatalog, hcells⟩ := sync_induct
    (P := fun s' => InPlace home s' ∧ s'.db.catalog = s.db.catalog ∧
      s'.db.cells.map Store.record = s.db.cells.map Store.record)
    (fun _ _ _ hcell hends h => ⟨h.1.saved hcell hends, same_saved hends h.2⟩) ⟨h, rfl, rfl⟩
  exact ⟨hplace, goesOn_of_map hcatalog hcells⟩

theorem close (h : InPlace home s) :
    InPlace home (Storage.close.on s).2 ∧ GoesOn s (Storage.close.on s).2 := by
  rw [on_close]
  split
  · exact ⟨h, goesOn_refl s⟩
  · have hmarked : InPlace home ⟨{ s.db with closed := true }, s.fs⟩ :=
      ⟨h.place, ⟨h.listed.stores, h.listed.catalog⟩, h.catalog⟩
    obtain ⟨hplace, hcatalog, hcells⟩ := persist_induct
      (P := fun s' => InPlace home s' ∧ s'.db.catalog = s.db.catalog ∧
        s'.db.cells.map Store.record = s.db.cells.map Store.record)
      (fun _ _ _ hcell hends h => ⟨h.1.saved hcell hends, same_saved hends h.2⟩)
      ⟨hmarked, rfl, rfl⟩
    exact ⟨hplace.files (entryAt_locked _ _ _), goesOn_of_map hcatalog hcells⟩

/-- An orderly event leaves the database in place, with at most one store more or less. -/
theorem next {L : Ledger} (h : InPlace home s) (hrun : Run s L) {e : Event}
    (hnext : s.db.catalog.nextId + 1 < Unsigned.limit) (horderly : e.Orderly home s) :
    InPlace home (e.next s) ∧ GoesOn s (e.next s) := by
  cases e with
  | files fs => exact ⟨h.files horderly, goesOn_of_cells rfl fun _ st hs => ⟨st, hs, rfl⟩⟩
  | call now c =>
    cases hwrites : c.writesFiles with
    | false =>
      obtain ⟨hretains, hfs⟩ := c.retains hwrites now s
      have hrun' := Run.step (.call now c) hrun
      exact h.retained hretains hfs (Registry.of_reached hrun'.reached).found
    | true =>
      cases c with
      | createStore name params =>
        rw [Event.next, Event.attempt, Call.attempt, Attempt.on_map]
        exact h.created (creation s name params) hnext
          fun f hf => horderly rfl f (DurabilityLemmas.error_of_map hf)
      | dropStore name =>
        rw [Event.next, Event.attempt, Call.attempt, Attempt.on_map]
        exact h.removed (removal s name) fun f hf => horderly rfl f (DurabilityLemmas.error_of_map hf)
      | sync =>
        rw [Event.next, Event.attempt, Call.attempt, Attempt.on_map]
        exact h.sync
      | close =>
        rw [Event.next, Event.attempt, Call.attempt, Attempt.on_map]
        exact h.close
      | _ => cases hwrites

/-- A database that was opened has the catalog of its home, and a store for each record. -/
theorem opened {fs fs' : FileSystem} {c : Catalog} {params : List String} {db : Database}
    (h : HoldsCatalog fs home c) (hopen : (openDatabase home params).on fs = (.ok db, fs')) :
    InPlace home ⟨db, fs'⟩ ∧ db.catalog = c ∧
      ∀ i st, db.cells.get? i = some st → st.record ∈ c.stores := by
  obtain ⟨config, settings, catalog, lock, hlock, hcatalog, -, hdb⟩ := openDatabase_spec hopen
  obtain ⟨-, -, -, hframe⟩ := lockHome_spec hlock
  have hholds : HoldsCatalog fs' home c := holdsCatalog_congr h
    (hframe _ _ isName_catalog (ne_of_getLast getLast_catalog getLast_lock (by decide)))
  obtain rfl : c = catalog := by
    rw [loadCatalog_of_holds hholds] at hcatalog
    exact Except.ok.inj (congrArg Prod.fst hcatalog)
  have hat := Database.attached_withStores home settings config c lock (LoadingLemmas.treeIn c fs')
  rw [← hdb] at hat
  have hrecord : ∀ i st, db.cells.get? i = some st → st.record ∈ c.stores := by
    intro i st hs
    obtain ⟨r, hr, rfl⟩ := (hat.cells i st).1 hs
    exact List.mem_of_getElem? hr
  have hsame : db.catalog = c ∧ db.home = home := by
    rw [hat.same]
    exact ⟨rfl, rfl⟩
  refine ⟨⟨hsame.2, ⟨fun name cell hname => ?_, fun r hr => ?_⟩, ?_⟩, hsame.1, hrecord⟩
  · obtain ⟨r, hr, rfl⟩ := hat.stores name cell hname
    exact ⟨_, r, (hat.cells cell _).2 ⟨r, hr, rfl⟩, hsame.1.symm ▸ List.mem_of_getElem? hr, rfl, rfl,
      rfl, rfl⟩
  · exact hat.found r (hsame.1 ▸ hr)
  · exact hsame.1.symm ▸ hholds

end InPlace

/-! ## 3. The openings of a database -/

/-- The stores that an event makes: the catalog has their records after it, and had not before. -/
def Event.births (e : Event) (s : Site) : List StoreRecord :=
  (e.next s).db.catalog.stores.filter fun r => r ∉ s.db.catalog.stores

/-- The stages that a database in a home can be at after it was made, with all stores that were made
until then, those that were dropped again among them. A database is opened and left any number of
times, writable or not. -/
inductive Lineage (home : String) : List StoreRecord → Stage → Prop
  | made {params : List String} {fs fs' : FileSystem}
      (hmade : (create home params).on fs = (.ok (), fs')) : Lineage home [] (.closed fs')
  /-- Others leave the catalog file alone while the database is closed. -/
  | changed {born : List StoreRecord} {fs fs' : FileSystem} (h : Lineage home born (.closed fs))
      (hcatalog : fs'.entryAt (catalogFile home) = fs.entryAt (catalogFile home)) :
      Lineage home born (.closed fs')
  | opened {born : List StoreRecord} {params : List String} {fs fs' : FileSystem} {db : Database}
      (h : Lineage home born (.closed fs))
      (hopen : (openDatabase home params).on fs = (.ok db, fs')) :
      Lineage home born (.opened ⟨db, fs'⟩ (Ledger.opened db))
  | event {born : List StoreRecord} {s : Site} {L : Ledger} (e : Event)
      (h : Lineage home born (.opened s L)) (hnext : s.db.catalog.nextId + 1 < Unsigned.limit)
      (horderly : e.Orderly home s) :
      Lineage home (born ++ e.births s) (.opened (e.next s) (L.after s e))
  /-- An open database can be left at any time, closed or not. -/
  | left {born : List StoreRecord} {s : Site} {L : Ledger} (h : Lineage home born (.opened s L)) :
      Lineage home born (.closed s.fs)

/-- A catalog lists some of the stores that were made, and no number was given out twice. -/
structure Catalog.Issued (c : Catalog) (born : List StoreRecord) : Prop where
  distinct : (born.map (·.id)).Nodup
  below : ∀ r ∈ born, r.id < c.nextId
  stores : ∀ r ∈ c.stores, r ∈ born

namespace Catalog.Issued

variable {c c' : Catalog} {born : List StoreRecord}

theorem withRecord (h : c.Issued born) (name : String) (len : Nat) :
    (c.withRecord name len).Issued (born ++ [{ name, id := c.nextId, prefixLength := len }]) where
  distinct := by
    rw [List.map_append, List.nodup_append]
    refine ⟨h.distinct, List.nodup_singleton _, ?_⟩
    intro id hid id' hid' heq
    obtain ⟨r, hr, rfl⟩ := List.mem_map.1 hid
    have hlt := h.below r hr
    rw [heq, List.mem_singleton.1 hid'] at hlt
    exact Nat.lt_irrefl _ hlt
  below := fun r hr => by
    rcases List.mem_append.1 hr with hr | hr
    · exact Nat.lt_succ_of_lt (h.below r hr)
    · rw [List.mem_singleton.1 hr]
      exact Nat.lt_succ_self _
  stores := fun r hr => by
    rcases List.mem_append.1 hr with hr | hr
    · exact List.mem_append_left _ (h.stores r hr)
    · exact List.mem_append_right _ hr

theorem without (h : c.Issued born) (name : String) : (c.without name).Issued born :=
  ⟨h.distinct, h.below, fun r hr => h.stores r (List.mem_of_mem_filter hr)⟩

end Catalog.Issued

namespace IdentityLemmas

variable {s : Site} {born : List StoreRecord} {e : Event}

/-- The number of a new store is above all that were given out, so its record is new. -/
theorem filter_withRecord {c : Catalog} (h : c.Issued born) (name : String) (len : Nat) :
    (c.withRecord name len).stores.filter (fun r => r ∉ c.stores) =
      [{ name, id := c.nextId, prefixLength := len }] := by
  have hnew : ({ name, id := c.nextId, prefixLength := len } : StoreRecord) ∉ c.stores :=
    fun hmem => Nat.lt_irrefl _ (h.below _ (h.stores _ hmem))
  have hold : c.stores.filter (fun r => r ∉ c.stores) = [] :=
    List.filter_eq_nil_iff.2 fun r hr => by simpa using hr
  simp only [Catalog.withRecord, List.filter_append, hold, List.nil_append, List.filter_cons, hnew,
    not_false_eq_true, decide_true, ↓reduceIte, List.filter_nil]

/-- The stores that were made with an event are noted with it. -/
theorem issued_next (h : s.db.catalog.Issued born) (hgoes : GoesOn s (e.next s)) :
    (e.next s).db.catalog.Issued (born ++ e.births s) := by
  unfold Event.births
  rcases hgoes.catalog with hcatalog | ⟨name, len, hcatalog⟩ | ⟨name, hcatalog⟩ <;> rw [hcatalog]
  · rw [List.filter_eq_nil_iff.2 fun r hr => by simpa using hr, List.append_nil]
    exact h
  · rw [filter_withRecord h]
    exact h.withRecord name len
  · have hnone : (s.db.catalog.without name).stores.filter (fun r => r ∉ s.db.catalog.stores) = [] :=
      List.filter_eq_nil_iff.2 fun r hr => by simpa using List.mem_of_mem_filter hr
    rw [hnone, List.append_nil]
    exact h.without name

end IdentityLemmas

/-- What all stages have in common. -/
def Stage.Settled (home : String) (born : List StoreRecord) : Stage → Prop
  | .closed fs => ∃ c, HoldsCatalog fs home c ∧ c.Issued born
  | .opened s L => Run s L ∧ InPlace home s ∧ s.db.catalog.Issued born ∧
      ∀ i st, s.db.cells.get? i = some st → st.record ∈ born

/-- At every stage the catalog is on disk, with the number to give next. -/
theorem Lineage.settled {home : String} {born : List StoreRecord} {stage : Stage}
    (h : Lineage home born stage) : stage.Settled home born := by
  induction h with
  | made hmade =>
    obtain ⟨c, hstores, hnext, hreads⟩ := create_spec hmade
    refine ⟨c, ⟨.of_nil hstores, ?_, ?_, hreads⟩, List.nodup_nil, (fun r hr => nomatch hr), ?_⟩
    · rw [hstores]
      exact Nat.zero_le _
    · rw [hnext]
      decide
    · rw [hstores]
      exact fun r hr => nomatch hr
  | changed _ hcatalog ih =>
    obtain ⟨c, hholds, hissued⟩ := ih
    exact ⟨c, holdsCatalog_congr hholds hcatalog, hissued⟩
  | opened _ hopen ih =>
    obtain ⟨c, hholds, hissued⟩ := ih
    obtain ⟨hplace, rfl, hcells⟩ := InPlace.opened hholds hopen
    exact ⟨.opened _ (opened_of_openDatabase hopen hholds.sound.numbered), hplace, hissued,
      fun i st hs => hissued.stores _ (hcells i st hs)⟩
  | event e _ hnext horderly ih =>
    obtain ⟨hrun, hplace, hissued, hcells⟩ := ih
    obtain ⟨hplace', hgoes⟩ := hplace.next hrun hnext horderly
    have hissued' := issued_next hissued hgoes
    refine ⟨.step e hrun, hplace', hissued', fun i st' hs' => ?_⟩
    rcases hgoes.cells i st' hs' with ⟨st, hs, heq⟩ | hlisted
    · exact heq ▸ List.mem_append_left _ (hcells i st hs)
    · exact hissued'.stores _ hlisted
  | left _ ih =>
    obtain ⟨-, hplace, hissued, -⟩ := ih
    exact ⟨_, hplace.catalog, hissued⟩

/-! ## 4. Identity -/

/-- The catalog, the stores and the handles of an open database agree. -/
structure Database.Coherent (db : Database) : Prop where
  names : db.catalog.names.Nodup
  valid : ∀ r ∈ db.catalog.stores, Limits.checkName r.name = .ok ()
  numbered : db.catalog.Numbered
  count : db.catalog.stores.length ≤ Limits.storeCount
  /-- Every entry of the catalog is that of the store which can be found under its name. -/
  listed : ∀ r ∈ db.catalog.stores, ∃ cell st, db.stores.get? r.name = some cell ∧
    db.cells.get? cell = some st ∧ st.record = r
  /-- Every store that can be found has its entry in the catalog. -/
  found : ∀ name cell, db.stores.get? name = some cell → ∃ st, db.cells.get? cell = some st ∧
    st.name = name ∧ st.record ∈ db.catalog.stores
  /-- A store has one handle at most. -/
  single : ∀ n m h h', db.handles.get? n = some h → db.handles.get? m = some h' →
    h.cell = h'.cell → n = m
  /-- A store is marked as open exactly when it has a handle. -/
  isOpen : ∀ cell st, db.cells.get? cell = some st →
    (st.isOpen = true ↔ ∃ n h, db.handles.get? n = some h ∧ h.cell = cell)

/-- A store that was just made, between two sites: its number was never given out before, nothing is
locked in it, and whatever happens, transactions write to it only through handles that are opened from
then on. -/
structure MadeNew (born : List StoreRecord) (L : Ledger) (name : String) (s s' : Site) : Prop where
  found : s'.db.stores.get? name = some s.db.cells.nextId
  store : ∃ st, s'.db.cells.get? s.db.cells.nextId = some st
  number : ∀ events st, (play events s' L).1.db.cells.get? s.db.cells.nextId = some st →
    st.id = s.db.catalog.nextId
  unused : ∀ r ∈ born, r.id ≠ s.db.catalog.nextId
  unlocked : ∀ l ∈ s'.db.locks.keys ++ s'.db.locks.prefixes, l.store ≠ s.db.catalog.nextId
  written : ∀ events t c, (play events s' L).1.db.txns.get? t = some (.active c) →
    ∀ w ∈ ((play events s' L).2.drafts t).writes, w.cell = s.db.cells.nextId →
      L.openings.length ≤ w.handle

theorem InPlace.coherent {home : String} {s : Site} {L : Ledger} (h : InPlace home s)
    (hrun : Run s L) : s.db.Coherent := by
  have hregistry := Registry.of_reached hrun.reached
  have hoccupancy := Occupancy.of_reached hrun.reached
  have hfound : ∀ name cell, s.db.stores.get? name = some cell → ∃ st, s.db.cells.get? cell = some st ∧
      st.name = name ∧ st.record ∈ s.db.catalog.stores := by
    intro name cell hname
    obtain ⟨st, r, hs, hr, rfl, hst, hlen, hid⟩ := h.listed.stores name cell hname
    exact ⟨st, hs, hst, (record_eq hst hlen hid).symm ▸ hr⟩
  constructor
  · exact h.catalog.sound.distinct
  · exact h.catalog.sound.named
  · exact h.catalog.sound.numbered
  · exact h.catalog.count
  · intro r hr
    obtain ⟨cell, hcell⟩ := h.listed.catalog r hr
    obtain ⟨st, hs, hst, hmem⟩ := hfound r.name cell hcell
    exact ⟨cell, st, hcell, hs, List.inj_on_of_nodup_map h.catalog.sound.distinct hmem hr hst⟩
  · exact hfound
  · exact hregistry.single
  · intro cell st hs
    constructor
    · exact hoccupancy.handle cell st hs
    · rintro ⟨n, hd, hn, rfl⟩
      obtain ⟨st', hs', hopen⟩ := hregistry.isOpen n hd hn
      exact Option.some.inj (hs'.symm.trans hs) ▸ hopen

/-- A store that was made is new in every respect. -/
theorem madeNew {home : String} {born : List StoreRecord} {s s' : Site} {L : Ledger}
    (h : Stage.Settled home born (.opened s L)) {now : Nat} {name : String} {params : List String}
    (hmade : ((Call.createStore name params).attempt now).on s = (.ok .done, s')) :
    MadeNew born L name s s' := by
  obtain ⟨hrun, -, hissued, -⟩ := h
  have hregistry := Registry.of_reached hrun.reached
  have hoccupancy := Occupancy.of_reached hrun.reached
  have hrun' : Run s' L := by
    have hstep := Run.step (.call now (.createStore name params)) hrun
    unfold Ledger.after Event.answer Event.next Event.attempt at hstep
    rw [hmade] at hstep
    exact hstep
  have hends := creation s name params
  rw [DurabilityLemmas.ok_of_map hmade] at hends
  cases hends with
  | @made len fs fs' hcheck hfile hsave =>
    constructor
    · simp [Database.withStore, attach]
    · exact ⟨_, cell_withStore s.db name len⟩
    · intro events st hs
      obtain ⟨st', hs', hid⟩ := (Endures.play hrun' events).ids _ _ (cell_withStore s.db name len)
      rw [Option.some.inj (hs.symm.trans hs'), hid]
      rfl
    · exact fun r hr => Nat.ne_of_lt (hissued.below r hr)
    · intro l hl
      obtain ⟨i, st, hs, hid⟩ := hoccupancy.locked l hl
      exact hid ▸ Nat.ne_of_lt (hregistry.id_lt i st hs)
    · intro events t c hc w hw hcell
      have hlater := Drafts.of_reached (hrun'.play events).reached
      have hopening := (hlater.opened t c hc w hw).1
      obtain ⟨newer, hnewer⟩ := (Endures.play hrun' events).openings
      by_contra hold
      -- a handle from before is on a store from before
      rw [← hnewer, List.getElem?_append_left (Nat.lt_of_not_le hold)] at hopening
      exact Nat.ne_of_lt (hoccupancy.opening _ (List.mem_of_getElem? hopening)) hcell

/-- Over all openings of a database in a home in which no store is made or dropped by halves: in an
open database the catalog, the stores and the handles agree, and of all stores that were ever made no
two have one number. What a transaction has written to a store is not seen by another store, and its
locks there refuse no write to another store, whatever the names of the two are; and a store that is
made is written only through handles that are opened after that. -/
theorem store_ids_never_reused {home : String} {born : List StoreRecord} {s : Site} {L : Ledger}
    (h : Lineage home born (.opened s L)) :
    s.db.Coherent ∧
    ((born.map (·.id)).Nodup ∧ (∀ r ∈ born, r.id < s.db.catalog.nextId) ∧ s.db.DistinctIds ∧
      ∀ cell st, s.db.cells.get? cell = some st → st.record ∈ born) ∧
    (∀ name cell st, s.db.stores.get? name = some cell → s.db.cells.get? cell = some st →
      Secluded s L cell st) ∧
    ∀ now name params s', ((Call.createStore name params).attempt now).on s = (.ok .done, s') →
      MadeNew born L name s s' := by
  have hsettled := h.settled
  obtain ⟨hrun, hplace, hissued, hcells⟩ := hsettled
  refine ⟨hplace.coherent hrun, ⟨hissued.distinct, hissued.below, ?_, hcells⟩, ?_, ?_⟩
  · exact (Registry.of_reached hrun.reached).ids
  · exact fun name cell st hname hs => hrun.secluded hname hs
  · exact fun now name params s' hmade => madeNew h.settled hmade

/-! ### A store that is made again -/

/-- The stores that some events make. -/
def birthsOf : List Event → Site → List StoreRecord
  | [], _ => []
  | e :: rest, s => e.births s ++ birthsOf rest (e.next s)

theorem Lineage.play {home : String} {born : List StoreRecord} {s : Site} {L : Ledger}
    (h : Lineage home born (.opened s L)) {events : List Event} (hwell : goesWell events s = true) :
    Lineage home (born ++ birthsOf events s) (.opened (play events s L).1 (play events s L).2) := by
  induction events generalizing born s L with
  | nil =>
    rw [birthsOf, List.append_nil]
    exact h
  | cons e rest ih =>
    cases e with
    | files fs => cases hwell
    | call now c =>
      simp only [goesWell, Bool.and_eq_true, decide_eq_true_eq] at hwell
      obtain ⟨⟨hbounded, hok⟩, hrest⟩ := hwell
      rw [birthsOf, ← List.append_assoc]
      refine ih (.event (.call now c) h hbounded.nextId fun _ f hf => ?_) hrest
      rw [hf] at hok
      cases hok

/-- A transaction writes to a store, which is closed and dropped then; another store is made under its
name, and opened, and another transaction begins. -/
def recreatedEvents : List Event :=
  [.call 0 (.createStore "a" []), .call 0 (.openStore "a" ["transactions.enabled=true"]),
    .call 0 .allocTxn, .call 0 (.beginTxn 0), .call 0 (.write 0 (some 0) (.put [107] [1])),
    .call 0 (.closeStore 0), .call 0 (.dropStore "a"), .call 0 (.createStore "a" []),
    .call 0 (.openStore "a" ["transactions.enabled=true"]), .call 0 .allocTxn, .call 0 (.beginTxn 1)]

/-- The database then, and what happened. -/
def recreated : Site × Ledger := play recreatedEvents firstSite (Ledger.opened firstSite.db)

theorem lineage_recreated :
    Lineage "/db" (birthsOf recreatedEvents firstSite) (.opened recreated.1 recreated.2) := by
  have hmade : (create "/db" []).on emptyHome = (.ok (), madeHome) :=
    Prod.fst_eq_iff.1 (by decide +kernel)
  have hwell : goesWell recreatedEvents firstSite = true := by decide +kernel
  have hplayed := Lineage.play (.opened (.made hmade) openDatabase_madeHome) hwell
  rw [List.nil_append] at hplayed
  exact hplayed

/-- What there is then: the second store under the name, a lock on the number of the first one, and the
write to it in the first transaction. -/
theorem recreated_spec : birthsOf recreatedEvents firstSite = [⟨"a", 1, 0⟩, ⟨"a", 2, 0⟩] ∧
    recreated.1.db.locks.keys = [⟨1, [107], 1⟩] ∧ recreated.1.db.stores.get? "a" = some 1 ∧
    (recreated.1.db.handles.get? 1).map (·.cell) = some 1 ∧
    (recreated.1.db.txns.get? 0).map (·.state) = some .active ∧
    (recreated.1.db.cells.get? 1).map (fun st => (st.id, st.tree.get [107] recreated.1.db.published)) =
      some (2, none) ∧
    (recreated.2.drafts 0).writes.map (fun w => (w.cell, w.change)) = [(0, .put [107] [1])] ∧
    ((Event.call 0 (.commitTxn 0)).answer recreated.1) = .ok .done ∧
    (Event.call 0 (.write 1 (some 1) (.put [107] [2]))).answer (recreated.1.lockedOn 2) =
      .ok .done := by decide +kernel

/-- The lock on the first store does not refuse a write to the second one, and the write to the first
store does not appear there when it is committed. -/
theorem store_ids_never_reused_recreated :
    (Event.call 0 (.write 1 (some 1) (.put [107] [2]))).answer recreated.1 = .ok .done ∧
    ∃ st, ((Event.call 0 (.commitTxn 0)).next recreated.1).db.cells.get? 1 = some st ∧
      st.tree.get [107] ((Event.call 0 (.commitTxn 0)).next recreated.1).db.published = none := by
  obtain ⟨-, -, hname, hhandle, hactive, hstore, hwrites, hdone, hanswer⟩ := recreated_spec
  obtain ⟨-, -, hsecluded, -⟩ := store_ids_never_reused lineage_recreated
  obtain ⟨st, hs, hst⟩ := Option.map_eq_some_iff.1 hstore
  obtain ⟨h, hh, hcell⟩ := Option.map_eq_some_iff.1 hhandle
  obtain ⟨x, hx, hstate⟩ := Option.map_eq_some_iff.1 hactive
  obtain ⟨c, rfl⟩ := (HoldingsLemmas.state_active_iff x).1 hstate
  obtain ⟨hid, hvalue⟩ := Prod.mk.inj hst
  have hstays := hsecluded "a" 1 st hname hs
  constructor
  · have hlocked := hstays.locked 0 1 h (some 1) (.put [107] [2]) hh hcell
    rw [hid, hanswer] at hlocked
    exact hlocked.symm
  · have hcommit : ((Call.commitTxn 0).attempt 0).on recreated.1 =
        (.ok .done, (Event.call 0 (.commitTxn 0)).next recreated.1) := Prod.fst_eq_iff.1 hdone
    obtain ⟨st', hs', hvalues⟩ := hstays.committed 0 0 c (.commitTxn 0) _ rfl hx hcommit
    have hnone : changesTo (recreated.2.drafts 0).writes 1 = [] := by
      refine DraftsLemmas.changesTo_eq_nil fun w hw => ?_
      have hmem := List.mem_map_of_mem (f := fun w => (w.cell, w.change)) hw
      rw [hwrites] at hmem
      have hfirst : w.cell = 0 := congrArg Prod.fst (List.mem_singleton.1 hmem)
      rw [hfirst]
      exact Nat.zero_ne_one
    have hafter : Change.after [] [107] (none : Option Bytes) = none := rfl
    have hvalue' := hvalues [107]
    rw [hnone, hvalue, hafter] at hvalue'
    exact ⟨st', hs', hvalue'⟩

end SnapshotKv
