import Mathlib.Data.Prod.Basic
import SnapshotKv.Proofs.Checked
import SnapshotKv.Proofs.OnDisk
import SnapshotKv.Proofs.ReadLaw

/-!
# Durability

The life of a database in a home: it is made, opened, used and closed, and opened again. Data files may
fail to be written at any time, but no store is made or dropped by halves, and nobody else changes the
files of the database. Then the home houses a database all along, and what was committed when the
database was closed with success is what it has when it is opened again.

Results:
1. `Run.savable`: what a run has committed can be saved.
2. `Life`: the lives of a database; `Life.lasting`: its files in all of them.
3. `committed_survives`: the committed contents of stores are on disk, and they come back.
-/

namespace SnapshotKv

open Storage FileSystem

/-! ## 1. What a run has committed -/

/-- What was loaded fits the format of data files. -/
def Ledger.Fits (L : Ledger) : Prop :=
  ∀ cell key v, L.loaded cell key = some v → DataFile.Fits (key, v)

namespace DurabilityLemmas

theorem loaded_after (L : Ledger) (s : Site) (e : Event) : (L.after s e).loaded = L.loaded := by
  unfold Ledger.after
  split
  · split <;> rfl
  · next c _ =>
    unfold Ledger.afterCall
    split <;> first | rfl | (split <;> rfl)
  · rfl

theorem fits_of_checked {key v : Bytes} (h : (Change.put key v).Checked) : DataFile.Fits (key, v) := by
  obtain ⟨hkey, hvalue⟩ := h
  constructor
  · simp only [Limits.checkKey] at hkey
    split at hkey
    · cases hkey
    · split at hkey
      · cases hkey
      · next hle => exact Nat.lt_of_le_of_lt (Nat.le_of_not_lt hle) (by decide)
  · simp only [Limits.checkValue] at hvalue
    split at hvalue
    · cases hvalue
    · next hle => exact Nat.lt_of_le_of_lt (Nat.le_of_not_lt hle) (by decide)

end DurabilityLemmas

open DurabilityLemmas

/-- A value that a store has was loaded, or it was put by a commit. -/
theorem Run.fits {s : Site} {L : Ledger} (hrun : Run s L) (hloaded : L.Fits) {cell : Nat} {st : Store}
    (hs : s.db.cells.get? cell = some st) {key v : Bytes}
    (hv : st.tree.get key s.db.published = some v) : DataFile.Fits (key, v) := by
  rw [(History.of_reached hrun.reached).current.get cell st key hs, landedValue] at hv
  rcases Change.put_of_after hv with hv | hput
  · exact hloaded cell key v hv
  · obtain ⟨c, hc, hput⟩ := List.mem_flatMap.1 hput
    have hwrite : .put key v ∈ changesTo c.writes cell := by
      unfold Commit.landed at hput
      split at hput
      · exact hput
      · cases hput
    obtain ⟨w, hw, hchange⟩ := List.mem_map.1 hwrite
    exact fits_of_checked
      (hchange ▸ hrun.checked.commits c (List.mem_of_mem_take hc) w (List.mem_of_mem_filter hw))

/-- What a run has committed can be saved. -/
theorem Run.savable {s : Site} {L : Ledger} (hrun : Run s L) (hloaded : L.Fits)
    (hbounded : s.db.Bounded) : s.db.Savable := by
  intro st hst
  refine ⟨fun r hr => ?_, hbounded.lengths st hst⟩
  obtain ⟨cell, -, hs⟩ := List.mem_filterMap.1 hst
  have hv : (st.tree.contents s.db.published).get? r.1 = some r.2 :=
    (SortedMap.mem_entries_iff _).1 hr
  rw [VersionTree.get?_contents] at hv
  exact hrun.fits hloaded hs hv

/-! ## 2. The life of a database -/

/-- A database between two openings, or open, with the ledger since it was opened. -/
inductive Stage where
  | closed (fs : FileSystem)
  | opened (s : Site) (L : Ledger)

/-- Whether a call makes or drops a store. -/
def Call.listsStores : Call → Bool
  | .createStore _ _ | .dropStore _ => true
  | _ => false

/-- Others do not change the files of the database or its lock, and no store is made or dropped by
halves. Calls may fail otherwise, and those that save contents may fail at any file. -/
def Event.Benign (home : String) (s : Site) : Event → Prop
  | .files fs => Undisturbed home s.db.catalog s.fs fs ∧
      fs.entryAt (lockFile home) = s.fs.entryAt (lockFile home) ∧
      fs.locked.count s.db.lock = s.fs.locked.count s.db.lock
  | .call now c => c.listsStores = true → ∀ f, (Event.call now c).answer s = .error f →
      Cause.systemCall ∉ f.causes

/-- The stages that a database in a home can be at after it was made. -/
inductive Life (home : String) : Stage → Prop
  | made {params : List String} {fs fs' : FileSystem}
      (hmade : (create home params).on fs = (.ok (), fs')) : Life home (.closed fs')
  /-- Others leave the files of the database alone while it is closed. -/
  | changed {fs fs' : FileSystem} (hlife : Life home (.closed fs))
      (hfiles : ∀ c, ((loadCatalog home).on fs).1 = .ok c → Undisturbed home c fs fs') :
      Life home (.closed fs')
  | opened {params : List String} {fs fs' : FileSystem} {db : Database}
      (hlife : Life home (.closed fs))
      (hopen : (openDatabase home params).on fs = (.ok db, fs'))
      (hwritable : db.settings.readOnly = false) :
      Life home (.opened ⟨db, fs'⟩ (Ledger.opened db))
  | event {s : Site} {L : Ledger} (e : Event) (hlife : Life home (.opened s L))
      (hbounded : s.db.Bounded) (hbenign : e.Benign home s) :
      Life home (.opened (e.next s) (L.after s e))
  /-- A database that was closed, with success or not, is left. -/
  | closed {s : Site} {L : Ledger} (hlife : Life home (.opened s L))
      (hclosed : s.db.closed = true) : Life home (.closed s.fs)

/-- What all stages have in common. -/
def Stage.Lasting (home : String) : Stage → Prop
  | .closed fs => ∃ c records, Houses fs home c records
  | .opened s L => Run s L ∧ OnDisk home s ∧ L.Fits

namespace DurabilityLemmas

variable {home : String} {s s' : Site} {L : Ledger}

theorem ok_of_map {a : Attempt Site Unit} {r r' : Reply}
    (h : ((fun _ => r) <$> a).on s = (.ok r', s')) : a.on s = (.ok (), s') := by
  rw [Attempt.on_map] at h
  cases ha : a.on s with
  | mk o s₁ =>
    rw [ha] at h
    cases o with
    | error f => cases h
    | ok _ =>
      cases h
      rfl

theorem error_of_map {α : Type} {a : Attempt Site α} {g : α → Reply} {f : Fault}
    (h : (a.on s).1 = .error f) : ((g <$> a).on s).1 = .error f := by
  rw [Attempt.on_map, h]
  rfl

/-- A database was opened in a home that houses one. -/
theorem lasting_opened {fs fs' : FileSystem} {c : Catalog} {records : String → SortedMap Bytes Bytes}
    {params : List String} {db : Database} (hhouses : Houses fs home c records)
    (hopen : (openDatabase home params).on fs = (.ok db, fs'))
    (hwritable : db.settings.readOnly = false) :
    Stage.Lasting home (.opened ⟨db, fs'⟩ (Ledger.opened db)) := by
  obtain ⟨hjust, hhouses', hfile, honce⟩ := hhouses.opened hopen
  have hcatalog := hjust.catalog
  subst hcatalog
  refine ⟨.opened fs' (opened_of_openDatabase hopen hhouses.sound.numbered), ?_, ?_⟩
  · constructor
    · exact hjust.home
    · exact hwritable
    · exact hjust.listed
    · exact ⟨records, hhouses'⟩
    · intro name cell st hname hs _
      obtain ⟨r, hr, rfl⟩ := (hjust.cells cell st).1 hs
      obtain ⟨r', hr', rfl⟩ := (hjust.stores name cell).1 hname
      obtain rfl := Option.some.inj (hr.symm.trans hr')
      have hcontents : (treeOfRecord records r).contents db.published = records r.name := by
        rw [hjust.published]
        exact VersionTree.contents_ofRecords _
      exact hcontents.symm ▸ hhouses'.stores r (List.mem_of_getElem? hr)
    · exact fun _ => ⟨hfile, honce⟩
  · intro cell key v hv
    obtain ⟨st, hs, hv⟩ := Option.bind_eq_some_iff.1 hv
    obtain ⟨r, hr, rfl⟩ := (hjust.cells cell st).1 hs
    have hvalue : (treeOfRecord records r).get key db.published = some v := hv
    rw [hjust.published, get_treeOfRecord] at hvalue
    exact (hhouses'.stores r (List.mem_of_getElem? hr)).fits hvalue

/-- A call or a change of files by others while a database is open. -/
theorem onDisk_next (hrun : Run s L) (hdisk : OnDisk home s) (hsavable : s.db.Savable)
    (hbounded : s.db.Bounded) {e : Event} (hbenign : e.Benign home s) : OnDisk home (e.next s) := by
  cases e with
  | files fs => exact hdisk.files hbenign.1 hbenign.2.1 hbenign.2.2
  | call now c =>
    cases hwrites : c.writesFiles with
    | false =>
      obtain ⟨hretains, hfs⟩ := c.retains hwrites now s
      have hrun' := Run.step (.call now c) hrun
      exact hdisk.retained hretains hfs (Registry.of_reached hrun'.reached).found
        (History.of_reached hrun.reached).upTo
    | true =>
      cases c with
      | createStore name params =>
        rw [Event.next, Event.attempt, Call.attempt, Attempt.on_map]
        exact hdisk.created (creation s name params) hbounded
          fun f hf => hbenign rfl f (error_of_map hf)
      | dropStore name =>
        rw [Event.next, Event.attempt, Call.attempt, Attempt.on_map]
        exact hdisk.removed (removal s name) fun f hf => hbenign rfl f (error_of_map hf)
      | sync =>
        rw [Event.next, Event.attempt, Call.attempt, Attempt.on_map]
        exact hdisk.sync hsavable
      | close =>
        rw [Event.next, Event.attempt, Call.attempt, Attempt.on_map]
        exact hdisk.close hsavable
      | _ => cases hwrites

end DurabilityLemmas

/-- In every life of a database its files are as they have to be. -/
theorem Life.lasting {home : String} {stage : Stage} (h : Life home stage) : stage.Lasting home := by
  induction h with
  | made hmade =>
    obtain ⟨c, hstores, hnext, hreads⟩ := create_spec hmade
    refine ⟨c, fun _ => .empty, .of_nil hstores, ?_, hreads, fun r hr => ?_⟩
    · rw [hnext]
      decide
    · rw [hstores] at hr
      cases hr
  | changed _ hfiles ih =>
    obtain ⟨c, records, hhouses⟩ := ih
    exact ⟨c, records, hhouses.undisturbed (hfiles c (congrArg Prod.fst hhouses.loadCatalog))⟩
  | opened _ hopen hwritable ih =>
    obtain ⟨c, records, hhouses⟩ := ih
    exact lasting_opened hhouses hopen hwritable
  | event e _ hbounded hbenign ih =>
    obtain ⟨hrun, hdisk, hfits⟩ := ih
    refine ⟨.step e hrun, onDisk_next hrun hdisk (hrun.savable hfits hbounded) hbounded hbenign, ?_⟩
    unfold Ledger.Fits
    rw [loaded_after]
    exact hfits
  | closed _ hclosed ih =>
    obtain ⟨-, hdisk, -⟩ := ih
    obtain ⟨records, hhouses⟩ := hdisk.houses
    exact ⟨_, records, hhouses⟩

/-! ## 3. What comes back -/

/-- A database has what was committed to another one, as a ledger notes it: the same names in the same
order, and under each name a store of the same shape with the committed values. -/
structure Restored (db : Database) (s : Site) (L : Ledger) : Prop where
  names : db.storeNames = s.db.storeNames
  found : ∀ name,
    (∃ cell, db.stores.get? name = some cell) ↔ ∃ cell, s.db.stores.get? name = some cell
  stores : ∀ name cell st, s.db.stores.get? name = some cell → s.db.cells.get? cell = some st →
    ∃ cell' st', db.stores.get? name = some cell' ∧ db.cells.get? cell' = some st' ∧
      st'.prefixLength = st.prefixLength ∧
      ∀ key, st'.tree.get key db.published = L.value cell key

namespace DurabilityLemmas

variable {home : String} {s s' : Site} {L : Ledger}

/-- A database that is opened again has for each store what its data file has. -/
theorem reopened (hlisted : s.db.Listed) {fs : FileSystem} {records : String → SortedMap Bytes Bytes}
    (hhouses : Houses fs home s.db.catalog records) {db : Database}
    (hjust : JustOpened home s.db.catalog records db) {name : String} {cell : Nat}
    (hname : s.db.stores.get? name = some cell) {len : Nat} {m : SortedMap Bytes Bytes}
    (hkeeps : Keeps (fs.entryAt (s.db.catalog.dataFile name)) len m) :
    ∃ cell' st', db.stores.get? name = some cell' ∧ db.cells.get? cell' = some st' ∧
      ∀ key, st'.tree.get key db.published = m.get? key := by
  obtain ⟨st, r, -, hr, rfl, -⟩ := hlisted.stores name cell hname
  obtain ⟨cell', hcell'⟩ := List.mem_iff_getElem?.1 hr
  refine ⟨cell', _, (hjust.stores r.name cell').2 ⟨r, hcell', rfl⟩,
    (hjust.cells cell' _).2 ⟨r, hcell', rfl⟩, fun key => ?_⟩
  have hrecords : records r.name = m := ((hhouses.stores r hr).unique hkeeps).2
  calc (treeOfRecord records r).get key db.published
      = (records r.name).get? key := by rw [hjust.published, get_treeOfRecord]
    _ = m.get? key := by rw [hrecords]

/-- A database that is opened where all stores are clean on disk has what was committed. -/
theorem restored (hrun : Run s L) (hdisk : OnDisk home s)
    (hclean : ∀ cell st, cell ∈ s.db.stores.values → s.db.cells.get? cell = some st → st.dirty = false)
    {records : String → SortedMap Bytes Bytes} (hhouses : Houses s.fs home s.db.catalog records)
    {db : Database} (hjust : JustOpened home s.db.catalog records db) {name : String} {cell : Nat}
    (hname : s.db.stores.get? name = some cell) :
    ∃ cell' st', db.stores.get? name = some cell' ∧ db.cells.get? cell' = some st' ∧
      ∀ key, st'.tree.get key db.published = L.value cell key := by
  obtain ⟨st, -, hs, -⟩ := hdisk.listed.stores name cell hname
  have hdirty := hclean cell st ((SortedMap.mem_values_iff _).2 ⟨name, hname⟩) hs
  obtain ⟨cell', st', hname', hs', hvalues⟩ :=
    reopened hdisk.listed hhouses hjust hname (hdisk.clean name cell st hname hs hdirty)
  refine ⟨cell', st', hname', hs', fun key => ?_⟩
  rw [hvalues, VersionTree.get?_contents, hrun.get_eq_value hname hs key]

end DurabilityLemmas

/-! ### A database that is made, used and closed -/

/-- Whether some events are calls that all succeed on a bounded database. -/
def goesWell : List Event → Site → Bool
  | [], _ => true
  | .files _ :: _, _ => false
  | .call now c :: rest, s =>
    decide s.db.Bounded && ((Event.call now c).answer s).toOption.isSome &&
      goesWell rest ((Event.call now c).next s)

theorem Life.play {home : String} {s : Site} {L : Ledger} (h : Life home (.opened s L))
    {events : List Event} (hwell : goesWell events s = true) :
    Life home (.opened (play events s L).1 (play events s L).2) := by
  induction events generalizing s L with
  | nil => exact h
  | cons e rest ih =>
    cases e with
    | files fs => cases hwell
    | call now c =>
      simp only [goesWell, Bool.and_eq_true, decide_eq_true_eq] at hwell
      obtain ⟨⟨hbounded, hok⟩, hrest⟩ := hwell
      refine ih (.event (.call now c) h hbounded fun _ f hf => ?_) hrest
      rw [hf] at hok
      cases hok

/-- A directory without a database. -/
def emptyHome : FileSystem where
  entries := .ofList [(["db"], .directory)]

/-- The directory after a database was made in it. -/
def madeHome : FileSystem := ((create "/db" []).on emptyHome).2

/-- The directory with the lock taken. -/
def lockedHome : FileSystem := ((lockHome "/db").on madeHome).2

/-- The database after it was opened for the first time. -/
def firstSite : Site where
  db :=
    { home := "/db", settings := {}, config := {}, lock := 1
      catalog := Catalog.ofCapacity "/db/capacity" }
  fs := lockedHome

/-- Two stores are made, and then one of them has a cycle that commits and one that does not. -/
def usedEvents : List Event :=
  .call 0 (.createStore "a" []) :: .call 0 (.createStore "b" []) :: twoCycles

/-- The database after it was used, and what happened. -/
def used : Site × Ledger := play usedEvents firstSite (Ledger.opened firstSite.db)

theorem loadConfig_of_missing {home : String} {fs : FileSystem}
    (h : readText fs (configFile home) = .error Errno.noEntry) :
    ((loadConfig home).on fs).1 = .ok {} := by
  simp only [loadConfig, Attempt.on_bind, Attempt.on_get, h]
  rfl

theorem openDatabase_madeHome :
    (openDatabase "/db" []).on madeHome = (.ok firstSite.db, lockedHome) := by
  have hconfig := @loadConfig_of_missing "/db" madeHome (by decide +kernel)
  have hlock : (lockHome "/db").on madeHome = (.ok 1, lockedHome) :=
    Prod.fst_eq_iff.1 (by decide +kernel)
  have hentry : lockedHome.entryAt (catalogFile "/db") =
      some (.file 0 (Bytes.ofText firstSite.db.catalog.text)) := by decide +kernel
  have hcatalog : (loadCatalog "/db").on lockedHome = (.ok firstSite.db.catalog, lockedHome) := by
    rw [loadCatalog_ok ⟨0, _, hentry, Utf8.decode?_ofText _⟩,
      Catalog.ofText_text ((Catalog.Sound.of_nil rfl).fits (by decide))]
  exact openDatabase_ok (by decide +kernel) hconfig (by decide +kernel) hlock hcatalog
    fun r hr => nomatch hr

theorem life_madeHome : Life "/db" (.closed madeHome) := by
  have hmade : (create "/db" []).on emptyHome = (.ok (), madeHome) :=
    Prod.fst_eq_iff.1 (by decide +kernel)
  exact .made hmade

theorem life_used : Life "/db" (.opened used.1 used.2) :=
  Life.play (.opened life_madeHome openDatabase_madeHome rfl) (by decide +kernel)

/-- What the stores are like then: one is dirty, the other is not. -/
theorem used_spec : used.1.db.closed = false ∧ used.1.db.Bounded ∧
    used.1.db.storeNames = .ok ["a", "b"] ∧
    used.1.db.catalog.dataFile "b" = "/db/capacity/b.kvs" ∧
    used.1.db.stores.get? "a" = some 0 ∧ (used.1.db.cells.get? 0).map (·.dirty) = some true ∧
    used.1.db.stores.get? "b" = some 1 ∧
    (used.1.db.cells.get? 1).map (fun st =>
      (st.dirty, st.prefixLength, st.tree.liveRecords used.1.db.published)) = some (false, 0, []) ∧
    used.2.value 0 [107] = some [1] := by decide +kernel

/-- The directory after the database was closed. -/
def closedHome : FileSystem := ((Call.close.attempt 0).on used.1).2.fs

theorem close_used : ((Call.close.attempt 0).on used.1).1 = .ok .done ∧
    readText closedHome (configFile "/db") = .error Errno.noEntry := by decide +kernel

/-- In every life of a database in a home, at every stage at which it is open: a store that is not
dirty has on disk exactly what was committed to it. When the database is closed with success, it can
be opened again, provided that its configuration and the parameters are sound; and whenever it is, it
lists the same stores with the same shapes, and each has for every key the value that the commits
left. So what was deleted stays absent, and what was not committed does not appear. -/
theorem committed_survives {home : String} {s : Site} {L : Ledger} (hlife : Life home (.opened s L)) :
    (∀ name cell st, s.db.stores.get? name = some cell → s.db.cells.get? cell = some st →
      st.dirty = false → ∃ inode data,
        s.fs.entryAt (s.db.catalog.dataFile name) = some (.file inode data) ∧
          DataFile.decode data = .ok (st.prefixLength, st.tree.liveRecords s.db.published)) ∧
    ∀ now s', s.db.closed = false → s.db.Bounded → (Call.close.attempt now).on s = (.ok .done, s') →
      (∀ params config settings, ((loadConfig home).on s'.fs).1 = .ok config →
        OpenSettings.scheme.ofLayers [config.database] params = .ok settings →
          ∃ db fs, (openDatabase home params).on s'.fs = (.ok db, fs)) ∧
      ∀ params db fs, (openDatabase home params).on s'.fs = (.ok db, fs) → Restored db s L := by
  obtain ⟨hrun, hdisk, hfits⟩ := hlife.lasting
  refine ⟨hdisk.clean, fun now s' hopen hbounded hclose => ?_⟩
  have hclosed : close.on s = (.ok (), s') := ok_of_map hclose
  have hrun' : Run s' L := by
    have hstep := Run.step (.call now .close) hrun
    unfold Ledger.after Event.answer Event.next Event.attempt at hstep
    rw [hclose] at hstep
    exact hstep
  obtain ⟨hdisk', lock, data, hfile, hfree⟩ :=
    hdisk.closed (hrun.savable hfits hbounded) hopen
  obtain ⟨cells, hsame⟩ := close_same hopen
  rw [hclosed] at hdisk' hfile hfree hsame
  have hcatalog : s'.db.catalog = s.db.catalog := by rw [hsame]
  have hstores : s'.db.stores = s.db.stores := by rw [hsame]
  have hclean : ∀ cell st, cell ∈ s'.db.stores.values → s'.db.cells.get? cell = some st →
      st.dirty = false := fun cell st hcell hs =>
    clean_of_close hclosed hopen hdisk.writable (hstores ▸ hcell) hs
  obtain ⟨records, hhouses⟩ := hdisk'.houses
  constructor
  · exact fun params config settings hconfig hsettings =>
      hhouses.openDatabase_ok hconfig hsettings hfile hfree
  · intro params db fs hreopen
    obtain ⟨hjust, -⟩ := hhouses.opened hreopen
    have hcatalog' : db.catalog = s.db.catalog := hjust.catalog.trans hcatalog
    constructor
    · rw [Database.storeNames, Database.storeNames, ReadLemmas.checkOpen_eq hjust.isOpen,
        ReadLemmas.checkOpen_eq hopen, hcatalog']
    · intro name
      rw [hjust.listed.found_iff, hdisk.listed.found_iff, hcatalog']
    · intro name cell st hname hs
      obtain ⟨cell', st', hname', hs', hvalues⟩ :=
        restored hrun' hdisk' hclean hhouses hjust (hstores.symm ▸ hname)
      have hdistinct : s.db.catalog.names.Nodup := hcatalog ▸ hhouses.sound.distinct
      exact ⟨cell', st', hname', hs',
        hdisk.listed.prefixLength_eq hjust.listed hcatalog' hdistinct hname hs hname' hs', hvalues⟩

/-- A store whose second cycle was not committed when the database was closed has the value of the
first one when it is opened again; the other store was not dirty before. -/
theorem committed_survives_reopened :
    (∃ inode data, used.1.fs.entryAt "/db/capacity/b.kvs" = some (.file inode data) ∧
      DataFile.decode data = .ok (0, [])) ∧
    ∃ db fs cell st, (openDatabase "/db" []).on closedHome = (.ok db, fs) ∧
      db.storeNames = .ok ["a", "b"] ∧ db.stores.get? "a" = some cell ∧
      db.cells.get? cell = some st ∧ st.tree.get [107] db.published = some [1] := by
  obtain ⟨hopen, hbounded, hnames, hpath, ha, hfirst, hb, hsecond, hvalue⟩ := used_spec
  obtain ⟨hdone, hmissing⟩ := close_used
  obtain ⟨hclean, hcloses⟩ := committed_survives life_used
  obtain ⟨hopens, hrestores⟩ := hcloses 0 _ hopen hbounded (Prod.fst_eq_iff.1 hdone)
  constructor
  · obtain ⟨st, hs, hst⟩ := Option.map_eq_some_iff.1 hsecond
    simp only [Prod.mk.injEq] at hst
    obtain ⟨hdirty, hlen, hrecords⟩ := hst
    have hdata := hclean "b" 1 st hb hs hdirty
    rw [hlen, hrecords, hpath] at hdata
    exact hdata
  · obtain ⟨st, hs, -⟩ := Option.map_eq_some_iff.1 hfirst
    obtain ⟨db, fs, hreopen⟩ := hopens [] {} {} (loadConfig_of_missing hmissing) (by decide +kernel)
    have hrestored := hrestores [] db fs hreopen
    obtain ⟨cell', st', hname, hs', -, hvalues⟩ := hrestored.stores "a" 0 st ha hs
    exact ⟨db, fs, cell', st', hreopen, hrestored.names.trans hnames, hname, hs',
      (hvalues [107]).trans hvalue⟩

end SnapshotKv
