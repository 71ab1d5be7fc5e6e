import SnapshotKv.Proofs.Files
import SnapshotKv.Proofs.Steps

/-!
# Making and dropping stores

A store is made in two file operations and dropped in two. The calls end in one of four ways each:
refused by a check, at the fault of the first or of the second file operation, or with success.
`Creation` and `Removal` list these, with the database and the files they leave.

Results:
1. `isName_dataFileName`: what a store's data file is called.
2. `creation`: how a call that makes a store ends.
3. `removal`: how a call that drops a store ends.
-/

namespace SnapshotKv

open Storage

/-! ## 1. Names of files -/

/-- The name of the data file of a store in the capacity directory. -/
def dataFileName (name : String) : String := name ++ ".kvs"

theorem isNameChar_of_checkName {name : String} (h : Limits.checkName name = .ok ()) :
    name.toList.all Limits.isNameChar = true := by
  unfold Limits.checkName at h
  split at h
  · cases h
  · split at h
    · cases h
    · split at h
      · next hall => exact hall
      · cases h

theorem isName_dataFileName {name : String} (h : Limits.checkName name = .ok ()) :
    Path.IsName (dataFileName name) := by
  have hlength : ∀ text : String, text.toList.length < 4 → dataFileName name ≠ text := by
    rintro text hshort rfl
    rw [dataFileName, String.toList_append, List.length_append] at hshort
    exact absurd (Nat.lt_of_le_of_lt (Nat.le_add_left _ _) hshort) (by decide)
  refine ⟨hlength _ (by decide), fun hslash => ?_, hlength _ (by decide), hlength _ (by decide)⟩
  rw [dataFileName, String.toList_append] at hslash
  rcases List.mem_append.1 hslash with hslash | hslash
  · have hchar := List.all_eq_true.1 (isNameChar_of_checkName h) _ hslash
    exact absurd hchar (by decide)
  · exact absurd hslash (by decide)

theorem isName_catalog : Path.IsName "kvdb.meta" := by
  constructor <;> decide

theorem isName_lock : Path.IsName "kvdb.lock" := by
  constructor <;> decide

/-! ## 2. Making a store -/

/-- What is checked before a store is made; answers its prefix length. -/
def Database.checkCreate (db : Database) (name : String) (params : List String) :
    Except Fault Nat := do
  db.checkOpen
  db.checkWritable
  Limits.checkName name
  let shape ← StoreShape.scheme.ofPairs params
  if (db.catalog.find? name).isSome then throw (Fault.storeExists name)
  if db.catalog.stores.length ≥ Limits.storeCount then
    throw (Fault.tooManyStores name Limits.storeCount)
  pure shape.prefixLength

/-- What the checks that a call has passed say. -/
structure Database.CanCreate (db : Database) (name : String) (params : List String) (len : Nat) :
    Prop where
  isOpen : db.checkOpen = .ok ()
  writable : db.checkWritable = .ok ()
  sound : Limits.checkName name = .ok ()
  shape : StoreShape.scheme.ofPairs params = .ok ⟨len⟩
  fresh : db.catalog.find? name = none
  count : db.catalog.stores.length < Limits.storeCount

theorem Database.checkCreate_eq_ok_iff {db : Database} {name : String} {params : List String}
    {len : Nat} : db.checkCreate name params = .ok len ↔ db.CanCreate name params len := by
  unfold checkCreate
  constructor
  · intro h
    cases hopen : db.checkOpen with
    | error f => simp [hopen, bind, Except.bind] at h
    | ok _ =>
      cases hwritable : db.checkWritable with
      | error f => simp [hopen, hwritable, bind, Except.bind] at h
      | ok _ =>
        cases hname : Limits.checkName name with
        | error f => simp [hopen, hwritable, hname, bind, Except.bind] at h
        | ok _ =>
          cases hshape : StoreShape.scheme.ofPairs params with
          | error f => simp [hopen, hwritable, hname, hshape, bind, Except.bind] at h
          | ok shape =>
            simp only [hopen, hwritable, hname, hshape, bind, Except.bind] at h
            split at h
            · cases h
            · next hfind =>
              split at h
              · cases h
              · next hcount =>
                cases h
                exact ⟨hopen, hwritable, hname, hshape, Option.not_isSome_iff_eq_none.1 hfind,
                  Nat.lt_of_not_le hcount⟩
  · rintro ⟨hopen, hwritable, hname, hshape, hfind, hcount⟩
    simp only [hopen, hwritable, hname, hshape, hfind, bind, Except.bind, Option.isSome_none,
      Bool.false_eq_true, ↓reduceIte, if_neg (Nat.not_le.2 hcount)]
    rfl

/-- The catalog with a number that no store gets. -/
def Catalog.skipId (c : Catalog) : Catalog := { c with nextId := c.nextId + 1 }

/-- How a call that makes a store ends. -/
inductive Creation (s : Site) (name : String) (params : List String) :
    Except Fault Unit × Site → Prop
  /-- A check failed. -/
  | refused {f : Fault} (hcheck : s.db.checkCreate name params = .error f) :
      Creation s name params (.error f, s)
  /-- The data file could not be written. -/
  | unwritten {len : Nat} {f : Fault} {fs : FileSystem}
      (hcheck : s.db.checkCreate name params = .ok len)
      (hfile : (saveDataFile (s.db.catalog.dataFile name) len []).on s.fs = (.error f, fs)) :
      Creation s name params
        (.error f, ⟨{ s.db with catalog := s.db.catalog.withRecord name len }, fs⟩)
  /-- The catalog could not be saved. -/
  | unsaved {len : Nat} {f : Fault} {fs fs' : FileSystem}
      (hcheck : s.db.checkCreate name params = .ok len)
      (hfile : (saveDataFile (s.db.catalog.dataFile name) len []).on s.fs = (.ok (), fs))
      (hsave : (saveCatalog s.db.home (s.db.catalog.withRecord name len)).on fs = (.error f, fs')) :
      Creation s name params (.error f, ⟨{ s.db with catalog := s.db.catalog.skipId }, fs'⟩)
  | made {len : Nat} {fs fs' : FileSystem} (hcheck : s.db.checkCreate name params = .ok len)
      (hfile : (saveDataFile (s.db.catalog.dataFile name) len []).on s.fs = (.ok (), fs))
      (hsave : (saveCatalog s.db.home (s.db.catalog.withRecord name len)).on fs = (.ok (), fs')) :
      Creation s name params (.ok (), ⟨s.db.withStore name len, fs'⟩)

/-- What remains to do for a new store after the checks. -/
def makeStore (site : Site) (name : String) (prefixLength : Nat) : Attempt Site Unit := do
  let c := site.db.catalog
  let c' := c.withRecord name prefixLength
  update fun db => { db with catalog := c' }
  onFiles (saveDataFile (c'.dataFile name) prefixLength [])
  Attempt.ofStep fun s => match (onFiles (saveCatalog site.db.home c')).on s with
    | (.ok (), s') => (.ok (), s')
    | (.error e, s') => (.error e, { s' with db := { s'.db with
        catalog := { c' with stores := c.stores } } })
  update fun db => attach db { name, id := c.nextId, prefixLength } {}

theorem createStore_eq (name : String) (params : List String) (s : Site) :
    (createStore name params).on s =
      (Attempt.check (s.db.checkCreate name params) >>= makeStore s name).on s := by
  simp only [createStore, Database.checkCreate, Attempt.on_bind, Attempt.on_get, Attempt.on_check]
  cases s.db.checkOpen with
  | error f => rfl
  | ok _ =>
    cases s.db.checkWritable with
    | error f => rfl
    | ok _ =>
      cases Limits.checkName name with
      | error f => rfl
      | ok _ =>
        cases StoreShape.scheme.ofPairs params with
        | error f => rfl
        | ok shape =>
          cases (s.db.catalog.find? name).isSome with
          | true =>
            simp only [↓reduceIte]
            rfl
          | false =>
            by_cases hcount : s.db.catalog.stores.length ≥ Limits.storeCount
            · simp only [Bool.false_eq_true, ↓reduceIte, if_pos hcount]
              rfl
            · simp only [Bool.false_eq_true, ↓reduceIte, if_neg hcount]
              show _ = (makeStore s name shape.prefixLength).on s
              rfl

theorem creation (s : Site) (name : String) (params : List String) :
    Creation s name params ((createStore name params).on s) := by
  rw [createStore_eq, Attempt.on_bind, Attempt.on_check]
  cases hcheck : s.db.checkCreate name params with
  | error f => exact .refused hcheck
  | ok len =>
    simp only [makeStore, Attempt.on_bind, on_update, on_onFiles, Attempt.on_ofStep]
    cases hfile : (saveDataFile (s.db.catalog.dataFile name) len []).on s.fs with
    | mk written fs =>
      have hfile' : (saveDataFile ((s.db.catalog.withRecord name len).dataFile name) len []).on s.fs =
        (written, fs) := hfile
      rw [hfile']
      cases written with
      | error f => exact .unwritten hcheck hfile
      | ok _ =>
        simp only
        cases hsave : (saveCatalog s.db.home (s.db.catalog.withRecord name len)).on fs with
        | mk saved fs' =>
          cases saved with
          | error f => exact .unsaved hcheck hfile hsave
          | ok _ => exact .made hcheck hfile hsave

/-! ## 3. Dropping a store -/

/-- What is checked before a store is dropped. -/
def Database.checkDrop (db : Database) (name : String) : Except Fault Unit := do
  db.checkOpen
  db.checkWritable
  let (_, s) ← db.storeNamed name
  if s.isOpen then throw (Fault.storeInUse name)

/-- What the checks that a call has passed say. -/
structure Database.CanDrop (db : Database) (name : String) (cell : Nat) (s : Store) : Prop where
  isOpen : db.checkOpen = .ok ()
  writable : db.checkWritable = .ok ()
  found : db.stores.get? name = some cell
  store : db.cells.get? cell = some s
  unused : s.isOpen = false

theorem Database.canDrop_of_checkDrop {db : Database} {name : String}
    (h : db.checkDrop name = .ok ()) : ∃ cell s, db.CanDrop name cell s := by
  unfold checkDrop at h
  cases hopen : db.checkOpen with
  | error f => simp [hopen, bind, Except.bind] at h
  | ok _ =>
    cases hwritable : db.checkWritable with
    | error f => simp [hopen, hwritable, bind, Except.bind] at h
    | ok _ =>
      cases hfound : db.storeNamed name with
      | error f => simp [hopen, hwritable, hfound, bind, Except.bind] at h
      | ok found =>
        obtain ⟨cell, s⟩ := found
        obtain ⟨hname, hs⟩ := StepLemmas.storeNamed_ok hfound
        simp only [hopen, hwritable, hfound, bind, Except.bind] at h
        split at h
        · cases h
        · next hunused => exact ⟨cell, s, hopen, hwritable, hname, hs, Bool.eq_false_iff.2 hunused⟩

/-- How a call that drops a store ends. -/
inductive Removal (s : Site) (name : String) : Except Fault Unit × Site → Prop
  /-- A check failed. -/
  | refused {f : Fault} (hcheck : s.db.checkDrop name = .error f) : Removal s name (.error f, s)
  /-- The catalog could not be saved. -/
  | unsaved {f : Fault} {fs : FileSystem} (hcheck : s.db.checkDrop name = .ok ())
      (hsave : (saveCatalog s.db.home (s.db.catalog.without name)).on s.fs = (.error f, fs)) :
      Removal s name (.error f, { s with fs })
  /-- The data file could not be removed. -/
  | unremoved {f : Fault} {fs fs' : FileSystem} (hcheck : s.db.checkDrop name = .ok ())
      (hsave : (saveCatalog s.db.home (s.db.catalog.without name)).on s.fs = (.ok (), fs))
      (hfile : (removeIfExists (s.db.catalog.dataFile name)).on fs = (.error f, fs')) :
      Removal s name (.error f, ⟨{ s.db with catalog := s.db.catalog.without name }, fs'⟩)
  | dropped {fs fs' : FileSystem} (hcheck : s.db.checkDrop name = .ok ())
      (hsave : (saveCatalog s.db.home (s.db.catalog.without name)).on s.fs = (.ok (), fs))
      (hfile : (removeIfExists (s.db.catalog.dataFile name)).on fs = (.ok (), fs')) :
      Removal s name (.ok (), ⟨{ s.db with
        catalog := s.db.catalog.without name, stores := s.db.stores.erase name }, fs'⟩)

/-- What remains to do for a store to go after the checks. -/
def removeStore (site : Site) (name : String) : Attempt Site Unit := do
  let c' := site.db.catalog.without name
  onFiles (saveCatalog site.db.home c')
  update fun db => { db with catalog := c' }
  onFiles (removeIfExists (c'.dataFile name))
  update fun db => { db with stores := db.stores.erase name }

theorem dropStore_eq (name : String) (s : Site) :
    (dropStore name).on s =
      (Attempt.check (s.db.checkDrop name) >>= fun _ => removeStore s name).on s := by
  simp only [dropStore, Database.checkDrop, Attempt.on_bind, Attempt.on_get, Attempt.on_check]
  cases s.db.checkOpen with
  | error f => rfl
  | ok _ =>
    cases s.db.checkWritable with
    | error f => rfl
    | ok _ =>
      cases s.db.storeNamed name with
      | error f => rfl
      | ok found =>
        simp only [bind, Except.bind]
        cases found.2.isOpen with
        | true => rfl
        | false => rfl

theorem removal (s : Site) (name : String) : Removal s name ((dropStore name).on s) := by
  rw [dropStore_eq, Attempt.on_bind, Attempt.on_check]
  cases hcheck : s.db.checkDrop name with
  | error f => exact .refused hcheck
  | ok _ =>
    simp only [removeStore, Attempt.on_bind, on_update, on_onFiles]
    cases hsave : (saveCatalog s.db.home (s.db.catalog.without name)).on s.fs with
    | mk saved fs =>
      cases saved with
      | error f => exact .unsaved hcheck hsave
      | ok _ =>
        simp only
        cases hfile : (removeIfExists (s.db.catalog.dataFile name)).on fs with
        | mk removed fs' =>
          have hfile' : (removeIfExists ((s.db.catalog.without name).dataFile name)).on fs =
            (removed, fs') := hfile
          rw [hfile']
          cases removed with
          | error f => exact .unremoved hcheck hsave hfile
          | ok _ => exact .dropped hcheck hsave hfile

end SnapshotKv
