import SnapshotKv.Proofs.Calls

/-!
# The history of an open database

A `Ledger` notes, from the calls and their answers alone, what became of an open database: which
handles were opened, which writes each transaction has had accepted since its begin, and which
commits there were, in their order. Time is counted in commits: a cycle notes how many there were at
its begin. The statements about whole runs compare the answers of the database with its ledger.

Contents:
1. Ledgers and what they say: `Ledger.valueAt` is the value of a key after the first commits.
2. `Ledger.after`: how a ledger goes on with an event.
3. `Run`: the sites and ledgers that are reached from the opening of a database.
-/

namespace SnapshotKv

/-! ## 1. Ledgers -/

/-- A write that succeeded. -/
structure Write where
  handle : Nat
  /-- The number of the store in its database. -/
  cell : Nat
  change : Change
  /-- How many handles had been opened until then. -/
  opened : Nat

/-- The opening of a store; handles are numbered in the order of the openings. -/
structure Opening where
  cell : Nat
  transactional : Bool
  deriving DecidableEq, Repr

/-- The writes that a cycle has had accepted. -/
structure Draft where
  /-- How many commits there were at the begin. -/
  began : Nat := 0
  writes : List Write := []

/-- A commit: of a cycle, or of one write without transaction. -/
structure Commit where
  /-- For a cycle, how many commits there were at its begin. -/
  began : Option Nat
  writes : List Write
  /-- The stores that could be found. -/
  reached : List Nat

/-- What is noted about an open database. -/
structure Ledger where
  /-- The contents of each store when the database was opened. -/
  loaded : Nat → Bytes → Option Bytes
  openings : List Opening := []
  commits : List Commit := []
  drafts : Nat → Draft := fun _ => {}
  /-- Whether a file operation has failed. -/
  fileFault : Bool := false

/-- The changes that some writes made to one store. -/
def changesTo (writes : List Write) (cell : Nat) : List Change :=
  (writes.filter fun w => w.cell == cell).map (·.change)

/-- Some of the writes put, deleted or deleted by a prefix the key of a store. -/
def Decides (writes : List Write) (cell : Nat) (key : Bytes) : Prop :=
  ∃ w ∈ writes, w.cell = cell ∧ w.change.covers key = true

/-- The changes that reached a store. -/
def Commit.landed (c : Commit) (cell : Nat) : List Change :=
  if cell ∈ c.reached then changesTo c.writes cell else []

namespace Ledger

/-- The ledger of a database that was just opened. -/
def opened (db : Database) : Ledger where
  loaded cell key := (db.cells.get? cell).bind fun s => s.tree.get key db.published

/-- The value of a key after the first `n` commits. -/
def valueAt (L : Ledger) (n cell : Nat) (key : Bytes) : Option Bytes :=
  Change.after ((L.commits.take n).flatMap fun c => changesTo c.writes cell) key (L.loaded cell key)

/-- The value of a key now. -/
def value (L : Ledger) (cell : Nat) (key : Bytes) : Option Bytes :=
  L.valueAt L.commits.length cell key

/-- The value of a key in the cycle of a transaction: what the last write that decides the key left,
else the value at the begin. -/
def valueIn (L : Ledger) (t cell : Nat) (key : Bytes) : Option Bytes :=
  match Change.lastOn (changesTo (L.drafts t).writes cell) key with
  | some c => c.leaves
  | none => L.valueAt (L.drafts t).began cell key

/-! ## 2. Going on -/

/-- Notes a commit. -/
def addCommit (L : Ledger) (c : Commit) : Ledger := { L with commits := L.commits ++ [c] }

/-- Replaces what is noted about the cycle of a transaction. -/
def setDraft (L : Ledger) (t : Nat) (d : Draft) : Ledger :=
  { L with drafts := fun t' => if t' = t then d else L.drafts t' }

/-- Notes the opening of a store. -/
def addOpening (L : Ledger) (h : Handle) : Ledger :=
  { L with openings := L.openings ++ [⟨h.cell, h.settings.transactional⟩] }

/-- Notes that a file operation failed. -/
def addFileFault (L : Ledger) : Ledger := { L with fileFault := true }

/-- The write that a handle was asked for. -/
def writeBy (L : Ledger) (handle : Nat) (h : Handle) (change : Change) : Write :=
  { handle, cell := h.cell, change, opened := L.openings.length }

/-- Notes a write without transaction. -/
def addPlain (L : Ledger) (w : Write) : Ledger :=
  L.addCommit { began := none, writes := [w], reached := [w.cell] }

/-- Notes a write in the cycle of a transaction. -/
def addWrite (L : Ledger) (t : Nat) (w : Write) : Ledger :=
  L.setDraft t { L.drafts t with writes := (L.drafts t).writes ++ [w] }

/-- Notes the begin of a cycle. -/
def addBegin (L : Ledger) (t : Nat) : Ledger :=
  L.setDraft t { began := L.commits.length, writes := [] }

/-- Notes the commit of the cycle of a transaction. -/
def addCycle (L : Ledger) (t : Nat) (reached : List Nat) : Ledger :=
  L.addCommit { began := some (L.drafts t).began, writes := (L.drafts t).writes, reached }

@[simp] theorem drafts_addBegin_self (L : Ledger) (t : Nat) :
    (L.addBegin t).drafts t = { began := L.commits.length, writes := [] } := if_pos rfl

theorem drafts_addBegin_of_ne (L : Ledger) {t t' : Nat} (h : t ≠ t') :
    (L.addBegin t).drafts t' = L.drafts t' := if_neg (Ne.symm h)

@[simp] theorem drafts_addWrite_self (L : Ledger) (t : Nat) (w : Write) :
    (L.addWrite t w).drafts t =
      { L.drafts t with writes := (L.drafts t).writes ++ [w] } := if_pos rfl

theorem drafts_addWrite_of_ne (L : Ledger) {t t' : Nat} (w : Write) (h : t ≠ t') :
    (L.addWrite t w).drafts t' = L.drafts t' := if_neg (Ne.symm h)

/-- The ledger after a call that succeeded between two states of the database. -/
def afterCall (L : Ledger) (db db' : Database) : Call → Ledger
  | .openStore _ _ => match db'.handles.get? db.handles.nextId with
    | some h => L.addOpening h
    | none => L
  | .write handle none change => match db.handles.get? handle with
    | some h => L.addPlain (L.writeBy handle h change)
    | none => L
  | .write handle (some t) change => match db.handles.get? handle with
    | some h => L.addWrite t (L.writeBy handle h change)
    | none => L
  | .beginTxn t => L.addBegin t
  | .commitTxn t => L.addCycle t db.stores.values
  | .closeTxn t => match db.txns.get? t with
    | some (.active _) => L.addCycle t db.stores.values
    | _ => L
  | _ => L

/-- The ledger after an event. -/
def after (L : Ledger) (s : Site) (e : Event) : Ledger :=
  match e.answer s, e with
  | .error f, _ => if Cause.systemCall ∈ f.causes then L.addFileFault else L
  | .ok _, .call _ c => L.afterCall s.db (e.next s).db c
  | .ok _, .files _ => L

end Ledger

/-! ## 3. Runs -/

/-- The stores of a catalog have numbers of their own, below the next one to give. -/
structure Catalog.Numbered (c : Catalog) : Prop where
  distinct : (c.stores.map (·.id)).Nodup
  lt : ∀ r ∈ c.stores, r.id < c.nextId

/-- The database with all stores of its catalog attached, each with a tree. -/
def Database.withStores (db : Database) (tree : StoreRecord → VersionTree) : Database :=
  db.catalog.stores.foldl (fun db r => Storage.attach db r (tree r)) db

/-- A database that was just opened: the stores of a numbered catalog, each with what was loaded. -/
inductive Database.Opened : Database → Prop
  | mk {home : String} {settings : OpenSettings} {config : Config} {catalog : Catalog} {lock : Nat}
      {tree : StoreRecord → VersionTree} (numbered : catalog.Numbered)
      (loaded : ∀ r, (tree r).UpTo 0) :
      Opened (Database.withStores { home, settings, config, catalog, lock } tree)

/-- The sites that a database can be on after it was opened, each with the ledger of what happened
until then. -/
inductive Run : Site → Ledger → Prop
  | opened {db : Database} (fs : FileSystem) : db.Opened → Run ⟨db, fs⟩ (Ledger.opened db)
  | step {s : Site} {L : Ledger} (e : Event) : Run s L → Run (e.next s) (L.after s e)

/-- The site and the ledger after some events. -/
def play : List Event → Site → Ledger → Site × Ledger
  | [], s, L => (s, L)
  | e :: rest, s, L => play rest (e.next s) (L.after s e)

theorem Run.play {s : Site} {L : Ledger} (h : Run s L) (events : List Event) :
    Run (play events s L).1 (play events s L).2 := by
  induction events generalizing s L with
  | nil => exact h
  | cons e rest ih => exact ih (.step e h)

/-- A database with one store, whose prefixes have one byte. -/
def smallDatabase : Database :=
  Database.withStores
    { home := "/db", settings := {}, config := {}, lock := 0
      catalog :=
        { nextId := 2, capacity := "/db/capacity", staging := none, pmem := none
          stores := [{ name := "a", id := 1, prefixLength := 1 }] } }
    fun _ => {}

/-- The small database after some events. -/
def playSmall (events : List Event) : Site × Ledger :=
  play events ⟨smallDatabase, {}⟩ (Ledger.opened smallDatabase)

theorem opened_smallDatabase : smallDatabase.Opened := by
  refine .mk ⟨by simp, ?_⟩ fun _ => VersionTree.upTo_empty 0
  intro r hr
  rw [List.mem_singleton.1 hr]
  exact Nat.lt_succ_self 1

theorem run_playSmall (events : List Event) :
    Run (playSmall events).1 (playSmall events).2 :=
  Run.play (.opened {} opened_smallDatabase) events

end SnapshotKv
