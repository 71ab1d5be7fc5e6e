import SnapshotKv.Proofs.SessionCalls

/-!
# Commands on records as commands on a map

The commands `put`, `get`, `del` and `scan` each open the database, call its store and close it. To
whoever sees only what they answer, the store is an ordered map of byte strings that lives on from
one command to the next.

Results:
1. `RecordCommand.onMap`, `Request.answer`: the commands on an ordered map.
2. `on_session`, `on_write`: a command is its session and what it makes of its answer.
3. `on_invocation`: one command answers what it answers on the map.
4. `commands_refine_map`: so do the commands of a whole script, each in a run of its own.
-/

namespace SnapshotKv

open Storage

namespace CommandLine

/-! ## 1. Commands on an ordered map -/

/-- A command on the records of a store. -/
inductive RecordCommand where
  | put (key value : String)
  | get (key : String)
  | delete (key : String) (wholePrefix : Bool)
  | scan (filter : Option String) (reverse : Bool) (start : Option String) (limit : Option Nat)
  deriving DecidableEq, Repr

/-- The command of the program that a command on the records of a store is. -/
def RecordCommand.toCommand (store : String) : RecordCommand → Command
  | .put key value => .put store key value
  | .get key => .get store key
  | .delete key wholePrefix => .delete store key wholePrefix
  | .scan filter reverse start limit => .scan store filter reverse start limit

/-- What a command answers when the records of a store are an ordered map, and the map that it
leaves. -/
def RecordCommand.onMap (r : StoreRecord) (m : SortedMap Bytes Bytes) (settings : OpenSettings) :
    RecordCommand → Except Fault (Display × SortedMap Bytes Bytes)
  | .put key value => do
    if settings.readOnly then throw Fault.openReadOnly
    Limits.checkKey (Bytes.ofText key)
    Limits.checkValue (Bytes.ofText value)
    pure (.document (.record
      [("kvs", .ofString r.name), ("key", .ofString key), ("stored", .bool true)]),
      m.insert (Bytes.ofText key) (Bytes.ofText value))
  | .get key => do
    Limits.checkKey (Bytes.ofText key)
    match m.get? (Bytes.ofText key) with
    | none => throw (Fault.keyMissing r.name)
    | some v => pure (.document (.record
        [("kvs", .ofString r.name), ("key", .ofString key), ("value", bytesJson v),
          ("len", .ofNat v.length)]), m)
  | .delete key false => do
    if settings.readOnly then throw Fault.openReadOnly
    Limits.checkKey (Bytes.ofText key)
    pure (.document (.record
      [("kvs", .ofString r.name), ("key", .ofString key), ("prefix", .bool false),
        ("deleted", .bool true)]), m.erase (Bytes.ofText key))
  | .delete stem true => do
    if settings.readOnly then throw Fault.openReadOnly
    if r.prefixLength = 0 ∨ (Bytes.ofText stem).length ≠ r.prefixLength then
      throw (Fault.prefixLengthWrong r.name r.prefixLength (Bytes.ofText stem).length)
    pure (.document (.record
      [("kvs", .ofString r.name), ("key", .ofString stem), ("prefix", .bool true),
        ("deleted", .bool true)]), m.filter fun key _ => !(Bytes.ofText stem).isPrefixOf key)
  | .scan filter reverse start limit => do
    Limits.checkBound (Bytes.ofText (filter.getD ""))
    if let some key := start then Limits.checkBound (Bytes.ofText key)
    let records := cutTo limit
      (listed m (Bytes.ofText (filter.getD "")) reverse (start.map Bytes.ofText))
    pure (.document (.record
      [("kvs", .ofString r.name), ("count", .ofNat records.length),
        ("records", .array (records.map recordJson))]), m)

/-- What is asked of the program: a command on a store, and parameters for opening the database. -/
structure Request where
  params : List String
  store : String
  command : RecordCommand
  deriving DecidableEq, Repr

namespace Request

/-- The invocation of the program for a request to the database of a home. -/
def invocation (home : String) (q : Request) : Invocation :=
  { home, params := q.params, command := q.command.toCommand q.store }

/-- What the request answers when the records of the store `r` are an ordered map and it is the only
store, and the map that it leaves. -/
def answer (r : StoreRecord) (m : SortedMap Bytes Bytes) (q : Request) :
    Except Fault (Display × SortedMap Bytes Bytes) :=
  sessionAnswer r q.params q.store fun settings => q.command.onMap r m settings

/-- The map after the request. -/
def after (r : StoreRecord) (m : SortedMap Bytes Bytes) (q : Request) : SortedMap Bytes Bytes :=
  recordsAfter m (q.answer r m)

end Request

/-! ## 2. The session of a command -/

section OneSession

variable {α : Type} {fs : FileSystem} {home : String} {c : Catalog} {r : StoreRecord}
  {m : SortedMap Bytes Bytes} {params : List String} {g : GlobalSettings}

/-- What a session answers matters only for the store that there is. -/
theorem sessionAnswer_congr {name : String}
    {answer answer' : OpenSettings → Except Fault (α × SortedMap Bytes Bytes)}
    (h : name = r.name → ∀ settings, answer settings = answer' settings) :
    sessionAnswer r params name answer = sessionAnswer r params name answer' := by
  unfold sessionAnswer
  by_cases hname : name = r.name
  · simp only [h hname]
  · simp only [if_neg hname]

/-- A session that ends well does so with what its calls answer. -/
theorem inner_of_sessionAnswer {name : String}
    {inner : OpenSettings → Except Fault (α × SortedMap Bytes Bytes)}
    {e : α × SortedMap Bytes Bytes} (h : sessionAnswer r params name inner = .ok e) : ∃ settings, inner settings = .ok e := by
  unfold sessionAnswer at h
  cases hsettings : OpenSettings.scheme.ofPairs params with
  | error f =>
    rw [hsettings] at h
    cases h
  | ok settings =>
    rw [hsettings] at h
    by_cases hname : name = r.name
    · exact ⟨settings, (if_pos hname).symm.trans h⟩
    · cases (if_neg hname).symm.trans h

theorem sessionAnswer_bind {β : Type} (name : String)
    (inner : OpenSettings → Except Fault (α × SortedMap Bytes Bytes))
    (f : α × SortedMap Bytes Bytes → Except Fault (β × SortedMap Bytes Bytes)) :
    sessionAnswer r params name (fun settings => (inner settings).bind f) =
      (sessionAnswer r params name inner).bind f := by
  unfold sessionAnswer
  cases OpenSettings.scheme.ofPairs params with
  | error e => rfl
  | ok settings => by_cases hname : name = r.name <;> simp only [hname] <;> rfl

/-- A fault in showing an answer leaves the records as they were if the answer did. -/
theorem recordsAfter_shown {answer : Except Fault (α × SortedMap Bytes Bytes)}
    {shown : α → Except Fault Display}
    (hkeeps : ∀ v m' f, answer = .ok (v, m') → shown v = .error f → m' = m) :
    recordsAfter m (answer.bind fun e => (shown e.1).map fun d => (d, e.2)) =
      recordsAfter m answer := by
  cases answer with
  | error f => rfl
  | ok e =>
    cases hshown : shown e.1 with
    | ok d => simp only [Except.bind, Except.map, hshown, recordsAfter]
    | error f =>
      simp only [Except.bind, Except.map, hshown, recordsAfter]
      exact (hkeeps e.1 e.2 f rfl hshown).symm

/-- A command answers what it makes of the answer of its session. -/
theorem on_session (h : AtRest fs home c r m) {a : StoreRef → Attempt Host α}
    {b : Nat → Attempt Database α} (hserves : ∀ handle, Serves (a ⟨0, handle⟩) (b handle))
    (inner : OpenSettings → Except Fault (α × SortedMap Bytes Bytes))
    (hcalls : ∀ settings lock db, Held ⟨c, r, settings, lock, m⟩ m db →
      db.handles.get? 0 = some ⟨0, {}⟩ → ∃ db', (b 0).on db = ((inner settings).map Prod.fst, db') ∧
        Held ⟨c, r, settings, lock, m⟩ (recordsAfter m (inner settings)) db')
    (shown : α → Except Fault Display) {k : α → Attempt Host Display}
    (hk : ∀ v host, (k v).on host = (shown v, host))
    (hkeeps : ∀ settings v m' f, inner settings = .ok (v, m') → shown v = .error f → m' = m)
    {name : String} {answer : Except Fault (Display × SortedMap Bytes Bytes)}
    (hanswer : answer = sessionAnswer r params name fun settings =>
      (inner settings).bind fun e => (shown e.1).map fun d => (d, e.2))
    (hbody : (DataFile.body (recordsAfter m answer).entries).length < 256 ^ 8) :
    ∃ host, (withStore home params name a >>= k).on { fs, runtime := some g } =
        (answer.map Prod.fst, host) ∧ AtRest host.fs home c r (recordsAfter m answer) := by
  have hbind := hanswer.trans (sessionAnswer_bind name inner _)
  -- The session has ended when its answer is shown, so showing it cannot change the records.
  have hrecords : recordsAfter m answer = recordsAfter m (sessionAnswer r params name inner) := by
    rw [hbind]
    refine recordsAfter_shown fun v m' f hinner hshown => ?_
    obtain ⟨settings, hsettings⟩ := inner_of_sessionAnswer hinner
    exact hkeeps settings v m' f hsettings hshown
  rw [hrecords] at hbody ⊢
  obtain ⟨host, hon, hrest⟩ := h.withStore hserves hcalls name hbody
  refine ⟨host, ?_, hrest⟩
  rw [Attempt.on_bind, hon, hbind]
  cases sessionAnswer r params name inner with
  | error f => rfl
  | ok e =>
    simp only [Except.map, hk]
    cases hshown : shown e.1 <;> simp only [Except.bind, hshown]

/-- A command that makes one change of its store. -/
theorem on_write (h : AtRest fs home c r m) {a : StoreRef → Attempt Host Unit} (change : Change)
    (hserves : ∀ handle, Serves (a ⟨0, handle⟩) (Database.changeRecord 0 handle none change))
    {name : String} {d : Display} {command : RecordCommand}
    (hcommand : name = r.name → ∀ settings,
      command.onMap r m settings = (change.answer r m settings).map fun e => (d, e.2))
    (hbody : (DataFile.body (Request.after r m ⟨params, name, command⟩).entries).length < 256 ^ 8) :
    ∃ host, (withStore home params name a >>= fun _ => pure d).on { fs, runtime := some g } =
        ((Request.answer r m ⟨params, name, command⟩).map Prod.fst, host) ∧
      AtRest host.fs home c r (Request.after r m ⟨params, name, command⟩) := by
  refine on_session h hserves (fun settings => change.answer r m settings)
    (fun settings lock db hheld hhandle => hheld.write hhandle change)
    (fun _ => .ok d) (fun _ _ => rfl) (fun _ _ _ _ _ hshown => nomatch hshown)
    (sessionAnswer_congr fun hname settings => ?_) hbody
  rw [hcommand hname]
  cases change.answer r m settings <;> rfl

end OneSession

/-! ## 3. One command -/

section Equations

variable (r : StoreRecord) (m : SortedMap Bytes Bytes) (settings : OpenSettings)

theorem RecordCommand.onMap_put (key value : String) :
    (RecordCommand.put key value).onMap r m settings =
      ((Change.put (Bytes.ofText key) (Bytes.ofText value)).answer r m settings).map fun e =>
        (.document (.record
          [("kvs", .ofString r.name), ("key", .ofString key), ("stored", .bool true)]), e.2) := by
  simp only [onMap, Change.answer, Change.check]
  cases settings.readOnly with
  | true => rfl
  | false =>
    cases Limits.checkKey (Bytes.ofText key) with
    | error f => rfl
    | ok _ => cases Limits.checkValue (Bytes.ofText value) <;> rfl

/-- What a command that looks a key up shows of its value. -/
def lookedUp (name key : String) : Option Bytes → Except Fault Display
  | none => .error (Fault.keyMissing name)
  | some v => .ok (.document (.record
      [("kvs", .ofString name), ("key", .ofString key), ("value", bytesJson v),
        ("len", .ofNat v.length)]))

theorem RecordCommand.onMap_get (key : String) :
    (RecordCommand.get key).onMap r m settings =
      ((Limits.checkKey (Bytes.ofText key)).map fun _ => (m.get? (Bytes.ofText key), m)).bind
        fun e => (lookedUp r.name key e.1).map fun d => (d, e.2) := by
  simp only [onMap]
  cases Limits.checkKey (Bytes.ofText key) with
  | error f => rfl
  | ok _ => cases hvalue : m.get? (Bytes.ofText key) <;> rfl

/-- The change that a deletion makes. -/
def deletion (key : Bytes) : (wholePrefix : Bool) → Change
  | false => .delete key
  | true => .deletePrefix key

theorem RecordCommand.onMap_delete (key : String) (wholePrefix : Bool) :
    (RecordCommand.delete key wholePrefix).onMap r m settings =
      ((deletion (Bytes.ofText key) wholePrefix).answer r m settings).map fun e =>
        (.document (.record
          [("kvs", .ofString r.name), ("key", .ofString key), ("prefix", .bool wholePrefix),
            ("deleted", .bool true)]), e.2) := by
  cases wholePrefix with
  | false =>
    simp only [onMap, deletion, Change.answer, Change.check]
    cases settings.readOnly with
    | true => rfl
    | false => cases Limits.checkKey (Bytes.ofText key) <;> rfl
  | true =>
    simp only [onMap, deletion, Change.answer, Change.check]
    cases settings.readOnly with
    | true => rfl
    | false =>
      simp only [Store.ofRecord]
      by_cases hlength : r.prefixLength = 0 ∨ (Bytes.ofText key).length ≠ r.prefixLength
      · simp only [hlength, ↓reduceIte]
        rfl
      · simp only [hlength, ↓reduceIte]
        rfl

theorem RecordCommand.onMap_scan (filter : Option String) (reverse : Bool) (start : Option String)
    (limit : Option Nat) :
    (RecordCommand.scan filter reverse start limit).onMap r m settings =
      (scanAnswer m (Bytes.ofText (filter.getD "")) reverse (start.map Bytes.ofText)
        limit).map fun e =>
        (.document (.record
          [("kvs", .ofString r.name), ("count", .ofNat e.1.length),
            ("records", .array (e.1.map recordJson))]), e.2) := by
  simp only [onMap, scanAnswer]
  cases Limits.checkBound (Bytes.ofText (filter.getD "")) with
  | error f => rfl
  | ok _ =>
    cases start with
    | none => rfl
    | some key =>
      simp only [Option.map_some]
      cases Limits.checkBound (Bytes.ofText key) <;> rfl

end Equations

/-- A request answers what it answers on the map, and leaves its database at rest with the map that
it leaves. -/
theorem on_invocation {fs : FileSystem} {home : String} {c : Catalog} {r : StoreRecord}
    {m : SortedMap Bytes Bytes} {g : GlobalSettings} (h : AtRest fs home c r m) (q : Request)
    (hbody : (DataFile.body (q.after r m).entries).length < 256 ^ 8) :
    ∃ host, (q.invocation home).run.on { fs, runtime := some g } =
        ((q.answer r m).map Prod.fst, host) ∧
      AtRest host.fs home c r (q.after r m) := by
  obtain ⟨params, name, command⟩ := q
  cases command with
  | put key value =>
    refine on_write h (.put (Bytes.ofText key) (Bytes.ofText value))
      (fun handle => .onStore handle fun now txn =>
        Database.putRecord now handle txn (Bytes.ofText key) (Bytes.ofText value))
      (fun hname settings => ?_) hbody
    rw [RecordCommand.onMap_put, hname]
  | get key =>
    refine on_session h
      (fun handle => .onStore handle fun now txn =>
        Database.getRecord now handle txn (Bytes.ofText key))
      (fun _ => (Limits.checkKey (Bytes.ofText key)).map fun _ => (m.get? (Bytes.ofText key), m))
      (fun settings lock db hheld hhandle => ?_)
      (lookedUp name key) (fun value host => by cases value <;> rfl)
      (fun settings v m' f hinner _ => ?_) (sessionAnswer_congr fun hname settings => ?_) hbody
    · rw [hheld.read hhandle]
      cases Limits.checkKey (Bytes.ofText key) <;> exact ⟨_, rfl, hheld⟩
    · revert hinner
      cases Limits.checkKey (Bytes.ofText key) <;> intro hinner <;> cases hinner
      rfl
    · subst hname
      exact RecordCommand.onMap_get r m settings key
  | delete key wholePrefix =>
    refine on_write h (deletion (Bytes.ofText key) wholePrefix) (fun handle => ?_)
      (fun hname settings => ?_) hbody
    · cases wholePrefix with
      | false =>
        exact .onStore handle fun now txn =>
          Database.deleteRecord now handle txn (Bytes.ofText key)
      | true =>
        exact .onStore handle fun now txn =>
          Database.deletePrefix now handle txn (Bytes.ofText key)
    · rw [RecordCommand.onMap_delete, hname]
  | scan filter reverse start limit =>
    refine on_session h (fun handle => .scanRecords handle filter start reverse limit)
      (fun _ => scanAnswer m (Bytes.ofText (filter.getD "")) reverse
        (start.map Bytes.ofText) limit)
      (fun settings lock db hheld hhandle => hheld.scan hhandle _ reverse _ limit)
      (fun records => .ok (.document (.record
        [("kvs", .ofString name), ("count", .ofNat records.length),
          ("records", .array (records.map recordJson))])))
      (fun _ _ => rfl) (fun _ _ _ _ _ hshown => nomatch hshown)
      (sessionAnswer_congr fun hname settings => ?_) hbody
    subst hname
    rw [RecordCommand.onMap_scan]
    cases scanAnswer m (Bytes.ofText (filter.getD "")) reverse (start.map Bytes.ofText)
      limit <;> rfl

/-- A request runs as a process of its own. -/
theorem runCommand_request {fs : FileSystem} {home : String} {c : Catalog} {r : StoreRecord}
    {m : SortedMap Bytes Bytes} (h : AtRest fs home c r m) (q : Request)
    (hbody : (DataFile.body (q.after r m).entries).length < 256 ^ 8) :
    ∃ fs', runCommand fs (q.invocation home) =
        (.ofResult ((q.answer r m).map Prod.fst), fs') ∧ AtRest fs' home c r (q.after r m) := by
  obtain ⟨host, hon, hrest⟩ := on_invocation (g := GlobalSettings.scheme.initial) h q hbody
  refine ⟨host.fs, ?_, hrest⟩
  have hinit : (Host.init none []).on { fs } =
      (.ok (), { fs, runtime := some GlobalSettings.scheme.initial }) := rfl
  simp only [runCommand, Attempt.on_bind, hinit, hon]

/-! ## 4. Scripts -/

/-- Runs the program for one list of words after another; answers how each run ended. -/
def runs (fs : FileSystem) : List (List String) → List Outcome × FileSystem
  | [] => ([], fs)
  | words :: script =>
    let (outcome, fs') := run fs words
    let (outcomes, fs'') := runs fs' script
    (outcome :: outcomes, fs'')

/-- What requests answer, one after the other, when the records of the store are an ordered map. -/
def answersOf (r : StoreRecord) (m : SortedMap Bytes Bytes) : List Request → List Outcome
  | [] => []
  | q :: requests => .ofResult ((q.answer r m).map Prod.fst) :: answersOf r (q.after r m) requests

/-- The map after requests. -/
def mapAfter (r : StoreRecord) (m : SortedMap Bytes Bytes) (requests : List Request) :
    SortedMap Bytes Bytes :=
  requests.foldl (fun m q => q.after r m) m

/-- The commands on the records of a store answer what they answer on one ordered map of byte
strings, which lives on from one run of the program to the next. No data file on the way may be too
long for its length field. -/
theorem commands_refine_map {fs : FileSystem} {home : String} {c : Catalog} {r : StoreRecord}
    {m : SortedMap Bytes Bytes} (h : AtRest fs home c r m) {script : List (List String)}
    {requests : List Request}
    (hparse : List.Forall₂ (fun words q => Invocation.ofWords words = .ok (q.invocation home))
      script requests)
    (hbody : ∀ n, (DataFile.body (mapAfter r m (requests.take n)).entries).length < 256 ^ 8) :
    (runs fs script).1 = answersOf r m requests ∧
      AtRest (runs fs script).2 home c r (mapAfter r m requests) := by
  -- Along the script the home is at rest, with the map that the requests so far leave.
  induction hparse generalizing fs m with
  | nil => exact ⟨rfl, h⟩
  | @cons words q script requests hwords hscript ih =>
    obtain ⟨fs', hrun, hrest⟩ := runCommand_request h q (hbody 1)
    obtain ⟨hanswers, hrest'⟩ := ih hrest fun n => hbody (n + 1)
    have hfirst : run fs words = (.ofResult ((q.answer r m).map Prod.fst), fs') := by
      rw [run, hwords]
      exact hrun
    simp only [runs, answersOf, hfirst, hanswers]
    exact ⟨trivial, hrest'⟩

/-- A catalog with one store, whose keys have a prefix of one byte. -/
def storeCatalog : Catalog := (Catalog.ofCapacity "/db/capacity").withRecord "a" 1

/-- A home with that store, which is empty. -/
def storeHome : FileSystem where
  entries := .ofList
    [(["db"], .directory), (["db", "capacity"], .directory),
      (["db", "capacity", "a.kvs"], .file 2 (DataFile.encode 1 [])),
      (["db", "kvdb.lock"], .file 1 []),
      (["db", "kvdb.meta"], .file 0 (Bytes.ofText storeCatalog.text))]
  nextInode := 3

theorem atRest_storeHome : AtRest storeHome "/db" storeCatalog ⟨"a", 1, 1⟩ .empty where
  houses :=
    { sound := (Catalog.Sound.of_nil rfl).withRecord (by decide +kernel) (by decide) (by decide)
      nextId := by decide
      catalog := ⟨0, _, rfl, Utf8.decode?_ofText _⟩
      stores := fun r hr => by
        obtain rfl : r = ⟨"a", 1, 1⟩ := List.mem_singleton.1 hr
        exact ⟨2, _, rfl,
          DataFile.decode_encode (by decide) (fun r hr => nomatch hr) (by decide)⟩ }
  alone := rfl
  unconfigured := rfl
  replaceable := rfl
  lockable := ⟨1, _, lockHome_free rfl (by decide)⟩

/-- Three records are stored and listed, and two are deleted. -/
def storeScript : List (List String) :=
  [["--home", "/db", "put", "a", "xy", "one"],
    ["--home", "/db", "put", "a", "xz", "two"],
    ["--home", "/db", "put", "a", "ya", "three"],
    ["--home", "/db", "scan", "a", "--reverse", "--from", "xzz", "--limit", "1"],
    ["--home", "/db", "del", "a", "x", "--prefix"],
    ["--home", "/db", "del", "a", "xy", "--prefix"],
    ["--home", "/db", "get", "a", "xz"],
    ["--home", "/db", "get", "a", "ya", "--param", "read_only=true"]]

def storeRequests : List Request :=
  [⟨[], "a", .put "xy" "one"⟩, ⟨[], "a", .put "xz" "two"⟩, ⟨[], "a", .put "ya" "three"⟩,
    ⟨[], "a", .scan none true (some "xzz") (some 1)⟩, ⟨[], "a", .delete "x" true⟩,
    ⟨[], "a", .delete "xy" true⟩, ⟨[], "a", .get "xz"⟩, ⟨["read_only=true"], "a", .get "ya"⟩]

theorem parse_storeScript : List.Forall₂
    (fun words q => Invocation.ofWords words = .ok (Request.invocation "/db" q))
    storeScript storeRequests := by
  simp only [storeScript, storeRequests, List.forall₂_cons, List.forall₂_nil_left_iff]
  decide +kernel

theorem body_storeRequests (n : Nat) : (DataFile.body
    (mapAfter ⟨"a", 1, 1⟩ .empty (storeRequests.take n)).entries).length < 256 ^ 8 := by
  have hbody : ∀ k ≤ 8, (DataFile.body
      (mapAfter ⟨"a", 1, 1⟩ .empty (storeRequests.take k)).entries).length < 256 ^ 8 := by
    decide +kernel
  rw [List.take_eq_take_min]
  exact hbody _ (Nat.min_le_right n _)

theorem commands_refine_map_storeHome :
    (runs storeHome storeScript).1.map (·.exitCode) = [0, 0, 0, 0, 0, 2, 3, 0] ∧
    (runs storeHome storeScript).1[3]?.map (·.output.text) = some
      "\x7b\"kvs\":\"a\",\"count\":1,\"records\":[\x7b\"key\":\"xz\",\"value\":\"two\"\x7d]\x7d\n" ∧
    ∃ m, m.entries = [(Bytes.ofText "ya", Bytes.ofText "three")] ∧
      AtRest (runs storeHome storeScript).2 "/db" storeCatalog ⟨"a", 1, 1⟩ m := by
  obtain ⟨hanswers, hrest⟩ :=
    commands_refine_map atRest_storeHome parse_storeScript body_storeRequests
  rw [hanswers]
  exact ⟨by decide +kernel, by decide +kernel, _, by decide +kernel, hrest⟩

end CommandLine

end SnapshotKv
