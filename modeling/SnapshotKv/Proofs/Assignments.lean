import Mathlib.Data.List.Induction
import Mathlib.Data.List.Nodup
import SnapshotKv.Proofs.Kinds
import SnapshotKv.Settings.Config

/-!
# Rows of assignments

Settings come from assignments in a row: the fields of the sections of a configuration, then the
parameters of a call. Every assignment is judged, and the first one at fault ends the row, also when
a later one of the same key would do. Otherwise the last assignment of each key decides.

Results:
1. `Table`: the parameters of a scope; `Table.Sets`, `Table.Accepts`: what an assignment means;
   `Table.Decides`: what a row of assignments makes of every key.
2. `Table.fault?`: what is wrong with an assignment; `sets_iff`, `fault?_eq_none_iff`.
3. `Scheme.ofLayers_eq`: layers and parameters are assigned one after another, as one row.
4. `Scheme.Follows`: a scheme does what a table says; `follows_store`, `follows_database`,
   `follows_runtime`.
5. `Scheme.Follows.ofLayers_error_iff`, `Scheme.Follows.ofLayers_ok_iff`: what comes out of a row.
-/

namespace SnapshotKv

/-! ## 1. Tables and rows of assignments -/

/-- A parameter: its kind, and what it reads as when nothing is assigned to it. -/
structure TableEntry where
  key : String
  kind : Kind
  initial : String

/-- The parameters of a scope, each under a key of its own. -/
structure Table where
  scope : String
  entries : List TableEntry
  distinct : (entries.map (·.key)).Nodup

/-- The parameters for opening a store. -/
def storeTable : Table := ⟨"kvs", [⟨"transactions.enabled", .switch, "false"⟩], by decide⟩

/-- The parameters for opening a database. -/
def databaseTable : Table :=
  ⟨"kvdb", [⟨"read_only", .switch, "false"⟩, ⟨"txn_timeout", .count, "10000"⟩], by decide⟩

/-- The parameters of the runtime. -/
def runtimeTable : Table :=
  ⟨"global", [⟨"logging.enabled", .switch, "false"⟩, ⟨"logging.level", .level, "info"⟩], by decide⟩

/-- An assignment as it is written: a field of a JSON object, or a text `key=value`. -/
inductive Assignment where
  | field (key : String) (value : Json)
  | text (param : String)

namespace Assignment

/-- The fields of an object, in the order of their names. -/
def ofLayer (layer : Layer) : List Assignment := layer.entries.map fun e => .field e.1 e.2

/-- The parameters of a call. -/
def ofParams (params : List String) : List Assignment := params.map .text

/-- The key of an assignment and the text of its value. Those of a text are trimmed, those of a
field are taken as they are. -/
def pair (scope : String) : Assignment → Except Fault (String × String)
  | .field key value =>
    match value.scalar? with
    | some shown => pure (key, shown)
    | none => throw (Fault.notAScalar scope key)
  | .text param => Param.split param

end Assignment

namespace Table

variable {t : Table} {a : Assignment} {row : List Assignment} {key key' value shown shown' : String}

/-- An assignment gives a key of the scope a value of its kind, and the key reads as a text then. -/
inductive Sets (t : Table) : Assignment → String → String → Prop
  | field {e : TableEntry} {x : Json} {shown : String} (he : e ∈ t.entries)
      (hx : e.kind.TakesValue x shown) : t.Sets (.field e.key x) e.key shown
  | text {e : TableEntry} {param value shown : String} (he : e ∈ t.entries)
      (hpair : Param.WritesPair param e.key value) (hvalue : e.kind.Takes value shown) :
      t.Sets (.text param) e.key shown

/-- An assignment that is well-formed, of a known key, and of the type of its key. -/
def Accepts (t : Table) (a : Assignment) : Prop := ∃ key shown, t.Sets a key shown

/-- What a key reads as after a row of assignments: what the last one of the key makes of it, and the
initial text if there is none. -/
inductive Decides (t : Table) (row : List Assignment) : String → String → Prop
  | last {before after : List Assignment} {a : Assignment} {key shown : String}
      (hrow : row = before ++ a :: after) (ha : t.Sets a key shown)
      (hlast : ∀ b ∈ after, ∀ other, ¬ t.Sets b key other) : t.Decides row key shown
  | initial {e : TableEntry} (he : e ∈ t.entries)
      (hnone : ∀ b ∈ row, ∀ other, ¬ t.Sets b e.key other) : t.Decides row e.key e.initial

/-! ## 2. Faults -/

/-- The parameter of a key. -/
def entry? (t : Table) (key : String) : Option TableEntry := t.entries.find? (·.key == key)

/-- What a key reads as when nothing is assigned; none for an unknown key. -/
def initial (t : Table) (key : String) : Option String := (t.entry? key).map (·.initial)

/-- What a key reads as when a text is assigned to it. -/
def taken (t : Table) (key value : String) : Except Fault String :=
  match t.entry? key with
  | some e => e.kind.taken key value
  | none => .error (Fault.unknownParam t.scope key)

/-- What is wrong with an assignment: it is malformed, or its key is unknown, or its value is not of
the type of the key. -/
def fault? (t : Table) (a : Assignment) : Option Fault :=
  match a.pair t.scope with
  | .ok (key, value) =>
    match t.taken key value with
    | .ok _ => none
    | .error f => some f
  | .error f => some f

/-- How the fault of an assignment comes about. -/
inductive Judged (t : Table) (a : Assignment) : Option Fault → Prop
  | malformed {f : Fault} (hpair : a.pair t.scope = .error f) : t.Judged a (some f)
  | refused {key value : String} {f : Fault} (hpair : a.pair t.scope = .ok (key, value))
      (htaken : t.taken key value = .error f) : t.Judged a (some f)
  | taken {key value shown : String} (hpair : a.pair t.scope = .ok (key, value))
      (htaken : t.taken key value = .ok shown) : t.Judged a none

theorem judged (t : Table) (a : Assignment) : t.Judged a (t.fault? a) := by
  unfold fault?
  cases hpair : a.pair t.scope with
  | error f => exact .malformed hpair
  | ok pair =>
    cases htaken : t.taken pair.1 pair.2 with
    | error f =>
      simp only [htaken]
      exact .refused hpair htaken
    | ok shown =>
      simp only [htaken]
      exact .taken hpair htaken

theorem entry?_eq_some_iff {e : TableEntry} :
    t.entry? key = some e ↔ e ∈ t.entries ∧ e.key = key := by
  constructor
  · intro h
    have hkey := List.find?_some h
    exact ⟨List.mem_of_find?_eq_some h, beq_iff_eq.1 hkey⟩
  · rintro ⟨he, rfl⟩
    obtain ⟨e', he'⟩ : ∃ e', t.entry? e.key = some e' :=
      Option.isSome_iff_exists.1 (List.find?_isSome.2 ⟨e, he, beq_self_eq_true _⟩)
    have hkey := List.find?_some he'
    rw [he', List.inj_on_of_nodup_map t.distinct (List.mem_of_find?_eq_some he') he
      (beq_iff_eq.1 hkey)]

theorem taken_eq_ok_iff : t.taken key value = .ok shown ↔
    ∃ e ∈ t.entries, e.key = key ∧ e.kind.Takes value shown := by
  unfold taken
  constructor
  · intro h
    cases hentry : t.entry? key with
    | none =>
      rw [hentry] at h
      cases h
    | some e =>
      rw [hentry] at h
      obtain ⟨he, hkey⟩ := entry?_eq_some_iff.1 hentry
      exact ⟨e, he, hkey, Kind.taken_eq_ok_iff.1 h⟩
  · rintro ⟨e, he, hkey, htakes⟩
    rw [entry?_eq_some_iff.2 ⟨he, hkey⟩]
    exact Kind.taken_eq_ok_iff.2 htakes

/-- An assignment sets a key when it is cut into that key and a text that the key takes. -/
theorem sets_iff : t.Sets a key shown ↔
    ∃ value, a.pair t.scope = .ok (key, value) ∧ t.taken key value = .ok shown := by
  constructor
  · intro h
    cases h with
    | field he hx =>
      obtain ⟨value, hscalar, htakes⟩ := Kind.takesValue_iff.1 hx
      refine ⟨value, ?_, taken_eq_ok_iff.2 ⟨_, he, rfl, htakes⟩⟩
      rw [Assignment.pair, hscalar]
      rfl
    | text he hpair hvalue =>
      exact ⟨_, Param.split_eq_ok_iff.2 hpair, taken_eq_ok_iff.2 ⟨_, he, rfl, hvalue⟩⟩
  · rintro ⟨value, hpair, htaken⟩
    obtain ⟨e, he, rfl, htakes⟩ := taken_eq_ok_iff.1 htaken
    cases a with
    | text param => exact .text he (Param.split_eq_ok_iff.1 hpair) htakes
    | field name x =>
      cases hscalar : x.scalar? with
      | none =>
        rw [Assignment.pair, hscalar] at hpair
        cases hpair
      | some text =>
        rw [Assignment.pair, hscalar] at hpair
        cases hpair
        exact .field he (Kind.takesValue_iff.2 ⟨_, hscalar, htakes⟩)

/-- Nothing is wrong with an assignment that is accepted, and with no other. -/
theorem fault?_eq_none_iff : t.fault? a = none ↔ t.Accepts a := by
  have hjudged := t.judged a
  constructor
  · intro h
    rw [h] at hjudged
    cases hjudged with
    | taken hpair htaken => exact ⟨_, _, sets_iff.2 ⟨_, hpair, htaken⟩⟩
  · rintro ⟨key, shown, hsets⟩
    obtain ⟨value, hpair, htaken⟩ := sets_iff.1 hsets
    unfold fault?
    simp only [hpair, htaken]

/-- An assignment sets one key to one text. -/
theorem Sets.unique (h : t.Sets a key shown) (h' : t.Sets a key' shown') :
    key' = key ∧ shown' = shown := by
  obtain ⟨value, hpair, htaken⟩ := sets_iff.1 h
  obtain ⟨value', hpair', htaken'⟩ := sets_iff.1 h'
  cases hpair.symm.trans hpair'
  cases htaken.symm.trans htaken'
  exact ⟨rfl, rfl⟩

/-! What one more assignment makes of a row. -/

theorem initial_eq_some_iff : t.initial key = some shown ↔ t.Decides [] key shown := by
  unfold initial
  rw [Option.map_eq_some_iff]
  constructor
  · rintro ⟨e, hentry, rfl⟩
    obtain ⟨he, rfl⟩ := entry?_eq_some_iff.1 hentry
    exact .initial he fun b hb => absurd hb List.not_mem_nil
  · intro h
    cases h with
    | last hrow => exact absurd hrow.symm (List.append_ne_nil_of_right_ne_nil _ (List.cons_ne_nil _ _))
    | initial he => exact ⟨_, entry?_eq_some_iff.2 ⟨he, rfl⟩, rfl⟩

/-- An assignment in a row of one more is the last one, or stands in the row before it. -/
theorem append_singleton_cases {before after : List Assignment} {b : Assignment}
    (h : row ++ [a] = before ++ b :: after) :
    after = [] ∧ b = a ∨ ∃ after', after = after' ++ [a] ∧ row = before ++ b :: after' := by
  rcases List.eq_nil_or_concat after with rfl | ⟨after', c, rfl⟩
  · exact .inl ⟨rfl, (List.cons.inj (List.append_inj' h rfl).2).1.symm⟩
  · rw [List.concat_eq_append] at h ⊢
    rw [← List.cons_append, ← List.append_assoc] at h
    obtain ⟨hrow, ha⟩ := List.append_inj' h rfl
    exact .inr ⟨after', by rw [ha], hrow⟩

/-- The assignment of a key decides it. -/
theorem decides_append_of_sets (ha : t.Sets a key shown) :
    t.Decides (row ++ [a]) key shown' ↔ shown = shown' := by
  constructor
  · intro h
    cases h with
    | last hrow hb hlast =>
      rcases append_singleton_cases hrow with ⟨rfl, rfl⟩ | ⟨after', rfl, -⟩
      · exact (hb.unique ha).2
      · exact absurd ha (hlast a (List.mem_append_right _ List.mem_cons_self) shown)
    | initial he hnone =>
      exact absurd ha (hnone a (List.mem_append_right _ List.mem_cons_self) shown)
  · rintro rfl
    exact .last rfl ha fun b hb => absurd hb List.not_mem_nil

/-- One of another key does not. -/
theorem decides_append_of_not_sets (ha : ∀ other, ¬ t.Sets a key other) :
    t.Decides (row ++ [a]) key shown ↔ t.Decides row key shown := by
  constructor
  · intro h
    cases h with
    | last hrow hb hlast =>
      rcases append_singleton_cases hrow with ⟨rfl, rfl⟩ | ⟨after', rfl, hrow'⟩
      · exact absurd hb (ha _)
      · exact .last hrow' hb fun c hc => hlast c (List.mem_append_left _ hc)
    | initial he hnone => exact .initial he fun b hb => hnone b (List.mem_append_left _ hb)
  · intro h
    cases h with
    | @last before after b _ _ hrow hb hlast =>
      have hrow' : row ++ [a] = before ++ b :: (after ++ [a]) := by
        rw [hrow, List.append_assoc, List.cons_append]
      exact .last hrow' hb (List.forall_mem_append.2 ⟨hlast, List.forall_mem_singleton.2 ha⟩)
    | initial he hnone =>
      exact .initial he (List.forall_mem_append.2 ⟨hnone, List.forall_mem_singleton.2 ha⟩)

end Table

/-! ## 3. Layers as one row -/

/-- The settings after an assignment. -/
def Scheme.assignOne {σ : Type} (S : Scheme σ) (s : σ) (a : Assignment) : Except Fault σ := do
  let (key, value) ← a.pair S.scope
  S.assign s key value

namespace AssignmentLemmas

variable {σ α : Type}

/-- The settings that an attempt leaves when it succeeds. -/
def outcome : Except Fault Unit × σ → Except Fault σ
  | (.ok (), s) => .ok s
  | (.error f, _) => .error f

theorem outcome_bind (a b : Attempt σ Unit) (s : σ) :
    outcome ((a >>= fun _ => b).on s) = outcome (a.on s) >>= fun s' => outcome (b.on s') := by
  rw [Attempt.on_bind]
  rcases a.on s with ⟨_ | _, s'⟩ <;> rfl

theorem outcome_forM {f : α → Attempt σ Unit} {g : σ → α → Except Fault σ}
    (h : ∀ x s, outcome ((f x).on s) = g s x) (l : List α) (s : σ) :
    outcome ((l.forM f).on s) = l.foldlM g s := by
  induction l generalizing s with
  | nil => rfl
  | cons x rest ih =>
    show outcome ((f x >>= fun _ => rest.forM f).on s) = _
    rw [outcome_bind, h, List.foldlM_cons]
    exact congrArg _ (funext ih)

variable (S : Scheme σ)

theorem outcome_assignKey (key value : String) (s : σ) :
    outcome ((S.assignKey key value).on s) = S.assign s key value := by
  rw [Scheme.assignKey, Attempt.on_ofStep]
  cases S.assign s key value <;> rfl

theorem outcome_applyPair (param : String) (s : σ) :
    outcome ((S.applyPair param).on s) = S.assignOne s (.text param) := by
  rw [Scheme.applyPair, Attempt.on_bind, Attempt.on_check]
  show _ = Param.split param >>= _
  cases Param.split param with
  | error f => rfl
  | ok pair => exact outcome_assignKey S pair.1 pair.2 s

theorem outcome_applyField (field : String × Json) (s : σ) :
    outcome ((S.applyField field).on s) = S.assignOne s (.field field.1 field.2) := by
  rw [Scheme.applyField, Scheme.assignOne, Assignment.pair]
  cases field.2.scalar? with
  | none => rfl
  | some value => exact outcome_assignKey S field.1 value s

theorem outcome_applyLayer (layer : Layer) (s : σ) :
    outcome ((S.applyLayer layer).on s) = (Assignment.ofLayer layer).foldlM S.assignOne s := by
  rw [Assignment.ofLayer, List.foldlM_map]
  exact outcome_forM (outcome_applyField S) layer.entries s

theorem outcome_applyPairs (params : List String) (s : σ) :
    outcome ((S.applyPairs params).on s) = (Assignment.ofParams params).foldlM S.assignOne s := by
  rw [Assignment.ofParams, List.foldlM_map]
  exact outcome_forM (outcome_applyPair S) params s

theorem outcome_applyLayers (layers : List Layer) (s : σ) :
    outcome ((layers.forM S.applyLayer).on s) =
      (layers.flatMap Assignment.ofLayer).foldlM S.assignOne s := by
  rw [outcome_forM (outcome_applyLayer S)]
  induction layers generalizing s with
  | nil => rfl
  | cons layer rest ih =>
    rw [List.foldlM_cons, List.flatMap_cons, List.foldlM_append]
    exact congrArg _ (funext ih)

theorem resolve_eq (a : Attempt σ Unit) : S.resolve a = outcome (a.on S.initial) := by
  unfold Scheme.resolve
  rcases a.on S.initial with ⟨_ | _, s⟩ <;> rfl

end AssignmentLemmas

open AssignmentLemmas

/-- Layers and parameters are one row of assignments to the initial settings. -/
theorem Scheme.ofLayers_eq {σ : Type} (S : Scheme σ) (layers : List Layer) (params : List String) :
    S.ofLayers layers params =
      (layers.flatMap Assignment.ofLayer ++ Assignment.ofParams params).foldlM S.assignOne
        S.initial := by
  rw [Scheme.ofLayers, resolve_eq, outcome_bind, outcome_applyLayers, List.foldlM_append]
  exact congrArg _ (funext (outcome_applyPairs S params))

/-! ## 4. Schemes that do what a table says -/

namespace Scheme

variable {σ : Type}

/-- The settings take a text for a key as the outcome says: the key reads as told then and no other
key has changed, or the text is refused. -/
def Takes (S : Scheme σ) (s : σ) (key value : String) : Except Fault String → Prop
  | .ok shown => ∃ s', S.assign s key value = .ok s' ∧
      ∀ key', S.read s' key' = if key' = key then some shown else S.read s key'
  | .error f => f.kind = .usage ∧ S.assign s key value = .error f

/-- A scheme does what a table says, whatever was assigned before, and its settings have nothing in
them that no key reads. -/
structure Follows (S : Scheme σ) (t : Table) : Prop where
  scope : S.scope = t.scope
  initial : ∀ key, S.read S.initial key = t.initial key
  takes : ∀ key value s, S.Takes s key value (t.taken key value)
  ext : ∀ s s', (∀ key, S.read s key = S.read s' key) → s = s'

end Scheme

namespace AssignmentLemmas

theorem kind_of_readBool {key value : String} {f : Fault}
    (h : Param.readBool key value = .error f) : f.kind = .usage := by
  unfold Param.readBool at h
  split at h
  · cases h
  · split at h <;> cases h
    rfl

theorem kind_of_readNat {key value : String} {f : Fault}
    (h : Param.readNat key value = .error f) : f.kind = .usage := by
  unfold Param.readNat at h
  split at h <;> cases h
  rfl

theorem kind_of_readLevel {key value : String} {f : Fault}
    (h : Kind.readLevel key value = .error f) : f.kind = .usage := by
  unfold Kind.readLevel at h
  split at h <;> cases h
  rfl

theorem kind_of_pair {scope : String} {a : Assignment} {f : Fault} (h : a.pair scope = .error f) :
    f.kind = .usage := by
  cases a with
  | field key value =>
    simp only [Assignment.pair] at h
    split at h <;> cases h
    rfl
  | text param =>
    simp only [Assignment.pair, Param.split] at h
    split at h
    · split at h <;> cases h
      rfl
    · cases h
      rfl

theorem toString_bool_inj {a b : Bool} (h : toString a = toString b) : a = b := by
  cases a <;> cases b <;> first | rfl | exact absurd h (by decide)

theorem toString_nat_inj {m n : Nat} (h : toString m = toString n) : m = n := by
  have hdigits : Nat.toDigits 10 m = Nat.toDigits 10 n := String.ofList_injective h
  rw [← @Nat.ofDigitChars_toDigits 10 m (by decide) (by decide), hdigits,
    Nat.ofDigitChars_toDigits (by decide) (by decide)]

theorem name_inj {a b : LogLevel} (h : a.name = b.name) : a = b := by
  cases a <;> cases b <;> first | rfl | exact absurd h (by decide)

/-- A text is taken that is parsed and put into the settings. -/
theorem takes_of_parse {σ β : Type} {S : Scheme σ} {s : σ} {key value : String}
    (parsed : Except Fault β) (put : σ → β → σ) (shown : β → String)
    (hassign : S.assign s key value = parsed >>= fun x => pure (put s x))
    (hkind : ∀ {f}, parsed = .error f → f.kind = .usage)
    (hread : ∀ x key', S.read (put s x) key' =
      if key' = key then some (shown x) else S.read s key') :
    S.Takes s key value (parsed.map shown) := by
  cases hparsed : parsed with
  | error f =>
    rw [hparsed] at hassign
    exact ⟨hkind hparsed, hassign⟩
  | ok x =>
    rw [hparsed] at hassign
    exact ⟨put s x, hassign, hread x⟩

theorem takes_unknown {σ : Type} {S : Scheme σ} {s : σ} {scope key value : String}
    (hassign : S.assign s key value = .error (Fault.unknownParam scope key)) :
    S.Takes s key value (.error (Fault.unknownParam scope key)) := ⟨rfl, hassign⟩

end AssignmentLemmas

theorem follows_store : StoreSettings.scheme.Follows storeTable where
  scope := rfl
  initial := fun key => by
    by_cases hkey : "transactions.enabled" = key
    · subst hkey
      rfl
    · simp [StoreSettings.scheme, storeTable, Table.initial, Table.entry?, hkey, Ne.symm hkey]
  takes := fun key value s => by
    by_cases hkey : "transactions.enabled" = key
    · subst hkey
      refine takes_of_parse (Param.readBool "transactions.enabled" value)
        (fun s b => { s with transactional := b }) toString rfl kind_of_readBool fun b key' => ?_
      by_cases hkey' : key' = "transactions.enabled" <;> simp [StoreSettings.scheme, hkey']
    · have hunknown : storeTable.taken key value = .error (Fault.unknownParam "kvs" key) := by
        simp [storeTable, Table.taken, Table.entry?, hkey]
      rw [hunknown]
      exact takes_unknown (if_neg (Ne.symm hkey))
  ext := fun s s' h => by
    obtain ⟨transactional⟩ := s
    obtain ⟨transactional'⟩ := s'
    obtain rfl : transactional = transactional' :=
      toString_bool_inj (Option.some.inj (h "transactions.enabled"))
    rfl

theorem follows_database : OpenSettings.scheme.Follows databaseTable where
  scope := rfl
  initial := fun key => by
    by_cases hreadOnly : "read_only" = key
    · subst hreadOnly
      rfl
    · by_cases htimeout : "txn_timeout" = key
      · subst htimeout
        rfl
      · simp [OpenSettings.scheme, databaseTable, Table.initial, Table.entry?, hreadOnly,
          htimeout, Ne.symm hreadOnly, Ne.symm htimeout]
  takes := fun key value s => by
    by_cases hreadOnly : "read_only" = key
    · subst hreadOnly
      refine takes_of_parse (Param.readBool "read_only" value)
        (fun s b => { s with readOnly := b }) toString rfl kind_of_readBool fun b key' => ?_
      by_cases hkey' : key' = "read_only" <;> simp [OpenSettings.scheme, hkey']
    · by_cases htimeout : "txn_timeout" = key
      · subst htimeout
        refine takes_of_parse (Param.readNat "txn_timeout" value)
          (fun s n => { s with txnTimeout := n }) toString rfl kind_of_readNat fun n key' => ?_
        by_cases hkey' : key' = "txn_timeout" <;> simp [OpenSettings.scheme, hkey']
      · have hunknown : databaseTable.taken key value =
            .error (Fault.unknownParam "kvdb" key) := by
          simp [databaseTable, Table.taken, Table.entry?, hreadOnly, htimeout]
        rw [hunknown]
        exact takes_unknown
          ((if_neg (Ne.symm hreadOnly)).trans (if_neg (Ne.symm htimeout)))
  ext := fun s s' h => by
    obtain ⟨readOnly, txnTimeout⟩ := s
    obtain ⟨readOnly', txnTimeout'⟩ := s'
    obtain rfl : readOnly = readOnly' := toString_bool_inj (Option.some.inj (h "read_only"))
    obtain rfl : txnTimeout = txnTimeout' :=
      toString_nat_inj (Option.some.inj (h "txn_timeout"))
    rfl

theorem follows_runtime : GlobalSettings.scheme.Follows runtimeTable where
  scope := rfl
  initial := fun key => by
    by_cases henabled : "logging.enabled" = key
    · subst henabled
      rfl
    · by_cases hlevel : "logging.level" = key
      · subst hlevel
        rfl
      · simp [GlobalSettings.scheme, runtimeTable, Table.initial, Table.entry?, henabled,
          hlevel, Ne.symm henabled, Ne.symm hlevel]
  takes := fun key value s => by
    by_cases henabled : "logging.enabled" = key
    · subst henabled
      refine takes_of_parse (Param.readBool "logging.enabled" value)
        (fun s b => { s with loggingEnabled := b }) toString rfl kind_of_readBool fun b key' => ?_
      by_cases hkey' : key' = "logging.enabled" <;> simp [GlobalSettings.scheme, hkey']
    · by_cases hlevel : "logging.level" = key
      · subst hlevel
        refine takes_of_parse (Kind.readLevel "logging.level" value)
          (fun s l => { s with logLevel := l }) LogLevel.name ?_ kind_of_readLevel fun l key' => ?_
        · simp only [GlobalSettings.scheme, Kind.readLevel, String.reduceEq, ↓reduceIte]
          cases LogLevel.ofText? value <;> rfl
        · by_cases hkey' : key' = "logging.level" <;> simp [GlobalSettings.scheme, hkey']
      · have hunknown : runtimeTable.taken key value =
            .error (Fault.unknownParam "global" key) := by
          simp [runtimeTable, Table.taken, Table.entry?, henabled, hlevel]
        rw [hunknown]
        exact takes_unknown ((if_neg (Ne.symm henabled)).trans (if_neg (Ne.symm hlevel)))
  ext := fun s s' h => by
    obtain ⟨enabled, level⟩ := s
    obtain ⟨enabled', level'⟩ := s'
    obtain rfl : enabled = enabled' := toString_bool_inj (Option.some.inj (h "logging.enabled"))
    obtain rfl : level = level' := name_inj (Option.some.inj (h "logging.level"))
    rfl

/-! ## 5. What comes out of a row -/

namespace Scheme.Follows

variable {σ : Type} {S : Scheme σ} {t : Table} {a : Assignment} {row : List Assignment}

/-- What is wrong with an assignment is a fault of the usage. -/
theorem kind_of_fault? (h : S.Follows t) {f : Fault} (ha : t.fault? a = some f) :
    f.kind = .usage := by
  have hjudged := t.judged a
  rw [ha] at hjudged
  cases hjudged with
  | malformed hpair => exact kind_of_pair hpair
  | @refused key value _ hpair htaken =>
    have htakes := h.takes key value S.initial
    rw [htaken] at htakes
    exact htakes.1

/-- An assignment at fault is refused whatever was assigned before. -/
theorem assignOne_error (h : S.Follows t) {f : Fault} (ha : t.fault? a = some f) (s : σ) :
    S.assignOne s a = .error f := by
  have hjudged := t.judged a
  rw [ha] at hjudged
  rw [Scheme.assignOne, h.scope]
  cases hjudged with
  | malformed hpair =>
    rw [hpair]
    rfl
  | @refused key value _ hpair htaken =>
    have htakes := h.takes key value s
    rw [htaken] at htakes
    rw [hpair]
    exact htakes.2

/-- Any other assignment sets its key and leaves the others. -/
theorem assignOne_ok (h : S.Follows t) {key shown : String} (ha : t.Sets a key shown) (s : σ) :
    ∃ s', S.assignOne s a = .ok s' ∧
      ∀ key', S.read s' key' = if key' = key then some shown else S.read s key' := by
  obtain ⟨value, hpair, htaken⟩ := Table.sets_iff.1 ha
  have htakes := h.takes key value s
  rw [htaken] at htakes
  obtain ⟨s', hassign, hread⟩ := htakes
  refine ⟨s', ?_, hread⟩
  rw [Scheme.assignOne, h.scope, hpair]
  exact hassign

/-- The first assignment at fault ends a row. -/
theorem foldlM_error (h : S.Follows t) {f : Fault} (hrow : row.findSome? t.fault? = some f) (s : σ) :
    row.foldlM S.assignOne s = .error f := by
  induction row generalizing s with
  | nil => cases hrow
  | cons a rest ih =>
    rw [List.foldlM_cons]
    rw [List.findSome?_cons] at hrow
    cases ha : t.fault? a with
    | some f' =>
      rw [ha] at hrow
      cases hrow
      rw [h.assignOne_error ha]
      rfl
    | none =>
      rw [ha] at hrow
      obtain ⟨key, shown, hsets⟩ := Table.fault?_eq_none_iff.1 ha
      obtain ⟨s', hassign, -⟩ := h.assignOne_ok hsets s
      rw [hassign]
      exact ih hrow s'

/-- A row without an assignment at fault is assigned to its end, and the last assignment of each key
decides. -/
theorem foldlM_ok (h : S.Follows t) (hrow : ∀ a ∈ row, t.Accepts a) :
    ∃ s, row.foldlM S.assignOne S.initial = .ok s ∧
      ∀ key shown, S.read s key = some shown ↔ t.Decides row key shown := by
  induction row using List.reverseRecOn with
  | nil =>
    refine ⟨S.initial, rfl, fun key shown => ?_⟩
    rw [h.initial]
    exact Table.initial_eq_some_iff
  | append_singleton row a ih =>
    obtain ⟨hfirst, ha⟩ := List.forall_mem_append.1 hrow
    obtain ⟨key, shown, hsets⟩ := List.forall_mem_singleton.1 ha
    obtain ⟨s, hs, hread⟩ := ih hfirst
    obtain ⟨s', hassign, hread'⟩ := h.assignOne_ok hsets s
    refine ⟨s', ?_, fun key' shown' => ?_⟩
    · rw [List.foldlM_append, hs]
      show [a].foldlM S.assignOne s = _
      rw [List.foldlM_cons, hassign]
      rfl
    · rw [hread']
      by_cases hkey : key' = key
      · subst hkey
        rw [if_pos rfl, Table.decides_append_of_sets hsets, Option.some_inj]
      · rw [if_neg hkey, hread,
          Table.decides_append_of_not_sets fun other hother => hkey (hsets.unique hother).1]

variable {layers : List Layer} {params : List String}

/-- Layers and parameters are refused with the first fault of their row. -/
theorem ofLayers_error_iff (h : S.Follows t) {f : Fault} :
    S.ofLayers layers params = .error f ↔
      (layers.flatMap Assignment.ofLayer ++ Assignment.ofParams params).findSome? t.fault? =
        some f := by
  rw [S.ofLayers_eq]
  cases hrow : (layers.flatMap Assignment.ofLayer ++ Assignment.ofParams params).findSome?
      t.fault? with
  | some f' =>
    rw [h.foldlM_error hrow]
    exact ⟨fun heq => congrArg some (Except.error.inj heq),
      fun heq => congrArg Except.error (Option.some.inj heq)⟩
  | none =>
    obtain ⟨s, hs, -⟩ := h.foldlM_ok fun a ha =>
      Table.fault?_eq_none_iff.1 (List.findSome?_eq_none_iff.1 hrow a ha)
    rw [hs]
    exact ⟨fun heq => (nomatch heq), fun heq => (nomatch heq)⟩

/-- Layers and parameters without a fault give the settings whose every key reads as the last
assignment says. -/
theorem ofLayers_ok_iff (h : S.Follows t) {s : σ} :
    S.ofLayers layers params = .ok s ↔
      (∀ a ∈ layers.flatMap Assignment.ofLayer ++ Assignment.ofParams params, t.Accepts a) ∧
        ∀ key shown, S.read s key = some shown ↔
          t.Decides (layers.flatMap Assignment.ofLayer ++ Assignment.ofParams params) key shown := by
  rw [S.ofLayers_eq]
  constructor
  · intro heq
    have hrow : ∀ a ∈ layers.flatMap Assignment.ofLayer ++ Assignment.ofParams params,
        t.Accepts a := by
      intro a ha
      refine Table.fault?_eq_none_iff.1 ?_
      cases hfault : (layers.flatMap Assignment.ofLayer ++ Assignment.ofParams params).findSome?
          t.fault? with
      | none => exact List.findSome?_eq_none_iff.1 hfault a ha
      | some f =>
        rw [h.foldlM_error hfault] at heq
        cases heq
    obtain ⟨s', hs', hread⟩ := h.foldlM_ok hrow
    cases hs'.symm.trans heq
    exact ⟨hrow, hread⟩
  · rintro ⟨hrow, hread⟩
    obtain ⟨s', hs', hread'⟩ := h.foldlM_ok hrow
    rw [hs']
    refine congrArg _ (h.ext s' s fun key => Option.ext fun shown => ?_)
    rw [hread', hread]

end Scheme.Follows

end SnapshotKv
