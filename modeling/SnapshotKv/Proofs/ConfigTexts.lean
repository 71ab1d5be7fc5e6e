import Mathlib.Data.List.Forall2
import Mathlib.Data.List.Induction
import Mathlib.Data.List.Nodup
import SnapshotKv.Proofs.Containers
import SnapshotKv.Proofs.JsonGrammar
import SnapshotKv.Proofs.Loading
import SnapshotKv.Proofs.Scalars

/-!
# What the texts of configurations say

A configuration file is a JSON document of a certain shape. Names may come more than once in a
section, and sections more than once among those of the stores; then the last one counts. The two
parts of the file may not.

Results:
1. `Json.Sound`, `isSound_iff`: documents that mean something.
2. `LastOf`, `SortedMap.ofList_eq_iff`: last entries; `Json.Fields`, `namedFields?_eq_some_iff`: the
   fields of an object.
3. `Json.Section`, `Json.Sections`: `layer?_eq_some_iff`, `sections?_eq_some_iff`.
4. `Config.WrittenAs`, `Config.ofText?_eq_some_iff`; `Config.WrittenGlobal`,
   `Config.globalOfText?_eq_some_iff`: what texts write.
5. `FileSystem.Configures`, `loadConfig_eq_ok_iff`; `loadGlobalConfig_eq_ok_iff`: what files write.
-/

namespace SnapshotKv

open Storage

/-! ## 1. Sound documents -/

namespace Json

/-- A document whose strings stand for texts, whose numbers are in range, and whose containers nest
at most so deep. -/
inductive Sound : Nat → Json → Prop
  | null {room : Nat} : Sound room .null
  | bool {room : Nat} (b : Bool) : Sound room (.bool b)
  | string {room : Nat} {s : JsonText} {cs : List Char} (h : s.Means cs) : Sound room (.string s)
  | number {room : Nat} {n : Numeral} {v : Number} (h : n.value? = some v) : Sound room (.number n)
  | array {room : Nat} {items : List Json} (h : ∀ x ∈ items, Sound room x) :
      Sound (room + 1) (.array items)
  | object {room : Nat} {fields : List (JsonText × Json)}
      (hnames : ∀ e ∈ fields, ∃ cs, e.1.Means cs) (hvalues : ∀ e ∈ fields, Sound room e.2) :
      Sound (room + 1) (.object fields)

theorem itemsSound_iff {room : Nat} {items : List Json} :
    itemsSound room items = true ↔ ∀ x ∈ items, isSound room x = true := by
  induction items with
  | nil => simp [itemsSound]
  | cons x rest ih => rw [itemsSound, Bool.and_eq_true, ih, List.forall_mem_cons]

theorem fieldsSound_iff {room : Nat} {fields : List (JsonText × Json)} :
    fieldsSound room fields = true ↔
      ∀ e ∈ fields, e.1.decode?.isSome = true ∧ isSound room e.2 = true := by
  induction fields with
  | nil => simp [fieldsSound]
  | cons e rest ih =>
    rw [fieldsSound, Bool.and_eq_true, Bool.and_eq_true, ih, List.forall_mem_cons]

theorem decode?_isSome_iff {s : JsonText} : s.decode?.isSome = true ↔ ∃ cs, s.Means cs := by
  simp only [Option.isSome_iff_exists, JsonText.decode?_eq_some_iff]

theorem isSound_string_iff {room : Nat} {s : JsonText} :
    (string s).isSound room = true ↔ Sound room (.string s) := by
  rw [isSound, decode?_isSome_iff]
  constructor
  · rintro ⟨cs, h⟩
    exact .string h
  · intro h
    cases h with
    | string h => exact ⟨_, h⟩

theorem isSound_number_iff {room : Nat} {n : Numeral} :
    (number n).isSound room = true ↔ Sound room (.number n) := by
  rw [isSound, Option.isSome_iff_exists]
  constructor
  · rintro ⟨v, h⟩
    exact .number h
  · intro h
    cases h with
    | number h => exact ⟨_, h⟩

theorem isSound_iff {room : Nat} {x : Json} : x.isSound room = true ↔ x.Sound room := by
  induction room generalizing x with
  | zero =>
    cases x with
    | null => exact ⟨fun _ => .null, fun _ => by rw [isSound]⟩
    | bool b => exact ⟨fun _ => .bool b, fun _ => by rw [isSound]⟩
    | string s => exact isSound_string_iff
    | number n => exact isSound_number_iff
    | array | object =>
      rw [isSound]
      exact ⟨fun h => (nomatch h), fun h => (nomatch h)⟩
  | succ room ih =>
    cases x with
    | null => exact ⟨fun _ => .null, fun _ => by rw [isSound]⟩
    | bool b => exact ⟨fun _ => .bool b, fun _ => by rw [isSound]⟩
    | string s => exact isSound_string_iff
    | number n => exact isSound_number_iff
    | array items =>
      simp only [isSound, itemsSound_iff, ih]
      constructor
      · exact .array
      · intro h
        cases h with
        | array h => exact h
    | object fields =>
      simp only [isSound, fieldsSound_iff, decode?_isSome_iff, ih]
      constructor
      · exact fun h => .object (fun e he => (h e he).1) fun e he => (h e he).2
      · intro h
        cases h with
        | object hnames hvalues => exact fun e he => ⟨hnames e he, hvalues e he⟩

end Json

/-! ## 2. Fields -/

/-- The last entry of a name. -/
def LastOf {α : Type} (l : List (String × α)) (name : String) (a : α) : Prop :=
  ∃ before after, l = before ++ (name, a) :: after ∧ ∀ e ∈ after, e.1 ≠ name

theorem lastOf_iff {α : Type} {l : List (String × α)} {name : String} {a : α} :
    LastOf l name a ↔ l.reverse.lookup name = some a := by
  rw [List.lookup_eq_some_iff]
  constructor
  · rintro ⟨before, after, rfl, hafter⟩
    refine ⟨after.reverse, before.reverse, by simp, fun e he => ?_⟩
    exact bne_iff_ne.2 (Ne.symm (hafter e (List.mem_reverse.1 he)))
  · rintro ⟨after, before, hl, hafter⟩
    refine ⟨before.reverse, after.reverse, by simpa using congrArg List.reverse hl, fun e he => ?_⟩
    exact Ne.symm (bne_iff_ne.1 (hafter e (List.mem_reverse.1 he)))

namespace SortedMap

variable {α : Type}

/-- A map that is made of a list has the last entry of each name. -/
theorem get?_ofList {l : List (String × α)} {name : String} {a : α} :
    (ofList l).get? name = some a ↔ LastOf l name a := by
  have hget : (ofList l).get? name = l.reverse.lookup name := by
    induction l using List.reverseRecOn with
    | nil => rfl
    | append_singleton l e ih =>
      rw [ofList, List.foldl_append, List.reverse_append]
      show ((ofList l).insert e.1 e.2).get? name = (e :: l.reverse).lookup name
      rw [get?_insert, List.lookup_cons, ih]
      cases name == e.1 <;> rfl
  rw [hget, lastOf_iff]

/-- A map is made of a list when it has the last entry of each name. -/
theorem ofList_eq_iff {l : List (String × α)} {m : SortedMap String α} :
    ofList l = m ↔ ∀ name a, m.get? name = some a ↔ LastOf l name a := by
  constructor
  · rintro rfl
    exact fun name a => get?_ofList
  · intro h
    exact ext_get? fun name => Option.ext fun a => get?_ofList.trans (h name a).symm

end SortedMap

namespace ConfigTextLemmas

variable {α β : Type}

theorem mapM_eq_some_iff {f : α → Option β} {l : List α} {l' : List β} :
    l.mapM f = some l' ↔ List.Forall₂ (fun a b => f a = some b) l l' := by
  induction l generalizing l' with
  | nil =>
    rw [List.mapM_nil, List.forall₂_nil_left_iff]
    exact ⟨fun h => (Option.some.inj h).symm, fun h => congrArg some h.symm⟩
  | cons a rest ih =>
    simp only [List.mapM_cons, bind, pure, Option.bind_eq_some_iff, Option.some.injEq, ih,
      List.forall₂_cons_left_iff]
    constructor
    · rintro ⟨b, hb, bs, hbs, rfl⟩
      exact ⟨b, bs, hb, hbs, rfl⟩
    · rintro ⟨b, bs, hb, hbs, rfl⟩
      exact ⟨b, hb, bs, hbs, rfl⟩

theorem exists_forall₂_iff {R : α → β → Prop} {l : List α} :
    (∃ l', List.Forall₂ R l l') ↔ ∀ a ∈ l, ∃ b, R a b := by
  induction l with
  | nil => exact ⟨fun _ a ha => absurd ha List.not_mem_nil, fun _ => ⟨[], .nil⟩⟩
  | cons a rest ih =>
    rw [List.forall_mem_cons, ← ih]
    constructor
    · rintro ⟨l', h⟩
      obtain ⟨b, bs, hb, hbs, rfl⟩ := List.forall₂_cons_left_iff.1 h
      exact ⟨⟨b, hb⟩, bs, hbs⟩
    · rintro ⟨⟨b, hb⟩, bs, hbs⟩
      exact ⟨b :: bs, .cons hb hbs⟩

end ConfigTextLemmas

open ConfigTextLemmas

namespace Json

/-- The fields of an object, each under the text that its name stands for. -/
inductive Fields : Json → List (String × Json) → Prop
  | mk {fields : List (JsonText × Json)} {fs : List (String × Json)}
      (h : List.Forall₂ (fun e f => e.1.Means f.1.toList ∧ e.2 = f.2) fields fs) :
      Fields (.object fields) fs

theorem namedFields?_eq_some_iff {j : Json} {fs : List (String × Json)} :
    j.namedFields? = some fs ↔ j.Fields fs := by
  have hfield : ∀ (e : JsonText × Json) (f : String × Json),
      e.1.toString?.map (fun k => (k, e.2)) = some f ↔ e.1.Means f.1.toList ∧ e.2 = f.2 := by
    intro e f
    rw [Option.map_eq_some_iff]
    constructor
    · rintro ⟨k, hk, rfl⟩
      exact ⟨JsonText.toString?_eq_some_iff.1 hk, rfl⟩
    · rintro ⟨hname, hvalue⟩
      exact ⟨f.1, JsonText.toString?_eq_some_iff.2 hname, Prod.ext rfl hvalue⟩
  cases j with
  | object fields =>
    simp only [namedFields?, mapM_eq_some_iff, hfield]
    constructor
    · exact .mk
    · intro h
      cases h with
      | mk h => exact h
  | null | bool | string | number | array => exact ⟨fun h => (nomatch h), fun h => (nomatch h)⟩

/-! ## 3. Sections -/

/-- A section: of the fields of one name the last. -/
def Section (j : Json) (layer : Layer) : Prop :=
  ∃ fs, j.Fields fs ∧ ∀ name x, layer.get? name = some x ↔ LastOf fs name x

/-- Sections under names: all fields are sections, and of those of one name it is the last. -/
def Sections (j : Json) (sections : SortedMap String Layer) : Prop :=
  ∃ fs, j.Fields fs ∧ (∀ e ∈ fs, ∃ layer, e.2.Section layer) ∧
    ∀ name layer, sections.get? name = some layer ↔ ∃ x, LastOf fs name x ∧ x.Section layer

end Json

open Json SortedMap

namespace Config

theorem layer?_eq_some_iff {j : Json} {layer : Layer} :
    layer? j = some layer ↔ j.Section layer := by
  simp only [layer?, Option.map_eq_some_iff, namedFields?_eq_some_iff, ofList_eq_iff]
  rfl

/-- The sections that the fields of an object hold. -/
theorem lookup_of_forall₂ {fs : List (String × Json)} {ls : List (String × Layer)}
    (h : List.Forall₂ (fun e l => (layer? e.2).map (fun layer => (e.1, layer)) = some l) fs ls)
    (name : String) : ls.lookup name = (fs.lookup name).bind layer? := by
  induction h with
  | nil => rfl
  | @cons e l fs ls he _ ih =>
    obtain ⟨layer, hlayer, rfl⟩ := Option.map_eq_some_iff.1 he
    rw [List.lookup_cons, List.lookup_cons, ih]
    cases name == e.1 with
    | true => exact hlayer.symm
    | false => rfl

theorem sections?_eq_some_iff {j : Json} {sections : SortedMap String Layer} :
    sections? j = some sections ↔ j.Sections sections := by
  have hlast : ∀ {fs : List (String × Json)} {ls : List (String × Layer)},
      List.Forall₂ (fun e l => (layer? e.2).map (fun layer => (e.1, layer)) = some l) fs ls →
        ∀ name layer, LastOf ls name layer ↔
          ∃ x, LastOf fs name x ∧ x.Section layer := by
    intro fs ls h name layer
    have hlookup := lookup_of_forall₂ (List.forall₂_reverse_iff.2 h) name
    simp only [lastOf_iff, hlookup, Option.bind_eq_some_iff, layer?_eq_some_iff]
  have hall : ∀ {fs : List (String × Json)}, (∃ ls : List (String × Layer),
      List.Forall₂ (fun e l => (layer? e.2).map (fun layer => (e.1, layer)) = some l) fs ls) ↔
        ∀ e ∈ fs, ∃ layer, e.2.Section layer := by
    intro fs
    simp only [exists_forall₂_iff, Option.map_eq_some_iff, layer?_eq_some_iff]
    refine forall₂_congr fun e _ => ⟨?_, ?_⟩
    · rintro ⟨_, layer, h, -⟩
      exact ⟨layer, h⟩
    · rintro ⟨layer, h⟩
      exact ⟨_, layer, h, rfl⟩
  simp only [sections?, bind, pure, Option.bind_eq_some_iff, namedFields?_eq_some_iff,
    mapM_eq_some_iff, Option.some.injEq, ofList_eq_iff]
  constructor
  · rintro ⟨fs, hfs, ls, hls, hsections⟩
    exact ⟨fs, hfs, hall.1 ⟨ls, hls⟩, fun name layer =>
      (hsections name layer).trans (hlast hls name layer)⟩
  · rintro ⟨fs, hfs, hlayers, hsections⟩
    obtain ⟨ls, hls⟩ := hall.2 hlayers
    exact ⟨fs, hfs, ls, hls, fun name layer =>
      (hsections name layer).trans (hlast hls name layer).symm⟩

/-! ## 4. Configurations -/

/-- What stands in the place of one part of a document; there may be nothing. -/
inductive Part {α : Type} (read : Json → α → Prop) (missing : α) : Option Json → α → Prop
  | missing : Part read missing none missing
  | present {j : Json} {a : α} (h : read j a) : Part read missing (some j) a

/-- The two parts of a configuration: in an object under their names, each at most once and with
nothing else, or in an array in their order. -/
inductive Parts : Json → Option Json → Option Json → Prop
  | named {j : Json} {fs : List (String × Json)} (hfs : j.Fields fs)
      (hknown : ∀ e ∈ fs, e.1 = "kvdb" ∨ e.1 = "kvs") (honce : (fs.map (·.1)).Nodup) :
      Parts j (fs.lookup "kvdb") (fs.lookup "kvs")
  | neither : Parts (.array []) none none
  | database (d : Json) : Parts (.array [d]) (some d) none
  | both (d s : Json) : Parts (.array [d, s]) (some d) (some s)

/-- A document describes a configuration: one part is the section for opening the database, the other
has the sections for the stores. -/
inductive DescribedBy (c : Config) (j : Json) : Prop
  | mk {d s : Option Json} (hsound : j.Sound Json.maxDepth) (hparts : Parts j d s)
      (hdatabase : Part Json.Section .empty d c.database)
      (hstores : Part Json.Sections .empty s c.stores)

/-- A text writes a configuration. -/
def WrittenAs (c : Config) (text : String) : Prop := ∃ j : Json, j.WrittenAs text ∧ c.DescribedBy j

/-- A text writes the fields of a configuration of the runtime. -/
def WrittenGlobal (layer : Layer) (text : String) : Prop :=
  ∃ j : Json, j.WrittenAs text ∧ j.Sound Json.maxDepth ∧ j.Section layer

theorem field?_eq_some_iff {α : Type} {read? : Json → Option α} {read : Json → α → Prop}
    {missing a : α} {part : Option Json} (h : ∀ j a, read? j = some a ↔ read j a) :
    field? read? missing part = some a ↔ Part read missing part a := by
  cases part with
  | none =>
    constructor
    · intro hfield
      cases hfield
      exact .missing
    · rintro ⟨⟩
      rfl
  | some j =>
    rw [field?, h]
    constructor
    · exact .present
    · intro hpart
      cases hpart with
      | present h => exact h

/-- No name comes twice, and there is none but those of the two parts. -/
theorem names_iff {fs : List (String × Json)} :
    ((["kvdb", "kvs"].all fun k => decide ((fs.map (·.1)).count k ≤ 1)) &&
      (!true || (fs.map (·.1)).all ["kvdb", "kvs"].contains)) = true ↔
      (∀ e ∈ fs, e.1 = "kvdb" ∨ e.1 = "kvs") ∧ (fs.map (·.1)).Nodup := by
  simp only [Bool.and_eq_true, List.all_eq_true, Bool.not_true, Bool.false_or, decide_eq_true_eq,
    List.forall_mem_map, List.contains_iff_mem, List.mem_cons, List.not_mem_nil, or_false,
    List.nodup_iff_count_le_one]
  constructor
  · rintro ⟨honce, hknown⟩
    refine ⟨hknown, fun name => ?_⟩
    by_cases hname : name ∈ fs.map (·.1)
    · obtain ⟨e, he, rfl⟩ := List.mem_map.1 hname
      exact honce _ (hknown e he)
    · rw [List.count_eq_zero.2 hname]
      exact Nat.zero_le 1
  · rintro ⟨hknown, honce⟩
    exact ⟨fun name _ => honce name, hknown⟩

theorem recordFields?_eq_some_iff {j : Json} {parts : List (Option Json)} :
    j.recordFields? ["kvdb", "kvs"] true = some parts ↔
      ∃ d s, parts = [d, s] ∧ Parts j d s := by
  constructor
  · intro h
    cases j with
    | array items =>
      match items, h with
      | [], h =>
        cases h
        exact ⟨_, _, rfl, .neither⟩
      | [d], h =>
        cases h
        exact ⟨_, _, rfl, .database d⟩
      | [d, s], h =>
        cases h
        exact ⟨_, _, rfl, .both d s⟩
      | _ :: _ :: _ :: _, h => cases h
    | object fields =>
      obtain ⟨fs, hfs, h⟩ := Option.bind_eq_some_iff.1 h
      simp only at h
      split at h
      · next hnames =>
        obtain ⟨hknown, honce⟩ := names_iff.1 hnames
        cases h
        exact ⟨_, _, rfl, .named (namedFields?_eq_some_iff.1 hfs) hknown honce⟩
      · cases h
    | null | bool | string | number => cases h
  · rintro ⟨d, s, rfl, h⟩
    cases h with
    | neither | database | both => rfl
    | named hfs hknown honce =>
      cases hfs with
      | mk hfields =>
        have hnamed := namedFields?_eq_some_iff.2 (.mk hfields)
        simp only [Json.recordFields?, hnamed, bind, Option.bind, names_iff.2 ⟨hknown, honce⟩,
          ↓reduceIte]
        rfl

theorem ofJson?_eq_some_iff {j : Json} {c : Config} : ofJson? j = some c ↔ c.DescribedBy j := by
  have hdatabase : ∀ d, field? layer? .empty d = some c.database ↔
      Part Json.Section .empty d c.database :=
    fun d => field?_eq_some_iff fun _ _ => layer?_eq_some_iff
  have hstores : ∀ s, field? sections? .empty s = some c.stores ↔
      Part Json.Sections .empty s c.stores :=
    fun s => field?_eq_some_iff fun _ _ => sections?_eq_some_iff
  unfold ofJson?
  constructor
  · intro h
    split at h
    · next hsound =>
      split at h
      · next d s hparts =>
        obtain ⟨_, _, heq, hparts⟩ := recordFields?_eq_some_iff.1 hparts
        cases heq
        obtain ⟨database, hd, h⟩ := Option.bind_eq_some_iff.1 h
        obtain ⟨stores, hs, h⟩ := Option.bind_eq_some_iff.1 h
        cases h
        exact .mk (Json.isSound_iff.1 hsound) hparts ((hdatabase d).1 hd) ((hstores s).1 hs)
      · cases h
    · cases h
  · rintro ⟨hsound, hparts, hd, hs⟩
    rw [if_pos (Json.isSound_iff.2 hsound), recordFields?_eq_some_iff.2 ⟨_, _, rfl, hparts⟩]
    simp only [(hdatabase _).2 hd, (hstores _).2 hs, bind, Option.bind]
    rfl

/-- **What reads as a configuration is what writes it.** -/
theorem ofText?_eq_some_iff {text : String} {c : Config} :
    ofText? text = some c ↔ c.WrittenAs text := by
  simp only [ofText?, Option.bind_eq_some_iff, Json.read?_eq_some_iff, ofJson?_eq_some_iff]
  rfl

theorem globalOfText?_eq_some_iff {text : String} {layer : Layer} :
    globalOfText? text = some layer ↔ WrittenGlobal layer text := by
  simp only [globalOfText?, bind, Option.bind_eq_some_iff, Json.read?_eq_some_iff]
  refine exists_congr fun j => and_congr_right fun _ => ?_
  rw [← Json.isSound_iff, ← layer?_eq_some_iff, Option.ite_none_right_eq_some]

end Config

/-! ## 5. Files -/

/-- What the configuration file of a home configures: nothing when it is missing. -/
inductive FileSystem.Configures (fs : FileSystem) (home : String) : Config → Prop
  | missing (h : fs.stat (configFile home) = .error Errno.noEntry) : fs.Configures home {}
  | file {text : String} {c : Config} (htext : fs.Reads (configFile home) text)
      (hc : c.WrittenAs text) : fs.Configures home c

theorem loadConfig_eq_ok_iff {fs : FileSystem} {home : String} {c : Config} :
    ((loadConfig home).on fs).1 = .ok c ↔ fs.Configures home c := by
  simp only [loadConfig, Attempt.on_bind, Attempt.on_get]
  cases hread : readText fs (configFile home) with
  | error e =>
    simp only
    constructor
    · intro h
      split at h
      · next he =>
        subst he
        cases h
        exact .missing (readText_eq_noEntry_iff.1 hread)
      · cases h
    · intro h
      cases h with
      | missing h =>
        cases (readText_eq_noEntry_iff.2 h).symm.trans hread
        rfl
      | file htext => cases (readText_eq_ok_iff.2 htext).symm.trans hread
  | ok text =>
    simp only
    constructor
    · intro h
      split at h
      · next hc =>
        cases h
        exact .file (readText_eq_ok_iff.1 hread) (Config.ofText?_eq_some_iff.1 hc)
      · cases h
    · intro h
      cases h with
      | missing h => cases (readText_eq_noEntry_iff.2 h).symm.trans hread
      | file htext hc =>
        cases (readText_eq_ok_iff.2 htext).symm.trans hread
        rw [Config.ofText?_eq_some_iff.2 hc]
        rfl

/-- A text that writes no configuration is refused. -/
theorem loadConfig_malformed {fs : FileSystem} {home text : String}
    (htext : fs.Reads (configFile home) text) (h : ∀ c : Config, ¬ c.WrittenAs text) :
    ((loadConfig home).on fs).1 = .error (Fault.malformedConfig (configFile home)) := by
  have hnone : Config.ofText? text = none :=
    Option.eq_none_iff_forall_ne_some.2 fun c hc => h c (Config.ofText?_eq_some_iff.1 hc)
  simp only [loadConfig, Attempt.on_bind, Attempt.on_get, readText_eq_ok_iff.2 htext, hnone]
  rfl

theorem loadGlobalConfig_eq_ok_iff {fs : FileSystem} {path : String} {layer : Layer} :
    ((loadGlobalConfig path).on fs).1 = .ok layer ↔
      ∃ text, fs.Reads path text ∧ Config.WrittenGlobal layer text := by
  simp only [← readText_eq_ok_iff, ← Config.globalOfText?_eq_some_iff, loadGlobalConfig,
    Attempt.ask, Attempt.on_bind, Attempt.on_ofStep]
  cases readText fs path with
  | error e =>
    constructor
    · intro h
      cases h
    · rintro ⟨_, htext, -⟩
      cases htext
  | ok text =>
    simp only [Except.mapError]
    constructor
    · intro h
      split at h
      · next hlayer =>
        cases h
        exact ⟨text, rfl, hlayer⟩
      · cases h
    · rintro ⟨_, htext, hlayer⟩
      cases htext
      rw [hlayer]
      rfl

theorem loadGlobalConfig_malformed {fs : FileSystem} {path text : String}
    (htext : fs.Reads path text) (h : ∀ layer, ¬ Config.WrittenGlobal layer text) :
    ((loadGlobalConfig path).on fs).1 = .error (Fault.malformedGlobalConfig path) := by
  have hnone : Config.globalOfText? text = none :=
    Option.eq_none_iff_forall_ne_some.2 fun c hc => h c (Config.globalOfText?_eq_some_iff.1 hc)
  simp only [loadGlobalConfig, Attempt.ask, Attempt.on_bind, Attempt.on_ofStep,
    readText_eq_ok_iff.2 htext, Except.mapError, hnone]
  rfl

end SnapshotKv
