import SnapshotKv.Proofs.Scalars
import SnapshotKv.Settings.Scopes

/-!
# What parameters take

The texts that a switch, a count and a level take are said here in their own words, and so is how a
parameter writes a key and a value. A value of a document is taken when the text is that it stands
for; a number that is not natural stands for none, and its text is taken by nothing.

Results:
1. `Param.WritesPair`, `Param.split_eq_ok_iff`: a key and a value in one text.
2. `Unsigned.Writes`, `Unsigned.read_eq_ok_iff`; `LogLevel.Names`, `LogLevel.ofText?_eq_some_iff`:
   numbers and levels.
3. `Kind.Takes`, `Kind.taken_eq_ok_iff`: the texts that a kind of parameter takes.
4. `Kind.TakesValue`, `Kind.takesValue_iff`: the values that it takes.
-/

namespace SnapshotKv

/-! ## 1. Pairs -/

namespace Text

/-- A text without the blanks at its two ends. -/
structure Trims (cs ts : List Char) : Prop where
  blanks : ∃ lead trail, cs = lead ++ (ts ++ trail) ∧
    (∀ c ∈ lead, isBlank c = true) ∧ ∀ c ∈ trail, isBlank c = true
  first : ∀ c, ts.head? = some c → isBlank c = false
  last : ∀ c, ts.getLast? = some c → isBlank c = false

theorem head?_dropWhile {cs : List Char} {c : Char} (h : (cs.dropWhile isBlank).head? = some c) :
    isBlank c = false := by
  have hhead := List.head?_dropWhile_not isBlank cs
  rw [h] at hhead
  exact hhead

theorem dropWhile_blanks {lead cs : List Char} (hlead : ∀ c ∈ lead, isBlank c = true)
    (hcs : ∀ c, cs.head? = some c → isBlank c = false) :
    (lead ++ cs).dropWhile isBlank = cs := by
  rw [List.dropWhile_append_of_pos hlead]
  cases cs with
  | nil => rfl
  | cons c cs =>
    refine List.dropWhile_cons_of_neg ?_
    rw [hcs c rfl]
    exact Bool.false_ne_true

theorem trims_trimChars (cs : List Char) : Trims cs (trimChars cs) := by
  have hcs : cs.takeWhile isBlank ++ cs.dropWhile isBlank = cs := List.takeWhile_append_dropWhile
  have hrest : trimChars cs ++ ((cs.dropWhile isBlank).reverse.takeWhile isBlank).reverse =
      cs.dropWhile isBlank := by
    rw [trimChars, ← List.reverse_append, List.takeWhile_append_dropWhile, List.reverse_reverse]
  have hblank : ∀ l : List Char, ∀ c ∈ l.takeWhile isBlank, isBlank c = true :=
    fun _ => List.all_eq_true.1 List.all_takeWhile
  refine ⟨⟨_, _, by rw [hrest, hcs], hblank cs, fun c hc => hblank _ c (List.mem_reverse.1 hc)⟩,
    fun c hc => ?_, fun c hc => ?_⟩
  · have hhead : (cs.dropWhile isBlank).head? = some c := by
      rw [← hrest, List.head?_append, hc]
      rfl
    exact head?_dropWhile hhead
  · rw [trimChars, List.getLast?_reverse] at hc
    exact head?_dropWhile hc

theorem trimChars_eq_iff {cs ts : List Char} : trimChars cs = ts ↔ Trims cs ts := by
  constructor
  · rintro rfl
    exact trims_trimChars cs
  · rintro ⟨⟨lead, trail, rfl, hlead, htrail⟩, hfirst, hlast⟩
    have hreverse : ∀ c ∈ trail.reverse, isBlank c = true :=
      fun c hc => htrail c (List.mem_reverse.1 hc)
    cases ts with
    | nil =>
      have hall : (lead ++ trail ++ []).dropWhile isBlank = [] :=
        dropWhile_blanks (List.forall_mem_append.2 ⟨hlead, htrail⟩) hfirst
      rw [List.append_nil] at hall
      rw [trimChars, List.nil_append, hall]
      rfl
    | cons t ts =>
      have hleft : (lead ++ (t :: ts ++ trail)).dropWhile isBlank = t :: ts ++ trail :=
        dropWhile_blanks hlead hfirst
      rw [trimChars, hleft, List.reverse_append, dropWhile_blanks hreverse, List.reverse_reverse]
      rwa [List.head?_reverse]

theorem trim_eq_iff {s t : String} : trim s = t ↔ Trims s.toList t.toList := by
  rw [trim, ← trimChars_eq_iff, ← String.toList_inj, String.toList_ofList]

theorem splitAt?_eq_some_iff {c : Char} {s left right : String} :
    splitAt? c s = some (left, right) ↔
      s.toList = left.toList ++ c :: right.toList ∧ c ∉ left.toList := by
  constructor
  · intro h
    unfold splitAt? at h
    simp only at h
    split at h
    · cases h
    · next d rest hrest =>
      cases h
      have hd := List.head?_dropWhile_not (· != c) s.toList
      rw [hrest] at hd
      obtain rfl : d = c := bne_eq_false_iff_eq.1 hd
      rw [String.toList_ofList, String.toList_ofList, ← hrest, List.takeWhile_append_dropWhile]
      refine ⟨rfl, fun hmem => ?_⟩
      have hne := List.all_eq_true.1 List.all_takeWhile d hmem
      exact bne_iff_ne.1 hne rfl
  · rintro ⟨hs, hleft⟩
    have hne : ∀ d ∈ left.toList, (d != c) = true :=
      fun d hd => bne_iff_ne.2 fun heq => hleft (heq ▸ hd)
    unfold splitAt?
    simp only [hs, List.takeWhile_append_of_pos hne, List.dropWhile_append_of_pos hne,
      List.dropWhile_cons, List.takeWhile_cons, bne_self_eq_false, Bool.false_eq_true, ↓reduceIte,
      List.append_nil, String.ofList_toList]

end Text

namespace Param

/-- A parameter writes a key and a value: they stand on the two sides of its first equality sign,
with blanks around them as one likes. -/
inductive WritesPair : String → String → String → Prop
  | mk {param left right key value : String}
      (hcut : param.toList = left.toList ++ '=' :: right.toList) (hfirst : '=' ∉ left.toList)
      (hkey : Text.Trims left.toList key.toList) (hvalue : Text.Trims right.toList value.toList)
      (hne : key ≠ "") : WritesPair param key value

/-- A parameter is cut into the key and the value that it writes. -/
theorem split_eq_ok_iff {param key value : String} :
    split param = .ok (key, value) ↔ WritesPair param key value := by
  constructor
  · intro h
    unfold split at h
    split at h
    · next left right hcut =>
      obtain ⟨hcut, hfirst⟩ := Text.splitAt?_eq_some_iff.1 hcut
      split at h
      · cases h
      · next hne =>
        cases h
        exact .mk hcut hfirst (Text.trim_eq_iff.1 rfl) (Text.trim_eq_iff.1 rfl)
          (mt String.isEmpty_iff.2 hne)
    · cases h
  · rintro ⟨hcut, hfirst, hkey, hvalue, hne⟩
    rw [split, Text.splitAt?_eq_some_iff.2 ⟨hcut, hfirst⟩]
    simp only [Text.trim_eq_iff.2 hkey, Text.trim_eq_iff.2 hvalue]
    rw [if_neg (mt String.isEmpty_iff.1 hne)]
    rfl

end Param

/-! ## 2. Numbers and levels -/

namespace Unsigned

/-- A text writes a natural number: with digits, after a plus sign if one likes. -/
inductive Writes : String → Nat → Prop
  | mk {s : String} {sign digits : List Char} (hs : s.toList = sign ++ digits)
      (hsign : sign = [] ∨ sign = ['+']) (hne : digits ≠ [])
      (hdigits : ∀ c ∈ digits, c.isDigit = true) : Writes s (Nat.ofDigitChars 10 digits 0)

theorem le_ofDigitChars (acc : Nat) (ds : List Char) : acc ≤ Nat.ofDigitChars 10 ds acc := by
  rw [← Numeral.natural_digitValues]
  exact Numeral.le_natural acc _

theorem readDigits_eq_ok_iff {acc n : Nat} {ds : List Char} (hacc : acc < limit) :
    readDigits acc ds = .ok n ↔
      (∀ c ∈ ds, c.isDigit = true) ∧ Nat.ofDigitChars 10 ds acc = n ∧ n < limit := by
  induction ds generalizing acc with
  | nil =>
    constructor
    · intro h
      cases h
      exact ⟨fun c hc => absurd hc List.not_mem_nil, rfl, hacc⟩
    · rintro ⟨-, rfl, -⟩
      rfl
  | cons c rest ih =>
    have hle := le_ofDigitChars (10 * acc + (c.toNat - '0'.toNat)) rest
    rw [readDigits, Nat.ofDigitChars_cons, List.forall_mem_cons]
    by_cases hc : c.isDigit = true
    · by_cases hlt : acc * 10 + (c.toNat - '0'.toNat) < limit
      · simp only [hc, hlt, ↓reduceIte, true_and]
        rw [Nat.mul_comm 10 acc]
        exact ih hlt
      · simp only [hc, hlt, ↓reduceIte]
        constructor
        · intro h
          cases h
        · rintro ⟨-, rfl, hn⟩
          omega
    · simp only [hc, Bool.false_eq_true, ↓reduceIte, false_and, iff_false]
      intro h
      cases h

/-- A text reads as the number that it writes, if that has 64 bits. -/
theorem read_eq_ok_iff {s : String} {n : Nat} : read s = .ok n ↔ Writes s n ∧ n < limit := by
  have hzero : 0 < limit := by decide
  constructor
  · intro h
    unfold read at h
    split at h
    · cases h
    · cases h
    · next ds hne hs =>
      obtain ⟨hdigits, rfl, hn⟩ := (readDigits_eq_ok_iff hzero).1 h
      exact ⟨.mk hs (.inr rfl) hne hdigits, hn⟩
    · next hne _ _ =>
      obtain ⟨hdigits, rfl, hn⟩ := (readDigits_eq_ok_iff hzero).1 h
      exact ⟨.mk rfl (.inl rfl) hne hdigits, hn⟩
  · rintro ⟨⟨hs, hsign, hne, hdigits⟩, hn⟩
    have hread := (readDigits_eq_ok_iff hzero).2 ⟨hdigits, rfl, hn⟩
    unfold read
    rcases hsign with rfl | rfl
    · rw [List.nil_append] at hs
      -- no digit is a plus sign
      have hplus : '+' ∉ s.toList := fun hmem => absurd (hdigits _ (hs ▸ hmem)) (by decide)
      split
      · next hnil => exact absurd (hs.symm.trans hnil) hne
      · next heq => exact absurd (heq ▸ List.mem_cons_self) hplus
      · next heq => exact absurd (heq ▸ List.mem_cons_self) hplus
      · rwa [hs]
    · rw [hs, List.singleton_append]
      split
      · next hnil => cases hnil
      · next heq => exact absurd (List.cons.inj heq).2 hne
      · next heq =>
        obtain rfl := (List.cons.inj heq).2
        exact hread
      · next hother => exact absurd rfl (hother _)

/-- Every character of a written number is a digit or a plus sign, and some is a digit. -/
theorem Writes.chars {s : String} {n : Nat} (h : Writes s n) :
    (∀ c ∈ s.toList, c.isDigit = true ∨ c = '+') ∧ ∃ c ∈ s.toList, c.isDigit = true := by
  obtain ⟨hs, hsign, hne, hdigits⟩ := h
  rw [hs]
  obtain ⟨d, ds, rfl⟩ := List.exists_cons_of_ne_nil hne
  refine ⟨fun c hc => ?_, d, List.mem_append_right _ List.mem_cons_self,
    hdigits d List.mem_cons_self⟩
  rcases List.mem_append.1 hc with hc | hc
  · rcases hsign with rfl | rfl
    · cases hc
    · exact .inr (List.mem_singleton.1 hc)
  · exact .inl (hdigits c hc)

end Unsigned

namespace LogLevel

/-- The number of a level, counted from one. -/
def number : LogLevel → Nat
  | .error => 1
  | .warn => 2
  | .info => 3
  | .debug => 4
  | .trace => 5

/-- A text names a level: by its number, or by its name in letters of any size. -/
inductive Names (l : LogLevel) (s : String) : Prop
  | number (h : Unsigned.Writes s l.number)
  | name (h : s.toList.map Char.toLower = l.name.toList)

theorem getElem?_all_eq_some_iff {n : Nat} {l : LogLevel} : all[n]? = some l ↔ l.number = n + 1 := by
  constructor
  · intro h
    match n, h with
    | 0, h | 1, h | 2, h | 3, h | 4, h =>
      cases h
      rfl
    | n + 5, h => cases h
  · intro h
    cases l <;>
    · obtain rfl := Nat.succ.inj h
      rfl

theorem find?_name_eq_some_iff {s : String} {l : LogLevel} :
    all.find? (fun l => l.name == Text.lower s) = some l ↔
      s.toList.map Char.toLower = l.name.toList := by
  constructor
  · intro h
    have hname := List.find?_some h
    rw [beq_iff_eq.1 hname, Text.lower, String.toList_ofList]
  · intro h
    have hlower : Text.lower s = l.name := by rw [Text.lower, h, String.ofList_toList]
    rw [hlower]
    cases l <;> rfl

theorem isDigit_of_mem_name {l : LogLevel} {c : Char} (hc : c ∈ l.name.toList) :
    c.isDigit = false := by
  have hall : l.name.toList.all (fun c => !c.isDigit) = true := by cases l <;> rfl
  exact Bool.not_eq_eq_eq_not.1 (List.all_eq_true.1 hall c hc)

theorem toLower_of_isDigit {c : Char} (h : c.isDigit = true) : c.toLower = c := by
  have hle : c.val ≤ '9'.val := of_decide_eq_true (Bool.and_eq_true_iff.1 h).2
  have hcapital : ¬ (c.val ≥ 'A'.val ∧ c.val ≤ 'Z'.val) := fun hc =>
    absurd (UInt32.le_trans hc.1 hle) (by decide)
  exact dif_neg hcapital

/-- A text that is a name has no digit. -/
theorem isDigit_of_lower {l : LogLevel} {s : String} (h : s.toList.map Char.toLower = l.name.toList)
    {c : Char} (hc : c ∈ s.toList) : c.isDigit = false := by
  refine Bool.not_eq_true _ ▸ fun hdigit => ?_
  have hmem : c ∈ l.name.toList := h ▸ List.mem_map.2 ⟨c, hc, toLower_of_isDigit hdigit⟩
  exact absurd (hdigit.symm.trans (isDigit_of_mem_name hmem)) (by decide)

/-- A text reads as the level that it names. -/
theorem ofText?_eq_some_iff {s : String} {l : LogLevel} : ofText? s = some l ↔ l.Names s := by
  unfold ofText?
  cases hread : Unsigned.read s with
  | ok n =>
    obtain ⟨hwrites, -⟩ := Unsigned.read_eq_ok_iff.1 hread
    constructor
    · intro h
      simp only at h
      split at h
      · cases h
      · next hn =>
        have hnumber := getElem?_all_eq_some_iff.1 h
        rw [Nat.sub_add_cancel (Nat.pos_of_ne_zero hn)] at hnumber
        exact .number (hnumber ▸ hwrites)
    · rintro (hnumber | hname)
      · have hsmall : l.number < Unsigned.limit := by cases l <;> decide
        have hn := (Unsigned.read_eq_ok_iff.2 ⟨hnumber, hsmall⟩).symm.trans hread
        cases hn
        have hpositive : l.number ≠ 0 := by cases l <;> decide
        simp only [if_neg hpositive]
        exact getElem?_all_eq_some_iff.2 (Nat.sub_add_cancel (Nat.pos_of_ne_zero hpositive)).symm
      · obtain ⟨c, hc, hdigit⟩ := hwrites.chars.2
        exact absurd (hdigit.symm.trans (isDigit_of_lower hname hc)) (by decide)
  | error p =>
    simp only
    rw [find?_name_eq_some_iff]
    constructor
    · exact .name
    · rintro (hnumber | hname)
      · have hsmall : l.number < Unsigned.limit := by cases l <;> decide
        cases (Unsigned.read_eq_ok_iff.2 ⟨hnumber, hsmall⟩).symm.trans hread
      · exact hname

end LogLevel

/-! ## 3. Texts of a kind -/

/-- The kinds of parameters. -/
inductive Kind where
  | switch | count | level
  deriving DecidableEq, Repr

namespace Kind

/-- A kind of parameter takes a text, and the parameter reads as another one then. -/
inductive Takes : Kind → String → String → Prop
  | yes : Takes .switch "true" "true"
  | no : Takes .switch "false" "false"
  | count {s : String} {n : Nat} (h : Unsigned.Writes s n) (hn : n < UInt64.size) :
      Takes .count s (toString n)
  | level {s : String} {l : LogLevel} (h : l.Names s) : Takes .level s l.name

/-- The level that a text of a key names. -/
def readLevel (key value : String) : Except Fault LogLevel :=
  match LogLevel.ofText? value with
  | some l => .ok l
  | none => .error (Fault.notALogLevel key value)

/-- What a key of some kind reads as when a text is assigned to it. -/
def taken (key value : String) : Kind → Except Fault String
  | .switch => (Param.readBool key value).map toString
  | .count => (Param.readNat key value).map toString
  | .level => (readLevel key value).map LogLevel.name

theorem readBool_eq_ok_iff {key value : String} {b : Bool} :
    Param.readBool key value = .ok b ↔ value = toString b := by
  constructor
  · intro h
    unfold Param.readBool at h
    split at h
    · next htrue =>
      cases h
      exact htrue
    · split at h
      · next hfalse =>
        cases h
        exact hfalse
      · cases h
  · rintro rfl
    cases b <;> rfl

theorem readNat_eq_ok_iff {key value : String} {n : Nat} :
    Param.readNat key value = .ok n ↔ Unsigned.Writes value n ∧ n < UInt64.size := by
  have hread := @Unsigned.read_eq_ok_iff value n
  unfold Param.readNat
  cases h : Unsigned.read value with
  | ok m =>
    rw [h] at hread
    exact ⟨fun heq => hread.1 (congrArg _ (Except.ok.inj heq)),
      fun hwrites => congrArg _ (Except.ok.inj (hread.2 hwrites))⟩
  | error p =>
    rw [h] at hread
    exact ⟨fun heq => (nomatch heq), fun hwrites => (nomatch hread.2 hwrites)⟩

theorem readLevel_eq_ok_iff {key value : String} {l : LogLevel} :
    readLevel key value = .ok l ↔ l.Names value := by
  rw [← LogLevel.ofText?_eq_some_iff]
  unfold readLevel
  cases LogLevel.ofText? value with
  | some l' =>
    exact ⟨fun h => congrArg some (Except.ok.inj h), fun h => congrArg _ (Option.some.inj h)⟩
  | none => exact ⟨fun h => (nomatch h), fun h => (nomatch h)⟩

theorem map_eq_ok_iff {α β : Type} {f : α → β} {r : Except Fault α} {y : β} :
    r.map f = .ok y ↔ ∃ x, r = .ok x ∧ f x = y := by
  constructor
  · intro h
    cases r with
    | ok x => exact ⟨x, rfl, Except.ok.inj h⟩
    | error f => cases h
  · rintro ⟨x, rfl, rfl⟩
    rfl

/-- What a kind of parameter is read from is what it takes. -/
theorem taken_eq_ok_iff {kind : Kind} {key value shown : String} :
    kind.taken key value = .ok shown ↔ kind.Takes value shown := by
  cases kind with
  | switch =>
    simp only [taken, map_eq_ok_iff, readBool_eq_ok_iff]
    constructor
    · rintro ⟨b, rfl, rfl⟩
      cases b with
      | true => exact .yes
      | false => exact .no
    · intro h
      cases h with
      | yes => exact ⟨true, rfl, rfl⟩
      | no => exact ⟨false, rfl, rfl⟩
  | count =>
    simp only [taken, map_eq_ok_iff, readNat_eq_ok_iff]
    constructor
    · rintro ⟨n, ⟨h, hn⟩, rfl⟩
      exact .count h hn
    · intro h
      cases h with
      | count h hn => exact ⟨_, ⟨h, hn⟩, rfl⟩
  | level =>
    simp only [taken, map_eq_ok_iff, readLevel_eq_ok_iff]
    constructor
    · rintro ⟨l, h, rfl⟩
      exact .level h
    · intro h
      cases h with
      | level h => exact ⟨_, h, rfl⟩

/-! ## 4. Values of a kind -/

/-- A kind of parameter takes a value of a document: it takes the text that the value stands for. -/
def TakesValue (kind : Kind) (x : Json) (shown : String) : Prop :=
  ∃ text, x.StandsFor text ∧ kind.Takes text shown

/-- A text that is taken has no digits, or it has digits and plus signs alone. -/
theorem Takes.chars {kind : Kind} {text shown : String} (h : kind.Takes text shown) :
    (∀ c ∈ text.toList, c.isDigit = false) ∨ ∀ c ∈ text.toList, c.isDigit = true ∨ c = '+' := by
  have hword : ∀ b : Bool, ∀ c ∈ (toString b).toList, c.isDigit = false := by
    intro b c hc
    have hall : (toString b).toList.all (fun c => !c.isDigit) = true := by cases b <;> rfl
    exact Bool.not_eq_eq_eq_not.1 (List.all_eq_true.1 hall c hc)
  cases h with
  | yes => exact .inl (hword true)
  | no => exact .inl (hword false)
  | count h => exact .inr h.chars.1
  | level h =>
    cases h with
    | number h => exact .inr h.chars.1
    | name h => exact .inl fun c hc => LogLevel.isDigit_of_lower h hc

/-- A value is taken exactly when it is a scalar whose text is taken. -/
theorem takesValue_iff {kind : Kind} {x : Json} {shown : String} :
    kind.TakesValue x shown ↔ ∃ text, x.scalar? = some text ∧ kind.Takes text shown := by
  constructor
  · rintro ⟨text, hx, htakes⟩
    exact ⟨text, Json.scalar?_of_standsFor hx, htakes⟩
  · rintro ⟨text, hx, htakes⟩
    rcases Json.standsFor_of_scalar? hx with hx | ⟨⟨d, hd, hdigit⟩, c, hc, hsign⟩
    · exact ⟨text, hx, htakes⟩
    · -- the text of any other number has a digit and something else
      rcases htakes.chars with hnone | honly
      · exact absurd (hdigit.symm.trans (hnone d hd)) (by decide)
      · have hother := honly c hc
        rcases hsign with rfl | rfl | rfl <;> exact absurd hother (by decide)

end Kind

end SnapshotKv
