import Mathlib.Data.List.Chain
import SnapshotKv.Json.Document

/-!
# How JSON is written

A document is a row of words with spaces around them as one likes, and which words make up a value is
plain from the value. A reader that cuts a text into words from the front and puts the words together
from the front finds exactly the documents that are written this way, and finds each of them: a word
ends where it has to, since no two numbers stand side by side in a document.

Results:
1. `Token.Spelled`: the ways to spell a word; `next?_sound`, `next?_complete`.
2. `Token.Spaced`: words with spaces; `scan?_sound`, `scan?_complete`.
3. `Json.tokens`: the words of a value; `value?_sound`, `value?_tokens`.
4. `Json.read?_eq_some_iff`: a text reads as a value when it is `Json.WrittenAs` it.
-/

namespace SnapshotKv

/-! ## 1. Words -/

/-- The characters that a backslash before a letter stands for. -/
def shortEscapes : List (Char × Char) :=
  [('"', '"'), ('\\', '\\'), ('/', '/'), ('b', Char.ofNat 0x08), ('f', Char.ofNat 0x0C),
    ('n', '\n'), ('r', '\r'), ('t', '\t')]

/-- A hexadecimal digit, in either case. -/
structure HexDigit (c : Char) (v : Nat) : Prop where
  lt : v < 16
  letter : c = Nat.digitChar v ∨ c = (Nat.digitChar v).toUpper

/-- The ways to write one part of a string. -/
inductive StringPiece.Spelled : StringPiece → List Char → Prop
  | plain {c : Char} (hcontrol : 0x20 ≤ c.toNat) (hquote : c ≠ '"') (hslash : c ≠ '\\') :
      Spelled (.char c) [c]
  | short {e c : Char} (h : (e, c) ∈ shortEscapes) : Spelled (.char c) ['\\', e]
  | unit {a b c d : Char} {va vb vc vd : Nat} (ha : HexDigit a va) (hb : HexDigit b vb)
      (hc : HexDigit c vc) (hd : HexDigit d vd) :
      Spelled (.unit (((va * 16 + vb) * 16 + vc) * 16 + vd)) ['\\', 'u', a, b, c, d]

/-- The ways to write a string between its quotes. -/
inductive JsonText.Spelled : JsonText → List Char → Prop
  | nil : Spelled [] []
  | cons {p : StringPiece} {s : JsonText} {cs cs' : List Char} (hp : p.Spelled cs)
      (hs : Spelled s cs') : Spelled (p :: s) (cs ++ cs')

/-- The values of some digits. -/
def digitValues (cs : List Char) : List Nat := cs.map fun c => c.toNat - '0'.toNat

/-- Digits with their values. -/
structure Digits (ds : List Nat) (cs : List Char) : Prop where
  all : ∀ c ∈ cs, c.isDigit = true
  values : digitValues cs = ds

/-- The ways to write what follows a point, and the point. -/
inductive Fraction : List Nat → List Char → Prop
  | none : Fraction [] []
  | digits {ds : List Nat} {cs : List Char} (h : Digits ds cs) (hne : ds ≠ []) :
      Fraction ds ('.' :: cs)

/-- The ways to write an exponent. -/
inductive Exponent : Option (Bool × List Nat) → List Char → Prop
  | none : Exponent none []
  | bare {e : Char} {ds : List Nat} {cs : List Char} (he : e = 'e' ∨ e = 'E') (h : Digits ds cs)
      (hne : ds ≠ []) : Exponent (some (false, ds)) (e :: cs)
  | plus {e : Char} {ds : List Nat} {cs : List Char} (he : e = 'e' ∨ e = 'E') (h : Digits ds cs)
      (hne : ds ≠ []) : Exponent (some (false, ds)) (e :: '+' :: cs)
  | minus {e : Char} {ds : List Nat} {cs : List Char} (he : e = 'e' ∨ e = 'E') (h : Digits ds cs)
      (hne : ds ≠ []) : Exponent (some (true, ds)) (e :: '-' :: cs)

/-- The ways to write a number: no zero leads other digits. -/
inductive Numeral.Spelled : Numeral → List Char → Prop
  | mk {negative : Bool} {whole fraction : List Nat} {exponent : Option (Bool × List Nat)}
      {ws fs es : List Char} (hwhole : Digits whole ws) (hne : whole ≠ [])
      (hzero : whole.head? = some 0 → whole = [0]) (hfraction : Fraction fraction fs)
      (hexponent : Exponent exponent es) :
      Spelled ⟨negative, whole, fraction, exponent⟩
        ((if negative then ['-'] else []) ++ (ws ++ (fs ++ es)))

/-- The ways to write a word. -/
inductive Token.Spelled : Token → List Char → Prop
  | openBrace : Spelled .openBrace ['{']
  | closeBrace : Spelled .closeBrace ['}']
  | openBracket : Spelled .openBracket ['[']
  | closeBracket : Spelled .closeBracket [']']
  | comma : Spelled .comma [',']
  | colon : Spelled .colon [':']
  | null : Spelled .null ['n', 'u', 'l', 'l']
  | yes : Spelled (.bool true) ['t', 'r', 'u', 'e']
  | no : Spelled (.bool false) ['f', 'a', 'l', 's', 'e']
  | string {s : JsonText} {cs : List Char} (h : s.Spelled cs) :
      Spelled (.string s) ('"' :: (cs ++ ['"']))
  | number {n : Numeral} {cs : List Char} (h : n.Spelled cs) : Spelled (.number n) cs

namespace Token

variable {cs rest : List Char}

/-! Strings. -/

theorem escaped?_eq_some_iff {e c : Char} : escaped? e = some c ↔ (e, c) ∈ shortEscapes := by
  constructor
  · intro h
    unfold escaped? at h
    split at h <;> cases h <;> decide
  · intro h
    simp only [shortEscapes, List.mem_cons, Prod.mk.injEq, List.not_mem_nil, or_false] at h
    rcases h with ⟨rfl, rfl⟩ | ⟨rfl, rfl⟩ | ⟨rfl, rfl⟩ | ⟨rfl, rfl⟩ | ⟨rfl, rfl⟩ | ⟨rfl, rfl⟩ |
      ⟨rfl, rfl⟩ | ⟨rfl, rfl⟩ <;> rfl

theorem hexDigit?_eq_some_iff {c : Char} {v : Nat} : hexDigit? c = some v ↔ HexDigit c v := by
  constructor
  · have hall : ∀ n < 103, ∀ v ∈ hexDigit? (Char.ofNat n),
        v < 16 ∧ (Char.ofNat n = Nat.digitChar v ∨ Char.ofNat n = (Nat.digitChar v).toUpper) := by
      decide
    intro h
    have hlt : c.toNat < 103 := by
      have hle : ∀ d : Char, c ≤ d → c.toNat ≤ d.toNat := fun d hd => hd
      unfold hexDigit? at h
      split at h
      · next hc => exact Nat.lt_of_le_of_lt (hle _ hc.2) (by decide)
      · split at h
        · next hc => exact Nat.lt_of_le_of_lt (hle _ hc.2) (by decide)
        · split at h
          · next hc => exact Nat.lt_of_le_of_lt (hle _ hc.2) (by decide)
          · cases h
    have hc := hall c.toNat hlt v
    rw [Char.ofNat_toNat] at hc
    obtain ⟨hv, hletter⟩ := hc h
    exact ⟨hv, hletter⟩
  · have hall : ∀ v < 16, hexDigit? (Nat.digitChar v) = some v ∧
        hexDigit? (Nat.digitChar v).toUpper = some v := by decide
    rintro ⟨hv, rfl | rfl⟩
    · exact (hall v hv).1
    · exact (hall v hv).2

theorem unit?_eq_some_iff {a b c d : Char} {u : Nat} : unit? a b c d = some u ↔
    ∃ va vb vc vd, HexDigit a va ∧ HexDigit b vb ∧ HexDigit c vc ∧ HexDigit d vd ∧
      u = ((va * 16 + vb) * 16 + vc) * 16 + vd := by
  simp only [unit?, bind, Option.bind_eq_some_iff, hexDigit?_eq_some_iff, pure, Option.some.injEq]
  constructor
  · rintro ⟨va, ha, vb, hb, vc, hc, vd, hd, rfl⟩
    exact ⟨va, vb, vc, vd, ha, hb, hc, hd, rfl⟩
  · rintro ⟨va, vb, vc, vd, ha, hb, hc, hd, rfl⟩
    exact ⟨va, ha, vb, hb, vc, hc, vd, hd, rfl⟩

/-- What was read of a string ends with a quote. -/
theorem string?_sound {s : JsonText} (h : string? cs = some (s, rest)) :
    ∃ body, cs = body ++ '"' :: rest ∧ s.Spelled body := by
  fun_induction string? cs generalizing s rest with
  | case2 rest' =>
    cases h
    exact ⟨[], rfl, .nil⟩
  | case3 a b c d rest' u s' r hrest hunit ih =>
    cases h
    obtain ⟨body, rfl, hbody⟩ := ih hrest
    obtain ⟨va, vb, vc, vd, ha, hb, hc, hd, rfl⟩ := unit?_eq_some_iff.1 hunit
    exact ⟨_ ++ body, rfl, .cons (.unit ha hb hc hd) hbody⟩
  | case5 e rest' _ c s' r hrest hescaped ih =>
    cases h
    obtain ⟨body, rfl, hbody⟩ := ih hrest
    exact ⟨_ ++ body, rfl, .cons (.short (escaped?_eq_some_iff.1 hescaped)) hbody⟩
  | case8 c rest' hquote _ _ hplain s' r hrest ih =>
    cases h
    obtain ⟨body, rfl, hbody⟩ := ih hrest
    obtain ⟨hcontrol, hslash⟩ := not_or.1 hplain
    exact ⟨_ ++ body, rfl, .cons (.plain (Nat.not_lt.1 hcontrol) hquote hslash) hbody⟩
  | _ => cases h

/-- A string is read up to the quote that ends it. -/
theorem string?_complete {s : JsonText} {body : List Char} (h : s.Spelled body)
    (rest : List Char) : string? (body ++ '"' :: rest) = some (s, rest) := by
  induction h with
  | nil => rw [List.nil_append, string?]
  | @cons p s cs cs' hp hs ih =>
    rw [List.append_assoc]
    cases hp with
    | plain hcontrol hquote hslash =>
      rw [List.singleton_append, string?, if_neg (not_or.2 ⟨Nat.not_lt.2 hcontrol, hslash⟩), ih]
      · exact hquote
      · exact fun _ _ _ _ _ heq => absurd heq hslash
      · exact fun _ _ heq => absurd heq hslash
    | short he =>
      have hescaped := escaped?_eq_some_iff.2 he
      rw [List.cons_append, List.singleton_append, string?, hescaped, ih]
      -- no short escape is one of a code unit
      rintro _ _ _ _ _ rfl -
      cases hescaped
    | unit ha hb hc hd =>
      have hunit := unit?_eq_some_iff.2 ⟨_, _, _, _, ha, hb, hc, hd, rfl⟩
      simp only [List.cons_append, List.nil_append]
      rw [string?, hunit, ih]

/-! Numbers. -/

/-- What may follow a number: nothing that could belong to it. -/
def Stops (rest : List Char) : Prop :=
  ∀ c, rest.head? = some c → c.isDigit = false ∧ c ≠ '.' ∧ c ≠ 'e' ∧ c ≠ 'E'

theorem digits_sound (cs : List Char) :
    ∃ ws, cs = ws ++ afterDigits cs ∧ Digits (digits cs) ws :=
  ⟨cs.takeWhile Char.isDigit, List.takeWhile_append_dropWhile.symm,
    List.all_eq_true.1 List.all_takeWhile, rfl⟩

theorem digits_complete {ds : List Nat} {ws : List Char} (h : Digits ds ws)
    (hrest : ∀ c, rest.head? = some c → c.isDigit = false) :
    digits (ws ++ rest) = ds ∧ afterDigits (ws ++ rest) = rest := by
  have hnone : rest.takeWhile Char.isDigit = [] ∧ rest.dropWhile Char.isDigit = rest := by
    cases rest with
    | nil => exact ⟨rfl, rfl⟩
    | cons c rest =>
      have hc := hrest c rfl
      simp [hc]
  unfold digits afterDigits
  rw [List.takeWhile_append_of_pos h.all, List.dropWhile_append_of_pos h.all, hnone.1, hnone.2,
    List.append_nil]
  exact ⟨h.values, rfl⟩

theorem fraction?_sound {ds : List Nat} (h : fraction? cs = some (ds, rest)) :
    ∃ fs, cs = fs ++ rest ∧ Fraction ds fs := by
  unfold fraction? at h
  split at h
  · next cs' =>
    split at h
    · cases h
    · next hne =>
      cases h
      obtain ⟨ws, hws, hdigits⟩ := digits_sound cs'
      exact ⟨'.' :: ws, congrArg _ hws, .digits hdigits fun hnil => hne (by rw [hnil]; rfl)⟩
  · cases h
    exact ⟨[], rfl, .none⟩

theorem powerDigits?_sound {negative : Bool} {e : Option (Bool × List Nat)}
    (h : powerDigits? negative cs = some (e, rest)) :
    ∃ ws ds, cs = ws ++ rest ∧ e = some (negative, ds) ∧ Digits ds ws ∧ ds ≠ [] := by
  unfold powerDigits? at h
  split at h
  · cases h
  · next hne =>
    cases h
    obtain ⟨ws, hws, hdigits⟩ := digits_sound cs
    exact ⟨ws, _, hws, rfl, hdigits, fun hnil => hne (by rw [hnil]; rfl)⟩

theorem exponent?_sound {e : Option (Bool × List Nat)} (h : exponent? cs = some (e, rest)) :
    ∃ es, cs = es ++ rest ∧ Exponent e es := by
  unfold exponent? at h
  split at h
  case h_7 =>
    cases h
    exact ⟨[], rfl, .none⟩
  all_goals obtain ⟨ws, ds, rfl, rfl, hdigits, hne⟩ := powerDigits?_sound h
  case h_1 | h_2 => exact ⟨_ :: '-' :: ws, rfl, .minus (by decide) hdigits hne⟩
  case h_3 | h_4 => exact ⟨_ :: '+' :: ws, rfl, .plus (by decide) hdigits hne⟩
  case h_5 | h_6 => exact ⟨_ :: ws, rfl, .bare (by decide) hdigits hne⟩

/-- What was read of a number behind its sign is the rest of it. -/
theorem unsigned?_sound {negative : Bool} {n : Numeral}
    (h : unsigned? negative cs = some (n, rest)) :
    ∃ word, cs = word ++ rest ∧ n.Spelled ((if negative then ['-'] else []) ++ word) := by
  unfold unsigned? at h
  simp only [bind] at h
  split at h
  · cases h
  · next hwhole =>
    obtain ⟨⟨fraction, cs₁⟩, hfraction, h⟩ := Option.bind_eq_some_iff.1 h
    obtain ⟨⟨exponent, cs₂⟩, hexponent, h⟩ := Option.bind_eq_some_iff.1 h
    cases h
    obtain ⟨ws, hws, hdigits⟩ := digits_sound cs
    obtain ⟨fs, hfs, hf⟩ := fraction?_sound hfraction
    obtain ⟨es, rfl, he⟩ := exponent?_sound hexponent
    rw [hfs] at hws
    obtain ⟨hne, hzero⟩ := not_or.1 hwhole
    refine ⟨ws ++ (fs ++ es), ?_, .mk hdigits (fun hnil => hne (by rw [hnil]; rfl)) ?_ hf he⟩
    · rw [hws, List.append_assoc, List.append_assoc]
    · intro hhead
      have hlength : (digits cs).length = 1 :=
        Decidable.not_not.1 fun hlength => hzero ⟨hhead, hlength⟩
      obtain ⟨d, hd⟩ := List.length_eq_one_iff.1 hlength
      rw [hd] at hhead ⊢
      exact congrArg (fun d => [d]) (Option.some.inj hhead)

/-- What stands behind the digits of a number is no digit, and no point behind a fraction. -/
theorem head?_exponent {e : Option (Bool × List Nat)} {es : List Char} (he : Exponent e es)
    (hrest : Stops rest) {c : Char} (hc : (es ++ rest).head? = some c) :
    c.isDigit = false ∧ c ≠ '.' := by
  cases he with
  | none => exact ⟨(hrest c hc).1, (hrest c hc).2.1⟩
  | bare he | plus he | minus he =>
    cases hc
    rcases he with rfl | rfl <;> decide

theorem head?_fraction {ds : List Nat} {fs : List Char} {e : Option (Bool × List Nat)}
    {es : List Char} (hf : Fraction ds fs) (he : Exponent e es) (hrest : Stops rest) {c : Char}
    (hc : (fs ++ (es ++ rest)).head? = some c) : c.isDigit = false := by
  cases hf with
  | none => exact (head?_exponent he hrest hc).1
  | digits =>
    cases hc
    rfl

theorem fraction?_complete {ds : List Nat} {fs : List Char} (hf : Fraction ds fs)
    (hrest : ∀ c, rest.head? = some c → c.isDigit = false ∧ c ≠ '.') :
    fraction? (fs ++ rest) = some (ds, rest) := by
  cases hf with
  | none =>
    rw [List.nil_append]
    unfold fraction?
    split
    · exact absurd rfl (hrest '.' rfl).2
    · rfl
  | digits h hne =>
    obtain ⟨hdigits, hafter⟩ := digits_complete h fun c hc => (hrest c hc).1
    rw [List.cons_append, fraction?, hdigits, hafter, if_neg (mt List.isEmpty_iff.1 hne)]

theorem powerDigits?_complete {ds : List Nat} {ws : List Char} (h : Digits ds ws) (hne : ds ≠ [])
    (hrest : Stops rest) (negative : Bool) :
    powerDigits? negative (ws ++ rest) = some (some (negative, ds), rest) := by
  obtain ⟨hdigits, hafter⟩ := digits_complete h fun c hc => (hrest c hc).1
  rw [powerDigits?, hdigits, hafter, if_neg (mt List.isEmpty_iff.1 hne)]

theorem exponent?_complete {e : Option (Bool × List Nat)} {es : List Char} (he : Exponent e es)
    (hrest : Stops rest) : exponent? (es ++ rest) = some (e, rest) := by
  cases he with
  | none =>
    rw [List.nil_append]
    unfold exponent?
    split
    case h_1 | h_3 | h_5 => exact absurd rfl (hrest 'e' rfl).2.2.1
    case h_2 | h_4 | h_6 => exact absurd rfl (hrest 'E' rfl).2.2.2
    case h_7 => rfl
  | plus he h hne | minus he h hne =>
    rcases he with rfl | rfl <;> exact powerDigits?_complete h hne hrest _
  | @bare _ ds ws he h hne =>
    obtain ⟨c, ws, rfl⟩ : ∃ c ws', ws = c :: ws' :=
      List.exists_cons_of_ne_nil fun hnil => hne (by rw [← h.values, hnil]; rfl)
    have hdigit : c.isDigit = true := h.all c List.mem_cons_self
    -- a digit is no sign
    have hminus : c ≠ '-' := fun heq => absurd (heq ▸ hdigit) (by decide)
    have hplus : c ≠ '+' := fun heq => absurd (heq ▸ hdigit) (by decide)
    have hpower := powerDigits?_complete h hne hrest false
    rcases he with rfl | rfl
    all_goals
      rw [List.cons_append, exponent?]
      · exact hpower
      · exact fun _ heq => hminus (List.cons.inj heq).1
      · exact fun _ heq => hplus (List.cons.inj heq).1

/-- A number is read up to what cannot belong to it. -/
theorem unsigned?_complete {negative : Bool} {whole fraction : List Nat}
    {exponent : Option (Bool × List Nat)} {ws fs es : List Char} (hwhole : Digits whole ws)
    (hne : whole ≠ []) (hzero : whole.head? = some 0 → whole = [0]) (hf : Fraction fraction fs)
    (he : Exponent exponent es) (hrest : Stops rest) :
    unsigned? negative (ws ++ (fs ++ (es ++ rest))) =
      some (⟨negative, whole, fraction, exponent⟩, rest) := by
  obtain ⟨hdigits, hafter⟩ := digits_complete hwhole fun c => head?_fraction hf he hrest
  have hleads : ¬ (whole.isEmpty ∨ (whole.head? = some 0 ∧ whole.length ≠ 1)) := by
    rintro (hempty | ⟨hhead, hlength⟩)
    · exact hne (List.isEmpty_iff.1 hempty)
    · exact hlength (congrArg List.length (hzero hhead))
  unfold unsigned?
  simp only [hdigits, hafter, if_neg hleads, bind, Option.bind_some,
    fraction?_complete hf fun c => head?_exponent he hrest, exponent?_complete he hrest]
  rfl

/-! Words. -/

/-- What is cut off from a text is a word. -/
theorem next?_sound {t : Token} (h : next? cs = some (t, rest)) :
    ∃ word, cs = word ++ rest ∧ t.Spelled word := by
  unfold next? at h
  split at h
  case h_10 =>
    obtain ⟨⟨s, rest'⟩, hstring, heq⟩ := Option.map_eq_some_iff.1 h
    cases heq
    obtain ⟨body, rfl, hbody⟩ := string?_sound hstring
    exact ⟨'"' :: (body ++ ['"']), by simp, .string hbody⟩
  case h_11 =>
    obtain ⟨⟨n, rest'⟩, hnumber, heq⟩ := Option.map_eq_some_iff.1 h
    cases heq
    obtain ⟨word, rfl, hword⟩ := unsigned?_sound hnumber
    exact ⟨'-' :: word, rfl, .number hword⟩
  case h_12 =>
    obtain ⟨⟨n, rest'⟩, hnumber, heq⟩ := Option.map_eq_some_iff.1 h
    cases heq
    obtain ⟨word, rfl, hword⟩ := unsigned?_sound hnumber
    exact ⟨word, rfl, .number hword⟩
  all_goals cases h
  case h_1 => exact ⟨['{'], rfl, .openBrace⟩
  case h_2 => exact ⟨['}'], rfl, .closeBrace⟩
  case h_3 => exact ⟨['['], rfl, .openBracket⟩
  case h_4 => exact ⟨[']'], rfl, .closeBracket⟩
  case h_5 => exact ⟨[','], rfl, .comma⟩
  case h_6 => exact ⟨[':'], rfl, .colon⟩
  case h_7 => exact ⟨['n', 'u', 'l', 'l'], rfl, .null⟩
  case h_8 => exact ⟨['t', 'r', 'u', 'e'], rfl, .yes⟩
  case h_9 => exact ⟨['f', 'a', 'l', 's', 'e'], rfl, .no⟩

/-- Whether a word is a number. -/
def isNumber : Token → Bool
  | .number _ => true
  | _ => false

/-- A word is cut off from a text when what follows stops it. -/
theorem next?_complete {t : Token} {word : List Char} (h : t.Spelled word)
    (hstops : t.isNumber = true → Stops rest) : next? (word ++ rest) = some (t, rest) := by
  cases h with
  | string hs =>
    have hstring := string?_complete hs rest
    simp only [List.cons_append, List.append_assoc, List.nil_append, next?, hstring]
    rfl
  | number hn =>
    obtain @⟨negative, whole, fraction, exponent, ws, fs, es, hwhole, hne, hzero, hf, he⟩ := hn
    have hnumber : ∀ negative, unsigned? negative (ws ++ (fs ++ (es ++ rest))) =
        some (⟨negative, whole, fraction, exponent⟩, rest) :=
      fun _ => unsigned?_complete hwhole hne hzero hf he (hstops rfl)
    simp only [List.append_assoc]
    cases negative with
    | true =>
      show (unsigned? true (ws ++ (fs ++ (es ++ rest)))).map _ = _
      rw [hnumber]
      rfl
    | false =>
      obtain ⟨c, ws', rfl⟩ : ∃ c ws', ws = c :: ws' :=
        List.exists_cons_of_ne_nil fun hnil => hne (by rw [← hwhole.values, hnil]; rfl)
      have hdigit : c.isDigit = true := hwhole.all c List.mem_cons_self
      have hunsigned := hnumber false
      simp only [Bool.false_eq_true, ↓reduceIte, List.nil_append, List.cons_append] at hunsigned ⊢
      unfold next?
      split
      case h_12 =>
        rw [hunsigned]
        rfl
      -- no other word starts with a digit
      all_goals
        next heq =>
        rw [(List.cons.inj heq).1] at hdigit
        exact absurd hdigit (by decide)
  | _ => rfl

/-- A word starts with something else than a space. -/
theorem Spelled.exists_cons {t : Token} {word : List Char} (h : t.Spelled word) :
    ∃ c cs, word = c :: cs ∧ isSpace c = false := by
  cases h with
  | string => exact ⟨'"', _, rfl, rfl⟩
  | number hn =>
    obtain @⟨negative, _, _, _, ws, _, _, hwhole, hne, _, _, _⟩ := hn
    cases negative with
    | true => exact ⟨'-', _, rfl, rfl⟩
    | false =>
      obtain ⟨c, ws', rfl⟩ : ∃ c ws', ws = c :: ws' :=
        List.exists_cons_of_ne_nil fun hnil => hne (by rw [← hwhole.values, hnil]; rfl)
      have hdigit : c.isDigit = true := hwhole.all c List.mem_cons_self
      refine ⟨c, _, rfl, ?_⟩
      cases hc : isSpace c with
      | false => rfl
      | true =>
        simp only [isSpace, Bool.or_eq_true, beq_iff_eq] at hc
        rcases hc with ((rfl | rfl) | rfl) | rfl <;> exact absurd hdigit (by decide)
  | _ => exact ⟨_, _, rfl, rfl⟩

/-! ## 2. Words with spaces -/

/-- Words one after another, with spaces around them as one likes. -/
inductive Spaced : List Token → List Char → Prop
  | nil {ws : List Char} (hws : ∀ c ∈ ws, isSpace c = true) : Spaced [] ws
  | cons {t : Token} {ts : List Token} {ws word cs : List Char} (hws : ∀ c ∈ ws, isSpace c = true)
      (hword : t.Spelled word) (hrest : Spaced ts cs) : Spaced (t :: ts) (ws ++ (word ++ cs))

theorem Spaced.spaces {ts : List Token} {ws : List Char} (hws : ∀ c ∈ ws, isSpace c = true)
    (h : Spaced ts cs) : Spaced ts (ws ++ cs) := by
  cases h with
  | nil hws' => exact .nil fun c hc => (List.mem_append.1 hc).elim (hws c) (hws' c)
  | cons hws' hword hrest =>
    rw [← List.append_assoc]
    exact .cons (fun c hc => (List.mem_append.1 hc).elim (hws c) (hws' c)) hword hrest

theorem Spaced.word {t : Token} {ts : List Token} {word : List Char} (hword : t.Spelled word)
    (h : Spaced ts cs) : Spaced (t :: ts) (word ++ cs) :=
  .cons (List.forall_mem_nil _) hword h

theorem Spaced.append {ts ts' : List Token} {cs' : List Char} (h : Spaced ts cs)
    (h' : Spaced ts' cs') : Spaced (ts ++ ts') (cs ++ cs') := by
  induction h with
  | nil hws => exact h'.spaces hws
  | cons hws hword _ ih =>
    rw [List.append_assoc, List.append_assoc]
    exact .cons hws hword ih

/-- No number stands beside another one. -/
abbrev Apart (ts : List Token) : Prop :=
  ts.IsChain fun a b => ¬ (a.isNumber = true ∧ b.isNumber = true)

theorem scanWith_sound {fuel : Nat} {ts : List Token} (h : scanWith fuel cs = some ts) :
    Spaced ts cs := by
  induction fuel generalizing cs ts with
  | zero =>
    cases cs with
    | nil =>
      rw [scanWith] at h
      cases h
      exact .nil fun _ hc => absurd hc List.not_mem_nil
    | cons c cs => cases h
  | succ fuel ih =>
    cases cs with
    | nil =>
      rw [scanWith] at h
      cases h
      exact .nil fun _ hc => absurd hc List.not_mem_nil
    | cons c cs =>
      rw [scanWith] at h
      split at h
      · next hc =>
        have hspaces := (ih h).spaces (List.forall_mem_singleton.2 hc)
        exact hspaces
      · obtain ⟨⟨t, rest⟩, hnext, h⟩ := Option.bind_eq_some_iff.1 h
        obtain ⟨ts', hrest, h⟩ := Option.bind_eq_some_iff.1 h
        cases h
        obtain ⟨word, hword, hspelled⟩ := next?_sound hnext
        exact hword ▸ (ih hrest).word hspelled

/-- What stands before words of which the first is no number stops a number. -/
theorem Spaced.stops {ts : List Token} (h : Spaced ts cs)
    (hts : ∀ t, ts.head? = some t → ¬ t.isNumber = true) : Stops cs := by
  have hspace : ∀ c, isSpace c = true → c.isDigit = false ∧ c ≠ '.' ∧ c ≠ 'e' ∧ c ≠ 'E' := by
    intro c hc
    simp only [isSpace, Bool.or_eq_true, beq_iff_eq] at hc
    rcases hc with ((rfl | rfl) | rfl) | rfl <;> decide
  intro c hc
  cases h with
  | nil hws => exact hspace c (hws c (List.mem_of_mem_head? hc))
  | @cons t ts ws word cs hws hword hrest =>
    cases ws with
    | cons c' ws =>
      cases hc
      exact hspace c (hws c List.mem_cons_self)
    | nil =>
      cases hword with
      | number => exact absurd rfl (hts _ rfl)
      | _ =>
        cases hc
        decide

theorem scanWith_spaces {ts : List Token} {ws : List Char} (hws : ∀ c ∈ ws, isSpace c = true)
    (h : ∀ fuel, cs.length ≤ fuel → scanWith fuel cs = some ts) (fuel : Nat)
    (hfuel : (ws ++ cs).length ≤ fuel) : scanWith fuel (ws ++ cs) = some ts := by
  induction ws generalizing fuel with
  | nil => exact h fuel hfuel
  | cons c ws ih =>
    obtain ⟨hc, hrest⟩ := List.forall_mem_cons.1 hws
    cases fuel with
    | zero => cases hfuel
    | succ fuel =>
      rw [List.cons_append, scanWith, if_pos hc]
      exact ih hrest fuel (Nat.le_of_succ_le_succ hfuel)

theorem scanWith_complete {ts : List Token} (h : Spaced ts cs) (hts : Apart ts) (fuel : Nat)
    (hfuel : cs.length ≤ fuel) : scanWith fuel cs = some ts := by
  induction h generalizing fuel with
  | @nil ws hws =>
    have hnil : (ws ++ []).length ≤ fuel → scanWith fuel (ws ++ []) = some [] :=
      scanWith_spaces hws (fun _ _ => by rw [scanWith]) fuel
    rw [List.append_nil] at hnil
    exact hnil hfuel
  | @cons t ts ws word cs hws hword hrest ih =>
    obtain ⟨hhead, hts⟩ := List.isChain_cons.1 hts
    refine scanWith_spaces hws (fun fuel hfuel => ?_) fuel hfuel
    have hnext : next? (word ++ cs) = some (t, cs) := next?_complete hword fun hnumber =>
      hrest.stops fun t' ht' hnumber' => hhead t' ht' ⟨hnumber, hnumber'⟩
    obtain ⟨c, word, rfl, hc⟩ := hword.exists_cons
    cases fuel with
    | zero => cases hfuel
    | succ fuel =>
      have hlength : cs.length ≤ fuel := by
        rw [List.cons_append, List.length_cons, List.length_append] at hfuel
        omega
      rw [List.cons_append] at hnext ⊢
      rw [scanWith, if_neg (by rw [hc]; decide), hnext]
      simp only [bind, Option.bind, ih hts fuel hlength]
      rfl

/-- A text is cut into words that it spells. -/
theorem scan?_sound {ts : List Token} (h : scan? cs = some ts) : Spaced ts cs := scanWith_sound h

theorem scan?_complete {ts : List Token} (h : Spaced ts cs) (hts : Apart ts) :
    scan? cs = some ts := scanWith_complete h hts _ (Nat.le_refl _)

end Token

/-! ## 3. Values -/

namespace Json

mutual

/-- The words of a value. -/
def tokens : Json → List Token
  | .null => [.null]
  | .bool b => [.bool b]
  | .string s => [.string s]
  | .number n => [.number n]
  | .array items => .openBracket :: (itemTokens items ++ [.closeBracket])
  | .object fields => .openBrace :: (fieldTokens fields ++ [.closeBrace])

/-- The words of some items, with commas between them. -/
def itemTokens : List Json → List Token
  | [] => []
  | [x] => tokens x
  | x :: y :: rest => tokens x ++ .comma :: itemTokens (y :: rest)

/-- The words of some fields, with commas between them. -/
def fieldTokens : List (JsonText × Json) → List Token
  | [] => []
  | [(k, x)] => .string k :: .colon :: tokens x
  | (k, x) :: e :: rest => .string k :: .colon :: (tokens x ++ .comma :: fieldTokens (e :: rest))

end

/-- What was read, and the words that are left. -/
def taken {α : Type} {ts : List Token} (r : Option (α × Shorter ts)) : Option (α × List Token) :=
  r.map fun e => (e.1, e.2.1)

variable {ts rest : List Token} {x : Json} {xs : List Json} {k : JsonText}
  {fs : List (JsonText × Json)}

theorem taken_eq_some_iff {α : Type} {ts : List Token} {r : Option (α × Shorter ts)} {a : α}
    {rest : List Token} : taken r = some (a, rest) ↔ ∃ h, r = some (a, ⟨rest, h⟩) := by
  cases r with
  | none => simp [taken]
  | some e =>
    obtain ⟨a', rest', h'⟩ := e
    constructor
    · intro h
      cases h
      exact ⟨h', rfl⟩
    · rintro ⟨h, heq⟩
      cases heq
      rfl

theorem itemTokens_cons (x : Json) {xs : List Json} (hne : xs ≠ []) :
    itemTokens (x :: xs) = x.tokens ++ .comma :: itemTokens xs := by
  obtain ⟨y, ys, rfl⟩ := List.exists_cons_of_ne_nil hne
  rw [itemTokens]

theorem fieldTokens_cons (k : JsonText) (x : Json) {fs : List (JsonText × Json)} (hne : fs ≠ []) :
    fieldTokens ((k, x) :: fs) = .string k :: .colon :: (x.tokens ++ .comma :: fieldTokens fs) := by
  obtain ⟨e, fs, rfl⟩ := List.exists_cons_of_ne_nil hne
  rw [fieldTokens]

mutual

/-- What was read as a value are the words of it. -/
theorem value?_sound {ts : List Token} {x : Json} {rest : Shorter ts}
    (h : value? ts = some (x, rest)) : ts = x.tokens ++ rest.1 := by
  unfold value? at h
  split at h
  case h_6 r _ =>
    split at h
    · next xs r' hlt hitems =>
      cases h
      show Token.openBracket :: r = (array xs).tokens ++ r'
      rw [(items?_sound hitems).2, tokens, List.cons_append, List.append_assoc,
        List.singleton_append]
    · cases h
  case h_8 r _ =>
    split at h
    · next fs r' hlt hfields =>
      cases h
      show Token.openBrace :: r = (object fs).tokens ++ r'
      rw [(fields?_sound hfields).2, tokens, List.cons_append, List.append_assoc,
        List.singleton_append]
    · cases h
  all_goals
    cases h
    try rfl
termination_by (ts.length, 0)

theorem items?_sound {ts : List Token} {xs : List Json} {rest : Shorter ts}
    (h : items? ts = some (xs, rest)) :
    xs ≠ [] ∧ ts = itemTokens xs ++ .closeBracket :: rest.1 := by
  unfold items? at h
  split at h
  · next x r hlt hvalue =>
    cases h
    refine ⟨List.cons_ne_nil _ _, ?_⟩
    rw [itemTokens]
    exact value?_sound hvalue
  · next x r hlt hvalue =>
    have hlt' : r.length < ts.length := Nat.lt_of_succ_lt hlt
    simp only at h
    split at h
    · next xs' r' hlt'' hitems =>
      cases h
      obtain ⟨hne, htokens⟩ := items?_sound hitems
      refine ⟨List.cons_ne_nil _ _, ?_⟩
      rw [itemTokens_cons x hne, List.append_assoc, List.cons_append, ← htokens]
      exact value?_sound hvalue
    · cases h
  · cases h
termination_by (ts.length, 1)

theorem fields?_sound {ts : List Token} {fs : List (JsonText × Json)} {rest : Shorter ts}
    (h : fields? ts = some (fs, rest)) :
    fs ≠ [] ∧ ts = fieldTokens fs ++ .closeBrace :: rest.1 := by
  unfold fields? at h
  split at h
  · next k r =>
    split at h
    · next x r' hlt hvalue =>
      cases h
      refine ⟨List.cons_ne_nil _ _, ?_⟩
      show Token.string k :: .colon :: r = fieldTokens [(k, x)] ++ .closeBrace :: r'
      rw [fieldTokens, value?_sound hvalue]
      rfl
    · next x r' hlt hvalue =>
      have hlt' : r'.length < r.length := Nat.lt_of_succ_lt hlt
      simp only at h
      split at h
      · next fs' r'' hlt'' hfields =>
        cases h
        obtain ⟨hne, htokens⟩ := fields?_sound hfields
        refine ⟨List.cons_ne_nil _ _, ?_⟩
        have hr : r = x.tokens ++ .comma :: r' := value?_sound hvalue
        show Token.string k :: .colon :: r = fieldTokens ((k, x) :: fs') ++ .closeBrace :: r''
        rw [fieldTokens_cons k x hne, hr, htokens]
        simp only [List.cons_append, List.append_assoc]
      · cases h
    · cases h
  · cases h
termination_by (ts.length, 1)
decreasing_by
  all_goals
    subst_vars
    decreasing_tactic

end

/-! The words of a value are read as that value. -/

theorem items?_last (h : taken (value? ts) = some (x, .closeBracket :: rest)) :
    taken (items? ts) = some ([x], rest) := by
  obtain ⟨hlt, h⟩ := taken_eq_some_iff.1 h
  rw [items?, h]
  rfl

theorem items?_comma {ts' : List Token} (h : taken (value? ts) = some (x, .comma :: ts'))
    (h' : taken (items? ts') = some (xs, rest)) : taken (items? ts) = some (x :: xs, rest) := by
  obtain ⟨hlt, h⟩ := taken_eq_some_iff.1 h
  obtain ⟨hlt', h'⟩ := taken_eq_some_iff.1 h'
  rw [items?, h]
  simp only [h']
  rfl

theorem fields?_last (h : taken (value? ts) = some (x, .closeBrace :: rest)) :
    taken (fields? (.string k :: .colon :: ts)) = some ([(k, x)], rest) := by
  obtain ⟨hlt, h⟩ := taken_eq_some_iff.1 h
  rw [fields?, h]
  rfl

theorem fields?_comma {ts' : List Token} (h : taken (value? ts) = some (x, .comma :: ts'))
    (h' : taken (fields? ts') = some (fs, rest)) :
    taken (fields? (.string k :: .colon :: ts)) = some ((k, x) :: fs, rest) := by
  obtain ⟨hlt, h⟩ := taken_eq_some_iff.1 h
  obtain ⟨hlt', h'⟩ := taken_eq_some_iff.1 h'
  rw [fields?, h]
  simp only [h']
  rfl

theorem value?_array (h : taken (items? ts) = some (xs, rest)) :
    taken (value? (.openBracket :: ts)) = some (.array xs, rest) := by
  obtain ⟨hlt, h'⟩ := taken_eq_some_iff.1 h
  rw [value?]
  · rw [h']
    rfl
  · -- no list of items starts with the closing bracket
    rintro r rfl
    rw [items?, value?.eq_def] at h
    cases h

theorem value?_object (h : taken (fields? ts) = some (fs, rest)) :
    taken (value? (.openBrace :: ts)) = some (.object fs, rest) := by
  obtain ⟨hlt, h'⟩ := taken_eq_some_iff.1 h
  rw [value?]
  · rw [h']
    rfl
  · rintro r rfl
    rw [fields?.eq_def] at h
    cases h

mutual

theorem value?_tokens (x : Json) (rest : List Token) :
    taken (value? (x.tokens ++ rest)) = some (x, rest) := by
  match x with
  | .null | .bool b | .string s | .number n =>
    rw [tokens, List.singleton_append, value?]
    rfl
  | .array [] =>
    rw [tokens, itemTokens]
    show taken (value? (.openBracket :: .closeBracket :: rest)) = _
    rw [value?]
    rfl
  | .array (x :: xs) =>
    rw [tokens, List.cons_append, List.append_assoc]
    exact value?_array (items?_tokens x xs rest)
  | .object [] =>
    rw [tokens, fieldTokens]
    show taken (value? (.openBrace :: .closeBrace :: rest)) = _
    rw [value?]
    rfl
  | .object (e :: fs) =>
    rw [tokens, List.cons_append, List.append_assoc]
    exact value?_object (fields?_tokens e fs rest)
termination_by sizeOf x

theorem items?_tokens (x : Json) (xs : List Json) (rest : List Token) :
    taken (items? (itemTokens (x :: xs) ++ .closeBracket :: rest)) = some (x :: xs, rest) := by
  match xs with
  | [] =>
    rw [itemTokens]
    exact items?_last (value?_tokens x _)
  | y :: ys =>
    rw [itemTokens, List.append_assoc]
    exact items?_comma (value?_tokens x _) (items?_tokens y ys rest)
termination_by sizeOf (x :: xs)

theorem fields?_tokens (e : JsonText × Json) (fs : List (JsonText × Json)) (rest : List Token) :
    taken (fields? (fieldTokens (e :: fs) ++ .closeBrace :: rest)) = some (e :: fs, rest) := by
  match e, fs with
  | (k, x), [] =>
    rw [fieldTokens]
    exact fields?_last (value?_tokens x _)
  | (k, x), e :: fs =>
    rw [fieldTokens, List.cons_append, List.cons_append, List.append_assoc]
    exact fields?_comma (value?_tokens x _) (fields?_tokens e fs rest)
termination_by sizeOf (e :: fs)

end

/-! ## 4. Documents -/

theorem apart_cons {t : Token} (ht : t.isNumber = false) (h : Token.Apart ts) :
    Token.Apart (t :: ts) :=
  List.isChain_cons.2 ⟨fun _ _ hnumber => absurd (ht ▸ hnumber.1) Bool.false_ne_true, h⟩

theorem apart_append {t : Token} (ht : t.isNumber = false) (h : Token.Apart ts)
    (hrest : Token.Apart rest) : Token.Apart (ts ++ t :: rest) := by
  refine List.isChain_append.2 ⟨h, apart_cons ht hrest, fun _ _ t' ht' hnumber => ?_⟩
  cases ht'
  exact absurd (ht ▸ hnumber.2) Bool.false_ne_true

mutual

/-- A mark stands between any two numbers of a value. -/
theorem apart_tokens (x : Json) : Token.Apart x.tokens := by
  match x with
  | .null | .bool _ | .string _ | .number _ =>
    rw [tokens]
    exact List.isChain_singleton _
  | .array items =>
    rw [tokens]
    exact apart_cons rfl (apart_append rfl (apart_itemTokens items) .nil)
  | .object fields =>
    rw [tokens]
    exact apart_cons rfl (apart_append rfl (apart_fieldTokens fields) .nil)
termination_by sizeOf x

theorem apart_itemTokens (items : List Json) : Token.Apart (itemTokens items) := by
  match items with
  | [] =>
    rw [itemTokens]
    exact .nil
  | [x] =>
    rw [itemTokens]
    exact apart_tokens x
  | x :: y :: rest =>
    rw [itemTokens]
    exact apart_append rfl (apart_tokens x) (apart_itemTokens (y :: rest))
termination_by sizeOf items

theorem apart_fieldTokens (fields : List (JsonText × Json)) :
    Token.Apart (fieldTokens fields) := by
  match fields with
  | [] =>
    rw [fieldTokens]
    exact .nil
  | [(k, x)] =>
    rw [fieldTokens]
    exact apart_cons rfl (apart_cons rfl (apart_tokens x))
  | (k, x) :: e :: rest =>
    rw [fieldTokens]
    exact apart_cons rfl (apart_cons rfl
      (apart_append rfl (apart_tokens x) (apart_fieldTokens (e :: rest))))
termination_by sizeOf fields

end

/-- A text writes a value: it spells the words of the value, with spaces as one likes. -/
def WrittenAs (x : Json) (text : String) : Prop := Token.Spaced x.tokens text.toList

/-- **What reads as a value is what writes it.** -/
theorem read?_eq_some_iff {text : String} {x : Json} :
    read? text = some x ↔ x.WrittenAs text := by
  constructor
  · intro h
    obtain ⟨ts, hscan, h⟩ := Option.bind_eq_some_iff.1 h
    obtain ⟨⟨y, rest⟩, hvalue, h⟩ := Option.bind_eq_some_iff.1 h
    have hts := value?_sound hvalue
    obtain ⟨rest, hlt⟩ := rest
    cases rest with
    | cons t rest => cases h
    | nil =>
      cases h
      rw [List.append_nil] at hts
      unfold WrittenAs
      exact hts ▸ Token.scan?_sound hscan
  · intro h
    have hscan := Token.scan?_complete h (apart_tokens x)
    have hvalue := value?_tokens x []
    rw [List.append_nil] at hvalue
    obtain ⟨hlt, hvalue⟩ := taken_eq_some_iff.1 hvalue
    unfold read?
    simp only [hscan, hvalue, bind, Option.bind]
    rfl

end Json

end SnapshotKv
