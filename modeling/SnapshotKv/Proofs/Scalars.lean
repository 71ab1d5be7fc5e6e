import SnapshotKv.Proofs.JsonGrammar
import SnapshotKv.Text.Unsigned

/-!
# Scalars in documents

What the strings and the numbers of a document stand for. A numeral without a point, an exponent and
a sign stands for the natural number that its digits make, as long as that has 64 bits. Every other
numeral is written anew with a sign, a point or an exponent, so its text can be told from that of a
natural number, and from every word by its digits.

Results:
1. `JsonText.Means`: the characters of a string; `toString?_eq_some_iff`.
2. `Numeral.Natural`: the numerals of natural numbers; `value?_of_natural`, `stands_of_value?`.
3. `Number.mem_text_of_stands`: what the texts of all other numbers have in them.
4. `Json.StandsFor`: a value and its text; `scalar?_of_standsFor`, `standsFor_of_scalar?`.
-/

namespace SnapshotKv

/-! ## 1. Strings -/

/-- The characters that a written string stands for: a code unit is a character, or the first of two
that make one. -/
inductive JsonText.Means : JsonText → List Char → Prop
  | nil : Means [] []
  | char {c : Char} {s : JsonText} {cs : List Char} (h : Means s cs) : Means (.char c :: s) (c :: cs)
  | unit {u : Nat} {s : JsonText} {cs : List Char} (hu : ¬ (0xD800 ≤ u ∧ u ≤ 0xDFFF))
      (h : Means s cs) : Means (.unit u :: s) (Char.ofNat u :: cs)
  | pair {u v : Nat} {s : JsonText} {cs : List Char} (hu : 0xD800 ≤ u ∧ u ≤ 0xDBFF)
      (hv : 0xDC00 ≤ v ∧ v ≤ 0xDFFF) (h : Means s cs) : Means (.unit u :: .unit v :: s)
        (Char.ofNat (0x10000 + (u - 0xD800) * 0x400 + (v - 0xDC00)) :: cs)

namespace JsonText

theorem decode?_eq_some_iff {s : JsonText} {cs : List Char} : s.decode? = some cs ↔ s.Means cs := by
  constructor
  · intro h
    fun_induction decode? s generalizing cs with
    | case1 =>
      cases h
      exact .nil
    | case2 c rest ih =>
      obtain ⟨cs, hrest, rfl⟩ := Option.map_eq_some_iff.1 h
      exact .char (ih hrest)
    | case3 u hu v rest hv ih =>
      obtain ⟨cs, hrest, rfl⟩ := Option.map_eq_some_iff.1 h
      exact .pair hu hv (ih hrest)
    | case7 u rest hhigh hlow ih =>
      obtain ⟨cs, hrest, rfl⟩ := Option.map_eq_some_iff.1 h
      exact .unit (by omega) (ih hrest)
    | _ => cases h
  · intro h
    induction h with
    | nil => rfl
    | char _ ih => rw [decode?, ih, Option.map_some]
    | @unit u _ _ hu _ ih =>
      have hhigh : ¬ (0xD800 ≤ u ∧ u ≤ 0xDBFF) := by omega
      have hlow : ¬ (0xDC00 ≤ u ∧ u ≤ 0xDFFF) := by omega
      rw [decode?.eq_def]
      simp only [if_neg hhigh, if_neg hlow, ih, Option.map_some]
    | pair hu hv _ ih => rw [decode?, if_pos hu, if_pos hv, ih, Option.map_some]

/-- A string is read as the text that it stands for. -/
theorem toString?_eq_some_iff {s : JsonText} {text : String} :
    s.toString? = some text ↔ s.Means text.toList := by
  rw [toString?, Option.map_eq_some_iff, ← decode?_eq_some_iff]
  constructor
  · rintro ⟨cs, hcs, rfl⟩
    rw [hcs, String.toList_ofList]
  · intro h
    exact ⟨_, h, String.ofList_toList⟩

end JsonText

/-! ## 2. Natural numbers -/

namespace Numeral

/-- The number that digits make, read onto another one. -/
def natural (acc : Nat) (ds : List Nat) : Nat := ds.foldl (fun n d => n * 10 + d) acc

theorem le_natural (acc : Nat) (ds : List Nat) : acc ≤ natural acc ds := by
  induction ds generalizing acc with
  | nil => exact Nat.le_refl acc
  | cons d rest ih =>
    have := ih (acc * 10 + d)
    show acc ≤ natural (acc * 10 + d) rest
    omega

theorem natural_digitValues (acc : Nat) (cs : List Char) :
    natural acc (digitValues cs) = Nat.ofDigitChars 10 cs acc := by
  induction cs generalizing acc with
  | nil => rfl
  | cons c rest ih =>
    show natural (acc * 10 + (c.toNat - '0'.toNat)) (digitValues rest) = _
    rw [ih, Nat.mul_comm]
    rfl

/-- A number that is small enough is taken up digit by digit. -/
theorem absorb_of_le {acc : Nat} {ds : List Nat} (h : natural acc ds ≤ maxSignificand)
    (taken : Nat) : absorb acc taken ds = (natural acc ds, taken + ds.length, []) := by
  induction ds generalizing acc taken with
  | nil => rfl
  | cons d rest ih =>
    have hle : acc * 10 + d ≤ maxSignificand := Nat.le_trans (le_natural _ rest) h
    rw [absorb, if_neg (Nat.not_lt.2 hle), ih h, List.length_cons, Nat.add_assoc, Nat.add_comm 1]
    rfl

/-- Of a greater one some digits are left. -/
theorem absorb_of_lt {acc : Nat} {ds : List Nat} (hacc : acc ≤ maxSignificand)
    (h : maxSignificand < natural acc ds) (taken : Nat) : (absorb acc taken ds).2.2 ≠ [] := by
  induction ds generalizing acc taken with
  | nil => exact absurd hacc (Nat.not_le.2 h)
  | cons d rest ih =>
    rw [absorb]
    split
    · exact List.cons_ne_nil _ _
    · next hle => exact ih (Nat.not_lt.1 hle) h (taken + 1)

/-- A numeral of digits alone, and the number that they make. -/
structure Natural (n : Numeral) (i : Nat) : Prop where
  positive : n.negative = false
  noFraction : n.fraction = []
  noExponent : n.exponent = none
  digits : natural 0 n.whole = i

theorem value?_of_natural {n : Numeral} {i : Nat} (h : n.Natural i) (hi : i < UInt64.size) :
    n.value? = some (.integer i) := by
  have hle : natural 0 n.whole ≤ maxSignificand := by
    rw [h.digits]
    exact Nat.le_sub_one_of_lt hi
  unfold value?
  simp only [h.positive, h.noFraction, h.noExponent, absorb_of_le hle, h.digits]
  rfl

/-- What a numeral stands for: a natural number, if it is one that has 64 bits, else an integer below
zero or a number in floating point. -/
inductive Stands (n : Numeral) : Number → Prop
  | natural {i : Nat} (h : n.Natural i) (hi : i < UInt64.size) : n.Stands (.integer i)
  | negative {i : Nat} (hi : 0 < i) : n.Stands (.integer (-i))
  | float (x : Binary64) : n.Stands (.float n.negative x)

theorem stands_of_value? {n : Numeral} {v : Number} (h : n.value? = some v) : n.Stands v := by
  have hfloat : n.magnitude?.map (.float n.negative) = some v → n.Stands v := by
    intro hmagnitude
    obtain ⟨x, -, rfl⟩ := Option.map_eq_some_iff.1 hmagnitude
    exact .float x
  unfold value? at h
  simp only at h
  split at h
  · next hplain =>
    obtain ⟨hfraction, hexponent⟩ := hplain
    split at h
    · next i taken habsorb =>
      split at h
      · next hpositive =>
        cases h
        have hle : Numeral.natural 0 n.whole ≤ maxSignificand := by
          refine Nat.not_lt.1 fun hlt => absorb_of_lt (Nat.zero_le _) hlt 0 ?_
          rw [habsorb]
        rw [absorb_of_le hle] at habsorb
        cases habsorb
        exact .natural ⟨Bool.not_eq_true' _ ▸ hpositive, List.isEmpty_iff.1 hfraction,
          Option.isNone_iff_eq_none.1 hexponent, rfl⟩ (Nat.lt_of_le_pred (by decide) hle)
      · split at h
        · next hi =>
          cases h
          exact .negative hi.1
        · exact hfloat h
    · exact hfloat h
  · exact hfloat h

end Numeral

/-! ## 3. All other numbers -/

namespace Binary64

theorem exists_digit (n : Nat) : ∃ c cs, Nat.toDigits 10 n = c :: cs ∧ c.isDigit = true := by
  obtain ⟨c, cs, hcs⟩ := List.exists_cons_of_ne_nil (@Nat.toDigits_ne_nil n 10)
  have hmem : c ∈ Nat.toDigits 10 n := by
    rw [hcs]
    exact List.mem_cons_self
  exact ⟨c, cs, hcs, Nat.isDigit_of_mem_toDigits (by decide) (by decide) hmem⟩

/-- A number in floating point is written with a digit, and with a point or an exponent. -/
theorem mem_text (x : Binary64) : (∃ c ∈ x.text.toList, c.isDigit = true) ∧
    ∃ c ∈ x.text.toList, c = '.' ∨ c = 'e' := by
  unfold text
  split
  · exact ⟨⟨'0', by decide, rfl⟩, '.', by decide, .inl rfl⟩
  · obtain ⟨d, ds, hds, hd⟩ := exists_digit x.shortest.digits
    have hmem : d ∈ Nat.toDigits 10 x.shortest.digits := by
      rw [hds]
      exact List.mem_cons_self
    simp only
    split
    · refine ⟨⟨d, ?_, hd⟩, '.', ?_, .inl rfl⟩ <;> simp [hmem]
    · split
      · rw [String.toList_ofList]
        refine ⟨⟨d, ?_, hd⟩, '.', by simp, .inl rfl⟩
        rw [← List.take_append_drop (Int.toNat _) (Nat.toDigits 10 x.shortest.digits)] at hmem
        rcases List.mem_append.1 hmem with hmem | hmem
        · exact List.mem_append_left _ hmem
        · exact List.mem_append_right _ (List.mem_cons_of_mem _ hmem)
      · split
        · exact ⟨⟨'0', by simp, rfl⟩, '.', by simp, .inl rfl⟩
        · have hexponent : ∀ point : Int, 'e' ∈ (if 0 < point then "e+" else "e").toList := by
            intro point
            split <;> decide
          rw [hds]
          simp only [String.toList_append, List.mem_append]
          refine ⟨⟨d, .inl (.inl ?_), hd⟩, 'e', .inl (.inr (hexponent _)), .inr rfl⟩
          cases ds <;> simp

end Binary64

namespace Number

theorem toString_neg {i : Nat} (hi : 0 < i) : toString (-(i : Int)) = "-" ++ toString i := by
  obtain ⟨m, rfl⟩ := Nat.exists_eq_succ_of_ne_zero (Nat.ne_of_gt hi)
  rfl

/-- A number that is not natural is written with a digit, and with a sign, a point or an exponent. -/
theorem mem_text_of_stands {n : Numeral} {v : Number} (h : n.Stands v) :
    (∃ i : Nat, n.Natural i ∧ i < UInt64.size ∧ v = .integer i) ∨
      (∃ c ∈ v.text.toList, c.isDigit = true) ∧
        ∃ c ∈ v.text.toList, c = '-' ∨ c = '.' ∨ c = 'e' := by
  cases h with
  | natural h hi => exact .inl ⟨_, h, hi, rfl⟩
  | @negative i hi =>
    obtain ⟨d, ds, hds, hd⟩ := Binary64.exists_digit i
    refine .inr ?_
    rw [text, toString_neg hi, String.toList_append, Nat.toString_eq_ofList_toDigits,
      String.toList_ofList, hds]
    exact ⟨⟨d, by simp, hd⟩, '-', by simp, .inl rfl⟩
  | float x =>
    obtain ⟨⟨d, hdmem, hd⟩, c, hcmem, hc⟩ := x.mem_text
    refine .inr ?_
    rw [text, String.toList_append]
    exact ⟨⟨d, List.mem_append_right _ hdmem, hd⟩, c, List.mem_append_right _ hcmem, .inr hc⟩

end Number

/-! ## 4. Values -/

namespace Json

/-- The text that a value stands for: a boolean for its word, a string for its characters, and a
natural number of 64 bits for its digits. -/
inductive StandsFor : Json → String → Prop
  | bool (b : Bool) : StandsFor (.bool b) (toString b)
  | string {s : JsonText} {text : String} (h : s.Means text.toList) : StandsFor (.string s) text
  | natural {n : Numeral} {i : Nat} (h : n.Natural i) (hi : i < UInt64.size) :
      StandsFor (.number n) (toString i)

theorem scalar?_of_standsFor {x : Json} {text : String} (h : x.StandsFor text) :
    x.scalar? = some text := by
  cases h with
  | bool b => rfl
  | string h => exact JsonText.toString?_eq_some_iff.2 h
  | natural h hi =>
    rw [scalar?, Numeral.value?_of_natural h hi]
    rfl

/-- A scalar is taken for the text that it stands for, or it is a number that is not natural. -/
theorem standsFor_of_scalar? {x : Json} {text : String} (h : x.scalar? = some text) :
    x.StandsFor text ∨ (∃ c ∈ text.toList, c.isDigit = true) ∧
      ∃ c ∈ text.toList, c = '-' ∨ c = '.' ∨ c = 'e' := by
  cases x with
  | bool b =>
    cases h
    exact .inl (.bool b)
  | string s => exact .inl (.string (JsonText.toString?_eq_some_iff.1 h))
  | number n =>
    obtain ⟨v, hv, rfl⟩ := Option.map_eq_some_iff.1 h
    rcases Number.mem_text_of_stands (Numeral.stands_of_value? hv) with ⟨i, hn, hi, rfl⟩ | hother
    · exact .inl (.natural hn hi)
    · exact .inr hother
  | null | array | object => cases h

end Json

end SnapshotKv
