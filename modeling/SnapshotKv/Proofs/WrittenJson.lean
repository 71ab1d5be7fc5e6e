import SnapshotKv.Catalog
import SnapshotKv.Proofs.JsonGrammar
import SnapshotKv.Proofs.Scalars

/-!
# Written documents read back

A document that was made of texts, of natural numbers and of lists and records of these, and was
written one item a line, reads as what was written. Only the strings look different: where a
character had to be escaped the code unit stands. So the catalog of a database reads back.

Results:
1. `Numeral.value?_ofNat`, `Numeral.spelled_toDigits`: numbers; `JsonText.spelled_escaped`: strings.
2. `Json.Plain.writtenAs`, `Json.read?_pretty`: what is written reads back.
3. `Catalog.ofText_text`: so does the catalog.
-/

namespace SnapshotKv

/-! ## 1. Words -/

namespace Numeral

/-- A natural number below `2 ^ 64` stands for itself. -/
theorem value?_ofNat {n : Nat} (h : n < Unsigned.limit) :
    value? ⟨false, digitValues (Nat.toDigits 10 n), [], none⟩ = some (.integer n) := by
  refine value?_of_natural ⟨rfl, rfl, rfl, ?_⟩ h
  rw [natural_digitValues, Nat.ofDigitChars_toDigits (by decide) (by decide)]

theorem head_toDigits {n d : Nat} (h : (digitValues (Nat.toDigits 10 n)).head? = some d)
    (hn : 0 < n) : d ≠ 0 := by
  induction n using Nat.strongRecOn with
  | ind n ih =>
    by_cases hlt : n < 10
    · rw [Nat.toDigits_of_lt_base hlt] at h
      have hsmall : ∀ m < 10, 0 < m → (m.digitChar).toNat - '0'.toNat ≠ 0 := by decide
      obtain rfl := Option.some.inj h
      exact hsmall n hlt hn
    · have hdigits := Nat.toDigits_of_base_le (by decide : 1 < 10) (Nat.le_of_not_lt hlt)
      obtain ⟨c, cs, hcs⟩ := List.exists_cons_of_ne_nil (@Nat.toDigits_ne_nil (n / 10) 10)
      rw [hdigits, hcs] at h
      refine ih (n / 10) (by omega) ?_ (by omega)
      rw [hcs]
      exact h

/-- A natural number is spelled with its digits. -/
theorem spelled_toDigits (n : Nat) :
    Spelled ⟨false, digitValues (Nat.toDigits 10 n), [], none⟩ (Nat.toDigits 10 n) := by
  have hdigits : Digits (digitValues (Nat.toDigits 10 n)) (Nat.toDigits 10 n) :=
    ⟨fun _ hc => Nat.isDigit_of_mem_toDigits (by decide) (by decide) hc, rfl⟩
  have hzero : (digitValues (Nat.toDigits 10 n)).head? = some 0 →
      digitValues (Nat.toDigits 10 n) = [0] := by
    intro hhead
    by_cases hn : n = 0
    · subst hn
      rfl
    · exact absurd rfl (head_toDigits hhead (Nat.pos_of_ne_zero hn))
  have hspelled := @Spelled.mk false _ _ _ _ _ _ hdigits
    (mt List.map_eq_nil_iff.1 Nat.toDigits_ne_nil) hzero .none .none
  rwa [List.append_nil, List.append_nil] at hspelled

end Numeral

namespace Token

/-- A character as it stands in a written string: one that needs a code unit has become it. -/
def pieceOf (c : Char) : StringPiece :=
  if c.toNat < 0x20 ∧ c ≠ '\n' ∧ c ≠ '\r' ∧ c ≠ '\t' ∧ c.toNat ≠ 0x08 ∧ c.toNat ≠ 0x0C then
    .unit c.toNat
  else .char c

theorem hexDigit_hexDigit {n : Nat} (h : n < 16) : HexDigit (Json.hexDigit n) n := by
  have hall : ∀ n < 16, Json.hexDigit n = Nat.digitChar n := by decide
  exact ⟨h, .inl (hall n h)⟩

/-- A character is escaped in a way to write it. -/
theorem spelled_escapeChar (c : Char) : (pieceOf c).Spelled (Json.escapeChar c) := by
  have hshort : ∀ {e c : Char}, pieceOf c = .char c → (e, c) ∈ shortEscapes →
      (pieceOf c).Spelled ['\\', e] := fun hc he => hc ▸ .short he
  unfold Json.escapeChar
  split
  · next h => subst h; exact hshort rfl (by decide)
  split
  · next h => subst h; exact hshort rfl (by decide)
  split
  · next h => subst h; exact hshort rfl (by decide)
  split
  · next h => subst h; exact hshort rfl (by decide)
  split
  · next h => subst h; exact hshort rfl (by decide)
  split
  · next h =>
    have hc : c = Char.ofNat 0x08 := by rw [← h, Char.ofNat_toNat]
    subst hc
    exact hshort rfl (by decide)
  split
  · next h =>
    have hc : c = Char.ofNat 0x0C := by rw [← h, Char.ofNat_toNat]
    subst hc
    exact hshort rfl (by decide)
  next hquote hslash hn hr ht hb hf =>
  split
  · next h =>
    rw [pieceOf, if_pos ⟨h, hn, hr, ht, hb, hf⟩]
    have hunit := StringPiece.Spelled.unit (hexDigit_hexDigit (n := 0) (by decide))
      (hexDigit_hexDigit (n := 0) (by decide)) (hexDigit_hexDigit (n := c.toNat / 16) (by omega))
      (hexDigit_hexDigit (n := c.toNat % 16) (by omega))
    have hvalue : ((0 * 16 + 0) * 16 + c.toNat / 16) * 16 + c.toNat % 16 = c.toNat := by omega
    rwa [hvalue] at hunit
  · next h =>
    rw [pieceOf, if_neg fun hall => h hall.1]
    exact .plain (Nat.not_lt.1 h) hquote hslash

end Token

namespace JsonText

theorem means_chars (s : List Char) : Means (s.map .char) s := by
  induction s with
  | nil => exact .nil
  | cons c s ih => exact .char ih

/-- The pieces of a written string stand for its characters. -/
theorem means_pieces (s : List Char) : Means (s.map Token.pieceOf) s := by
  induction s with
  | nil => exact .nil
  | cons c s ih =>
    rw [List.map_cons, Token.pieceOf]
    split
    · next h =>
      have hunit := Means.unit (by omega : ¬ (0xD800 ≤ c.toNat ∧ c.toNat ≤ 0xDFFF)) ih
      rwa [Char.ofNat_toNat] at hunit
    · exact .char ih

theorem spelled_escaped (s : List Char) :
    Spelled (s.map Token.pieceOf) (s.flatMap Json.escapeChar) := by
  induction s with
  | nil => exact .nil
  | cons c s ih => exact .cons (Token.spelled_escapeChar c) ih

end JsonText

/-! ## 2. Documents -/

namespace Json

open Token

mutual

/-- A value as it reads after it was written: its strings have the pieces that were written. -/
def reread : Json → Json
  | .string s => .string ((s.toString?.getD "").toList.map pieceOf)
  | .array items => .array (rereadItems items)
  | .object fields => .object (rereadFields fields)
  | x => x

/-- Each item as it reads after it was written. -/
def rereadItems : List Json → List Json
  | [] => []
  | x :: rest => reread x :: rereadItems rest

/-- Each field as it reads after it was written. -/
def rereadFields : List (JsonText × Json) → List (JsonText × Json)
  | [] => []
  | (k, x) :: rest => ((k.toString?.getD "").toList.map pieceOf, reread x) :: rereadFields rest

end

/-- The documents that are made of texts, natural numbers below `2 ^ 64`, lists and records. -/
inductive Plain : Json → Prop
  | text (s : String) : Plain (ofString s)
  | nat {n : Nat} (h : n < Unsigned.limit) : Plain (ofNat n)
  | list {items : List Json} (h : ∀ x ∈ items, Plain x) : Plain (.array items)
  | record {fields : List (String × Json)} (h : ∀ e ∈ fields, Plain e.2) : Plain (.record fields)

theorem toString?_chars (s : String) : JsonText.toString? (s.toList.map .char) = some s :=
  JsonText.toString?_eq_some_iff.2 (JsonText.means_chars _)

theorem rereadItems_eq (items : List Json) : rereadItems items = items.map reread := by
  induction items with
  | nil => rw [rereadItems, List.map_nil]
  | cons x rest ih => rw [rereadItems, ih, List.map_cons]

theorem reread_ofString (s : String) : reread (ofString s) = .string (s.toList.map pieceOf) := by
  rw [ofString, reread, toString?_chars, Option.getD_some]

theorem reread_ofNat (n : Nat) : reread (ofNat n) = ofNat n := by
  rw [ofNat, reread.eq_def]

theorem reread_record (fields : List (String × Json)) :
    reread (record fields) =
      .object (fields.map fun e => (e.1.toList.map pieceOf, reread e.2)) := by
  have hfields : ∀ fields : List (String × Json),
      rereadFields (fields.map fun e => (e.1.toList.map .char, e.2)) =
        fields.map fun e => (e.1.toList.map pieceOf, reread e.2) := by
    intro fields
    induction fields with
    | nil => rw [List.map_nil, rereadFields, List.map_nil]
    | cons e rest ih =>
      rw [List.map_cons, rereadFields, toString?_chars, Option.getD_some, ih, List.map_cons]
  rw [record, reread, hfields]

theorem prettyItems_eq (level : Nat) (items : List Json) :
    prettyItems level items = items.map (pretty level) := by
  induction items with
  | nil => rw [prettyItems, List.map_nil]
  | cons x rest ih => rw [prettyItems, ih, List.map_cons]

theorem writeText_chars (s : String) : writeText (s.toList.map .char) = quote s := by
  rw [writeText, toString?_chars, Option.getD_some]

theorem prettyFields_eq (level : Nat) (fields : List (String × Json)) :
    prettyFields level (fields.map fun e => (e.1.toList.map .char, e.2)) =
      fields.map fun e => quote e.1 ++ ": " ++ pretty level e.2 := by
  induction fields with
  | nil => rw [List.map_nil, prettyFields, List.map_nil]
  | cons e rest ih =>
    rw [List.map_cons, prettyFields, writeText_chars, ih, List.map_cons]

theorem toList_lineBreak (level : Nat) :
    (lineBreak level).toList = '\n' :: List.replicate (2 * level) ' ' := by
  simp [lineBreak]

theorem lineBreak_spaces (level : Nat) : ∀ c ∈ (lineBreak level).toList, isSpace c = true := by
  intro c hc
  rw [toList_lineBreak] at hc
  rcases List.mem_cons.1 hc with rfl | hc
  · rfl
  · rw [List.eq_of_mem_replicate hc]
    rfl

theorem spelled_quote (s : String) :
    Token.Spelled (.string (s.toList.map pieceOf)) (quote s).toList := by
  have hquote : (quote s).toList = '"' :: (s.toList.flatMap escapeChar ++ ['"']) := by
    simp [quote]
  rw [hquote]
  exact .string (JsonText.spelled_escaped _)

theorem spaced_nil : Spaced [] [] := .nil fun _ hc => absurd hc List.not_mem_nil

/-- The items of a list, one a line. -/
theorem spaced_items {α : Type} (text : α → List Char) (value : α → Json) (level : Nat) {x : α}
    {xs : List α} (h : ∀ y ∈ x :: xs, Spaced (value y).tokens (text y)) :
    Spaced (itemTokens ((x :: xs).map value))
      (("," ++ lineBreak level).toList.intercalate ((x :: xs).map text)) := by
  induction xs generalizing x with
  | nil =>
    simp only [List.map_cons, List.map_nil, List.intercalate_singleton, itemTokens]
    exact h x List.mem_cons_self
  | cons y ys ih =>
    obtain ⟨hx, hrest⟩ := List.forall_mem_cons.1 h
    simp only [List.map_cons, List.intercalate_cons_cons, itemTokens, String.toList_append,
      List.append_assoc] at ih ⊢
    exact hx.append ((ih hrest).spaces (lineBreak_spaces level) |>.word .comma)

/-- The name of a field and what separates it from the value. -/
theorem spaced_name (k : String) {cs : List Char} {ts : List Token} (h : Spaced ts cs) :
    Spaced (.string (k.toList.map pieceOf) :: .colon :: ts)
      ((quote k).toList ++ (": ".toList ++ cs)) := by
  have hvalue : Spaced ts ([' '] ++ cs) := h.spaces (List.forall_mem_singleton.2 rfl)
  have hcolon := hvalue.word .colon
  exact .word (spelled_quote k) hcolon

/-- The fields of a record, one a line. -/
theorem spaced_fields {α : Type} (name : α → String) (text : α → List Char) (value : α → Json)
    (level : Nat) {x : α} {xs : List α} (h : ∀ y ∈ x :: xs, Spaced (value y).tokens (text y)) :
    Spaced (fieldTokens ((x :: xs).map fun y => ((name y).toList.map pieceOf, value y)))
      (("," ++ lineBreak level).toList.intercalate
        ((x :: xs).map fun y => (quote (name y)).toList ++ (": ".toList ++ text y))) := by
  induction xs generalizing x with
  | nil =>
    simp only [List.map_cons, List.map_nil, List.intercalate_singleton, fieldTokens]
    exact spaced_name (name x) (h x List.mem_cons_self)
  | cons y ys ih =>
    obtain ⟨hx, hrest⟩ := List.forall_mem_cons.1 h
    simp only [List.map_cons, List.intercalate_cons_cons, fieldTokens] at ih ⊢
    have hcomma := ((ih hrest).spaces (lineBreak_spaces level)).word .comma
    have hfield := (spaced_name (name x) hx).append hcomma
    rw [List.append_assoc, List.append_assoc] at hfield
    rw [String.toList_append] at hfield ⊢
    rw [List.append_assoc, List.append_assoc, List.append_assoc]
    exact hfield

/-- Brackets around something, one a line, or with nothing between them. -/
theorem spaced_block {left right : String} {l r : Char} {t t' : Token} {ts : List Token}
    {texts : List String} (hleft : left.toList = [l]) (ht : t.Spelled [l])
    (hright : right.toList = [r]) (ht' : t'.Spelled [r]) (level : Nat)
    (hnil : texts = [] → ts = []) (h : texts ≠ [] → Spaced ts
      (("," ++ lineBreak (level + 1)).toList.intercalate (texts.map String.toList))) :
    Spaced (t :: (ts ++ [t'])) (block left right level texts).toList := by
  have hlast : Spaced [t'] [r] := .word ht' spaced_nil
  by_cases hne : texts = []
  · rw [hnil hne, hne, block, List.isEmpty_nil, if_pos rfl, String.toList_append, hleft, hright]
    exact .word ht hlast
  · have hblock : (block left right level texts).toList = [l] ++ ((lineBreak (level + 1)).toList ++
        (("," ++ lineBreak (level + 1)).toList.intercalate (texts.map String.toList) ++
          ((lineBreak level).toList ++ [r]))) := by
      rw [block, List.isEmpty_eq_false_iff.2 hne]
      simp only [Bool.false_eq_true, ↓reduceIte, String.toList_append, String.toList_intercalate,
        List.append_assoc, hleft, hright]
    rw [hblock]
    exact .word ht (((h hne).append (hlast.spaces (lineBreak_spaces level))).spaces
      (lineBreak_spaces (level + 1)))

theorem spaced_list {items : List Json} (level : Nat)
    (h : ∀ x ∈ items, Spaced (reread x).tokens (pretty (level + 1) x).toList) :
    Spaced (reread (.array items)).tokens (pretty level (.array items)).toList := by
  rw [pretty, prettyItems_eq, reread, rereadItems_eq, tokens]
  refine spaced_block rfl .openBracket rfl .closeBracket level (fun hnil => ?_) fun hne => ?_
  · rw [List.map_eq_nil_iff.1 hnil]
    rfl
  · rw [List.map_map]
    cases items with
    | nil => exact absurd rfl hne
    | cons x xs =>
      exact spaced_items (fun x => (pretty (level + 1) x).toList) reread (level + 1) h

theorem spaced_record {fields : List (String × Json)} (level : Nat)
    (h : ∀ e ∈ fields, Spaced (reread e.2).tokens (pretty (level + 1) e.2).toList) :
    Spaced (reread (.record fields)).tokens (pretty level (.record fields)).toList := by
  rw [reread_record, record, pretty, prettyFields_eq, tokens]
  refine spaced_block rfl .openBrace rfl .closeBrace level (fun hnil => ?_) fun hne => ?_
  · rw [List.map_eq_nil_iff.1 hnil]
    rfl
  · have htexts : (fields.map fun e => quote e.1 ++ ": " ++ pretty (level + 1) e.2).map
        String.toList = fields.map fun e =>
          (quote e.1).toList ++ (": ".toList ++ (pretty (level + 1) e.2).toList) := by
      rw [List.map_map]
      refine List.map_congr_left fun e _ => ?_
      simp only [Function.comp_apply, String.toList_append, List.append_assoc]
    rw [htexts]
    cases fields with
    | nil => exact absurd rfl hne
    | cons x xs =>
      exact spaced_fields (fun e : String × Json => e.1)
        (fun e => (pretty (level + 1) e.2).toList) (fun e => reread e.2) (level + 1) h

theorem spaced_text (s : String) (level : Nat) :
    Spaced (reread (ofString s)).tokens (pretty level (ofString s)).toList := by
  rw [reread_ofString, ofString, pretty, writeText_chars, tokens]
  have hword := spaced_nil.word (spelled_quote s)
  rwa [List.append_nil] at hword

theorem spaced_nat {n : Nat} (hn : n < Unsigned.limit) (level : Nat) :
    Spaced (reread (ofNat n)).tokens (pretty level (ofNat n)).toList := by
  have hnumber : ofNat n = .number ⟨false, digitValues (Nat.toDigits 10 n), [], none⟩ := rfl
  have htext : (writeNumber ⟨false, digitValues (Nat.toDigits 10 n), [], none⟩).toList =
      Nat.toDigits 10 n := by
    rw [writeNumber, Numeral.value?_ofNat hn]
    show (toString n).toList = _
    rw [Nat.toString_eq_ofList_toDigits, String.toList_ofList]
  rw [reread_ofNat, hnumber, pretty, htext, tokens]
  have hword := spaced_nil.word (.number (Numeral.spelled_toDigits n))
  rwa [List.append_nil] at hword

theorem Plain.spaced {x : Json} (h : Plain x) (level : Nat) :
    Spaced (reread x).tokens (pretty level x).toList := by
  induction h generalizing level with
  | text s => exact spaced_text s level
  | nat hn => exact spaced_nat hn level
  | list _ ih => exact spaced_list level fun x hx => ih x hx (level + 1)
  | record _ ih => exact spaced_record level fun e he => ih e he (level + 1)

/-- A plain document is written as what it reads as. -/
theorem Plain.writtenAs {x : Json} (h : Plain x) : (reread x).WrittenAs (x.pretty 0) := h.spaced 0

/-- A plain document that was written reads back. -/
theorem read?_pretty {x : Json} (h : Plain x) : read? (x.pretty 0) = some (reread x) :=
  read?_eq_some_iff.2 h.writtenAs

/-! ## 3. The catalog -/

theorem text?_reread (s : String) : (reread (ofString s)).text? = some s := by
  rw [reread_ofString]
  exact JsonText.toString?_eq_some_iff.2 (JsonText.means_pieces _)

theorem natBelow?_reread {n limit : Nat} (hn : n < limit) (hlimit : limit ≤ Unsigned.limit) :
    (reread (ofNat n)).natBelow? limit = some n := by
  have hvalue := Numeral.value?_ofNat (Nat.lt_of_lt_of_le hn hlimit)
  have hnumber : ofNat n = .number ⟨false, digitValues (Nat.toDigits 10 n), [], none⟩ := rfl
  rw [reread_ofNat, hnumber, natBelow?]
  simp only [hvalue]
  rw [if_pos ⟨Int.natCast_nonneg n, Int.ofNat_lt.2 hn⟩]
  rfl

theorem namedFields?_reread (fields : List (String × Json)) :
    (reread (record fields)).namedFields? = some (fields.map fun e => (e.1, reread e.2)) := by
  rw [reread_record, namedFields?]
  induction fields with
  | nil => rfl
  | cons e rest ih =>
    rw [List.map_cons, List.mapM_cons, ih,
      JsonText.toString?_eq_some_iff.2 (JsonText.means_pieces e.1.toList)]
    rfl

/-- The fields of a record are found under their names. -/
theorem recordFields?_reread {known : List String} {fields : List (String × Json)}
    (hknown : known.all (fun k => (fields.map (·.1)).count k ≤ 1) = true) :
    (reread (record fields)).recordFields? known false =
      some (known.map fun k => (fields.map fun e => (e.1, reread e.2)).lookup k) := by
  have hfields := namedFields?_reread fields
  have hnames : (fields.map fun e => (e.1, reread e.2)).map (·.1) = fields.map (·.1) := by
    rw [List.map_map]
    rfl
  rw [reread_record] at hfields ⊢
  simp only [recordFields?, hfields, bind, Option.bind, hnames, hknown, Bool.not_false,
    Bool.true_or, Bool.and_self, ↓reduceIte]
  rfl

end Json

namespace Catalog

open Json

theorem plain_recordJson {r : StoreRecord} (hid : r.id < Unsigned.limit)
    (hlen : r.prefixLength < Unsigned.limit) : Plain (recordJson r) := by
  refine .record fun e he => ?_
  rcases List.mem_cons.1 he with rfl | he
  · exact .text r.name
  rcases List.mem_cons.1 he with rfl | he
  · exact .nat hid
  · rw [List.mem_singleton.1 he]
    exact .nat hlen

theorem recordOfJson?_reread {r : StoreRecord} (hid : r.id < Unsigned.limit)
    (hlen : r.prefixLength < Unsigned.limit) :
    recordOfJson? (reread (recordJson r)) = some r := by
  rw [recordOfJson?, recordJson, recordFields?_reread rfl]
  simp [List.lookup_cons, text?_reread, natBelow?_reread hid, natBelow?_reread hlen]

/-- The numbers in a catalog have 64 bits. -/
structure Fits (c : Catalog) : Prop where
  nextId : c.nextId < Unsigned.limit
  stores : ∀ r ∈ c.stores, r.id < Unsigned.limit ∧ r.prefixLength < Unsigned.limit

theorem recordsOfField?_reread {c : Catalog} (h : c.Fits) :
    recordsOfField? (some (reread (.array (c.stores.map recordJson)))) = some c.stores := by
  have hall : ∀ rs : List StoreRecord,
      (∀ r ∈ rs, r.id < Unsigned.limit ∧ r.prefixLength < Unsigned.limit) →
        ((rs.map recordJson).map reread).mapM recordOfJson? = some rs := by
    intro rs hrs
    induction rs with
    | nil => rfl
    | cons r rest ih =>
      obtain ⟨⟨hid, hlen⟩, hrest⟩ := List.forall_mem_cons.1 hrs
      rw [List.map_cons, List.map_cons, List.mapM_cons, recordOfJson?_reread hid hlen, ih hrest]
      rfl
  rw [reread, rereadItems_eq, recordsOfField?, items, Option.bind_some]
  exact hall c.stores h.stores

theorem plain_json {c : Catalog} (h : c.Fits) : Plain c.json := by
  have hpath : ∀ (name : String) (path : Option String), ∀ e ∈
      (path.map fun p => (name, ofString p)).toList, Plain e.2 := by
    intro name path e he
    cases path with
    | none => cases he
    | some p =>
      rw [List.mem_singleton.1 he]
      exact .text p
  refine .record fun e he => ?_
  simp only [List.mem_append, List.mem_cons, List.not_mem_nil, or_false] at he
  rcases he with (((rfl | rfl | rfl) | he) | he) | rfl
  · exact .nat (by decide)
  · exact .nat h.nextId
  · exact .text c.capacity
  · exact hpath _ _ e he
  · exact hpath _ _ e he
  · refine .list fun x hx => ?_
    obtain ⟨r, hr, rfl⟩ := List.mem_map.1 hx
    exact plain_recordJson (h.stores r hr).1 (h.stores r hr).2

theorem pathOfField?_reread (path : String) :
    pathOfField? (some (reread (ofString path))) = some (some path) := by
  have htext := text?_reread path
  rw [reread_ofString] at htext ⊢
  simp only [pathOfField?, htext, Option.map_some]

theorem ofJson?_reread {c : Catalog} (h : c.Fits) : ofJson? (reread c.json) = some (format, c) := by
  have hstores := recordsOfField?_reread h
  have hformat : (reread (ofNat format)).natBelow? UInt32.size = some format :=
    natBelow?_reread (by decide) (by decide)
  have hnext := natBelow?_reread h.nextId (Nat.le_refl _)
  have hnone : pathOfField? none = some none := rfl
  obtain ⟨nextId, capacity, staging, pmem, stores⟩ := c
  -- the fields that are there depend on the media classes that are configured
  cases staging <;> cases pmem <;>
  · rw [ofJson?, json, recordFields?_reread rfl]
    simp only at hstores hnext
    simp [List.lookup_cons, hformat, hnext, hstores, text?_reread, pathOfField?_reread, hnone]

/-- The written catalog reads back, at any path. -/
theorem ofText_text {c : Catalog} (h : c.Fits) (path : String) : ofText c.text path = .ok c := by
  rw [ofText, text, read?_pretty (plain_json h), Option.bind_some, ofJson?_reread h]
  rfl

end Catalog

end SnapshotKv
