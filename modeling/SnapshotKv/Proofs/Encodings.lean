import Mathlib.Algebra.Group.Nat.Defs
import SnapshotKv.DataFile
import SnapshotKv.Proofs.Listings
import SnapshotKv.Proofs.Pruning
import SnapshotKv.Text.Utf8

/-!
# What is written reads back

A data file reads back as the records that were written to it, as long as their lengths fit the
fields of the format; a text in UTF-8 reads back as the text. A tree that is loaded from the records
of a view has the contents of the view.

Results:
1. `DataFile.decode_encode`: data files; `DataFile.fits_of_decode`: what was read fits.
2. `VersionTree.contents_ofRecords`: trees.
3. `Utf8.decode?_ofText`: texts.
-/

namespace SnapshotKv

/-! ## 1. Data files -/

namespace DataFile

/-- The lengths of a record fit their fields. -/
def Fits (r : Record) : Prop := r.1.length < 256 ^ 4 ∧ r.2.length < 256 ^ 4

/-- The encodings of some records, one after another. -/
def body (records : List Record) : Bytes := records.flatMap encodeRecord

theorem slice_eq {b front part back : Bytes} {offset width : Nat} (h : b = front ++ part ++ back)
    (hoffset : front.length = offset) (hwidth : part.length = width) :
    slice b offset width = part := by
  rw [slice, h, ← hoffset, ← hwidth, List.append_assoc, List.drop_left, List.take_left]

theorem toNat_lt (b : Bytes) : b.toNat < 256 ^ b.length := by
  induction b with
  | nil => exact Nat.one_pos
  | cons x rest ih =>
    have hx := x.toNat_lt
    rw [Bytes.toNat, List.length_cons, Nat.pow_succ]
    omega

theorem length_encodeRecord (r : Record) :
    (encodeRecord r).length = recordHeaderLength + (r.1.length + r.2.length) := by
  simp only [encodeRecord, List.length_append, Bytes.length_ofNat, recordHeaderLength]
  omega

theorem length_le_body (records : List Record) : records.length ≤ (body records).length := by
  induction records with
  | nil => exact Nat.le_refl _
  | cons r rest ih =>
    have hr := length_encodeRecord r
    simp only [recordHeaderLength] at hr
    rw [body, List.flatMap_cons, List.length_append, List.length_cons]
    unfold body at ih
    omega

/-- One record is read off the start of some records. -/
theorem decodeRecords_cons (found : List Record) {r : Record} (hfits : Fits r)
    (records : List Record) :
    decodeRecords found (body (r :: records)).length (body (r :: records)) =
      decodeRecords (r :: found) (body records).length (body records) := by
  obtain ⟨key, value⟩ := r
  have hbody : body ((key, value) :: records) =
      Bytes.ofNat 4 key.length ++ Bytes.ofNat 4 value.length ++ (key ++ (value ++ body records)) := by
    simp only [body, List.flatMap_cons, encodeRecord, List.append_assoc]
  have hlength : (body ((key, value) :: records)).length =
      recordHeaderLength + (key.length + value.length) + (body records).length := by
    rw [← length_encodeRecord (key, value), ← List.length_append]
    rfl
  have hkey : slice (body ((key, value) :: records)) 0 4 = Bytes.ofNat 4 key.length :=
    slice_eq (show _ = [] ++ _ ++ _ from hbody) rfl (Bytes.length_ofNat _ _)
  have hvalue : slice (body ((key, value) :: records)) 4 4 = Bytes.ofNat 4 value.length :=
    slice_eq hbody (Bytes.length_ofNat _ _) (Bytes.length_ofNat _ _)
  have hrest : (body ((key, value) :: records)).drop recordHeaderLength =
      key ++ (value ++ body records) := by
    rw [hbody]
    exact List.drop_left' (by simp [recordHeaderLength])
  have hvalue' : slice (key ++ (value ++ body records)) key.length value.length = value :=
    slice_eq (List.append_assoc _ _ _).symm rfl rfl
  have hdrop : (key ++ (value ++ body records)).drop (key.length + value.length) = body records := by
    rw [← List.append_assoc]
    exact List.drop_left' List.length_append
  have hleft : recordHeaderLength + (key.length + value.length) + (body records).length -
      recordHeaderLength - (key.length + value.length) = (body records).length := by omega
  have hpos : 0 < recordHeaderLength := by decide
  rw [decodeRecords, hlength, if_neg (by omega), dif_neg (by omega)]
  simp only [hkey, hvalue, hrest, Bytes.toNat_ofNat 4 _ hfits.1, Bytes.toNat_ofNat 4 _ hfits.2,
    hvalue', hdrop, List.take_left, hleft]
  rw [if_neg (by omega)]

theorem decodeRecords_body (found : List Record) {records : List Record}
    (hfits : ∀ r ∈ records, Fits r) :
    decodeRecords found (body records).length (body records) = .ok (found.reverse ++ records) := by
  induction records generalizing found with
  | nil =>
    rw [decodeRecords, List.append_nil]
    rfl
  | cons r rest ih =>
    obtain ⟨hr, hrest⟩ := List.forall_mem_cons.1 hfits
    rw [decodeRecords_cons found hr, ih _ hrest, List.reverse_cons, List.append_assoc]
    rfl

section Checks

variable {α β : Type} {a : α} {f : Fault}

/-- Reading goes on behind a check that found nothing. -/
theorem ok_guard {c : Prop} [Decidable c] {g : β → Except Fault α} {k : Except Fault α} :
    (if c then throw f >>= g else k) = .ok a ↔ ¬ c ∧ k = .ok a := by
  split
  · next h => exact ⟨nofun, fun h' => absurd h h'.1⟩
  · next h => exact ⟨fun h' => ⟨h, h'⟩, And.right⟩

theorem ok_bind {x : Except Fault β} {k : β → Except Fault α} :
    (x >>= k) = .ok a ↔ ∃ b, x = .ok b ∧ k b = .ok a := by
  cases x with
  | error f => exact ⟨nofun, fun ⟨_, h, _⟩ => nomatch h⟩
  | ok b =>
    refine ⟨fun h => ⟨b, rfl, h⟩, ?_⟩
    rintro ⟨_, ⟨⟩, h⟩
    exact h

end Checks

/-- What a file passes that reads as some records. -/
structure Accepted (file : Bytes) (prefixLength : Nat) (records : List Record) : Prop where
  sized : headerLength + trailerLength ≤ file.length
  marked : slice file 0 4 = mark
  versioned : Bytes.toNat (slice file 4 4) = version
  ordered : slice file 8 1 = [byteOrder]
  measured : Bytes.toNat (slice file 24 8) = file.length - headerLength - trailerLength
  digested : Sha256.digest
      (file.take (headerLength + (file.length - headerLength - trailerLength))) =
    file.drop (headerLength + (file.length - headerLength - trailerLength))
  parsed : decodeRecords [] (file.length - headerLength - trailerLength)
    ((file.take (headerLength + (file.length - headerLength - trailerLength))).drop headerLength) =
      .ok records
  counted : records.length = Bytes.toNat (slice file 16 8)
  shaped : Bytes.toNat (slice file 9 1) = prefixLength

theorem decode_eq_ok_iff {file : Bytes} {prefixLength : Nat} {records : List Record} :
    decode file = .ok (prefixLength, records) ↔ Accepted file prefixLength records := by
  unfold decode
  simp only [↓ok_guard, ↓ok_bind, Nat.not_lt, ne_eq, Decidable.not_not]
  constructor
  · rintro ⟨hsize, hmark, hversion, horder, hlength, hdigest, found, hparsed, hcount, ⟨⟩⟩
    exact ⟨hsize, hmark, hversion, horder, hlength, hdigest, hparsed, hcount, rfl⟩
  · rintro ⟨hsize, hmark, hversion, horder, hlength, hdigest, hparsed, hcount, rfl⟩
    exact ⟨hsize, hmark, hversion, horder, hlength, hdigest, records, hparsed, hcount, rfl⟩

/-- A header with some bytes in its free place. -/
def headerWith (free : Bytes) (prefixLength count bodyLength : Nat) : Bytes :=
  mark ++ Bytes.ofNat 4 version ++ [byteOrder, UInt8.ofNat prefixLength] ++ free
    ++ Bytes.ofNat 8 count ++ Bytes.ofNat 8 bodyLength

/-- Some bytes and then their digest. -/
def withDigest (content : Bytes) : Bytes := content ++ Sha256.digest content

/-- Everything in a data file before the digest. -/
def content (free : Bytes) (prefixLength : Nat) (records : List Record) : Bytes :=
  headerWith free prefixLength records.length (body records).length ++ body records

/-- A written file has zeros in the free place. -/
theorem encode_eq (prefixLength : Nat) (records : List Record) :
    encode prefixLength records = withDigest (content (List.replicate 6 0) prefixLength records) :=
  rfl

section Written

variable {free : Bytes}

theorem length_headerWith (hfree : free.length = 6) (prefixLength count bodyLength : Nat) :
    (headerWith free prefixLength count bodyLength).length = headerLength := by
  simp [headerWith, mark, headerLength, hfree]

theorem length_content (hfree : free.length = 6) (prefixLength : Nat) (records : List Record) :
    (content free prefixLength records).length = headerLength + (body records).length := by
  rw [content, List.length_append, length_headerWith hfree]

/-- What the header of a data file says. -/
theorem slices_headerWith (hfree : free.length = 6) (prefixLength count bodyLength : Nat)
    (rest : Bytes) :
    let file := headerWith free prefixLength count bodyLength ++ rest
    slice file 0 4 = mark ∧ slice file 4 4 = Bytes.ofNat 4 version ∧
      slice file 8 1 = [byteOrder] ∧ slice file 9 1 = [UInt8.ofNat prefixLength] ∧
      slice file 16 8 = Bytes.ofNat 8 count ∧ slice file 24 8 = Bytes.ofNat 8 bodyLength := by
  refine ⟨?_, ?_, ?_, ?_, ?_, ?_⟩ <;>
    simp [slice, headerWith, mark, List.drop_append, List.take_append, List.drop_of_length_le, hfree]

/-- Whatever the free bytes are, a file reads back as the prefix length and the records in it. -/
theorem decode_withDigest (hfree : free.length = 6) {prefixLength : Nat} {records : List Record}
    (hlen : prefixLength < 256) (hfits : ∀ r ∈ records, Fits r)
    (hlength : (body records).length < 256 ^ 8) :
    decode (withDigest (content free prefixLength records)) = .ok (prefixLength, records) := by
  have hcount := Nat.lt_of_le_of_lt (length_le_body records) hlength
  have hlead := length_content hfree prefixLength records
  have hsize : (withDigest (content free prefixLength records)).length =
      headerLength + (body records).length + trailerLength := by
    rw [withDigest, List.length_append, hlead, Sha256.length_digest]
    rfl
  have hcontent : (withDigest (content free prefixLength records)).take
      (headerLength + (body records).length) = content free prefixLength records :=
    List.take_left' hlead
  have hdigest : (withDigest (content free prefixLength records)).drop
      (headerLength + (body records).length) = Sha256.digest (content free prefixLength records) :=
    List.drop_left' hlead
  have hbody : (content free prefixLength records).drop headerLength = body records :=
    List.drop_left' (length_headerWith hfree _ _ _)
  have hbodyLength : headerLength + (body records).length + trailerLength - headerLength -
      trailerLength = (body records).length := by omega
  have hfile : withDigest (content free prefixLength records) =
      headerWith free prefixLength records.length (body records).length ++
        (body records ++ Sha256.digest (content free prefixLength records)) :=
    List.append_assoc _ _ _
  obtain ⟨hmark, hversion, horder, hshape, hrecords, hbytes⟩ :=
    slices_headerWith hfree prefixLength records.length (body records).length
      (body records ++ Sha256.digest (content free prefixLength records))
  rw [← hfile] at hmark hversion horder hshape hrecords hbytes
  have hlen' : Bytes.toNat [UInt8.ofNat prefixLength] = prefixLength := by
    simp [Bytes.toNat, Nat.mod_eq_of_lt hlen]
  refine decode_eq_ok_iff.2
    { sized := by omega
      marked := hmark
      versioned := by rw [hversion]; decide
      ordered := horder
      measured := by rw [hbytes, hsize, hbodyLength, Bytes.toNat_ofNat 8 _ hlength]
      digested := by rw [hsize, hbodyLength, hcontent, hdigest]
      parsed := by rw [hsize, hbodyLength, hcontent, hbody, decodeRecords_body [] hfits]; rfl
      counted := by rw [hrecords, Bytes.toNat_ofNat 8 _ hcount]
      shaped := by rw [hshape, hlen'] }

end Written

/-- A data file reads back as the prefix length and the records that it was made of. -/
theorem decode_encode {prefixLength : Nat} {records : List Record} (hlen : prefixLength < 256)
    (hfits : ∀ r ∈ records, Fits r) (hlength : (body records).length < 256 ^ 8) :
    decode (encode prefixLength records) = .ok (prefixLength, records) :=
  encode_eq prefixLength records ▸ decode_withDigest List.length_replicate hlen hfits hlength

theorem length_slice_le (b : Bytes) (offset width : Nat) : (slice b offset width).length ≤ width := by
  unfold slice
  exact List.length_take_le _ _

/-- The length in a field is below its bound. -/
theorem toNat_slice_lt (b : Bytes) (offset width : Nat) :
    (slice b offset width).toNat < 256 ^ width :=
  Nat.lt_of_lt_of_le (toNat_lt _) (Nat.pow_le_pow_right (by decide) (length_slice_le b offset width))

theorem fits_of_decodeRecords {found : List Record} {length : Nat} {bytes : Bytes}
    {records : List Record} (h : decodeRecords found length bytes = .ok records)
    (hfound : ∀ r ∈ found, Fits r) : ∀ r ∈ records, Fits r := by
  fun_induction decodeRecords found length bytes with
  | case1 =>
    cases h
    exact fun r hr => hfound r (List.mem_reverse.1 hr)
  | case2 | case3 => cases h
  | case4 found length bytes hlength hheader keyLength valueLength rest hrest hlt ih =>
    refine ih h (List.forall_mem_cons.2 ⟨⟨?_, ?_⟩, hfound⟩)
    · exact Nat.lt_of_le_of_lt (List.length_take_le _ _) (toNat_slice_lt _ 0 4)
    · exact Nat.lt_of_le_of_lt (length_slice_le _ _ _) (toNat_slice_lt _ 4 4)

/-- The records of a data file that was read fit. -/
theorem fits_of_decode {file : Bytes} {prefixLength : Nat} {records : List Record}
    (h : decode file = .ok (prefixLength, records)) : ∀ r ∈ records, Fits r :=
  fits_of_decodeRecords (decode_eq_ok_iff.1 h).parsed fun _ hr => nomatch hr

end DataFile

/-! ## 2. Trees -/

namespace VersionTree

/-- The tree of some records, all with the sequence number zero. -/
def ofRecords (records : List (Bytes × Bytes)) : VersionTree :=
  records.foldl (fun t e => t.insert e.1 0 (some e.2)) {}

theorem upTo_ofRecords (records : List (Bytes × Bytes)) : (ofRecords records).UpTo 0 := by
  have hall : ∀ {t : VersionTree}, t.UpTo 0 →
      (records.foldl (fun t e => t.insert e.1 0 (some e.2)) t).UpTo 0 := by
    induction records with
    | nil => exact id
    | cons e rest ih => exact fun ht => ih (ht.insert e.1 (some e.2))
  exact hall (upTo_empty 0)

theorem contents_insert {t : VersionTree} (ht : t.UpTo 0) (key v : Bytes) :
    (t.insert key 0 (some v)).contents 0 = (t.contents 0).insert key v :=
  SortedMap.ext_get? fun key' => by
    rw [get?_contents, SortedMap.get?_insert, get?_contents,
      get_insert_of_le ht key key' (some v) (Nat.le_refl 0)]
    simp only [beq_iff_eq]

theorem contents_foldl_insert (records : List (Bytes × Bytes)) {t : VersionTree} (ht : t.UpTo 0) :
    (records.foldl (fun t e => t.insert e.1 0 (some e.2)) t).contents 0 =
      records.foldl (fun m e => m.insert e.1 e.2) (t.contents 0) := by
  induction records generalizing t with
  | nil => rfl
  | cons e rest ih => rw [List.foldl_cons, List.foldl_cons, ih (ht.insert e.1 _), contents_insert ht]

/-- The tree of the records of a map has the map as its contents. -/
theorem contents_ofRecords (m : SortedMap Bytes Bytes) : (ofRecords m.entries).contents 0 = m :=
  SortedMap.ext_get? fun key => by
    rw [ofRecords, contents_foldl_insert _ (upTo_empty 0), SortedMap.get?_foldl_insert m.sorted]
    exact Option.or_none

end VersionTree

/-! ## 3. Texts -/

namespace Utf8

section Pieces

variable {b b1 b2 b3 : UInt8}

theorem isTail_iff : isTail b = true ↔ 0x80 ≤ b.toNat ∧ b.toNat ≤ 0xBF := by
  simp [isTail, UInt8.le_iff_toNat_le]

/-- The bytes that may follow a first byte, which two first bytes narrow from below and from above. -/
theorem second_iff {x y low high : UInt8} (hne : x ≠ y) (hlow : 0x80 ≤ low.toNat)
    (hhigh : high.toNat ≤ 0xBF) :
    (if b = x then decide (low ≤ b1) && decide (b1 ≤ 0xBF)
      else if b = y then decide (0x80 ≤ b1) && decide (b1 ≤ high) else isTail b1) = true ↔
    0x80 ≤ b1.toNat ∧ b1.toNat ≤ 0xBF ∧ (b.toNat = x.toNat → low.toNat ≤ b1.toNat) ∧
      (b.toNat = y.toNat → b1.toNat ≤ high.toNat) := by
  have hne : x.toNat ≠ y.toNat := fun h => hne (UInt8.toNat_inj.1 h)
  split
  · next h =>
    subst h
    simp [UInt8.le_iff_toNat_le]
    omega
  · next h =>
    rw [← UInt8.toNat_inj] at h
    split
    · next h' =>
      subst h'
      simp [UInt8.le_iff_toNat_le]
      omega
    · next h' =>
      rw [← UInt8.toNat_inj] at h'
      simp [isTail_iff, h, h']

theorem isSecondOfThree_iff : isSecondOfThree b b1 = true ↔
    0x80 ≤ b1.toNat ∧ b1.toNat ≤ 0xBF ∧ (b.toNat = 0xE0 → 0xA0 ≤ b1.toNat) ∧
      (b.toNat = 0xED → b1.toNat ≤ 0x9F) :=
  second_iff (by decide) (by decide) (by decide)

theorem isSecondOfFour_iff : isSecondOfFour b b1 = true ↔
    0x80 ≤ b1.toNat ∧ b1.toNat ≤ 0xBF ∧ (b.toNat = 0xF0 → 0x90 ≤ b1.toNat) ∧
      (b.toNat = 0xF4 → b1.toNat ≤ 0x8F) :=
  second_iff (by decide) (by decide) (by decide)

theorem piece_one (h : b.toNat < 0x80) (rest : Bytes) :
    piece b rest = (some (Char.ofNat b.toNat), 0) := by
  have hb : b < 0x80 := UInt8.lt_iff_toNat_lt.2 h
  rw [piece.eq_def, if_pos hb]

theorem piece_two (h : 0xC2 ≤ b.toNat) (h' : b.toNat ≤ 0xDF) (h1 : isTail b1 = true)
    (rest : Bytes) :
    piece b (b1 :: rest) = (some (Char.ofNat (b.toNat % 32 * 64 + tailBits b1)), 1) := by
  have hone : ¬ b < 0x80 := by
    rw [UInt8.lt_iff_toNat_lt]
    exact Nat.not_lt.2 (Nat.le_trans (by decide) h)
  have htwo : (0xC2 ≤ b && b ≤ 0xDF) = true := by
    simp [UInt8.le_iff_toNat_le, h, h']
  rw [piece.eq_def, if_neg hone, if_pos htwo]
  simp only [h1, ↓reduceIte]

theorem piece_three (h : 0xE0 ≤ b.toNat) (h' : b.toNat ≤ 0xEF) (h1 : isSecondOfThree b b1 = true)
    (h2 : isTail b2 = true) (rest : Bytes) :
    piece b (b1 :: b2 :: rest) =
      (some (Char.ofNat ((b.toNat % 16 * 64 + tailBits b1) * 64 + tailBits b2)), 2) := by
  have hone : ¬ b < 0x80 := by
    rw [UInt8.lt_iff_toNat_lt]
    exact Nat.not_lt.2 (Nat.le_trans (by decide) h)
  have htwo : ¬ (0xC2 ≤ b && b ≤ 0xDF) = true := by
    simp [UInt8.le_iff_toNat_le]
    omega
  have hthree : (0xE0 ≤ b && b ≤ 0xEF) = true := by
    simp [UInt8.le_iff_toNat_le, h, h']
  rw [piece.eq_def, if_neg hone, if_neg htwo, if_pos hthree]
  simp only [h1, h2, Bool.not_true, Bool.false_eq_true, ↓reduceIte]

theorem piece_four (h : 0xF0 ≤ b.toNat) (h' : b.toNat ≤ 0xF4) (h1 : isSecondOfFour b b1 = true)
    (h2 : isTail b2 = true) (h3 : isTail b3 = true) (rest : Bytes) :
    piece b (b1 :: b2 :: b3 :: rest) = (some (Char.ofNat
      (((b.toNat % 8 * 64 + tailBits b1) * 64 + tailBits b2) * 64 + tailBits b3)), 3) := by
  have hone : ¬ b < 0x80 := by
    rw [UInt8.lt_iff_toNat_lt]
    exact Nat.not_lt.2 (Nat.le_trans (by decide) h)
  have htwo : ¬ (0xC2 ≤ b && b ≤ 0xDF) = true := by
    simp [UInt8.le_iff_toNat_le]
    omega
  have hthree : ¬ (0xE0 ≤ b && b ≤ 0xEF) = true := by
    simp [UInt8.le_iff_toNat_le]
    omega
  have hfour : (0xF0 ≤ b && b ≤ 0xF4) = true := by
    simp [UInt8.le_iff_toNat_le, h, h']
  rw [piece.eq_def, if_neg hone, if_neg htwo, if_neg hthree, if_pos hfour]
  simp only [h1, h2, h3, Bool.not_true, Bool.false_eq_true, ↓reduceIte]

end Pieces

theorem toNat_ofNat_of_lt {n : Nat} (h : n < 256) : (UInt8.ofNat n).toNat = n := by
  simp [Nat.mod_eq_of_lt h]

theorem tailBits_ofNat {n : Nat} (h : n < 64) : tailBits (UInt8.ofNat (n + 128)) = n := by
  rw [tailBits, toNat_ofNat_of_lt (by omega)]
  omega

theorem isTail_ofNat {n : Nat} (h : n < 64) : isTail (UInt8.ofNat (n + 128)) = true := by
  rw [isTail_iff, toNat_ofNat_of_lt (by omega)]
  omega

/-- The bytes of a character are read as the character, whatever follows. -/
theorem piece_utf8EncodeChar (c : Char) (rest : Bytes) :
    ∃ b tail, String.utf8EncodeChar c = b :: tail ∧
      piece b (tail ++ rest) = (some c, tail.length) := by
  have hvalid : c.val.toNat < 0xD800 ∨ 0xDFFF < c.val.toNat ∧ c.val.toNat < 0x110000 := c.valid
  have hofNat : ∀ n, n = c.val.toNat → Char.ofNat n = c := by
    rintro n rfl
    exact Char.ofNat_toNat c
  unfold String.utf8EncodeChar
  generalize c.val.toNat = v at hvalid hofNat
  have hlow : v % 64 < 64 := Nat.mod_lt _ (by decide)
  have hmiddle : v / 64 % 64 < 64 := Nat.mod_lt _ (by decide)
  have hhigh : v / 4096 % 64 < 64 := Nat.mod_lt _ (by decide)
  simp only
  split
  · next h1 =>
    have hb := toNat_ofNat_of_lt (show v < 256 by omega)
    refine ⟨_, [], rfl, ?_⟩
    rw [piece_one (by omega), hofNat _ hb]
    rfl
  next h1 =>
  split
  · next h2 =>
    have hb := toNat_ofNat_of_lt (show v / 64 % 32 + 192 < 256 by omega)
    refine ⟨_, _, rfl, ?_⟩
    rw [List.cons_append, piece_two (by omega) (by omega) (isTail_ofNat hlow), tailBits_ofNat hlow,
      hofNat _ (by omega)]
    rfl
  next h2 =>
  split
  · next h3 =>
    have hb := toNat_ofNat_of_lt (show v / 4096 % 16 + 224 < 256 by omega)
    have hb1 := toNat_ofNat_of_lt (show v / 64 % 64 + 128 < 256 by omega)
    have hsecond : isSecondOfThree (UInt8.ofNat (v / 4096 % 16 + 224))
        (UInt8.ofNat (v / 64 % 64 + 128)) = true := by
      rw [isSecondOfThree_iff, hb, hb1]
      omega
    refine ⟨_, _, rfl, ?_⟩
    rw [List.cons_append, List.cons_append,
      piece_three (by omega) (by omega) hsecond (isTail_ofNat hlow), tailBits_ofNat hmiddle,
      tailBits_ofNat hlow, hofNat _ (by omega)]
    rfl
  next h3 =>
    have hb := toNat_ofNat_of_lt (show v / 262144 % 8 + 240 < 256 by omega)
    have hb1 := toNat_ofNat_of_lt (show v / 4096 % 64 + 128 < 256 by omega)
    have hsecond : isSecondOfFour (UInt8.ofNat (v / 262144 % 8 + 240))
        (UInt8.ofNat (v / 4096 % 64 + 128)) = true := by
      rw [isSecondOfFour_iff, hb, hb1]
      omega
    refine ⟨_, _, rfl, ?_⟩
    rw [List.cons_append, List.cons_append, List.cons_append,
      piece_four (by omega) (by omega) hsecond (isTail_ofNat hmiddle) (isTail_ofNat hlow),
      tailBits_ofNat hhigh, tailBits_ofNat hmiddle, tailBits_ofNat hlow, hofNat _ (by omega)]
    rfl

/-- A text reads back from its bytes. -/
theorem decode?_ofText (s : String) : decode? (Bytes.ofText s) = some s := by
  have hscan : ∀ (l : List Char) (found : List (Option Char)),
      scanOnto found (l.flatMap String.utf8EncodeChar) = found.reverse ++ l.map some := by
    intro l
    induction l with
    | nil =>
      intro found
      rw [List.flatMap_nil, scanOnto, List.map_nil, List.append_nil]
    | cons c l ih =>
      intro found
      obtain ⟨b, tail, heq, hpiece⟩ := piece_utf8EncodeChar c (l.flatMap String.utf8EncodeChar)
      rw [List.flatMap_cons, heq, List.cons_append, scanOnto, hpiece, List.drop_left, ih]
      simp
  unfold decode? scan Bytes.ofText
  simp [hscan]

end Utf8

end SnapshotKv
