import SnapshotKv.Proofs.Encodings
import SnapshotKv.Text.Unsigned

/-!
# The format of data files

`DataFile.decode` is total because slices outside a byte string are empty and numbers have no
largest one. A machine has neither: an access past the end stops it, and a sum that leaves the word
wraps. `DataFile.Machine.decode` reads a file with an access and a sum that say when this happens.

Results:
1. `decodeRecords_eq_ok_iff`: a body reads as some records exactly if it is their encodings, so no
   body reads in two ways.
2. `Machine.decode_eq`: on a file whose length is a machine word, whatever is in it, no access is
   outside and no number leaves the word, and what is read is what `decode` reads.
3. `decode_exact`: what is read is exactly what is in the format; everything else is corrupt; and
   what is written is in the format.
-/

namespace SnapshotKv.DataFile

/-! ## 1. Bodies -/

theorem ofNat_toNat (b : Bytes) : Bytes.ofNat b.length (Bytes.toNat b) = b := by
  induction b with
  | nil => rfl
  | cons x rest ih =>
    have hx := x.toNat_lt
    have hlow : UInt8.ofNat (x.toNat + 256 * Bytes.toNat rest) = x := by
      apply UInt8.toNat_inj.1
      rw [UInt8.toNat_ofNat']
      omega
    have hhigh : (x.toNat + 256 * Bytes.toNat rest) / 256 = Bytes.toNat rest := by omega
    rw [List.length_cons, Bytes.toNat, Bytes.ofNat, hlow, hhigh, ih]

section Slices

variable {b : Bytes} {offset width : Nat}

theorem length_slice (h : offset + width ≤ b.length) : (slice b offset width).length = width := by
  rw [slice, List.length_take, List.length_drop]
  omega

/-- The field of a number is written again from the number. -/
theorem ofNat_toNat_slice (h : offset + width ≤ b.length) :
    Bytes.ofNat width (slice b offset width).toNat = slice b offset width := by
  conv_rhs => rw [← ofNat_toNat (slice b offset width), length_slice h]

theorem slice_slice {inner part : Nat} (h : inner + part ≤ width) :
    slice (slice b offset width) inner part = slice b (offset + inner) part := by
  rw [slice, slice, slice, List.drop_take, List.drop_drop, List.take_take]
  congr 1
  omega

theorem drop_slice (n : Nat) : (slice b offset width).drop n = slice b (offset + n) (width - n) := by
  rw [slice, slice, List.drop_take, List.drop_drop]

theorem take_slice {n : Nat} (h : n ≤ width) : (slice b offset width).take n = slice b offset n := by
  rw [slice, slice, List.take_take, Nat.min_eq_left h]

/-- Two slices that meet are one. -/
theorem slice_append {next n : Nat} (h : offset + width = next) :
    slice b offset width ++ slice b next n = slice b offset (width + n) := by
  rw [slice, slice, slice, ← h, ← List.drop_drop, List.take_add]

end Slices

/-- What reads as records that follow the ones found so far is the encodings of these records. -/
theorem of_decodeRecords {found : List Record} {length : Nat} {bytes : Bytes}
    {records : List Record} (h : decodeRecords found length bytes = .ok records)
    (hlength : bytes.length = length) :
    ∃ more, records = found.reverse ++ more ∧ bytes = body more := by
  fun_induction decodeRecords found length bytes with
  | case1 =>
    cases h
    exact ⟨[], (List.append_nil _).symm, List.eq_nil_of_length_eq_zero hlength⟩
  | case2 | case3 => cases h
  | case4 found length bytes hpos hheader keyLength valueLength rest hfit hlt ih =>
    have hbytes : recordHeaderLength ≤ bytes.length := hlength ▸ Nat.not_lt.1 hheader
    have hrest : rest.length = length - recordHeaderLength := by
      rw [List.length_drop, hlength]
    have hkey : (rest.take keyLength).length = keyLength := by
      rw [List.length_take]
      omega
    have hvalue : (slice rest keyLength valueLength).length = valueLength :=
      length_slice (by omega)
    obtain ⟨more, hmore, hbody⟩ := ih h (by rw [List.length_drop, hrest])
    refine ⟨(rest.take keyLength, slice rest keyLength valueLength) :: more, ?_, ?_⟩
    · rw [hmore, List.reverse_cons, List.append_assoc, List.singleton_append]
    · have hpayload : rest = rest.take keyLength ++ (slice rest keyLength valueLength ++ body more) := by
        rw [← hbody, slice, ← List.drop_drop, List.take_append_drop, List.take_append_drop]
      have hlengths : bytes.take recordHeaderLength =
          Bytes.ofNat 4 keyLength ++ Bytes.ofNat 4 valueLength := by
        rw [ofNat_toNat_slice (Nat.le_trans (by decide) hbytes),
          ofNat_toNat_slice (Nat.le_trans (by decide) hbytes)]
        show slice bytes 0 (4 + 4) = _
        exact (slice_append rfl).symm
      calc bytes
          = bytes.take recordHeaderLength ++ rest := (List.take_append_drop _ _).symm
        _ = Bytes.ofNat 4 keyLength ++ Bytes.ofNat 4 valueLength ++
              (rest.take keyLength ++ (slice rest keyLength valueLength ++ body more)) := by
          rw [hlengths, ← hpayload]
        _ = encodeRecord (rest.take keyLength, slice rest keyLength valueLength) ++ body more := by
          rw [encodeRecord, hkey, hvalue]
          simp only [List.append_assoc]
        _ = body ((rest.take keyLength, slice rest keyLength valueLength) :: more) := rfl

/-- A body reads as some records exactly if their lengths fit and it is their encodings. -/
theorem decodeRecords_eq_ok_iff {bytes : Bytes} {records : List Record} :
    decodeRecords [] bytes.length bytes = .ok records ↔
      (∀ r ∈ records, Fits r) ∧ bytes = body records := by
  constructor
  · intro h
    obtain ⟨more, rfl, hbody⟩ := of_decodeRecords h rfl
    exact ⟨fits_of_decodeRecords h (fun _ hr => nomatch hr), hbody⟩
  · intro ⟨hfits, hbody⟩
    subst hbody
    exact decodeRecords_body [] hfits

/-! ## 2. Reading on a machine -/

namespace Machine

/-- Reading that ends in a result or in a fault, unless the machine stops it. -/
abbrev Reading (α : Type) := ExceptT Fault Option α

/-- What the machine stops. -/
def stopped {α : Type} : Reading α := ExceptT.mk none

/-- A sum that must be a machine word. -/
def add (x y : Nat) : Reading {sum // sum = x + y} :=
  if x + y < Unsigned.limit then pure ⟨x + y, rfl⟩ else stopped

/-- A difference that must not be below zero. -/
def sub (x y : Nat) : Reading Nat := if y ≤ x then pure (x - y) else stopped

/-- The byte at a place that must be in a byte string. -/
def byte (b : Bytes) (place : Nat) : Reading UInt8 :=
  if h : place < b.length then pure (b.get ⟨place, h⟩) else stopped

/-- The bytes from a place up to another, both of which must be in a byte string. -/
def range (b : Bytes) (start stop : Nat) : Reading Bytes :=
  if start ≤ stop ∧ stop ≤ b.length then pure (slice b start (stop - start)) else stopped

/-- The parts of a byte string before and behind a place that must be in it. -/
def split (b : Bytes) (place : Nat) : Reading (Bytes × Bytes) :=
  if place ≤ b.length then pure (b.take place, b.drop place) else stopped

/-- The number of some width at an offset. -/
def number (b : Bytes) (offset width : Nat) : Reading Nat := do
  let ⟨stop, _⟩ ← add offset width
  let digits ← range b offset stop
  pure digits.toNat

/-- Whether two lengths fit between two places. The sum of the lengths may leave the word, and then
they do not. -/
def fit (first second start stop : Nat) : Reading Bool :=
  if Unsigned.limit ≤ first + second then pure false
  else do
    let left ← sub stop start
    pure (decide (first + second ≤ left))

/-- The records between two places in a file, after those found so far. -/
def records (file : Bytes) (found : List Record) (offset stop : Nat) : Reading (List Record) :=
  if h : offset < stop then do
    let ⟨headed, hheaded⟩ ← add offset recordHeaderLength
    if stop < headed then throw (Fault.corrupt "truncated record header")
    let keyLength ← number file offset 4
    let ⟨middle, _⟩ ← add offset 4
    let valueLength ← number file middle 4
    if !(← fit keyLength valueLength headed stop) then throw (Fault.corrupt "truncated record")
    let ⟨keyed, hkeyed⟩ ← add headed keyLength
    let key ← range file headed keyed
    let ⟨next, hnext⟩ ← add keyed valueLength
    let value ← range file keyed next
    have : stop - next < stop - offset :=
      Nat.sub_lt_sub_left h (by rw [hnext, hkeyed, hheaded, recordHeaderLength]; omega)
    records file ((key, value) :: found) next stop
  else pure found.reverse
termination_by stop - offset

/-- The prefix length and the records of a data file. -/
def decode (file : Bytes) : Reading (Nat × List Record) := do
  let size := file.length
  if size < headerLength + trailerLength then throw (Fault.corrupt "data file too small")
  if (← range file 0 4) ≠ mark then throw (Fault.corrupt "bad magic")
  if (← number file 4 4) ≠ version then throw (Fault.corrupt "unsupported version")
  if (← byte file 8) ≠ byteOrder then throw (Fault.corrupt "unsupported endianness")
  let prefixLength ← byte file 9
  let count ← number file 16 8
  let bodyLength ← sub (← sub size headerLength) trailerLength
  if (← number file 24 8) ≠ bodyLength then throw (Fault.corrupt "length mismatch")
  let ⟨stop, _⟩ ← add headerLength bodyLength
  let (content, trailer) ← split file stop
  if Sha256.digest content ≠ trailer then throw (Fault.corrupt "checksum mismatch")
  let found ← records file [] headerLength stop
  if found.length ≠ count then throw (Fault.corrupt "record count mismatch")
  pure (prefixLength.toNat, found)

section Steps

variable {b : Bytes} {x y start stop place offset width : Nat}

theorem add_eq (h : x + y < Unsigned.limit) : add x y = pure ⟨x + y, rfl⟩ := if_pos h

theorem sub_eq (h : y ≤ x) : sub x y = pure (x - y) := if_pos h

theorem range_eq (h : start ≤ stop) (h' : stop ≤ b.length) :
    range b start stop = pure (slice b start (stop - start)) := if_pos ⟨h, h'⟩

theorem split_eq (h : place ≤ b.length) : split b place = pure (b.take place, b.drop place) :=
  if_pos h

theorem number_eq (h : offset + width ≤ b.length) (hb : b.length < Unsigned.limit) :
    number b offset width = pure (slice b offset width).toNat := by
  simp only [number, add_eq (Nat.lt_of_le_of_lt h hb), pure_bind,
    range_eq (Nat.le_add_right _ _) h, Nat.add_sub_cancel_left]

/-- Two lengths of four bytes each have a sum that is a machine word. -/
theorem fit_eq (hx : x < 256 ^ 4) (hy : y < 256 ^ 4) (h : start ≤ stop) :
    fit x y start stop = pure (decide (x + y ≤ stop - start)) := by
  have hword : 256 ^ 4 + 256 ^ 4 < Unsigned.limit := by decide
  rw [fit, if_neg (by omega), sub_eq h, pure_bind]

end Steps

/-- Between two places of a file whose length is a machine word the reading is not stopped. -/
theorem records_eq {file : Bytes} (found : List Record) {offset stop : Nat} (h : offset ≤ stop)
    (hstop : stop + trailerLength ≤ file.length) (hsize : file.length < Unsigned.limit) :
    records file found offset stop =
      ExceptT.mk (some (decodeRecords found (stop - offset) (slice file offset (stop - offset)))) := by
  induction hleft : stop - offset using Nat.strongRecOn generalizing found offset with
  | ind left ih =>
  subst hleft
  have htrailer : trailerLength = 32 := rfl
  have hheader : recordHeaderLength = 8 := rfl
  by_cases hend : offset < stop
  · rw [records, dif_pos hend, decodeRecords, if_neg (by omega), add_eq (by omega)]
    simp only [pure_bind]
    by_cases hheaded : stop < offset + recordHeaderLength
    · rw [dif_pos (by omega), if_pos hheaded]
      rfl
    · have hkey : slice (slice file offset (stop - offset)) 0 4 = slice file offset 4 :=
        slice_slice (by omega)
      have hvalue : slice (slice file offset (stop - offset)) 4 4 = slice file (offset + 4) 4 :=
        slice_slice (by omega)
      rw [dif_neg (by omega), if_neg hheaded, number_eq (by omega) hsize, add_eq (by omega)]
      simp only [pure_bind]
      rw [number_eq (by omega) hsize, pure_bind,
        fit_eq (toNat_slice_lt _ _ 4) (toNat_slice_lt _ _ 4) (by omega), pure_bind]
      simp only [hkey, hvalue, drop_slice, Nat.sub_sub]
      generalize (slice file offset 4).toNat = keyLength
      generalize (slice file (offset + 4) 4).toNat = valueLength
      -- the lengths were read, and what they count starts here
      generalize hstart : offset + recordHeaderLength = start at hheaded
      by_cases hfit : stop - start < keyLength + valueLength
      · rw [if_pos (by simpa using hfit), if_pos hfit]
        rfl
      · rw [if_neg (by simpa using hfit), if_neg hfit, add_eq (by omega)]
        simp only [pure_bind]
        rw [range_eq (by omega) (by omega), add_eq (by omega)]
        simp only [pure_bind]
        rw [range_eq (by omega) (by omega), pure_bind, take_slice (by omega),
          slice_slice (by omega), ih _ (by omega) _ (by omega) rfl]
        simp only [Nat.add_sub_cancel_left, Nat.add_assoc, Nat.add_sub_add_left]
  · rw [records, dif_neg hend, decodeRecords, if_pos (by omega)]
    rfl

section Checks

variable {α β : Type} {f : Fault} {c c' : Prop} [Decidable c] [Decidable c']

/-- A check that both readings make, after which both go on in the same way. -/
theorem guard_eq {g : β → Reading α} {k : Reading α} {g' : β → Except Fault α}
    {k' : Except Fault α} (hc : c ↔ c') (hk : ¬ c → k = ExceptT.mk (some k')) :
    (if c then throw f >>= g else k) = ExceptT.mk (some (if c' then throw f >>= g' else k')) := by
  by_cases h : c
  · rw [if_pos h, if_pos (hc.1 h)]
    rfl
  · rw [if_neg h, if_neg (fun h' => h (hc.2 h')), hk h]

theorem bind_eq {x : Except Fault β} {k : β → Reading α} {k' : β → Except Fault α}
    (hk : ∀ b, k b = ExceptT.mk (some (k' b))) :
    (ExceptT.mk (some x) >>= k) = ExceptT.mk (some (x >>= k')) := by
  cases x with
  | error f => rfl
  | ok b => exact hk b

end Checks

theorem byte_eq (b : Bytes) {place : Nat} (h : place < b.length) :
    ∃ x, byte b place = pure x ∧ slice b place 1 = [x] := by
  refine ⟨_, dif_pos h, ?_⟩
  rw [slice, List.drop_eq_getElem_cons h]
  rfl

/-- A file whose length is a machine word is read without a stop, and as `DataFile.decode` does. -/
theorem decode_eq {file : Bytes} (hsize : file.length < Unsigned.limit) :
    decode file = ExceptT.mk (some (DataFile.decode file)) := by
  have hheader : headerLength = 32 := rfl
  have htrailer : trailerLength = 32 := rfl
  unfold decode DataFile.decode
  refine guard_eq Iff.rfl fun hsmall => ?_
  obtain ⟨order, horder, horder'⟩ := byte_eq file (show 8 < file.length by omega)
  obtain ⟨shape, hshape, hshape'⟩ := byte_eq file (show 9 < file.length by omega)
  rw [range_eq (Nat.zero_le _) (by omega), pure_bind]
  refine guard_eq Iff.rfl fun _ => ?_
  rw [number_eq (by omega) hsize, pure_bind]
  refine guard_eq Iff.rfl fun _ => ?_
  rw [horder, pure_bind]
  refine guard_eq (by rw [horder']; simp) fun _ => ?_
  rw [hshape, pure_bind, number_eq (by omega) hsize, pure_bind, sub_eq (by omega), pure_bind,
    sub_eq (by omega), pure_bind, number_eq (by omega) hsize, pure_bind]
  refine guard_eq Iff.rfl fun _ => ?_
  rw [add_eq (by omega)]
  simp only [pure_bind]
  rw [split_eq (by omega), pure_bind]
  refine guard_eq Iff.rfl fun _ => ?_
  rw [records_eq [] (by omega) (by omega) hsize, Nat.add_sub_cancel_left, List.drop_take,
    Nat.add_sub_cancel_left]
  refine bind_eq fun found => guard_eq Iff.rfl fun _ => ?_
  rw [hshape']
  rfl

end Machine

/-! ## 3. The format -/

/-- A file in the format: a header that says the prefix length, the number of the records and the
length of their encodings, whatever its free bytes are; the encodings; the digest of all that. -/
def InFormat (file : Bytes) (prefixLength : Nat) (records : List Record) : Prop :=
  prefixLength < 256 ∧ (∀ r ∈ records, Fits r) ∧ (body records).length < 256 ^ 8 ∧
    ∃ free, free.length = 6 ∧ file = withDigest (content free prefixLength records)

/-- What is accepted is in the format. -/
theorem Accepted.inFormat {file : Bytes} {prefixLength : Nat} {records : List Record}
    (h : Accepted file prefixLength records) : InFormat file prefixLength records := by
  obtain ⟨hsized, hmarked, hversioned, hordered, hmeasured, hdigested, hparsed, hcounted, hshaped⟩ :=
    h
  have hheader : headerLength = 32 := rfl
  have htrailer : trailerLength = 32 := rfl
  generalize hlength : file.length - headerLength - trailerLength = length at *
  rw [List.drop_take, Nat.add_sub_cancel_left] at hparsed
  have hwidth : (slice file headerLength length).length = length := length_slice (by omega)
  have hbody : (∀ r ∈ records, Fits r) ∧ slice file headerLength length = body records := by
    rw [← decodeRecords_eq_ok_iff, hwidth]
    exact hparsed
  have hcount : (body records).length = length := by rw [← hbody.2, hwidth]
  have hhead : headerWith (slice file 10 6) prefixLength records.length (body records).length =
      slice file 0 headerLength := by
    have hversion : Bytes.ofNat 4 version = slice file 4 4 := by
      rw [← hversioned, ofNat_toNat_slice (by omega)]
    have hshape : [UInt8.ofNat prefixLength] = slice file 9 1 := by
      rw [← hshaped]
      exact ofNat_toNat_slice (show 9 + 1 ≤ file.length by omega)
    rw [headerWith, hcount, ← hmeasured, hcounted, hversion, ofNat_toNat_slice (by omega),
      ofNat_toNat_slice (by omega), ← hmarked, ← List.singleton_append, ← hordered, hshape]
    simp only [slice_append, Nat.reduceAdd, headerLength]
  refine ⟨?_, hbody.1, ?_, slice file 10 6, length_slice (by omega), ?_⟩
  · rw [← hshaped]
    exact toNat_slice_lt file 9 1
  · rw [hcount, ← hmeasured]
    exact toNat_slice_lt file 24 8
  · have hlead : slice file 0 (headerLength + length) = file.take (headerLength + length) := rfl
    rw [withDigest, content, hhead, ← hbody.2, slice_append (Nat.zero_add _), hlead, hdigested,
      List.take_append_drop]

theorem corrupt_of_guard {α β : Type} {e f : Fault} {c : Prop} [Decidable c]
    {g : β → Except Fault α} {k : Except Fault α}
    (h : (if c then throw f >>= g else k) = .error e) (hf : f.kind = .corrupt)
    (hk : k = .error e → e.kind = .corrupt) : e.kind = .corrupt := by
  split at h
  · cases h
    exact hf
  · exact hk h

theorem corrupt_of_decodeRecords {found : List Record} {length : Nat} {bytes : Bytes} {e : Fault}
    (h : decodeRecords found length bytes = .error e) : e.kind = .corrupt := by
  fun_induction decodeRecords found length bytes with
  | case1 => cases h
  | case2 | case3 =>
    cases h
    rfl
  | case4 found length bytes hpos hheader keyLength valueLength rest hfit hlt ih => exact ih h

/-- Every fault in a file is that it is corrupt. -/
theorem corrupt_of_decode {file : Bytes} {e : Fault} (h : decode file = .error e) :
    e.kind = .corrupt := by
  unfold decode at h
  refine corrupt_of_guard h rfl fun h => corrupt_of_guard h rfl fun h => corrupt_of_guard h rfl
    fun h => corrupt_of_guard h rfl fun h => corrupt_of_guard h rfl fun h => corrupt_of_guard h rfl
    fun h => ?_
  cases hparsed : decodeRecords [] (file.length - headerLength - trailerLength)
      ((file.take (headerLength + (file.length - headerLength - trailerLength))).drop headerLength)
      with
  | error f =>
    rw [hparsed] at h
    cases h
    exact corrupt_of_decodeRecords hparsed
  | ok records =>
    rw [hparsed] at h
    exact corrupt_of_guard h rfl nofun

theorem length_encode (prefixLength : Nat) (records : List Record) :
    (encode prefixLength records).length = headerLength + (body records).length + trailerLength := by
  rw [encode_eq, withDigest, List.length_append, length_content List.length_replicate,
    Sha256.length_digest]
  rfl

/-- **A file reads as what it was written from, and nothing else reads.** Whatever bytes a file
consists of, its reading yields a prefix length and records exactly if it is in the format with
them, and finds it corrupt otherwise; a machine reads it without an access outside the file and
without a number that leaves its word; and a file that was written reads as the prefix length and
the records it was written from, in their order. -/
theorem decode_exact (file : Bytes) :
    (∀ prefixLength records,
      decode file = .ok (prefixLength, records) ↔ InFormat file prefixLength records) ∧
    ((∀ prefixLength records, ¬ InFormat file prefixLength records) →
      ∃ fault, decode file = .error fault ∧ fault.kind = .corrupt) ∧
    (file.length < Unsigned.limit → Machine.decode file = ExceptT.mk (some (decode file))) ∧
    ∀ prefixLength records, file = encode prefixLength records → file.length < Unsigned.limit →
      prefixLength < 256 → (∀ r ∈ records, Fits r) → decode file = .ok (prefixLength, records) := by
  have hexact : ∀ prefixLength records,
      decode file = .ok (prefixLength, records) ↔ InFormat file prefixLength records := by
    intro prefixLength records
    refine ⟨fun h => (decode_eq_ok_iff.1 h).inFormat, ?_⟩
    rintro ⟨hlen, hfits, hlength, free, hfree, rfl⟩
    exact decode_withDigest hfree hlen hfits hlength
  refine ⟨hexact, fun h => ?_, Machine.decode_eq, ?_⟩
  · cases hread : decode file with
    | error fault => exact ⟨fault, rfl, corrupt_of_decode hread⟩
    | ok found => exact absurd ((hexact found.1 found.2).1 hread) (h _ _)
  · rintro prefixLength records rfl hsize hlen hfits
    rw [length_encode] at hsize
    refine decode_encode hlen hfits (Nat.lt_of_le_of_lt ?_ hsize)
    omega

/-- A file of one record is read on a machine, and the empty file is corrupt. -/
theorem decode_exact_one_record :
    Machine.decode (encode 1 [([97], [98])]) = ExceptT.mk (some (.ok (1, [([97], [98])]))) ∧
      InFormat (encode 1 [([97], [98])]) 1 [([97], [98])] ∧
      ∃ fault, decode [] = .error fault ∧ fault.kind = .corrupt := by
  obtain ⟨hexact, -, hmachine, hwritten⟩ := decode_exact (encode 1 [([97], [98])])
  have hsize : (encode 1 [([97], [98])]).length < Unsigned.limit := by
    rw [length_encode]
    decide
  have hread : decode (encode 1 [([97], [98])]) = .ok (1, [([97], [98])]) :=
    hwritten 1 [([97], [98])] rfl hsize (by decide) (by simp [Fits])
  refine ⟨hread ▸ hmachine hsize, (hexact _ _).1 hread, (decode_exact []).2.1 ?_⟩
  rintro prefixLength records ⟨-, -, -, free, hfree, hfile⟩
  have hlength := congrArg List.length hfile
  rw [withDigest, List.length_append, length_content hfree] at hlength
  simp [headerLength] at hlength

end SnapshotKv.DataFile
