/-!
# Byte strings

Keys, values and file contents are byte strings, compared lexicographically byte by byte with a
proper prefix first. This module adds to the list operations the two that the store needs:

* `Bytes.successor?`: the least byte string above every extension of a prefix, if there is one;
* `Bytes.ofNat` and `Bytes.toNat`: numbers of a fixed width, least significant byte first.

`Bytes.successor?_eq_none_iff` says when a prefix has no successor, and `Bytes.toNat_ofNat` that a
number that fits its width reads back.
-/

namespace SnapshotKv

/-- A finite byte string; its order is the lexicographic one. -/
abbrev Bytes := List UInt8

namespace Bytes

/-- The bytes of a text in UTF-8. -/
def ofText (s : String) : Bytes := s.toList.flatMap String.utf8EncodeChar

/-- The least byte string above every string that starts with the argument. The last byte below
255 is raised by one and everything after it is dropped. -/
def successor? : Bytes → Option Bytes
  | [] => none
  | b :: rest =>
    match successor? rest with
    | some next => some (b :: next)
    | none => if b < 255 then some [b + 1] else none

/-- The low `width` bytes of `n`, least significant first. -/
def ofNat : (width : Nat) → (n : Nat) → Bytes
  | 0, _ => []
  | width + 1, n => UInt8.ofNat n :: ofNat width (n / 256)

/-- The number whose bytes these are, least significant first. -/
def toNat : Bytes → Nat
  | [] => 0
  | b :: rest => b.toNat + 256 * toNat rest

@[simp] theorem length_ofNat (width n : Nat) : (ofNat width n).length = width := by
  induction width generalizing n with
  | zero => rfl
  | succ width ih => simp [ofNat, ih]

theorem toNat_ofNat (width n : Nat) (h : n < Nat.pow 256 width) : (ofNat width n).toNat = n := by
  induction width generalizing n with
  | zero => simp at h; simp [ofNat, toNat, h]
  | succ width ih =>
    have hq : n / 256 < Nat.pow 256 width :=
      Nat.div_lt_of_lt_mul (Nat.mul_comm _ _ ▸ h)
    simp only [ofNat, toNat, ih _ hq]
    have : (UInt8.ofNat n).toNat = n % 256 := by simp
    omega

/-- Only the empty string and strings of bytes 255 have nothing above all their extensions. -/
theorem successor?_eq_none_iff (p : Bytes) : p.successor? = none ↔ ∀ b ∈ p, b = 255 := by
  induction p with
  | nil => simp [successor?]
  | cons b rest ih =>
    simp only [successor?, List.forall_mem_cons]
    cases hs : successor? rest with
    | some next =>
      have : ¬ ∀ x ∈ rest, x = 255 := fun h => by simp [ih.2 h] at hs
      simp [this]
    | none =>
      have hr := ih.1 hs
      by_cases hb : b < 255
      · have : b ≠ 255 := fun e => by subst e; exact absurd hb (by decide)
        simp [hb, this]
      · have : b = 255 := by
          have h1 : ¬ b.toNat < 255 := fun h => hb (UInt8.lt_iff_toNat_lt.2 (by simpa using h))
          have h2 : b.toNat < 256 := b.toNat_lt
          exact UInt8.toNat_inj.1 (by simp; omega)
        simpa [hb, this] using hr

end Bytes

end SnapshotKv
