import SnapshotKv.Bytes

/-!
# Orders on keys

A `KeyOrder` says that `<` puts any two different keys in a definite order. Numbers, texts, byte
strings and lists of texts are ordered so; lists compare lexicographically, with a proper prefix
first.
-/

namespace SnapshotKv

/-- A strict order in which any two different keys can be compared. -/
class KeyOrder (κ : Type) [LT κ] : Prop where
  irrefl : ∀ a : κ, ¬ a < a
  trans : ∀ a b c : κ, a < b → b < c → a < c
  connected : ∀ a b : κ, a < b ∨ a = b ∨ b < a

/-- What is not below a key is the key itself or above it. -/
theorem KeyOrder.not_lt_iff {κ : Type} [LT κ] [KeyOrder κ] {a b : κ} : ¬ a < b ↔ b = a ∨ b < a := by
  constructor
  · intro h
    rcases KeyOrder.connected a b with hlt | heq | hgt
    · exact absurd hlt h
    · exact .inl heq.symm
    · exact .inr hgt
  · rintro (rfl | hgt) hlt
    · exact KeyOrder.irrefl _ hlt
    · exact KeyOrder.irrefl _ (KeyOrder.trans _ _ _ hlt hgt)

instance : KeyOrder Nat :=
  ⟨fun _ => Nat.lt_irrefl _, fun _ _ _ => Nat.lt_trans, Nat.lt_trichotomy⟩

instance : KeyOrder String :=
  ⟨fun _ => Std.lt_irrefl, fun _ _ _ => Std.lt_trans, fun _ _ => Std.lt_trichotomy _ _⟩

instance : KeyOrder Bytes :=
  ⟨fun _ => Std.lt_irrefl, fun _ _ _ => Std.lt_trans, fun _ _ => Std.lt_trichotomy _ _⟩

instance : KeyOrder (List String) :=
  ⟨fun _ => Std.lt_irrefl, fun _ _ _ => Std.lt_trans, fun _ _ => Std.lt_trichotomy _ _⟩

end SnapshotKv
