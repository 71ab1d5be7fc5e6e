import SnapshotKv.VersionTree

/-!
# Prefixes as key ranges

The keys that start with a prefix are a range of the key order: from the prefix itself to its
successor, or without upper end when it has none.

Results:
1. `PrefixLemmas.isPrefixOf_iff`: membership in the range, said with the order alone.
2. `between_prefixEnd`: the bounds that a scan of a prefix uses admit exactly its keys, and
   `inOrder_prefixEnd`: they are in order.
-/

namespace SnapshotKv

namespace PrefixLemmas

theorem cons_lt_cons {a b : UInt8} {l m : Bytes} :
    (a :: l : Bytes) < b :: m ↔ a < b ∨ a = b ∧ l < m :=
  List.cons_lt_cons_iff

theorem byte_lt_succ {a b : UInt8} (hb : b < 255) : a < b + 1 ↔ a < b ∨ a = b := by
  have hb' : b.toNat < 255 := by simpa [UInt8.lt_iff_toNat_lt] using hb
  have hs : (b + 1).toNat = b.toNat + 1 := by
    rw [UInt8.toNat_add]
    simp
    omega
  rw [UInt8.lt_iff_toNat_lt, UInt8.lt_iff_toNat_lt, ← UInt8.toNat_inj, hs]
  omega

theorem byte_eq_of_not_lt {a b : UInt8} (h : ¬ a < b) (hb : ¬ b < 255) : a = b := by
  have h1 : ¬ a.toNat < b.toNat := fun hn => h (UInt8.lt_iff_toNat_lt.2 hn)
  have h2 : ¬ b.toNat < 255 := fun hn => hb (UInt8.lt_iff_toNat_lt.2 (by simpa using hn))
  have h3 := a.toNat_lt
  exact UInt8.toNat_inj.1 (by omega)

theorem byte_lt_irrefl (a : UInt8) : ¬ a < a := fun h =>
  Nat.lt_irrefl _ (UInt8.lt_iff_toNat_lt.1 h)

/-- Nothing that starts with a prefix lies below it, and what lies neither below it nor at or above
its successor starts with it. -/
theorem isPrefixOf_iff (p k : Bytes) :
    p.isPrefixOf k = true ↔ ¬ k < p ∧ ∀ next, p.successor? = some next → k < next := by
  induction p generalizing k with
  | nil => simp [Bytes.successor?]
  | cons b rest ih =>
    cases k with
    | nil =>
      have : ([] : Bytes) < b :: rest := List.nil_lt_cons b rest
      simp [this]
    | cons c k =>
      simp only [List.isPrefixOf_cons_cons, Bool.and_eq_true, beq_iff_eq, ih k, cons_lt_cons,
        Bytes.successor?]
      cases hs : Bytes.successor? rest with
      | some next =>
        constructor
        · rintro ⟨rfl, hlt, hnext⟩
          refine ⟨?_, ?_⟩
          · rintro (h | ⟨-, h⟩)
            · exact byte_lt_irrefl _ h
            · exact hlt h
          · intro x hx
            cases hx
            exact cons_lt_cons.2 (.inr ⟨rfl, hnext _ rfl⟩)
        · rintro ⟨hlt, hnext⟩
          rcases cons_lt_cons.1 (hnext _ rfl) with h | ⟨rfl, h⟩
          · exact absurd (.inl h) hlt
          · exact ⟨rfl, fun h' => hlt (.inr ⟨rfl, h'⟩), fun x hx => by cases hx; exact h⟩
      | none =>
        by_cases hb : b < 255
        · simp only [hb, ↓reduceIte, Option.some.injEq, forall_eq']
          have hone : (c :: k : Bytes) < [b + 1] ↔ c < b ∨ c = b := by
            rw [cons_lt_cons, byte_lt_succ hb]
            simp
          rw [hone]
          constructor
          · rintro ⟨rfl, hlt, -⟩
            refine ⟨?_, .inr rfl⟩
            rintro (h | ⟨-, h⟩)
            · exact byte_lt_irrefl _ h
            · exact hlt h
          · rintro ⟨hlt, h | rfl⟩
            · exact absurd (.inl h) hlt
            · exact ⟨rfl, fun h => hlt (.inr ⟨rfl, h⟩), by simp⟩
        · simp only [hb, ↓reduceIte]
          constructor
          · rintro ⟨rfl, hlt, -⟩
            refine ⟨?_, by simp⟩
            rintro (h | ⟨-, h⟩)
            · exact byte_lt_irrefl _ h
            · exact hlt h
          · rintro ⟨hlt, -⟩
            have hcb : c = b := byte_eq_of_not_lt (fun h => hlt (.inl h)) hb
            subst hcb
            exact ⟨rfl, fun h => hlt (.inr ⟨rfl, h⟩), by simp⟩

end PrefixLemmas

open PrefixLemmas

/-- The range of a prefix admits exactly the keys that start with it. -/
theorem between_prefixEnd (p k : Bytes) :
    (Bound.included p).between (VersionTree.prefixEnd p) k = p.isPrefixOf k := by
  rw [Bool.eq_iff_iff, isPrefixOf_iff]
  unfold Bound.between VersionTree.prefixEnd
  cases hs : p.successor? with
  | none => simp [Bound.allowsAbove, Bound.allowsBelow]
  | some next => simp [Bound.allowsAbove, Bound.allowsBelow]

/-- The range of a prefix can be asked for. -/
theorem inOrder_prefixEnd (p : Bytes) :
    (Bound.included p).inOrder (VersionTree.prefixEnd p) = true := by
  have hp : p.isPrefixOf p = true := by simp
  unfold VersionTree.prefixEnd
  cases hs : p.successor? with
  | none => rfl
  | some next =>
    have hlt : p < next := (isPrefixOf_iff p p).1 hp |>.2 next hs
    have hnot : ¬ next < p := fun h => KeyOrder.irrefl p (KeyOrder.trans _ _ _ hlt h)
    simp [Bound.inOrder, hnot]

end SnapshotKv
