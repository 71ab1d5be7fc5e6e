import SnapshotKv.Proofs.Calls

/-!
# Claims

A change is written only under a claim on all that it covers. Claims of different owners never
overlap, so two changes that are claimed by different owners cover no common key.

Results:
1. `holds_claim`, `Holds.claim`, `Holds.release`: a claim that is granted is held until its owner
   gives it up; `Holds.of_claim`, `Holds.of_release`: nothing else is held.
2. `Exclusive.claim`, `Exclusive.release`: claims stay exclusive.
3. `Exclusive.owner_eq`: the changes of different owners are disjoint; `Exclusive.refused_iff`: a claim
   is refused exactly when another owner is in its way.
4. `granted_on`: whether a claim is granted depends on the claims on the same store alone.
-/

namespace SnapshotKv.LockTable

/-- An owner holds the claim that a change needs. -/
def Holds (t : LockTable) (store : Nat) (c : Change) (owner : Nat) : Prop :=
  match c with
  | .put key _ | .delete key => ⟨store, key, owner⟩ ∈ t.keys
  | .deletePrefix stem => ⟨store, stem, owner⟩ ∈ t.prefixes

/-- Claims that cover a common key have one owner. -/
structure Exclusive (t : LockTable) : Prop where
  keys : ∀ l ∈ t.keys, ∀ l' ∈ t.keys, l.store = l'.store → l.key = l'.key → l.owner = l'.owner
  mixed : ∀ l ∈ t.keys, ∀ l' ∈ t.prefixes,
    l.store = l'.store → l'.key.isPrefixOf l.key = true → l.owner = l'.owner
  prefixes : ∀ l ∈ t.prefixes, ∀ l' ∈ t.prefixes,
    l.store = l'.store → l.key.comparable l'.key = true → l.owner = l'.owner

theorem exclusive_empty : Exclusive {} :=
  ⟨fun _ h => absurd h List.not_mem_nil, fun _ h => absurd h List.not_mem_nil,
    fun _ h => absurd h List.not_mem_nil⟩

/-! ## 1. Single claims -/

theorem lockKey_eq (t : LockTable) (store : Nat) (key : Bytes) (owner : Nat) :
    (t.lockKey store key owner).2 = t ∨
      t.prefixTaken store key owner = false ∧ t.keyOwner? store key = none ∧
        (t.lockKey store key owner).2 = { t with keys := t.keys ++ [⟨store, key, owner⟩] } := by
  unfold lockKey
  split
  · exact .inl rfl
  · next hp =>
    split
    · exact .inl rfl
    · next hk => exact .inr ⟨Bool.eq_false_iff.2 hp, hk, rfl⟩

theorem mem_keys_of_keyOwner? {t : LockTable} {store : Nat} {key : Bytes} {owner : Nat}
    (h : t.keyOwner? store key = some owner) : ⟨store, key, owner⟩ ∈ t.keys := by
  obtain ⟨l, hl, rfl⟩ := Option.map_eq_some_iff.1 h
  have hp := List.find?_some hl
  simp only [Bool.and_eq_true, beq_iff_eq] at hp
  obtain ⟨rfl, rfl⟩ := hp
  exact List.mem_of_find?_eq_some hl

theorem mem_keys_lockKey {t : LockTable} {store : Nat} {key : Bytes} {owner : Nat}
    (h : (t.lockKey store key owner).1 = true) :
    ⟨store, key, owner⟩ ∈ (t.lockKey store key owner).2.keys := by
  simp only [lockKey] at h ⊢
  split at h
  · cases h
  · next hp =>
    rw [if_neg hp]
    cases hk : t.keyOwner? store key with
    | none => exact List.mem_append_right _ (List.mem_singleton_self _)
    | some holder =>
      rw [hk] at h
      simp only [beq_iff_eq] at h
      subst h
      exact mem_keys_of_keyOwner? hk

theorem mem_prefixes_lockPrefix {t : LockTable} {store : Nat} {stem : Bytes} {owner : Nat}
    (h : (t.lockPrefix store stem owner).1 = true) :
    ⟨store, stem, owner⟩ ∈ (t.lockPrefix store stem owner).2.prefixes := by
  simp only [lockPrefix] at h ⊢
  split at h
  · cases h
  · next hp =>
    rw [if_neg hp]
    exact List.mem_append_right _ (List.mem_singleton_self _)

/-- A claim that is granted is held. -/
theorem holds_claim {t : LockTable} {store : Nat} {c : Change} {owner : Nat}
    (h : (c.claim store t owner).1 = true) : (c.claim store t owner).2.Holds store c owner := by
  cases c with
  | put key value | delete key => exact mem_keys_lockKey h
  | deletePrefix stem => exact mem_prefixes_lockPrefix h

theorem subset_claim (t : LockTable) (store : Nat) (c : Change) (owner : Nat) :
    (∀ l ∈ t.keys, l ∈ (c.claim store t owner).2.keys) ∧
      ∀ l ∈ t.prefixes, l ∈ (c.claim store t owner).2.prefixes := by
  have hkey : ∀ key, (∀ l ∈ t.keys, l ∈ (t.lockKey store key owner).2.keys) ∧
      ∀ l ∈ t.prefixes, l ∈ (t.lockKey store key owner).2.prefixes := by
    intro key
    rcases lockKey_eq t store key owner with h | ⟨-, -, h⟩ <;> rw [h]
    · exact ⟨fun _ hl => hl, fun _ hl => hl⟩
    · exact ⟨fun _ hl => List.mem_append_left _ hl, fun _ hl => hl⟩
  cases c with
  | put key value | delete key => exact hkey key
  | deletePrefix stem =>
    simp only [Change.claim, lockPrefix]
    split
    · exact ⟨fun _ hl => hl, fun _ hl => hl⟩
    · exact ⟨fun _ hl => hl, fun _ hl => List.mem_append_left _ hl⟩

/-- A claim stays held while others are made. -/
theorem Holds.claim {t : LockTable} {store store' : Nat} {c c' : Change} {owner owner' : Nat}
    (h : t.Holds store c owner) : (c'.claim store' t owner').2.Holds store c owner := by
  have hsub := subset_claim t store' c' owner'
  cases c with
  | put key value | delete key => exact hsub.1 _ h
  | deletePrefix stem => exact hsub.2 _ h

/-- A claim stays held when another owner gives up its own. -/
theorem Holds.release {t : LockTable} {store : Nat} {c : Change} {owner owner' : Nat}
    (h : t.Holds store c owner) (hne : owner ≠ owner') :
    (t.release owner').Holds store c owner := by
  cases c with
  | put key value | delete key | deletePrefix stem =>
    exact List.mem_filter.2 ⟨h, bne_iff_ne.2 hne⟩

/-- What is held after a claim was held before, or is what was claimed. -/
theorem Holds.of_claim {t : LockTable} {store store' : Nat} {c c' : Change} {owner owner' : Nat}
    (h : (c'.claim store' t owner').2.Holds store c owner) :
    t.Holds store c owner ∨ store = store' ∧ owner = owner' ∧ c.covers = c'.covers := by
  have hkey : ∀ key k, ⟨store, k, owner⟩ ∈ (t.lockKey store' key owner').2.keys →
      ⟨store, k, owner⟩ ∈ t.keys ∨ store = store' ∧ owner = owner' ∧ k = key := by
    intro key k hk
    rcases lockKey_eq t store' key owner' with heq | ⟨-, -, heq⟩
    · exact .inl (heq ▸ hk)
    · rw [heq] at hk
      rcases List.mem_append.1 hk with hk | hk
      · exact .inl hk
      · cases List.mem_singleton.1 hk
        exact .inr ⟨rfl, rfl, rfl⟩
  have hstem : ∀ key stem, ⟨store, stem, owner⟩ ∈ (t.lockKey store' key owner').2.prefixes →
      ⟨store, stem, owner⟩ ∈ t.prefixes := by
    intro key stem hs
    rcases lockKey_eq t store' key owner' with heq | ⟨-, -, heq⟩ <;> rw [heq] at hs <;> exact hs
  cases c' with
  | put key value | delete key =>
    cases c with
    | put k value' | delete k =>
      rcases hkey key k h with h | ⟨hs, ho, rfl⟩
      · exact .inl h
      · exact .inr ⟨hs, ho, rfl⟩
    | deletePrefix stem => exact .inl (hstem key stem h)
  | deletePrefix stem =>
    simp only [Change.claim, lockPrefix] at h
    split at h
    · exact .inl h
    · cases c with
      | put k value' | delete k => exact .inl h
      | deletePrefix stem' =>
        rcases List.mem_append.1 h with h | h
        · exact .inl h
        · cases List.mem_singleton.1 h
          exact .inr ⟨rfl, rfl, rfl⟩

/-- What is held after an owner gave up its claims was held before by another one. -/
theorem Holds.of_release {t : LockTable} {store : Nat} {c : Change} {owner owner' : Nat}
    (h : (t.release owner').Holds store c owner) : t.Holds store c owner ∧ owner ≠ owner' := by
  cases c with
  | put key value | delete key | deletePrefix stem =>
    obtain ⟨h, hne⟩ := List.mem_filter.1 h
    exact ⟨h, bne_iff_ne.1 hne⟩

/-! ## 2. Exclusive claims -/

theorem exclusive_lockKey {t : LockTable} (ht : t.Exclusive) (store : Nat) (key : Bytes)
    (owner : Nat) : (t.lockKey store key owner).2.Exclusive := by
  rcases lockKey_eq t store key owner with h | ⟨hp, hk, h⟩ <;> rw [h]
  · exact ht
  -- a new claim: the key has no owner, and no other owner has a prefix of it
  have hfree : ∀ l ∈ t.keys, store = l.store → key = l.key → False := by
    rintro l hl rfl rfl
    have := List.find?_eq_none.1 (Option.map_eq_none_iff.1 hk) l hl
    simp at this
  have hopen : ∀ l ∈ t.prefixes, store = l.store → l.key.isPrefixOf key = true →
      owner = l.owner := by
    rintro l hl rfl hkey
    have hno := List.any_eq_false.1 hp l hl
    simp only [BEq.rfl, hkey, Bool.true_and, Bool.and_true, bne_iff_ne, ne_eq, not_not] at hno
    exact hno.symm
  constructor
  · intro l hl l' hl' hs hkey
    rcases List.mem_append.1 hl with hl | hl <;> rcases List.mem_append.1 hl' with hl' | hl'
    · exact ht.keys l hl l' hl' hs hkey
    · cases List.mem_singleton.1 hl'
      exact (hfree l hl hs.symm hkey.symm).elim
    · cases List.mem_singleton.1 hl
      exact (hfree l' hl' hs hkey).elim
    · cases List.mem_singleton.1 hl
      cases List.mem_singleton.1 hl'
      rfl
  · intro l hl l' hl' hs hkey
    rcases List.mem_append.1 hl with hl | hl
    · exact ht.mixed l hl l' hl' hs hkey
    · cases List.mem_singleton.1 hl
      exact hopen l' hl' hs hkey
  · exact ht.prefixes

theorem exclusive_lockPrefix {t : LockTable} (ht : t.Exclusive) (store : Nat) (stem : Bytes)
    (owner : Nat) : (t.lockPrefix store stem owner).2.Exclusive := by
  simp only [lockPrefix]
  split
  · exact ht
  next hno =>
  simp only [Bool.or_eq_true, not_or, Bool.not_eq_true] at hno
  obtain ⟨hkeys, hprefixes⟩ := hno
  -- only claims of the owner itself lie under the prefix or above it
  have hfree : ∀ l ∈ t.keys, l.store = store → stem.isPrefixOf l.key = true → l.owner = owner := by
    rintro l hl rfl hkey
    have hno := List.any_eq_false.1 hkeys l hl
    simpa [hkey] using hno
  have hopen : ∀ l ∈ t.prefixes, l.store = store → stem.comparable l.key = true →
      l.owner = owner := by
    rintro l hl rfl hkey
    have hno := List.any_eq_false.1 hprefixes l hl
    have hkey' : (stem.isPrefixOf l.key || l.key.isPrefixOf stem) = true := hkey
    simpa [hkey'] using hno
  have hcomm : ∀ a b : Bytes, a.comparable b = b.comparable a := fun a b => Bool.or_comm _ _
  constructor
  · exact ht.keys
  · intro l hl l' hl' hs hkey
    rcases List.mem_append.1 hl' with hl' | hl'
    · exact ht.mixed l hl l' hl' hs hkey
    · cases List.mem_singleton.1 hl'
      exact hfree l hl hs hkey
  · intro l hl l' hl' hs hkey
    rcases List.mem_append.1 hl with hl | hl <;> rcases List.mem_append.1 hl' with hl' | hl'
    · exact ht.prefixes l hl l' hl' hs hkey
    · cases List.mem_singleton.1 hl'
      exact hopen l hl hs (hcomm _ _ ▸ hkey)
    · cases List.mem_singleton.1 hl
      exact (hopen l' hl' hs.symm hkey).symm
    · cases List.mem_singleton.1 hl
      cases List.mem_singleton.1 hl'
      rfl

/-- A further claim, granted or not, leaves the claims exclusive. -/
theorem Exclusive.claim {t : LockTable} (ht : t.Exclusive) (store : Nat) (c : Change)
    (owner : Nat) : (c.claim store t owner).2.Exclusive := by
  cases c with
  | put key value | delete key => exact exclusive_lockKey ht store key owner
  | deletePrefix stem => exact exclusive_lockPrefix ht store stem owner

theorem Exclusive.release {t : LockTable} (ht : t.Exclusive) (owner : Nat) :
    (t.release owner).Exclusive := by
  have hkeys : ∀ l ∈ (t.release owner).keys, l ∈ t.keys := fun _ h => List.mem_of_mem_filter h
  have hprefixes : ∀ l ∈ (t.release owner).prefixes, l ∈ t.prefixes :=
    fun _ h => List.mem_of_mem_filter h
  exact ⟨fun l hl l' hl' => ht.keys l (hkeys l hl) l' (hkeys l' hl'),
    fun l hl l' hl' => ht.mixed l (hkeys l hl) l' (hprefixes l' hl'),
    fun l hl l' hl' => ht.prefixes l (hprefixes l hl) l' (hprefixes l' hl')⟩

/-! ## 3. Disjoint changes -/

/-- The claims of two changes to one store that cover a common key have one owner. -/
theorem Exclusive.owner_eq {t : LockTable} (ht : t.Exclusive) {store owner owner' : Nat}
    {c c' : Change} {key : Bytes} (h : t.Holds store c owner) (h' : t.Holds store c' owner')
    (hc : c.covers key = true) (hc' : c'.covers key = true) : owner = owner' := by
  cases c with
  | put k value | delete k =>
    have hk : key = k := beq_iff_eq.1 hc
    subst hk
    cases c' with
    | put k' value' | delete k' => exact ht.keys _ h _ h' rfl (beq_iff_eq.1 hc')
    | deletePrefix stem' => exact ht.mixed _ h _ h' rfl hc'
  | deletePrefix stem =>
    cases c' with
    | put k' value' | delete k' =>
      have hk : key = k' := beq_iff_eq.1 hc'
      subst hk
      exact (ht.mixed _ h' _ h rfl hc).symm
    | deletePrefix stem' =>
      exact ht.prefixes _ h _ h' rfl (VersionTree.comparable_of_isPrefixOf hc hc')

/-- A claim that is refused finds a claim of another owner on some key that it covers. -/
theorem exists_holds_of_refused {t : LockTable} {store : Nat} {c : Change} {owner : Nat}
    (h : (c.claim store t owner).1 = false) :
    ∃ c' owner' key, t.Holds store c' owner' ∧ owner' ≠ owner ∧ c.covers key = true ∧
      c'.covers key = true := by
  have hkey : ∀ key, (t.lockKey store key owner).1 = false →
      ∃ c' owner', t.Holds store c' owner' ∧ owner' ≠ owner ∧ c'.covers key = true := by
    intro key hno
    unfold lockKey at hno
    split at hno
    · next htaken =>
      obtain ⟨⟨_, stem, owner'⟩, hl, hp⟩ := List.any_eq_true.1 htaken
      simp only [Bool.and_eq_true, beq_iff_eq, bne_iff_ne] at hp
      obtain ⟨⟨rfl, hne⟩, hcovers⟩ := hp
      exact ⟨.deletePrefix stem, owner', hl, hne, hcovers⟩
    · split at hno
      · next holder hholder =>
        exact ⟨.delete key, holder, mem_keys_of_keyOwner? hholder, beq_eq_false_iff_ne.1 hno,
          beq_self_eq_true key⟩
      · cases hno
  cases c with
  | put key value | delete key =>
    obtain ⟨c', owner', hheld, hne, hcovers⟩ := hkey key h
    exact ⟨c', owner', key, hheld, hne, beq_self_eq_true key, hcovers⟩
  | deletePrefix stem =>
    simp only [Change.claim, lockPrefix] at h
    split at h
    · next htaken =>
      rcases Bool.or_eq_true_iff.1 htaken with htaken | htaken
      · obtain ⟨⟨_, key, owner'⟩, hl, hp⟩ := List.any_eq_true.1 htaken
        simp only [Bool.and_eq_true, beq_iff_eq, bne_iff_ne] at hp
        obtain ⟨⟨rfl, hne⟩, hcovers⟩ := hp
        exact ⟨.delete key, owner', key, hl, hne, hcovers, beq_self_eq_true key⟩
      · obtain ⟨⟨_, stem', owner'⟩, hl, hp⟩ := List.any_eq_true.1 htaken
        simp only [Bool.and_eq_true, Bool.or_eq_true, beq_iff_eq, bne_iff_ne] at hp
        obtain ⟨⟨rfl, hne⟩, hcovers⟩ := hp
        -- the longer of the two prefixes is a key that both cover
        obtain ⟨key, hkey, hkey'⟩ := VersionTree.exists_of_comparable (Bool.or_eq_true_iff.2 hcovers)
        exact ⟨.deletePrefix stem', owner', key, hl, hne, hkey, hkey'⟩
    · cases h

/-- A claim is refused exactly when another owner has a claim on some key that it covers. -/
theorem Exclusive.refused_iff {t : LockTable} (ht : t.Exclusive) (store : Nat) (c : Change)
    (owner : Nat) :
    (c.claim store t owner).1 = false ↔
      ∃ c' owner' key, t.Holds store c' owner' ∧ owner' ≠ owner ∧ c.covers key = true ∧
        c'.covers key = true := by
  refine ⟨exists_holds_of_refused, ?_⟩
  rintro ⟨c', owner', key, hheld, hne, hkey, hkey'⟩
  rw [Bool.eq_false_iff]
  intro hgranted
  exact hne ((ht.claim store c owner).owner_eq hheld.claim (holds_claim hgranted) hkey' hkey)

/-! ## 4. The claims on one store -/

/-- The claims on a store, without those on others. -/
def on (t : LockTable) (store : Nat) : LockTable where
  keys := t.keys.filter (·.store == store)
  prefixes := t.prefixes.filter (·.store == store)

theorem prefixTaken_on (t : LockTable) (store : Nat) (key : Bytes) (owner : Nat) :
    (t.on store).prefixTaken store key owner = t.prefixTaken store key owner := by
  simp [prefixTaken, on, List.any_filter, ← Bool.and_assoc]

theorem keyOwner?_on (t : LockTable) (store : Nat) (key : Bytes) :
    (t.on store).keyOwner? store key = t.keyOwner? store key := by
  simp [keyOwner?, on, List.find?_filter, beq_eq_decide]

theorem granted_lockKey_on (t : LockTable) (store : Nat) (key : Bytes) (owner : Nat) :
    ((t.on store).lockKey store key owner).1 = (t.lockKey store key owner).1 := by
  unfold lockKey
  rw [prefixTaken_on, keyOwner?_on]
  split
  · rfl
  · split <;> rfl

theorem granted_lockPrefix_on (t : LockTable) (store : Nat) (stem : Bytes) (owner : Nat) :
    ((t.on store).lockPrefix store stem owner).1 = (t.lockPrefix store stem owner).1 := by
  simp only [lockPrefix, on, List.any_filter, ← Bool.and_assoc, Bool.and_self]
  split <;> rfl

/-- The claims on other stores do not matter. -/
theorem granted_on (t : LockTable) (store : Nat) (c : Change) (owner : Nat) :
    (c.claim store (t.on store) owner).1 = (c.claim store t owner).1 := by
  cases c with
  | put key value | delete key => exact granted_lockKey_on t store key owner
  | deletePrefix stem => exact granted_lockPrefix_on t store stem owner

end SnapshotKv.LockTable
