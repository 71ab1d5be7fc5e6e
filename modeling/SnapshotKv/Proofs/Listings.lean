import SnapshotKv.Cursor
import SnapshotKv.Proofs.Prefixes
import SnapshotKv.Proofs.Ranges

/-!
# Listings of cursors

What a cursor walks is a list: the records of its view under the writes that it carries, as far as
its filter selects them, in scan order. The cursor does not store that list. Every search finds the
first record of it that the position and the cap admit, whatever the scan path.

Results:
1. `WriteSet.get?_overlaidlaid`: contents with the writes of a transaction over them.
2. `Cursor.between_bounds`: the bounds of a search admit what position, cap and path admit.
3. `Cursor.find_eq`: a search is a search in the listing.
4. `Cursor.HasRead.read`: the reads of a cursor go through the listing one by one;
   `Cursor.seek_spec`: from where they do after a seek.
-/

namespace SnapshotKv

/-! ## 1. Contents with writes over them -/

namespace SortedMap

variable {κ α : Type} [LT κ] [DecidableLT κ] [KeyOrder κ]

/-- The entries of two maps; under a key that both have, the first map counts. -/
def union (m base : SortedMap κ α) : SortedMap κ α :=
  m.entries.foldl (fun b e => b.insert e.1 e.2) base

theorem get?_foldl_insert [BEq κ] [LawfulBEq κ] {l : List (κ × α)}
    (hl : l.Pairwise fun a b => a.1 < b.1) (base : SortedMap κ α) (k : κ) :
    (l.foldl (fun b e => b.insert e.1 e.2) base).get? k = (l.lookup k).or (base.get? k) := by
  induction l generalizing base with
  | nil => rfl
  | cons e rest ih =>
    obtain ⟨hlt, hrest⟩ := List.pairwise_cons.1 hl
    rw [List.foldl_cons, ih hrest, List.lookup_cons, get?_insert]
    cases hk : k == e.1 with
    | false => rfl
    | true =>
      -- the keys ascend, so no later entry is for this one
      have hnone : rest.lookup k = none := by
        cases hv : rest.lookup k with
        | none => rfl
        | some v =>
          have hmem := (lookup_eq_some_iff hrest).1 hv
          rw [eq_of_beq hk] at hmem
          exact absurd (hlt _ hmem) (KeyOrder.irrefl _)
      rw [hnone]
      rfl

theorem get?_union [BEq κ] [LawfulBEq κ] (m base : SortedMap κ α) (k : κ) :
    (m.union base).get? k = (m.get? k).or (base.get? k) :=
  get?_foldl_insert m.sorted base k

end SortedMap

namespace WriteSet

/-- Some contents with the write set over them. -/
def overlaid (w : WriteSet) (base : SortedMap Bytes Bytes) : SortedMap Bytes Bytes :=
  w.puts.union (base.filter fun key _ => !w.shadows key)

theorem get?_puts (w : WriteSet) (key : Bytes) : w.puts.get? key = (w.entries.get? key).join := by
  rw [puts, SortedMap.get?_filterMap]
  cases w.entries.get? key <;> rfl

theorem get?_puts_eq_some_iff (w : WriteSet) {key v : Bytes} :
    w.puts.get? key = some v ↔ w.lookup key = .value v := by
  rw [get?_puts, lookup]
  cases w.entries.get? key with
  | none => cases w.prefixes.any fun stem => stem.isPrefixOf key <;> simp
  | some value => cases value <;> simp

theorem get?_overlaid (w : WriteSet) (base : SortedMap Bytes Bytes) (key : Bytes) :
    (w.overlaid base).get? key = match w.lookup key with
      | .value v => some v
      | .deleted => none
      | .absent => base.get? key := by
  rw [overlaid, SortedMap.get?_union, SortedMap.get?_filter, get?_puts]
  unfold shadows lookup
  cases w.entries.get? key with
  | none =>
    cases w.prefixes.any (fun stem => stem.isPrefixOf key) <;>
      cases base.get? key <;> simp
  | some value => cases value <;> cases base.get? key <;> simp

end WriteSet

/-! ## 2. Bounds -/

/-- Whether a position has a key still ahead. -/
def Position.admits (reverse : Bool) (p : Position) (key : Bytes) : Bool :=
  if reverse then p.bound.allowsBelow key else p.bound.allowsAbove key

@[simp] theorem Position.admits_start (reverse : Bool) (key : Bytes) :
    Position.start.admits reverse key = true := by
  cases reverse <;> rfl

@[simp] theorem Position.admits_past (reverse : Bool) (stop key : Bytes) :
    (Position.past stop).admits reverse key = decide (Before reverse stop key) := by
  cases reverse <;> rfl

@[simp] theorem Position.admits_upTo (reverse : Bool) (stop key : Bytes) :
    (Position.upTo stop).admits reverse key = !decide (Before reverse key stop) := by
  cases reverse <;> rfl

namespace Cursor

/-- Whether the position and the cap leave a key to the next search. -/
def admits (c : Cursor) (key : Bytes) : Bool :=
  c.position.admits c.reverse key && c.cap.all fun last => !decide (last < key)

/-- The bounds of a search without the filter. -/
theorem between_reach (position : Position) (reverse : Bool) (cap : Option Bytes) (key : Bytes) :
    let lower : Bound Bytes := if reverse then .unbounded else position.bound
    let upper : Bound Bytes := if reverse then position.bound else .unbounded
    lower.between
      (match cap with
        | some last => upper.tighterUpper (.included last)
        | none => upper) key =
      (position.admits reverse key && cap.all fun last => !decide (last < key)) := by
  cases reverse <;> cases cap <;>
    simp [Bound.between, Position.admits, Bound.allowsBelow_tighterUpper] <;>
    simp [Bound.allowsAbove, Bound.allowsBelow]

/-- The bounds of a prefix cut out of other bounds what starts with the prefix. -/
theorem between_tighter (lower upper : Bound Bytes) (stem key : Bytes) :
    (lower.tighterLower (.included stem)).between
      (match stem.successor? with
        | some next => upper.tighterUpper (.excluded next)
        | none => upper) key = (lower.between upper key && stem.isPrefixOf key) := by
  have hupper : (match stem.successor? with
      | some next => upper.tighterUpper (.excluded next)
      | none => upper).allowsBelow key =
      (upper.allowsBelow key && (VersionTree.prefixEnd stem).allowsBelow key) := by
    unfold VersionTree.prefixEnd
    cases stem.successor? with
    | none => exact (Bool.and_true _).symm
    | some next => exact Bound.allowsBelow_tighterUpper _ _ _
  rw [← between_prefixEnd, Bound.between, Bound.between, Bound.between,
    Bound.allowsAbove_tighterLower, hupper]
  ac_rfl

/-- The bounds of a search admit what the position and the cap admit, and on the bounded path only
what the filter selects. -/
theorem between_bounds (c : Cursor) (key : Bytes) :
    c.bounds.1.between c.bounds.2 key =
      (c.admits key && (c.path == .full || c.filter.isPrefixOf key)) := by
  have hreach := between_reach c.position c.reverse c.cap key
  unfold bounds admits
  rw [← hreach]
  cases c.path with
  | full => exact (Bool.and_true _).symm
  | bounded => exact between_tighter _ _ c.filter key

end Cursor

/-! ## 3. Searches -/

namespace ListingLemmas

variable {reverse : Bool} {l l' merged : List (Bytes × Bytes)} {e : Bytes × Bytes}

/-- The list stands in scan order, each key once. -/
abbrev Ordered (reverse : Bool) (l : List (Bytes × Bytes)) : Prop :=
  l.Pairwise fun a b => Before reverse a.1 b.1

theorem before_of_head? (h : Ordered reverse l) (he : l.head? = some e) {e' : Bytes × Bytes}
    (he' : e' ∈ l) : e' = e ∨ Before reverse e.1 e'.1 := by
  cases l with
  | nil => cases he
  | cons x rest =>
    cases he
    exact (List.mem_cons.1 he').imp_right ((List.pairwise_cons.1 h).1 e')

theorem head?_eq_some (h : Ordered reverse l) (he : e ∈ l)
    (hleast : ∀ e' ∈ l, e' = e ∨ Before reverse e.1 e'.1) : l.head? = some e := by
  cases l with
  | nil => cases he
  | cons x rest =>
    rcases List.mem_cons.1 he with rfl | hrest
    · rfl
    · have hx := (List.pairwise_cons.1 h).1 e hrest
      rcases hleast x List.mem_cons_self with rfl | hlt
      · rfl
      · exact absurd (before_trans hx hlt) (before_irrefl _ _)

theorem eq_or_before (h : Ordered reverse l) {a b : Bytes × Bytes} (ha : a ∈ l) (hb : b ∈ l) :
    a = b ∨ Before reverse a.1 b.1 ∨ Before reverse b.1 a.1 := by
  induction l with
  | nil => cases ha
  | cons x rest ih =>
    obtain ⟨hx, hrest⟩ := List.pairwise_cons.1 h
    rcases List.mem_cons.1 ha with rfl | ha' <;> rcases List.mem_cons.1 hb with rfl | hb'
    · exact .inl rfl
    · exact .inr (.inl (hx b hb'))
    · exact .inr (.inr (hx a ha'))
    · exact ih hrest ha' hb'

/-- Of the first records of two lists, the first one is that of the two lists merged. -/
theorem first_head? (hl : Ordered reverse l) (hl' : Ordered reverse l')
    (hmerged : Ordered reverse merged) (hmem : ∀ e, e ∈ merged ↔ e ∈ l ∨ e ∈ l') :
    Cursor.first reverse l.head? l'.head? = merged.head? := by
  cases hc : l.head? with
  | none =>
    rw [List.head?_eq_none_iff] at hc
    subst hc
    cases hp : l'.head? with
    | none =>
      rw [List.head?_eq_none_iff] at hp
      subst hp
      refine (List.head?_eq_none_iff.2 (List.eq_nil_iff_forall_not_mem.2 fun e he => ?_)).symm
      simpa using (hmem e).1 he
    | some p =>
      refine (head?_eq_some hmerged ((hmem p).2 (.inr (List.mem_of_mem_head? hp))) ?_).symm
      intro e he
      exact before_of_head? hl' hp (((hmem e).1 he).resolve_left List.not_mem_nil)
  | some c =>
    have hcmem := (hmem c).2 (.inl (List.mem_of_mem_head? hc))
    cases hp : l'.head? with
    | none =>
      rw [List.head?_eq_none_iff] at hp
      subst hp
      refine (head?_eq_some hmerged hcmem fun e he => ?_).symm
      exact before_of_head? hl hc (((hmem e).1 he).resolve_right List.not_mem_nil)
    | some p =>
      have hpmem := (hmem p).2 (.inr (List.mem_of_mem_head? hp))
      have hfirst : Cursor.first reverse (some c) (some p) =
          if Before reverse c.1 p.1 then some c else some p := by
        cases reverse <;>
          simp only [Cursor.first, Before, Bool.false_eq_true, ↓reduceIte, Bool.not_eq_true',
            decide_eq_false_iff_not, ite_not]
      rw [hfirst]
      split
      · next hlt =>
        refine (head?_eq_some hmerged hcmem fun e he => ?_).symm
        rcases (hmem e).1 he with he | he
        · exact before_of_head? hl hc he
        · rcases before_of_head? hl' hp he with rfl | hpe
          · exact .inr hlt
          · exact .inr (before_trans hlt hpe)
      · next hnot =>
        refine (head?_eq_some hmerged hpmem fun e he => ?_).symm
        rcases (hmem e).1 he with he | he
        · -- the committed record is not before the pending one
          have hpc : c = p ∨ Before reverse p.1 c.1 := by
            rcases eq_or_before hmerged hcmem hpmem with heq | hlt | hgt
            · exact .inl heq
            · exact absurd hlt hnot
            · exact .inr hgt
          rcases before_of_head? hl hc he with rfl | hce
          · exact hpc
          · rcases hpc with rfl | hpc
            · exact .inr hce
            · exact .inr (before_trans hpc hce)
        · exact before_of_head? hl' hp he

end ListingLemmas

open ListingLemmas

namespace Cursor

/-- What the view of a cursor sees of a tree, with the writes that the cursor carries over it. -/
def contents (c : Cursor) (tree : VersionTree) : SortedMap Bytes Bytes :=
  match c.overlay with
  | none => tree.contents c.view
  | some w => w.overlaid (tree.contents c.view)

/-- The records that a cursor walks. -/
def listing (c : Cursor) (tree : VersionTree) : List (Bytes × Bytes) :=
  inScanOrder c.reverse ((c.contents tree).entries.filter fun e => c.filter.isPrefixOf e.1)

theorem ordered_listing (c : Cursor) (tree : VersionTree) : Ordered c.reverse (c.listing tree) :=
  pairwise_inScanOrder c.reverse ((c.contents tree).sorted.filter _)

theorem mem_listing_iff (c : Cursor) (tree : VersionTree) {key v : Bytes} :
    (key, v) ∈ c.listing tree ↔
      (c.contents tree).get? key = some v ∧ c.filter.isPrefixOf key = true := by
  unfold listing
  rw [mem_inScanOrder, List.mem_filter, SortedMap.mem_entries_iff]

/-- A search answers the first record of the listing that the position and the cap admit. -/
theorem find_eq (c : Cursor) (tree : VersionTree) :
    c.find tree = ((c.listing tree).filter fun e => c.admits e.1).head? := by
  have hselect : ∀ key, (c.bounds.1.between c.bounds.2 key && c.filter.isPrefixOf key) =
      (c.filter.isPrefixOf key && c.admits key) := by
    intro key
    rw [between_bounds]
    cases c.filter.isPrefixOf key <;> simp
  have hmerged := (c.ordered_listing tree).filter fun e => c.admits e.1
  unfold find
  cases hw : c.overlay with
  | none =>
    simp only [Option.any_none, Bool.not_false, Bool.and_true, Option.bind_none,
      VersionTree.nextVisible_eq, hselect]
    refine first_head? ((pairwise_inScanOrder _ (SortedMap.sorted _)).filter _) .nil hmerged ?_
    rintro ⟨key, v⟩
    simp only [List.mem_filter, mem_listing_iff, contents, hw, mem_inScanOrder,
      SortedMap.mem_entries_iff, Bool.and_eq_true, List.not_mem_nil, or_false, and_assoc]
  | some w =>
    simp only [Option.any_some, Option.bind_some, VersionTree.nextVisible_eq, WriteSet.nextEntry_eq,
      ← Bool.and_assoc, hselect]
    refine first_head? ((pairwise_inScanOrder _ (SortedMap.sorted _)).filter _)
      ((pairwise_inScanOrder _ (SortedMap.sorted _)).filter _) hmerged ?_
    rintro ⟨key, v⟩
    simp only [List.mem_filter, mem_listing_iff, contents, hw, mem_inScanOrder,
      SortedMap.mem_entries_iff, WriteSet.get?_overlaid, WriteSet.get?_puts_eq_some_iff, Bool.and_eq_true,
      WriteSet.shadows]
    cases w.lookup key <;> simp [and_assoc, and_comm, and_left_comm]

end Cursor

/-! ## 4. Reads -/

namespace ListingLemmas

/-- Beyond one record of an ordered list lie those that stand after it. -/
theorem filter_before {reverse : Bool} {l : List (Bytes × Bytes)} (h : Ordered reverse l) {n : Nat}
    {e : Bytes × Bytes} (he : l[n]? = some e) :
    l.filter (fun x => decide (Before reverse e.1 x.1)) = l.drop (n + 1) := by
  induction l generalizing n with
  | nil => simp at he
  | cons x rest ih =>
    obtain ⟨hx, hrest⟩ := List.pairwise_cons.1 h
    cases n with
    | zero =>
      obtain rfl := Option.some.inj he
      rw [List.filter_cons_of_neg (by simpa using before_irrefl reverse x.1)]
      exact List.filter_eq_self.2 fun y hy => decide_eq_true (hx y hy)
    | succ n =>
      have hmem : e ∈ rest := List.mem_of_getElem? he
      have hnot : ¬ Before reverse e.1 x.1 := fun hlt =>
        before_irrefl reverse _ (before_trans hlt (hx e hmem))
      rw [List.filter_cons_of_neg (by simpa using hnot)]
      exact ih hrest he

/-- What an ordered list has from a key on is the rest of it. -/
theorem exists_filter_eq_drop {reverse : Bool} {l : List (Bytes × Bytes)} (h : Ordered reverse l)
    (key : Bytes) : ∃ n, l.filter (fun x => !decide (Before reverse x.1 key)) = l.drop n := by
  induction l with
  | nil => exact ⟨0, rfl⟩
  | cons x rest ih =>
    obtain ⟨hx, hrest⟩ := List.pairwise_cons.1 h
    by_cases hbefore : Before reverse x.1 key
    · obtain ⟨n, hn⟩ := ih hrest
      exact ⟨n + 1, by rw [List.filter_cons_of_neg (by simpa using hbefore), hn]; rfl⟩
    · refine ⟨0, List.filter_eq_self.2 fun y hy => ?_⟩
      rcases List.mem_cons.1 hy with rfl | hy
      · simpa using hbefore
      · simpa using fun hlt => hbefore (before_trans (hx y hy) hlt)

/-- Nothing lies between a key and the first record from the key on. -/
theorem filter_from_head? {reverse : Bool} {l : List (Bytes × Bytes)} (h : Ordered reverse l)
    {key : Bytes} {e : Bytes × Bytes}
    (he : (l.filter fun x => !decide (Before reverse x.1 key)).head? = some e) :
    l.filter (fun x => !decide (Before reverse x.1 e.1)) =
      l.filter fun x => !decide (Before reverse x.1 key) := by
  obtain ⟨hmem, hfrom⟩ := List.mem_filter.1 (List.mem_of_mem_head? he)
  simp only [Bool.not_eq_true', decide_eq_false_iff_not] at hfrom
  refine List.filter_congr fun x hx => ?_
  have hiff : Before reverse x.1 e.1 ↔ Before reverse x.1 key := by
    constructor
    · intro hlt
      by_contra hnot
      have hx' : x ∈ l.filter fun x => !decide (Before reverse x.1 key) :=
        List.mem_filter.2 ⟨hx, by simpa using hnot⟩
      rcases before_of_head? (h.filter _) he hx' with rfl | hgt
      · exact before_irrefl _ _ hlt
      · exact before_irrefl _ _ (before_trans hlt hgt)
    · intro hlt
      rcases eq_or_before h hx hmem with rfl | hxe | hex
      · exact absurd hlt hfrom
      · exact hxe
      · exact absurd (before_trans hex hlt) hfrom
  simp only [hiff]

end ListingLemmas

/-- A cursor that has come through the first `n` of some records. -/
structure Cursor.HasRead (c : Cursor) (records : List (Bytes × Bytes)) (n : Nat) : Prop where
  uncapped : c.cap = none
  ahead : records.filter (fun e => c.position.admits c.reverse e.1) = records.drop n
  atEnd : c.atEnd = true → records.drop n = []

/-- A read answers the next record of the listing, or that there is none, and moves past it. -/
theorem Cursor.HasRead.read {c : Cursor} {tree : VersionTree} {n : Nat}
    (h : c.HasRead (c.listing tree) n) :
    ∃ position atEnd, (Cursor.read (.ok ()) tree).on c =
        (.ok (c.listing tree)[n]?, { c with position, atEnd }) ∧
      HasRead { c with position, atEnd } (c.listing tree) (n + 1) := by
  simp only [Cursor.read, Attempt.on_bind, Attempt.on_check, Attempt.on_get]
  cases hend : c.atEnd with
  | true =>
    have hnil := h.atEnd hend
    have hlength := List.drop_eq_nil_iff.1 hnil
    refine ⟨c.position, c.atEnd, ?_, h.uncapped, ?_, fun _ => ?_⟩
    · rw [List.getElem?_eq_none hlength]
      rfl
    · rw [h.ahead, hnil, List.drop_eq_nil_of_le (Nat.le_succ_of_le hlength)]
    · exact List.drop_eq_nil_of_le (Nat.le_succ_of_le hlength)
  | false =>
    have hadmits : ∀ e : Bytes × Bytes, c.admits e.1 = c.position.admits c.reverse e.1 := by
      intro e
      unfold admits
      rw [h.uncapped]
      exact Bool.and_true _
    have hfind : c.find tree = (c.listing tree)[n]? := by
      simp only [find_eq, hadmits, h.ahead, List.head?_drop]
    rw [hfind]
    cases he : (c.listing tree)[n]? with
    | some e =>
      refine ⟨.past e.1, false, rfl, h.uncapped, ?_, fun htrue => nomatch htrue⟩
      simp only [Position.admits_past]
      exact filter_before (c.ordered_listing tree) he
    | none =>
      have hlength := List.getElem?_eq_none_iff.1 he
      have hnil := List.drop_eq_nil_of_le (Nat.le_succ_of_le hlength)
      refine ⟨c.position, true, rfl, h.uncapped, ?_, fun _ => hnil⟩
      rw [h.ahead, hnil, List.drop_eq_nil_of_le hlength]

/-- A seek leaves ahead of the cursor the records of its listing from a key on. -/
theorem Cursor.seek_spec (c : Cursor) (tree : VersionTree) {key : Bytes}
    (hkey : Limits.checkBound key = .ok ()) :
    ∃ landed position n,
      (Cursor.seek (.ok ()) tree key).on c =
        (.ok landed, { c with cap := none, atEnd := false, position }) ∧
      HasRead { c with cap := none, atEnd := false, position } (c.listing tree) n ∧
      (c.listing tree).drop n =
        (c.listing tree).filter fun e => !decide (Before c.reverse e.1 key) := by
  obtain ⟨n, hn⟩ := exists_filter_eq_drop (c.ordered_listing tree) key
  have hadmits : ∀ e : Bytes × Bytes,
      admits { c with cap := none, atEnd := false, position := .upTo key } e.1 =
        !decide (Before c.reverse e.1 key) := by
    intro e
    simp [admits]
  have hfind : find { c with cap := none, atEnd := false, position := .upTo key } tree =
      ((c.listing tree).filter fun e => !decide (Before c.reverse e.1 key)).head? := by
    rw [find_eq]
    simp only [hadmits]
    rfl
  simp only [Cursor.seek, Cursor.reposition, Attempt.on_bind, Attempt.on_check, hkey,
    Attempt.on_modify, Attempt.on_get, hfind]
  cases hhead : ((c.listing tree).filter fun e => !decide (Before c.reverse e.1 key)).head? with
  | some e =>
    refine ⟨some e.1, .upTo e.1, n, rfl, ⟨rfl, ?_, fun htrue => nomatch htrue⟩, hn.symm⟩
    simp only [Position.admits_upTo]
    exact (filter_from_head? (c.ordered_listing tree) hhead).trans hn
  | none =>
    refine ⟨none, .upTo key, n, rfl, ⟨rfl, ?_, fun htrue => nomatch htrue⟩, hn.symm⟩
    simp only [Position.admits_upTo]
    exact hn

/-- A read that is refused leaves the cursor as it is. -/
theorem Cursor.read_refused (c : Cursor) (tree : VersionTree) (f : Fault) :
    (Cursor.read (.error f) tree).on c = (.error f, c) := rfl

/-- A cursor that was just made has all of its listing ahead. -/
theorem Cursor.hasRead_start {c : Cursor} (hcap : c.cap = none) (hstart : c.position = .start)
    (hend : c.atEnd = false) (records : List (Bytes × Bytes)) : c.HasRead records 0 where
  uncapped := hcap
  ahead := by
    rw [hstart]
    simp only [Position.admits_start, List.filter_true]
    rfl
  atEnd := fun htrue => absurd (hend.symm.trans htrue) Bool.false_ne_true

end SnapshotKv
