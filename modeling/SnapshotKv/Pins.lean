/-!
# Pinned views

The views that transactions and cursors still read, each as often as it is in use. Compaction may
drop only what no view at or above the horizon sees; `Pins.horizon` is never above a pinned view
(`Pins.horizon_le_of_mem`) and never above the published sequence number.
-/

namespace SnapshotKv

/-- The pinned sequence numbers, once for every transaction or cursor that holds one. -/
structure Pins where
  views : List Nat := []
  deriving DecidableEq, Repr

namespace Pins

instance : Inhabited Pins := ⟨{}⟩

/-- One more holder of a view. -/
def pin (p : Pins) (seqno : Nat) : Pins := ⟨seqno :: p.views⟩

/-- One holder of a view less. -/
def unpin (p : Pins) (seqno : Nat) : Pins := ⟨p.views.erase seqno⟩

/-- The number of holders. -/
def live (p : Pins) : Nat := p.views.length

/-- The oldest view in use: the least pinned one, or the published one when that is older. -/
def horizon (p : Pins) (published : Nat) : Nat := p.views.foldl min published

theorem foldl_min_le (l : List Nat) (n : Nat) : l.foldl min n ≤ n := by
  induction l generalizing n with
  | nil => exact Nat.le_refl n
  | cons x l ih => exact Nat.le_trans (ih (min n x)) (Nat.min_le_left n x)

theorem horizon_le_published (p : Pins) (published : Nat) : p.horizon published ≤ published :=
  foldl_min_le p.views published

theorem horizon_le_of_mem {p : Pins} {v : Nat} (h : v ∈ p.views) (published : Nat) :
    p.horizon published ≤ v := by
  obtain ⟨views⟩ := p
  simp only [horizon] at h ⊢
  induction views generalizing published with
  | nil => cases h
  | cons x l ih =>
    rcases List.mem_cons.1 h with rfl | h
    · exact Nat.le_trans (foldl_min_le l (min published v)) (Nat.min_le_right published v)
    · exact ih (min published x) h

end Pins

end SnapshotKv
