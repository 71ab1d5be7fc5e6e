import SnapshotKv.Fault

/-!
# Attempts

An `Attempt σ α` is a change of a `σ` that ends in a result or in a fault. What it changed before a
fault stays changed: nothing is rolled back that the attempt does not roll back itself. `Attempt.on`
runs one, and `Attempt.within` carries an attempt on a part over to the whole.
-/

namespace SnapshotKv

/-- A change of a `σ` that yields an `α` or a fault, and keeps what it changed before a fault. -/
abbrev Attempt (σ α : Type) := ExceptT Fault (StateM σ) α

namespace Attempt

variable {σ τ α : Type}

/-- The outcome of an attempt on a given state, and the state it leaves. -/
def on (a : Attempt σ α) (s : σ) : Except Fault α × σ := a.run.run s

/-- The attempt with the given outcome and change. -/
def ofStep (step : σ → Except Fault α × σ) : Attempt σ α := ExceptT.mk fun s => step s

/-- An attempt on a part of a `σ`, read by `part` and put back by `restore`. -/
def within (part : σ → τ) (restore : σ → τ → σ) (a : Attempt τ α) : Attempt σ α :=
  ofStep fun s =>
    let r := a.on (part s)
    (r.1, restore s r.2)

/-- The outcome of a check that changes nothing. -/
def check (r : Except Fault α) : Attempt σ α := ofStep fun s => (r, s)

@[simp] theorem on_ofStep (step : σ → Except Fault α × σ) (s : σ) : (ofStep step).on s = step s :=
  rfl

@[simp] theorem on_check (r : Except Fault α) (s : σ) : (check r : Attempt σ α).on s = (r, s) := rfl

@[simp] theorem on_within (part : σ → τ) (restore : σ → τ → σ) (a : Attempt τ α) (s : σ) :
    (within part restore a).on s = ((a.on (part s)).1, restore s (a.on (part s)).2) := rfl

@[simp] theorem on_pure (a : α) (s : σ) : (pure a : Attempt σ α).on s = (.ok a, s) := rfl

@[simp] theorem on_throw (f : Fault) (s : σ) : (throw f : Attempt σ α).on s = (.error f, s) := rfl

@[simp] theorem on_get (s : σ) : (get : Attempt σ σ).on s = (.ok s, s) := rfl

@[simp] theorem on_set (s t : σ) : (set t : Attempt σ Unit).on s = (.ok (), t) := rfl

@[simp] theorem on_modify (f : σ → σ) (s : σ) :
    (modify f : Attempt σ Unit).on s = (.ok (), f s) := rfl

/-- A sequence goes on where its first part ended, and stops at the first part's fault. -/
theorem on_bind {β : Type} (a : Attempt σ α) (f : α → Attempt σ β) (s : σ) :
    (a >>= f).on s =
      match a.on s with
      | (.ok x, s') => (f x).on s'
      | (.error e, s') => (.error e, s') := by
  show (ExceptT.bind a f).run.run s = _
  simp only [ExceptT.bind, on, ExceptT.run, ExceptT.mk, StateT.run, bind, StateT.bind]
  cases h : (a : StateM σ (Except Fault α)) s with
  | mk r s' => cases r <;> rfl

end Attempt

end SnapshotKv
