import SnapshotKv.Proofs.Drafts

/-!
# Checked writes

A write succeeds only after its key and its value were checked. So whatever a run has written, and
whatever a transaction is about to write, keeps to the limits; only what was loaded may not.

Results:
1. `Change.put_of_after`, `Change.put_of_lastOn`: a value that some changes left was put by one.
2. `Run.checked`: all writes that a run has noted were checked.
-/

namespace SnapshotKv

open Database

/-! ## 1. Values come from puts -/

namespace Change

/-- A change that puts only what the limits allow. -/
def Checked : Change → Prop
  | .put key value => Limits.checkKey key = .ok () ∧ Limits.checkValue value = .ok ()
  | .delete _ | .deletePrefix _ => True

theorem checked_of_check {s : Store} {c : Change} (h : c.check s = .ok ()) : c.Checked := by
  cases c with
  | put key value =>
    simp only [check] at h
    cases hkey : Limits.checkKey key with
    | error f =>
      rw [hkey] at h
      cases h
    | ok _ =>
      rw [hkey] at h
      exact ⟨hkey, h⟩
  | delete key | deletePrefix stem => trivial

theorem eq_put {c : Change} {key v : Bytes} (hcovers : c.covers key = true)
    (hleaves : c.leaves = some v) : c = .put key v := by
  cases c with
  | put k value => rw [eq_of_beq hcovers, Option.some.inj hleaves]
  | delete k | deletePrefix stem => cases hleaves

theorem put_of_lastOn {changes : List Change} {c : Change} {key v : Bytes}
    (h : lastOn changes key = some c) (hleaves : c.leaves = some v) : .put key v ∈ changes := by
  unfold lastOn at h
  have hcovers := List.find?_some h
  rw [← eq_put hcovers hleaves]
  exact List.mem_reverse.1 (List.mem_of_find?_eq_some h)

theorem put_of_after {changes : List Change} {key v : Bytes} {value : Option Bytes}
    (h : after changes key value = some v) : value = some v ∨ .put key v ∈ changes := by
  rw [after_eq] at h
  cases hlast : lastOn changes key with
  | none =>
    rw [hlast] at h
    exact .inl h
  | some c =>
    rw [hlast] at h
    exact .inr (put_of_lastOn hlast h)

end Change

/-! ## 2. Runs write what was checked -/

/-- Every write that the ledger notes was checked. -/
structure Ledger.Checked (L : Ledger) : Prop where
  commits : ∀ c ∈ L.commits, ∀ w ∈ c.writes, w.change.Checked
  drafts : ∀ t, ∀ w ∈ (L.drafts t).writes, w.change.Checked

namespace Ledger.Checked

variable {L : Ledger}

theorem addCommit (h : L.Checked) {c : Commit} (hc : ∀ w ∈ c.writes, w.change.Checked) :
    (L.addCommit c).Checked where
  commits := fun c' hc' => by
    rcases List.mem_append.1 hc' with hc' | hc'
    · exact h.commits c' hc'
    · rw [List.mem_singleton.1 hc']
      exact hc
  drafts := h.drafts

theorem setDraft (h : L.Checked) (t : Nat) {d : Draft} (hd : ∀ w ∈ d.writes, w.change.Checked) :
    (L.setDraft t d).Checked where
  commits := h.commits
  drafts := fun t' w hw => by
    unfold Ledger.setDraft at hw
    simp only at hw
    split at hw
    · exact hd w hw
    · exact h.drafts t' w hw

end Ledger.Checked

namespace CheckedLemmas

theorem checked_of_writeRecord {now handle : Nat} {txn : Option Nat} {change : Change}
    {db db' : Database} {u : Unit}
    (h : (writeRecord now handle txn change).on db = (.ok u, db')) : change.Checked := by
  obtain ⟨_, _, hget, h⟩ := Attempt.ok_of_bind h
  obtain ⟨hs, _, -, h⟩ := Attempt.ok_of_bind h
  obtain ⟨_, _, -, h⟩ := Attempt.ok_of_bind h
  obtain ⟨_, _, hcheck, -⟩ := Attempt.ok_of_bind h
  exact Change.checked_of_check (congrArg Prod.fst hcheck)

theorem checked_of_answer {s : Site} {now handle : Nat} {txn : Option Nat} {change : Change}
    {r : Reply} (h : (Event.call now (.write handle txn change)).answer s = .ok r) :
    change.Checked := by
  simp only [Event.answer, Event.attempt, Call.attempt, Attempt.on_map, Storage.on_onDatabase,
    on_changeRecord] at h
  cases hon : (writeRecord now handle txn change).on s.db with
  | mk o db' =>
    rw [hon] at h
    cases o with
    | error f => cases h
    | ok u => exact checked_of_writeRecord hon

end CheckedLemmas

open CheckedLemmas

theorem Ledger.Checked.afterCall {L : Ledger} (h : L.Checked) {db db' : Database} {c : Call}
    (hc : ∀ handle txn change, c = .write handle txn change → change.Checked) :
    (L.afterCall db db' c).Checked := by
  cases c with
  | openStore name params =>
    simp only [Ledger.afterCall]
    split
    · exact ⟨h.commits, h.drafts⟩
    · exact h
  | write handle txn change =>
    have hchange := hc _ _ _ rfl
    cases txn with
    | none =>
      simp only [Ledger.afterCall]
      split
      · exact h.addCommit fun w hw => by
          rw [List.mem_singleton.1 hw]
          exact hchange
      · exact h
    | some t =>
      simp only [Ledger.afterCall]
      split
      · exact h.setDraft t fun w hw => by
          rcases List.mem_append.1 hw with hw | hw
          · exact h.drafts t w hw
          · rw [List.mem_singleton.1 hw]
            exact hchange
      · exact h
  | beginTxn t => exact h.setDraft t fun w hw => absurd hw List.not_mem_nil
  | commitTxn t => exact h.addCommit (h.drafts t)
  | closeTxn t =>
    simp only [Ledger.afterCall]
    split
    · exact h.addCommit (h.drafts t)
    · exact h
  | _ => exact h

theorem Ledger.Checked.after {L : Ledger} (h : L.Checked) (s : Site) (e : Event) :
    (L.after s e).Checked := by
  unfold Ledger.after
  cases hanswer : e.answer s with
  | error f =>
    simp only
    split
    · exact ⟨h.commits, h.drafts⟩
    · exact h
  | ok r =>
    cases e with
    | files fs => exact h
    | call now c =>
      refine h.afterCall ?_
      rintro handle txn change rfl
      exact checked_of_answer hanswer

/-- Every write of a run was checked. -/
theorem Run.checked {s : Site} {L : Ledger} (h : Run s L) : L.Checked := by
  induction h with
  | opened fs hdb => exact ⟨(fun c hc => nomatch hc), fun t w hw => nomatch hw⟩
  | step e _ ih => exact ih.after _ e

end SnapshotKv
