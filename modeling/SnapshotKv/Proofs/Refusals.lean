import SnapshotKv.Proofs.Stakes

/-!
# When a write loses a conflict

A write in a transaction is refused with a conflict when another active transaction has written what
it decides, or when a commit after its view has. It is tempting to take only the accepted writes of
the other transactions for this. That is too few (`accepted_writes_do_not_suffice`): a write that is
refused for a commit has made its claim before, and claims are given up all at once, when the cycle
ends. So until then it stands in the way of others like an accepted write. A write that is refused
for a claim makes none.

Results:
1. `Competes`: what else has to hold for a write.
2. `refusal_law`: what refuses a write in a transaction, and what does not.
3. `accepted_writes_do_not_suffice`.
-/

namespace SnapshotKv

open Database WithinLemmas StakeLemmas

/-- Nothing but a conflict is in question for a write in a transaction: the checks of the call pass,
the cycle is active and not too old, and none of its writes was refused with a conflict. -/
structure Competes (s : Site) (seen : Seen) (now t handle : Nat) (change : Change) (h : Handle)
    (st : Store) : Prop where
  admits : s.db.Admits handle change h st
  active : s.db.txnState t = .ok .active
  young : now - seen.begun ≤ s.db.settings.txnTimeout * 1000
  kept : seen.lost = false

namespace Competes

variable {s : Site} {L : Ledger} {seen : Nat → Seen} {late : Late} {now t handle : Nat}
  {change : Change} {h : Handle} {st : Store}

/-- Such a write is decided by the claims and the commits. -/
theorem settles (hcompetes : Competes s (seen t) now t handle change h st)
    (hwatched : Watched s L seen) :
    ∃ c, s.db.txns.get? t = some (.active c) ∧ Settles t s.db c st change
      ((Event.call now (.write handle (some t) change)).answer s,
        ((Event.call now (.write handle (some t) change)).next s).db) := by
  obtain ⟨c, hc⟩ := active_of_state hcompetes.active
  have hlive : s.db.isExpired now c = false :=
    (EndingLemmas.isExpired_eq hwatched hc now).trans
      (decide_eq_false (Nat.not_lt.2 hcompetes.young))
  exact ⟨c, hc, SnapshotKv.settles hcompetes.admits hc hlive
    ((hwatched.cycle hc).2.trans hcompetes.kept)⟩

/-- Such a write is refused for a claim, refused for a commit, or accepted. -/
theorem ends (hcompetes : Competes s (seen t) now t handle change h st)
    (hcontended : Contended s L seen late) :
    (Obstructed s.db L late t (L.writeBy handle h change) ∧
      (Event.call now (.write handle (some t) change)).answer s =
        .error (Fault.writeConflict st.name) ∧
      ((Event.call now (.write handle (some t) change)).next s).db.locks = s.db.locks) ∨
    (¬ Obstructed s.db L late t (L.writeBy handle h change) ∧
      Outrun L t (L.writeBy handle h change) ∧
      (Event.call now (.write handle (some t) change)).answer s =
        .error (Fault.writeConflict st.name)) ∨
    ¬ Obstructed s.db L late t (L.writeBy handle h change) ∧
      ¬ Outrun L t (L.writeBy handle h change) ∧
      (Event.call now (.write handle (some t) change)).answer s = .ok .done := by
  have hrun := hcontended.watched.run
  obtain ⟨c, hc, hsettles⟩ := hcompetes.settles hcontended.watched
  have hblocked := refused_iff hrun hcontended.staked hc hcompetes.admits
  have hstale := stale_iff hrun hc hcompetes.admits
  generalize ((Event.call now (.write handle (some t) change)).next s).db = db' at hsettles ⊢
  generalize (Event.call now (.write handle (some t) change)).answer s = r at hsettles ⊢
  cases hsettles with
  | blocked hclaim => exact .inl ⟨hblocked.1 hclaim, rfl, rfl⟩
  | overtaken hclaim hany =>
    refine .inr (.inl ⟨fun hno => ?_, hstale.1 hany, rfl⟩)
    exact Bool.false_ne_true ((hblocked.2 hno).symm.trans hclaim)
  | accepted hclaim hfresh =>
    refine .inr (.inr ⟨fun hno => ?_, fun hno => ?_, rfl⟩)
    · exact Bool.false_ne_true ((hblocked.2 hno).symm.trans hclaim)
    · exact Bool.false_ne_true (hfresh.symm.trans (hstale.2 hno))

end Competes

/-- While no file operation has failed, the commits that count against a write are all those, after
the begin of its cycle, that wrote what it decides. -/
theorem outrun_iff {s : Site} {L : Ledger} (hrun : Run s L) (hfiles : L.fileFault = false)
    {handle : Nat} {h : Handle} (hh : s.db.handles.get? handle = some h) (t : Nat)
    (change : Change) :
    Outrun L t (L.writeBy handle h change) ↔
      ∃ cm ∈ L.commits.drop (L.drafts t).began, ∃ p ∈ cm.writes,
        (L.writeBy handle h change).Meets p := by
  obtain ⟨name, hname⟩ := (Registry.of_reached hrun.reached).attached hfiles handle h hh
  refine exists_congr fun cm => and_congr_right fun hcm => ?_
  constructor
  · rintro ⟨key, hkey, change', hlanded, hkey'⟩
    unfold Commit.landed at hlanded
    split at hlanded
    · obtain ⟨p, hp, rfl⟩ := List.mem_map.1 hlanded
      obtain ⟨hp, hcell⟩ := List.mem_filter.1 hp
      exact ⟨p, hp, (eq_of_beq hcell).symm, key, hkey, hkey'⟩
    · cases hlanded
  · rintro ⟨p, hp, hcell, key, hkey, hkey'⟩
    have hname : s.db.stores.get? name = some p.cell := hcell ▸ hname
    have hreached := (History.of_reached hrun.reached).reached cm (List.mem_of_mem_drop hcm) p hp
      name hname
    rw [← hcell] at hreached
    refine ⟨key, hkey, p.change, ?_, hkey'⟩
    unfold Commit.landed
    rw [if_pos hreached]
    exact List.mem_map.2 ⟨p, List.mem_filter.2 ⟨hp, beq_iff_eq.2 hcell.symm⟩, rfl⟩

/-- What refuses the writes of transactions on a site with a ledger. -/
structure RefusalLaw (s : Site) (L : Ledger) (seen : Nat → Seen) (late : Late) : Prop where
  /-- A write is refused with a conflict exactly when another active transaction has a stake in what
  it decides, or a commit since its begin has decided it. -/
  refused : ∀ {now t handle change h st}, Competes s (seen t) now t handle change h st →
    ((Event.call now (.write handle (some t) change)).answer s =
        .error (Fault.writeConflict st.name) ↔
      Obstructed s.db L late t (L.writeBy handle h change) ∨
        Outrun L t (L.writeBy handle h change))
  /-- Else it is accepted. -/
  accepted : ∀ {now t handle change h st}, Competes s (seen t) now t handle change h st →
    ((Event.call now (.write handle (some t) change)).answer s = .ok .done ↔
      ¬ (Obstructed s.db L late t (L.writeBy handle h change) ∨
        Outrun L t (L.writeBy handle h change)))
  /-- A write that is refused for the stake of another transaction makes no claim and no stake. -/
  blocked : ∀ {now t handle change h st}, Competes s (seen t) now t handle change h st →
    Obstructed s.db L late t (L.writeBy handle h change) →
      ((Event.call now (.write handle (some t) change)).next s).db.locks = s.db.locks ∧
      (L.after s (.call now (.write handle (some t) change))).stakes
        (late.after seen s L (.call now (.write handle (some t) change))) = L.stakes late
  /-- The stakes of an active transaction that are no accepted writes were lost to a commit since
  its own begin. -/
  late : ∀ t, s.db.txnState t = .ok .active → ∀ w ∈ L.stakes late t,
    w ∈ (L.drafts t).writes ∨ Outrun L t w
  /-- While no file operation has failed, the commits that count are those that wrote what it
  decides. -/
  commits : L.fileFault = false → ∀ {handle h}, s.db.handles.get? handle = some h → ∀ t change,
    (Outrun L t (L.writeBy handle h change) ↔
      ∃ cm ∈ L.commits.drop (L.drafts t).began, ∃ p ∈ cm.writes,
        (L.writeBy handle h change).Meets p)

/-- The law of refused writes in every run. -/
theorem refusal_law {s : Site} {L : Ledger} {seen : Nat → Seen} {late : Late}
    (h : Contended s L seen late) : RefusalLaw s L seen late where
  refused := fun hcompetes => by
    rcases hcompetes.ends h with ⟨hno, hanswer, -⟩ | ⟨-, hno, hanswer⟩ | ⟨hopen, hfresh, hanswer⟩
    · exact iff_of_true hanswer (.inl hno)
    · exact iff_of_true hanswer (.inr hno)
    · exact iff_of_false (by rw [hanswer]; exact fun heq => nomatch heq) (not_or_intro hopen hfresh)
  accepted := fun hcompetes => by
    rcases hcompetes.ends h with ⟨hno, hanswer, -⟩ | ⟨-, hno, hanswer⟩ | ⟨hopen, hfresh, hanswer⟩
    · exact iff_of_false (by rw [hanswer]; exact fun heq => nomatch heq) (not_not_intro (.inl hno))
    · exact iff_of_false (by rw [hanswer]; exact fun heq => nomatch heq) (not_not_intro (.inr hno))
    · exact iff_of_true hanswer (not_or_intro hopen hfresh)
  blocked := fun hcompetes hno => by
    rcases hcompetes.ends h with ⟨-, hanswer, hlocks⟩ | ⟨hopen, -⟩ | ⟨hopen, -⟩
    · exact ⟨hlocks,
        stakes_after_refused hanswer (.inr (.inr ⟨_, hcompetes.admits.handle, hno⟩))⟩
    · exact absurd hno hopen
    · exact absurd hno hopen
  late := fun t hstate w hw => by
    obtain ⟨c, hc⟩ := active_of_state hstate
    exact (List.mem_append.1 hw).imp_right (h.outrun hc)
  commits := fun hfiles _ _ hh t change => outrun_iff h.watched.run hfiles hh t change

/-- A transaction commits a key that another one, which has begun before, then loses the conflict
over; a third one begins after that. -/
def outrunEvents : List Event :=
  [.call 0 (.openStore "a" ["transactions.enabled=true"]), .call 0 .allocTxn, .call 0 .allocTxn,
    .call 0 .allocTxn, .call 0 (.beginTxn 0), .call 0 (.beginTxn 1),
    .call 0 (.write 0 (some 1) (.put [107] [1])), .call 0 (.commitTxn 1),
    .call 0 (.write 0 (some 0) (.put [107] [2])), .call 0 (.beginTxn 2)]

/-- What is seen of the cycles after these events. -/
def outrunSeen : Nat → Seen := watch outrunEvents ⟨smallDatabase, {}⟩ fun _ => {}

/-- What was lost to a commit after these events. -/
def outrunLate : Late :=
  lost outrunEvents ⟨smallDatabase, {}⟩ (Ledger.opened smallDatabase) (fun _ => {}) fun _ => []

namespace RefusalLemmas

theorem contended_outrun :
    Contended (playSmall outrunEvents).1 (playSmall outrunEvents).2 outrunSeen outrunLate :=
  (Contended.opened {} opened_smallDatabase).play outrunEvents

set_option maxRecDepth 4000 in
theorem competes_outrun : ∃ st, st.name = "a" ∧
    Competes (playSmall outrunEvents).1 (outrunSeen 2) 0 2 0 (.put [107] [3]) ⟨0, ⟨true⟩⟩ st :=
  ⟨_, rfl, ⟨rfl, rfl, rfl, rfl⟩, rfl, Nat.zero_le _, rfl⟩

set_option maxRecDepth 4000 in
/-- The first transaction has no accepted write, and the third one begins after the commit. -/
theorem stakes_outrun :
    ((playSmall outrunEvents).2.drafts 0).writes.length = 0 ∧
      (outrunLate 0).map (fun w => (w.cell, w.change)) = [(0, .put [107] [2])] ∧
      (playSmall outrunEvents).2.commits.length = ((playSmall outrunEvents).2.drafts 2).began :=
  ⟨rfl, rfl, rfl⟩

set_option maxRecDepth 4000 in
theorem obstructed_outrun : Obstructed (playSmall outrunEvents).1.db (playSmall outrunEvents).2
    outrunLate 2 ((playSmall outrunEvents).2.writeBy 0 ⟨0, ⟨true⟩⟩ (.put [107] [3])) :=
  of_decide_eq_true rfl

set_option maxRecDepth 4000 in
theorem not_obstructed_by_accepted : ¬ Obstructed (playSmall outrunEvents).1.db
    (playSmall outrunEvents).2 (fun _ => []) 2
    ((playSmall outrunEvents).2.writeBy 0 ⟨0, ⟨true⟩⟩ (.put [107] [3])) :=
  of_decide_eq_false rfl

theorem not_outrun_third (w : Write) : ¬ Outrun (playSmall outrunEvents).2 2 w := by
  rintro ⟨cm, hcm, -⟩
  rw [← stakes_outrun.2.2, List.drop_length] at hcm
  cases hcm

end RefusalLemmas

open RefusalLemmas

/-- The third transaction writes the key: it is refused for the write that the first one has lost,
which is its only stake. -/
theorem refusal_law_outrun :
    ((playSmall outrunEvents).2.drafts 0).writes.length = 0 ∧
      (outrunLate 0).map (fun w => (w.cell, w.change)) = [(0, .put [107] [2])] ∧
      (Event.call 0 (.write 0 (some 2) (.put [107] [3]))).answer (playSmall outrunEvents).1 =
        .error (Fault.writeConflict "a") ∧
      RefusalLaw (playSmall outrunEvents).1 (playSmall outrunEvents).2 outrunSeen outrunLate := by
  obtain ⟨st, hname, hcompetes⟩ := competes_outrun
  have hlaw := refusal_law contended_outrun
  have hrefused := (hlaw.refused hcompetes).2 (.inl obstructed_outrun)
  rw [hname] at hrefused
  exact ⟨stakes_outrun.1, stakes_outrun.2.1, hrefused, hlaw⟩

/-- So it does not suffice to look at the accepted writes of the other transactions. -/
theorem accepted_writes_do_not_suffice :
    ¬ ∀ (s : Site) (L : Ledger) (seen : Nat → Seen), Watched s L seen →
      ∀ (now t handle : Nat) (change : Change) (h : Handle) (st : Store),
        Competes s (seen t) now t handle change h st →
        ((Event.call now (.write handle (some t) change)).answer s =
            .error (Fault.writeConflict st.name) ↔
          Obstructed s.db L (fun _ => []) t (L.writeBy handle h change) ∨
            Outrun L t (L.writeBy handle h change)) := by
  intro hnaive
  obtain ⟨st, hname, hcompetes⟩ := competes_outrun
  have hblocked := hcompetes.ends contended_outrun
  have hrefused := (hnaive _ _ _ contended_outrun.watched 0 2 0 _ _ st hcompetes).1
  rcases hblocked with ⟨-, hanswer, -⟩ | ⟨hopen, -⟩ | ⟨hopen, -⟩
  · rcases hrefused hanswer with hno | hno
    · exact not_obstructed_by_accepted hno
    · exact not_outrun_third _ hno
  · exact hopen obstructed_outrun
  · exact hopen obstructed_outrun

end SnapshotKv
