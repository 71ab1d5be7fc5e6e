import SnapshotKv.Proofs.History

/-!
# Conflicts

Which commits can decide a key that a transaction decides too, while that transaction is active. A
claim keeps other transactions away for as long as its owner is active, and the newest commit is
compared with the view when the claim is made. Writes without transaction make no claims, and a
commit does not look at the trees again: they are kept away by the handles alone, since a store has
one handle at a time, and that is for transactions or is not.

Results:
1. `Conflicts.step`: a commit meets the writes of an active cycle only if it is a write without
   transaction, through a handle that was opened after the write it meets.
2. `Conflicts.of_reached`.
3. `commits_disjoint`: of two transactions at the same time that both commit, no key is decided by
   both.
4. `plain_write_overtakes`: the one way in which a commit can decide a key over a later write
   without transaction.
-/

namespace SnapshotKv

open Database

/-- Two writes decide a common key of one store. -/
def Write.Meets (w p : Write) : Prop :=
  w.cell = p.cell ∧ ∃ key, w.change.covers key = true ∧ p.change.covers key = true

/-- A write was made without transaction, through a handle opened after another write. -/
def Commit.Overtakes (c : Commit) (p w : Write) : Prop := c.began = none ∧ w.opened ≤ p.handle

/-- A commit meets a write only by overtaking it. Between transactions this needs all stores to be in
their places, which they are unless a file operation failed. -/
def Commit.Spares (c : Commit) (fileFault : Bool) (w : Write) : Prop :=
  c.began = none ∨ fileFault = false → ∀ p ∈ c.writes, w.Meets p → c.Overtakes p w

/-- The conflicts of transactions with the commits after their begin. -/
structure Conflicts (db : Database) (L : Ledger) : Prop where
  active : ∀ t c, db.txns.get? t = some (.active c) →
    ∀ cm ∈ L.commits.drop (L.drafts t).began, ∀ w ∈ (L.drafts t).writes,
      cm.Spares L.fileFault w
  committed : ∀ j c b, L.commits[j]? = some c → c.began = some b →
    ∀ cm ∈ (L.commits.take j).drop b, ∀ w ∈ c.writes, cm.Spares L.fileFault w
  /-- The handle now on a store is that of a write, or was opened after it. -/
  handles : ∀ t c, db.txns.get? t = some (.active c) → ∀ w ∈ (L.drafts t).writes,
    ∀ n h, db.handles.get? n = some h → h.cell = w.cell → n = w.handle ∨ w.opened ≤ n
  /-- A commit went through handles of its own kind. -/
  openings : ∀ c ∈ L.commits, ∀ w ∈ c.writes,
    L.openings[w.handle]? = some ⟨w.cell, c.began.isSome⟩ ∧
      (c.began = none → w.cell ∈ c.reached)

namespace ConflictsLemmas

variable {db : Database} {L : Ledger}

theorem spares_of_fileFault {cm : Commit} {w : Write} {b : Bool} (h : cm.Spares b w) :
    cm.Spares true w := by
  rintro (hplain | hno)
  · exact h (.inl hplain)
  · cases hno

/-- A write that passes the check against the newest commit touches nothing that was changed after
the view. -/
theorem touchedSince_of_fresh {t : VersionTree} {view : Nat} {change : Change}
    (h : (change.latest t).any (fun seqno => view < seqno) = false) {key : Bytes}
    (hkey : change.covers key = true) : t.touchedSince view key = false := by
  cases change with
  | put k value | delete k =>
    have hk : key = k := beq_iff_eq.1 hkey
    subst hk
    exact h
  | deletePrefix stem =>
    rw [Bool.eq_false_iff]
    intro htouched
    have hunder := VersionTree.touchedUnder_of_touchedSince hkey htouched
    have hno : t.touchedUnder view stem = false := h
    rw [hunder] at hno
    cases hno

theorem getElem?_concat {α : Type} {l : List α} {a x : α} {j : Nat}
    (h : (l ++ [a])[j]? = some x) : j < l.length ∧ l[j]? = some x ∨ j = l.length ∧ x = a := by
  rw [List.getElem?_append] at h
  split at h
  · next hlt => exact .inl ⟨hlt, h⟩
  · next hge =>
    rw [List.getElem?_singleton] at h
    split at h
    · next heq => exact .inr ⟨by omega, (Option.some.inj h).symm⟩
    · cases h

end ConflictsLemmas

open ConflictsLemmas HeldViewsLemmas DraftsLemmas

namespace Conflicts

variable {db db' : Database} {L L' : Ledger}

/-- A write that is accepted meets no commit after the begin of its cycle. -/
theorem not_meets_of_fresh
    (ho : ∀ c ∈ L.commits, ∀ w ∈ c.writes, c.began = none → w.cell ∈ c.reached)
    (hr : Registry db L) (hh : History db L) {t handle : Nat} {c : Cycle} {hd : Handle} {s : Store}
    {change : Change} (hc : db.txns.get? t = some (.active c))
    (hhd : db.handles.get? handle = some hd) (hs : db.cells.get? hd.cell = some s)
    (hfresh : (change.latest s.tree).any (fun seqno => c.view < seqno) = false) {cm : Commit}
    (hcm : cm ∈ L.commits.drop (L.drafts t).began)
    (hfiles : cm.began = none ∨ L.fileFault = false) {p : Write} (hp : p ∈ cm.writes) :
    ¬ (L.writeBy handle hd change).Meets p := by
  rintro ⟨hcell, key, hkey, hkey'⟩
  have hcell : hd.cell = p.cell := hcell
  have hmem := List.mem_of_mem_drop hcm
  have hreached : p.cell ∈ cm.reached := by
    rcases hfiles with hplain | hfiles
    · exact ho cm hmem p hp hplain
    · obtain ⟨name, hname⟩ := hr.attached hfiles handle hd hhd
      exact hh.reached cm hmem p hp name (hcell ▸ hname)
  -- the commit is newer than the view, so the check would have found it
  have hlands : cm.Lands hd.cell key := by
    refine ⟨p.change, ?_, hkey'⟩
    unfold Commit.landed
    rw [hcell, if_pos hreached]
    exact List.mem_map.2 ⟨p, List.mem_filter.2 ⟨hp, BEq.rfl⟩, rfl⟩
  have htouched := ((hh.cycles t c hc).touched hd.cell s key hs).2 ⟨cm, hcm, hlands⟩
  rw [touchedSince_of_fresh hfresh hkey] at htouched
  cases htouched

theorem write (h : Conflicts db L) (hr : Registry db L) (hh : History db L) {t handle : Nat}
    {c : Cycle} (c' : Cycle) {hd : Handle} {s : Store} {change : Change}
    (hc : db.txns.get? t = some (.active c)) (hhd : db.handles.get? handle = some hd)
    (hs : db.cells.get? hd.cell = some s)
    (hfresh : (change.latest s.tree).any (fun seqno => c.view < seqno) = false) :
    Conflicts (db.setCycle t c') (L.addWrite t (L.writeBy handle hd change)) := by
  have hcases : ∀ t' c₁, (db.setCycle t c').txns.get? t' = some (.active c₁) →
      ∀ w ∈ ((L.addWrite t (L.writeBy handle hd change)).drafts t').writes,
        (∃ c₀, db.txns.get? t' = some (.active c₀) ∧ w ∈ (L.drafts t').writes) ∨
          t' = t ∧ w = L.writeBy handle hd change := by
    intro t' c₁ h₁ w hw
    rcases get?_setTxn h₁ with ⟨hne, hold⟩ | ⟨rfl, -⟩
    · rw [L.drafts_addWrite_of_ne _ hne] at hw
      exact .inl ⟨c₁, hold, hw⟩
    · rw [L.drafts_addWrite_self] at hw
      rcases List.mem_append.1 hw with hw | hw
      · exact .inl ⟨c, hc, hw⟩
      · exact .inr ⟨rfl, List.mem_singleton.1 hw⟩
  exact { h with
    active := fun t' c₁ h₁ cm hcm w hw => by
      rw [History.began_addWrite] at hcm
      rcases hcases t' c₁ h₁ w hw with ⟨c₀, h₀, hw⟩ | ⟨rfl, rfl⟩
      · exact h.active t' c₀ h₀ cm hcm w hw
      · intro hfiles p hp hmeets
        have ho := fun c hc w hw => (h.openings c hc w hw).2
        exact absurd hmeets (not_meets_of_fresh ho hr hh hc hhd hs hfresh hcm hfiles hp)
    handles := fun t' c₁ h₁ w hw n hn hget hcell => by
      rcases hcases t' c₁ h₁ w hw with ⟨c₀, h₀, hw⟩ | ⟨rfl, rfl⟩
      · exact h.handles t' c₀ h₀ w hw n hn hget hcell
      · exact .inl (hr.single n handle hn hd hget hhd hcell) }

/-- A commit is added that spares the writes of all active cycles, and that met no commit since its
own begin except by being overtaken. -/
theorem addCommit (h : Conflicts db L) (hh : History db L) {cm : Commit}
    (hactive : ∀ t c, db.txns.get? t = some (.active c) → ∀ w ∈ (L.drafts t).writes,
      cm.Spares L.fileFault w)
    (hcommitted : ∀ b, cm.began = some b → ∀ cm' ∈ L.commits.drop b, ∀ w ∈ cm.writes,
      cm'.Spares L.fileFault w)
    (hopenings : ∀ w ∈ cm.writes, L.openings[w.handle]? = some ⟨w.cell, cm.began.isSome⟩ ∧
      (cm.began = none → w.cell ∈ cm.reached)) :
    Conflicts db (L.addCommit cm) where
  active := fun t c hc cm' hcm' w hw => by
    rw [Ledger.addCommit, List.drop_append_of_le_length (hh.began_le t c hc)] at hcm'
    rcases List.mem_append.1 hcm' with hcm' | hcm'
    · exact h.active t c hc cm' hcm' w hw
    · rw [List.mem_singleton.1 hcm']
      exact hactive t c hc w hw
  committed := fun j c b hj hb cm' hcm' w hw => by
    rcases getElem?_concat hj with ⟨hlt, hj⟩ | ⟨rfl, rfl⟩
    · rw [Ledger.addCommit, List.take_append_of_le_length (Nat.le_of_lt hlt)] at hcm'
      exact h.committed j c b hj hb cm' hcm' w hw
    · rw [Ledger.addCommit, List.take_left] at hcm'
      exact hcommitted b hb cm' hcm' w hw
  handles := h.handles
  openings := fun c hc w hw => by
    rcases List.mem_append.1 hc with hc | hc
    · exact h.openings c hc w hw
    · rw [List.mem_singleton.1 hc] at hw ⊢
      exact hopenings w hw

theorem plain (h : Conflicts db L) (hr : Registry db L) (hd : Drafts db L) (hh : History db L)
    {handle : Nat} {hn : Handle} (change : Change) (hhn : db.handles.get? handle = some hn)
    (hplain : hn.settings.transactional = false) :
    Conflicts db (L.addPlain (L.writeBy handle hn change)) := by
  have hopening := hr.opening handle hn hhn
  rw [hplain] at hopening
  refine h.addCommit hh (fun t c hc w hw _ p hp hmeets => ?_) (fun b hb => nomatch hb)
    fun w hw => ?_
  · cases List.mem_singleton.1 hp
    refine ⟨rfl, ?_⟩
    rcases h.handles t c hc w hw handle hn hhn hmeets.1.symm with heq | hle
    · -- the handle of the transaction was opened for transactions
      have htxn := (hd.opened t c hc w hw).1
      rw [← heq, hopening] at htxn
      exact absurd (congrArg Opening.transactional (Option.some.inj htxn)) Bool.false_ne_true
    · exact hle
  · cases List.mem_singleton.1 hw
    exact ⟨hopening, fun _ => List.mem_singleton_self _⟩

/-- Active cycles may end. -/
theorem endCycle (h : Conflicts db L) {t : Nat} {c : Cycle} {final : Txn}
    (hfinal : final.view? = none) : Conflicts (db.endCycle t c final) L :=
  { h with
    active := fun t' c' hc' => h.active t' c' (active_of_endCycle hfinal hc').2
    handles := fun t' c' hc' => h.handles t' c' (active_of_endCycle hfinal hc').2 }

theorem commit (h : Conflicts db L) (hd : Drafts db L) (hv : HeldViews db) (hh : History db L)
    {t : Nat} {c : Cycle} (reached : List Nat) (hc : db.txns.get? t = some (.active c)) :
    Conflicts (db.endCycle t c .committed) (L.addCycle t reached) := by
  refine (h.endCycle (t := t) (c := c) rfl).addCommit (hh.endCycle rfl)
    (fun t' c' hc' w hw _ p hp hmeets => ?_) (fun b hb => ?_) fun w hw => ?_
  · rcases get?_setTxn hc' with ⟨hne, hc'⟩ | ⟨-, hfinal⟩
    · obtain ⟨hcell, key, hkey, hkey'⟩ := hmeets
      exact absurd ⟨w, hw, hcell, hkey⟩ (hd.disjoint hv hc hc' hne ⟨p, hp, rfl, hkey'⟩)
    · cases hfinal
  · obtain rfl := Option.some.inj hb
    exact h.active t c hc
  · exact ⟨(hd.opened t c hc w hw).1, fun hb => nomatch hb⟩

theorem beginTxn (h : Conflicts db L) {t : Nat} (now : Nat) :
    Conflicts
      { db.setCycle t { id := db.nextCycle, view := db.published, started := now } with
        nextCycle := db.nextCycle + 1
        pins := db.pins.pin db.published }
      (L.addBegin t) :=
  have hold : ∀ t' c, (db.setCycle t
        { id := db.nextCycle, view := db.published, started := now }).txns.get? t' =
      some (.active c) → ∀ w ∈ ((L.addBegin t).drafts t').writes,
      db.txns.get? t' = some (.active c) ∧ (L.addBegin t).drafts t' = L.drafts t' := by
    intro t' c hc w hw
    rcases get?_setTxn hc with ⟨hne, hold⟩ | ⟨rfl, -⟩
    · exact ⟨hold, L.drafts_addBegin_of_ne hne⟩
    · rw [L.drafts_addBegin_self] at hw
      cases hw
  { h with
    active := fun t' c hc cm hcm w hw => by
      obtain ⟨hc, hsame⟩ := hold t' c hc w hw
      rw [hsame] at hcm hw
      exact h.active t' c hc cm hcm w hw
    handles := fun t' c hc w hw => by
      obtain ⟨hc, hsame⟩ := hold t' c hc w hw
      rw [hsame] at hw
      exact h.handles t' c hc w hw }

/-- A cycle that stays active, with what is noted for it. -/
theorem setCycle (h : Conflicts db L) {t : Nat} {c : Cycle} (c' : Cycle)
    (hc : db.txns.get? t = some (.active c)) : Conflicts (db.setCycle t c') L :=
  { h with
    active := fun t' c₁ h₁ => by
      obtain ⟨c₀, h₀, -⟩ := active_of_setCycle (fun _ => ()) hc rfl h₁
      exact h.active t' c₀ h₀
    handles := fun t' c₁ h₁ => by
      obtain ⟨c₀, h₀, -⟩ := active_of_setCycle (fun _ => ()) hc rfl h₁
      exact h.handles t' c₀ h₀ }

theorem addFileFault (h : Conflicts db L) : Conflicts db L.addFileFault :=
  { h with
    active := fun t c hc cm hcm w hw => spares_of_fileFault (h.active t c hc cm hcm w hw)
    committed := fun j c b hj hb cm hcm w hw =>
      spares_of_fileFault (h.committed j c b hj hb cm hcm w hw) }

theorem openStore (h : Conflicts db L) (hr : Registry db L) (hd : Drafts db L) (hn : Handle) :
    Conflicts { db with handles := db.handles.add hn } (L.addOpening hn) :=
  { h with
    handles := fun t c hc w hw n h' hget hcell => by
      rcases Pool.get?_add_eq_some hget with hget | ⟨rfl, -⟩
      · exact h.handles t c hc w hw n h' hget hcell
      · exact .inr (hr.openings ▸ (hd.opened t c hc w hw).2)
    openings := fun c hc w hw => by
      obtain ⟨hopening, hreached⟩ := h.openings c hc w hw
      refine ⟨?_, hreached⟩
      unfold Ledger.addOpening
      rw [List.getElem?_append_left (List.getElem?_eq_some_iff.1 hopening).1]
      exact hopening }

theorem opened (h : db.Opened) : Conflicts db (Ledger.opened db) := by
  have hnone := not_active_of_opened h
  exact ⟨fun t c hc => absurd hc (hnone t c), fun j c b hj => by simp [Ledger.opened] at hj,
    fun t c hc => absurd hc (hnone t c), fun c hc => absurd hc List.not_mem_nil⟩

/-- Every step keeps the conflicts in order. -/
theorem step (hr : Registry db L) (hv : HeldViews db) (hd : Drafts db L) (hh : History db L)
    (hstep : Step db L db' L') (h : Conflicts db L) : Conflicts db' L' := by
  cases hstep with
  | fileFault => exact h.addFileFault
  | delist => exact { h.addFileFault with }
  | openStore settings hname hs hopen => exact { h.openStore hr hd ⟨_, settings⟩ with }
  | closeStore hget =>
    exact { h with
      handles := fun t c hc w hw n h' hn => by
        have hold : db.handles.get? n = some h' := by
          rw [Pool.get?_remove] at hn
          split at hn
          · cases hn
          · exact hn
        exact h.handles t c hc w hw n h' hold }
  | plain change hget hs hplain => exact { h.plain hr hd hh change hget hplain with }
  | allocTxn =>
    exact { h with
      active := fun t c hc => h.active t c (active_of_allocTxn hc)
      handles := fun t c hc => h.handles t c (active_of_allocTxn hc) }
  | beginTxn now hx hidle => exact h.beginTxn now
  | doom hc => exact h.setCycle _ hc
  | write change hc hget hs hbound hclaim hfresh => exact h.write hr hh _ hc hget hs hfresh
  | endCycle hc => exact h.endCycle rfl
  | @commit t c hc hdoomed =>
    obtain ⟨cells, published, heq, -⟩ := publish_spec hr.ids c
    rw [heq]
    exact { h.commit hd hv hh db.stores.values hc with }
  | list | number | createStore | dropStore | saved | close | claim | openCursor | closeCursor
  | moveCursor | refreshCursor | compact => exact { h with }

/-- The conflicts are in order in all that is reached. -/
theorem of_reached (h : Reached db L) : Conflicts db L := by
  induction h with
  | opened hdb => exact opened hdb
  | step hr hstep ih =>
    exact step (.of_reached hr) (.of_reached hr) (.of_reached hr) (.of_reached hr) hstep ih

end Conflicts

/-! ## First committer wins -/

/-- A cycle that was active with another one commits after it. Then the other decided no key that it
decides. -/
theorem ConflictsLemmas.disjoint_of_lt {s : Site} {L : Ledger} (hrun : Run s L)
    (hfiles : L.fileFault = false) {i j b' : Nat} {c c' : Commit} (hi : L.commits[i]? = some c)
    (hj : L.commits[j]? = some c') (hb : c.began.isSome) (hb' : c'.began = some b') (hlt : i < j)
    (hle : b' ≤ i) {cell : Nat} {key : Bytes} (hc : Decides c.writes cell key) :
    ¬ Decides c'.writes cell key := by
  rintro ⟨w, hw, hcell, hkey⟩
  obtain ⟨p, hp, hcell', hkey'⟩ := hc
  have hmem : c ∈ (L.commits.take j).drop b' := by
    rw [List.mem_iff_getElem?]
    refine ⟨i - b', ?_⟩
    rw [List.getElem?_drop, Nat.add_sub_cancel' hle, List.getElem?_take_of_lt hlt, hi]
  have hspares := (Conflicts.of_reached hrun.reached).committed j c' b' hj hb' c hmem w hw
  obtain ⟨hplain, -⟩ := hspares (.inr hfiles) p hp ⟨hcell.trans hcell'.symm, key, hkey, hkey'⟩
  rw [hplain] at hb
  cases hb

/-- In every run in which no file operation failed: two cycles that both committed, each begun before
the other committed, decided no common key of a store. -/
theorem commits_disjoint {s : Site} {L : Ledger} (hrun : Run s L) (hfiles : L.fileFault = false)
    {i j b b' : Nat} {c c' : Commit} (hne : i ≠ j) (hi : L.commits[i]? = some c)
    (hj : L.commits[j]? = some c') (hb : c.began = some b) (hb' : c'.began = some b') (hij : b ≤ j)
    (hji : b' ≤ i) (cell : Nat) (key : Bytes) :
    ¬ (Decides c.writes cell key ∧ Decides c'.writes cell key) := by
  rintro ⟨hc, hc'⟩
  rcases Nat.lt_or_gt_of_ne hne with hlt | hgt
  · exact disjoint_of_lt hrun hfiles hi hj (hb ▸ rfl) hb' hlt hji hc hc'
  · exact disjoint_of_lt hrun hfiles hj hi (hb' ▸ rfl) hb hgt hij hc' hc

/-- Two cycles at the same time that write different keys; both commit. -/
def twoCommits : List Event :=
  [.call 0 (.openStore "a" ["transactions.enabled=true"]), .call 0 .allocTxn, .call 0 .allocTxn,
    .call 0 (.beginTxn 0), .call 0 (.beginTxn 1), .call 0 (.write 0 (some 0) (.put [107] [1])),
    .call 0 (.write 0 (some 1) (.deletePrefix [108])), .call 0 (.commitTxn 1),
    .call 0 (.commitTxn 0)]

set_option maxRecDepth 2000 in
/-- The two cycles were active together and both committed, with a write each; no key is decided by
both. -/
theorem commits_disjoint_two :
    ∃ c c', (playSmall twoCommits).2.commits = [c, c'] ∧
      c.writes.length = 1 ∧ c'.writes.length = 1 ∧
      c.began = some 0 ∧ c'.began = some 0 ∧
      ∀ cell key, ¬ (Decides c.writes cell key ∧ Decides c'.writes cell key) := by
  obtain ⟨c, c', hcommits, hfiles, hwrites, hwrites', hbegan, hbegan'⟩ :
      ∃ c c', (playSmall twoCommits).2.commits = [c, c'] ∧
        (playSmall twoCommits).2.fileFault = false ∧ c.writes.length = 1 ∧
        c'.writes.length = 1 ∧ c.began = some 0 ∧ c'.began = some 0 :=
    ⟨_, _, rfl, rfl, rfl, rfl, rfl, rfl⟩
  have hfirst : (playSmall twoCommits).2.commits[0]? = some c := by rw [hcommits]; rfl
  have hsecond : (playSmall twoCommits).2.commits[1]? = some c' := by rw [hcommits]; rfl
  exact ⟨c, c', hcommits, hwrites, hwrites', hbegan, hbegan', commits_disjoint
    (run_playSmall twoCommits) hfiles Nat.zero_ne_one hfirst hsecond hbegan hbegan' (Nat.zero_le 1)
    (Nat.zero_le 0)⟩

/-! ## Writes without transaction -/

/-- In every run: when a cycle committed and a write without transaction was made between its begin
and its commit, they decided a common key of a store only if the handle of that write was opened,
not for transactions, after the write of the cycle had been accepted. -/
theorem plain_write_overtakes {s : Site} {L : Ledger} (hrun : Run s L) {i j b : Nat}
    {plain c : Commit} (hi : L.commits[i]? = some plain) (hplain : plain.began = none)
    (hj : L.commits[j]? = some c) (hb : c.began = some b) (hbi : b ≤ i) (hij : i < j) {p w : Write}
    (hp : p ∈ plain.writes) (hw : w ∈ c.writes) (hmeets : w.Meets p) :
    L.openings[w.handle]? = some ⟨w.cell, true⟩ ∧ L.openings[p.handle]? = some ⟨w.cell, false⟩ ∧
      w.opened ≤ p.handle := by
  have hconflicts := Conflicts.of_reached hrun.reached
  have hmem : plain ∈ (L.commits.take j).drop b := by
    rw [List.mem_iff_getElem?]
    refine ⟨i - b, ?_⟩
    rw [List.getElem?_drop, Nat.add_sub_cancel' hbi, List.getElem?_take_of_lt hij, hi]
  obtain ⟨-, hle⟩ := hconflicts.committed j c b hj hb plain hmem w hw (.inl hplain) p hp hmeets
  have hopening := (hconflicts.openings c (List.mem_of_getElem? hj) w hw).1
  have hopening' := (hconflicts.openings plain (List.mem_of_getElem? hi) p hp).1
  rw [hb] at hopening
  rw [hplain, ← hmeets.1] at hopening'
  exact ⟨hopening, hopening', hle⟩

/-- A store is closed and opened again, not for transactions, while a cycle has written to it. -/
def reopened : List Event :=
  [.call 0 (.openStore "a" ["transactions.enabled=true"]), .call 0 .allocTxn,
    .call 0 (.beginTxn 0), .call 0 (.write 0 (some 0) (.put [107] [1])), .call 0 (.closeStore 0),
    .call 0 (.openStore "a" []), .call 0 (.write 1 none (.put [107] [2])), .call 0 (.commitTxn 0)]

namespace ConflictsLemmas

set_option maxRecDepth 2000 in
/-- Both writes are committed, that of the cycle last. -/
theorem commits_reopened :
    (playSmall reopened).2.commits[0]? = some ⟨none, [⟨1, 0, .put [107] [2], 2⟩], [0]⟩ ∧
      (playSmall reopened).2.commits[1]? = some ⟨some 0, [⟨0, 0, .put [107] [1], 1⟩], [0]⟩ ∧
      (playSmall reopened).2.fileFault = false ∧ (playSmall reopened).2.value 0 [107] = some [1] :=
  ⟨rfl, rfl, rfl, rfl⟩

theorem covers_put (key value : Bytes) : (Change.put key value).covers key = true := BEq.rfl

end ConflictsLemmas

/-- The two writes to the store that was opened again: the second handle is not for transactions and
was opened after the write of the cycle. -/
theorem plain_write_overtakes_reopened :
    (playSmall reopened).2.openings[0]? = some ⟨0, true⟩ ∧
      (playSmall reopened).2.openings[1]? = some ⟨0, false⟩ ∧ 1 ≤ 1 := by
  obtain ⟨hfirst, hsecond, -⟩ := commits_reopened
  have hovertakes := plain_write_overtakes (run_playSmall reopened) hfirst rfl hsecond rfl
    (Nat.zero_le 0) Nat.zero_lt_one (List.mem_singleton_self _) (List.mem_singleton_self _)
    ⟨rfl, [107], covers_put [107] [1], covers_put [107] [2]⟩
  exact hovertakes

/-- So a cycle may commit over a write without transaction that came after its begin, although no
file operation failed. -/
theorem plain_write_lost :
    ¬ ∀ (s : Site) (L : Ledger), Run s L → L.fileFault = false →
      ∀ (i j b : Nat) (plain c : Commit), L.commits[i]? = some plain → plain.began = none →
        L.commits[j]? = some c → c.began = some b → b ≤ i → i < j →
        ∀ cell key, ¬ (Decides plain.writes cell key ∧ Decides c.writes cell key) := by
  intro h
  obtain ⟨hfirst, hsecond, hfiles, -⟩ := commits_reopened
  exact h _ _ (run_playSmall reopened) hfiles 0 1 0 _ _ hfirst rfl hsecond rfl (Nat.zero_le 0)
    Nat.zero_lt_one 0 [107]
    ⟨⟨_, List.mem_singleton_self _, rfl, covers_put [107] [2]⟩,
      ⟨_, List.mem_singleton_self _, rfl, covers_put [107] [1]⟩⟩

end SnapshotKv
