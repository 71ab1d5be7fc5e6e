import SnapshotKv.Proofs.Durability

/-!
# Save points

Sync and close save the stores of a database one after another, each in a file of its own, and stop at
the first file that cannot be replaced. What a later opening finds of each store is what the store had
at some point of the history of commits. Stores may be at different points after a save has failed,
but no store is older than the last save that succeeded, and while none fails they are all as old.

Results:
1. `Ledger.valueAt_after`: the past does not change.
2. `Session`: a database since it was opened, with the last save that succeeded.
3. `SavedIn`: what the data files hold meanwhile; `SavedIn.next`: what one event makes of it.
4. `reopened_at_save_points`: what a database has that is opened again; `commit_torn_apart`: a commit
   that it has in one store only.
-/

namespace SnapshotKv

open Storage FileSystem

/-! ## 1. The past -/

/-- Events only add commits. -/
theorem Ledger.commits_after (L : Ledger) (s : Site) (e : Event) :
    L.commits <+: (L.after s e).commits := by
  unfold Ledger.after
  split
  · split <;> exact List.prefix_rfl
  · next c _ =>
    unfold Ledger.afterCall
    split <;> first
      | exact List.prefix_rfl
      | exact List.prefix_append _ _
      | (split <;> first | exact List.prefix_rfl | exact List.prefix_append _ _)
  · exact List.prefix_rfl

/-- What the first commits left stays what they left. -/
theorem Ledger.valueAt_after {L : Ledger} {n : Nat} (hn : n ≤ L.commits.length) (s : Site) (e : Event)
    (cell : Nat) (key : Bytes) : (L.after s e).valueAt n cell key = L.valueAt n cell key := by
  obtain ⟨more, hmore⟩ := L.commits_after s e
  unfold Ledger.valueAt
  rw [DurabilityLemmas.loaded_after, ← hmore, List.take_append_of_le_length hn]

/-- No commit left anything in a store that is still to come. -/
theorem History.valueAt_new {db : Database} {L : Ledger} (h : History db L) (n : Nat) (key : Bytes) :
    L.valueAt n db.cells.nextId key = none := by
  have hnone : ((L.commits.take n).flatMap fun c => changesTo c.writes db.cells.nextId) = [] := by
    refine List.flatMap_eq_nil_iff.2 fun c hc => List.map_eq_nil_iff.2 (List.filter_eq_nil_iff.2 ?_)
    intro w hw heq
    have hlt := h.written c (List.mem_of_mem_take hc) w hw
    rw [eq_of_beq heq] at hlt
    exact Nat.lt_irrefl _ hlt
  unfold Ledger.valueAt
  rw [hnone]
  exact h.unloaded _ (Nat.le_refl _) key

/-! ## 2. Openings and their saves -/

/-- Whether a call saves the contents of the stores. -/
def Call.saves : Call → Bool
  | .sync | .close => true
  | _ => false

/-- Whether an event is a call that saves the contents of the stores. -/
def Event.saves : Event → Bool
  | .call _ c => c.saves
  | .files _ => false

/-- The points of the history at which stores can be on disk, each as a number of commits: a save that
succeeds leaves one point, and one that fails leaves one more. A database that is closed saves
nothing. -/
def Event.pointsAfter (e : Event) (s : Site) (L : Ledger) (points : List Nat) : List Nat :=
  if e.saves && !s.db.closed then
    match e.answer s with
    | .ok _ => [L.commits.length]
    | .error _ => points ++ [L.commits.length]
  else points

/-- A database since it was opened in the course of a life, with the points at which its stores can be
on disk: the opening or the last save that succeeded, and the saves that have failed since. -/
inductive Session (home : String) : Site → Ledger → List Nat → Prop
  | opened {params : List String} {fs fs' : FileSystem} {db : Database}
      (hlife : Life home (.closed fs)) (hopen : (openDatabase home params).on fs = (.ok db, fs'))
      (hwritable : db.settings.readOnly = false) :
      Session home ⟨db, fs'⟩ (Ledger.opened db) [0]
  | event {s : Site} {L : Ledger} {points : List Nat} (e : Event)
      (hsession : Session home s L points) (hbounded : s.db.Bounded)
      (hbenign : e.Benign home s) :
      Session home (e.next s) (L.after s e) (e.pointsAfter s L points)

theorem Session.life {home : String} {s : Site} {L : Ledger} {points : List Nat}
    (h : Session home s L points) : Life home (.opened s L) := by
  induction h with
  | opened hlife hopen hwritable => exact .opened hlife hopen hwritable
  | event e _ hbounded hbenign ih => exact .event e ih hbounded hbenign

/-! ## 3. What the data files hold -/

/-- The data file of a store has what the first `n` commits left in the store. -/
def SavedAs (s : Site) (L : Ledger) (name : String) (cell n : Nat) : Prop :=
  ∃ len m, Keeps (s.fs.entryAt (s.db.catalog.dataFile name)) len m ∧
    ∀ key, m.get? key = L.valueAt n cell key

/-- Every store that can be found is on disk as of one of the points. -/
structure SavedIn (s : Site) (L : Ledger) (points : List Nat) : Prop where
  ne_nil : points ≠ []
  le : ∀ n ∈ points, n ≤ L.commits.length
  stores : ∀ name cell, s.db.stores.get? name = some cell →
    ∃ n ∈ points, SavedAs s L name cell n

/-- What holds while the stores are saved one by one. -/
structure Saving (home : String) (L : Ledger) (points : List Nat) (s : Site) : Prop where
  disk : OnDisk home s
  savable : s.db.Savable
  current : ∀ name cell st, s.db.stores.get? name = some cell → s.db.cells.get? cell = some st →
    ∀ key, st.tree.get key s.db.published = L.value cell key
  saved : SavedIn s L points
  now_mem : L.commits.length ∈ points

namespace SavePointLemmas

variable {home : String} {s s' : Site} {L : Ledger} {points : List Nat}

/-- A data file that is as it was. -/
theorem savedAs_of_entryAt {name : String} {cell n : Nat} (h : SavedAs s L name cell n)
    (hentry : s'.fs.entryAt (s'.db.catalog.dataFile name) =
      s.fs.entryAt (s.db.catalog.dataFile name)) : SavedAs s' L name cell n := by
  obtain ⟨len, m, hkeeps, hvalues⟩ := h
  exact ⟨len, m, hentry ▸ hkeeps, hvalues⟩

/-- Stores that can be found have data files that are as they were. -/
theorem savedIn_of_entryAt (h : SavedIn s L points)
    (hentry : ∀ name cell, s'.db.stores.get? name = some cell → s.db.stores.get? name = some cell ∧
      s'.fs.entryAt (s'.db.catalog.dataFile name) =
        s.fs.entryAt (s.db.catalog.dataFile name)) : SavedIn s' L points where
  ne_nil := h.ne_nil
  le := h.le
  stores := fun name cell hname => by
    obtain ⟨hfound, hsame⟩ := hentry name cell hname
    obtain ⟨n, hn, hsaved⟩ := h.stores name cell hfound
    exact ⟨n, hn, savedAs_of_entryAt hsaved hsame⟩

/-- Later commits do not change what was saved. -/
theorem savedIn_after (h : SavedIn s' L points) (s : Site) (e : Event) :
    SavedIn s' (L.after s e) points where
  ne_nil := h.ne_nil
  le := fun n hn => Nat.le_trans (h.le n hn) (L.commits_after s e).length_le
  stores := fun name cell hname => by
    obtain ⟨n, hn, len, m, hkeeps, hvalues⟩ := h.stores name cell hname
    refine ⟨n, hn, len, m, hkeeps, fun key => ?_⟩
    rw [hvalues, Ledger.valueAt_after (h.le n hn)]

/-- When no store is dirty, all are on disk as of now. -/
theorem savedIn_of_clean (hrun : Run s L) (hdisk : OnDisk home s)
    (hclean : ∀ cell st, cell ∈ s.db.stores.values → s.db.cells.get? cell = some st →
      st.dirty = false) : SavedIn s L [L.commits.length] where
  ne_nil := List.cons_ne_nil _ _
  le := fun n hn => Nat.le_of_eq (List.mem_singleton.1 hn)
  stores := fun name cell hname => by
    obtain ⟨st, -, hs, -⟩ := hdisk.listed.stores name cell hname
    have hdirty := hclean cell st ((SortedMap.mem_values_iff _).2 ⟨name, hname⟩) hs
    refine ⟨_, List.mem_singleton_self _, _, _, hdisk.clean name cell st hname hs hdirty,
      fun key => ?_⟩
    rw [VersionTree.get?_contents]
    exact hrun.get_eq_value hname hs key

/-! ### Saves -/

theorem saving_of_run (hrun : Run s L) (hdisk : OnDisk home s) (hsavable : s.db.Savable)
    (h : SavedIn s L points) : Saving home L (points ++ [L.commits.length]) s where
  disk := hdisk
  savable := hsavable
  current := fun _ _ _ hname hs key => hrun.get_eq_value hname hs key
  saved :=
    { ne_nil := List.append_ne_nil_of_left_ne_nil h.ne_nil _
      le := fun n hn => by
        rcases List.mem_append.1 hn with hn | hn
        · exact h.le n hn
        · exact Nat.le_of_eq (List.mem_singleton.1 hn)
      stores := fun name cell hname => by
        obtain ⟨n, hn, hsaved⟩ := h.stores name cell hname
        exact ⟨n, List.mem_append_left _ hn, hsaved⟩ }
  now_mem := List.mem_append_right _ (List.mem_singleton_self _)

/-- Saving a store, well or not, leaves the data file of each store as it was or brings it up to
now. -/
theorem saving_saved {cell : Nat} {o : Except Fault Unit × Site} (h : Saving home L points s)
    (hcell : cell ∈ s.db.stores.values) (hends : Saved s cell o) : Saving home L points o.2 := by
  obtain ⟨cells, heq⟩ := hends.same
  have hstores : o.2.db.stores = s.db.stores := hends.stores
  have hcatalog : o.2.db.catalog = s.db.catalog := by rw [heq]
  have hpublished : o.2.db.published = s.db.published := by rw [heq]
  refine ⟨h.disk.saved hcell hends h.savable, hends.savable h.savable, ?_,
    ⟨h.saved.ne_nil, h.saved.le, ?_⟩, h.now_mem⟩
  · intro name i st' hname hs' key
    obtain ⟨st, hs, htree⟩ := hends.tree hs'
    rw [htree, hpublished]
    exact h.current name i st (hstores ▸ hname) hs key
  · intro name i hname
    rw [hstores] at hname
    obtain ⟨st, -, hs, -⟩ := h.disk.listed.stores name i hname
    obtain ⟨n, hn, hsaved⟩ := h.saved.stores name i hname
    rcases h.disk.file_saved hcell hends h.savable hname hs with hsame | hkeeps
    · exact ⟨n, hn, savedAs_of_entryAt hsaved (by rw [hcatalog, hsame])⟩
    · refine ⟨_, h.now_mem, st.prefixLength, _, hcatalog.symm ▸ hkeeps, fun key => ?_⟩
      rw [VersionTree.get?_contents]
      exact h.current name i st hname hs key

theorem savedIn_sync (h : Saving home L points s) : SavedIn (sync.on s).2 L points :=
  (sync_induct (P := Saving home L points)
    (fun _ _ _ hcell hends h => saving_saved h hcell hends) h).saved

theorem savedIn_close (h : Saving home L points s) (hopen : s.db.closed = false) :
    SavedIn (close.on s).2 L points := by
  have hmarked : Saving home L points ⟨{ s.db with closed := true }, s.fs⟩ :=
    ⟨h.disk.marked, h.savable, h.current, ⟨h.saved.ne_nil, h.saved.le, h.saved.stores⟩, h.now_mem⟩
  have hpersisted := (persist_induct (P := Saving home L points)
    (fun _ _ _ hcell hends h => saving_saved h hcell hends) hmarked).saved
  rw [on_close, hopen]
  -- giving up the lock does not touch the data files
  exact savedIn_of_entryAt hpersisted fun name cell hname => ⟨hname, entryAt_locked _ _ _⟩

/-! ### Stores that were made or dropped -/

theorem savedIn_created (hrun : Run s L) (hdisk : OnDisk home s) (hbounded : s.db.Bounded)
    {name : String} {params : List String} {o : Except Fault Unit × Site}
    (hends : Creation s name params o)
    (hfiles : ∀ f, o.1 = .error f → Cause.systemCall ∉ f.causes) (h : SavedIn s L points) :
    SavedIn o.2 L points := by
  have hdisk' := hdisk.created hends hbounded hfiles
  cases hends with
  | refused hcheck => exact h
  | unwritten hcheck hfile =>
    have hname := (Database.checkCreate_eq_ok_iff.1 hcheck).sound
    have hfault := (replaceFile_spec (isName_dataFileName hname) _ _ _ hfile).2.1 _ rfl
    exact absurd hfault.1 (hfiles _ rfl)
  | unsaved hcheck hfile hsave =>
    have hfault := (replaceFile_spec isName_catalog _ _ _ hsave).2.1 _ rfl
    exact absurd hfault.1 (hfiles _ rfl)
  | @made len fs fs' hcheck hfile hsave =>
    have hname := (Database.checkCreate_eq_ok_iff.1 hcheck).sound
    have hchanged := hdisk.changedAt_made hname hfile hsave
    refine ⟨h.ne_nil, h.le, fun name' cell hcell => ?_⟩
    rcases OnDiskLemmas.found_withStore hcell with ⟨rfl, rfl⟩ | ⟨hne, hfound⟩
    · -- the new store is empty, as it was at every point of the past
      obtain ⟨n, hn⟩ := List.exists_mem_of_ne_nil points h.ne_nil
      refine ⟨n, hn, _, _,
        hdisk'.clean name' _ _ hcell (OnDiskLemmas.cell_withStore s.db name' len) rfl,
        fun key => ?_⟩
      rw [(History.of_reached hrun.reached).valueAt_new]
      rfl
    · obtain ⟨n, hn, hsaved⟩ := h.stores name' cell hfound
      obtain ⟨-, r, -, hr, rfl, -⟩ := hdisk.listed.stores name' cell hfound
      exact ⟨n, hn, savedAs_of_entryAt hsaved (hchanged.stores r hr hne)⟩

theorem savedIn_removed (hdisk : OnDisk home s) {name : String} {o : Except Fault Unit × Site}
    (hends : Removal s name o) (hfiles : ∀ f, o.1 = .error f → Cause.systemCall ∉ f.causes)
    (h : SavedIn s L points) : SavedIn o.2 L points := by
  cases hends with
  | refused hcheck => exact h
  | unsaved hcheck hsave =>
    have hfault := (replaceFile_spec isName_catalog _ _ _ hsave).2.1 _ rfl
    exact absurd hfault.1 (hfiles _ rfl)
  | unremoved hcheck hsave hfile =>
    obtain ⟨cell, st, hcan⟩ := Database.canDrop_of_checkDrop hcheck
    have hfault := (removeIfExists_spec (hdisk.isName_of_found hcan.found) _ _ hfile).1 _ rfl
    exact absurd hfault.1 (hfiles _ rfl)
  | dropped hcheck hsave hfile =>
    obtain ⟨dropped, st, hcan⟩ := Database.canDrop_of_checkDrop hcheck
    have hchanged := hdisk.changedAt_dropped hcan.found hsave hfile
    refine savedIn_of_entryAt h fun name' cell hcell => ?_
    obtain ⟨hne, hfound⟩ := OnDiskLemmas.found_erase hcell
    obtain ⟨-, r, -, hr, rfl, -⟩ := hdisk.listed.stores name' cell hfound
    exact ⟨hfound, hchanged.stores r hr hne⟩

/-! ### Events -/

theorem pointsAfter_of_not_saves {e : Event} (h : e.saves = false) :
    e.pointsAfter s L points = points := by
  simp only [Event.pointsAfter, h, Bool.false_and, Bool.false_eq_true, ↓reduceIte]

/-- An event that saves nothing. -/
theorem savedIn_other (hrun : Run s L) (hdisk : OnDisk home s) (hbounded : s.db.Bounded) {e : Event}
    (hbenign : e.Benign home s) (hsaves : e.saves = false) (h : SavedIn s L points) :
    SavedIn (e.next s) L points := by
  cases e with
  | files fs =>
    refine savedIn_of_entryAt h fun name cell hname => ⟨hname, ?_⟩
    obtain ⟨-, r, -, hr, rfl, -⟩ := hdisk.listed.stores name cell hname
    exact hbenign.1.stores r hr
  | call now c =>
    cases hwrites : c.writesFiles with
    | false =>
      obtain ⟨hretains, hfs⟩ := c.retains hwrites now s
      refine savedIn_of_entryAt h fun name cell hname => ⟨hretains.stores ▸ hname, ?_⟩
      show ((c.attempt now).on s).2.fs.entryAt _ = _
      rw [hfs, ← hretains.catalog]
      rfl
    | true =>
      cases c with
      | createStore name params =>
        rw [Event.next, Event.attempt, Call.attempt, Attempt.on_map]
        exact savedIn_created hrun hdisk hbounded (creation s name params)
          (fun f hf => hbenign rfl f (DurabilityLemmas.error_of_map hf)) h
      | dropStore name =>
        rw [Event.next, Event.attempt, Call.attempt, Attempt.on_map]
        exact savedIn_removed hdisk (removal s name)
          (fun f hf => hbenign rfl f (DurabilityLemmas.error_of_map hf)) h
      | sync | close => cases hsaves
      | _ => cases hwrites

/-- A save of an open database that succeeds brings all stores up to now; after one that fails, some
may be where they were. -/
theorem savedIn_save (hrun : Run s L) (hdisk : OnDisk home s) (hsavable : s.db.Savable)
    (hopen : s.db.closed = false) {now : Nat} {c : Call} (hsaves : c.saves = true)
    (hdisk' : OnDisk home ((Event.call now c).next s)) (h : SavedIn s L points) :
    SavedIn ((Event.call now c).next s) (L.after s (.call now c))
      ((Event.call now c).pointsAfter s L points) := by
  have hsaving := saving_of_run hrun hdisk hsavable h
  have hafter : (Event.call now c).pointsAfter s L points =
      match (Event.call now c).answer s with
      | .ok _ => [L.commits.length]
      | .error _ => points ++ [L.commits.length] := by
    simp only [Event.pointsAfter, Event.saves, hsaves, hopen, Bool.not_false, Bool.and_self,
      ↓reduceIte]
  rw [hafter]
  cases hanswer : (Event.call now c).answer s with
  | error f =>
    refine savedIn_after ?_ s (.call now c)
    cases c with
    | sync =>
      rw [Event.next, Event.attempt, Call.attempt, Attempt.on_map]
      exact savedIn_sync hsaving
    | close =>
      rw [Event.next, Event.attempt, Call.attempt, Attempt.on_map]
      exact savedIn_close hsaving hopen
    | _ => cases hsaves
  | ok r =>
    have hrun' := Run.step (.call now c) hrun
    have hledger : L.after s (.call now c) = L := by
      unfold Ledger.after
      rw [hanswer]
      cases c with
      | sync | close => rfl
      | _ => cases hsaves
    rw [hledger] at hrun' ⊢
    refine savedIn_of_clean hrun' hdisk' fun cell st hcell hs => ?_
    have hon : (c.attempt now).on s = (.ok r, (Event.call now c).next s) := Prod.ext hanswer rfl
    cases c with
    | sync =>
      have hsync : sync.on s = (.ok (), _) := DurabilityLemmas.ok_of_map hon
      have hstores : (sync.on s).2.db.stores = s.db.stores :=
        sync_induct (P := fun s' => s'.db.stores = s.db.stores)
          (fun _ _ _ _ hends h => hends.stores.trans h) rfl
      rw [hsync] at hstores
      exact clean_of_sync hsync hdisk.writable (hstores ▸ hcell) hs
    | close =>
      have hclose : close.on s = (.ok (), _) := DurabilityLemmas.ok_of_map hon
      obtain ⟨cells, hsame⟩ := close_same hopen
      rw [hclose] at hsame
      have hstores := congrArg Database.stores hsame
      exact clean_of_close hclose hopen hdisk.writable (hstores ▸ hcell) hs
    | _ => cases hsaves

/-- A database that is closed saves nothing. -/
theorem next_of_closed (hclosed : s.db.closed = true) {now : Nat} {c : Call}
    (hsaves : c.saves = true) : (Event.call now c).next s = s := by
  cases c with
  | sync =>
    rw [Event.next, Event.attempt, Call.attempt, Attempt.on_map]
    simp only [sync, Attempt.on_bind, Attempt.on_get, Attempt.on_check, Database.checkOpen, hclosed]
    rfl
  | close =>
    rw [Event.next, Event.attempt, Call.attempt, Attempt.on_map, on_close, hclosed]
    rfl
  | _ => cases hsaves

end SavePointLemmas

open SavePointLemmas

/-- What an event makes of the files of the stores. -/
theorem SavedIn.next {home : String} {s : Site} {L : Ledger} {points : List Nat}
    (h : SavedIn s L points) (hrun : Run s L) (hdisk : OnDisk home s) (hsavable : s.db.Savable)
    (hbounded : s.db.Bounded) {e : Event} (hbenign : e.Benign home s) :
    SavedIn (e.next s) (L.after s e) (e.pointsAfter s L points) := by
  cases hsaves : e.saves with
  | false =>
    rw [pointsAfter_of_not_saves hsaves]
    exact savedIn_after (savedIn_other hrun hdisk hbounded hbenign hsaves h) s e
  | true =>
    cases e with
    | files fs => cases hsaves
    | call now c =>
      cases hclosed : s.db.closed with
      | false =>
        have hdisk' := DurabilityLemmas.onDisk_next hrun hdisk hsavable hbounded hbenign
        exact savedIn_save hrun hdisk hsavable hclosed hsaves hdisk' h
      | true =>
        have hafter : (Event.call now c).pointsAfter s L points = points := by
          simp only [Event.pointsAfter, hclosed, Bool.not_true, Bool.and_false, Bool.false_eq_true,
            ↓reduceIte]
        rw [hafter, next_of_closed hclosed hsaves]
        exact savedIn_after h s (.call now c)

theorem Session.savedIn {home : String} {s : Site} {L : Ledger} {points : List Nat}
    (h : Session home s L points) : SavedIn s L points := by
  induction h with
  | opened hlife hopen hwritable =>
    obtain ⟨c, records, hhouses⟩ := hlife.lasting
    obtain ⟨hrun, hdisk, -⟩ := DurabilityLemmas.lasting_opened hhouses hopen hwritable
    obtain ⟨hjust, -⟩ := hhouses.opened hopen
    refine savedIn_of_clean hrun hdisk fun cell st _ hs => ?_
    obtain ⟨r, -, rfl⟩ := (hjust.cells cell st).1 hs
    rfl
  | event e hsession hbounded hbenign ih =>
    obtain ⟨hrun, hdisk, hfits⟩ := hsession.life.lasting
    exact ih.next hrun hdisk (hrun.savable hfits hbounded) hbounded hbenign

/-! ## 4. What comes back -/

/-- A database has, under the same names as another one, what the commits up to some point of each
store had left there. -/
structure RestoredAt (db : Database) (s : Site) (L : Ledger) (point : String → Nat) : Prop where
  found : ∀ name,
    (∃ cell, db.stores.get? name = some cell) ↔ ∃ cell, s.db.stores.get? name = some cell
  stores : ∀ name cell, s.db.stores.get? name = some cell →
    ∃ cell' st', db.stores.get? name = some cell' ∧ db.cells.get? cell' = some st' ∧
      ∀ key, st'.tree.get key db.published = L.valueAt (point name) cell key

/-- The value of a key in the store of a name. -/
theorem RestoredAt.get_eq {db : Database} {s : Site} {L : Ledger} {point : String → Nat}
    (h : RestoredAt db s L point) {name : String} {cell cell' : Nat} {st' : Store}
    (hfound : s.db.stores.get? name = some cell) (hname : db.stores.get? name = some cell')
    (hs : db.cells.get? cell' = some st') (key : Bytes) :
    st'.tree.get key db.published = L.valueAt (point name) cell key := by
  obtain ⟨cell₁, st₁, hname₁, hs₁, hget⟩ := h.stores name cell hfound
  obtain rfl := Option.some.inj (hname.symm.trans hname₁)
  obtain rfl := Option.some.inj (hs.symm.trans hs₁)
  exact hget key

/-- At every moment since a database was opened, whatever saves failed since then: each store is on
disk as it was at one point of the history of commits, and whenever the database is opened again, the
store has what the commits up to that point left. So of the writes of a transaction to a store it has
all or none. The point is the last save that succeeded, or the opening, or a save that failed since;
while none has failed, it is the same for all stores. -/
theorem reopened_at_save_points {home : String} {s : Site} {L : Ledger} {points : List Nat}
    (h : Session home s L points) :
    (∀ n ∈ points, n ≤ L.commits.length) ∧
      ∃ point : String → Nat, (∀ name, point name ∈ points) ∧
        ∀ params fs fs' db, Undisturbed home s.db.catalog s.fs fs →
          (openDatabase home params).on fs = (.ok db, fs') → RestoredAt db s L point := by
  obtain ⟨hne, hle, hstores⟩ := h.savedIn
  obtain ⟨-, hdisk, -⟩ := h.life.lasting
  obtain ⟨records, hhouses⟩ := hdisk.houses
  have hpoint : ∀ name, ∃ n, n ∈ points ∧ ∀ cell, s.db.stores.get? name = some cell →
      SavedAs s L name cell n := by
    intro name
    cases hname : s.db.stores.get? name with
    | none =>
      obtain ⟨n, hn⟩ := List.exists_mem_of_ne_nil points hne
      exact ⟨n, hn, fun _ hno => nomatch hno⟩
    | some cell =>
      obtain ⟨n, hn, hsaved⟩ := hstores name cell hname
      exact ⟨n, hn, fun cell' hcell' => Option.some.inj hcell' ▸ hsaved⟩
  obtain ⟨point, hpoints⟩ := Classical.axiomOfChoice hpoint
  refine ⟨hle, point, fun name => (hpoints name).1, fun params fs fs' db hsame hopen => ?_⟩
  have hhouses' := hhouses.undisturbed hsame
  obtain ⟨hjust, -⟩ := hhouses'.opened hopen
  constructor
  · intro name
    rw [hjust.listed.found_iff, hdisk.listed.found_iff, hjust.catalog]
  · intro name cell hname
    obtain ⟨len, m, hkeeps, hvalues⟩ := (hpoints name).2 cell hname
    obtain ⟨-, r, -, hr, rfl, -⟩ := hdisk.listed.stores name cell hname
    obtain ⟨cell', st', hname', hs', hget⟩ :=
      DurabilityLemmas.reopened hdisk.listed hhouses' hjust hname (hsame.stores r hr ▸ hkeeps)
    exact ⟨cell', st', hname', hs', fun key => (hget key).trans (hvalues key)⟩

/-! ### A commit to two stores of which one cannot be saved -/

/-- Events that all succeed, and save nothing. -/
theorem Session.play {home : String} {s : Site} {L : Ledger} {points : List Nat}
    (h : Session home s L points) {events : List Event} (hwell : goesWell events s = true)
    (hsaves : ∀ e ∈ events, e.saves = false) :
    Session home (play events s L).1 (play events s L).2 points := by
  induction events generalizing s L with
  | nil => exact h
  | cons e rest ih =>
    cases e with
    | files fs => cases hwell
    | call now c =>
      simp only [goesWell, Bool.and_eq_true, decide_eq_true_eq] at hwell
      obtain ⟨⟨hbounded, hok⟩, hrest⟩ := hwell
      obtain ⟨hfirst, hlater⟩ := List.forall_mem_cons.1 hsaves
      have hnext := h.event (.call now c) hbounded fun _ f hf => by
        rw [hf] at hok
        cases hok
      rw [pointsAfter_of_not_saves hfirst] at hnext
      exact ih hnext hrest hlater

/-- Others change files, and then the database is closed. -/
theorem Session.closedOn {home : String} {s : Site} {L : Ledger} {points : List Nat}
    (h : Session home s L points) (hbounded : s.db.Bounded) (fs : FileSystem)
    (hbenign : (Event.files fs).Benign home s) :
    Session home (SnapshotKv.play [.files fs, .call 0 .close] s L).1
      (SnapshotKv.play [.files fs, .call 0 .close] s L).2
      ((Event.call 0 .close).pointsAfter ⟨s.db, fs⟩ L points) := by
  have hchanged := h.event (.files fs) hbounded hbenign
  rw [pointsAfter_of_not_saves rfl] at hchanged
  exact hchanged.event (.call 0 .close) hbounded fun hno => nomatch hno

/-- Two stores are made, and a transaction commits a write to each. -/
def acrossEvents : List Event :=
  [.call 0 (.createStore "a" []), .call 0 (.createStore "b" []),
    .call 0 (.openStore "a" ["transactions.enabled=true"]),
    .call 0 (.openStore "b" ["transactions.enabled=true"]), .call 0 .allocTxn, .call 0 (.beginTxn 0),
    .call 0 (.write 0 (some 0) (.put [107] [1])), .call 0 (.write 1 (some 0) (.put [107] [1])),
    .call 0 (.commitTxn 0)]

/-- The database after the commit, and what happened. -/
def across : Site × Ledger := play acrossEvents firstSite (Ledger.opened firstSite.db)

/-- The files with a directory in the way of the second store. -/
def blockedFiles : FileSystem :=
  { across.1.fs with
    entries := across.1.fs.entries.insert ["db", "capacity", "b.kvs.tmp"] .directory }

/-- The database after it was closed there. -/
def torn : Site × Ledger := play [.files blockedFiles, .call 0 .close] across.1 across.2

theorem across_spec : goesWell acrossEvents firstSite = true ∧ across.1.db.Bounded ∧
    blockedFiles.entryAt (catalogFile "/db") = across.1.fs.entryAt (catalogFile "/db") ∧
    (∀ r ∈ across.1.db.catalog.stores,
      blockedFiles.entryAt (across.1.db.catalog.dataFile r.name) =
        across.1.fs.entryAt (across.1.db.catalog.dataFile r.name)) ∧
    blockedFiles.entryAt (lockFile "/db") = across.1.fs.entryAt (lockFile "/db") := by
  decide +kernel

/-- What is on disk then: the first store has the commit, the second one has not. -/
theorem torn_spec :
    (Event.call 0 .close).pointsAfter ⟨across.1.db, blockedFiles⟩ across.2 [0] = [0, 1] ∧
    torn.1.db.stores.get? "a" = some 0 ∧ torn.1.db.stores.get? "b" = some 1 ∧
    torn.1.db.catalog.dataFile "a" = "/db/capacity/a.kvs" ∧
    torn.1.db.catalog.dataFile "b" = "/db/capacity/b.kvs" ∧
    torn.1.fs.entryAt "/db/capacity/a.kvs" =
      some (.file 6 (DataFile.encode 0 [([107], [1])])) ∧
    torn.1.fs.entryAt "/db/capacity/b.kvs" = some (.file 4 (DataFile.encode 0 [])) ∧
    readText torn.1.fs (configFile "/db") = .error Errno.noEntry ∧
    torn.1.fs.entryAt (lockFile "/db") = some (.file 1 []) ∧ 1 ∉ torn.1.fs.locked := by
  decide +kernel

theorem session_torn : Session "/db" torn.1 torn.2 [0, 1] := by
  obtain ⟨hwell, hbounded, hcatalog, hstores, hlock⟩ := across_spec
  have hacross : Session "/db" across.1 across.2 [0] :=
    Session.play (.opened life_madeHome openDatabase_madeHome rfl) hwell (by decide)
  have hlocked : blockedFiles.locked = across.1.fs.locked := by rw [blockedFiles]
  have hclosed := hacross.closedOn hbounded blockedFiles
    ⟨⟨hcatalog, hstores⟩, hlock, by rw [hlocked]⟩
  rw [torn_spec.1] at hclosed
  exact hclosed

/-- Opened again, the first store has the commit and the second one has not. -/
theorem torn_reopened : ∃ db fs, (openDatabase "/db" []).on torn.1.fs = (.ok db, fs) ∧
    (∃ cell st, db.stores.get? "a" = some cell ∧ db.cells.get? cell = some st ∧
      st.tree.get [107] db.published = some [1]) ∧
    ∃ cell st, db.stores.get? "b" = some cell ∧ db.cells.get? cell = some st ∧
      st.tree.get [107] db.published = none := by
  obtain ⟨-, ha, hb, hpatha, hpathb, hfilea, hfileb, hconfig, hlock, hfree⟩ := torn_spec
  obtain ⟨-, hdisk, -⟩ := session_torn.life.lasting
  obtain ⟨records, hhouses⟩ := hdisk.houses
  have hsettings : OpenSettings.scheme.ofLayers [({} : Config).database] [] = .ok {} := by
    decide +kernel
  obtain ⟨db, fs, hopen⟩ :=
    hhouses.openDatabase_ok (loadConfig_of_missing hconfig) hsettings hlock hfree
  obtain ⟨hjust, -⟩ := hhouses.opened hopen
  have hkeeps : Keeps (torn.1.fs.entryAt (torn.1.db.catalog.dataFile "a")) 0
      (.ofList [([107], [1])]) := by
    rw [hpatha]
    refine ⟨_, _, hfilea, DataFile.decode_encode (by decide) (fun r hr => ?_) (by decide)⟩
    rw [List.mem_singleton.1 hr]
    exact ⟨by decide, by decide⟩
  have hkeeps' : Keeps (torn.1.fs.entryAt (torn.1.db.catalog.dataFile "b")) 0 .empty := by
    rw [hpathb]
    exact ⟨_, _, hfileb, DataFile.decode_encode (by decide) (fun r hr => nomatch hr) (by decide)⟩
  obtain ⟨cell, st, hname, hs, hget⟩ :=
    DurabilityLemmas.reopened hdisk.listed hhouses hjust ha hkeeps
  obtain ⟨cell', st', hname', hs', hget'⟩ :=
    DurabilityLemmas.reopened hdisk.listed hhouses hjust hb hkeeps'
  exact ⟨db, fs, hopen, ⟨cell, st, hname, hs, hget [107]⟩, cell', st', hname', hs', hget' [107]⟩

/-- In the history both stores have the same value at every point: none at first, and then the one
that was committed. -/
theorem torn_valueAt : torn.2.valueAt 0 0 [107] = none ∧ torn.2.valueAt 0 1 [107] = none ∧
    ∀ n, torn.2.valueAt (n + 1) 0 [107] = some [1] ∧ torn.2.valueAt (n + 1) 1 [107] = some [1] := by
  have hvalues : torn.2.valueAt 0 0 [107] = none ∧ torn.2.valueAt 0 1 [107] = none ∧
      torn.2.commits.length = 1 ∧ torn.2.valueAt 1 0 [107] = some [1] ∧
      torn.2.valueAt 1 1 [107] = some [1] := by decide +kernel
  obtain ⟨ha, hb, hlength, ha', hb'⟩ := hvalues
  have hlater : ∀ n cell, torn.2.valueAt (n + 1) cell [107] = torn.2.valueAt 1 cell [107] := by
    intro n cell
    unfold Ledger.valueAt
    rw [List.take_of_length_le (by omega), List.take_of_length_le (by omega)]
  exact ⟨ha, hb, fun n => ⟨(hlater n 0).trans ha', (hlater n 1).trans hb'⟩⟩

/-- The close that failed at the second store leaves the stores at two points: the first one is at the
commit, the second one is where it was when the database was opened. -/
theorem reopened_at_save_points_torn :
    ∃ point db fs, (openDatabase "/db" []).on torn.1.fs = (.ok db, fs) ∧
      point "a" = 1 ∧ point "b" = 0 ∧ RestoredAt db torn.1 torn.2 point := by
  obtain ⟨-, point, hpoints, hrestores⟩ := reopened_at_save_points session_torn
  obtain ⟨db, fs, hopen, ⟨cell, st, hname, hs, ha⟩, cell', st', hname', hs', hb⟩ := torn_reopened
  have hrestored := hrestores [] torn.1.fs fs db ⟨rfl, fun _ _ => rfl⟩ hopen
  obtain ⟨-, hfounda, hfoundb, -⟩ := torn_spec
  obtain ⟨hstarta, -, hlater⟩ := torn_valueAt
  have hpast : ∀ name, point name = 0 ∨ point name = 1 := fun name => by simpa using hpoints name
  refine ⟨point, db, fs, hopen, ?_, ?_, hrestored⟩
  · rw [hrestored.get_eq hfounda hname hs] at ha
    refine (hpast "a").resolve_left fun hpoint => ?_
    rw [hpoint, hstarta] at ha
    cases ha
  · rw [hrestored.get_eq hfoundb hname' hs'] at hb
    refine (hpast "b").resolve_right fun hpoint => ?_
    rw [hpoint, (hlater 0).2] at hb
    cases hb

/-- No point of the history is that of all stores then: the commit is in one store and not in the
other. -/
theorem commit_torn_apart :
    Session "/db" torn.1 torn.2 [0, 1] ∧
      ∃ db fs, (openDatabase "/db" []).on torn.1.fs = (.ok db, fs) ∧
        ¬ ∃ n, RestoredAt db torn.1 torn.2 fun _ => n := by
  obtain ⟨db, fs, hopen, ⟨cell, st, hname, hs, ha⟩, cell', st', hname', hs', hb⟩ := torn_reopened
  refine ⟨session_torn, db, fs, hopen, ?_⟩
  rintro ⟨n, hrestored⟩
  obtain ⟨-, hfounda, hfoundb, -⟩ := torn_spec
  rw [hrestored.get_eq hfounda hname hs] at ha
  rw [hrestored.get_eq hfoundb hname' hs'] at hb
  obtain ⟨hstart, -, hlater⟩ := torn_valueAt
  cases n with
  | zero =>
    rw [hstart] at ha
    cases ha
  | succ n =>
    rw [(hlater n).2] at hb
    cases hb

end SnapshotKv
