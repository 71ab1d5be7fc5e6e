import SnapshotKv.FileSystem

/-!
# Paths of files in a directory

The files of a database are named by a base, which is a path of any form, and a name in it. Such a
path leads to an entry exactly when its base leads to a directory and the directory has the name. So
what it leads to depends on the directories there are and on this one entry.

Results:
1. `Path.parts_join`, `Path.join_append`: the parts of such a path.
2. `FileSystem.leads_congr`: what leads to a directory depends on the directories alone.
3. `FileSystem.place_eq_ok_iff`, `FileSystem.stat_eq_ok_iff`: where such a path leads.
-/

namespace SnapshotKv

/-! ## 1. Names in a base -/

/-- A text that names an entry of a directory. -/
structure Path.IsName (name : String) : Prop where
  nonempty : name ≠ ""
  unbroken : '/' ∉ name.toList
  notDot : name ≠ "."
  notDots : name ≠ ".."

namespace Path

theorem toList_ne_nil {name : String} (h : name ≠ "") : name.toList ≠ [] := fun hnil =>
  h (String.toList_inj.1 hnil)

variable {name : String}

theorem isAbsolute_eq_false (h : '/' ∉ name.toList) : isAbsolute name = false := by
  unfold isAbsolute
  cases hl : name.toList with
  | nil => rfl
  | cons c rest =>
    have hne : c ≠ '/' := by
      rintro rfl
      exact h (hl ▸ List.mem_cons_self)
    simpa using hne

/-- The characters of a path in a base: a slash stands between them unless the base is empty or ends
in one. -/
theorem toList_join (base : String) (h : '/' ∉ name.toList) :
    (join base name).toList = base.toList ++
      (match base.toList.getLast? with
        | none | some '/' => []
        | some _ => ['/']) ++ name.toList := by
  unfold join
  rw [isAbsolute_eq_false h, if_neg Bool.false_ne_true]
  cases hlast : base.toList.getLast? with
  | none =>
    rw [List.getLast?_eq_none_iff] at hlast
    rw [hlast]
    rfl
  | some c =>
    by_cases hc : c = '/'
    · subst hc
      show (base ++ name).toList = base.toList ++ [] ++ name.toList
      rw [String.toList_append, List.append_nil]
    · simp

theorem splitOn_unbroken {l : List Char} (h : '/' ∉ l) : l.splitOn '/' = [l] :=
  List.splitOnP_eq_singleton fun _ hc => beq_eq_false_iff_ne.2 fun heq => h (heq ▸ hc)

theorem splitOn_append (l l' : List Char) :
    (l ++ '/' :: l').splitOn '/' = l.splitOn '/' ++ l'.splitOn '/' :=
  List.splitOnP_append_cons l l' rfl

/-- The parts of a path in a base are those of the base and the name. -/
theorem parts_join (base : String) (hname : IsName name) :
    parts (join base name) = parts base ++ [name] := by
  have hone := splitOn_unbroken hname.unbroken
  have hfilter : ([name.toList].filter (!·.isEmpty)).map String.ofList = [name] := by
    simp [toList_ne_nil hname.nonempty]
  unfold parts
  rw [toList_join base hname.unbroken]
  split
  · next hlast =>
    rw [List.getLast?_eq_none_iff] at hlast
    rw [hlast, List.nil_append, List.nil_append, hone, hfilter]
    rfl
  · next hlast =>
    obtain ⟨front, hfront⟩ := List.getLast?_eq_some_iff.1 hlast
    rw [hfront, List.append_nil, List.append_assoc, List.singleton_append, splitOn_append,
      splitOn_append, hone, List.filter_append, List.map_append, List.filter_append,
      List.map_append, hfilter]
    simp
  · rw [List.append_assoc, List.singleton_append, splitOn_append, hone, List.filter_append,
      List.map_append, hfilter]

theorem join_append (base : String) (suffix : String) (h : '/' ∉ name.toList)
    (h' : '/' ∉ (name ++ suffix).toList) :
    join base name ++ suffix = join base (name ++ suffix) := by
  rw [← String.toList_inj, String.toList_append, toList_join base h, toList_join base h',
    String.toList_append, List.append_assoc]

/-- The path of a name in a base is the name behind a text that depends on the base alone. -/
theorem exists_join_eq (base : String) :
    ∃ front : String, ∀ name : String, '/' ∉ name.toList → join base name = front ++ name := by
  have hjoin : ∀ name : String, '/' ∉ name.toList → join base name =
      match base.toList.getLast? with
      | none => name
      | some '/' => base ++ name
      | some _ => base ++ "/" ++ name := by
    intro name h
    unfold join
    exact if_neg (Bool.not_eq_true _ ▸ isAbsolute_eq_false h)
  cases hlast : base.toList.getLast? with
  | none => exact ⟨"", fun name h => by rw [hjoin name h, hlast, String.empty_append]⟩
  | some c =>
    by_cases hc : c = '/'
    · subst hc
      exact ⟨base, fun name h => by rw [hjoin name h, hlast]; rfl⟩
    · refine ⟨base ++ "/", fun name h => ?_⟩
      rw [hjoin name h, hlast]
      split
      · next heq => cases heq
      · next heq => exact absurd (Option.some.inj heq) hc
      · rfl

theorem isAbsolute_join (base : String) (h : '/' ∉ name.toList) :
    isAbsolute (join base name) = isAbsolute base := by
  unfold isAbsolute
  rw [toList_join base h]
  cases hb : base.toList with
  | nil =>
    have := isAbsolute_eq_false h
    unfold isAbsolute at this
    simpa using this
  | cons c rest => simp

theorem endsInSlash_join (base : String) (hname : IsName name) :
    endsInSlash (join base name) = false := by
  have hlast : ∀ c ∈ name.toList.getLast?, (c == '/') = false := fun c hc =>
    beq_eq_false_iff_ne.2 fun heq => hname.unbroken (heq ▸ List.mem_of_mem_getLast? hc)
  unfold endsInSlash
  rw [toList_join base hname.unbroken, List.getLast?_append]
  cases hl : name.toList.getLast? with
  | none => exact absurd (List.getLast?_eq_none_iff.1 hl) (toList_ne_nil hname.nonempty)
  | some c => simpa using hlast c hl

end Path

/-! ## 2. Ways to a directory -/

namespace FileSystem

variable {fs fs' : FileSystem} {base name : String} {dir dir' : List String} {parts : List String}

/-- The parts lead from some names to a directory. -/
def Leads (fs : FileSystem) (parts : List String) (origin dir : List String) : Prop :=
  parts.foldlM fs.step origin = .ok dir ∧ fs.entry? dir = some .directory

/-- Two file systems have the same directories. -/
structure SameDirectories (fs fs' : FileSystem) : Prop where
  cwd : fs'.cwd = fs.cwd
  directories : ∀ names, fs'.entry? names = some .directory ↔ fs.entry? names = some .directory

theorem SameDirectories.refl (fs : FileSystem) : SameDirectories fs fs := ⟨rfl, fun _ => Iff.rfl⟩

theorem SameDirectories.trans {fs'' : FileSystem} (h : SameDirectories fs fs')
    (h' : SameDirectories fs' fs'') : SameDirectories fs fs'' :=
  ⟨h'.cwd.trans h.cwd, fun names => (h'.directories names).trans (h.directories names)⟩

theorem SameDirectories.symm (h : SameDirectories fs fs') : SameDirectories fs' fs :=
  ⟨h.cwd.symm, fun names => (h.directories names).symm⟩

namespace PathLemmas

theorem directory_of_step {origin next : List String} {part : String}
    (h : fs.step origin part = .ok next) : fs.entry? origin = some .directory := by
  unfold step at h
  split at h
  · next hdir => exact hdir
  · cases h
  · cases h

theorem directory_of_leads {origin : List String} (h : fs.Leads parts origin dir) :
    fs.entry? origin = some .directory := by
  obtain ⟨hwalk, hdir⟩ := h
  cases parts with
  | nil =>
    cases hwalk
    exact hdir
  | cons part rest =>
    rw [List.foldlM_cons] at hwalk
    cases hstep : fs.step origin part with
    | error e =>
      rw [hstep] at hwalk
      cases hwalk
    | ok next => exact directory_of_step hstep

/-- A step to a directory depends on the directories alone. -/
theorem step_congr (h : SameDirectories fs fs') {origin next : List String} {part : String}
    (hstep : fs.step origin part = .ok next) (hnext : fs.entry? next = some .directory) :
    fs'.step origin part = .ok next := by
  have horigin := (h.directories origin).2 (directory_of_step hstep)
  simp only [step, directory_of_step hstep] at hstep
  simp only [step, horigin]
  split at hstep
  · next hdot => rw [if_pos hdot, hstep]
  · next hdot =>
    rw [if_neg hdot]
    split at hstep
    · next hdots => rw [if_pos hdots, hstep]
    · next hdots =>
      rw [if_neg hdots]
      split at hstep
      · cases hstep
      · next hsize =>
        rw [if_neg hsize]
        split at hstep
        · cases hstep
          simp only [(h.directories _).2 hnext]
          rfl
        · cases hstep

theorem leads_of_sameDirectories (h : SameDirectories fs fs') {origin : List String}
    (hleads : fs.Leads parts origin dir) : fs'.Leads parts origin dir := by
  induction parts generalizing origin with
  | nil => exact ⟨hleads.1, (h.directories dir).2 hleads.2⟩
  | cons part rest ih =>
    obtain ⟨hwalk, hdir⟩ := hleads
    rw [List.foldlM_cons] at hwalk
    cases hstep : fs.step origin part with
    | error e =>
      rw [hstep] at hwalk
      cases hwalk
    | ok next =>
      rw [hstep] at hwalk
      obtain ⟨hwalk', hdir'⟩ := ih ⟨hwalk, hdir⟩
      refine ⟨?_, hdir'⟩
      rw [List.foldlM_cons, step_congr h hstep (directory_of_leads ⟨hwalk, hdir⟩)]
      exact hwalk'

end PathLemmas

open PathLemmas

theorem leads_congr (h : SameDirectories fs fs') {origin : List String} :
    fs'.Leads parts origin dir ↔ fs.Leads parts origin dir :=
  ⟨leads_of_sameDirectories h.symm, leads_of_sameDirectories h⟩

/-! ## 3. Where a path leads -/

theorem checkText_eq_ok_iff {path : String} :
    checkText path = .ok () ↔ path.toList.any (fun c => c.toNat == 0) = false ∧ path ≠ "" ∧
      path.utf8ByteSize < maxPath := by
  unfold checkText
  constructor
  · intro h
    split at h
    · cases h
    · next hzero =>
      split at h
      · cases h
      · next hempty =>
        split at h
        · cases h
        · next hsize =>
          rw [Bool.not_eq_true] at hzero hempty
          exact ⟨hzero, String.isEmpty_eq_false_iff.1 hempty, Nat.lt_of_not_le hsize⟩
  · rintro ⟨hzero, hempty, hsize⟩
    rw [hzero, String.isEmpty_eq_false_iff.2 hempty, if_neg Bool.false_ne_true,
      if_neg Bool.false_ne_true, if_neg (Nat.not_le.2 hsize)]
    rfl

/-- The path of a name in a base is sound and its base leads to a directory. -/
structure Spot (fs : FileSystem) (base name : String) (dir : List String) : Prop where
  text : checkText (Path.join base name) = .ok ()
  leads : fs.Leads (Path.parts base) (fs.start base) dir
  size : name.utf8ByteSize ≤ maxPart

theorem spot_congr (h : SameDirectories fs fs') :
    fs'.Spot base name dir ↔ fs.Spot base name dir := by
  have hstart : fs'.start base = fs.start base := by
    unfold start
    rw [h.cwd]
  constructor
  · rintro ⟨htext, hleads, hsize⟩
    exact ⟨htext, hstart ▸ (leads_congr h).1 hleads, hsize⟩
  · rintro ⟨htext, hleads, hsize⟩
    exact ⟨htext, hstart.symm ▸ (leads_congr h).2 hleads, hsize⟩

theorem Spot.unique (h : fs.Spot base name dir) {name' : String} (h' : fs.Spot base name' dir') :
    dir = dir' := Except.ok.inj (h.leads.1.symm.trans h'.leads.1)

/-- Names of one length stand in the same places. -/
theorem Spot.sibling (h : fs.Spot base name dir) (hname : Path.IsName name) {name' : String}
    (hname' : Path.IsName name') (hzero : name'.toList.any (fun c => c.toNat == 0) = false)
    (hsize : name'.utf8ByteSize = name.utf8ByteSize) : fs.Spot base name' dir := by
  obtain ⟨htext, hleads, hshort⟩ := h
  obtain ⟨front, hjoin⟩ := Path.exists_join_eq base
  rw [hjoin name hname.unbroken, checkText_eq_ok_iff, String.toList_append, List.any_append,
    Bool.or_eq_false_iff, String.utf8ByteSize_append] at htext
  obtain ⟨⟨hfront, -⟩, -, hlong⟩ := htext
  refine ⟨?_, hleads, hsize ▸ hshort⟩
  rw [hjoin name' hname'.unbroken, checkText_eq_ok_iff, String.toList_append, List.any_append,
    Bool.or_eq_false_iff, String.utf8ByteSize_append, hsize]
  refine ⟨⟨hfront, hzero⟩, fun hempty => ?_, hlong⟩
  have hchars := congrArg String.toList hempty
  rw [String.toList_append] at hchars
  exact Path.toList_ne_nil hname'.nonempty (List.append_eq_nil_iff.1 hchars).2

theorem start_join (hname : '/' ∉ name.toList) :
    fs.start (Path.join base name) = fs.start base := by
  unfold start
  rw [Path.isAbsolute_join base hname]

theorem place_eq_ok_iff (hname : Path.IsName name) {last : String} :
    fs.place (Path.join base name) = .ok (dir, last) ↔ fs.Spot base name dir ∧ last = name := by
  have hparts := Path.parts_join base hname
  have hstart : fs.start (Path.join base name) = fs.start base := start_join hname.unbroken
  simp only [place, hparts, List.getLast?_concat, List.dropLast_concat, hstart]
  constructor
  · intro h
    cases htext : checkText (Path.join base name) with
    | error e =>
      rw [htext] at h
      cases h
    | ok _ =>
      cases hwalk : (Path.parts base).foldlM fs.step (fs.start base) with
      | error e =>
        rw [htext, hwalk] at h
        cases h
      | ok dir' =>
        rw [htext, hwalk] at h
        simp only [bind, Except.bind] at h
        split at h
        · next hdir =>
          split at h
          · cases h
          · next hsize =>
            cases h
            exact ⟨⟨htext, ⟨hwalk, hdir⟩, Nat.le_of_not_lt hsize⟩, rfl⟩
        · cases h
        · cases h
  · rintro ⟨⟨htext, ⟨hwalk, hdir⟩, hsize⟩, rfl⟩
    simp only [htext, hwalk, bind, Except.bind, hdir, if_neg (Nat.not_lt.2 hsize)]
    rfl

theorem step_eq_ok_iff (hname : Path.IsName name) {names : List String} :
    fs.step dir name = .ok names ↔ fs.entry? dir = some .directory ∧
      name.utf8ByteSize ≤ maxPart ∧ (fs.entry? (dir ++ [name])).isSome ∧ names = dir ++ [name] := by
  constructor
  · intro h
    have hdir := directory_of_step h
    simp only [step, hdir, if_neg hname.notDot, if_neg hname.notDots] at h
    split at h
    · cases h
    · next hsize =>
      split at h
      · next he =>
        cases h
        exact ⟨hdir, Nat.le_of_not_lt hsize, by rw [he]; rfl, rfl⟩
      · cases h
  · rintro ⟨hdir, hsize, he, rfl⟩
    obtain ⟨e, he⟩ := Option.isSome_iff_exists.1 he
    simp only [step, hdir, if_neg hname.notDot, if_neg hname.notDots, if_neg (Nat.not_lt.2 hsize),
      he]
    rfl

theorem stat_eq_ok_iff (hname : Path.IsName name) {e : Entry} :
    fs.stat (Path.join base name) = .ok e ↔
      ∃ dir, fs.Spot base name dir ∧ fs.entry? (dir ++ [name]) = some e := by
  have hparts := Path.parts_join base hname
  have hstart : fs.start (Path.join base name) = fs.start base := start_join hname.unbroken
  have hslash := Path.endsInSlash_join base hname
  simp only [stat, resolve, hparts, hstart, List.foldlM_append, List.foldlM_cons, List.foldlM_nil,
    hslash]
  constructor
  · intro h
    cases htext : checkText (Path.join base name) with
    | error e =>
      rw [htext] at h
      cases h
    | ok _ =>
      cases hwalk : (Path.parts base).foldlM fs.step (fs.start base) with
      | error e =>
        rw [htext, hwalk] at h
        cases h
      | ok dir =>
        rw [htext, hwalk] at h
        cases hstep : fs.step dir name with
        | error e =>
          simp only [hstep, bind, Except.bind] at h
          cases h
        | ok names =>
          obtain ⟨hdir, hsize, he, rfl⟩ := (step_eq_ok_iff hname).1 hstep
          obtain ⟨e', he⟩ := Option.isSome_iff_exists.1 he
          simp only [hstep, bind, Except.bind, pure, Except.pure, he] at h
          refine ⟨dir, ⟨htext, ⟨hwalk, hdir⟩, hsize⟩, he.trans ?_⟩
          cases e' <;> simpa [he] using h
  · rintro ⟨dir, ⟨htext, ⟨hwalk, hdir⟩, hsize⟩, he⟩
    have hstep := (step_eq_ok_iff hname).2 ⟨hdir, hsize, by rw [he]; rfl, rfl⟩
    simp only [htext, hwalk, hstep, bind, Except.bind, pure, Except.pure, he]
    cases e <;> simp [he]

/-- A name that is not in its directory is reported as missing. -/
theorem stat_eq_noEntry (hname : Path.IsName name) (hspot : fs.Spot base name dir)
    (hnone : fs.entry? (dir ++ [name]) = none) :
    fs.stat (Path.join base name) = .error Errno.noEntry := by
  obtain ⟨htext, ⟨hwalk, hdir⟩, hsize⟩ := hspot
  have hstep : fs.step dir name = .error Errno.noEntry := by
    simp only [step, hdir, if_neg hname.notDot, if_neg hname.notDots, if_neg (Nat.not_lt.2 hsize),
      hnone]
    rfl
  have hstart : fs.start (Path.join base name) = fs.start base := start_join hname.unbroken
  simp only [stat, resolve, Path.parts_join base hname, hstart, List.foldlM_append,
    List.foldlM_cons, htext, hwalk, hstep, bind, Except.bind]

end FileSystem

end SnapshotKv
