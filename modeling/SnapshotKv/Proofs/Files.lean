import SnapshotKv.Proofs.Calls
import SnapshotKv.Proofs.Paths

/-!
# Replacing and removing files

A file of a database is replaced or removed as a whole. Whether that succeeds depends on the names
in the directory and not on the contents, and it touches the file and its temporary file only.

Results:
1. `FileSystem.Touches`: what leads elsewhere is as before.
2. `writeFile_cases`: writing a file.
3. `replaceFile_spec`: a replacement; `replaceable_congr`: whether it succeeds.
4. `removeIfExists_spec`: a removal.
-/

namespace SnapshotKv

open Storage

namespace FileSystem

variable {fs fs' fs'' : FileSystem} {base name : String} {names : List String}

/-! ## 1. Touched names -/

/-- Two file systems have the same directories and locks, and differ at most in files of some
names. -/
structure Touches (names : List String) (fs fs' : FileSystem) : Prop where
  same : SameDirectories fs fs'
  entries : ∀ dir name, name ∉ names → fs'.entry? (dir ++ [name]) = fs.entry? (dir ++ [name])
  locked : fs'.locked = fs.locked

namespace Touches

theorem refl (names : List String) (fs : FileSystem) : Touches names fs fs :=
  ⟨.refl fs, fun _ _ _ => rfl, rfl⟩

theorem trans (h : Touches names fs fs') (h' : Touches names fs' fs'') : Touches names fs fs'' where
  same := h.same.trans h'.same
  entries := fun dir name hn => (h'.entries dir name hn).trans (h.entries dir name hn)
  locked := h'.locked.trans h.locked

theorem mono {more : List String} (h : Touches names fs fs') (hmore : names ⊆ more) :
    Touches more fs fs' :=
  { h with entries := fun dir name hn => h.entries dir name fun hmem => hn (hmore hmem) }

/-- A path in a base leads where it led before when its name was not touched. -/
theorem stat_eq_ok_iff (h : Touches names fs fs') (hname : Path.IsName name) (hn : name ∉ names)
    {e : Entry} : fs'.stat (Path.join base name) = .ok e ↔ fs.stat (Path.join base name) = .ok e := by
  simp only [FileSystem.stat_eq_ok_iff hname, spot_congr h.same, h.entries _ name hn]

theorem toOption_stat (h : Touches names fs fs') (hname : Path.IsName name) (hn : name ∉ names) :
    (fs'.stat (Path.join base name)).toOption = (fs.stat (Path.join base name)).toOption := by
  apply Option.ext
  intro e
  have hiff : ∀ r : Except Errno Entry, r.toOption = some e ↔ r = .ok e := by
    intro r
    cases r <;> simp [Except.toOption]
  rw [hiff, hiff, h.stat_eq_ok_iff hname hn]

end Touches

theorem entry?_of_ne_nil (h : names ≠ []) : fs.entry? names = fs.entries.get? names := by
  cases names with
  | nil => exact absurd rfl h
  | cons part rest => rfl

/-- A file was put at some names. -/
theorem entry?_insert (h : names ≠ []) (e : Entry) (names' : List String) :
    entry? { fs with entries := fs.entries.insert names e } names' =
      if names' = names then some e else fs.entry? names' := by
  cases names' with
  | nil => rw [if_neg (Ne.symm h)]; rfl
  | cons part rest =>
    rw [entry?_of_ne_nil (List.cons_ne_nil _ _), entry?_of_ne_nil (List.cons_ne_nil _ _),
      SortedMap.get?_insert]
    simp only [beq_iff_eq]

theorem entry?_erase (h : names ≠ []) (names' : List String) :
    entry? { fs with entries := fs.entries.erase names } names' =
      if names' = names then none else fs.entry? names' := by
  cases names' with
  | nil => rw [if_neg (Ne.symm h)]; rfl
  | cons part rest =>
    rw [entry?_of_ne_nil (List.cons_ne_nil _ _), entry?_of_ne_nil (List.cons_ne_nil _ _),
      SortedMap.get?_erase]
    simp only [beq_iff_eq]

theorem names_ne_nil (dir : List String) (name : String) : dir ++ [name] ≠ [] :=
  List.append_ne_nil_of_right_ne_nil _ (List.cons_ne_nil _ _)

theorem names_ne {name' : String} (h : name ≠ name') (dir dir' : List String) :
    dir ++ [name] ≠ dir' ++ [name'] := fun heq =>
  h (List.singleton_inj.1 (List.append_inj_right' heq rfl))

/-- The file system after an entry took another name. -/
def moved (fs : FileSystem) (source target : List String) (e : Entry) : FileSystem :=
  { fs with entries := (fs.entries.erase source).insert target e }

theorem entry?_moved {source target : List String} (hs : source ≠ []) (ht : target ≠ [])
    (e : Entry) (names' : List String) :
    entry? (fs.moved source target e) names' =
      if names' = target then some e else if names' = source then none else fs.entry? names' :=
  (@entry?_insert { fs with entries := fs.entries.erase source } target ht e names').trans
    (congrArg _ (entry?_erase hs names'))

/-! ## 2. Writing a file -/

/-- A file was put at some names, where no directory is. -/
structure Put (fs fs' : FileSystem) (names : List String) (inode : Nat) (data : Bytes) : Prop where
  nonempty : names ≠ []
  vacant : fs.entry? names ≠ some .directory
  cwd : fs'.cwd = fs.cwd
  locked : fs'.locked = fs.locked
  entry : ∀ names', fs'.entry? names' =
    if names' = names then some (.file inode data) else fs.entry? names'

variable {inode : Nat} {data : Bytes}

theorem Put.same (h : Put fs fs' names inode data) : SameDirectories fs fs' where
  cwd := h.cwd
  directories := fun names' => by
    rw [h.entry]
    split
    · next heq =>
      subst heq
      simp [h.vacant]
    · exact Iff.rfl

theorem put_insert (hne : names ≠ []) (hvacant : fs.entry? names ≠ some .directory)
    (inode : Nat) (data : Bytes) :
    Put fs { fs with entries := fs.entries.insert names (.file inode data) } names inode data :=
  ⟨hne, hvacant, rfl, rfl, entry?_insert hne _⟩

theorem Put.put (h : Put fs fs' names inode data) {inode' : Nat} {data' : Bytes}
    (h' : Put fs' fs'' names inode' data') : Put fs fs'' names inode' data' where
  nonempty := h.nonempty
  vacant := h.vacant
  cwd := h'.cwd.trans h.cwd
  locked := h'.locked.trans h.locked
  entry := fun names' => by
    rw [h'.entry, h.entry]
    split <;> rfl

theorem Put.touches {dir : List String} (h : Put fs fs' (dir ++ [name]) inode data) :
    Touches [name] fs fs' where
  same := h.same
  entries := fun dir' name' hn => by
    rw [h.entry, if_neg (names_ne (fun heq => hn (List.mem_singleton.2 heq)) dir' dir)]
  locked := h.locked

/-- Whether a file can be written. -/
def writable (fs : FileSystem) (path : String) : Except Errno Unit :=
  match fs.place path with
  | .error e => .error e
  | .ok (dir, last) =>
    if fs.entry? (dir ++ [last]) = some .directory then .error Errno.isDirectory else .ok ()

theorem writeFile_cases (hname : Path.IsName name) (fs : FileSystem) (base : String)
    (data : Bytes) :
    (∃ e, fs.writeFile (Path.join base name) data = .error e ∧
        fs.writable (Path.join base name) = .error e) ∨
      ∃ fs' dir inode, fs.writeFile (Path.join base name) data = .ok fs' ∧
        fs.writable (Path.join base name) = .ok () ∧ fs.Spot base name dir ∧
        Put fs fs' (dir ++ [name]) inode data := by
  have hslash := Path.endsInSlash_join base hname
  have hproper : isName name = true := by simp [isName, hname.notDot, hname.notDots]
  unfold writeFile openFile writable
  cases hplace : fs.place (Path.join base name) with
  | error e => exact .inl ⟨e, rfl, rfl⟩
  | ok place =>
    obtain ⟨dir, last⟩ := place
    obtain ⟨hspot, rfl⟩ := (place_eq_ok_iff hname).1 hplace
    have hne : dir ++ [last] ≠ [] := List.append_ne_nil_of_right_ne_nil _ (List.cons_ne_nil _ _)
    simp only [bind, Except.bind, hproper, hslash, Bool.not_true, Bool.or_self,
      Bool.false_eq_true, ↓reduceIte]
    cases hentry : fs.entry? (dir ++ [last]) with
    | none =>
      have hvacant : fs.entry? (dir ++ [last]) ≠ some .directory := by simp [hentry]
      have hmade := put_insert hne hvacant fs.nextInode []
      refine .inr ⟨_, dir, fs.nextInode, rfl, by simp, hspot, ?_⟩
      exact { hmade.put (put_insert hne (by simp [hmade.entry]) fs.nextInode data) with }
    | some e =>
      cases e with
      | directory => exact .inl ⟨_, rfl, by simp⟩
      | file inode old =>
        have hvacant : fs.entry? (dir ++ [last]) ≠ some .directory := by simp [hentry]
        exact .inr ⟨_, dir, inode, rfl, by simp, hspot, put_insert hne hvacant inode data⟩

/-- Whether a file can be written is up to the directories. -/
theorem writable_eq_ok_iff (hname : Path.IsName name) :
    fs.writable (Path.join base name) = .ok () ↔
      ∃ dir, fs.Spot base name dir ∧ fs.entry? (dir ++ [name]) ≠ some .directory := by
  unfold writable
  constructor
  · intro h
    cases hplace : fs.place (Path.join base name) with
    | error e =>
      rw [hplace] at h
      cases h
    | ok place =>
      obtain ⟨dir, last⟩ := place
      obtain ⟨hspot, rfl⟩ := (place_eq_ok_iff hname).1 hplace
      rw [hplace] at h
      refine ⟨dir, hspot, fun hdir => ?_⟩
      simp only [hdir, ↓reduceIte] at h
      cases h
  · rintro ⟨dir, hspot, hvacant⟩
    simp only [(place_eq_ok_iff hname).2 ⟨hspot, rfl⟩, if_neg hvacant]

theorem writable_congr (h : SameDirectories fs fs') (hname : Path.IsName name) :
    fs'.writable (Path.join base name) = .ok () ↔ fs.writable (Path.join base name) = .ok () := by
  simp only [writable_eq_ok_iff hname, spot_congr h, ne_eq, h.directories]

/-! ## 3. Replacing a file -/

/-- The name of the temporary file beside a file. -/
def temporary (name : String) : String := name ++ ".tmp"

/-- What a replacement answers: it fails over a directory in the way, of the temporary file or of the
file itself. -/
def replaceable (fs : FileSystem) (path : String) : Except Fault Unit :=
  match fs.writable (path ++ ".tmp") with
  | .error e => .error (Fault.system e (path ++ ".tmp"))
  | .ok () => match fs.writable path with
    | .error e => .error (Fault.system e path)
    | .ok () => .ok ()

/-- A file with a new content, whose temporary file is gone. -/
structure Replaced (fs fs' : FileSystem) (base name : String) (data : Bytes) : Prop where
  touches : Touches [name, temporary name] fs fs'
  file : ∃ dir inode, fs.Spot base name dir ∧ fs'.entry? (dir ++ [name]) = some (.file inode data)

namespace FileLemmas

theorem ne_temporary (name : String) : name ≠ temporary name := by
  intro h
  have := congrArg (fun s => s.toList.length) h
  simp [temporary] at this

theorem isName_temporary (hname : Path.IsName name) : Path.IsName (temporary name) where
  nonempty := fun h => by
    have := congrArg (fun s => s.toList.length) h
    simp [temporary] at this
  unbroken := by
    have := hname.unbroken
    simp [temporary, this]
  notDot := fun h => by
    have := congrArg (fun s => s.toList.length) h
    simp [temporary] at this
  notDots := fun h => by
    have := congrArg (fun s => s.toList.length) h
    simp [temporary] at this

theorem join_temporary (base : String) (hname : Path.IsName name) :
    Path.join base name ++ ".tmp" = Path.join base (temporary name) :=
  Path.join_append base ".tmp" hname.unbroken (isName_temporary hname).unbroken

/-- The path of a file is sound when that of its temporary file is. -/
theorem spot_of_temporary {dir : List String} (hname : Path.IsName name)
    (h : fs.Spot base (temporary name) dir) : fs.Spot base name dir := by
  obtain ⟨htext, hleads, hsize⟩ := h
  rw [← join_temporary base hname, checkText_eq_ok_iff, String.toList_append, List.any_append,
    Bool.or_eq_false_iff, String.utf8ByteSize_append] at htext
  obtain ⟨⟨hzero, -⟩, -, hlong⟩ := htext
  rw [temporary, String.utf8ByteSize_append] at hsize
  refine ⟨checkText_eq_ok_iff.2 ⟨hzero, fun hempty => ?_, by omega⟩, hleads, by omega⟩
  have hchars := Path.toList_join base hname.unbroken
  rw [hempty] at hchars
  simp [hname.nonempty] at hchars

/-- A temporary file is renamed to its file unless a directory is in the way. -/
theorem rename_temporary (hname : Path.IsName name) {dir : List String}
    (hspot : fs.Spot base (temporary name) dir)
    (hput : Put fs fs' (dir ++ [temporary name]) inode data) :
    fs'.rename (Path.join base (temporary name)) (Path.join base name) =
      if fs.entry? (dir ++ [name]) = some .directory then .error Errno.isDirectory
      else .ok (fs'.moved (dir ++ [temporary name]) (dir ++ [name]) (.file inode data)) := by
  have htemp := isName_temporary hname
  have hproper : isName name = true := by simp [isName, hname.notDot, hname.notDots]
  have hspot' := (spot_congr hput.same).2 hspot
  have hsource := (place_eq_ok_iff htemp).2 ⟨hspot', rfl⟩
  have hstat := (stat_eq_ok_iff htemp).2 ⟨dir, hspot', by rw [hput.entry, if_pos rfl]⟩
  have htarget := (place_eq_ok_iff hname).2 ⟨spot_of_temporary hname hspot', rfl⟩
  have hentry : fs'.entry? (dir ++ [name]) = fs.entry? (dir ++ [name]) := by
    rw [hput.entry, if_neg (names_ne (ne_temporary name) dir dir)]
  simp only [rename, hsource, hstat, htarget, hentry, hproper, bind, Except.bind, Bool.not_true,
    Bool.false_eq_true, ↓reduceIte]
  cases fs.entry? (dir ++ [name]) with
  | none => rfl
  | some e => cases e <;> rfl

/-- A written temporary file took the place of its file. -/
theorem touches_moved {dir : List String} (hvacant : fs.entry? (dir ++ [name]) ≠ some .directory)
    (hput : Put fs fs' (dir ++ [temporary name]) inode data) :
    Touches [name, temporary name] fs
      (fs'.moved (dir ++ [temporary name]) (dir ++ [name]) (.file inode data)) := by
  have hentry : ∀ names,
      entry? (fs'.moved (dir ++ [temporary name]) (dir ++ [name]) (.file inode data)) names =
        if names = dir ++ [name] then some (.file inode data)
        else if names = dir ++ [temporary name] then none else fs.entry? names := by
    intro names
    rw [entry?_moved (names_ne_nil _ _) (names_ne_nil _ _), hput.entry]
    split
    · rfl
    · split <;> rfl
  refine ⟨⟨hput.cwd, fun names => ?_⟩, fun dir' name' hn => ?_, hput.locked⟩
  · rw [hentry]
    split
    · next heq =>
      subst heq
      simp [hvacant]
    · split
      · next heq =>
        subst heq
        simp [hput.vacant]
      · exact Iff.rfl
  · simp only [List.mem_cons, List.not_mem_nil, or_false, not_or] at hn
    rw [hentry, if_neg (names_ne hn.1 dir' dir), if_neg (names_ne hn.2 dir' dir)]

end FileLemmas

open FileLemmas

/-- A replacement answers what it can be seen to answer beforehand, and replaces the file or leaves
it as it was. -/
theorem replaceFile_spec (hname : Path.IsName name) (fs : FileSystem) (base : String)
    (data : Bytes) {r : Except Fault Unit} {fs' : FileSystem}
    (h : (replaceFile (Path.join base name) data).on fs = (r, fs')) :
    r = fs.replaceable (Path.join base name) ∧
      (∀ f, r = .error f → Cause.systemCall ∈ f.causes ∧ Touches [temporary name] fs fs') ∧
      (r = .ok () → Replaced fs fs' base name data) := by
  have htemp := isName_temporary hname
  have hproper : isName name = true := by simp [isName, hname.notDot, hname.notDots]
  unfold replaceable
  simp only [replaceFile, Attempt.on_bind, Attempt.call, Attempt.on_ofStep,
    join_temporary base hname] at h ⊢
  rcases writeFile_cases htemp fs base data with ⟨e, hwrite, hanswer⟩ |
    ⟨fs₁, dir, inode, hwrite, hanswer, hspot, hput⟩
  · rw [hwrite] at h
    rw [hanswer]
    cases h
    refine ⟨rfl, fun f hf => ?_, fun hok => nomatch hok⟩
    cases hf
    exact ⟨List.mem_singleton_self _, .refl _ _⟩
  · rw [hwrite] at h
    rw [hanswer]
    have hsound := (place_eq_ok_iff hname).2 ⟨spot_of_temporary hname hspot, rfl⟩
    simp only [rename_temporary hname hspot hput] at h
    simp only [writable, hsound]
    by_cases hdir : fs.entry? (dir ++ [name]) = some .directory
    · rw [if_pos hdir] at h ⊢
      cases h
      refine ⟨rfl, fun f hf => ?_, fun hok => nomatch hok⟩
      cases hf
      exact ⟨List.mem_singleton_self _, hput.touches⟩
    · rw [if_neg hdir] at h ⊢
      cases h
      refine ⟨rfl, (fun f hf => nomatch hf), fun _ => ⟨touches_moved hdir hput, ?_⟩⟩
      refine ⟨dir, inode, spot_of_temporary hname hspot, ?_⟩
      rw [entry?_moved (names_ne_nil _ _) (names_ne_nil _ _), if_pos rfl]

theorem replaceable_eq_ok_iff {path : String} :
    fs.replaceable path = .ok () ↔
      fs.writable (path ++ ".tmp") = .ok () ∧ fs.writable path = .ok () := by
  unfold replaceable
  cases fs.writable (path ++ ".tmp") with
  | error e => simp
  | ok _ => cases fs.writable path <;> simp

/-- A file that can be replaced can be replaced as long as the directories stay. -/
theorem replaceable_congr (h : SameDirectories fs fs') (hname : Path.IsName name) :
    fs'.replaceable (Path.join base name) = .ok () ↔
      fs.replaceable (Path.join base name) = .ok () := by
  rw [replaceable_eq_ok_iff, replaceable_eq_ok_iff, join_temporary base hname,
    writable_congr h hname, writable_congr h (isName_temporary hname)]

/-! ## 4. Removing a file -/

theorem stat_ne_ok (hname : Path.IsName name) {dir : List String} (hspot : fs.Spot base name dir)
    (hnone : fs.entry? (dir ++ [name]) = none) (e : Entry) :
    fs.stat (Path.join base name) ≠ .ok e := by
  intro hstat
  obtain ⟨dir', hspot', he⟩ := (stat_eq_ok_iff hname).1 hstat
  rw [hspot'.unique hspot, hnone] at he
  cases he

theorem removeFile_cases (hname : Path.IsName name) (fs : FileSystem) (base : String) :
    (∃ e, fs.removeFile (Path.join base name) = .error e ∧
        (e = Errno.noEntry → ∀ x, fs.stat (Path.join base name) ≠ .ok x)) ∨
      ∃ fs', fs.removeFile (Path.join base name) = .ok fs' ∧ Touches [name] fs fs' ∧
        ∀ x, fs'.stat (Path.join base name) ≠ .ok x := by
  have hproper : isName name = true := by simp [isName, hname.notDot, hname.notDots]
  have hslash := Path.endsInSlash_join base hname
  unfold removeFile
  cases hplace : fs.place (Path.join base name) with
  | error e =>
    refine .inl ⟨e, rfl, fun _ x hstat => ?_⟩
    obtain ⟨dir, hspot, -⟩ := (stat_eq_ok_iff hname).1 hstat
    rw [(place_eq_ok_iff hname).2 ⟨hspot, rfl⟩] at hplace
    cases hplace
  | ok place =>
    obtain ⟨dir, last⟩ := place
    obtain ⟨hspot, rfl⟩ := (place_eq_ok_iff hname).1 hplace
    simp only [bind, Except.bind, hproper, hslash, Bool.not_true, Bool.false_eq_true, ↓reduceIte]
    cases hentry : fs.entry? (dir ++ [last]) with
    | none => exact .inl ⟨_, rfl, fun _ => stat_ne_ok hname hspot hentry⟩
    | some e =>
      cases e with
      | directory => exact .inl ⟨_, rfl, fun heq => absurd heq (by decide)⟩
      | file inode data =>
        have hentry' := @entry?_erase fs (dir ++ [last]) (names_ne_nil dir last)
        have hsame : SameDirectories fs { fs with entries := fs.entries.erase (dir ++ [last]) } := by
          refine ⟨rfl, fun names => ?_⟩
          rw [hentry']
          split
          · next heq =>
            subst heq
            simp [hentry]
          · exact Iff.rfl
        refine .inr ⟨_, rfl, ⟨hsame, fun dir' name' hn => ?_, rfl⟩, ?_⟩
        · rw [hentry', if_neg (names_ne (fun heq => hn (List.mem_singleton.2 heq)) dir' dir)]
        · exact stat_ne_ok hname ((spot_congr hsame).2 hspot) (by rw [hentry', if_pos rfl])

/-- A removal leaves nothing under the name, or fails and changes nothing. -/
theorem removeIfExists_spec (hname : Path.IsName name) (fs : FileSystem) (base : String)
    {r : Except Fault Unit} {fs' : FileSystem}
    (h : (removeIfExists (Path.join base name)).on fs = (r, fs')) :
    (∀ f, r = .error f → Cause.systemCall ∈ f.causes ∧ fs' = fs) ∧
      (r = .ok () → Touches [name] fs fs' ∧ ∀ e, fs'.stat (Path.join base name) ≠ .ok e) := by
  simp only [removeIfExists, Attempt.call, Attempt.on_ofStep] at h
  rcases removeFile_cases hname fs base with ⟨e, heq, hgone⟩ | ⟨fs₁, heq, htouches, hgone⟩
  · simp only [heq] at h
    by_cases hno : e = Errno.noEntry
    · rw [if_pos hno] at h
      cases h
      exact ⟨(fun f hf => nomatch hf), fun _ => ⟨.refl _ _, hgone hno⟩⟩
    · rw [if_neg hno] at h
      cases h
      refine ⟨fun f hf => ?_, fun hok => nomatch hok⟩
      cases hf
      exact ⟨List.mem_singleton_self _, rfl⟩
  · simp only [heq] at h
    cases h
    exact ⟨(fun f hf => nomatch hf), fun _ => ⟨htouches, hgone⟩⟩

end FileSystem

end SnapshotKv
