import SnapshotKv.Attempt
import SnapshotKv.Bytes
import SnapshotKv.Path
import SnapshotKv.SortedMap

/-!
# A file system

Directories and files under one root, with a working directory for relative paths. Every call
answers as a system call would: with the new file system, or with an error number and no change. A
file keeps its identity, its inode, while its contents change and when it is renamed; an exclusive
lock belongs to an inode.
-/

namespace SnapshotKv

/-- What a path leads to. -/
inductive Entry where
  | directory
  | file (inode : Nat) (data : Bytes)
  deriving DecidableEq, Repr

/-- The entries by the names that lead to them from the root, which is always a directory. -/
structure FileSystem where
  entries : SortedMap (List String) Entry := .empty
  /-- The working directory. -/
  cwd : List String := []
  nextInode : Nat := 0
  /-- The inodes under an exclusive lock. -/
  locked : List Nat := []

namespace FileSystem

instance : Inhabited FileSystem := ⟨{}⟩

/-- The entry under some names. -/
def entry? (fs : FileSystem) : List String → Option Entry
  | [] => some .directory
  | names => fs.entries.get? names

/-- The length in bytes of the longest part of a path. -/
def maxPart : Nat := 255

/-- The length in bytes from which on a path is too long. -/
def maxPath : Nat := 4096

/-- One step from a directory along a part of a path. -/
def step (fs : FileSystem) (dir : List String) (part : String) : Except Errno (List String) :=
  match fs.entry? dir with
  | some .directory =>
    if part = "." then pure dir
    else if part = ".." then pure dir.dropLast
    else if part.utf8ByteSize > maxPart then throw Errno.nameTooLong
    else match fs.entry? (dir ++ [part]) with
      | some _ => pure (dir ++ [part])
      | none => throw Errno.noEntry
  | some (.file ..) => throw Errno.notDirectory
  | none => throw Errno.noEntry

/-- Judges the text of a path: it may be neither empty nor too long, and holds no zero byte. -/
def checkText (path : String) : Except Errno Unit :=
  if path.toList.any (fun c => c.toNat == 0) then throw Errno.inputOutput
  else if path.isEmpty then throw Errno.noEntry
  else if path.utf8ByteSize ≥ maxPath then throw Errno.nameTooLong
  else pure ()

/-- Where a path starts. -/
def start (fs : FileSystem) (path : String) : List String :=
  if Path.isAbsolute path then [] else fs.cwd

/-- The names of an existing entry that a path leads to. -/
def resolve (fs : FileSystem) (path : String) : Except Errno (List String) := do
  checkText path
  let names ← (Path.parts path).foldlM fs.step (fs.start path)
  match fs.entry? names with
  | some (.file ..) => if Path.endsInSlash path then throw Errno.notDirectory else pure names
  | _ => pure names

/-- The entry that a path leads to. -/
def stat (fs : FileSystem) (path : String) : Except Errno Entry := do
  let names ← fs.resolve path
  match fs.entry? names with
  | some e => pure e
  | none => throw Errno.noEntry

/-- Whether a path leads to anything. -/
def exists? (fs : FileSystem) (path : String) : Bool := (fs.stat path).toOption.isSome

/-- Whether a path leads to a file. -/
def isFile (fs : FileSystem) (path : String) : Bool :=
  match fs.stat path with
  | .ok (.file ..) => true
  | _ => false

/-- Whether a path leads to a directory. -/
def isDirectory (fs : FileSystem) (path : String) : Bool :=
  match fs.stat path with
  | .ok .directory => true
  | _ => false

/-- The directory in which the last part of a path lies, and that part. -/
def place (fs : FileSystem) (path : String) : Except Errno (List String × String) := do
  checkText path
  match (Path.parts path).getLast? with
  | none => throw Errno.isDirectory
  | some last => do
    let dir ← (Path.parts path).dropLast.foldlM fs.step (fs.start path)
    match fs.entry? dir with
    | some .directory =>
      if last.utf8ByteSize > maxPart then throw Errno.nameTooLong else pure (dir, last)
    | some (.file ..) => throw Errno.notDirectory
    | none => throw Errno.noEntry

/-- Whether the last part of a path names an entry and does not lead elsewhere. -/
def isName (part : String) : Bool := part != "." && part != ".."

/-! ## Reading -/

/-- The contents of a file. -/
def contents (fs : FileSystem) (path : String) : Except Errno Bytes := do
  match ← fs.stat path with
  | .file _ data => pure data
  | .directory => throw Errno.isDirectory

/-- The names in a directory with their entries, in ascending order of the names. -/
def readDirectory (fs : FileSystem) (path : String) : Except Errno (List (String × Entry)) := do
  let dir ← fs.resolve path
  match fs.entry? dir with
  | some .directory =>
    pure <| fs.entries.entries.filterMap fun e =>
      if e.1.length = dir.length + 1 ∧ dir.isPrefixOf e.1 then
        e.1.getLast?.map (fun name => (name, e.2))
      else none
  | some (.file ..) => throw Errno.notDirectory
  | none => throw Errno.noEntry

/-- The absolute path without dots that leads where a path leads. -/
def canonical (fs : FileSystem) (path : String) : Except Errno String := do
  let names ← fs.resolve path
  pure (Path.ofParts names)

/-! ## Writing -/

/-- The file of a path, made empty when there is none: its names, inode and contents. -/
def openFile (fs : FileSystem) (path : String) :
    Except Errno (List String × Nat × Bytes × FileSystem) := do
  let (dir, last) ← fs.place path
  if !isName last || Path.endsInSlash path then throw Errno.isDirectory
  else
    let names := dir ++ [last]
    match fs.entry? names with
    | some (.file inode data) => pure (names, inode, data, fs)
    | some .directory => throw Errno.isDirectory
    | none =>
      pure (names, fs.nextInode, [], { fs with
        entries := fs.entries.insert names (.file fs.nextInode [])
        nextInode := fs.nextInode + 1 })

/-- Gives a file new contents; the file is made when there is none. -/
def writeFile (fs : FileSystem) (path : String) (data : Bytes) : Except Errno FileSystem := do
  let (names, inode, _, fs) ← fs.openFile path
  pure { fs with entries := fs.entries.insert names (.file inode data) }

/-- Moves a file to a path, in place of a file that may be there. -/
def rename (fs : FileSystem) (source target : String) : Except Errno FileSystem := do
  let (dir, last) ← fs.place source
  let file ← fs.stat source
  let (dir', last') ← fs.place target
  if !isName last' then throw Errno.busy
  else match fs.entry? (dir' ++ [last']) with
    | some .directory => throw Errno.isDirectory
    | _ =>
      pure { fs with entries := (fs.entries.erase (dir ++ [last])).insert (dir' ++ [last']) file }

/-- Removes a file. -/
def removeFile (fs : FileSystem) (path : String) : Except Errno FileSystem := do
  let (dir, last) ← fs.place path
  if !isName last then throw Errno.isDirectory
  else match fs.entry? (dir ++ [last]) with
    | some (.file ..) =>
      if Path.endsInSlash path then throw Errno.notDirectory
      else pure { fs with entries := fs.entries.erase (dir ++ [last]) }
    | some .directory => throw Errno.isDirectory
    | none => throw Errno.noEntry

/-- Makes one directory. -/
def makeDirectory (fs : FileSystem) (path : String) : Except Errno FileSystem := do
  checkText path
  if (Path.parts path).isEmpty then throw Errno.fileExists
  else
    let (dir, last) ← fs.place path
    if !isName last then throw Errno.fileExists
    else match fs.entry? (dir ++ [last]) with
      | some _ => throw Errno.fileExists
      | none => pure { fs with entries := fs.entries.insert (dir ++ [last]) .directory }

/-- Makes the first of some directories, each of which lies in the next. What it could make before
it failed stays. -/
def makeUpward (fs : FileSystem) : List String → Except Errno Unit × FileSystem
  | [] => (.error Errno.inputOutput, fs)
  | path :: above =>
    if path.isEmpty then (.ok (), fs)
    else match fs.makeDirectory path with
      | .ok fs' => (.ok (), fs')
      | .error e =>
        if e = Errno.noEntry then
          match fs.makeUpward above with
          | (.error e', fs') => (.error e', fs')
          | (.ok (), fs') => match fs'.makeDirectory path with
            | .ok fs'' => (.ok (), fs'')
            | .error e' => if fs'.isDirectory path then (.ok (), fs') else (.error e', fs')
        else if fs.isDirectory path then (.ok (), fs) else (.error e, fs)

/-- Makes a directory and those above it that are missing. -/
def makeDirectories (fs : FileSystem) (path : String) : Except Errno Unit × FileSystem :=
  fs.makeUpward (Path.upward path)

/-- Removes a directory with everything in it. No call does; it is for what goes on around them. -/
def removeTree (fs : FileSystem) (path : String) : Except Errno FileSystem := do
  let dir ← fs.resolve path
  match fs.entry? dir with
  | some .directory =>
    pure { fs with entries := fs.entries.filter (fun names _ => !dir.isPrefixOf names) }
  | some (.file ..) => throw Errno.notDirectory
  | none => throw Errno.noEntry

/-! ## Locks -/

/-- Opens a file, made when there is none, and takes its exclusive lock; answers the inode. The file
stays made when the lock is taken already. -/
def lockFile (fs : FileSystem) (path : String) : Except Errno Nat × FileSystem :=
  match fs.openFile path with
  | .error e => (.error e, fs)
  | .ok (_, inode, _, fs') =>
    if fs'.locked.contains inode then (.error Errno.again, fs')
    else (.ok inode, { fs' with locked := inode :: fs'.locked })

/-- Gives up the exclusive lock of an inode. -/
def unlock (fs : FileSystem) (inode : Nat) : FileSystem :=
  { fs with locked := fs.locked.erase inode }

end FileSystem

namespace Attempt

/-- A call on the file system; a fault names the path. -/
def call (path : String) (f : FileSystem → Except Errno FileSystem) : Attempt FileSystem Unit :=
  ofStep fun fs =>
    match f fs with
    | .ok fs' => (.ok (), fs')
    | .error e => (.error (Fault.system e path), fs)

/-- A question to the file system; a fault names the path. -/
def ask {α : Type} (path : String) (f : FileSystem → Except Errno α) : Attempt FileSystem α :=
  ofStep fun fs => ((f fs).mapError (Fault.system · path), fs)

end Attempt

end SnapshotKv
