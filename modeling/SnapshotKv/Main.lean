import SnapshotKv.CommandLine.Run

/-!
# The program

The outer layer of the command line. It takes what a command can need from the disk into a file
system, runs the command there, and carries the changes back: new directories are made, changed
files are replaced by renaming, and removed files are removed. The lock of a database is also taken
on the disk for as long as the command runs.
-/

namespace SnapshotKv.Program

open CommandLine

/-- Takes one entry from the disk, if it is there: a directory without its contents, or a file. -/
def takeEntry (fs : FileSystem) (names : List String) : IO FileSystem := do
  let path := Path.ofParts names
  try
    let found ← IO.FS.realPath path
    if ← found.isDir then
      pure { fs with entries := fs.entries.insert names .directory }
    else
      let data ← IO.FS.readBinFile path
      pure { fs with
        entries := fs.entries.insert names (.file fs.nextInode data.toList)
        nextInode := fs.nextInode + 1 }
  catch _ => pure fs

/-- Takes an entry and the directories above it. -/
def takePath (fs : FileSystem) (names : List String) : IO FileSystem :=
  (List.range names.length).foldlM (fun fs n => takeEntry fs (names.take (n + 1))) fs

/-- Takes a directory with the files in it. -/
def takeDirectory (fs : FileSystem) (names : List String) : IO FileSystem := do
  let fs ← takePath fs names
  try
    let found ← IO.FS.realPath (Path.ofParts names)
    let entries ← found.readDir
    entries.toList.foldlM (fun fs e => takeEntry fs (names ++ [e.fileName])) fs
  catch _ => pure fs

/-- One step from a directory along a part of a path. -/
def stepNames (names : List String) (part : String) : List String :=
  if part = "." then names else if part = ".." then names.dropLast else names ++ [part]

/-- The names from the root that a path leads to. -/
def namesOf (fs : FileSystem) (path : String) : List String :=
  (Path.parts path).foldl stepNames (fs.start path)

/-- The names of the files of a home. -/
def homeFiles : List String := ["kvdb.meta", "kvdb.lock", "kvdb.conf"]

/-- The paths that a command may use outside its home: those of the catalog and those in its
parameters. -/
def mediaPaths (fs : FileSystem) (i : Invocation) : List String :=
  let given := match StorageSettings.scheme.ofPairs i.params with
    | .ok s => MediaClass.all.filterMap s.path?
    | .error _ => []
  let listed := match ((Storage.loadCatalog i.home).on fs).1 with
    | .ok c => MediaClass.all.filterMap c.mediaPath?
    | .error _ => []
  ("capacity" :: given).map (Storage.resolve i.home) ++ listed

/-- Takes what a command can need. -/
def takeFor (i : Invocation) : IO FileSystem := do
  let cwd ← IO.currentDir
  let fs : FileSystem := { cwd := Path.parts cwd.toString }
  let fs ← takePath fs fs.cwd
  let fs ← takePath fs (namesOf fs i.home)
  let fs ← homeFiles.foldlM (fun fs name => takeEntry fs (namesOf fs i.home ++ [name])) fs
  (mediaPaths fs i).foldlM (fun fs path => takeDirectory fs (namesOf fs path)) fs

/-- Puts a file on the disk in place of an older one. -/
def putFile (names : List String) (data : Bytes) : IO Unit := do
  let path := Path.ofParts names
  IO.FS.writeBinFile (path ++ ".tmp") (ByteArray.mk data.toArray)
  IO.FS.rename (path ++ ".tmp") path

/-- Carries the changes between two file systems to the disk. -/
def carry (old new : FileSystem) : IO Unit := do
  for (names, entry) in new.entries.entries do
    match entry, old.entries.get? names with
    | .directory, none => IO.FS.createDir (Path.ofParts names)
    | .file _ data, some (.file _ before) => if data != before then putFile names data
    | .file _ data, none => putFile names data
    | _, _ => pure ()
  for (names, _) in old.entries.entries do
    if (new.entries.get? names).isNone then IO.FS.removeFile (Path.ofParts names)

/-- Takes the lock of a home on the disk, when it holds a database; answers whether nobody else has
it, and what keeps it. -/
def lockHome (home : String) : IO (Bool × Option IO.FS.Handle) := do
  try
    let _ ← IO.FS.realPath (Storage.catalogFile home)
    let handle ← IO.FS.Handle.mk (Storage.lockFile home) .append
    let free ← handle.tryLock
    pure (free, some handle)
  catch _ => pure (true, none)

/-- A file system in which the lock of a home is held by somebody else. -/
def lockedElsewhere (fs : FileSystem) (home : String) : FileSystem :=
  match fs.stat (Storage.lockFile home) with
  | .ok (.file inode _) => { fs with locked := inode :: fs.locked }
  | _ => fs

/-- Runs a command on the disk. -/
def runOnDisk (i : Invocation) : IO Outcome := do
  let (free, handle) ← lockHome i.home
  let taken ← takeFor i
  let fs := if free then taken else lockedElsewhere taken i.home
  let (outcome, fs') := runCommand fs i
  carry fs fs'
  if let some h := handle then h.unlock
  pure outcome

end SnapshotKv.Program

open SnapshotKv CommandLine in
/-- Runs the words of the command line and ends with the exit code of the outcome. -/
def main (words : List String) : IO UInt32 := do
  let outcome ← match Invocation.ofWords words with
    | .ok i => Program.runOnDisk i
    | .error stop => pure stop.outcome
  IO.print outcome.output.text
  IO.eprint outcome.errors.text
  pure (UInt32.ofNat outcome.exitCode)
