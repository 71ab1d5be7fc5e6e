/-!
# Paths

A path is a text; its parts are separated by slashes, and a leading slash makes it absolute. Joining
does not simplify: dots and double dots stay as they were written.
-/

namespace SnapshotKv.Path

/-- Whether a path starts at the root. -/
def isAbsolute (p : String) : Bool := p.toList.head? == some '/'

/-- A path below a base. An absolute path stands by itself. -/
def join (base p : String) : String :=
  if isAbsolute p then p
  else match base.toList.getLast? with
    | none => p
    | some '/' => base ++ p
    | some _ => base ++ "/" ++ p

/-- The parts of a path between slashes, without the empty ones. -/
def parts (p : String) : List String :=
  ((p.toList.splitOn '/').filter (!·.isEmpty)).map String.ofList

/-- Whether a path ends in a slash, so that it can only name a directory. -/
def endsInSlash (p : String) : Bool := p.toList.getLast? == some '/'

/-- The absolute path of some parts. -/
def ofParts (ps : List String) : String := "/" ++ "/".intercalate ps

/-- A path and the directories above it as far as it names them, the nearest first. A relative path
ends in the empty one, an absolute path in the root. Single dots name nothing, except at the start
of a relative path. -/
def upward (p : String) : List String :=
  let named := match parts p with
    | [] => []
    | first :: rest =>
      (if isAbsolute p && first == "." then [] else [first]) ++ rest.filter (· != ".")
  let start := if isAbsolute p then "/" else ""
  p :: (List.range named.length).reverse.map (fun n => start ++ "/".intercalate (named.take n))

end SnapshotKv.Path
