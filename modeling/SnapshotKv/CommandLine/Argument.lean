import SnapshotKv.Text.Blank
import SnapshotKv.Text.Terminal
import SnapshotKv.Text.Unsigned

/-!
# Arguments of a command line

An `Argument` is a switch, an option with a value, or a positional argument. Its value is judged by
its kind (`Argument.judge`). A `Misuse` is what a caller can get wrong, and `Misuse.message` has the
words for it, always on one line.
-/

namespace SnapshotKv.CommandLine

/-- What a value may be. -/
inductive ValueKind where
  | text
  /-- Any text but the empty one. -/
  | path
  /-- An unsigned integer. -/
  | count
  /-- One of some words. -/
  | choice (words : List String)
  deriving DecidableEq, Repr

/-- An argument. -/
structure Argument where
  /-- The key of its values. -/
  id : String
  /-- The name after two hyphens; a positional argument has none. -/
  long : Option String := none
  /-- What stands for the value in messages; a switch has none. -/
  valueName : Option String := none
  kind : ValueKind := .text
  /-- Whether it may be given more than once. -/
  repeatable : Bool := false
  about : String := ""
  deriving DecidableEq, Repr

/-- What a caller got wrong. -/
inductive Misuse where
  | valueMissing (argument : String)
  | repeated (argument : String)
  | valueInvalid (value argument : String)
  | notANumber (value argument : String) (problem : NumberProblem)
  | valueUnexpected (value argument : String)
  | argumentUnexpected (argument : String)
  | argumentsMissing
  | commandUnknown (name : String)
  | commandMissing (group : String)
  deriving DecidableEq, Repr

/-- A word of the caller between quotes, without what a terminal would obey. -/
def cited (s : String) : String := "'" ++ Text.Terminal.plain s ++ "'"

/-- The words for a misuse, which may run over several lines with the values they quote. -/
def Misuse.words : Misuse → String
  | .valueMissing a => "a value is required for '" ++ a ++ "' but none was supplied"
  | .repeated a => "the argument '" ++ a ++ "' cannot be used multiple times"
  | .valueInvalid v a => "invalid value " ++ cited v ++ " for '" ++ a ++ "'"
  | .notANumber v a p => "invalid value " ++ cited v ++ " for '" ++ a ++ "': " ++ p.words
  | .valueUnexpected v a =>
    "unexpected value " ++ cited v ++ " for '" ++ a ++ "' found; no more were expected"
  | .argumentUnexpected a => "unexpected argument " ++ cited a ++ " found"
  | .argumentsMissing => "the following required arguments were not provided:"
  | .commandUnknown name => "unrecognized subcommand " ++ cited name
  | .commandMissing group => "'" ++ group ++ "' requires a subcommand but one was not provided"

/-- The first line of the words for a misuse. -/
def Misuse.message (m : Misuse) : String :=
  Text.trim (String.ofList (m.words.toList.takeWhile (· != '\n')))

namespace Argument

/-- Whether the argument comes with a value. -/
def takesValue (a : Argument) : Bool := a.valueName.isSome

/-- The argument as messages show it. -/
def shown (a : Argument) : String :=
  let value := (a.valueName.map fun v => "<" ++ v ++ ">").toList
  let name := (a.long.map fun l => "--" ++ l).toList
  " ".intercalate (name ++ value)

/-- A positional argument. -/
def positional (id valueName : String) (kind : ValueKind) (about : String) : Argument :=
  { id, valueName := some valueName, kind, about }

/-- An option with a value. -/
def option (id long valueName : String) (kind : ValueKind) (about : String) : Argument :=
  { id, long := some long, valueName := some valueName, kind, about }

/-- An option without a value. -/
def switch (id long about : String) : Argument := { id, long := some long, about }

/-- Whether a value may be given to the argument. The empty text is a missing value where it is not
allowed. -/
def judge (a : Argument) (value : String) : Except Misuse Unit :=
  match a.kind with
  | .text => pure ()
  | .path => if value.isEmpty then throw (.valueMissing a.shown) else pure ()
  | .count => match Unsigned.read value with
    | .ok _ => pure ()
    | .error p => throw (.notANumber value a.shown p)
  | .choice words =>
    if words.contains value then pure ()
    else if value.isEmpty then throw (.valueMissing a.shown)
    else throw (.valueInvalid value a.shown)

end Argument

end SnapshotKv.CommandLine
