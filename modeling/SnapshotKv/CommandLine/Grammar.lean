import SnapshotKv.CommandLine.Argument

/-!
# The grammar of a command line

A `Spec γ` is a command that makes a `γ` of its arguments, or a group of commands. `Spec.parse`
reads a list of words: options may stand anywhere after the command they belong to, the options that
all commands share may follow any command name, and two hyphens end the options. A value is judged
when the next option or positional argument, or the end, shows that it is complete. So of two
misuses the one found first wins, and an unknown word wins over the value just before it.

Reading ends early with a `Stop`: a misuse, or a request for help or for the version.
-/

namespace SnapshotKv.CommandLine

/-- The values given to the arguments of one command, in the order in which they were judged. -/
abbrev Matches := List (String × String)

namespace Matches

/-- Whether an argument was given. -/
def given (m : Matches) (id : String) : Bool := (m.lookup id).isSome

/-- The values of an argument. -/
def values (m : Matches) (id : String) : List String :=
  m.filterMap fun e => if e.1 = id then some e.2 else none

/-- The text given to an argument, the empty one if it was not given. -/
def text (m : Matches) (id : String) : String := (m.lookup id).getD ""

/-- The number given to an argument. -/
def count? (m : Matches) (id : String) : Option Nat :=
  (m.lookup id).bind fun v => (Unsigned.read v).toOption

end Matches

/-- Why reading ends before a command is known. -/
inductive Stop where
  | misuse (m : Misuse)
  /-- Help was asked for. -/
  | help (page : String)
  /-- Nothing was given where something is needed, so help is shown. -/
  | bare (page : String)
  | version
  deriving DecidableEq, Repr

/-- A command or a group of commands. -/
inductive Spec (γ : Type) where
  | command (name about : String) (arguments : List Argument) (helpWhenBare : Bool)
      (build : Matches → γ)
  | group (name about : String) (members : List (Spec γ))

namespace Spec

variable {γ : Type}

/-- The name of a command or group. -/
def name : Spec γ → String
  | .command name .. => name
  | .group name .. => name

/-- What a command or group is for. -/
def about : Spec γ → String
  | .command _ about .. => about
  | .group _ about _ => about

/-- The arguments of its own. -/
def arguments : Spec γ → List Argument
  | .command _ _ arguments .. => arguments
  | .group .. => []

/-- The members of a group. -/
def members : Spec γ → List (Spec γ)
  | .command .. => []
  | .group _ _ members => members

/-- Whether this is a group. -/
def isGroup : Spec γ → Bool
  | .command .. => false
  | .group .. => true

/-- The member of a name. -/
def member? (s : Spec γ) (name : String) : Option (Spec γ) := s.members.find? (·.name == name)

/-- The member of every group that shows help on the other members. -/
def helpName : String := "help"

/-- Whether a word names a member of a group. -/
def isMember (s : Spec γ) (word : String) : Bool :=
  s.isGroup && (word == helpName || (s.member? word).isSome)

/-- A line of a help page: a name and what it is for. -/
def helpLine (name about : String) : String :=
  "  " ++ name ++ String.ofList (List.replicate (24 - name.length) ' ') ++ "  " ++ about

/-- The help page of a command or group that is reached by a path of names. -/
def page (globals : List Argument) (path : String) (s : Spec γ) : String :=
  let positionals := s.arguments.filter (·.long.isNone)
  let options := s.arguments.filter (·.long.isSome) ++ globals
  let usage := [path] ++ (if s.isGroup then ["[OPTIONS] <COMMAND>"] else ["[OPTIONS]"])
    ++ positionals.map Argument.shown
  let commands := s.members.map (fun m => helpLine m.name m.about)
  "\n".intercalate <|
    [s.about, "", "Usage: " ++ " ".intercalate usage]
    ++ (if commands.isEmpty then [] else ["", "Commands:"] ++ commands)
    ++ (if positionals.isEmpty then []
        else ["", "Arguments:"] ++ positionals.map fun a => helpLine a.shown a.about)
    ++ ["", "Options:"] ++ options.map (fun a => helpLine a.shown a.about)
    ++ [helpLine "--help" "Print help", ""]

end Spec

/-! ## Reading one command -/

/-- How far the arguments of one command have been read. -/
structure Level where
  /-- The options that may come. -/
  options : List Argument
  /-- The positional arguments that are still to come. -/
  positionals : List Argument
  /-- Whether the version may be asked for. -/
  versioned : Bool
  found : Matches := []
  /-- An argument whose value is not judged yet, or has not come yet. -/
  pending : Option (Argument × Option String) := none
  /-- Whether the options have ended. -/
  trailing : Bool := false

namespace Level

/-- The start of a command. -/
def start {γ : Type} (globals : List Argument) (versioned : Bool) (s : Spec γ) : Level where
  options := s.arguments.filter (·.long.isSome) ++ globals
  positionals := s.arguments.filter (·.long.isNone)
  versioned := versioned

/-- Takes up a value. -/
def accept (l : Level) (a : Argument) (value : Option String) : Except Stop Level :=
  match value with
  | none => throw (.misuse (.valueMissing a.shown))
  | some v =>
    if !a.repeatable && l.found.given a.id then throw (.misuse (.repeated a.shown))
    else match a.judge v with
      | .error m => throw (.misuse m)
      | .ok () => pure { l with found := l.found ++ [(a.id, v)] }

/-- Takes up the pending value. -/
def resolve (l : Level) : Except Stop Level :=
  match l.pending with
  | none => pure l
  | some (a, value) => accept { l with pending := none } a value

/-- Whether the next word is the value of an option. -/
def isAwaiting (l : Level) : Bool := l.pending.any (·.2.isNone)

/-- A switch that ends reading; nothing may be attached to it. -/
def ending (l : Level) (name : String) (value : Option String) (stop : Stop) : Except Stop Level :=
  match value with
  | some v => throw (.misuse (.valueUnexpected v ("--" ++ name)))
  | none => do
    let _ ← l.resolve
    throw stop

/-- Reads an option, with the value that is attached to it by an equality sign. -/
def long (l : Level) (page name : String) (value : Option String) : Except Stop Level :=
  match l.options.find? (·.long == some name) with
  | some a =>
    match a.takesValue, value with
    | true, none => do
      let l ← l.resolve
      pure { l with pending := some (a, none) }
    | true, some v => do
      let l ← l.resolve
      l.accept a (some v)
    | false, none => do
      let l ← l.resolve
      l.accept a (some "true")
    | false, some v => throw (.misuse (.valueUnexpected v a.shown))
  | none =>
    if name = "help" then l.ending name value (.help page)
    else if name = "version" ∧ l.versioned then l.ending name value .version
    else throw (.misuse (.argumentUnexpected ("--" ++ name)))

/-- Reads letters after one hyphen; the first one already ends reading. -/
def short (l : Level) (page : String) (c : Char) : Except Stop Level :=
  if c = 'h' then l.ending "help" none (.help page)
  else if c = 'V' ∧ l.versioned then l.ending "version" none .version
  else throw (.misuse (.argumentUnexpected ("-" ++ c.toString)))

/-- Reads a word that is no option. -/
def word (l : Level) (isGroup isMember : Bool) (w : String) : Except Stop Level :=
  match l.positionals with
  | a :: rest => do
    let l ← l.resolve
    pure { l with positionals := rest, pending := some (a, some w) }
  | [] =>
    if isGroup && !isMember then throw (.misuse (.commandUnknown w))
    else throw (.misuse (.argumentUnexpected w))

/-- Reads one word that does not name a member of a group. -/
def read (l : Level) (page : String) (isGroup isMember : Bool) (w : String) : Except Stop Level :=
  let plain : Except Stop Level :=
    match l.pending with
    | some (a, none) => pure { l with pending := some (a, some w) }
    | _ => l.word isGroup isMember w
  if l.trailing then l.word isGroup isMember w
  else match w.toList with
    | ['-', '-'] => pure { l with trailing := true }
    | '-' :: '-' :: rest =>
      match Text.splitAt? '=' (String.ofList rest) with
      | some (name, value) => l.long page name (some value)
      | none => l.long page (String.ofList rest) none
    | '-' :: c :: _ => l.short page c
    | _ => plain

/-- The values of a command after its last word. Every positional argument is needed. -/
def finish (l : Level) (page : String) (helpWhenBare : Bool) : Except Stop Matches := do
  let l ← l.resolve
  if helpWhenBare && l.found.isEmpty then throw (.bare page)
  else if l.positionals.isEmpty then pure l.found
  else throw (.misuse .argumentsMissing)

end Level

namespace Spec

variable {γ : Type}

/-- What comes of the end of the words. -/
def finish (globals : List Argument) (path : String) (l : Level) :
    Spec γ → Except Stop (List Matches × γ)
  | s@(.command _ _ _ helpWhenBare build) => do
    let found ← l.finish (s.page globals path) helpWhenBare
    pure ([found], build found)
  | s@(.group ..) => do
    let l ← l.resolve
    if l.found.isEmpty then throw (.bare (s.page globals path))
    else throw (.misuse (.commandMissing path))

/-- What comes of a request for help on a path of members. -/
def helpOn (globals : List Argument) (path : String) (s : Spec γ) : List String → Stop
  | [] => .help (s.page globals path)
  | name :: rest =>
    match s.member? name with
    | some m => helpOn globals (path ++ " " ++ name) m rest
    | none =>
      if s.isMember name then match rest with
        | [] => .help (s.page globals path)
        | next :: _ => .misuse (.commandUnknown next)
      else .misuse (.commandUnknown name)

/-- Reads the words after the name of a command: the values found at each level from here on, and
what the command makes of its own. -/
def parse (globals : List Argument) (path : String) (s : Spec γ) (l : Level) :
    List String → Except Stop (List Matches × γ)
  | [] => s.finish globals path l
  | w :: rest =>
    match if l.trailing || l.isAwaiting then none else s.member? w with
    | some m => do
      let (inner, result) ← parse globals (path ++ " " ++ w) m (.start globals false m) rest
      let l ← l.resolve
      pure (l.found :: inner, result)
    | none =>
      if !l.trailing && !l.isAwaiting && s.isMember w then throw (s.helpOn globals path rest)
      else do
        let l ← l.read (s.page globals path) s.isGroup (s.isMember w) w
        parse globals path s l rest

/-- Reads all the words after the name of the program. -/
def parseAll (globals : List Argument) (s : Spec γ) (words : List String) :
    Except Stop (List Matches × γ) :=
  s.parse globals s.name (.start globals true s) words

end Spec

/-- The values of an argument that all commands share: those at the innermost level that has any. -/
def sharedValues (levels : List Matches) (id : String) : List String :=
  ((levels.map (·.values id)).reverse.find? (!·.isEmpty)).getD []

end SnapshotKv.CommandLine
