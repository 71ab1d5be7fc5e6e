import SnapshotKv.CommandLine.Grammar

/-!
# The commands of the program

What the program can be asked to do (`Command`), the grammar of its command line, and an
`Invocation`: a command with the home and the parameters that every command shares.
-/

namespace SnapshotKv.CommandLine

/-- What the program can be asked to do. -/
inductive Command where
  | createDatabase
  | dropDatabase
  | showDatabase
  | compactDatabase
  | createStore (name : String) (prefixLength : Nat)
  | dropStore (name : String)
  | listStores
  | put (store key value : String)
  | get (store key : String)
  | delete (store key : String) (wholePrefix : Bool)
  | scan (store : String) (filter : Option String) (reverse : Bool) (start : Option String)
      (limit : Option Nat)
  | version
  | completion (shell : String)
  deriving DecidableEq, Repr

/-- The name of the program. -/
def programName : String := "hsekv"

/-- The shells that completion is known for. -/
def shells : List String := ["bash", "elvish", "fish", "powershell", "zsh"]

/-- The options that every command shares. -/
def sharedOptions : List Argument :=
  [.option "home" "home" "HOME" .path "KVDB home directory (default: current directory)",
    { Argument.option "params" "param" "KEY=VALUE" .text "KVDB parameter (repeatable)" with
      repeatable := true }]

/-- The store argument. -/
def storeArgument : Argument := .positional "kvs" "KVS" .text "Name of the store"

/-- The key argument. -/
def keyArgument : Argument := .positional "key" "KEY" .text "Key of the record"

/-- The name argument of the commands that administer stores. -/
def nameArgument : Argument := .positional "name" "NAME" .text "Name of the store"

/-- The commands on a database. -/
def databaseCommands : Spec Command :=
  .group "kvdb" "Create, drop, inspect, or compact the KVDB"
    [.command "create" "Create a KVDB in the home directory" [] false fun _ => .createDatabase,
      .command "drop" "Remove the KVDB and all of its data" [] false fun _ => .dropDatabase,
      .command "info" "Show stores, media classes, and compaction status" [] false
        fun _ => .showDatabase,
      .command "compact" "Prune versions no live snapshot can see" [] false
        fun _ => .compactDatabase]

/-- The commands on stores. -/
def storeCommands : Spec Command :=
  .group "kvs" "Create, drop, or list key-value stores"
    [.command "create" "Create a key-value store"
        [nameArgument, .option "prefix_length" "prefix-length" "PREFIX_LENGTH" .count
          "Key prefix length (0..=32)"] false
        fun m => .createStore (m.text "name") ((m.count? "prefix_length").getD 0),
      .command "drop" "Drop a key-value store and its data" [nameArgument] false
        fun m => .dropStore (m.text "name"),
      .command "list" "List key-value stores" [] false fun _ => .listStores]

/-- The commands on records. -/
def recordCommands : List (Spec Command) :=
  [.command "put" "Store a value under a key"
      [storeArgument, keyArgument, .positional "value" "VALUE" .text "Value to store"] false
      fun m => .put (m.text "kvs") (m.text "key") (m.text "value"),
    .command "get" "Print the value stored under a key" [storeArgument, keyArgument] false
      fun m => .get (m.text "kvs") (m.text "key"),
    .command "del" "Delete a key, or every key with a prefix"
      [storeArgument, keyArgument, .switch "prefix" "prefix"
        "Treat KEY as a prefix of exactly the KVS prefix length"] false
      fun m => .delete (m.text "kvs") (m.text "key") (m.given "prefix"),
    .command "scan" "List records in key order"
      [storeArgument,
        .option "filter" "filter" "FILTER" .text "Only keys starting with this prefix",
        .switch "reverse" "reverse" "Iterate in descending key order",
        .option "from" "from" "FROM" .text "Start at the first key at or past this one",
        .option "limit" "limit" "LIMIT" .count "Stop after this many records"] false
      fun m => .scan (m.text "kvs") (m.lookup "filter") (m.given "reverse") (m.lookup "from")
        (m.count? "limit")]

/-- The grammar of the command line. -/
def grammar : Spec Command :=
  .group programName "Administer and query an embedded transactional key-value database" <|
    [databaseCommands, storeCommands] ++ recordCommands ++
    [.command "version" "Print version information" [] false fun _ => .version,
      .command "completion" "Generate shell completions"
        [.positional "shell" "SHELL" (.choice shells) "Shell to generate completions for"] true
        fun m => .completion (m.text "shell")]

/-- A command with what every command shares. -/
structure Invocation where
  home : String
  params : List String
  command : Command
  deriving DecidableEq, Repr

/-- What the words after the name of the program ask for. The home is the current directory unless
one is given. -/
def Invocation.ofWords (words : List String) : Except Stop Invocation := do
  let (levels, command) ← grammar.parseAll sharedOptions words
  pure
    { home := (sharedValues levels "home").head?.getD "."
      params := sharedValues levels "params"
      command }

end SnapshotKv.CommandLine
