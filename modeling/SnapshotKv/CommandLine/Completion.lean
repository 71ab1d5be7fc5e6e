import SnapshotKv.CommandLine.Command

/-!
# Shell completion

A script for each known shell that offers the names of the commands and the long options.
-/

namespace SnapshotKv.CommandLine

/-- The words that completion offers. -/
def completionWords : List String :=
  grammar.members.map Spec.name ++ [Spec.helpName]
    ++ sharedOptions.filterMap (fun a => a.long.map ("--" ++ ·)) ++ ["--help", "--version"]

/-- The completion script of a shell. -/
def completionScript (shell : String) : String :=
  let words := " ".intercalate completionWords
  let quoted := " ".intercalate (completionWords.map fun w => "'" ++ w ++ "'")
  let command := match shell with
    | "bash" => "complete -W \"" ++ words ++ "\" " ++ programName
    | "elvish" =>
      "set edit:completion:arg-completer[" ++ programName ++ "] = \x7b|@_| put " ++ words ++ " \x7d"
    | "fish" => "complete -c " ++ programName ++ " -f -a \"" ++ words ++ "\""
    | "powershell" =>
      "Register-ArgumentCompleter -Native -CommandName " ++ programName ++ " -ScriptBlock \x7b "
        ++ ", ".intercalate (completionWords.map fun w => "'" ++ w ++ "'") ++ " \x7d"
    | _ => "compadd -- " ++ quoted
  let header := if shell = "zsh" then "#compdef " ++ programName
    else "# " ++ shell ++ " completion for " ++ programName
  header ++ "\n" ++ command ++ "\n"

end SnapshotKv.CommandLine
