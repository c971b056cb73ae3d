import GitPublish.CommandLine.Read

/-!
# Help on the command line

The help for a place lists its commands, options and values. It is made from the grammar, and so are
the completions for shells and the words for a command line that is not followed.
-/
namespace GitPublish.CommandLine

def programName : String := "gitwrite"

def versionLine : String := programName ++ " 0.1.0\n"

namespace Field

/-- What a field is called where its value is meant. -/
def label : Field → String
  | url => "URL"
  | key => "KEY"
  | value => "VALUE"
  | shell => "SHELL"
  | f => (f.long?.getD "").toUpper

def usage (f : Field) : String :=
  let letter := match f.letter? with
    | some c => String.ofList ['-', c] ++ ", "
    | none => ""
  let long := "--" ++ f.long?.getD ""
  letter ++ long ++ (if f.isFlag then "" else " <" ++ f.label ++ ">")

end Field

def Place.summary : Place → String
  | .root => "Publish files to a git repository over SSH"
  | .validate => "Check that a URL is an SSH git URL"
  | .name => "Print the short name of a repository"
  | .push => "Publish a directory to a repository"
  | .config => "Read and change the configuration"
  | .configInit => "Write the default configuration"
  | .configList => "Show all settings"
  | .configGet => "Show a setting"
  | .configSet => "Change a setting"
  | .completion => "Print completions for a shell"
  | .rootHelp | .configHelp => "Print help"

def helpText (p : Place) : String :=
  let values := p.values.map fun f => "  <" ++ f.label ++ ">\n"
  let commands := p.commands.map fun (name, q) => "  " ++ name ++ "  " ++ q.summary ++ "\n"
  let options := p.options.map fun f => "  " ++ f.usage ++ "\n"
  let part (title : String) (lines : List String) :=
    if lines = [] then "" else "\n" ++ title ++ ":\n" ++ String.join lines
  p.summary ++ "\n" ++ part "Commands" commands ++ part "Arguments" values ++ part "Options" options

/-- The words that can follow the name of the program, for the completions of a shell. -/
def completionText (shell : String) : String :=
  let words := " ".intercalate (Place.root.commands.map (·.1))
  match shell with
  | "bash" => "complete -W '" ++ words ++ "' " ++ programName ++ "\n"
  | "fish" => "complete -c " ++ programName ++ " -f -a '" ++ words ++ "'\n"
  | "zsh" => "#compdef " ++ programName ++ "\ncompadd " ++ words ++ "\n"
  | "elvish" =>
    "set edit:completion:arg-completer[" ++ programName ++ "] = \x7b|@words| put " ++ words ++
      " \x7d\n"
  | _ =>
    "Register-ArgumentCompleter -Native -CommandName " ++ programName ++
      " -ScriptBlock \x7b '" ++ words ++ "' -split ' ' \x7d\n"

def UsageError.message : UsageError → String
  | .help p => helpText p
  | .version => versionLine
  | .nothingGiven p => helpText p
  | .missingCommand => "error: a command is needed\n"
  | .invalidCommand word => "error: unrecognized command '" ++ word ++ "'\n"
  | .unknownWord word => "error: unexpected argument '" ++ word ++ "'\n"
  | .flagWithValue f => "error: " ++ f.usage ++ " takes no value\n"
  | .repeated f => "error: " ++ f.usage ++ " is given twice\n"
  | .invalidValue f => "error: invalid value for " ++ f.label ++ "\n"
  | .missing f => "error: " ++ f.label ++ " is missing\n"

end GitPublish.CommandLine
