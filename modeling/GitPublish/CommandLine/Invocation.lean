import GitPublish.CommandLine.Read
import GitPublish.Path
import GitPublish.Report

/-!
# What the program is asked to do

A command line asks for one command, with what the command needs to know.
-/
namespace GitPublish.CommandLine

/-- What is given for publishing; what is not given is taken from the configuration. -/
structure PushArguments where
  url : String
  branch : Option String
  bootstrap : Bool
  source : Path
  subdir : Option Path
  message : String
  user : Option String
  email : Option String
  sshKey : Option Path
  stem : Option String
  keep : Bool
  deriving DecidableEq, Repr

inductive ConfigAction where
  | init (force : Bool)
  | list
  | get (key : String)
  | set (key value : String)
  deriving DecidableEq, Repr

inductive Command where
  | validate (url : String)
  | name (url : String)
  | push (arguments : PushArguments)
  | config (action : ConfigAction)
  | completion (shell : String)
  deriving DecidableEq, Repr

structure Invocation where
  verbose : Bool
  quiet : Bool
  command : Command
  deriving DecidableEq, Repr

def Invocation.verbosity (i : Invocation) : Verbosity := .ofFlags i.verbose i.quiet

namespace Given

def text? (g : Given) (f : Field) : Option String := g.lookup f

def text (g : Given) (f : Field) : String := (g.lookup f).getD ""

def has (g : Given) (f : Field) : Bool := (g.lookup f).isSome

def path? (g : Given) (f : Field) : Option Path := (g.lookup f).map fun t => ⟨t⟩

/-- What is given for publishing. The current directory is published unless another is given. -/
def pushArguments (g : Given) : PushArguments :=
  { url := text g .urlOption, branch := text? g .branch, bootstrap := has g .bootstrap,
    source := (path? g .source).getD ⟨"."⟩, subdir := path? g .subdir, message := text g .message,
    user := text? g .user, email := text? g .email, sshKey := path? g .sshKey,
    stem := text? g .stem, keep := has g .keep }

def command? (g : Given) : Place → Option Command
  | .validate => some (.validate (text g .url))
  | .name => some (.name (text g .url))
  | .push => some (.push (pushArguments g))
  | .configInit => some (.config (.init (has g .force)))
  | .configList => some (.config .list)
  | .configGet => some (.config (.get (text g .key)))
  | .configSet => some (.config (.set (text g .key) (text g .value)))
  | .completion => some (.completion (text g .shell))
  | .root | .config | .rootHelp | .configHelp => none

end Given

/-- What a command line asks for. The last place that it leads to is that of a command, since
reading ends at no other. -/
def parse (env : Environment) (words : List String) : Except UsageError Invocation := do
  let read ← readWords env .root {} words
  let asks (f : Field) := read.any fun (_, g) => Given.has g f
  match read.getLast?.bind fun (p, g) => Given.command? g p with
  | some command => pure { verbose := asks .verbose, quiet := asks .quiet, command }
  | none => throw .missingCommand

end GitPublish.CommandLine
