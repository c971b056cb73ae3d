/-!
# What can be said on the command line

The program has commands, and some of its commands have commands of their own. At each place,
options and values can be given. An option has a long name and perhaps a letter, and may take a
value, which has to be of the right form.
-/
namespace GitPublish.CommandLine

def shells : List String := ["bash", "elvish", "fish", "powershell", "zsh"]

/-- What can be given: options, and values that stand for themselves. -/
inductive Field where
  | help
  | version
  | verbose
  | quiet
  | urlOption
  | branch
  | bootstrap
  | source
  | subdir
  | message
  | user
  | email
  | sshKey
  | stem
  | keep
  | force
  | url
  | key
  | value
  | shell
  deriving DecidableEq, Repr

namespace Field

def long? : Field → Option String
  | help => some "help"
  | version => some "version"
  | verbose => some "verbose"
  | quiet => some "quiet"
  | urlOption => some "url"
  | branch => some "branch"
  | bootstrap => some "bootstrap"
  | source => some "source"
  | subdir => some "subdir"
  | message => some "message"
  | user => some "user"
  | email => some "email"
  | sshKey => some "ssh-key"
  | stem => some "prefix"
  | keep => some "keep"
  | force => some "force"
  | url | key | value | shell => none

def letter? : Field → Option Char
  | help => some 'h'
  | version => some 'V'
  | verbose => some 'v'
  | quiet => some 'q'
  | branch => some 'b'
  | source => some 's'
  | message => some 'm'
  | force => some 'f'
  | _ => none

/-- Whether an option is a flag, which takes no value. -/
def isFlag : Field → Bool
  | help | version | verbose | quiet | bootstrap | keep | force => true
  | _ => false

/-- Whether a value is of the right form. A path must not be empty. -/
def accepts : Field → String → Bool
  | source, v | subdir, v | sshKey, v => v ≠ ""
  | shell, v => shells.contains v
  | _, _ => true

/-- The variable that gives an option where the command line does not. -/
def envName? : Field → Option String
  | urlOption => some "GITWRITE_URL"
  | sshKey => some "GITWRITE_SSH_KEY"
  | _ => none

end Field

/-- A place on the command line: behind the name of the program or of a command. -/
inductive Place where
  | root
  | validate
  | name
  | push
  | config
  | configInit
  | configList
  | configGet
  | configSet
  | completion
  | rootHelp
  | configHelp
  deriving DecidableEq, Repr

namespace Place

def commands : Place → List (String × Place)
  | root =>
    [("validate", validate), ("name", name), ("push", push), ("config", config),
      ("completion", completion), ("help", rootHelp)]
  | config =>
    [("init", configInit), ("list", configList), ("get", configGet), ("set", configSet),
      ("help", configHelp)]
  | _ => []

/-- Whether a place is one that explains others. -/
def isHelp (p : Place) : Bool := p = rootHelp || p = configHelp

/-- The options of a place that not all places have. -/
def ownOptions : Place → List Field
  | root => [.version]
  | push =>
    [.urlOption, .branch, .bootstrap, .source, .subdir, .message, .user, .email, .sshKey, .stem,
      .keep]
  | configInit => [.force]
  | _ => []

def options (p : Place) : List Field := p.ownOptions ++ [.verbose, .quiet, .help]

/-- The values that stand for themselves at a place, in order. -/
def values : Place → List Field
  | validate | name => [.url]
  | configGet => [.key]
  | configSet => [.key, .value]
  | completion => [.shell]
  | _ => []

def required : Place → List Field
  | push => [.urlOption, .message]
  | p => p.values

def long? (p : Place) (name : String) : Option Field :=
  p.options.find? fun f => f.long? = some name

def letter? (p : Place) (letter : Char) : Option Field :=
  p.options.find? fun f => f.letter? = some letter

end Place
end GitPublish.CommandLine
