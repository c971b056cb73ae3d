import GitPublish.Config.Document
import GitPublish.FileSystem.Action
import GitPublish.Path

/-!
# Configuration files

A configuration lives in a file, which a variable of the environment may name. A file that does not
exist stands for the default.
-/
namespace GitPublish

inductive ConfigError where
  | setting (cause : SettingError)
  | document (cause : Config.DocumentError)
  | write (cause : IoError)
  | read (path : Path) (cause : IoError)
  | invalid (path : Path) (cause : Config.DocumentError)
  | noHome
  deriving DecidableEq, Repr

namespace ConfigError

def message : ConfigError → String
  | setting cause => cause.message
  | document cause => cause.message
  | write cause => cause.message
  | read path _ => "Failed to read config file: " ++ path.text
  | invalid path _ => "Invalid config file: " ++ path.text
  | noHome => homeUnknown

def causes : ConfigError → List String
  | setting cause => cause.causes
  | document _ => []
  | write cause => cause.causes
  | read _ cause => cause.message :: cause.causes
  | invalid _ cause => [cause.message]
  | noHome => []

end ConfigError

namespace Config

/-- The variable that names the configuration file. -/
def pathVariable : String := "GITWRITE_CONFIG_PATH"

/-- Where the configuration file is below the home directory. -/
def homePath : Path := ⟨".config/gitwrite/config.toml"⟩

def path? (env : Environment) (account : Option Path) : Except ConfigError Path :=
  match env.lookup pathVariable with
  | some text => .ok ⟨text⟩
  | none =>
    match env.home? account with
    | some home => .ok (home / homePath)
    | none => .error .noHome

/-- The configuration in a file; the default if there is none. -/
def load (fs : FileSystem) (path : Path) : Except ConfigError Config :=
  if fs.isPresent path then
    match ((FileAction.readText path).run fs).1 with
    | .error cause => .error (.read path cause)
    | .ok text => (parse text).mapError (.invalid path)
  else .ok {}

/-- Writes a configuration to a file; the directories above it are made where they are missing. -/
def save (c : Config) (path : Path) : FileAction Unit := do
  match path.parent? with
  | some parent => FileAction.makeDirectories 0o777 parent
  | none => pure ()
  FileAction.write path c.print.toUTF8

/-- The private key to use, with `~` in its path replaced by the home directory. -/
def keyPath? (c : Config) (home : Option Path) : Except ConfigError (Option Path) :=
  match c.privateKey with
  | none => .ok none
  | some key =>
    match key.expandHome? home with
    | some path => .ok (some path)
    | none => .error .noHome

end Config
end GitPublish
