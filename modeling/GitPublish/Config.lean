import GitPublish.Path
import GitPublish.Text

/-!
# Configurations

A configuration holds what publishing needs to know every time. Its settings are read and changed by
their keys, and its values always satisfy two rules: temporary directories have names that start
with a part of a file name, and an address has an `@`.
-/
namespace GitPublish

/-- How the names of temporary directories start unless the configuration says otherwise. -/
def defaultStem : String := "gitwrite-"

structure Config where
  privateKey : Option Path := none
  stem : String := defaultStem
  branch : Option String := none
  bootstrap : Bool := false
  name : Option String := none
  email : Option String := none
  deriving DecidableEq, Repr, Inhabited

inductive Setting where
  | privateKey
  | stem
  | branch
  | bootstrap
  | name
  | email
  deriving DecidableEq, Repr

namespace Setting

def all : List Setting := [privateKey, stem, branch, bootstrap, name, email]

def sectionAndName : Setting → String × String
  | privateKey => ("git", "private_ssh_key_path")
  | stem => ("git", "clone_prefix")
  | branch => ("git", "branch")
  | bootstrap => ("git", "bootstrap")
  | name => ("user", "name")
  | email => ("user", "email")

def key (s : Setting) : String := s.sectionAndName.1 ++ "." ++ s.sectionAndName.2

def find? (place : String × String) : Option Setting := all.find? fun s => s.sectionAndName = place

end Setting

/-- The section and the name that a key consists of; the first dot divides them. -/
def splitKey (key : String) : Option (String × String) :=
  match Text.cut '.' key.toList with
  | (place, some name) => some (String.ofList place, String.ofList name)
  | (_, none) => none

/-- Why a setting cannot be changed. An invalid key has no dot. -/
inductive SettingError where
  | invalidKey (key : String)
  | unknownKey (key : String)
  | invalidEmail (value : String)
  | invalidStem (value : String)
  | invalidBoolean (value : String)
  deriving DecidableEq, Repr

namespace SettingError

def message : SettingError → String
  | invalidKey key => "Invalid configuration key: " ++ key
  | unknownKey key => "Unknown configuration key: " ++ key
  | invalidEmail value => "Invalid email address: " ++ value
  | invalidStem value => "Invalid clone prefix: '" ++ value ++ "'"
  | invalidBoolean value => "Invalid boolean: " ++ value

def causes : SettingError → List String
  | invalidBoolean _ => ["provided string was not \x60true\x60 or \x60false\x60"]
  | _ => []

end SettingError

def isEmail (value : String) : Bool := value.toList.contains '@'

/-- Whether names of files can start with a text. -/
def isStem (value : String) : Bool := value ≠ "" && !value.toList.contains '/'

namespace Config

/-- Whether a configuration satisfies the rules. -/
def isValid (c : Config) : Bool := isStem c.stem && c.email.all isEmail

def value (c : Config) : Setting → Option String
  | .privateKey => c.privateKey.map Path.text
  | .stem => some c.stem
  | .branch => c.branch
  | .bootstrap => some (if c.bootstrap then "true" else "false")
  | .name => c.name
  | .email => c.email

def get? (c : Config) (key : String) : Option String :=
  ((splitKey key).bind Setting.find?).bind c.value

/-- Work on a configuration in place, which may be refused. -/
abbrev Update := ExceptT SettingError (StateM Config)

def assign (s : Setting) (value : String) : Update Unit :=
  match s with
  | .privateKey => modify fun c => { c with privateKey := some ⟨value⟩ }
  | .stem => do
    if !isStem value then throw (.invalidStem value)
    modify fun c => { c with stem := value }
  | .branch => modify fun c => { c with branch := some value }
  | .bootstrap =>
    if value = "true" then modify fun c => { c with bootstrap := true }
    else if value = "false" then modify fun c => { c with bootstrap := false }
    else throw (.invalidBoolean value)
  | .name => modify fun c => { c with name := some value }
  | .email => do
    if !isEmail value then throw (.invalidEmail value)
    modify fun c => { c with email := some value }

def update (key value : String) : Update Unit :=
  match splitKey key with
  | none => throw (.invalidKey key)
  | some place =>
    match Setting.find? place with
    | none => throw (.unknownKey key)
    | some s => assign s value

/-- A configuration with the setting with a key changed. -/
def set (c : Config) (key value : String) : Except SettingError Config :=
  match (update key value).run c with
  | (.ok (), c') => .ok c'
  | (.error cause, _) => .error cause

end Config
end GitPublish
