import GitPublish.Config
import GitPublish.Toml.Print
import GitPublish.Toml.Read

/-!
# Configurations as documents

A configuration is stored as a TOML document with a table for each section. Reading ignores what it
does not know, and takes the default for what is missing. A section may also be written as a list of
its values in order.
-/
namespace GitPublish

namespace Toml.Value

mutual

/-- Whether all numbers in a value are within the range of numbers. -/
def inRange : Value → Bool
  | .integer n => -(Nat.pow 2 127 : Nat) ≤ n && n < (Nat.pow 2 128 : Nat)
  | .float cs => !isTooLarge cs
  | .array items => allInRange items
  | .tables items => tablesInRange items
  | .table _ entries => entriesInRange entries
  | _ => true

def allInRange : List Value → Bool
  | [] => true
  | v :: vs => inRange v && allInRange vs

def tablesInRange : List (List (String × Value)) → Bool
  | [] => true
  | t :: ts => entriesInRange t && tablesInRange ts

def entriesInRange : List (String × Value) → Bool
  | [] => true
  | (_, v) :: rest => inRange v && entriesInRange rest

end

def text? : Value → Option String
  | .string text => some text
  | _ => none

def boolean? : Value → Option Bool
  | .boolean b => some b
  | _ => none

end Toml.Value

namespace Config

/-- What a section gives. A table gives its entries, and its other numbers have to be in range. A
list gives its items in order. A date gives nothing. -/
def given? (names : List String) (needsAll : Bool) (v : Toml.Value) :
    Option (List (String × Toml.Value)) :=
  match v with
  | .table _ entries =>
    if Toml.Value.entriesInRange (entries.filter fun e => !names.contains e.1) then
      some (entries.filter fun e => names.contains e.1)
    else none
  | .array items =>
    if needsAll && items.length < names.length then none else some (names.zip items)
  | .tables items =>
    if needsAll && items.length < names.length then none
    else some (names.zip (items.map (.table .header)))
  | .datetime => some []
  | _ => none

/-- The value of a setting that may be missing; if given, it has to be of the right kind. -/
def read? {α : Type} (given : List (String × Toml.Value)) (name : String)
    (read : Toml.Value → Option α) : Option (Option α) :=
  match given.lookup name with
  | none => some none
  | some v => (read v).map some

def readGit? (c : Config) (v : Toml.Value) : Option Config := do
  let given ← given? ["private_ssh_key_path", "clone_prefix", "branch", "bootstrap"] false v
  let key ← read? given "private_ssh_key_path" Toml.Value.text?
  let stem ← read? given "clone_prefix" Toml.Value.text?
  let branch ← read? given "branch" Toml.Value.text?
  let bootstrap ← read? given "bootstrap" Toml.Value.boolean?
  some
    { c with
      privateKey := key.map fun text => ⟨text⟩
      stem := stem.getD defaultStem
      branch
      bootstrap := bootstrap.getD false }

def readUser? (c : Config) (v : Toml.Value) : Option Config := do
  let given ← given? ["name", "email"] true v
  let name ← read? given "name" Toml.Value.text?
  let email ← read? given "email" Toml.Value.text?
  some { c with name, email }

def ofEntries? (entries : Toml.Entries) : Option Config := do
  let c ← match entries.lookup "git" with
    | some v => readGit? {} v
    | none => some {}
  let c ← match entries.lookup "user" with
    | some v => readUser? c v
    | none => some c
  let others := entries.filter fun e => e.1 ≠ "git" && e.1 ≠ "user"
  if Toml.Value.entriesInRange others then some c else none

inductive DocumentError where
  | malformed
  | invalidStem (value : String)
  | invalidEmail (value : String)
  deriving DecidableEq, Repr

def DocumentError.message : DocumentError → String
  | malformed => "Failed to parse TOML config"
  | invalidStem value =>
    "git.clone_prefix must be a non-empty file name prefix, got '" ++ value ++ "'"
  | invalidEmail value => "Invalid email address: " ++ value

def check (c : Config) : Except DocumentError Config :=
  if !isStem c.stem then .error (.invalidStem c.stem)
  else
    match c.email with
    | some email => if isEmail email then .ok c else .error (.invalidEmail email)
    | none => .ok c

def parse (text : String) : Except DocumentError Config :=
  match (Toml.read? text).bind ofEntries? with
  | some c => c.check
  | none => .error .malformed

/-- A line of a document with a text, if there is one. -/
def textLine (name : String) (value : Option String) : String :=
  match value with
  | some text => name ++ " = " ++ Toml.quote text ++ "\n"
  | none => ""

def print (c : Config) : String :=
  "[git]\n" ++ textLine "private_ssh_key_path" (c.privateKey.map Path.text) ++
    textLine "clone_prefix" (some c.stem) ++ textLine "branch" c.branch ++
    "bootstrap = " ++ (if c.bootstrap then "true" else "false") ++ "\n" ++
    "\n[user]\n" ++ textLine "name" c.name ++ textLine "email" c.email

end Config
end GitPublish
