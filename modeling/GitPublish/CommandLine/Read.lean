import GitPublish.CommandLine.Grammar
import GitPublish.Path
import GitPublish.Text

/-!
# Reading the command line

Words are read from left to right. An option without an attached value takes the next word, unless
that word is an option itself. A word that names a command leads to that command, and all words
behind it belong there. Behind `--`, no word is an option or a command. What is missing is taken
from the environment, and only then demanded.
-/
namespace GitPublish.CommandLine

inductive UsageError where
  | help (place : Place)
  | version
  | nothingGiven (place : Place)
  | missingCommand
  | invalidCommand (word : String)
  | unknownWord (word : String)
  | flagWithValue (field : Field)
  | repeated (field : Field)
  | invalidValue (field : Field)
  | missing (field : Field)
  deriving DecidableEq, Repr

/-- The exit code of the program; to ask for help or for the version is no failure. -/
def UsageError.exitCode : UsageError → Nat
  | help _ | version => 0
  | _ => 2

/-- What is given at a place, each with its value; a flag has an empty one. -/
abbrev Given := List (Field × String)

/-- What has been read at a place. The value of a pending field is still to be taken up or to be
read, and once `--` has closed the options every word is a value. -/
structure Reading where
  given : Given := []
  pending : Option (Field × Option String) := none
  count : Nat := 0
  closed : Bool := false
  deriving Repr

namespace Reading

/-- Takes up what was read last. -/
def resolve (r : Reading) : Except UsageError Reading :=
  match r.pending with
  | none => .ok r
  | some (f, none) => .error (.invalidValue f)
  | some (f, some v) =>
    if (r.given.lookup f).isSome then .error (.repeated f)
    else if f.accepts v then .ok { r with given := r.given ++ [(f, v)], pending := none }
    else .error (.invalidValue f)

/-- Takes up a value at once. -/
def take (r : Reading) (f : Field) (v : String) : Except UsageError Reading := do
  let r ← r.resolve
  { r with pending := some (f, some v) }.resolve

def takeFlag (p : Place) (r : Reading) (f : Field) : Except UsageError Reading :=
  match f with
  | .help => do let _ ← r.resolve; throw (.help p)
  | .version => do let _ ← r.resolve; throw .version
  | f => r.take f ""

def expect (r : Reading) (f : Field) : Except UsageError Reading := do
  let r ← r.resolve
  pure { r with pending := some (f, none) }

def readLong (p : Place) (r : Reading) (cs : List Char) : Except UsageError Reading :=
  let (name, attached) := Text.cut '=' cs
  match p.long? (String.ofList name), attached with
  | none, _ => .error (.unknownWord ("--" ++ String.ofList name))
  | some f, none => if f.isFlag then r.takeFlag p f else r.expect f
  | some f, some v =>
    if f.isFlag then .error (.flagWithValue f) else r.take f (String.ofList v)

/-- Reads letters behind one dash: flags, and at the end perhaps an option with its value. -/
def readLetters (p : Place) (r : Reading) : List Char → Except UsageError Reading
  | [] => .ok r
  | c :: rest =>
    match p.letter? c with
    | none => .error (.unknownWord (String.ofList ['-', c]))
    | some f =>
      if f.isFlag then do
        let r ← r.takeFlag p f
        readLetters p r rest
      else
        match rest with
        | [] => r.expect f
        | '=' :: v => r.take f (String.ofList v)
        | v => r.take f (String.ofList v)

def readValue (p : Place) (r : Reading) (word : String) : Except UsageError Reading :=
  match p.values[r.count]? with
  | some f => do
    let r ← r.resolve
    pure { r with pending := some (f, some word), count := r.count + 1 }
  | none =>
    let isCommand := (p.commands.lookup word).isSome
    if p.commands ≠ [] && !(r.closed && isCommand) then .error (.invalidCommand word)
    else .error (.unknownWord word)

/-- The option whose value has to come next. -/
def waiting? (r : Reading) : Option Field :=
  match r.pending with
  | some (f, none) => some f
  | _ => none

def command? (p : Place) (r : Reading) (word : String) : Option Place :=
  if r.closed || r.waiting?.isSome then none else p.commands.lookup word

def readWord (p : Place) (r : Reading) (word : String) : Except UsageError Reading :=
  if r.closed then r.readValue p word
  else
    match word.toList with
    | ['-', '-'] => .ok { r with closed := true }
    | '-' :: '-' :: rest => r.readLong p rest
    | ['-'] => valueOrNext
    | '-' :: letters => r.readLetters p letters
    | _ => valueOrNext
where
  valueOrNext : Except UsageError Reading :=
    match r.waiting? with
    | some f => .ok { r with pending := some (f, some word) }
    | none => r.readValue p word

/-- Fills in what is missing from the environment. -/
def fill (env : Environment) (given : Given) (f : Field) : Except UsageError Given :=
  match given.lookup f, f.envName?.bind fun v => env.lookup v with
  | none, some v => if f.accepts v then .ok (given ++ [(f, v)]) else .error (.invalidValue f)
  | _, _ => .ok given

/-- What is given at a place when no word is left. -/
def finish (env : Environment) (p : Place) (r : Reading) : Except UsageError Given := do
  let r ← r.resolve
  let given ← p.options.foldlM (fill env) r.given
  if p.commands ≠ [] then throw (if given = [] then .nothingGiven p else .missingCommand)
  match p.required.find? fun f => (given.lookup f).isNone with
  | some f => throw (.missing f)
  | none => pure given

end Reading

/-- The place that words lead to, for which help is asked. -/
def helpPlace (p : Place) : List String → UsageError
  | [] => .help p
  | word :: rest =>
    match p.commands.lookup word with
    | some q => helpPlace q rest
    | none => .invalidCommand word

/-- The places that words lead to, with what is given at each. -/
def readWords (env : Environment) (p : Place) (r : Reading) :
    List String → Except UsageError (List (Place × Given))
  | [] => do
    let given ← r.finish env p
    pure [(p, given)]
  | word :: rest =>
    match r.command? p word with
    | some q =>
      if q.isHelp then .error (helpPlace p rest)
      else do
        let inner ← readWords env q {} rest
        let r ← r.resolve
        pure ((p, r.given) :: inner)
    | none => do
      let r ← r.readWord p word
      readWords env p r rest

end GitPublish.CommandLine
