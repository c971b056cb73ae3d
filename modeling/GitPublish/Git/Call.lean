import GitPublish.FailureKind
import GitPublish.IoError

/-!
# Calls of commands

A call names a command, its arguments, the directory it runs in and the variables it is given. It
either exits cleanly or fails, and a failure keeps the call that failed. The arguments of the calls
of `git` are fixed by what they are for.
-/
namespace GitPublish

/-- A call of a command, in a directory or in the current one. Its variables are set on top of the
environment. -/
structure Call where
  command : String
  args : List String
  dir : Option Path
  environment : List (String × String) := []
  deriving DecidableEq, Repr

namespace Call

/-- The call as it would be typed, and where. -/
def description (c : Call) : String :=
  let place := match c.dir with
    | some dir => dir.text
    | none => "the current directory"
  "`" ++ c.command ++ " " ++ " ".intercalate c.args ++ "` in " ++ place

end Call

inductive RunError where
  | exited (call : Call) (code : Option Int) (output : String)
  | notStarted (call : Call) (cause : IoError)
  deriving DecidableEq, Repr

namespace RunError

def hasExited : RunError → Bool
  | exited .. => true
  | notStarted .. => false

/-- The exit code, if the command ran and was not ended by a signal. -/
def code? : RunError → Option Int
  | exited _ code _ => code
  | notStarted .. => none

def message : RunError → String
  | exited call code output =>
    let ending := match code with
      | some n => "status " ++ toString n
      | none => "a signal"
    call.description ++ " exited with " ++ ending ++ ": " ++ summary output
  | notStarted call _ => "failed to run " ++ call.description

def causes : RunError → List String
  | exited .. => []
  | notStarted _ cause => cause.message :: cause.causes

/-- The kind of failure: from the error output of a command that ran, otherwise from the reason why
it could not be started. -/
def failureKind : RunError → FailureKind
  | exited _ _ output => .ofOutput output
  | notStarted _ cause =>
    match cause.kind with
    | .permissionDenied => .permission
    | .notFound => .notFound
    | _ => .unknown

end RunError

/-! ## Arguments of git

File names stand behind `--`, so that none of them can be taken for an option.
-/

namespace Git

def clone (url : String) (dir : Path) : List String := ["clone", url, dir.text]

/-- Switch to a branch, which may have to be made first. -/
def checkout (branch : String) (create : Bool) : List String :=
  ["checkout"] ++ (if create then ["-b"] else []) ++ [branch]

def add (files : List Path) : List String := ["add", "--"] ++ files.map (·.text)

/-- Ask whether nothing is staged. -/
def diff : List String := ["diff", "--cached", "--quiet"]

def config (key value : String) : List String := ["config", key, value]

def commit (message user email : String) : List String :=
  ["commit", "-m", message, "--author=" ++ user ++ " <" ++ email ++ ">"]

def push : List String := ["push"]

end Git
end GitPublish
