import GitPublish.FileSystem.Action
import GitPublish.Git.Call
import GitPublish.Path
import GitPublish.RepoError
import GitPublish.Shell.Word

/-!
# Sessions

A session runs commands, one at a time, and keeps what they and the program itself do to the file
system. What a command does is up to a runner: given the calls that were made before, it may do
anything to the files and answer as it likes.
-/
namespace GitPublish

/-- How a command ends: it exits with a code, or with none if a signal ended it, unless it cannot be
started. -/
inductive Reply where
  | succeeded
  | exited (code : Option Int) (output : String)
  | notStarted (cause : IoError)
  deriving DecidableEq, Repr

def Reply.result (call : Call) : Reply → Except RunError Unit
  | succeeded => .ok ()
  | exited code output => .error (.exited call code output)
  | notStarted cause => .error (.notStarted call cause)

/-- What commands do: how each call ends, and which files it leaves, depends on the calls before it,
on the call itself and on the files it finds. -/
structure Runner where
  answer : List Call → Call → FileSystem → Reply × FileSystem

/-- Work on a repository in progress, with the calls that were made and how they ended, in order.
The variables of `overrides` are set for every command; the names of temporary directories end as
`fresh` says, each ending to be tried in its turn. -/
structure Session where
  runner : Runner
  overrides : Environment
  temporary : Path
  fresh : List String
  files : FileSystem
  calls : List Call
  workDir : Option Path
  replies : List Reply := []

/-- The variables that make `git` use a private key. -/
def keyOverrides (key : Option Path) : Environment :=
  match key with
  | some key =>
    [("GIT_SSH_COMMAND", "ssh -i " ++ String.ofList (Shell.quote key.text.toList))]
  | none => []

/-- Work on a repository: it ends with a value or a failure, and in either case with the session as
it was left. -/
abbrev Work (α : Type) := ExceptT RepoError (StateM Session) α

namespace Work

def call (command : String) (dir : Option Path) (args : List String) :
    StateM Session (Except RunError Unit) := fun s =>
  let call : Call := { command, args, dir, environment := s.overrides }
  let (reply, files) := s.runner.answer s.calls call s.files
  (reply.result call,
    { s with files, calls := s.calls ++ [call], replies := s.replies ++ [reply] })

def git (dir : Option Path) (args : List String) : StateM Session (Except RunError Unit) :=
  call "git" dir args

/-- Runs `git`; it has to succeed. -/
def demand (failure : RunError → RepoError) (dir : Option Path) (args : List String) :
    Work Unit := do
  match ← git dir args with
  | .ok () => pure ()
  | .error cause => throw (failure cause)

/-- A result that is known already. -/
def ofResult {α : Type} (result : Except RepoError α) : Work α := ExceptT.mk (pure result)

/-- The result of some work, which is no failure here even if it is one. -/
def observe {α : Type} (work : Work α) : Work (Except RepoError α) := fun s =>
  let (result, s) := work.run s
  (.ok result, s)

/-- Does something to the files; it has to succeed. -/
def onFiles {α : Type} (failure : IoError → RepoError) (action : FileAction α) : Work α := do
  let s ← get
  let (result, files) := action.run s.files
  set { s with files }
  match result with
  | .ok value => pure value
  | .error cause => throw (failure cause)

end Work
end GitPublish
