import GitPublish.FileSystem.Action
import GitPublish.Git.Call
import GitPublish.Session

/-!
# Working on a clone

A repository is cloned into a directory, and from then on that directory is the one that is worked
on: files are staged, committed and pushed there, until another clone takes its place. Removing the
clone does not change which directory is worked on.
-/
namespace GitPublish

/-- What is cloned, and the branch to work on if it is not the one that the repository chooses. With
`bootstrap` the branch is made if the repository is empty. -/
structure CloneOptions where
  url : String
  branch : Option String
  bootstrap : Bool
  deriving DecidableEq, Repr

inductive CommitOutcome where
  | committed
  | nothingToCommit
  deriving DecidableEq, Repr

namespace Work

/-- Works on a directory from now on. -/
def attach (path : Path) : Work Unit := modify fun s => { s with workDir := some path }

def boundDirectory : Work Path := do
  match (← get).workDir with
  | some path => pure path
  | none => throw .unbound

/-- Whether the clone that is worked on has no branches. -/
def hasNoHeads : Work Bool := do
  let dir ← boundDirectory
  let heads := dir / ⟨".git"⟩ / ⟨"refs"⟩ / ⟨"heads"⟩
  let entries ← onFiles (.heads heads) (FileAction.entriesOf heads)
  pure (entries = [])

/-- Clones into a directory and switches to the branch. The directory is worked on as soon as it is
a clone. -/
def cloneInto (path : Path) (options : CloneOptions) : Work Unit := do
  demand (.clone path) none (Git.clone options.url path)
  attach path
  match options.branch with
  | none => pure ()
  | some branch =>
    let create ← if options.bootstrap then hasNoHeads else pure false
    demand (.checkout path branch) (some path) (Git.checkout branch create)

/-- Clones into a directory, which is made if it is missing. -/
def cloneIn (path : Path) (options : CloneOptions) : Work Unit := do
  onFiles (.directory path) (FileAction.makePrivateDirectories path)
  cloneInto path options

/-- Makes a temporary directory whose name starts with `stem`. -/
def makeTemporary (stem : String) : Work Path := do
  let s ← get
  let (path, fresh) ← onFiles (.temporary stem) (FileAction.makeTemporary s.temporary stem s.fresh)
  modify fun s => { s with fresh }
  pure path

/-- Clones into a new temporary directory whose name starts with `stem`. -/
def cloneInTemporary (stem : String) (options : CloneOptions) : Work Path := do
  let path ← makeTemporary stem
  cloneInto path options
  pure path

def add (files : List Path) : Work Unit := do
  let dir ← boundDirectory
  demand .add (some dir) (Git.add files)

/-- Sets a key of the clone's configuration, unless the value is empty. -/
def configure (dir : Path) (key value : String) : Work Unit :=
  if value = "" then pure () else demand (.config key) (some dir) (Git.config key value)

/-- Commits what is staged, if it is anything new. -/
def commit (message user email : String) : Work CommitOutcome := do
  let dir ← boundDirectory
  match ← git (some dir) Git.diff with
  | .ok () => pure .nothingToCommit
  | .error (.notStarted call cause) => throw (.diff (.notStarted call cause))
  | .error (.exited ..) =>
    configure dir "user.email" email
    configure dir "user.name" user
    demand .commit (some dir) (Git.commit message user email)
    pure .committed

def push : Work Unit := do
  let dir ← boundDirectory
  demand .push (some dir) Git.push

def delete : Work Unit := do
  let dir ← boundDirectory
  onFiles (.delete dir) (FileAction.removeTree dir)

end Work
end GitPublish
