import GitPublish.Client
import GitPublish.FileSystem.Listing

/-!
# Publishing a directory

Publishing clones a repository into a temporary directory, copies the files of a directory into the
clone, stages exactly these, commits and pushes them, and removes the clone. Files that the
repository holds already are no failure: then there is nothing to commit and nothing to push. The
clone is removed after a failure as well, and a removal that fails changes nothing else.
-/
namespace GitPublish

/-- What is to be published, and where: the files of `source`, in the directory `subdir` of the
repository or at its root. The clone lies in a temporary directory whose name starts with `stem`. -/
structure PublishRequest where
  url : String
  branch : Option String
  bootstrap : Bool
  source : Path
  subdir : Option Path
  message : String
  user : String
  email : String
  stem : String
  keep : Bool
  deriving DecidableEq, Repr

structure PublishOutcome where
  cloneDir : Path
  files : List Path
  commit : CommitOutcome
  pushed : Bool
  deriving DecidableEq, Repr

/-- Whether a path stays below the directory it starts from, as far as its text tells. -/
def Path.staysBelow (p : Path) : Bool :=
  p.components.all fun
    | .name _ | .current => true
    | .root | .parent => false

namespace Work

/-- The directory inside the repository to copy into. -/
def checkedSubdir (subdir : Option Path) : Except RepoError Path :=
  match subdir with
  | none => .ok ⟨""⟩
  | some p => if p.staysBelow then .ok p else .error (.copy ⟨""⟩ p .outsideRepository)

/-- Copies a file into a clone and tells of its path there. -/
def copyFile (source cloneDir subdir file : Path) : Work Path := do
  let target := subdir / file
  let (origin, destination) := (source / file, cloneDir / target)
  onFiles (.copy origin destination) do
    FileAction.makeParents destination
    FileAction.copy origin destination
  pure (.ofBytes target.bytes)

/-- Copies the files of a directory into a clone and tells of their paths there. -/
def copyTree (source cloneDir subdir : Path) : Work (List Path) := do
  match (← get).files.listFiles source with
  | .error cause => throw (.copy source (cloneDir / subdir) cause)
  | .ok files => files.mapM (copyFile source cloneDir subdir)

def publishClone (request : PublishRequest) (cloneDir subdir : Path) :
    Work (List Path × CommitOutcome × Bool) := do
  let files ← copyTree request.source cloneDir subdir
  add files
  match ← commit request.message request.user request.email with
  | .nothingToCommit => pure (files, .nothingToCommit, false)
  | .committed =>
    push
    pure (files, .committed, true)

/-- Does something whose failure does not matter. -/
def attempt (work : Work Unit) : Work Unit := tryCatch work fun _ => pure ()

/-- Removes what a failed clone left behind. -/
def discard (failure : RepoError) : Work Unit :=
  match failure.cloneDir? with
  | some dir => attempt (onFiles (.delete dir) (FileAction.removeTree dir))
  | none => pure ()

def publish (request : PublishRequest) : Work PublishOutcome := do
  match Location.validate request.url with
  | .error cause => throw (.location cause)
  | .ok () => pure ()
  let subdir ← ofResult (checkedSubdir request.subdir)
  let options : CloneOptions :=
    { url := request.url, branch := request.branch, bootstrap := request.bootstrap }
  let cloneDir ← tryCatch (cloneInTemporary request.stem options) fun failure => do
    if !request.keep then discard failure
    throw failure
  let result ← observe (publishClone request cloneDir subdir)
  if !request.keep then attempt delete
  let (files, commit, pushed) ← ofResult result
  pure { cloneDir, files, commit, pushed }

end Work
end GitPublish
