import GitPublish.Git.Call
import GitPublish.Location

/-!
# Why work on a repository failed

Each step of working on a repository fails in its own way, and every failure keeps what caused it.
-/
namespace GitPublish

/-- Why work on a repository failed. The path of `heads` is where the clone keeps its branches. -/
inductive RepoError where
  | location (cause : LocationError)
  | temporary (stem : String) (cause : IoError)
  | directory (path : Path) (cause : IoError)
  | clone (path : Path) (cause : RunError)
  | checkout (path : Path) (branch : String) (cause : RunError)
  | heads (path : Path) (cause : IoError)
  | add (cause : RunError)
  | diff (cause : RunError)
  | config (key : String) (cause : RunError)
  | commit (cause : RunError)
  | push (cause : RunError)
  | unbound
  | delete (path : Path) (cause : IoError)
  | copy (source target : Path) (cause : IoError)
  deriving DecidableEq, Repr

namespace RepoError

def message : RepoError → String
  | location cause => cause.message
  | temporary stem _ => "cannot create temporary directory with prefix '" ++ stem ++ "'"
  | directory path _ => "unable to create directory for cloning " ++ path.text
  | clone path _ => "failed to clone repository into " ++ path.text
  | checkout path branch _ =>
    "failed to check out branch '" ++ branch ++ "' in " ++ path.text
  | heads path _ => "unable to read branch references in " ++ path.text
  | add _ => "failed to stage files"
  | diff _ => "failed to check for staged changes"
  | config key _ => "failed to set " ++ key
  | commit _ => "failed to commit"
  | push _ => "failed to push"
  | unbound => "no cloned directory to operate on"
  | delete path _ => "failed to delete " ++ path.text
  | copy source target _ => "failed to copy " ++ source.text ++ " to " ++ target.text

def runError? : RepoError → Option RunError
  | clone _ cause | checkout _ _ cause | config _ cause => some cause
  | add cause | diff cause | commit cause | push cause => some cause
  | _ => none

def ioError? : RepoError → Option IoError
  | temporary _ cause | directory _ cause | heads _ cause | delete _ cause | copy _ _ cause =>
    some cause
  | _ => none

def causes (e : RepoError) : List String :=
  match e.runError?, e.ioError? with
  | some cause, _ => cause.message :: cause.causes
  | none, some cause => cause.message :: cause.causes
  | none, none => []

/-- The directory of the clone that a failure left behind. -/
def cloneDir? : RepoError → Option Path
  | clone path _ | checkout path _ _ => some path
  | heads path _ => path.ancestors[3]?
  | _ => none

def failureKind? (e : RepoError) : Option FailureKind := e.runError?.map RunError.failureKind

end RepoError
end GitPublish
