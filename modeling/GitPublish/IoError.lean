import GitPublish.OsError
import GitPublish.Path
import GitPublish.Unicode.Printing

/-!
# Why input or output failed

Most failures come from the operating system. The others are found before the system is asked, or
add to a failure where it arose.
-/
namespace GitPublish

inductive IoError where
  | os (reason : OsError)
  | nulInPath
  | nulInCommand
  | notRegularFile
  | notText
  | temporary (path : Path) (cause : IoError)
  | noFreshName
  | walk (path : Path) (cause : IoError)
  | outsideRepository
  | reported (kind : ErrorKind) (text : String)
  deriving DecidableEq, Repr

namespace IoError

def kind : IoError → ErrorKind
  | os reason => reason.kind
  | nulInPath | nulInCommand | notRegularFile | outsideRepository => .invalidInput
  | notText => .invalidData
  | temporary _ cause | walk _ cause => cause.kind
  | noFreshName => .alreadyExists
  | reported kind _ => kind

def message : IoError → String
  | os reason => reason.message
  | nulInPath => "file name contained an unexpected NUL byte"
  | nulInCommand => "nul byte found in provided data"
  | notRegularFile => "the source path is neither a regular file nor a symlink to a regular file"
  | notText => "stream did not contain valid UTF-8"
  | temporary path cause =>
    cause.message ++ " at path " ++ String.ofList (Text.quoted path.text.toList)
  | noFreshName => "too many temporary files exist"
  | walk path cause => "IO error for operation on " ++ path.text ++ ": " ++ cause.message
  | outsideRepository => "target directory must be relative to the repository root"
  | reported _ text => text

/-- The words for what lies behind a failure, if it names a cause of its own. -/
def causes : IoError → List String
  | walk _ cause => cause.message :: cause.causes
  | _ => []

end IoError
end GitPublish
