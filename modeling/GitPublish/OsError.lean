/-!
# Refusals of the operating system

The reasons for which the operating system refuses an operation on files or processes, each with its
number and its text, and the coarser kinds by which a program tells errors apart.
-/
namespace GitPublish

inductive ErrorKind where
  | notFound
  | permissionDenied
  | alreadyExists
  | notADirectory
  | isADirectory
  | directoryNotEmpty
  | resourceBusy
  | filesystemLoop
  | invalidFilename
  | invalidInput
  | invalidData
  | timedOut
  | other
  deriving DecidableEq, Repr

inductive OsError where
  | notFound
  | tooManyArguments
  | badFormat
  | permissionDenied
  | busy
  | alreadyExists
  | notADirectory
  | isADirectory
  | invalidArgument
  | nameTooLong
  | directoryNotEmpty
  | tooManyLinks
  deriving DecidableEq, Repr

namespace OsError

def number : OsError → Nat
  | notFound => 2
  | tooManyArguments => 7
  | badFormat => 8
  | permissionDenied => 13
  | busy => 16
  | alreadyExists => 17
  | notADirectory => 20
  | isADirectory => 21
  | invalidArgument => 22
  | nameTooLong => 36
  | directoryNotEmpty => 39
  | tooManyLinks => 40

def text : OsError → String
  | notFound => "No such file or directory"
  | tooManyArguments => "Argument list too long"
  | badFormat => "Exec format error"
  | permissionDenied => "Permission denied"
  | busy => "Device or resource busy"
  | alreadyExists => "File exists"
  | notADirectory => "Not a directory"
  | isADirectory => "Is a directory"
  | invalidArgument => "Invalid argument"
  | nameTooLong => "File name too long"
  | directoryNotEmpty => "Directory not empty"
  | tooManyLinks => "Too many levels of symbolic links"

def kind : OsError → ErrorKind
  | notFound => .notFound
  | tooManyArguments | badFormat => .other
  | permissionDenied => .permissionDenied
  | busy => .resourceBusy
  | alreadyExists => .alreadyExists
  | notADirectory => .notADirectory
  | isADirectory => .isADirectory
  | invalidArgument => .invalidInput
  | nameTooLong => .invalidFilename
  | directoryNotEmpty => .directoryNotEmpty
  | tooManyLinks => .filesystemLoop

/-- A reason with its number. -/
def message (e : OsError) : String := e.text ++ " (os error " ++ toString e.number ++ ")"

end OsError
end GitPublish
