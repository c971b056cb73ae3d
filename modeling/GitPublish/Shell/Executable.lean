import GitPublish.FileSystem.Trace
import GitPublish.Text

/-!
# Programs in a file system

A file that may be executed is a utility of the system, whose name stands in it behind a DEL
character, or a script that names its interpreter in its first line. A command without a slash in
its name is looked for in the directories of a search path.
-/
namespace GitPublish.Shell

inductive Executable where
  | utility (name : String)
  | interpreted (interpreter : String) (argument : Option String)
  | unknown
  deriving DecidableEq, Repr

namespace Executable

/-- The character that marks a utility. -/
def mark : Char := '\x7f'

def utilities : List String :=
  ["sh", "true", "false", "echo", "printf", "test", "[", "pwd", "cat", "sleep", "seq", "env"]

def directories : List Address := [["bin"], ["usr", "bin"]]

/-- A file system with the utilities. -/
def install (fs : FileSystem) : FileSystem :=
  directories.foldl (fun fs dir =>
    utilities.foldl (fun fs name =>
      fs.put (dir ++ [name]) (.file 0o755 (String.ofList (mark :: name.toList)).toUTF8))
      (fs.put dir (.directory 0o755)))
    (fs.put ["usr"] (.directory 0o755))

/-- The search path where none is set. -/
def searchPath : String := "/usr/local/sbin:/usr/local/bin:/usr/sbin:/usr/bin:/sbin:/bin"

def ofContent (content : ByteArray) : Executable :=
  match Text.decode content.toList with
  | '\x7f' :: name => utility (String.ofList name)
  | '#' :: '!' :: rest =>
    let isBlank (c : Char) : Bool := c = ' ' || c = '\t'
    let line := (rest.takeWhile (· ≠ '\n')).dropWhile isBlank
    let line := (line.reverse.dropWhile isBlank).reverse
    match line.takeWhile (!isBlank ·), (line.dropWhile (!isBlank ·)).dropWhile isBlank with
    | [], _ => unknown
    | path, [] => interpreted (String.ofList path) none
    | path, argument => interpreted (String.ofList path) (some (String.ofList argument))
  | _ => unknown

def at? (fs : FileSystem) (path : String) : Except IoError Executable := do
  match ← fs.find true ⟨path⟩ with
  | (_, .file mode content) =>
    if mode &&& 0o111 = 0 then throw (.os .permissionDenied) else pure (ofContent content)
  | _ => throw (.os .permissionDenied)

/-- The path of a command, and what it runs. Of the failures in the directories of a search path, a
missing permission counts more than a missing file. -/
def find (fs : FileSystem) (searchPath command : String) :
    Except IoError (String × Executable) :=
  if command = "" then .error (.os .notFound)
  else if command.toList.contains '/' then (at? fs command).map fun e => (command, e)
  else if FileSystem.nameLimit < command.utf8ByteSize then .error (.os .nameTooLong)
  else
    let paths := (List.splitOn ':' searchPath.toList).map fun dir =>
      if dir = [] then "./" ++ command else String.ofList dir ++ "/" ++ command
    let tries := paths.map fun path => (at? fs path).map fun e => (path, e)
    match tries.find? fun t => t.toOption.isSome with
    | some found => found
    | none =>
      if tries.any fun t => match t with
        | .error e => e = .os .permissionDenied
        | .ok _ => false
      then .error (.os .permissionDenied) else .error (.os .notFound)

end Executable
end GitPublish.Shell
