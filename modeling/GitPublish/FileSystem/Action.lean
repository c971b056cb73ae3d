import GitPublish.FileSystem.Trace

/-!
# What can be done to a file system

An action on a file system succeeds with a value or fails, and leaves a file system behind in either
case: an action of several steps that fails keeps what its first steps did. New directories and
files never get the permissions of the umask, which is 022.
-/
namespace GitPublish

abbrev FileAction (α : Type) := ExceptT IoError (StateM FileSystem) α

namespace FileAction

/-- The permissions that nothing new gets. -/
def umask : Nat := 0o022

/-- Permissions without those of the umask. -/
def masked (mode : Nat) : Nat := mode &&& (0o7777 - umask)

def refuse {α : Type} (reason : OsError) : FileAction α := throw (.os reason)

def makeDirectory (mode : Nat) (p : Path) : FileAction Unit := do
  let fs ← get
  let a ← fs.locateName p
  match fs.get? a with
  | some _ => refuse .alreadyExists
  | none => set (fs.put a (.directory (masked mode)))

/-- Makes a directory unless it is there, which is no failure. -/
def makeMissing (mode : Nat) (p : Path) : FileAction Unit :=
  tryCatch (makeDirectory mode p) fun e => do
    if e = .os .alreadyExists && (← get).isDirectory p then pure () else throw e

/-- Makes the first of the paths that can be made, or finds it there; returns those before it, for
which a directory above was missing. -/
def makeFirst (mode : Nat) : List Path → FileAction (List Path)
  | [] => pure []
  | p :: rest =>
    tryCatch (do makeMissing mode p; pure []) fun e => do
      if e.kind = .notFound then
        let missing ← makeFirst mode rest
        pure (p :: missing)
      else throw e

/-- Makes a directory and all that are missing above it. -/
def makeDirectories (mode : Nat) (p : Path) : FileAction Unit := do
  let missing ← makeFirst mode (p.ancestors.dropLast)
  missing.reverse.forM (makeMissing mode)

/-- Makes a directory and all that are missing above it, for the owner alone. -/
def makePrivateDirectories (p : Path) : FileAction Unit := makeDirectories 0o700 p

/-- Makes the directories above a path, unless there is something in that place. -/
def makeParents (p : Path) : FileAction Unit :=
  match p.parent? with
  | none => pure ()
  | some parent => do
    if (← get).isPresent parent then pure () else makeDirectories 0o777 parent

def entriesOf (p : Path) : FileAction (List String) := do
  let fs ← get
  let (a, e) ← fs.find true p
  if e.isDirectory then
    pure (fs.entries.filterMap fun x =>
      if x.1.dropLast = a && x.1 ≠ [] then x.1.getLast? else none)
  else refuse .notADirectory

def read (p : Path) : FileAction ByteArray := do
  match ← (← get).find true p with
  | (_, .file _ content) => pure content
  | _ => refuse .isADirectory

def readText (p : Path) : FileAction String := do
  match String.fromUTF8? (← read p) with
  | some text => pure text
  | none => throw .notText

/-- The address of a file that is opened for writing. -/
def openTarget (p : Path) : FileAction Address := do
  let fs ← get
  if p.isSlashedName then
    let _ ← fs.locateName p
    refuse .isADirectory
  else
    let a ← fs.locate true p
    if fs.isDirectoryAt a then refuse .isADirectory else pure a

/-- Writes a file; one that is there keeps its permissions. -/
def write (p : Path) (content : ByteArray) : FileAction Unit := do
  let a ← openTarget p
  let fs ← get
  let mode := match fs.get? a with
    | some e => e.mode
    | none => masked 0o666
  set (fs.put a (.file mode content))

/-- Copies a file with its permissions. The target is emptied before the source is read. -/
def copy (source target : Path) : FileAction Unit := do
  let (a, e) ← (← get).find true source
  match e with
  | .file mode _ =>
    let b ← openTarget target
    modify (·.put b (.file mode .empty))
    let content := match (← get).get? a with
      | some (.file _ content) => content
      | _ => .empty
    modify (·.put b (.file mode content))
  | _ => throw .notRegularFile

/-- Removes the empty directory at `a`, to which a path leads. The path has to end in the name of
the directory, and not in that of a link to it. -/
def removeEmptied (p : Path) (a : Address) : FileAction Unit := do
  let fs ← get
  if a = [] then refuse .busy
  else
    match (Step.ofText p.unslashed.text).getLast? with
    | some .stay => refuse .invalidArgument
    | some .up => refuse .directoryNotEmpty
    | _ => if (← fs.locateName p) = a then set (fs.remove a) else refuse .notADirectory

/-- Removes a directory with all that is in it. A symbolic link is removed itself. -/
def removeTree (p : Path) : FileAction Unit := do
  let (a, e) ← (← get).find false p
  match e with
  | .link _ => modify (·.remove a)
  | .file .. => refuse .notADirectory
  | .directory _ =>
    modify (·.removeBelow a)
    removeEmptied p a

/-! ## Temporary directories

A temporary directory gets a name that starts as asked for and ends in letters and digits that were
not used before. Names are tried until one is free.
-/

/-- Makes a directory in `base` whose name is `stem` and one of the ends, the first that is free.
Returns its path and the ends that were not tried. -/
def makeFresh (base : Path) (stem : String) : List String → FileAction (Path × List String)
  | [] => throw (.temporary base .noFreshName)
  | ending :: rest => do
    let p := base / ⟨stem ++ ending⟩
    tryCatch (do makeDirectory 0o777 p; pure (p, rest)) fun e =>
      if e.kind = .alreadyExists then makeFresh base stem rest else throw (.temporary p e)

/-- Makes a temporary directory. A relative `base` starts at the current directory. -/
def makeTemporary (base : Path) (stem : String) (endings : List String) :
    FileAction (Path × List String) := do
  let here := (← get).currentPath
  makeFresh (if base.isAbsolute then base else here / base) stem endings

end FileAction
end GitPublish
