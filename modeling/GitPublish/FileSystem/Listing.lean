import GitPublish.FileSystem.Trace

/-!
# The files of a tree

The files below a directory are those that are reached from it through directories alone: no
symbolic link below it is followed or listed, and nothing that is called `.git` or lies below such a
thing. They are listed in the order of their names, component by component.
-/
namespace GitPublish.FileSystem

/-- The name under which a repository keeps its own files. -/
def gitName : String := ".git"

/-- Whether all directories on the way from `a` are found there. -/
def isReached (fs : FileSystem) (a : Address) : Address → Bool
  | [] => true
  | name :: rest => fs.isDirectoryAt a && isReached fs (a ++ [name]) rest

/-- The way from `a` to `b`, if `b` lies below `a`. -/
def wayTo? (a b : Address) : Option Address :=
  if a.isPrefixOf b && a ≠ b then some (b.drop a.length) else none

/-- The files below an address, in the order in which they are stored. -/
def unsortedFilesBelow (fs : FileSystem) (a : Address) : List Address :=
  fs.entries.filterMap fun (b, e) =>
    match wayTo? a b with
    | some way =>
      if e.isFile && !way.contains gitName && fs.isReached a way then some way else none
    | none => none

/-- Whether a way comes before another or is the same: the first names that differ decide. -/
def isBefore (a b : Address) : Bool := !List.lex b a

/-- The files below an address, each by the names on its way, in order. -/
def filesBelow (fs : FileSystem) (a : Address) : List Address :=
  (fs.unsortedFilesBelow a).mergeSort isBefore

/-- A way as a relative path. -/
def pathOf (way : Address) : Path := ⟨"/".intercalate way⟩

/-- The files of the tree at a path, relative to it. The path itself may lead through a symbolic
link to a directory; a file is the only file of its tree. -/
def listFiles (fs : FileSystem) (root : Path) : Except IoError (List Path) :=
  match fs.find false root with
  | .error cause => .error (.walk root cause)
  | .ok (_, .file ..) => .ok [⟨""⟩]
  | .ok (a, .directory _) => .ok ((fs.filesBelow a).map pathOf)
  | .ok (_, .link _) =>
    match fs.find true root with
    | .error cause => .error (.walk root cause)
    | .ok (a, .directory _) => .ok ((fs.filesBelow a).map pathOf)
    | .ok _ => .ok []

end GitPublish.FileSystem
