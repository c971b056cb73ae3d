import GitPublish.FileSystem.Basic
import GitPublish.IoError

/-!
# Where paths lead

A path leads from the current directory, or from the root, step by step to an address. Symbolic
links on the way are followed, at most forty of them. The last step may lead to an address where
nothing is found yet.
-/
namespace GitPublish

/-- One step on the way that a path describes. To stay asks for a directory all the same. -/
inductive Step where
  | stay
  | up
  | enter (name : String)
  deriving DecidableEq, Repr

namespace Step

def ofPiece (piece : List Char) : Step :=
  if Path.isIdle piece then stay
  else if piece = ['.', '.'] then up
  else enter (String.ofList piece)

/-- Where a step leads if no link is on the way. -/
def follow (here : Address) : Step → Address
  | stay => here
  | up => here.dropLast
  | enter name => here ++ [name]

/-- The steps of a path. A slash at its end is a step too, so that it asks for a directory. -/
def ofText (text : String) : List Step := (List.splitOn '/' text.toList).map ofPiece

end Step

/-- The text of a path without the slashes at its end. -/
def Path.unslashed (p : Path) : Path :=
  ⟨String.ofList (p.text.toList.reverse.dropWhile (· = '/')).reverse⟩

/-- Whether a path ends in a name and a slash. -/
def Path.isSlashedName (p : Path) : Bool :=
  p.text.toList.getLast? = some '/' &&
    match (Step.ofText p.unslashed.text).getLast? with
    | some (.enter _) => true
    | _ => false

namespace FileSystem

/-- The most symbolic links that are followed on one way. -/
def linkLimit : Nat := 40

/-- The greatest length of a name, in bytes. -/
def nameLimit : Nat := 255

/-- The length, in bytes, that every path stays below. -/
def pathLimit : Nat := 4096

def startOf (text : String) (here : Address) : Address :=
  if text.toList.head? = some '/' then [] else here

/-- Where steps from `here` lead, when `budget` links may still be followed. A link at the last step
is followed only on demand. -/
def walk (fs : FileSystem) (follow : Bool) (budget : Nat) (here : Address) :
    List Step → Except OsError Address
  | [] => .ok here
  | step :: rest =>
    match fs.get? here with
    | none => .error .notFound
    | some (.file ..) => .error .notADirectory
    | some (.link _) => .error .notADirectory
    | some (.directory _) =>
      match step with
      | .stay => walk fs follow budget here rest
      | .up => walk fs follow budget here.dropLast rest
      | .enter name =>
        if nameLimit < name.utf8ByteSize then .error .nameTooLong
        else
          match fs.get? (here ++ [name]) with
          | some (.link target) =>
            if rest = [] && !follow then .ok (here ++ [name])
            else
              match budget with
              | 0 => .error .tooManyLinks
              | budget + 1 =>
                walk fs follow budget (startOf target here) (Step.ofText target ++ rest)
          | _ => walk fs follow budget (here ++ [name]) rest
termination_by steps => (budget, steps.length)

/-- The address that a path leads to. Something is found at all addresses on the way, but not always
at the last. -/
def locate (fs : FileSystem) (follow : Bool) (p : Path) : Except IoError Address :=
  if p.hasNul then .error .nulInPath
  else if p.text = "" then .error (.os .notFound)
  else if pathLimit ≤ p.text.utf8ByteSize then .error (.os .nameTooLong)
  else (walk fs follow linkLimit (startOf p.text fs.current) (Step.ofText p.text)).mapError .os

/-- The address that a path names, whatever slashes stand at its end; they count for its length.
Nothing need be found there, and a link that is found there is not followed. -/
def locateName (fs : FileSystem) (p : Path) : Except IoError Address :=
  if p.hasNul then .error .nulInPath
  else if pathLimit ≤ p.text.utf8ByteSize then .error (.os .nameTooLong)
  else fs.locate false (if p.unslashed.text = "" then p else p.unslashed)

/-- What a path leads to, and where. -/
def find (fs : FileSystem) (follow : Bool) (p : Path) : Except IoError (Address × Entry) := do
  let a ← fs.locate follow p
  match fs.get? a with
  | some e => pure (a, e)
  | none => throw (.os .notFound)

def find? (fs : FileSystem) (p : Path) : Option Entry := ((fs.find true p).toOption).map (·.2)

def isPresent (fs : FileSystem) (p : Path) : Bool := (fs.find? p).isSome

def isDirectory (fs : FileSystem) (p : Path) : Bool := (fs.find? p).any Entry.isDirectory

def currentPath (fs : FileSystem) : Path := ⟨"/" ++ "/".intercalate fs.current⟩

end FileSystem
end GitPublish
