import GitPublish.Text
import GitPublish.Unicode.Direction
import GitPublish.Unicode.DomainMapping
import GitPublish.Unicode.Joining
import GitPublish.Unicode.NormalForm
import GitPublish.Url.Punycode

/-!
# Domain names

A domain name may be written in any script. Before it is looked up, each character is replaced by
those it stands for, the name is brought into composed form, each label is checked, and the labels
with characters outside ASCII are written in Punycode behind `xn--`. A label that is written so
already has to stand for one that would be written so.
-/
namespace GitPublish.Url.Domain

open Unicode (Direction Joining direction joining isMark isVirama mapInDomain normalForm)

def isForbidden (c : Char) : Bool :=
  c ≤ ' ' || c = '\x7f' || "%#/:<>?@[\\]^|".toList.contains c

def isAscii (cs : List Char) : Bool := cs.all fun c => c.toNat < 0x80

/-- The mark of a label that is written in Punycode. -/
def encodedMark : List Char := "xn--".toList

/-- The longest label that is decoded. -/
def longestDecoded : Nat := 2000

/-- The longest label outside ASCII that is encoded. -/
def longestEncoded : Nat := 1000

/-- The name that a name stands for, in composed form, unless a character is refused. -/
def mapped? (cs : List Char) : Option (List Char) :=
  (cs.mapM mapInDomain).map (normalForm ·.flatten)

/-- The label that a label stands for: itself, or what it encodes if it bears the mark. -/
def decoded? (label : List Char) : Option (List Char) :=
  if encodedMark.isPrefixOf label then
    let digits := label.drop encodedMark.length
    if longestDecoded < digits.length then none
    else
      match Punycode.decode? digits with
      | some plain => if isAscii plain || mapped? plain ≠ some plain then none else some plain
      | none => none
  else some label

/-- Whether a non-joiner between these characters has a join to break: behind it, past transparent
characters, a letter joins to the left, and before it one joins to the right. `before` is in reverse
order. -/
def breaksJoin (before rest : List Char) : Bool :=
  let past := fun c => joining c = Joining.transparent
  let joinsNext := match before.dropWhile past with
    | c :: _ => joining c = .left || joining c = .dual
    | [] => false
  let joinsBack := match rest.dropWhile past with
    | c :: _ => joining c = .right || joining c = .dual
    | [] => false
  joinsNext && joinsBack

/-- Whether every joiner and non-joiner in a label has a reason to be there. `before` is what has
been read, in reverse order. -/
def joinersFit (before : List Char) : List Char → Bool
  | [] => true
  | c :: rest =>
    let afterVirama := match before with
      | v :: _ => isVirama v
      | [] => false
    (if c = '\u200C' then afterVirama || breaksJoin before rest
      else if c = '\u200D' then afterVirama else true) &&
      joinersFit (c :: before) rest

/-- Whether a label can be encoded: ASCII labels need not, and others start with no mark, have
joiners only where they fit, and are not too long. -/
def isWellFormed (label : List Char) : Bool :=
  isAscii label ||
    (!label.head?.any isMark && joinersFit [] label && label.length ≤ longestEncoded)

/-- Whether a name has letters or digits that are written from right to left. -/
def isMixed (cs : List Char) : Bool :=
  cs.any fun c => direction c = .right || direction c = .arabicNumber

/-- Whether a label of a mixed name reads unambiguously. It starts with a letter. One that starts
from the left has nothing from the right, and ends in a letter or digit. One that starts from the
right has no letter from the left, ends in a letter or digit, and has digits of one kind only. Marks
at its end do not count. -/
def readsOneWay (label : List Char) : Bool :=
  let ds := label.map direction
  let core := (ds.reverse.dropWhile (· = Direction.nonspacing)).reverse
  let last := core.getLast?
  match ds with
  | [] => true
  | .left :: _ =>
    ds.all (fun d => d = .left || d = .europeanNumber || d = .neutral || d = .nonspacing) &&
      (last = some .left || last = some .europeanNumber)
  | .right :: _ =>
    ds.all (fun d => d ≠ .left && d ≠ .control) &&
      (last = some .right || last = some .europeanNumber || last = some .arabicNumber) &&
      !(ds.contains .europeanNumber && ds.contains .arabicNumber)
  | _ => false

/-- A label as it is looked up. -/
def encoded (label : List Char) : List Char :=
  if isAscii label then label else encodedMark ++ Punycode.encode label

def toAscii? (cs : List Char) : Option (List Char) := do
  let name ← mapped? cs
  let labels ← (List.splitOn '.' name).mapM decoded?
  let wellFormed := labels.all fun label =>
    !label.any isForbidden && isWellFormed label &&
      (isAscii label || !encodedMark.isPrefixOf label)
  let oneWay := !labels.any isMixed || labels.all readsOneWay
  if wellFormed && oneWay then some (['.'].intercalate (labels.map encoded)) else none

end GitPublish.Url.Domain
