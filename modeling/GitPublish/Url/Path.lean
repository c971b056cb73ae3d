import GitPublish.Url.Percent

/-!
# Paths of URLs

The path of a URL is put together segment by segment: a segment `.` is dropped, a segment `..` takes
the one before it away, and the others are added in escaped form. In the file scheme, a first
segment such as `C:` names a drive, which `..` never takes away.
-/
namespace GitPublish.Url

/-- How a scheme reads what follows it. On the web and for files a backslash is a slash, and on the
web there is always a host. -/
inductive SchemeKind where
  | web
  | file
  | plain
  deriving DecidableEq, Repr

namespace SchemeKind

def ofScheme (scheme : List Char) : SchemeKind :=
  let scheme := String.ofList scheme
  if scheme = "file" then file
  else if ["http", "https", "ws", "wss", "ftp"].contains scheme then web
  else plain

/-- Whether the kind takes a backslash for a slash. -/
def isSpecial (kind : SchemeKind) : Bool := kind ≠ plain

def isSlash (kind : SchemeKind) (c : Char) : Bool := c = '/' || (kind.isSpecial && c = '\\')

end SchemeKind

namespace Path

def isEnd (c : Char) : Bool := c = '?' || c = '#'

/-- Whether a text is a letter and a colon, the name of a drive. -/
def isDrive : List Char → Bool
  | [letter, ':'] => letter.isAlpha
  | _ => false

/-- Whether a text is a letter and a colon or a bar. -/
def isDriveLike : List Char → Bool
  | [letter, mark] => letter.isAlpha && (mark = ':' || mark = '|')
  | _ => false

/-- Whether a text starts with a slash and a segment that names a drive. -/
def startsWithDrive : List Char → Bool
  | '/' :: letter :: mark :: rest =>
    isDriveLike [letter, mark] && (rest.head?.all fun c => "/\\?#".toList.contains c)
  | _ => false

/-- Whether an escaped segment stands for `.`. -/
def isCurrent (segment : List Char) : Bool :=
  [".", "%2e"].contains (String.ofList (segment.map Char.toLower))

/-- Whether an escaped segment stands for `..`. -/
def isParent (segment : List Char) : Bool :=
  ["..", ".%2e", "%2e.", "%2e%2e"].contains (String.ofList (segment.map Char.toLower))

/-- A path in reverse order up to its last slash, that slash included. -/
def upToSlash (back : List Char) : List Char := back.dropWhile (· ≠ '/')

/-- A path in reverse order without its last slash, if it ends in one that may go: it is not the
first, and the segment before it names no drive. -/
def dropSlash (back : List Char) : List Char :=
  match back with
  | '/' :: before =>
    let segment := before.takeWhile (· ≠ '/')
    if segment.length < before.length && !startsWithDrive ('/' :: segment.reverse ++ ['/']) then
      before
    else back
  | _ => back

/-- Takes the last segment away from a path in reverse order. A file path keeps its drive. -/
def dropSegment (kind : SchemeKind) (back : List Char) : List Char :=
  let back := dropSlash back
  let segment := (back.takeWhile (· ≠ '/')).reverse
  if kind = .file && isDrive segment then back else upToSlash back

/-- Makes sure that a path in reverse order ends in a slash. -/
def endSlash (back : List Char) : List Char := if back.head? = some '/' then back else '/' :: back

/-- The state while a path is put together: the path so far, in reverse order, and whether the host
still counts, which it does not before a drive. -/
structure Progress where
  back : List Char
  keepsHost : Bool := true
  deriving Repr

/-- Adds a segment, and the slash behind it if there is one. -/
def Progress.push (kind : SchemeKind) (p : Progress) (segment : List Char) (slash : Bool) :
    Progress :=
  let escaped := escape pathSet segment
  let tail := if slash then ['/'] else []
  let atFirst := p.back = ['/']
  if kind = .file && atFirst && 2 < escaped.length && isDrive (escaped.take 2) then
    { p with back := tail ++ (escaped.drop 2).reverse ++ '/' :: (escaped.take 2).reverse ++ p.back }
  else if isParent escaped then
    let back := dropSegment kind p.back
    { p with back := if slash then endSlash back else back }
  else if isCurrent escaped then { p with back := endSlash p.back }
  else if kind = .file && atFirst && isDriveLike escaped then
    { back := tail ++ ':' :: escaped.head?.toList ++ p.back, keepsHost := false }
  else { p with back := tail ++ escaped.reverse ++ p.back }

/-- Adds the segments of a text up to the end of the path. `segment` is the part of a segment that
has been read, in reverse order. -/
def Progress.read (kind : SchemeKind) (p : Progress) (segment : List Char) : List Char → Progress
  | [] => p.push kind segment.reverse false
  | c :: rest =>
    if kind.isSlash c then (p.push kind segment.reverse true).read kind [] rest
    else if isEnd c then p.push kind segment.reverse false
    else p.read kind (c :: segment) rest

/-- The path that a text adds to a start, and whether the URL keeps its host. Slashes at the start
of a file path become one. -/
def parse (kind : SchemeKind) (start cs : List Char) : List Char × Bool :=
  let p := Progress.read kind ⟨start.reverse, true⟩ [] cs
  let path := p.back.reverse
  (if kind = .file then '/' :: path.dropWhile (· = '/') else path, p.keepsHost)

end Path
end GitPublish.Url
