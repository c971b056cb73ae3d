import GitPublish.Text
import GitPublish.Url.Parse

/-!
# Where a repository is

The location of a repository is written as a URL (`ssh://git@host/org/repo.git`), in the short form
`[user@]host:[port/]path`, which means SSH, or as a path of the local file system. Publishing goes
to remote locations over SSH only; others are read, so that they can be named in the refusal.
-/
namespace GitPublish

/-- Where a repository is. A local path has an empty host, and the usual port of a scheme is not
named. -/
structure Location where
  scheme : String
  user : Option String
  host : String
  port : Option Nat
  path : String
  deriving DecidableEq, Repr

/-- Why a text is not taken for the location of a repository. An invalid one has no scheme or no
host, and a nameless one no path to name the repository after. -/
inductive LocationError where
  | empty
  | invalid (text : String)
  | unsupportedTransport (text scheme : String)
  | unreadable (text reason : String)
  | nameless (text : String)
  deriving DecidableEq, Repr

def LocationError.message : LocationError → String
  | empty => "empty Git URL"
  | invalid text => "invalid Git URL '" ++ text ++ "'"
  | unsupportedTransport text scheme =>
    "got a " ++ scheme ++ " Git URL '" ++ text ++ "', but only SSH Git URLs are supported"
  | unreadable text reason => "unable to parse git URL '" ++ text ++ "': " ++ reason
  | nameless text => "could not find name of repository " ++ text

structure ShortForm where
  user : Option (List Char)
  host : List Char
  port : Option (List Char)
  path : List Char
  deriving DecidableEq, Repr

namespace ShortForm

/-- The user before the first `@`, and the text behind it. A user has no `/`. -/
def cutUser? (cs : List Char) : Option (List Char × List Char) :=
  let user := cs.takeWhile fun c => c ≠ '@' && c ≠ '/'
  match cs.drop user.length with
  | '@' :: rest => if user = [] then none else some (user, rest)
  | _ => none

/-- The host before the first `:`, and the text behind it. A host has no `/` and no blank. -/
def cutHost? (cs : List Char) : Option (List Char × List Char) :=
  let host := cs.takeWhile fun c => c ≠ ':' && c ≠ '/' && !Text.isBlank c
  match cs.drop host.length with
  | ':' :: rest => if host = [] then none else some (host, rest)
  | _ => none

/-- Whether a text can be the path: it does not start with a backslash, and no line ends in it
behind its first character. -/
def isPath : List Char → Bool
  | [] => false
  | c :: rest => c ≠ '\\' && !rest.contains '\n'

/-- The digits of a port before a `/`, and the path behind it. -/
def cutPort? (cs : List Char) : Option (List Char × List Char) :=
  let digits := cs.takeWhile Char.isDigit
  match cs.drop digits.length with
  | '/' :: path =>
    if digits ≠ [] && digits.length ≤ 5 && isPath path then some (digits, path) else none
  | _ => none

/-- The parts of a text that starts with the host. -/
def ofHost? (user : Option (List Char)) (cs : List Char) : Option ShortForm := do
  let (host, rest) ← cutHost? cs
  match cutPort? rest with
  | some (port, path) => some { user, host, port := some port, path }
  | none => if isPath rest then some { user, host, port := none, path := rest } else none

/-- The parts of a text. A user is taken wherever the rest can be read without it. -/
def parse? (cs : List Char) : Option ShortForm :=
  let withUser := do
    let (user, rest) ← cutUser? cs
    ofHost? (some user) rest
  withUser.or (ofHost? none cs)

def value (digits : List Char) : Nat := digits.foldl (fun n d => n * 10 + (d.toNat - 48)) 0

def text (s : ShortForm) : List Char :=
  (match s.user with | some user => user ++ ['@'] | none => []) ++ s.host ++ [':'] ++
    (match s.port with | some port => port ++ ['/'] | none => []) ++ s.path

/-- The location that a short form names, unless its port is too large. -/
def location? (s : ShortForm) : Option Location :=
  let build (port : Option Nat) : Location :=
    { scheme := "ssh", user := s.user.map String.ofList, host := String.ofList s.host, port,
      path := String.ofList s.path }
  match s.port with
  | none => some (build none)
  | some digits => if value digits < 65536 then some (build (some (value digits))) else none

end ShortForm

namespace Location

/-- The schemes of URLs that can name a repository. -/
def knownSchemes : List String :=
  ["ssh", "git", "git+ssh", "http", "https", "ftp", "ftps", "rsync", "file"]

/-- The schemes that publishing accepts. -/
def acceptedSchemes : List String := ["ssh", "git"]

def ofUrl (text : String) : Except LocationError Location :=
  match Url.parse text with
  | .error e => .error (.unreadable text e.message)
  | .ok url =>
    if knownSchemes.contains url.scheme then
      .ok
        { scheme := url.scheme
          user := if url.username = "" then none else some url.username
          host := match url.host with
            | some host => host.text
            | none => ""
          port := url.port
          path := url.path }
    else .error (.unreadable text ("unsupported transport '" ++ url.scheme ++ "'"))

def ofPath (text : String) : Location :=
  { scheme := "file", user := none, host := "", port := none, path := text }

def parse (text : String) : Except LocationError Location :=
  if Text.contains "://".toList text.toList then ofUrl text
  else .ok (((ShortForm.parse? text.toList).bind ShortForm.location?).getD (ofPath text))

/-- Whether a location names a scheme and a host. -/
def isRemote (l : Location) : Bool := l.scheme ≠ "" && l.host ≠ ""

/-- Whether a location is reached in a way that publishing accepts. -/
def isAccepted (l : Location) : Bool := acceptedSchemes.contains l.scheme

def isRemoteText (text : String) : Bool :=
  match parse text with
  | .ok l => l.isRemote
  | .error _ => false

/-- Checks that a text names a location that can be published to. -/
def validate (text : String) : Except LocationError Unit :=
  if text = "" then .error .empty
  else
    match parse text with
    | .ok l =>
      if !l.isRemote then .error (.invalid text)
      else if l.isAccepted then .ok ()
      else .error (.unsupportedTransport text l.scheme)
    | .error _ => .error (.invalid text)

/-- Whether a character is one of those that end the names of repositories. -/
def isEnding (c : Char) : Bool := ['.', 'g', 'i', 't'].contains c

/-- The short name of the repository at a location: the last segment of the path without the
characters of `.git` at its end. -/
def repoName (text : String) : Except LocationError String :=
  match parse text with
  | .error e => .error e
  | .ok l =>
    match ((List.splitOn '/' l.path.toList).filter (· ≠ [])).getLast? with
    | none => .error (.nameless text)
    | some segment => .ok (String.ofList (segment.reverse.dropWhile isEnding).reverse)

end Location
end GitPublish
