import GitPublish.Text

/-!
# Paths as they are written

A path is a text in which `/` separates names. It is kept exactly as written: `a//b/` and `a/b` are
different paths with the same components. Components skip empty pieces and the piece `.`, except for
a `.` that starts a relative path; `..` stays, since only the file system can tell where it leads.
-/
namespace GitPublish

/-- A path, as written. -/
structure Path where
  text : String
  deriving DecidableEq, Repr, Inhabited

/-- One step of a path. A piece `.` is one only at the start of a relative path. -/
inductive Component where
  | root
  | current
  | parent
  | name (name : List Char)
  deriving DecidableEq, Repr

namespace Path

/-- How a path starts: at the root, with a `.` of its own, or with its first name. -/
inductive Start where
  | root
  | current
  | plain
  deriving DecidableEq, Repr

def Start.text : Start → List Char
  | root => ['/']
  | current => ['.']
  | plain => []

def Start.components : Start → List Component
  | root => [.root]
  | current => [.current]
  | plain => []

/-- The start of a path and the text behind it. -/
def start : List Char → Start × List Char
  | '/' :: rest => (.root, rest)
  | ['.'] => (.current, [])
  | '.' :: '/' :: rest => (.current, '/' :: rest)
  | cs => (.plain, cs)

theorem start_text_append (cs : List Char) : (start cs).1.text ++ (start cs).2 = cs := by
  unfold start
  split <;> simp [Start.text]

/-- A piece that is no step: it is empty, or `.` behind the start. -/
def isIdle (piece : List Char) : Bool := piece == [] || piece == ['.']

def component? (piece : List Char) : Option Component :=
  if isIdle piece then none else if piece = ['.', '.'] then some .parent else some (.name piece)

def components (p : Path) : List Component :=
  let (s, body) := start p.text.toList
  s.components ++ (List.splitOn '/' body).filterMap component?

/-- Whether the path starts at the root. -/
def isAbsolute (p : Path) : Bool := p.text.toList.head? == some '/'

/-- The text of `q` behind that of `p`, with a `/` between them unless one is there already. An
absolute `q` replaces `p`. -/
def join (p q : Path) : Path :=
  if q.isAbsolute || p.text.isEmpty then q
  else if p.text.toList.getLast? = some '/' then ⟨p.text ++ q.text⟩
  else ⟨p.text ++ "/" ++ q.text⟩

instance : Div Path := ⟨join⟩

/-- For pieces in reverse order, what is left of them behind each step. -/
def innerTails : List (List Char) → List (List (List Char))
  | [] => []
  | piece :: rest =>
    if isIdle piece then innerTails rest else rest.dropWhile isIdle :: innerTails rest

/-- The path itself, then the path without its last step, and so on. What remains keeps the text
it had. -/
def ancestors (p : Path) : List Path :=
  let (s, body) := start p.text.toList
  let inner := (innerTails (List.splitOn '/' body).reverse).map fun pieces =>
    (⟨String.ofList (s.text ++ ['/'].intercalate pieces.reverse)⟩ : Path)
  p :: inner ++ (if s = .current then [⟨""⟩] else [])

/-- The path without its last step; the root and the empty path have none. -/
def parent? (p : Path) : Option Path := p.ancestors[1]?

/-- The bytes by which the system knows a path. -/
def bytes (p : Path) : List UInt8 := Text.encode p.text.toList

/-- The path that is told of by bytes. What is no text in them is replaced, so that another path may
be told than the one that has these bytes. -/
def ofBytes (bytes : List UInt8) : Path := ⟨String.ofList (Text.decode bytes)⟩

/-- Whether the path has a name that the system cannot be given: it would end at its NUL. -/
def hasNul (p : Path) : Bool := p.text.toList.contains '\x00'

end Path

/-! ## The home directory

A path that starts with `~` leads to the home directory, which the environment names; failing that,
the account of the user does.
-/

/-- Variables with their values; each variable counts at its first place. -/
abbrev Environment := List (String × String)

namespace Environment

/-- The home directory: that of the variable `HOME`, or that of the account if it is empty. -/
def home? (env : Environment) (account : Option Path) : Option Path :=
  match env.lookup "HOME" with
  | some home => if home = "" then account else some ⟨home⟩
  | none => account

def temporaryDirectory (env : Environment) : Path := ⟨(env.lookup "TMPDIR").getD "/tmp"⟩

end Environment

/-- A path with its leading `~` replaced by the home directory; `none` if that is unknown. A `~`
that is part of a name stays. -/
def Path.expandHome? (home : Option Path) (p : Path) : Option Path :=
  match p.text.toList with
  | ['~'] => home
  | '~' :: '/' :: rest => home.map (· / ⟨String.ofList rest⟩)
  | _ => some p

def homeUnknown : String := "Could not find home directory"

end GitPublish
