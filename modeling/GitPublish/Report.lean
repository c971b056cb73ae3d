import GitPublish.FailureKind
import GitPublish.Text

/-!
# What the program says

Answers go to the standard output, and all else to the error output, so that answers can be piped.
How much is said depends on the verbosity, and nothing else does. Where colours are shown, routine
messages are dim, and warnings and errors bold.
-/
namespace GitPublish

inductive Verbosity where
  | quiet
  | normal
  | verbose
  deriving DecidableEq, Repr

namespace Verbosity

/-- The level that the flags ask for; asking for quiet wins. -/
def ofFlags (verbose quiet : Bool) : Verbosity :=
  if quiet then .quiet else if verbose then .verbose else .normal

/-- The least severe level of log events that are kept. -/
def logLevel : Verbosity → String
  | quiet => "error"
  | normal => "warn"
  | verbose => "debug"

end Verbosity

inductive Style where
  | bold
  | dim
  | red
  | green
  | yellow
  deriving DecidableEq, Repr

def Style.code : Style → String
  | bold => "1"
  | dim => "2"
  | red => "31"
  | green => "32"
  | yellow => "33"

def styleEnd : String := "\x1b[0m"

def styleStart (styles : List Style) : String :=
  "\x1b[" ++ ";".intercalate (styles.map Style.code) ++ "m"

/-- A text with `new` behind each `old` in it. `fuel` bounds the number of steps; the length of the
text is enough. -/
def insertBehind (old new : List Char) (fuel : Nat) (back cs : List Char) : List Char :=
  match fuel, cs with
  | fuel + 1, c :: rest =>
    if old.isPrefixOf cs then
      insertBehind old new fuel (new.reverse ++ old.reverse ++ back) (cs.drop old.length)
    else insertBehind old new fuel (c :: back) rest
  | _, _ => back.reverse

/-- A text in styles. Where the text ends styles itself, these start again. -/
def styled (colour : Bool) (styles : List Style) (text : String) : String :=
  if colour then
    let start := styleStart styles
    let cs := text.toList
    let inner := insertBehind styleEnd.toList start.toList cs.length [] cs
    start ++ String.ofList inner ++ styleEnd
  else text

inductive Report where
  | answer (text : String)
  | title (text : String)
  | success (text : String)
  | warning (text : String)
  | info (text : String)
  | detail (text : String)
  | action (verb text : String)
  | failure (text : String)
  | hint (kind : FailureKind)
  deriving DecidableEq, Repr

namespace Report

/-- Whether a report goes to the standard output. -/
def isAnswer : Report → Bool
  | answer _ | title _ => true
  | _ => false

def isMade (v : Verbosity) : Report → Bool
  | success _ | info _ | action .. => v ≠ .quiet
  | detail _ => v = .verbose
  | answer _ | title _ | warning _ | failure _ | hint _ => true

def line (colour : Bool) : Report → String
  | answer text => text ++ "\n"
  | title text => styled colour [.bold] text ++ "\n"
  | success text => styled colour [.green] text ++ "\n"
  | warning text => styled colour [.bold, .yellow] text ++ "\n"
  | info text => styled colour [.dim] text ++ "\n"
  | detail text => styled colour [.dim] text ++ "\n"
  | action verb text => styled colour [.bold, .dim] verb ++ " " ++ text ++ "\n"
  | failure text => styled colour [.bold, .red] "Error:" ++ " " ++ text ++ "\n"
  | hint kind =>
    styled colour [.bold, .yellow] "Hint:" ++ " " ++ kind.label ++ ": " ++ kind.hint ++ "\n"

end Report

/-- The text that reports make on one of the outputs. -/
def shown (v : Verbosity) (colour answers : Bool) (reports : List Report) : String :=
  let made := reports.filter fun r => r.isAnswer == answers && r.isMade v
  String.join (made.map (Report.line colour))

end GitPublish
