/-!
# Patterns of a shell

A pattern fits a text as a whole. A quoted character stands for itself, `?` for any character, `*`
for any text, and brackets for one of several characters.
-/
namespace GitPublish.Shell

inductive PatternItem where
  | char (c : Char)
  | any
  | star
  | range (negated : Bool) (ranges : List (Char × Char))
  deriving DecidableEq, Repr

namespace PatternItem

def ranges : List Char → List (Char × Char)
  | a :: '-' :: b :: rest => (a, b) :: ranges rest
  | a :: rest => (a, a) :: ranges rest
  | [] => []

/-- What stands between brackets. The first character does not close them. -/
def ofBrackets (cs : List Char) : PatternItem :=
  match cs with
  | '!' :: rest | '^' :: rest => range true (ranges rest)
  | _ => range false (ranges cs)

/-- The text up to a closing bracket, and how many characters it takes with the bracket. -/
def brackets? (cs : List (Bool × Char)) : Option (List Char × Nat) :=
  let lead := cs.takeWhile fun x => x = (false, '!') || x = (false, '^')
  let lead := lead ++ ((cs.drop lead.length).take 1)
  let inner := (cs.drop lead.length).takeWhile fun x => x ≠ (false, ']')
  if cs.length ≤ lead.length + inner.length then none
  else some ((lead ++ inner).map (·.2), lead.length + inner.length + 1)

/-- The pattern that characters stand for, of which some are quoted. Those that are counted by
`skip` have been taken up already. -/
def ofChars (skip : Nat) : List (Bool × Char) → List PatternItem
  | [] => []
  | (quoted, c) :: rest =>
    match skip with
    | skip + 1 => ofChars skip rest
    | 0 =>
      if quoted then char c :: ofChars 0 rest
      else
        match c with
        | '*' => star :: ofChars 0 rest
        | '?' => any :: ofChars 0 rest
        | '[' =>
          match brackets? rest with
          | some (inner, taken) => ofBrackets inner :: ofChars taken rest
          | none => char c :: ofChars 0 rest
        | c => char c :: ofChars 0 rest

/-- All ends of a text, the longest first. -/
def ends : List Char → List (List Char)
  | [] => [[]]
  | c :: cs => (c :: cs) :: ends cs

def fits : List PatternItem → List Char → Bool
  | [], cs => cs = []
  | star :: items, cs => (ends cs).any fun rest => fits items rest
  | _ :: _, [] => false
  | char c :: items, d :: cs => c = d && fits items cs
  | any :: items, _ :: cs => fits items cs
  | range negated ranges :: items, d :: cs =>
    (ranges.any fun (a, b) => a ≤ d && d ≤ b) != negated && fits items cs

/-- Whether a pattern has more than characters. -/
def isProper (items : List PatternItem) : Bool :=
  items.any fun i => match i with
    | char _ => false
    | _ => true

end PatternItem
end GitPublish.Shell
