import GitPublish.Shell.Word

/-!
# Tokens of a shell

A script is a list of words, operators and line ends. What cannot be read ends the list, since the
lines before it are still run.
-/
namespace GitPublish.Shell

inductive Token where
  | word (w : Word)
  | operator (text : String)
  | descriptor (number : Nat)
  | lineEnd
  | broken (error : SyntaxError)
  deriving DecidableEq, Repr

structure Located where
  line : Nat
  token : Token
  deriving DecidableEq, Repr

namespace Token

/-- The operators, where one starts another the longer first. -/
def operators : List String :=
  ["&&", "||", ";;", ">>", ">&", "<&", "<>", ">|", "<<", ";", "&", "|", "(", ")", "<", ">"]

def redirections : List String := [">", ">>", ">|", "<", "<>", ">&", "<&"]

/-- The operator at the start of a text. -/
def operator? (cs : List Char) : Option String :=
  operators.find? fun o => o.toList.isPrefixOf cs

/-- What a token is called where it cannot stand. -/
def label : Token → String
  | word _ | descriptor _ => "word"
  | operator text => "\"" ++ text ++ "\""
  | lineEnd => "newline"
  | broken _ => "end of file"

def lineCount (cs : List Char) : Nat := cs.count '\n'

/-- The tokens of a script, from a line on. `fuel` bounds the number of steps; more than the length
of the text is enough. -/
def scanFrom (fuel line : Nat) (cs : List Char) : List Located :=
  match fuel, cs with
  | 0, _ => []
  | _ + 1, [] => []
  | fuel + 1, '\\' :: '\n' :: rest => scanFrom fuel (line + 1) rest
  | fuel + 1, '\n' :: rest => ⟨line, lineEnd⟩ :: scanFrom fuel (line + 1) rest
  | fuel + 1, c :: rest =>
    if c = ' ' || c = '\t' then scanFrom fuel line rest
    else if c = '#' then scanFrom fuel line (rest.dropWhile (· ≠ '\n'))
    else
      match operator? (c :: rest) with
      | some o => ⟨line, operator o⟩ :: scanFrom fuel line ((c :: rest).drop o.length)
      | none =>
        match readWord .script (c :: rest) with
        | .error e => [⟨line + lineCount rest, broken e⟩]
        | .ok (w, behind) =>
          let next := line + lineCount (c :: rest) - lineCount behind
          let digits := (w.plain?.filter fun t => t.toList.all Char.isDigit).bind String.toNat?
          let redirects := (operator? behind).any redirections.contains
          match digits, redirects with
          | some n, true => ⟨line, descriptor n⟩ :: scanFrom fuel next behind
          | _, _ => ⟨line, word w⟩ :: scanFrom fuel next behind

def scan (cs : List Char) : List Located := scanFrom (cs.length + 1) 1 cs

end Token
end GitPublish.Shell
