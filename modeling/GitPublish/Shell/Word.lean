import GitPublish.Text

/-!
# Words of a shell

A word is made of pieces: text, which may stand in quotes, and expansions, which the shell replaces
when it runs a command. What an expansion encloses is kept as text and read when it is needed.
-/
namespace GitPublish.Shell

/-- What is done with the value of a parameter. Where there is none, it gives another value, which
may be assigned, or the shell gives up; an alternative is given where there is one. Or the start or
the end is left out that fits a pattern, the longest or the shortest. -/
inductive Modifier where
  | default
  | assign
  | alternative
  | demand
  | withoutStart (longest : Bool)
  | withoutEnd (longest : Bool)
  deriving DecidableEq, Repr

/-- Whether the word of a modifier is a pattern, which quotes around the expansion do not quote. -/
def Modifier.takesPattern : Modifier → Bool
  | withoutStart _ | withoutEnd _ => true
  | _ => false

/-- Something that is replaced. With `orEmpty` an empty value counts as none. -/
inductive Expansion where
  | parameter (name : String)
  | size (name : String)
  | modified (name : String) (orEmpty : Bool) (modifier : Modifier) (word : List Char)
  | output (script : List Char)
  | arithmetic (expression : List Char)
  | bad
  deriving DecidableEq, Repr

inductive Piece where
  | text (quoted : Bool) (cs : List Char)
  | expansion (quoted : Bool) (e : Expansion)
  deriving DecidableEq, Repr

abbrev Word := List Piece

inductive SyntaxError where
  | openQuotes
  | openBrace
  | openBackquotes
  | badLoopVariable
  | unexpected (found : String) (expected : Option String)
  deriving DecidableEq, Repr

namespace SyntaxError

/-- The end of the script, where it cannot stand. -/
def atEnd (expected : Option String) : SyntaxError := unexpected "end of file" expected

def message : SyntaxError → String
  | openQuotes => "Syntax error: Unterminated quoted string"
  | openBrace => "Syntax error: Missing '\x7d'"
  | openBackquotes => "Syntax error: EOF in backquote substitution"
  | badLoopVariable => "Syntax error: Bad for loop variable"
  | unexpected found expected =>
    let hint := match expected with
      | some e => " (expecting \"" ++ e ++ "\")"
      | none => ""
    "Syntax error: " ++ found ++ " unexpected" ++ hint

end SyntaxError

/-- Where a word is read. Blanks and operators end words in a script, but not inside braces. -/
inductive Place where
  | script
  | braces
  | quotes
  | quotedBraces
  deriving DecidableEq, Repr

namespace Place

def isQuoted : Place → Bool
  | quotes | quotedBraces => true
  | script | braces => false

end Place

def endsWord (c : Char) : Bool := " \t\n;&|<>()".toList.contains c

/-- Whether a character can stand in the name of a variable. -/
def isNameChar (c : Char) : Bool := c.isAlphanum || c = '_'

def isName (cs : List Char) : Bool :=
  cs.all isNameChar && cs.head?.any fun c => !c.isDigit

def specialParameters : List Char := "@*#?-$!".toList

/-- The text up to the closing character that belongs to an opening one before the text, and what
follows. Inside quotes, neither character counts. `quote` is the quotation that the text starts in.
-/
def enclosed (opening closing : Char) (depth : Nat) (quote : Option Char) (back : List Char) :
    List Char → Option (List Char × List Char)
  | [] => none
  | '\\' :: c :: rest =>
    if quote = some '\'' then enclosed opening closing depth quote ('\\' :: back) (c :: rest)
    else enclosed opening closing depth quote (c :: '\\' :: back) rest
  | c :: rest =>
    match quote with
    | some q => enclosed opening closing depth (if c = q then none else some q) (c :: back) rest
    | none =>
      if c = '\'' || c = '"' then enclosed opening closing depth (some c) (c :: back) rest
      else if c = opening then enclosed opening closing (depth + 1) none (c :: back) rest
      else if c = closing then
        match depth with
        | 0 => some (back.reverse, rest)
        | depth + 1 => enclosed opening closing depth none (c :: back) rest
      else enclosed opening closing depth none (c :: back) rest
termination_by cs => cs.length

/-- The script up to a closing backquote, and what follows. -/
def backquoted (back : List Char) : List Char → Option (List Char × List Char)
  | [] => none
  | '`' :: rest => some (back.reverse, rest)
  | '\\' :: c :: rest =>
    if "$`\\".toList.contains c then backquoted (c :: back) rest
    else backquoted (c :: '\\' :: back) rest
  | c :: rest => backquoted (c :: back) rest

/-- The modifier that stands behind a name in braces, and its word. -/
def readModifier (name : String) (cs : List Char) : Expansion :=
  let modified (orEmpty : Bool) : List Char → Expansion
    | '-' :: word => .modified name orEmpty .default word
    | '=' :: word => .modified name orEmpty .assign word
    | '+' :: word => .modified name orEmpty .alternative word
    | '?' :: word => .modified name orEmpty .demand word
    | _ => .bad
  match cs with
  | [] => .parameter name
  | ':' :: rest => modified true rest
  | '#' :: '#' :: word => .modified name false (.withoutStart true) word
  | '#' :: word => .modified name false (.withoutStart false) word
  | '%' :: '%' :: word => .modified name false (.withoutEnd true) word
  | '%' :: word => .modified name false (.withoutEnd false) word
  | rest => modified false rest

/-- The name of a parameter at the start of a text, and what follows. -/
def readName (inBraces : Bool) (cs : List Char) : Option (String × List Char) :=
  match cs with
  | [] => none
  | c :: rest =>
    if c.isDigit then
      if inBraces then
        some (String.ofList (cs.takeWhile Char.isDigit), cs.dropWhile Char.isDigit)
      else some (String.ofList [c], rest)
    else if isNameChar c then
      some (String.ofList (cs.takeWhile isNameChar), cs.dropWhile isNameChar)
    else if specialParameters.contains c then some (String.ofList [c], rest)
    else none

/-- The expansion that a text in braces stands for. -/
def readBraces (cs : List Char) : Expansion :=
  match cs with
  | '#' :: c :: rest =>
    match readName true (c :: rest) with
    | some (name, []) => .size name
    | _ => readModifier "#" (c :: rest)
  | _ =>
    match readName true cs with
    | some (name, rest) => readModifier name rest
    | none => .bad

/-- The expansion behind a `$`, and what follows; a `$` that starts none stands for itself. -/
def readExpansion (cs : List Char) : Except SyntaxError (Option Expansion × List Char) :=
  match cs with
  | '(' :: rest =>
    match enclosed '(' ')' 0 none [] rest with
    | none => .error (.atEnd (some ")"))
    | some (inner, rest) =>
      match inner, inner.getLast? with
      | '(' :: expression, some ')' => .ok (some (.arithmetic expression.dropLast), rest)
      | script, _ => .ok (some (.output script), rest)
  | '\x7b' :: rest =>
    match enclosed '\x7b' '\x7d' 0 none [] rest with
    | none => .error .openBrace
    | some (inner, rest) => .ok (some (readBraces inner), rest)
  | _ =>
    match readName false cs with
    | some (name, rest) => .ok (some (.parameter name), rest)
    | none => .ok (none, cs)

/-- A piece with its text turned round. -/
def Piece.turned : Piece → Piece
  | text quoted cs => text quoted cs.reverse
  | e => e

/-- Adds a character of text to pieces in reverse order, whose text is turned round as well. -/
def pushChar (quoted : Bool) (c : Char) : List Piece → List Piece
  | .text q cs :: back => if q = quoted then .text q (c :: cs) :: back
    else .text quoted [c] :: .text q cs :: back
  | back => .text quoted [c] :: back

/-- The pieces of a word at a place, the last first, and what follows. `fuel` bounds the number of
steps; more than the length of the text is enough. -/
def readPieces (fuel : Nat) (place : Place) (back : List Piece) (cs : List Char) :
    Except SyntaxError (List Piece × List Char) :=
  let quoted := place.isQuoted
  match fuel, cs with
  | 0, _ => .ok (back, cs)
  | _ + 1, [] => if place = .quotes then .error .openQuotes else .ok (back, [])
  | fuel + 1, '\\' :: '\n' :: rest => readPieces fuel place back rest
  | fuel + 1, '\\' :: c :: rest =>
    if quoted && !"$`\"\\".toList.contains c then
      readPieces fuel place (pushChar true c (pushChar true '\\' back)) rest
    else readPieces fuel place (pushChar true c back) rest
  | fuel + 1, '$' :: rest => do
    let (e, rest) ← readExpansion rest
    let back := match e with
      | some e => .expansion quoted e :: back
      | none => pushChar quoted '$' back
    readPieces fuel place back rest
  | fuel + 1, '`' :: rest =>
    match backquoted [] rest with
    | none => .error .openBackquotes
    | some (script, rest) => readPieces fuel place (.expansion quoted (.output script) :: back) rest
  | fuel + 1, '"' :: rest =>
    match place with
    | .quotes => .ok (back, rest)
    | .quotedBraces => readPieces fuel place back rest
    | .script | .braces => do
      let (inner, rest) ← readPieces fuel .quotes [] rest
      let inner := if inner = [] then [.text true []] else inner
      readPieces fuel place (inner ++ back) rest
  | fuel + 1, c :: rest =>
    if c = '\'' && !quoted then
      match rest.dropWhile (· ≠ '\'') with
      | [] => .error .openQuotes
      | _ :: behind =>
        let cs := (rest.takeWhile (· ≠ '\'')).reverse
        readPieces fuel place (.text true cs :: back) behind
    else if place = .script && endsWord c then .ok (back, c :: rest)
    else readPieces fuel place (pushChar quoted c back) rest

/-- A word at the start of a text, and what follows. -/
def readWord (place : Place) (cs : List Char) : Except SyntaxError (Word × List Char) := do
  let (back, rest) ← readPieces (cs.length + 1) place [] cs
  pure (back.reverse.map Piece.turned, rest)

/-- The text of a word without expansions that stands there as it is, without quotes. -/
def Word.plain? : Word → Option String
  | [.text false cs] => some (String.ofList cs)
  | _ => none

/-! ## Quoting

A word is quoted if the shell would read it as anything but itself. It then stands between single
quotes, inside which a single quote is written as `'\''`.
-/

/-- The characters that mean something to a shell. -/
def special : List Char := "|&;<>()$`\\\"' \t\n*?[#~=%".toList

/-- A character of a word that stands between single quotes. -/
def quoteChar (c : Char) : List Char := if c = '\'' then ['\'', '\\', '\'', '\''] else [c]

def needsQuotes (word : List Char) : Bool := word = [] || word.any special.contains

/-- A word as a shell reads it. -/
def quote (word : List Char) : List Char :=
  if needsQuotes word then '\'' :: word.flatMap quoteChar ++ ['\''] else word

end GitPublish.Shell
