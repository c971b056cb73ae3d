import GitPublish.Url.Percent

/-!
# Blanks, keys and texts in TOML

The smallest pieces of a document: comments and blanks, texts in their four kinds of quotes with
their escapes, and keys. A reader takes what it reads from the front of the text and returns the
rest, or fails. Its `fuel` bounds the number of its steps, and the length of the text is always
enough.
-/
namespace GitPublish.Toml

def isSpace (c : Char) : Bool := c = ' ' || c = '\t'

/-- Whether a character may stand in a comment or a text: it is no control, the tab excepted. -/
def isText (c : Char) : Bool := c = '\t' || (' ' ≤ c && c ≠ '\x7f')

def skipSpace (cs : List Char) : List Char := cs.dropWhile isSpace

def lineEnd? : List Char → Option (List Char)
  | '\n' :: rest => some rest
  | '\r' :: '\n' :: rest => some rest
  | _ => none

/-- The text behind a comment, if one starts here; it stops before the end of the line. -/
def skipComment? (cs : List Char) : Option (List Char) :=
  match cs with
  | '#' :: rest =>
    let behind := rest.dropWhile isText
    if behind = [] || (lineEnd? behind).isSome then some behind else none
  | cs => some cs

/-- The text behind spaces, ends of lines and comments. -/
def skipLines? (fuel : Nat) (cs : List Char) : Option (List Char) := do
  let cs ← skipComment? (skipSpace cs)
  match fuel, lineEnd? cs with
  | fuel + 1, some rest => skipLines? fuel rest
  | _, _ => some cs

/-- The text behind the end of a line on which nothing but a comment may follow. -/
def finishLine? (cs : List Char) : Option (List Char) := do
  let cs ← skipComment? (skipSpace cs)
  if cs = [] then some [] else lineEnd? cs

/-- The character with a code in so many hexadecimal digits. -/
def hexChar? (count : Nat) (cs : List Char) : Option (Char × List Char) := do
  let digits := cs.take count
  let values ← digits.mapM Url.hexValue?
  let n := values.foldl (fun n d => n * 16 + d) 0
  if digits.length = count && n.isValidChar then some (Char.ofNat n, cs.drop count) else none

/-- The character that an escape stands for, behind its backslash. -/
def escape? : List Char → Option (Char × List Char)
  | 'b' :: rest => some ('\x08', rest)
  | 't' :: rest => some ('\t', rest)
  | 'n' :: rest => some ('\n', rest)
  | 'f' :: rest => some ('\x0c', rest)
  | 'r' :: rest => some ('\r', rest)
  | 'e' :: rest => some ('\x1b', rest)
  | '"' :: rest => some ('"', rest)
  | '\\' :: rest => some ('\\', rest)
  | 'x' :: rest => hexChar? 2 rest
  | 'u' :: rest => hexChar? 4 rest
  | 'U' :: rest => hexChar? 8 rest
  | _ => none

/-- The text behind a backslash at the end of a line: blanks and ends of lines are skipped. -/
def continueLine? (cs : List Char) : Option (List Char) := do
  let rest ← lineEnd? (skipSpace cs)
  some (rest.dropWhile fun c => isSpace c || c = '\n' || c = '\r')

/-- The rest of a text on one line, between `quote`s; with escapes between double quotes. `back` is
what has been read, in reverse order. -/
def readLineText? (quote : Char) (fuel : Nat) (back : List Char) (cs : List Char) :
    Option (List Char × List Char) :=
  match fuel, cs with
  | 0, _ => none
  | _, [] => none
  | fuel + 1, c :: rest =>
    if c = quote then some (back.reverse, rest)
    else if c = '\\' && quote = '"' then
      match escape? rest with
      | some (c, rest) => readLineText? quote fuel (c :: back) rest
      | none => none
    else if isText c then readLineText? quote fuel (c :: back) rest
    else none

/-- The rest of a text of several lines, between three `quote`s; with escapes between double quotes.
One or two quotes may stand anywhere in it, also right before the end. -/
def readLinesText? (quote : Char) (fuel : Nat) (back : List Char) (cs : List Char) :
    Option (List Char × List Char) :=
  match fuel, cs with
  | 0, _ => none
  | _, [] => none
  | fuel + 1, '\n' :: rest => readLinesText? quote fuel ('\n' :: back) rest
  | fuel + 1, '\r' :: '\n' :: rest => readLinesText? quote fuel ('\n' :: '\r' :: back) rest
  | fuel + 1, c :: rest =>
    if c = quote then
      let count := min 5 (cs.takeWhile (· = quote)).length
      if 3 ≤ count then some ((List.replicate (count - 3) quote ++ back).reverse, cs.drop count)
      else readLinesText? quote fuel (c :: back) rest
    else if c = '\\' && quote = '"' then
      match continueLine? rest, escape? rest with
      | some rest, _ => readLinesText? quote fuel back rest
      | none, some (c, rest) => readLinesText? quote fuel (c :: back) rest
      | none, none => none
    else if isText c then readLinesText? quote fuel (c :: back) rest
    else none

def lineText? (fuel : Nat) : List Char → Option (List Char × List Char)
  | '"' :: rest => readLineText? '"' fuel [] rest
  | '\'' :: rest => readLineText? '\'' fuel [] rest
  | _ => none

/-- A text in any quotes. The end of a line right behind three quotes does not count. -/
def text? (fuel : Nat) : List Char → Option (List Char × List Char)
  | '"' :: '"' :: '"' :: rest => readLinesText? '"' fuel [] ((lineEnd? rest).getD rest)
  | '\'' :: '\'' :: '\'' :: rest => readLinesText? '\'' fuel [] ((lineEnd? rest).getD rest)
  | cs => lineText? fuel cs

/-- Whether a character may stand in a key without quotes. -/
def isBare (c : Char) : Bool := c.isAlphanum || c = '_' || c = '-'

/-- A key without dots. -/
def simpleKey? (fuel : Nat) (cs : List Char) : Option (String × List Char) :=
  match lineText? fuel cs with
  | some (key, rest) => some (String.ofList key, rest)
  | none =>
    let key := cs.takeWhile isBare
    if key = [] then none else some (String.ofList key, cs.drop key.length)

/-- A key, whose dots may stand between blanks. -/
def key? (fuel : Nat) (cs : List Char) : Option (List String × List Char) :=
  match fuel with
  | 0 => do
    let (name, rest) ← simpleKey? 0 (skipSpace cs)
    some ([name], skipSpace rest)
  | fuel + 1 => do
    let (first, rest) ← simpleKey? (fuel + 1) (skipSpace cs)
    match skipSpace rest with
    | '.' :: rest =>
      let (others, rest) ← key? fuel rest
      some (first :: others, rest)
    | rest => some ([first], rest)

end GitPublish.Toml
