import GitPublish.Url.Percent

/-!
# Writing texts in TOML

A text is written in the plainest quotes that can hold it: between double quotes without an escape,
between single quotes, or over several lines. If none of these can hold it, its characters are
escaped between double quotes.
-/
namespace GitPublish.Toml

/-- The ways in which a text can be quoted. Nothing is escaped in a literal. -/
inductive QuoteStyle where
  | basic
  | literal
  | basicLines
  | literalLines
  deriving DecidableEq, Repr

/-- Whether a character can only be written as an escape. -/
def isCode (c : Char) : Bool := (c < ' ' && c ≠ '\t' && c ≠ '\n') || c = '\x7f'

/-- The length of the longest run of a character, given the length of the run so far. -/
def longestRun (c : Char) (run : Nat) : List Char → Nat
  | [] => run
  | d :: rest => if d = c then longestRun c (run + 1) rest else max run (longestRun c 0 rest)

/-- The plainest quotes that can hold a text. -/
def quoteStyle (cs : List Char) : QuoteStyle :=
  let codes := cs.any isCode
  let escapes := codes || cs.contains '\\'
  let newline := cs.contains '\n'
  if !escapes && !newline && !cs.contains '"' then .basic
  else if !codes && !newline && !cs.contains '\'' then .literal
  else if !escapes && longestRun '"' 0 cs ≤ 2 then .basicLines
  else if !codes && longestRun '\'' 0 cs ≤ 2 then .literalLines
  else if newline then .basicLines
  else .basic

/-- The escape of a character that is neither a quote nor, where lines may end, the end of one. -/
def escapeCode (lines : Bool) (c : Char) : List Char :=
  if c = '\x08' then ['\\', 'b']
  else if c = '\t' then ['\\', 't']
  else if c = '\n' then if lines then ['\n'] else ['\\', 'n']
  else if c = '\x0c' then ['\\', 'f']
  else if c = '\r' then ['\\', 'r']
  else if c = '\\' then ['\\', '\\']
  else if isCode c then
    ['\\', 'u', '0', '0', Url.hexDigit (c.toNat / 16), Url.hexDigit (c.toNat % 16)]
  else [c]

/-- The characters of a text between double quotes. So many quotes in a row stand for themselves,
and `run` is the number of those that have just been written. -/
def escapeFrom (lines : Bool) (quotes run : Nat) : List Char → List Char
  | [] => []
  | c :: rest =>
    if c = '"' then
      if run < quotes then '"' :: escapeFrom lines quotes (run + 1) rest
      else '\\' :: '"' :: escapeFrom lines quotes 0 rest
    else escapeCode lines c ++ escapeFrom lines quotes 0 rest

def quoteIn (style : QuoteStyle) (cs : List Char) : List Char :=
  let start := if cs.contains '\n' then ['\n'] else []
  match style with
  | .basic => '"' :: escapeFrom false 0 0 cs ++ ['"']
  | .literal => '\'' :: cs ++ ['\'']
  | .basicLines => "\"\"\"".toList ++ start ++ escapeFrom true 2 0 cs ++ "\"\"\"".toList
  | .literalLines => "'''".toList ++ start ++ cs ++ "'''".toList

def quote (text : String) : String :=
  let cs := text.toList
  String.ofList (quoteIn (quoteStyle cs) cs)

end GitPublish.Toml
