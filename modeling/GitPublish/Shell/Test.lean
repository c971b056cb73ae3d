import GitPublish.FileSystem.Trace
import GitPublish.Shell.Arithmetic

/-!
# Conditions of a shell

`test` and `[` decide conditions on texts, numbers and files, joined by `!`, `-a`, `-o` and
parentheses.
-/
namespace GitPublish.Shell

inductive TestError where
  | illegalNumber (text : String)
  | unexpectedOperator (text : String)
  | noClosing
  | noArgument (operator : String)
  deriving DecidableEq, Repr

def TestError.message : TestError → String
  | illegalNumber text => "Illegal number: " ++ text
  | unexpectedOperator text => text ++ ": unexpected operator"
  | noClosing => "closing paren expected"
  | noArgument op => op ++ ": argument expected"

namespace Test

def ofTexts? : String → Option (String → String → Bool)
  | "=" => some fun a b => a = b
  | "!=" => some fun a b => a ≠ b
  | "<" => some fun a b => a < b
  | ">" => some fun a b => b < a
  | _ => none

def ofNumbers? : String → Option (Int → Int → Bool)
  | "-eq" => some fun a b => a = b
  | "-ne" => some fun a b => a ≠ b
  | "-lt" => some fun a b => a < b
  | "-le" => some fun a b => a ≤ b
  | "-gt" => some fun a b => b < a
  | "-ge" => some fun a b => b ≤ a
  | _ => none

/-- The number that a text stands for, blanks around it not counting. -/
def number (text : String) : Except TestError Int :=
  let cs := (Arithmetic.skipBlanks text.toList).reverse
  let cs := (Arithmetic.skipBlanks cs).reverse
  let (negative, digits) := match cs with
    | '-' :: rest => (true, rest)
    | '+' :: rest => (false, rest)
    | _ => (false, cs)
  if digits = [] || !digits.all Char.isDigit then .error (.illegalNumber text)
  else
    let n : Int := ((Arithmetic.digitsValue 10 digits).getD 0 : Nat)
    .ok (if negative then -n else n)

/-- Whether a word is an operator between two others. -/
def isBinary (op : String) : Bool := (ofTexts? op).isSome || (ofNumbers? op).isSome

def binary (op a b : String) : Except TestError Bool :=
  match ofTexts? op, ofNumbers? op with
  | some p, _ => .ok (p a b)
  | none, some p => do
    let m ← number a
    let n ← number b
    pure (p m n)
  | none, none => .error (.unexpectedOperator op)

def unaryOperators : List String :=
  ["-n", "-z", "-e", "-f", "-d", "-r", "-w", "-x", "-s", "-h", "-L", "-t"]

def unary (fs : FileSystem) (op arg : String) : Bool :=
  let entry := fs.find? ⟨arg⟩
  match op with
  | "-n" => arg ≠ ""
  | "-z" => arg = ""
  | "-e" | "-r" | "-w" => entry.isSome || arg = "/dev/null"
  | "-f" => entry.any Entry.isFile
  | "-d" => entry.any Entry.isDirectory
  | "-x" => entry.any fun e => e.mode &&& 0o111 ≠ 0
  | "-s" => entry.any fun e => match e with
    | .file _ content => content.size ≠ 0
    | _ => true
  | "-t" => false
  | _ => match fs.find false ⟨arg⟩ with
    | .ok (_, .link _) => true
    | _ => false

/-- What is read of a condition: parts of which one has to hold, parts that all have to hold, or a
single one. -/
inductive Level where
  | alternatives
  | parts
  | single
  deriving DecidableEq, Repr

/-- The value of the condition at the start of some words, and the words that follow; nothing holds
no condition. `fuel` bounds the number of steps. -/
def read (fs : FileSystem) (fuel : Nat) (level : Level) (words : List String) :
    Except TestError (Bool × List String) :=
  match fuel with
  | 0 => .ok (false, words)
  | fuel + 1 =>
    match level with
    | .alternatives => do
      let (first, rest) ← read fs fuel .parts words
      match rest with
      | "-o" :: rest => do
        let (second, rest) ← read fs fuel .alternatives rest
        pure (first || second, rest)
      | _ => pure (first, rest)
    | .parts => do
      let (first, rest) ← read fs fuel .single words
      match rest with
      | "-a" :: rest => do
        let (second, rest) ← read fs fuel .parts rest
        pure (first && second, rest)
      | _ => pure (first, rest)
    | .single =>
      match words with
      | [] => .ok (false, [])
      | [word] => .ok (word ≠ "", [])
      | a :: op :: rest =>
        if unaryOperators.contains a && (rest = [] || !isBinary op) then .ok (unary fs a op, rest)
        else if isBinary op then
          match rest with
          | [] => .error (.noArgument op)
          | b :: rest => (binary op a b).map fun value => (value, rest)
        else if a = "!" then do
          let (value, rest) ← read fs fuel .single (op :: rest)
          pure (!value, rest)
        else if a = "(" then do
          let (value, rest) ← read fs fuel .alternatives (op :: rest)
          match rest with
          | ")" :: rest => pure (value, rest)
          | _ => throw .noClosing
        else .ok (a ≠ "", op :: rest)

/-- Whether a condition holds; one without words does not. -/
def decide (fs : FileSystem) (words : List String) : Except TestError Bool := do
  let (value, rest) ← read fs (4 * words.length + 4) .alternatives words
  if rest = [] then pure value
  else throw (.unexpectedOperator ((words.take (words.length - rest.length)).getLast?.getD ""))

end Test
end GitPublish.Shell
