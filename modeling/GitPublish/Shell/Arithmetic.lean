import GitPublish.Shell.Word

/-!
# Arithmetic of a shell

Expressions of whole numbers of 64 bits, with variables. A variable without a value counts as zero.
-/
namespace GitPublish.Shell

inductive Arithmetic where
  | number (n : Int64)
  | value (name : String)
  | unary (operator : String) (e : Arithmetic)
  | binary (operator : String) (a b : Arithmetic)
  | choice (condition yes no : Arithmetic)
  | assign (name : String) (e : Arithmetic)
  deriving Repr, Inhabited

inductive ArithmeticError where
  | noPrimary
  | noEnd
  | divisionByZero
  | illegalNumber (text : String)
  deriving DecidableEq, Repr

def ArithmeticError.message (text : String) : ArithmeticError → String
  | noPrimary => "arithmetic expression: expecting primary: \"" ++ text ++ "\""
  | noEnd => "arithmetic expression: expecting EOF: \"" ++ text ++ "\""
  | divisionByZero => "arithmetic expression: division by zero: \"" ++ text ++ "\""
  | illegalNumber value => "Illegal number: " ++ value

namespace Arithmetic

/-- The operators between expressions, those that bind least first. -/
def levels : List (List String) :=
  [["||"], ["&&"], ["|"], ["^"], ["&"], ["==", "!="], ["<=", ">=", "<", ">"], ["<<", ">>"],
    ["+", "-"], ["*", "/", "%"]]

/-- All operators, where one starts another the longer first. -/
def symbols : List String :=
  ["<<=", ">>=", "||", "&&", "==", "!=", "<=", ">=", "<<", ">>", "+=", "-=", "*=", "/=", "%=", "&=",
    "|=", "^=", "+", "-", "*", "/", "%", "<", ">", "&", "|", "^", "~", "!", "?", ":", "(", ")", "="]

/-- The operators that change a variable, with what they compute. -/
def assignments : List (String × Option String) :=
  [("=", none), ("+=", some "+"), ("-=", some "-"), ("*=", some "*"), ("/=", some "/"),
    ("%=", some "%"), ("&=", some "&"), ("|=", some "|"), ("^=", some "^"), ("<<=", some "<<"),
    (">>=", some ">>")]

def skipBlanks (cs : List Char) : List Char := cs.dropWhile Char.isWhitespace

/-- The operator at the start of a text, and what follows. -/
def symbol? (cs : List Char) : Option (String × List Char) :=
  let cs := skipBlanks cs
  (symbols.find? fun s => s.toList.isPrefixOf cs).map fun s => (s, cs.drop s.length)

def digitsValue (base : Nat) (cs : List Char) : Option Nat :=
  cs.foldl (fun n c => n.bind fun n =>
    let d := if c.isDigit then c.toNat - 48 else c.toLower.toNat - 87
    if d < base then some (n * base + d) else none) (some 0)

def number? (cs : List Char) : Option Int64 :=
  let natural (cs : List Char) : Option Nat :=
    match cs with
    | [] => none
    | '0' :: 'x' :: hex => if hex = [] then none else digitsValue 16 hex
    | '0' :: octal => digitsValue 8 octal
    | decimal => if decimal.all Char.isDigit then digitsValue 10 decimal else none
  match cs with
  | '-' :: rest => (natural rest).map fun n => -Int64.ofNat n
  | '+' :: rest => (natural rest).map Int64.ofNat
  | _ => (natural cs).map Int64.ofNat

/-- The assignment that a text starts with: the variable, the operator whose value it takes, if not
that of the expression alone, and the text of the expression. -/
def assignment? (cs : List Char) : Option (String × Option String × List Char) :=
  let cs := skipBlanks cs
  let name := cs.takeWhile isNameChar
  if isName name then
    (symbol? (cs.dropWhile isNameChar)).bind fun (s, rest) =>
      (assignments.lookup s).map fun computes => (String.ofList name, computes, rest)
  else none

/-- What is read of an expression: all of it, operators of a level or of a higher one, those behind
an expression that was read, or a single operand. -/
inductive Goal where
  | whole
  | level (n : Nat)
  | behind (n : Nat) (first : Arithmetic)
  | single

/-- Reads an expression, and returns what follows it. `fuel` bounds the number of steps. -/
def read (fuel : Nat) (goal : Goal) (cs : List Char) :
    Except ArithmeticError (Arithmetic × List Char) :=
  match fuel with
  | 0 => .error .noPrimary
  | fuel + 1 =>
    match goal with
    | .whole =>
      match assignment? cs with
      | some (name, computes, rest) => do
        let (e, rest) ← read fuel .whole rest
        pure (.assign name (match computes with
          | some s => .binary s (.value name) e
          | none => e), rest)
      | none => do
        let (condition, rest) ← read fuel (.level 0) cs
        match symbol? rest with
        | some ("?", behind) => do
          let (yes, behind) ← read fuel .whole behind
          match symbol? behind with
          | some (":", behind) => do
            let (no, behind) ← read fuel .whole behind
            pure (.choice condition yes no, behind)
          | _ => .error .noPrimary
        | _ => pure (condition, rest)
    | .level n =>
      if n < levels.length then do
        let (first, rest) ← read fuel (.level (n + 1)) cs
        read fuel (.behind n first) rest
      else read fuel .single cs
    | .behind n first =>
      match symbol? cs with
      | some (s, behind) =>
        if (levels[n]?.getD []).contains s then do
          let (second, behind) ← read fuel (.level (n + 1)) behind
          read fuel (.behind n (.binary s first second)) behind
        else .ok (first, cs)
      | none => .ok (first, cs)
    | .single =>
      match symbol? cs with
      | some ("(", behind) => do
        let (e, behind) ← read fuel .whole behind
        match symbol? behind with
        | some (")", behind) => pure (e, behind)
        | _ => .error .noPrimary
      | some (s, behind) =>
        if ["-", "+", "!", "~"].contains s then do
          let (e, behind) ← read fuel .single behind
          pure (.unary s e, behind)
        else .error .noPrimary
      | none =>
        let here := skipBlanks cs
        let text := here.takeWhile isNameChar
        let behind := here.dropWhile isNameChar
        if isName text then pure (.value (String.ofList text), behind)
        else
          match number? text with
          | some n => pure (.number n, behind)
          | none => .error .noPrimary

/-- The expression that a text stands for; an empty one is zero. -/
def parse (cs : List Char) : Except ArithmeticError Arithmetic := do
  if skipBlanks cs = [] then return .number 0
  let (e, rest) ← read (16 * (cs.length + 2)) .whole cs
  if skipBlanks rest = [] then pure e else throw .noEnd

def ofBool (b : Bool) : Int64 := if b then 1 else 0

def compute (operator : String) (a b : Int64) : Except ArithmeticError Int64 :=
  match operator with
  | "|" => .ok (a ||| b)
  | "^" => .ok (a ^^^ b)
  | "&" => .ok (a &&& b)
  | "==" => .ok (ofBool (a = b))
  | "!=" => .ok (ofBool (a ≠ b))
  | "<=" => .ok (ofBool (a ≤ b))
  | ">=" => .ok (ofBool (b ≤ a))
  | "<" => .ok (ofBool (a < b))
  | ">" => .ok (ofBool (b < a))
  | "<<" => .ok (a <<< b)
  | ">>" => .ok (a >>> b)
  | "+" => .ok (a + b)
  | "-" => .ok (a - b)
  | "*" => .ok (a * b)
  | "/" => if b = 0 then .error .divisionByZero else .ok (a / b)
  | _ => if b = 0 then .error .divisionByZero else .ok (a % b)

/-- The value of an expression. Variables are looked up among those that it has set, and then as
`value?` tells. -/
def eval (value? : String → Option String) :
    Arithmetic → StateT (List (String × String)) (Except ArithmeticError) Int64
  | number n => pure n
  | value name => do
    match ((← get).lookup name).or (value? name) with
    | none | some "" => pure 0
    | some text =>
      match number? text.toList with
      | some n => pure n
      | none => throw (.illegalNumber text)
  | unary operator e => do
    let n ← eval value? e
    pure (match operator with
      | "-" => -n
      | "!" => ofBool (n = 0)
      | "~" => ~~~n
      | _ => n)
  | binary "&&" a b => do
    if (← eval value? a) = 0 then pure 0 else pure (ofBool ((← eval value? b) ≠ 0))
  | binary "||" a b => do
    if (← eval value? a) ≠ 0 then pure 1 else pure (ofBool ((← eval value? b) ≠ 0))
  | binary operator a b => do
    let m ← eval value? a
    let n ← eval value? b
    match compute operator m n with
    | .ok result => pure result
    | .error e => throw e
  | choice condition yes no => do
    if (← eval value? condition) ≠ 0 then eval value? yes else eval value? no
  | assign name e => do
    let n ← eval value? e
    modify fun set => (name, toString n.toInt) :: set
    pure n

end Arithmetic
end GitPublish.Shell
