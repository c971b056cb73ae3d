import GitPublish.Toml.Number
import GitPublish.Toml.Scan
import GitPublish.Toml.Table

/-!
# Reading TOML

A document is read line by line. Arrays and inline tables may go over several lines, may end in a
comma, and may lie in each other up to a fixed depth. The `fuel` of a reader bounds the number of
its steps, and the length of the text is always enough.
-/
namespace GitPublish.Toml

/-- The greatest depth of arrays and inline tables in each other. -/
def depthLimit : Nat := 80

/-- Whether a character may stand in a scalar without quotes. -/
def isScalarChar (c : Char) : Bool :=
  c.isAlphanum || c = '+' || c = '-' || c = '_' || c = '.' || c = ':'

def scalarValue? (cs : List Char) : Option Value :=
  if cs = "true".toList then some (.boolean true)
  else if cs = "false".toList then some (.boolean false)
  else
    match integer? cs with
    | some n => some (.integer n)
    | none =>
      if isFloat cs then some (.float (cs.filter (· ≠ '_')))
      else if isDatetime cs then some .datetime
      else none

/-- A scalar without quotes. A space stands inside it between a date and a time. -/
def scalar? (cs : List Char) : Option (Value × List Char) := do
  let first := cs.takeWhile isScalarChar
  let rest := cs.drop first.length
  let more := match rest with
    | ' ' :: c :: rest =>
      if isDate first && c.isDigit then ' ' :: (c :: rest).takeWhile isScalarChar else []
    | _ => []
  let value ← scalarValue? (first ++ more)
  some (value, rest.drop more.length)

/-- The items of a list up to its closing character, with commas between them and perhaps behind the
last. -/
def items? {α : Type} (item : List Char → Option (α × List Char)) (close : Char) (fuel : Nat)
    (back : List α) (cs : List Char) : Option (List α × List Char) := do
  let cs ← skipLines? fuel cs
  match fuel, cs with
  | 0, _ => none
  | _, [] => none
  | fuel + 1, c :: rest =>
    if c = close then some (back.reverse, rest)
    else
      let (value, rest) ← item cs
      match ← skipLines? fuel rest with
      | ',' :: rest => items? item close fuel (value :: back) rest
      | c :: rest => if c = close then some ((value :: back).reverse, rest) else none
      | [] => none

/-- A key, an equals sign and a value. -/
def pair? (value : List Char → Option (Value × List Char)) (fuel : Nat) (cs : List Char) :
    Option ((List String × Value) × List Char) := do
  let (key, rest) ← key? fuel cs
  match rest with
  | '=' :: rest =>
    let (v, rest) ← value (skipSpace rest)
    some ((key, v), rest)
  | _ => none

/-- Adds a key with a value to a table between braces. -/
def addInline (entries : Entries) (pair : List String × Value) : Option Entries :=
  (addPair pair.1 pair.2 .inline entries).map (·.2)

/-- A value, with arrays and inline tables up to a depth. -/
def value? (fuel : Nat) : Nat → List Char → Option (Value × List Char)
  | depth + 1, '[' :: rest => do
    let (values, rest) ← items? (value? fuel depth) ']' fuel [] rest
    some (.array values, rest)
  | depth + 1, '\x7b' :: rest => do
    let (pairs, rest) ← items? (pair? (value? fuel depth) fuel) '\x7d' fuel [] rest
    let entries ← pairs.foldlM addInline []
    some (.table .inline entries, rest)
  | _, cs =>
    match cs.head? with
    | some '"' => (text? fuel cs).map fun (t, rest) => (.string (String.ofList t), rest)
    | some '\'' => (text? fuel cs).map fun (t, rest) => (.string (String.ofList t), rest)
    | _ => scalar? cs

def header? (fuel : Nat) (cs : List Char) : Option (Line × List Char) :=
  match cs with
  | '[' :: '[' :: rest => do
    match ← key? fuel rest with
    | (path, ']' :: ']' :: rest) => some (.next path, rest)
    | _ => none
  | '[' :: rest => do
    match ← key? fuel rest with
    | (path, ']' :: rest) => some (.table path, rest)
    | _ => none
  | _ => none

/-- One line of a document, up to what may follow on it. -/
def line? (fuel : Nat) (cs : List Char) : Option (Line × List Char) :=
  match skipSpace cs with
  | [] => some (.blank, [])
  | c :: rest =>
    if c = '[' then header? fuel (c :: rest)
    else if c = '#' || c = '\n' || c = '\r' then some (.blank, c :: rest)
    else (pair? (value? fuel depthLimit) fuel (c :: rest)).map fun ((key, value), rest) =>
      (.pair key value, rest)

def lines? (fuel : Nat) (d : Draft) (cs : List Char) : Option Draft :=
  match fuel, cs with
  | _, [] => some d
  | 0, _ => none
  | fuel + 1, cs => do
    let (line, rest) ← line? fuel cs
    let d ← d.add? line
    lines? fuel d (← finishLine? rest)

/-- The entries of a document. A byte order mark at its start does not count. -/
def read? (text : String) : Option Entries :=
  let cs := match text.toList with
    | '\ufeff' :: rest => rest
    | cs => cs
  (lines? (cs.length + 1) ⟨[], []⟩ cs).map Draft.entries

end GitPublish.Toml
