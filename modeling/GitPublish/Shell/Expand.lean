import GitPublish.Shell.Arithmetic
import GitPublish.Shell.Pattern
import GitPublish.Shell.State

/-!
# Expansion of words

A word becomes fields: its expansions are replaced, what is not quoted in them is split at blanks,
patterns are replaced by the names of files that fit, and quotes are taken away.
-/
namespace GitPublish.Shell

/-- A part of an expanded word: a character, the end of a field, or the mark of a quoted text, which
is a field even if it is empty. -/
inductive Glyph where
  | char (quoted : Bool) (c : Char)
  | gap
  | mark
  deriving DecidableEq, Repr

namespace Glyph

def chars (gs : List Glyph) : List (Bool × Char) :=
  gs.filterMap fun g => match g with
    | char quoted c => some (quoted, c)
    | gap => some (true, ' ')
    | mark => none

def text (gs : List Glyph) : String := String.ofList ((chars gs).map (·.2))

/-- The fields of an expanded word. `back?` is the field that is being read, in reverse order, if
there is one. -/
def fields (back? : Option (List (Bool × Char))) : List Glyph → List (List (Bool × Char))
  | [] => (back?.map List.reverse).toList
  | gap :: rest => (back?.map List.reverse).toList ++ fields none rest
  | mark :: rest => fields (some (back?.getD [])) rest
  | char quoted c :: rest => fields (some ((quoted, c) :: back?.getD [])) rest

def ofQuoted (cs : List Char) : List Glyph := mark :: cs.map (char true)

/-- A text that is not quoted; it may be split at blanks. -/
def ofUnquoted (splits : Bool) (blanks cs : List Char) : List Glyph :=
  cs.map fun c => if splits && blanks.contains c then gap else char false c

end Glyph

namespace Action

def blanks : Action (List Char) := return ((← value? "IFS").getD " \t\n").toList

def parameter? (name : String) : Action (Option String) := do
  let s ← get
  match name with
  | "@" | "*" => pure (if s.args = [] then none else some (" ".intercalate s.args))
  | "#" => pure (some (toString s.args.length))
  | "?" => pure (some (toString s.status))
  | "$" => pure (some (toString processNumber))
  | "!" => pure (some "")
  | "-" => pure (some (if s.endsOnFailure then "e" else ""))
  | "0" => pure (some s.name)
  | _ =>
    match name.toNat? with
    | some n => pure s.args[n - 1]?
    | none => value? name

/-- The value of a parameter, which is empty if there is none. -/
def parameter (name : String) : Action String := do
  match ← parameter? name with
  | some value => pure value
  | none =>
    if (← get).demandsValues && name ≠ "@" && name ≠ "*" then
      giveUp (name ++ ": parameter not set")
    else pure ""

/-- The arguments, each as a field of its own. -/
def allArgs (quoted splits : Bool) : Action (List Glyph) := do
  let ifs ← blanks
  let glyphs := (← get).args.map fun a =>
    if quoted then Glyph.ofQuoted a.toList else Glyph.ofUnquoted splits ifs a.toList
  pure ([Glyph.gap].intercalate glyphs)

/-- A text that replaces an expansion. -/
def replaced (quoted splits : Bool) (text : String) : Action (List Glyph) := do
  if quoted then pure (Glyph.ofQuoted text.toList)
  else pure (Glyph.ofUnquoted splits (← blanks) text.toList)

/-- A text without the start or the end that fits a pattern. -/
def trimmed (m : Modifier) (pattern : List (Bool × Char)) (cs : List Char) : List Char :=
  let items := PatternItem.ofChars 0 pattern
  let sizes := List.range (cs.length + 1)
  match m with
  | .withoutStart longest =>
    let sizes := if longest then sizes.reverse else sizes
    match sizes.find? fun n => PatternItem.fits items (cs.take n) with
    | some n => cs.drop n
    | none => cs
  | .withoutEnd longest =>
    let sizes := if longest then sizes else sizes.reverse
    match sizes.find? fun n => PatternItem.fits items (cs.drop n) with
    | some n => cs.take n
    | none => cs
  | _ => cs

def arithmetic (cs : List Char) : Action String := do
  let s ← get
  let result := do
    let e ← Arithmetic.parse cs
    (e.eval fun name => s.values.lookup name).run []
  match result with
  | .ok (n, changes) =>
    changes.reverse.forM fun (name, value) => assign name value
    pure (toString n.toInt)
  | .error e => giveUp (e.message (String.ofList cs))

/-- The characters of what a script has written, without the line ends at its end. -/
def outputText (bytes : List UInt8) : String :=
  String.ofList ((Text.decode bytes).reverse.dropWhile (· = '\n')).reverse

/-- The pieces of a text that stands in an expansion. -/
def readInner (quoted : Bool) (cs : List Char) : Action Word := do
  match readWord (if quoted then .quotedBraces else .braces) cs with
  | .ok (w, _) => pure w
  | .error e => giveUp e.message

/-- The parts of an expanded word. Where `splits` is false, the word is no field of a command, and
not split. `output` runs a script and returns what it writes, and `fuel` bounds the depth. -/
def expand (output : List Char → Action (List UInt8)) (fuel : Nat) (splits : Bool) (w : Word) :
    Action (List Glyph) :=
  match fuel with
  | 0 => throw .killed
  | fuel + 1 => do
    let parts ← w.mapM fun piece => do
      match piece with
      | .text true cs => pure (Glyph.ofQuoted cs)
      | .text false cs => pure (cs.map (Glyph.char false))
      | .expansion quoted e =>
        match e with
        | .parameter "@" => allArgs quoted splits
        | .parameter "*" =>
          if quoted then
            let divider := ((← blanks).take 1)
            let args := (← get).args.map String.toList
            pure (Glyph.ofQuoted (divider.intercalate args))
          else allArgs false splits
        | .parameter name => do replaced quoted splits (← parameter name)
        | .size name => do replaced quoted splits (toString (← parameter name).utf8ByteSize)
        | .output script => do replaced quoted splits (outputText (← output script))
        | .arithmetic cs => do
          let inner ← expand output fuel false (← readInner true cs)
          replaced quoted splits (← arithmetic (Glyph.text inner).toList)
        | .bad => giveUp "Bad substitution"
        | .modified name orEmpty m word => do
          let value := (← parameter? name).filter fun v => !orEmpty || v ≠ ""
          let word ← readInner (quoted && !m.takesPattern) word
          match m, value with
          | .default, none => expand output fuel splits word
          | .alternative, some _ => expand output fuel splits word
          | .assign, none => do
            let text := Glyph.text (← expand output fuel false word)
            assign name text
            replaced quoted splits text
          | .demand, none => do
            let text := Glyph.text (← expand output fuel false word)
            let text := if word ≠ [] then text
              else "parameter not set" ++ if orEmpty then " or null" else ""
            giveUp (name ++ ": " ++ text)
          | .alternative, none => replaced quoted splits ""
          | .withoutStart _, _ | .withoutEnd _, _ => do
            let pattern ← expand output fuel false word
            let text ← parameter name
            replaced quoted splits (String.ofList (trimmed m (Glyph.chars pattern) text.toList))
          | _, some text => replaced quoted splits text
    pure parts.flatten

/-- A word with a leading `~` replaced by the home directory. -/
def atHome (w : Word) : Action Word := do
  match w with
  | .text false ('~' :: cs) :: rest =>
    if cs.head?.getD '/' = '/' && (cs ≠ [] || rest = []) then
      match ← value? "HOME" with
      | some home => pure (.text true home.toList :: .text false cs :: rest)
      | none => pure w
    else pure w
  | _ => pure w

/-- The names in the current directory that fit a pattern. -/
def fitting (fs : FileSystem) (items : List PatternItem) : List String :=
  let names := match ((FileAction.entriesOf ⟨"."⟩).run fs).1 with
    | .ok names => names
    | .error _ => []
  let isHidden (name : String) : Bool := name.toList.head? = some '.'
  let asked := items.head? = some (.char '.')
  let found := names.filter fun name =>
    (asked || !isHidden name) && PatternItem.fits items name.toList
  found.mergeSort fun a b => !(b < a : Bool)

def fields (output : List Char → Action (List UInt8)) (fuel : Nat) (w : Word) :
    Action (List String) := do
  let glyphs ← expand output fuel true (← atHome w)
  let fs := (← get).files
  pure ((Glyph.fields none glyphs).flatMap fun field =>
    let items := PatternItem.ofChars 0 field
    let plain := [String.ofList (field.map (·.2))]
    if PatternItem.isProper items then
      match fitting fs items with
      | [] => plain
      | names => names
    else plain)

/-- The text of a word that is no field of a command. -/
def wordText (output : List Char → Action (List UInt8)) (fuel : Nat) (w : Word) :
    Action String := do
  pure (Glyph.text (← expand output fuel false (← atHome w)))

end Action
end GitPublish.Shell
