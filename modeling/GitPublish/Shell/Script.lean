import GitPublish.Shell.Token

/-!
# Commands of a shell

A script is read as commands: simple ones, which are words with redirections and assignments, and
those that are made of others.
-/
namespace GitPublish.Shell

inductive Redirection where
  | write (number : Nat) (file : Word)
  | append (number : Nat) (file : Word)
  | read (number : Nat) (file : Word)
  | duplicate (number : Nat) (other : Word)
  deriving DecidableEq, Repr

inductive Command where
  | skip
  | simple (line : Nat) (assignments : List (String × Word)) (words : List Word)
    (redirections : List Redirection)
  | sequence (first second : Command)
  | conjunction (first second : Command)
  | disjunction (first second : Command)
  | negation (command : Command)
  | pipe (first second : Command)
  | choice (condition yes no : Command)
  | loop (success : Bool) (condition body : Command)
  | each (name : String) (words : Option (List Word)) (body : Command)
  | select (word : Word) (patterns : List Word) (yes no : Command)
  | inner (command : Command)
  | redirected (command : Command) (redirections : List Redirection)
  | define (name : String) (body : Command)
  deriving Repr, Inhabited

/-- Reading of a script in progress: it ends with a value or with an error and its line, and the
tokens that are left. -/
abbrev Reader (α : Type) := StateT (List Located) (Except (Nat × SyntaxError)) α

namespace Reader

/-- The words that mean something where a command can stand, and end a list of commands. -/
def closers : List String := ["then", "else", "elif", "fi", "do", "done", "esac", "\x7d"]

/-- What is called where it cannot stand: a token, of which some words are called by name. -/
def labelOf : Token → String
  | .word w => match w.plain?.filter closers.contains with
    | some t => "\"" ++ t ++ "\""
    | none => "word"
  | t => t.label

def refuse {α : Type} (expected : Option String) : Reader α := do
  match ← get with
  | [] => throw (1, .atEnd expected)
  | ⟨line, .broken e⟩ :: _ => throw (line, e)
  | ⟨line, t⟩ :: _ => throw (line, .unexpected (labelOf t) expected)

def peek : Reader (Option Token) := return (← get).head?.map (·.token)

/-- The text of the next token, if that is a word that stands there as it is. -/
def peekWord : Reader (Option String) := do
  match ← peek with
  | some (.word w) => pure w.plain?
  | _ => pure none

def advance : Reader Unit := modify List.tail

/-- Leaves out an operator if it is next. -/
def operator (text : String) : Reader Bool := do
  if (← peek) = some (.operator text) then advance; pure true else pure false

/-- Leaves out a word, which has to be next. -/
def demand (text : String) : Reader Unit := do
  if (← peekWord) = some text then advance else refuse (some text)

/-- Leaves out the line ends that are next. -/
def lineEnds : Reader Unit := modify fun ts => ts.dropWhile fun t => t.token = .lineEnd

/-- The redirection that an operator asks for. -/
def redirection (number : Option Nat) (operator : String) (w : Word) : Redirection :=
  match operator with
  | ">>" => .append (number.getD 1) w
  | ">&" => .duplicate (number.getD 1) w
  | "<&" => .duplicate (number.getD 0) w
  | "<" | "<>" => .read (number.getD 0) w
  | _ => .write (number.getD 1) w

/-- The redirections at the start of some tokens, and the tokens that follow. -/
def splitRedirections : List Located → List Redirection × List Located
  | ⟨_, .descriptor n⟩ :: ⟨_, .operator o⟩ :: ⟨_, .word w⟩ :: rest =>
    let (rs, rest) := splitRedirections rest
    (redirection (some n) o w :: rs, rest)
  | ⟨line, .operator o⟩ :: ⟨_, .word w⟩ :: rest =>
    if Token.redirections.contains o then
      let (rs, rest) := splitRedirections rest
      (redirection none o w :: rs, rest)
    else ([], ⟨line, .operator o⟩ :: ⟨line, .word w⟩ :: rest)
  | rest => ([], rest)

def redirections : Reader (List Redirection) := do
  let (rs, rest) := splitRedirections (← get)
  set rest
  pure rs

/-- The assignment that a word stands for before a command. -/
def assignment? : Word → Option (String × Word)
  | .text false cs :: rest =>
    let name := cs.takeWhile (· ≠ '=')
    match cs.dropWhile (· ≠ '=') with
    | [] => none
    | _ :: value =>
      if isName name then
        some (String.ofList name, if value = [] then rest else .text false value :: rest)
      else none
  | _ => none

/-- The words that are next, with the redirections among them; `fuel` bounds their number. -/
def words (fuel : Nat) : Reader (List Word × List Redirection) :=
  match fuel with
  | 0 => pure ([], [])
  | fuel + 1 => do
    let rs ← redirections
    match ← peek with
    | some (.word w) =>
      advance
      let (ws, more) ← words fuel
      pure (w :: ws, rs ++ more)
    | _ => pure ([], rs)

def simple : Reader Command := do
  let tokens ← get
  let (ws, rs) ← words (tokens.length + 1)
  if ws = [] && rs = [] then refuse none
  let assignments := (ws.map assignment?).takeWhile Option.isSome
  pure (.simple ((tokens.head?.map (·.line)).getD 1) (assignments.filterMap id)
    (ws.drop assignments.length) rs)

/-- Whether what is next ends a list of commands. -/
def atEndOfList : Reader Bool := do
  match ← peek with
  | none | some .lineEnd | some (.operator ")") | some (.operator ";;") => pure true
  | some (.word w) => pure (w.plain?.any closers.contains)
  | _ => pure false

/-- What is to be read. Behind a command stands what conditions join to it. -/
inductive Goal where
  | list (oneLine : Bool)
  | conditions
  | behind (first : Command)
  | pipeline
  | command
  | choice
  | branches (word : Word)

def patterns (fuel : Nat) : Reader (List Word) :=
  match fuel with
  | 0 => refuse (some ")")
  | fuel + 1 => do
    match ← peek with
    | some (.word w) =>
      advance
      if ← operator "|" then pure (w :: (← patterns fuel))
      else if ← operator ")" then pure [w]
      else refuse (some ")")
    | none => refuse (some ")")
    | _ => refuse none

def loopWords : Reader (Option (List Word)) := do
  lineEnds
  if (← peekWord) = some "in" then
    advance
    let (ws, _) ← words ((← get).length + 1)
    pure (some ws)
  else pure none

def between (opening closing : String) (body : Reader Command) : Reader Command := do
  demand opening
  let c ← body
  demand closing
  pure c

def withRedirections (body : Reader Command) : Reader Command := do
  let c ← body
  pure (.redirected c (← redirections))

/-- A loop on a condition, whose commands are read by `commands`. -/
def loop (success : Bool) (commands : Reader Command) : Reader Command := do
  advance
  let condition ← commands
  pure (.loop success condition (← between "do" "done" commands))

/-- Reads a command. `fuel` bounds the depth; more than three times the number of tokens is enough.
-/
def read (fuel : Nat) (goal : Goal) : Reader Command :=
  match fuel with
  | 0 => refuse none
  | fuel + 1 =>
    match goal with
    | .list oneLine => do
      if !oneLine then lineEnds
      if (← peek).isNone then return .skip
      let first ← read fuel .conditions
      let background ← operator "&"
      let ended ← (do if background then pure true else operator ";")
      let first := if background then .sequence (.inner first) .skip else first
      let ended := ended || !oneLine && (← peek) = some .lineEnd
      if !oneLine then lineEnds
      if ← atEndOfList then pure first
      else if ended then pure (.sequence first (← read fuel (.list oneLine)))
      else refuse none
    | .conditions => do
      let first ← read fuel .pipeline
      read fuel (.behind first)
    | .behind first => do
      if ← operator "&&" then
        lineEnds
        let second ← read fuel .pipeline
        read fuel (.behind (.conjunction first second))
      else if ← operator "||" then
        lineEnds
        let second ← read fuel .pipeline
        read fuel (.behind (.disjunction first second))
      else pure first
    | .pipeline => do
      if (← peekWord) = some "!" then
        advance
        return .negation (← read fuel .pipeline)
      let first ← read fuel .command
      if ← operator "|" then
        lineEnds
        pure (.pipe first (← read fuel .pipeline))
      else pure first
    | .command => do
      if ← operator "(" then
        let body ← read fuel (.list false)
        if !(← operator ")") then refuse (some ")")
        return .redirected (.inner body) (← redirections)
      match ← peekWord with
      | some "if" =>
        advance
        withRedirections (read fuel .choice)
      | some "while" => withRedirections (loop true (read fuel (.list false)))
      | some "until" => withRedirections (loop false (read fuel (.list false)))
      | some "for" =>
        advance
        match (← peekWord).filter fun name => isName name.toList with
        | some name =>
          advance
          let ws ← loopWords
          let _ ← operator ";"
          lineEnds
          let body ← between "do" "done" (read fuel (.list false))
          return .redirected (.each name ws body) (← redirections)
        | none =>
          throw (((← get).head?.map Located.line).getD 1, .badLoopVariable)
      | some "case" =>
        advance
        match ← peek with
        | some (.word w) =>
          advance
          lineEnds
          demand "in"
          withRedirections (read fuel (.branches w))
        | _ => refuse none
      | some "\x7b" =>
        withRedirections (between "\x7b" "\x7d" (read fuel (.list false)))
      | some name =>
        if closers.contains name then refuse none
        match (← get).map Located.token with
        | _ :: Token.operator "(" :: Token.operator ")" :: _ =>
          modify (List.drop 3)
          lineEnds
          return .define name (← read fuel .command)
        | _ => simple
      | none => simple
    | .choice => do
      let condition ← read fuel (.list false)
      demand "then"
      let yes ← read fuel (.list false)
      match ← peekWord with
      | some "elif" => advance; pure (.choice condition yes (← read fuel .choice))
      | some "else" =>
        advance
        let no ← read fuel (.list false)
        demand "fi"
        pure (.choice condition yes no)
      | _ => demand "fi"; pure (.choice condition yes .skip)
    | .branches w => do
      lineEnds
      if (← peekWord) = some "esac" then
        advance
        return .skip
      let _ ← operator "("
      let ps ← patterns (fuel + 1)
      lineEnds
      let body ← (do
        if (← peek) = some (.operator ";;") || (← peekWord) = some "esac" then pure .skip
        else read fuel (.list false))
      if ← operator ";;" then pure (.select w ps body (← read fuel (.branches w)))
      else
        demand "esac"
        pure (.select w ps body .skip)
/-- The commands of the first line that has any, if there is one. -/
def line : Reader (Option Command) := do
  lineEnds
  match ← get with
  | [] => pure none
  | tokens =>
    let c ← read (3 * tokens.length + 3) (.list true)
    match ← peek with
    | none => pure (some c)
    | some .lineEnd => pure (some c)
    | some _ => refuse none

end Reader
end GitPublish.Shell
