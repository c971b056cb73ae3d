import GitPublish.Shell.Executable
import GitPublish.Shell.Format
import GitPublish.Shell.State
import GitPublish.Shell.Test

/-!
# Commands that a shell runs itself

Each takes its arguments, acts on the shell, and returns a status.
-/
namespace GitPublish.Shell

def signals : List (String × Nat) :=
  [("HUP", 1), ("INT", 2), ("QUIT", 3), ("ILL", 4), ("TRAP", 5), ("ABRT", 6), ("BUS", 7),
    ("FPE", 8), ("KILL", 9), ("USR1", 10), ("SEGV", 11), ("USR2", 12), ("PIPE", 13), ("ALRM", 14),
    ("TERM", 15), ("STKFLT", 16), ("CHLD", 17), ("CONT", 18), ("STOP", 19), ("TSTP", 20),
    ("TTIN", 21), ("TTOU", 22), ("URG", 23), ("XCPU", 24), ("XFSZ", 25), ("VTALRM", 26),
    ("PROF", 27), ("WINCH", 28), ("POLL", 29), ("PWR", 30), ("SYS", 31)]

/-- The signals that end no process. -/
def harmlessSignals : List Nat := [0, 17, 18, 19, 20, 21, 22, 23, 28]

def signal? (text : String) : Option Nat :=
  match text.toNat? with
  | some n => if n ≤ 64 then some n else none
  | none => signals.lookup text.toUpper

namespace Action

def ofBool (b : Bool) : Nat := if b then 0 else 1

/-- The number that an argument of a command stands for; the shell gives up if it is none. -/
def countOf (command text : String) : Action Nat :=
  match text.toNat? with
  | some n =>
    if text.toList.all Char.isDigit && n < Nat.pow 2 31 then pure n
    else giveUp (command ++ ": Illegal number: " ++ text)
  | none => giveUp (command ++ ": Illegal number: " ++ text)

def kill (args : List String) : Action Nat := do
  let (signal, targets) := match args with
    | "-s" :: name :: rest => (signal? name, rest)
    | first :: rest =>
      match first.toList with
      | '-' :: name => (signal? (String.ofList name), rest)
      | _ => (some 15, args)
    | [] => (some 15, [])
  match signal with
  | none =>
    complain "kill: Illegal option"
    pure 2
  | some n =>
    if targets.contains (toString processNumber) then
      if harmlessSignals.contains n then pure 0 else throw .killed
    else do
      complain "kill: No such process"
      pure 1

def changeDirectory (args : List String) : Action Nat := do
  let target := (args.head?.or (← value? "HOME")).getD ""
  let s ← get
  match s.files.find true ⟨target⟩ with
  | .ok (a, .directory _) =>
    set { s with files := s.files.moveTo a }
    pure 0
  | _ =>
    complain ("cd: can't cd to " ++ target)
    pure 2

def isLineBlank (c : Char) : Bool := c = ' ' || c = '\t'

/-- Assigns the words of a line to variables; the last takes what the others leave. -/
def assignWords (cs : List Char) : List String → Action Unit
  | [] => pure ()
  | name :: rest => do
    let cs := cs.dropWhile isLineBlank
    if rest = [] then
      assign name (String.ofList (cs.reverse.dropWhile isLineBlank).reverse)
    else
      assign name (String.ofList (cs.takeWhile (!isLineBlank ·)))
      assignWords (cs.dropWhile (!isLineBlank ·)) rest

def readLine (names : List String) : Action Nat := do
  let s ← get
  set { s with input := (s.input.dropWhile (· ≠ '\n')).tail }
  assignWords (s.input.takeWhile (· ≠ '\n')) (names.filter (· ≠ "-r"))
  pure (ofBool (s.input.contains '\n'))

/-- Marks variables as those that commands get. -/
def markExported (args : List String) : Action Nat := do
  args.forM fun arg => do
    let (name, value) := Text.cut '=' arg.toList
    if let some value := value then assign (String.ofList name) (String.ofList value)
    modify fun s => { s with exported := String.ofList name :: s.exported }
  pure 0

/-- Sets options and arguments. -/
def setOptions (args : List String) : Action Nat := do
  match args with
  | "--" :: rest => modify fun s => { s with args := rest }
  | first :: rest =>
    match first.toList with
    | '-' :: letters => modify fun s =>
        { s with
          endsOnFailure := s.endsOnFailure || letters.contains 'e',
          demandsValues := s.demandsValues || letters.contains 'u',
          args := if rest = [] then s.args else rest }
    | '+' :: letters => modify fun s =>
        { s with
          endsOnFailure := s.endsOnFailure && !letters.contains 'e',
          demandsValues := s.demandsValues && !letters.contains 'u' }
    | _ => modify fun s => { s with args }
  | [] => pure ()
  pure 0

/-- Writes files, or what is left of the input. -/
def concatenate (args : List String) : Action Nat := do
  let rest := do
    let s ← get
    set { s with input := [] }
    write 1 (Text.encode s.input)
    pure 0
  if args = [] then rest
  else
    let statuses ← args.mapM fun arg => do
      if arg = "-" then rest
      else if arg = "/dev/null" then pure 0
      else
        match ((FileAction.read ⟨arg⟩).run (← get).files).1 with
        | .ok content =>
          write 1 content.toList
          pure 0
        | .error e =>
          let text := match e with
            | .os reason => reason.text
            | e => e.message
          writeLine 2 ("cat: " ++ arg ++ ": " ++ text)
          pure 1
    pure (statuses.foldl max 0)

def sequenceOf (args : List String) : Action Nat := do
  let bounds := args.filterMap String.toInt?
  let (first, step, last) := match bounds with
    | [last] => ((1 : Int), (1 : Int), last)
    | [first, last] => (first, 1, last)
    | first :: step :: last :: _ => (first, step, last)
    | [] => (1, 1, 0)
  let count := if step = 0 then 0 else ((last - first) / step + 1).toNat
  let lines := (List.range count).map fun (i : Nat) => toString (first + i * step) ++ "\n"
  write 1 (Text.encode (String.join lines).toList)
  pure 0

def test (command : String) (args : List String) : Action Nat := do
  match Test.decide (← get).files args with
  | .ok b => pure (ofBool b)
  | .error e =>
    complain (command ++ ": " ++ e.message)
    pure 2

def printFormatted (args : List String) : Action Nat := do
  let args := if args.head? = some "--" then args.tail else args
  match args with
  | [] =>
    complain "printf: usage: printf format [arg ...]"
    pure 2
  | format :: args =>
    let p := printf format args
    p.complaints.forM fun text => complain ("printf: " ++ text)
    write 1 p.bytes
    pure (if p.complaints = [] then 0 else if p.ended then 2 else 1)

/-- What a utility does with its arguments. -/
def utility? (name : String) (args : List String) : Option (Action Nat) :=
  match name with
  | "true" => some (pure 0)
  | "false" => some (pure 1)
  | "echo" => some (do write 1 (echo args); pure 0)
  | "printf" => some (printFormatted args)
  | "test" => some (test name args)
  | "[" => some (do
      if args.getLast? = some "]" then test name args.dropLast
      else do
        complain "[: missing ]"
        pure 2)
  | "pwd" => some (do writeLine 1 (← get).files.currentPath.text; pure 0)
  | "cat" => some (concatenate args)
  | "sleep" => some (pure 0)
  | "seq" => some (sequenceOf args)
  | "env" => some (do
      (environment (← get)).forM fun (name, value) => writeLine 1 (name ++ "=" ++ value)
      pure 0)
  | _ => none

/-- What a command that acts on the shell itself does with its arguments. -/
def builtin? (name : String) (args : List String) : Option (Action Nat) :=
  let countOr (n : Nat) : Action Nat := match args.head? with
    | some text => countOf name text
    | none => pure n
  match name with
  | ":" => some (pure 0)
  | "exit" => some (do exit ((← countOr (← get).status) % 256))
  | "return" => some (do setStatus ((← countOr (← get).status) % 256); throw .leaveFunction)
  | "break" => some (do throw (.leaveLoop (← countOr 1)))
  | "continue" => some (do throw (.nextTurn (← countOr 1)))
  | "kill" => some (kill args)
  | "cd" => some (changeDirectory args)
  | "read" => some (readLine args)
  | "shift" => some (do
      let n ← countOr 1
      if (← get).args.length < n then giveUp "shift: can't shift that many"
      modify fun s => { s with args := s.args.drop n }
      pure 0)
  | "set" => some (setOptions args)
  | "export" => some (markExported args)
  | "unset" => some (do
      modify fun s => { s with values := s.values.filter fun v => !args.contains v.1 }
      pure 0)
  | "wait" => some (pure 0)
  | name => if ["cat", "sleep", "seq", "env"].contains name then none else utility? name args

end Action
end GitPublish.Shell
