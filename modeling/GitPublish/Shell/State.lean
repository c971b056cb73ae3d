import GitPublish.FileSystem.Action
import GitPublish.Path
import GitPublish.Shell.Script
import GitPublish.Text

/-!
# The state of a shell

A shell holds variables, functions and arguments, and knows where its outputs lead. All that is
written is kept in the order in which it is written, each part with the buffer that it goes to.
-/
namespace GitPublish.Shell

inductive Sink where
  | buffer (number : Nat)
  | nowhere
  | file (a : Address)
  deriving DecidableEq, Repr

/-- What a shell holds. The outputs lead to `sinks`, and what has been written to a buffer is kept
with the last first. -/
structure State where
  files : FileSystem
  values : Environment
  exported : List String
  name : String
  args : List String := []
  status : Nat := 0
  functions : List (String × Command) := []
  sinks : List (Nat × Sink) := [(1, .buffer 1), (2, .buffer 2)]
  input : List Char := []
  written : List (Nat × List UInt8) := []
  buffers : Nat := 2
  line : Nat := 1
  endsOnFailure : Bool := false
  demandsValues : Bool := false
  tested : Bool := false

/-- What ends a command before its end. A loop is counted from the inside. -/
inductive Stop where
  | exit
  | killed
  | leaveLoop (count : Nat)
  | nextTurn (count : Nat)
  | leaveFunction
  deriving DecidableEq, Repr

abbrev Action (α : Type) := ExceptT Stop (StateM State) α

namespace Action

def processNumber : Nat := 4096

def setStatus (n : Nat) : Action Unit := modify fun s => { s with status := n }

def exit {α : Type} (status : Nat) : Action α := do
  setStatus status
  throw .exit

def write (number : Nat) (bytes : List UInt8) : Action Unit := modify fun s =>
  match s.sinks.lookup number with
  | some (.buffer n) => { s with written := (n, bytes) :: s.written }
  | some (.file a) =>
    match s.files.get? a with
    | some (.file mode content) =>
      { s with files := s.files.put a (.file mode (content ++ ⟨bytes.toArray⟩)) }
    | _ => s
  | _ => s

def writeLine (number : Nat) (line : String) : Action Unit :=
  write number (Text.encode (line ++ "\n").toList)

/-- Complains with the name and the line of the shell. -/
def complain (text : String) : Action Unit := do
  let s ← get
  writeLine 2 (s.name ++ ": " ++ toString s.line ++ ": " ++ text)

def giveUp {α : Type} (text : String) : Action α := do
  complain text
  exit 2

/-- What has been written to a buffer. -/
def bufferOf (s : State) (number : Nat) : List UInt8 :=
  (s.written.reverse.filter (·.1 = number)).flatMap (·.2)

def value? (name : String) : Action (Option String) := return (← get).values.lookup name

def assign (name value : String) : Action Unit := modify fun s =>
  { s with values := (name, value) :: s.values.filter (·.1 ≠ name) }

def environment (s : State) : Environment := s.values.filter fun v => s.exported.contains v.1

/-- Does something and takes back some of its changes, however it ends: `takeBack` makes the state
that stays from the one before and the one behind. -/
def restoring {α : Type} (takeBack : State → State → State) (action : Action α) :
    Action α := fun s =>
  let (result, after) := action.run s
  (result, takeBack s after)

/-- Does something in a shell of its own, which leaves no trace but its files, its output and its
status. Only a signal ends more than that shell. -/
def inner (action : Action Unit) : Action Unit :=
  restoring
    (fun before after =>
      { before with
        files := after.files.moveTo before.files.current, written := after.written,
        buffers := after.buffers, status := after.status })
    (tryCatch action fun stop => if stop = .killed then throw stop else pure ())

/-- What an action writes to its output, in a shell of its own. -/
def capture (action : Action Unit) : Action (List UInt8) := do
  let number := (← get).buffers + 1
  restoring (fun before after => { after with sinks := before.sinks }) (do
    modify fun s =>
      { s with buffers := number, sinks := (1, .buffer number) :: s.sinks.filter (·.1 ≠ 1) }
    inner action)
  let after ← get
  set { after with written := after.written.filter (·.1 ≠ number) }
  pure (bufferOf after number)

def tested (action : Action Unit) : Action Unit :=
  restoring (fun before after => { after with tested := before.tested }) (do
    modify fun s => { s with tested := true }
    action)

/-- Goes on with a turn of a loop, and returns whether another may follow. -/
def turn (action : Action Unit) : Action Bool :=
  tryCatch (do action; pure true) fun stop =>
    match stop with
    | .leaveLoop n => if n ≤ 1 then do setStatus 0; pure false else throw (.leaveLoop (n - 1))
    | .nextTurn n => if n ≤ 1 then do setStatus 0; pure true else throw (.nextTurn (n - 1))
    | stop => throw stop

end Action
end GitPublish.Shell
