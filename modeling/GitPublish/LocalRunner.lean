import GitPublish.Session
import GitPublish.Shell.Run

/-!
# Commands of the local system

A system finds the program of a call among its files and runs it: a utility, a script, or a shell.
What the program writes to its error output is read as text, whatever bytes it is.
-/
namespace GitPublish.LocalRunner

open Shell (Executable)

/-- The length, in bytes, that every argument and every variable stays below. -/
def argumentLimit : Nat := 131072

/-- More steps than a program takes on the way to any of its commands. -/
def stepLimit : Nat := 1000000

/-- The variables that a call runs with; of several values that it sets for one, the last counts. -/
def variablesOf (env : Environment) (call : Call) : Environment :=
  (call.environment.reverse ++ env).foldr
    (fun v vs => v :: vs.filter (·.1 ≠ v.1)) []

/-- Whether a NUL character stands anywhere in a call, where it cannot be passed on. -/
def hasNul (call : Call) : Bool :=
  let texts := call.command :: call.args ++ (call.dir.map (·.text)).toList ++
    call.environment.flatMap fun (name, value) => [name, value]
  texts.any fun t => t.toList.contains '\x00'

/-- The files as a call sees them, from its directory. -/
def filesOf (call : Call) (fs : FileSystem) : Except IoError FileSystem :=
  match call.dir with
  | none => .ok fs
  | some dir =>
    match fs.find true dir with
    | .ok (a, .directory _) => .ok (fs.moveTo a)
    | .ok _ => .error (.os .notADirectory)
    | .error e => .error e

/-- The path of the program of a call, and what it runs. A search path that the call itself sets is
the one that counts, and then a file of no known format is a script. -/
def programOf (env : Environment) (call : Call) (fs : FileSystem) :
    Except IoError (String × Executable) := do
  let own := if call.command.toList.contains '/' then none
    else call.environment.reverse.lookup "PATH"
  let searchPath := (own.or (env.lookup "PATH")).getD Executable.searchPath
  let (path, e) ← Executable.find fs searchPath call.command
  let texts := call.args ++ (variablesOf env call).map fun (name, value) => name ++ "=" ++ value
  if texts.any fun t => argumentLimit ≤ t.utf8ByteSize then throw (.os .tooManyArguments)
  match e with
  | .interpreted interpreter _ =>
    let _ ← Executable.at? fs interpreter
    pure (path, e)
  | .unknown => if own.isSome then pure (path, e) else throw (.os .badFormat)
  | .utility _ => pure (path, e)

def runProgram (env : Environment) (call : Call) (path : String) (e : Executable)
    (fs : FileSystem) : Reply × FileSystem :=
  let values := variablesOf env call
  let start : Shell.State :=
    { files := fs, values, exported := values.map (·.1), name := call.command }
  let task : Shell.Task := .executable path call.command e call.args
  let (result, s) := ExceptT.run (Shell.Action.run stepLimit task) start
  let errors := String.ofList (Text.decode (Shell.Action.bufferOf s 2))
  let reply : Reply :=
    match result with
    | .error .killed => .exited none errors
    | _ => if s.status = 0 then .succeeded else .exited (some s.status) errors
  (reply, s.files)

/-- How a call ends, and the files it leaves. -/
def answer (env : Environment) (call : Call) (fs : FileSystem) : Reply × FileSystem :=
  if hasNul call then (.notStarted .nulInCommand, fs)
  else
    let found := do
      let inside ← filesOf call fs
      let (path, e) ← programOf env call inside
      pure (inside, path, e)
    match found with
    | .error cause => (.notStarted cause, fs)
    | .ok (inside, path, e) =>
      let (reply, after) := runProgram env call path e inside
      (reply, after.moveTo fs.current)

/-- A system with the utilities that its files hold, whose programs run in an environment. -/
def runner (env : Environment) : Runner where
  answer _ call fs := answer env call fs

end GitPublish.LocalRunner
