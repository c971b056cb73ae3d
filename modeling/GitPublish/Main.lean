import GitPublish.Program

/-!
# The command line

The outermost layer reads what the program needs to know of the machine, runs the program on it, and
carries out what it has decided: it writes the configuration file if that has changed, prints what
is to be said and exits. No command is started from here, so that publishing ends where `git` would
be looked for.
-/
namespace GitPublish.CommandLine

def variablesRead : List String :=
  ["HOME", "TMPDIR", Config.pathVariable, "NO_COLOR", "CLICOLOR_FORCE"] ++
    (Place.push.options.filterMap Field.envName?)

/-- The environment, as far as the program looks at it. -/
def readEnvironment : IO Environment := do
  let found ← variablesRead.mapM fun name => do
    pure ((← IO.getEnv name).map fun value => (name, value))
  pure (found.filterMap id)

/-- Where a path leads if no link is on the way. -/
def addressOf (files : FileSystem) (path : Path) : Address :=
  (Step.ofText path.text).foldl Step.follow (FileSystem.startOf path.text files.current)

/-- A file system with a file at a path, and with the directories on the way to it. -/
def putFile (files : FileSystem) (path : Path) (content : ByteArray) : FileSystem :=
  let a := addressOf files path
  (files.putDirectories a.dropLast).put a (.file 0o644 content)

def readFile? (path : Path) : IO (Option ByteArray) :=
  tryCatch (do pure (some (← IO.FS.readBinFile path.text))) fun _ => pure none

/-- The files, as far as the program looks at them: the directory it runs in, the configuration file
and the directory to publish. -/
def readFiles (environment : Environment) (source : Option Path) : IO FileSystem := do
  let directory ← IO.currentDir
  let here := (directory.toString.splitOn "/").filter (· ≠ "")
  let mut files := (FileSystem.empty.moveTo here).putDirectories here
  if let .ok path := Config.path? environment none then
    if let some content ← readFile? path then files := putFile files path content
  if let some path := source then
    if ← (directory / path.text).isDir then files := files.putDirectories (addressOf files path)
  pure files

/-- Writes the configuration file if it has changed. -/
def writeConfig (environment : Environment) (before after : FileSystem) : IO Unit := do
  match Config.path? environment none with
  | .error _ => pure ()
  | .ok path =>
    if before.find? path ≠ after.find? path then
      if let .ok content := ((FileAction.read path).run after).1 then
        if let some parent := path.parent? then IO.FS.createDirAll parent.text
        IO.FS.writeBinFile path.text content

/-- The directory that a command line asks to publish. -/
def sourceOf (environment : Environment) (words : List String) : Option Path :=
  match parse environment words with
  | .ok { command := .push a, .. } => a.source.expandHome? (environment.home? none)
  | _ => none

end GitPublish.CommandLine

open GitPublish in
/-- Runs the program with the words of the command line. -/
def main (words : List String) : IO UInt32 := do
  let environment ← CommandLine.readEnvironment
  let files ← CommandLine.readFiles environment (CommandLine.sourceOf environment words)
  let machine : Machine :=
    { files, environment, account := none, fresh := [],
      runner := { answer := fun _ _ files => (.notStarted (.os .notFound), files) } }
  let colour ← (match environment.colour? with
    | some colour => pure colour
    | none => do (← IO.getStdout).isTty)
  let done := runProgram machine colour words
  CommandLine.writeConfig environment machine.files done.files
  IO.print done.output
  IO.eprint done.errors
  pure (UInt32.ofNat done.exitCode)
