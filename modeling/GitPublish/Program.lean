import GitPublish.CommandLine.Help
import GitPublish.CommandLine.Invocation
import GitPublish.Config.File
import GitPublish.Publish
import GitPublish.Report

/-!
# The program

The program follows a command line on a machine: it may change the files of the machine and run
commands there, it makes reports, and it succeeds or fails. Neither what it does nor whether it
succeeds depends on how much it is to say.
-/
namespace GitPublish

open CommandLine (Command ConfigAction Invocation PushArguments UsageError)

/-- The machine on which the program runs. The names of temporary directories end as `fresh` says,
each ending to be tried in its turn. -/
structure Machine where
  files : FileSystem
  environment : Environment
  account : Option Path
  runner : Runner
  fresh : List String

inductive Failure where
  | location (cause : LocationError)
  | naming (url : String) (cause : LocationError)
  | config (cause : ConfigError)
  | configExists (path : Path)
  | noSource (path : Path)
  | noAuthor
  | noGit
  | publish (url : String) (cause : RepoError)
  deriving DecidableEq, Repr

namespace Failure

/-- The words for a failure, and for what lies behind it. -/
def chain : Failure → List String
  | location cause => [cause.message]
  | naming url cause => ["Cannot derive a name from '" ++ url ++ "'", cause.message]
  | config cause => cause.message :: cause.causes
  | configExists path =>
    ["Configuration file already exists: " ++ path.text ++ " (use --force to overwrite)"]
  | noSource path => ["Source directory does not exist: " ++ path.text]
  | noAuthor =>
    ["Commit author is not set: pass --user and --email or set user.name and user.email"]
  | noGit => ["git executable not found in PATH", "cannot find binary path"]
  | publish url cause => ("Failed to write back to " ++ url) :: cause.message :: cause.causes

def kind? : Failure → Option FailureKind
  | publish _ cause => cause.failureKind?
  | _ => none

def reports (f : Failure) : List Report :=
  .failure (": ".intercalate f.chain) :: (f.kind?.map Report.hint).toList

end Failure

/-- A run of the program in progress: the machine, the calls and the reports it has made. -/
structure Running where
  machine : Machine
  calls : List Call := []
  reports : List Report := []

/-- A part of a run of the program: it may change the machine, make reports and fail. -/
abbrev Job (α : Type) := ExceptT Failure (StateM Running) α

namespace Job

def report (r : Report) : Job Unit := modify fun s => { s with reports := s.reports ++ [r] }

def answer (text : String) : Job Unit := report (.answer text)

def ofResult {ε α : Type} (failure : ε → Failure) : Except ε α → Job α
  | .ok value => pure value
  | .error cause => throw (failure cause)

def home? : Job (Option Path) := do
  let m := (← get).machine
  pure (m.environment.home? m.account)

/-- The configuration and the file it lives in. -/
def openConfig : Job (Path × Config) := do
  let m := (← get).machine
  let path ← ofResult .config (Config.path? m.environment m.account)
  let config ← ofResult .config (Config.load m.files path)
  pure (path, config)

def saveConfig (path : Path) (config : Config) : Job Unit := do
  let s ← get
  let (result, files) := (config.save path).run s.machine.files
  set { s with machine := { s.machine with files } }
  ofResult (fun cause => .config (.write cause)) result

def validate (url : String) : Job Unit := do
  ofResult .location (Location.validate url)
  match Location.parse url with
  | .ok l =>
    report (.detail ("scheme: " ++ l.scheme ++ ", host: " ++ l.host ++ ", path: " ++ l.path))
  | .error _ => pure ()
  answer "valid"

def name (url : String) : Job Unit := do
  answer (← ofResult (.naming url) (Location.repoName url))

def listing (c : Config) : List Report :=
  let line (name : String) (value : Option String) : List Report :=
    (value.map fun v => Report.answer ("  " ++ name ++ " = " ++ v)).toList
  let shown (s : Setting) := line s.sectionAndName.2 (c.value s)
  [.title "[git]"] ++ [Setting.privateKey, .stem, .branch, .bootstrap].flatMap shown ++
    [.answer "", .title "[user]"] ++ [Setting.name, .email].flatMap shown

def config (action : ConfigAction) : Job Unit := do
  let (path, config) ← openConfig
  match action with
  | .init force =>
    if (← get).machine.files.isPresent path && !force then throw (.configExists path)
    saveConfig path {}
    report (.success ("Wrote default configuration to " ++ path.text))
  | .list => (listing config).forM report
  | .get key =>
    match config.get? key with
    | some value => answer value
    | none => report (.warning ("Configuration key '" ++ key ++ "' is not set"))
  | .set key value =>
    let config ← ofResult (fun cause => .config (.setting cause)) (config.set key value)
    saveConfig path config
    report (.success ("Set " ++ key ++ " = " ++ value))

/-- Whether a program is found in one of the directories of the environment. -/
def isInstalled (m : Machine) (program : String) : Bool :=
  match m.environment.lookup "PATH" with
  | none => false
  | some directories => (List.splitOn ':' directories.toList).any fun dir =>
      (m.files.find? (⟨String.ofList dir⟩ / ⟨program⟩)).any fun e =>
        e.isFile && e.mode &&& 0o111 ≠ 0

/-- What is to be published: what the command line gives, and the configuration for the rest. -/
def request (config : Config) (args : PushArguments) (source : Path) : PublishRequest :=
  { url := args.url
    branch := args.branch.or config.branch
    bootstrap := args.bootstrap || config.bootstrap
    source
    subdir := args.subdir
    message := args.message
    user := (args.user.or config.name).getD ""
    email := (args.email.or config.email).getD ""
    stem := args.stem.getD config.stem
    keep := args.keep }

/-- Publishes, with a private key if one is to be used. -/
def runPublish (key : Option Path) (request : PublishRequest) : Job PublishOutcome := do
  let s ← get
  let m := s.machine
  let session : Session :=
    { runner := m.runner, overrides := keyOverrides key,
      temporary := m.environment.temporaryDirectory, fresh := m.fresh, files := m.files,
      calls := s.calls, workDir := none }
  let (result, session) := (Work.publish request).run session
  set { s with
    machine := { m with files := session.files, fresh := session.fresh }, calls := session.calls }
  ofResult (.publish request.url) result

def outcomeReports (request : PublishRequest) (outcome : PublishOutcome) : List Report :=
  outcome.files.map (fun file => Report.detail ("  " ++ file.text)) ++
    [match outcome.commit with
      | .committed => .success
          ("Pushed " ++ toString outcome.files.length ++ " file(s) to " ++ request.url)
      | .nothingToCommit =>
        .info "Nothing to commit, the repository already contains these files"] ++
    if request.keep then [.info ("Clone kept at " ++ outcome.cloneDir.text)] else []

/-- Publishes as the command line says, and for what it leaves open, as the configuration says. -/
def pushWith (config : Config) (args : PushArguments) : Job Unit := do
  ofResult .location (Location.validate args.url)
  let home ← home?
  let needHome (path : Option Path) : Job Path :=
    ofResult .config (match path with | some p => .ok p | none => .error ConfigError.noHome)
  let source ← needHome (args.source.expandHome? home)
  let request := request config args source
  let key ← ofResult .config
    ({ config with privateKey := args.sshKey.or config.privateKey }.keyPath? home)
  if !(← get).machine.files.isDirectory source then throw (.noSource source)
  if request.user = "" || request.email = "" then throw .noAuthor
  if !isInstalled (← get).machine "git" then throw .noGit
  report (.action "Publishing" (source.text ++ " to " ++ request.url))
  let outcome ← runPublish key request
  (outcomeReports request outcome).forM report

def push (args : PushArguments) : Job Unit := do
  let (_, config) ← openConfig
  pushWith config args

def follow : Command → Job Unit
  | .validate url => validate url
  | .name url => name url
  | .push args => push args
  | .config action => config action
  | .completion shell => answer (CommandLine.completionText shell)

end Job

structure Finished where
  output : String
  errors : String
  exitCode : Nat
  calls : List Call
  files : FileSystem

/-- Follows a command on a machine, and returns the reports, the exit code and the run. -/
def execute (m : Machine) (command : Command) : List Report × Nat × Running :=
  match (Job.follow command).run { machine := m } with
  | (.ok (), s) => (s.reports, 0, s)
  | (.error failure, s) => (s.reports ++ failure.reports, 1, s)

/-- Runs the program with the words of a command line. -/
def runProgram (m : Machine) (colour : Bool) (words : List String) : Finished :=
  match CommandLine.parse m.environment words with
  | .error e =>
    let isAnswer := e.exitCode = 0
    { output := if isAnswer then e.message else "", errors := if isAnswer then "" else e.message,
      exitCode := e.exitCode, calls := [], files := m.files }
  | .ok invocation =>
    let (reports, exitCode, s) := execute m invocation.command
    let text (answers : Bool) := shown invocation.verbosity colour answers reports
    { output := text true, errors := text false, exitCode, calls := s.calls,
      files := s.machine.files }

/-- Whether the environment asks for colours even where no terminal shows them, or forbids them. -/
def Environment.colour? (env : Environment) : Option Bool :=
  match env.lookup "CLICOLOR_FORCE", env.lookup "NO_COLOR" with
  | some force, noColour => if force ≠ "0" then some true else noColour.map fun _ => false
  | none, some _ => some false
  | none, none => none

end GitPublish
