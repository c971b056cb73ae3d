import GitPublish.Program
import GitPublish.Proofs.Effect

/-!
# How the program runs

A run of the program follows one job. What a job does to a run in progress is told by the rules for
its parts; the configuration that it works with is that of the machine it starts on.
-/
namespace GitPublish

namespace Machine

def home? (m : Machine) : Option Path := m.environment.home? m.account

def config? (m : Machine) : Except ConfigError (Path × Config) := do
  let path ← Config.path? m.environment m.account
  let config ← Config.load m.files path
  pure (path, config)

theorem config?_eq_ok {m : Machine} {path : Path} {c : Config} :
    m.config? = .ok (path, c) ↔
      Config.path? m.environment m.account = .ok path ∧ Config.load m.files path = .ok c := by
  unfold config?
  rcases Config.path? m.environment m.account with e | path'
  · exact ⟨nofun,nofun⟩
  · simp only [bind, Except.bind]
    rcases hl : Config.load m.files path' with e | c'
    · refine ⟨nofun,?_⟩
      rintro ⟨⟨⟩,hc⟩
      cases hl.symm.trans hc
    · constructor
      · rintro ⟨⟩
        exact ⟨rfl,hl⟩
      · rintro ⟨⟨⟩,hc⟩
        cases hl.symm.trans hc
        rfl

/-- The reports and the exit code of a job that is done on a machine, and the run it leaves. -/
def perform (m : Machine) (job : Job Unit) : List Report × Nat × Running :=
  match job.run { machine := m } with
  | (.ok (), s) => (s.reports, 0, s)
  | (.error failure, s) => (s.reports ++ failure.reports, 1, s)

end Machine

theorem execute_eq (m : Machine) (command : CommandLine.Command) :
    execute m command = m.perform (Job.follow command) := rfl

/-- A machine without an account, on which commands succeed and do nothing. -/
def idleMachine (environment : Environment) (files : FileSystem) : Machine where
  files := files
  environment := environment
  account := none
  runner := ⟨fun _ _ fs => (.succeeded, fs)⟩
  fresh := []

namespace Job
variable {ε α : Type}

@[simp] theorem run_report (r : Report) (s : Running) :
    (report r).run s = (.ok (), { s with reports := s.reports ++ [r] }) := rfl

@[simp] theorem run_ofResult (failure : ε → Failure) (result : Except ε α) (s : Running) :
    (ofResult failure result).run s = (result.mapError failure, s) := by
  cases result <;> rfl

@[simp] theorem run_home? (s : Running) : home?.run s = (.ok s.machine.home?, s) := rfl

/-- Reports are made one behind the other. -/
@[simp] theorem run_reports (rs : List Report) (s : Running) :
    (rs.forM report).run s = (.ok (), { s with reports := s.reports ++ rs }) := by
  induction rs generalizing s with
  | nil => simp
  | cons r rs ih =>
    rw [List.forM_eq_forM, List.forM_cons, run_bind, run_report, ← List.forM_eq_forM]
    dsimp only
    rw [ih, List.append_assoc, List.singleton_append]

/-- To open the configuration changes nothing. -/
theorem run_openConfig (s : Running) :
    openConfig.run s = (s.machine.config?.mapError .config, s) := by
  rw [openConfig, run_bind, run_get]
  simp only [run_bind, run_ofResult, Machine.config?]
  rcases Config.path? s.machine.environment s.machine.account with e | path
  · rfl
  simp only [mapError_ok, bind, Except.bind]
  rcases Config.load s.machine.files path <;> rfl

theorem run_saveConfig (path : Path) (c : Config) (s : Running) :
    (saveConfig path c).run s =
      (((c.save path).run s.machine.files).1.mapError fun cause => .config (.write cause),
        { s with machine :=
          { s.machine with files := ((c.save path).run s.machine.files).2 } }) := by
  unfold saveConfig
  generalize c.save path = action
  rw [run_bind, run_get]
  exact run_ofResult _ (action.run s.machine.files).1 _

theorem run_push (args : CommandLine.PushArguments) (s : Running) :
    (push args).run s = match s.machine.config? with
      | .ok (_, config) => (pushWith config args).run s
      | .error cause => (.error (.config cause), s) := by
  rw [push, run_bind, run_openConfig]
  rcases s.machine.config? with cause | ⟨path, config⟩ <;> rfl

end Job

/-- A command line that is followed leads to one job. -/
theorem runProgram_of_parse {m : Machine} {words : List String} {i : CommandLine.Invocation}
    (h : CommandLine.parse m.environment words = .ok i) (colour : Bool) :
    runProgram m colour words =
      let done := m.perform (Job.follow i.command)
      { output := shown i.verbosity colour true done.1
        errors := shown i.verbosity colour false done.1
        exitCode := done.2.1, calls := done.2.2.calls, files := done.2.2.machine.files } := by
  rw [runProgram, h]
  rfl

theorem shown_append (v : Verbosity) (colour answers : Bool) (xs ys : List Report) :
    shown v colour answers (xs ++ ys) =
      shown v colour answers xs ++ shown v colour answers ys := by
  simp [shown, String.join_append]

def hintLine (colour : Bool) (told : Option FailureKind) : String :=
  (told.map fun kind => Report.line colour (.hint kind)).getD ""

/-- Why the program fails is said on the error output, however little is to be said. -/
theorem shown_reports (v : Verbosity) (colour : Bool) (f : Failure) :
    shown v colour false f.reports =
      Report.line colour (.failure (": ".intercalate f.chain)) ++ hintLine colour f.kind? := by
  cases h : f.kind? <;>
    simp [shown, Failure.reports, hintLine, h, Report.isAnswer, Report.isMade, String.join]

section parsed
variable {m : Machine} {words : List String} {i : CommandLine.Invocation} {s : Running}
  (h : CommandLine.parse m.environment words = .ok i) (colour : Bool)
include h

theorem runProgram_of_ok (hr : (Job.follow i.command).run { machine := m } = (.ok (), s)) :
    runProgram m colour words =
      { output := shown i.verbosity colour true s.reports
        errors := shown i.verbosity colour false s.reports
        exitCode := 0, calls := s.calls, files := s.machine.files } := by
  rw [runProgram_of_parse h, Machine.perform, hr]

theorem runProgram_of_error {f : Failure}
    (hr : (Job.follow i.command).run { machine := m } = (.error f, s)) :
    runProgram m colour words =
      { output := shown i.verbosity colour true (s.reports ++ f.reports)
        errors := shown i.verbosity colour false s.reports ++
          (Report.line colour (.failure (": ".intercalate f.chain)) ++ hintLine colour f.kind?)
        exitCode := 1, calls := s.calls, files := s.machine.files } := by
  rw [runProgram_of_parse h, Machine.perform, hr, ← shown_reports i.verbosity, ← shown_append]

end parsed

end GitPublish
