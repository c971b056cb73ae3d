import GitPublish.Proofs.Config.Actions

/-!
# Histories of a configuration

The program is run again and again on one configuration file, which is not there at first. What the
file holds is told by the runs that succeeded, in order, and each run finds what it would find if
the configuration had been kept by itself.
-/
namespace GitPublish

open CommandLine (ConfigAction)

variable {path : Path} {files : FileSystem} {stored : Option Config}

structure ConfigRun (path : Path) where
  machine : Machine
  colour : Bool
  words : List String
  verbose : Bool
  quiet : Bool
  action : ConfigAction
  located : Config.path? machine.environment machine.account = .ok path
  parsed : CommandLine.parse machine.environment words = .ok ⟨verbose, quiet, .config action⟩

namespace ConfigRun

def on (run : ConfigRun path) (files : FileSystem) : Finished :=
  runProgram { run.machine with files } run.colour run.words

/-- The files after a run, and the configuration that is stored if those who succeed store one. -/
def after (state : FileSystem × Option Config) (run : ConfigRun path) :
    FileSystem × Option Config :=
  ((run.on state.1).files,
    if (run.on state.1).exitCode = 0 then run.action.effect state.2 else state.2)

structure Agrees (run : ConfigRun path) (files : FileSystem) (stored : Option Config) : Prop where
  -- it fails if it is refused, or if there is no place for a file and none yet
  failing : (run.on files).exitCode ≠ 0 ↔ run.action.Refused stored ∨
    stored = none ∧ ¬ files.Writable path ∧ ∃ c, run.action.written stored = some c
  failed : (run.on files).exitCode ≠ 0 → (run.on files).files.find? path = files.find? path
  list : run.action = .list → (run.on files).exitCode = 0 ∧ (run.on files).files = files ∧
    (run.on files).output = (stored.getD {}).sectionText run.colour "git" ++ "\n" ++
      (stored.getD {}).sectionText run.colour "user"
  get : ∀ key, run.action = .get key →
    (run.on files).exitCode = 0 ∧ (run.on files).files = files ∧
    (run.on files).output = match (stored.getD {}).get? key with
      | some v => v ++ "\n"
      | none => ""

section kept
variable (run : ConfigRun path) (h : Config.Kept files path stored)

theorem on_eq (files : FileSystem) :
    run.on files =
      let done := { run.machine with files }.perform (Job.config run.action)
      let v := Verbosity.ofFlags run.verbose run.quiet
      { output := shown v run.colour true done.1
        errors := shown v run.colour false done.1
        exitCode := done.2.1, calls := done.2.2.calls, files := done.2.2.machine.files } :=
  runProgram_of_parse (m := { run.machine with files }) run.parsed run.colour

include h

theorem done_on : Job.Done { run.machine with files } path stored run.action
    (run.on files).exitCode (run.on files).files := by
  rw [on_eq]
  exact Job.done_config (m := { run.machine with files }) h run.located run.action

/-- A run leaves the file as it has to be for the next one. -/
theorem kept_after :
    Config.Kept (run.after (files, stored)).1 path (run.after (files, stored)).2 :=
  (run.done_on h).kept h

theorem agrees : run.Agrees files stored where
  failing := (run.done_on h).failing
  failed := (run.done_on h).failed h
  list haction := by
    have hrun := Job.run_config_list (s := { machine := { run.machine with files } }) h run.located
    rw [on_eq, haction, Machine.perform, hrun]
    exact ⟨rfl,rfl,Config.shown_listing _ _ _⟩
  get key haction := by
    have hrun := Job.run_config_get (s := { machine := { run.machine with files } }) h run.located
      key
    rw [on_eq, haction, Machine.perform, hrun]
    refine ⟨rfl,rfl,?_⟩
    dsimp only
    cases (stored.getD {}).get? key with
    | none => rfl
    | some v =>
      rw [shown_answers (by simp [Report.isAnswer])]
      simp [Report.line]

end kept

/-- What is known after any number of runs. -/
theorem kept_history (runs : List (ConfigRun path)) (h : Config.Kept files path stored) :
    Config.Kept (runs.foldl after (files, stored)).1 path (runs.foldl after (files, stored)).2 := by
  -- on the runs; what is stored changes along with the files
  induction runs generalizing files stored with
  | nil => exact h
  | cons run runs ih =>
    rw [List.foldl_cons]
    exact ih (run.kept_after h)

/-- There is no file at first, and there can be one. Whatever runs there have been since, the file
holds what those that succeeded lead to, and it can be read. What has a value there is listed with
it, and the next run, whatever it is, agrees with what is stored. -/
theorem config_history (files : FileSystem) (path : Path) (runs : List (ConfigRun path))
    (ht : files.IsTree) (hnone : files.isPresent path = false) (ha : files.Admits path) :
    let state := runs.foldl after (files, none)
    let c := state.2.getD {}
    state.1.Stores path state.2 ∧ Config.load state.1 path = .ok c ∧
      (∀ key v, c.get? key = some v ↔ ∃ place ∈ ["git", "user"], ∃ name,
        key = place ++ "." ++ name ∧ (name, v) ∈ c.listed place) ∧
      ∀ next : ConfigRun path, next.Agrees state.1 state.2 := by
  intro state c
  have hkept : Config.Kept state.1 path state.2 :=
    kept_history runs ⟨ht,hnone,nofun,ha,nofun⟩
  exact ⟨hkept.stores,hkept.load,fun _ _ => Config.get?_eq_some_iff_listed,
    fun next => next.agrees hkept⟩

/-- A machine on which `/etc` holds nothing, and the configuration file is to be there. -/
def bareMachine : Machine :=
  idleMachine [(Config.pathVariable, "/etc/gitwrite/config.toml")] Config.bareFiles

def naming : ConfigRun ⟨"/etc/gitwrite/config.toml"⟩ where
  machine := bareMachine
  colour := false
  words := ["config", "set", "user.name", "bot"]
  verbose := false
  quiet := false
  action := .set "user.name" "bot"
  located := rfl
  parsed := rfl

def asking : ConfigRun ⟨"/etc/gitwrite/config.toml"⟩ where
  machine := bareMachine
  colour := false
  words := ["config", "get", "user.name"]
  verbose := false
  quiet := false
  action := .get "user.name"
  located := rfl
  parsed := rfl

theorem config_history_naming :
    Config.bareFiles.IsTree ∧
      Config.bareFiles.isPresent ⟨"/etc/gitwrite/config.toml"⟩ = false ∧
      Config.bareFiles.Admits ⟨"/etc/gitwrite/config.toml"⟩ ∧
      let state := [naming].foldl after (Config.bareFiles, none)
      state.1.Stores ⟨"/etc/gitwrite/config.toml"⟩ (some { name := some "bot" }) ∧
        (asking.on state.1).output = "bot\n" := by
  have ht : Config.bareFiles.IsTree := by decide
  have hnone : Config.bareFiles.isPresent ⟨"/etc/gitwrite/config.toml"⟩ = false := by
    rw [FileSystem.isPresent, FileSystem.find?, FileSystem.find,
      Config.goesOn_bareFiles.locate_missing (by decide) (by decide)]
    rfl
  have ha := Config.writable_bareFiles.admits
  have hset : naming.action.written none = some { name := some "bot" } := by rfl
  have hcode : (naming.on Config.bareFiles).exitCode = 0 := by
    obtain ⟨-,-,-,hnext⟩ := config_history _ _ [] ht hnone ha
    refine Decidable.not_not.mp (mt (hnext naming).failing.mp (not_or.mpr ⟨?_,?_⟩))
    · intro hrefused
      cases hset.symm.trans hrefused.written
    · exact fun h => h.2.1 Config.writable_bareFiles
  obtain ⟨hstores,-,-,hnext⟩ := config_history _ _ [naming] ht hnone ha
  refine ⟨ht,hnone,ha,?_⟩
  dsimp only [List.foldl_cons, List.foldl_nil, after] at hstores hnext ⊢
  rw [if_pos hcode] at hstores hnext
  exact ⟨hstores,((hnext asking).get _ rfl).2.2⟩

end ConfigRun
end GitPublish
