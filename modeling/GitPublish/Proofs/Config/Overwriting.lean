import GitPublish.Proofs.Config.History

/-!
# Writing the default over a file

The program reads the configuration before it works with it, also where it is only to be replaced.
The default can therefore be written over a file that holds a configuration, and not over one that
holds none, which is left as it is.
-/
namespace GitPublish
variable {path : Path} {files : FileSystem} {target : Address} {mode : Nat} {content : ByteArray}
  {c : Config} {cause : ConfigError}

namespace Config

/-- The configuration that bytes are, if they are a text that is one. -/
def ofContent? (content : ByteArray) : Option Config :=
  (String.fromUTF8? content).bind fun text => (parse text).toOption

theorem toOption_load (h : files.find true path = .ok (target, .file mode content)) :
    (load files path).toOption = ofContent? content := by
  have hread : (FileAction.read path).run files = (.ok content, files) := by
    simp only [FileAction.read, run_bind, run_get, run_liftExcept, h]
    rfl
  rw [load, if_pos (FileSystem.isPresent_iff.mpr ⟨_,_,h⟩), FileAction.readText, run_bind_ok hread,
    ofContent?]
  cases String.fromUTF8? content with
  | none => rfl
  | some text => cases hp : parse text <;> simp [hp, Except.toOption, mapError_error]

end Config

namespace ConfigRun
variable (run : ConfigRun path)

section finished
variable {s : Running} {failure : Failure}

theorem on_of_error (h : (Job.config run.action).run { machine := { run.machine with files } } =
    (.error failure, s)) :
    (run.on files).exitCode = 1 ∧ (run.on files).files = s.machine.files := by
  rw [on, runProgram_of_error (m := { run.machine with files }) run.parsed run.colour h]
  exact ⟨rfl,rfl⟩

theorem on_of_ok (h : (Job.config run.action).run { machine := { run.machine with files } } =
    (.ok (), s)) : (run.on files).exitCode = 0 ∧ (run.on files).files = s.machine.files := by
  rw [on, runProgram_of_ok (m := { run.machine with files }) run.parsed run.colour h]
  exact ⟨rfl,rfl⟩

end finished

/-- Nothing is done where the configuration cannot be loaded. -/
theorem on_unloaded (h : Config.load files path = .error cause) :
    (run.on files).exitCode = 1 ∧ (run.on files).files = files := by
  have hc : ({ run.machine with files } : Machine).config? = .error cause := by
    simp [Machine.config?, run.located, h, bind, Except.bind]
  have hrun : (Job.config run.action).run { machine := { run.machine with files } } =
      (.error (.config cause), { machine := { run.machine with files } }) := by
    refine run_bind_error ?_
    rw [Job.run_openConfig, hc]
    rfl
  exact run.on_of_error hrun

section loaded
variable (h : Config.load files path = .ok c)
include h

theorem config?_of_loaded :
    ({ run.machine with files } : Machine).config? = .ok (path, c) :=
  Machine.config?_eq_ok.mpr ⟨run.located,h⟩

theorem on_init_kept (ha : run.action = .init false) (hp : files.isPresent path) :
    (run.on files).exitCode = 1 ∧ (run.on files).files = files := by
  have hrun : (Job.config run.action).run { machine := { run.machine with files } } =
      (.error (.configExists path), { machine := { run.machine with files } }) := by
    have hinit := Job.run_config_init (s := { machine := { run.machine with files } })
      (run.config?_of_loaded h) false
    rw [ha, hinit, hp]
    rfl
  exact run.on_of_error hrun

theorem on_init_forced (ha : run.action = .init true) (ht : files.IsTree)
    (hw : files.Writable path) :
    (run.on files).exitCode = 0 ∧ Config.load (run.on files).files path = .ok {} := by
  have hdefault : ({} : Config).isValid := by decide
  obtain ⟨files',hsave,hload⟩ := Config.load_of_save hdefault ht hw
  have hrun := Job.run_config_init (s := { machine := { run.machine with files } })
    (run.config?_of_loaded h) true
  rw [Bool.not_true, Bool.and_false, if_neg Bool.false_ne_true, run_bind, Job.run_saveConfig,
    hsave] at hrun
  obtain ⟨hcode,hfiles⟩ := run.on_of_ok (ha ▸ hrun)
  exact ⟨hcode,hfiles ▸ hload⟩

end loaded

/-- What becomes of a file at the path of the configuration when the default is to be written. If
the file is not to be replaced, it stays, and the program fails. If it is, the program succeeds
when the file holds a configuration, and the default is loaded from it then; when it holds none, the
file stays and the program fails. -/
theorem init_existing (ht : files.IsTree) (hw : files.Writable path)
    (hfile : files.find true path = .ok (target, .file mode content)) :
    let done := run.on files
    (run.action = .init false → done.exitCode = 1 ∧ done.files = files) ∧
    (run.action = .init true → (Config.ofContent? content).isSome →
      done.exitCode = 0 ∧ Config.load done.files path = .ok {}) ∧
    (run.action = .init true → Config.ofContent? content = none →
      done.exitCode = 1 ∧ done.files = files) := by
  intro done
  have hp : files.isPresent path := FileSystem.isPresent_iff.mpr ⟨_,_,hfile⟩
  have hcontent := Config.toOption_load hfile
  rcases hload : Config.load files path with cause | c <;> rw [hload] at hcontent
  · have hkept := run.on_unloaded hload
    refine ⟨fun _ => hkept,fun _ hsome => ?_,fun _ _ => hkept⟩
    rw [← hcontent] at hsome
    cases hsome
  · refine ⟨fun ha => run.on_init_kept hload ha hp,fun ha _ => run.on_init_forced hload ha ht hw,
      fun _ hnone => ?_⟩
    cases hcontent.trans hnone

/-- Files in which `/etc` holds a configuration file with a text. -/
def heldFiles (text : String) : FileSystem :=
  Config.bareFiles.put ["etc", "gitwrite.toml"] (.file 0o644 text.toUTF8)

def heldPath : Path := ⟨"/etc/gitwrite.toml"⟩

theorem held_file (text : String) : (heldFiles text).IsTree ∧
    (heldFiles text).find true heldPath =
      .ok (["etc", "gitwrite.toml"], .file 0o644 text.toUTF8) := by
  have ht : Config.bareFiles.IsTree := by decide
  have hsteps : Step.ofText heldPath.text = [.stay, .enter "etc"] ++ [.enter "gitwrite.toml"] := by
    decide
  have hl : Config.bareFiles.locate true heldPath = .ok ["etc", "gitwrite.toml"] :=
    FileSystem.locate_name ht (by decide) (by decide) (by decide) hsteps (by decide)
      (fun _ h => nomatch h) true
  exact FileSystem.find_putFile hl (by decide) 0o644 text.toUTF8 ht

theorem writable_held (text : String) : (heldFiles text).Writable heldPath := by
  obtain ⟨ht,hfile⟩ := held_file text
  have hparent : heldPath.parent? = some ⟨"/etc"⟩ := by decide
  have hdirectory : (heldFiles text).isDirectory ⟨"/etc"⟩ := FileSystem.isDirectory_iff.mpr
    ⟨["etc"],FileSystem.locate_directory ht (by decide) (by decide) (by decide) rfl,rfl⟩
  refine FileSystem.Ready.writable ⟨?_,["etc", "gitwrite.toml"],?_⟩
  · rw [FileAction.makeAbove, hparent]
    exact FileSystem.run_makeDirectories_present hdirectory 0o777
  · exact FileAction.run_openTarget_eq_ok.mpr
      ⟨by decide,(FileSystem.find_eq_ok.mp hfile).1,
        by simp [heldFiles, FileSystem.isDirectoryAt, Entry.isDirectory]⟩

/-- The default is to be written over the file, whatever it holds. -/
def forcing : ConfigRun heldPath where
  machine := idleMachine [(Config.pathVariable, "/etc/gitwrite.toml")] (heldFiles "")
  colour := false
  words := ["config", "init", "--force"]
  verbose := false
  quiet := false
  action := .init true
  located := rfl
  parsed := rfl

/-- A file that names the branch is replaced. -/
theorem init_existing_branch :
    let files := heldFiles "[git]\nbranch = 'main'\n"
    files.IsTree ∧ files.Writable heldPath ∧
      (∃ target mode content, files.find true heldPath = .ok (target, .file mode content)) ∧
      (forcing.on files).exitCode = 0 ∧
      Config.load (forcing.on files).files heldPath = .ok {} := by
  intro files
  obtain ⟨ht,hfile⟩ := held_file "[git]\nbranch = 'main'\n"
  have hw := writable_held "[git]\nbranch = 'main'\n"
  have hcontent : (Config.ofContent? "[git]\nbranch = 'main'\n".toUTF8).isSome := by rfl
  obtain ⟨-,hforced,-⟩ := forcing.init_existing ht hw hfile
  exact ⟨ht,hw,⟨_,_,_,hfile⟩,hforced rfl hcontent⟩

/-- A file with an address that is none is not replaced, though the file can be written. -/
theorem init_keeps_unreadable :
    let files := heldFiles "[user]\nemail = 'nobody'\n"
    files.IsTree ∧ files.Writable heldPath ∧
      (∃ target mode content, files.find true heldPath = .ok (target, .file mode content)) ∧
      forcing.words = ["config", "init", "--force"] ∧ (forcing.on files).exitCode = 1 ∧
      (forcing.on files).files = files ∧
      Config.load (forcing.on files).files heldPath ≠ .ok {} := by
  intro files
  obtain ⟨ht,hfile⟩ := held_file "[user]\nemail = 'nobody'\n"
  have hload : Config.load files heldPath =
      .error (.invalid heldPath (.invalidEmail "nobody")) := by
    rw [Config.load, if_pos (FileSystem.isPresent_iff.mpr ⟨_,_,hfile⟩),
      FileAction.run_readText hfile]
    rfl
  obtain ⟨hcode,hfiles⟩ := forcing.on_unloaded hload
  refine ⟨ht,writable_held _,⟨_,_,_,hfile⟩,rfl,hcode,hfiles,?_⟩
  rw [hfiles, hload]
  intro heq
  cases heq

end ConfigRun
end GitPublish
