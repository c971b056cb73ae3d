import GitPublish.Proofs.Config.File
import GitPublish.Proofs.Path.Components
import GitPublish.Proofs.Program
import GitPublish.Proofs.Temporary
import GitPublish.Proofs.Transcript

/-!
# What publishing demands

Everything that publishing needs is looked at before anything is done. Where something is missing,
the run fails with no call, and the files are what they were. Otherwise a temporary directory is
asked for, and the first call clones into it.
-/
namespace GitPublish

open CommandLine (PushArguments)

namespace Path
variable {p : Path}

/-- The home directory takes the place of the start of a path. -/
def NeedsHome (p : Path) : Prop := p.text = "~" ∨ ∃ rest, p.text = "~/" ++ rest

theorem expandHome?_eq_none {home : Option Path} :
    p.expandHome? home = none ↔ home = none ∧ p.NeedsHome := by
  unfold expandHome? NeedsHome
  split
  next h =>
    have htext : p.text = "~" := String.toList_inj.mp h
    simp [htext]
  next rest h =>
    have htext : p.text = "~/" ++ String.ofList rest :=
      String.toList_inj.mp (by simp [h])
    simp only [Option.map_eq_none_iff, htext]
    exact ⟨fun hn => ⟨hn,.inr ⟨_,rfl⟩⟩,And.left⟩
  next hshort hlong =>
    refine ⟨nofun,?_⟩
    rintro ⟨-,htext | ⟨rest,htext⟩⟩
    · exact absurd (by rw [htext]; rfl) hshort
    · exact absurd (by rw [htext, String.toList_append]; rfl) (hlong rest.toList)

theorem root_mem_components : .root ∈ p.components ↔ p.isAbsolute := by
  have hstart : .root ∈ (start p.text.toList).1.components ↔
      (start p.text.toList).1 = .root := by
    cases (start p.text.toList).1 <;> simp [Start.components]
  have hpieces : .root ∉ componentsOf (List.splitOn '/' (start p.text.toList).2) := by
    intro h
    obtain ⟨piece,-,hpiece⟩ := List.mem_filterMap.mp h
    exact component?_ne_root piece hpiece
  rw [components_eq, List.mem_append, or_iff_left hpieces, hstart, start_eq_root_iff, isAbsolute,
    beq_iff_eq]

/-- A path may leave the directory it starts from by way of the root or of a step up. -/
theorem staysBelow_eq_false : p.staysBelow = false ↔ p.isAbsolute ∨ .parent ∈ p.components := by
  rw [staysBelow, List.all_eq_false, ← root_mem_components]
  constructor
  · rintro ⟨c,hc,hleaves⟩
    cases c with
    | root => exact .inl hc
    | parent => exact .inr hc
    | current | name => exact absurd rfl hleaves
  · rintro (hc | hc)
    · exact ⟨_,hc,nofun⟩
    · exact ⟨_,hc,nofun⟩

end Path

namespace Config

/-- The configuration with the private key that is given, if one is. -/
def withKey (c : Config) (args : PushArguments) : Config :=
  { c with privateKey := args.sshKey.or c.privateKey }

theorem keyPath?_eq_error {c : Config} {home : Option Path} {cause : ConfigError} :
    c.keyPath? home = .error cause ↔
      cause = .noHome ∧ home = none ∧ ∃ key, c.privateKey = some key ∧ key.NeedsHome := by
  unfold keyPath?
  cases c.privateKey with
  | none => simp
  | some key =>
    dsimp only
    cases h : key.expandHome? home with
    | some path =>
      have hn : ¬ (home = none ∧ key.NeedsHome) := by
        rw [← Path.expandHome?_eq_none, h]
        exact nofun
      simpa using fun _ hhome hkey => hn ⟨hhome,hkey⟩
    | none =>
      obtain ⟨hhome,hkey⟩ := Path.expandHome?_eq_none.mp h
      simp [hhome, hkey, eq_comm]

end Config

namespace Job
variable {m : Machine} {args : PushArguments} {c : Config} {source : Path} {key : Option Path}

/-- What speaks against publishing: there is no configuration to work with, or what it and the
command line say cannot be done or leaves something open. -/
inductive Refused (m : Machine) (args : PushArguments) : Prop
  | config {cause : ConfigError} : m.config? = .error cause → Refused m args
  | location {cause : LocationError} : Location.validate args.url = .error cause → Refused m args
  | home {path : Path} {c : Config} : m.config? = .ok (path, c) → m.home? = none →
      (args.source.NeedsHome ∨ ∃ key, args.sshKey.or c.privateKey = some key ∧ key.NeedsHome) →
      Refused m args
  | source {source : Path} : args.source.expandHome? m.home? = some source →
      m.files.isDirectory source = false → Refused m args
  | author {path : Path} {c : Config} : m.config? = .ok (path, c) →
      ((args.user.or c.name).getD "" = "" ∨ (args.email.or c.email).getD "" = "") →
      Refused m args
  | git : isInstalled m "git" = false → Refused m args
  | subdir {p : Path} : args.subdir = some p → (p.isAbsolute ∨ .parent ∈ p.components) →
      Refused m args

structure Accepts (m : Machine) (c : Config) (args : PushArguments) (source : Path)
    (key : Option Path) : Prop where
  location : Location.validate args.url = .ok ()
  expanded : args.source.expandHome? m.home? = some source
  key : (c.withKey args).keyPath? m.home? = .ok key
  directory : m.files.isDirectory source
  user : (args.user.or c.name).getD "" ≠ ""
  email : (args.email.or c.email).getD "" ≠ ""
  git : isInstalled m "git"

def publishing (key : Option Path) (request : PublishRequest) : Job Unit := do
  report (.action "Publishing" (request.source.text ++ " to " ++ request.url))
  let outcome ← runPublish key request
  (outcomeReports request outcome).forM report

/-- Either something is not accepted and nothing was done, or publishing starts. -/
theorem pushWith_cases (c : Config) (args : PushArguments) (s : Running) :
    (∃ e, (pushWith c args).run s = (.error e, s) ∧ e.kind? = none) ∧
        (∀ path, s.machine.config? = .ok (path, c) → Refused s.machine args) ∨
      ∃ source key, Accepts s.machine c args source key ∧
        (pushWith c args).run s = (publishing key (request c args source)).run s := by
  -- what is looked at changes nothing, so each refusal leaves the run as it was
  unfold pushWith
  rw [run_bind, run_ofResult]
  rcases hlocation : Location.validate args.url with cause | ⟨⟩
  · exact .inl ⟨⟨_,rfl,rfl⟩,fun _ _ => .location hlocation⟩
  simp only [mapError_ok, run_bind, run_home?, run_ofResult]
  cases hsource : args.source.expandHome? s.machine.home? with
  | none =>
    obtain ⟨hhome,hneeds⟩ := Path.expandHome?_eq_none.mp hsource
    exact .inl ⟨⟨_,rfl,rfl⟩,fun _ h => .home h hhome (.inl hneeds)⟩
  | some source =>
  dsimp only
  rw [← Config.withKey]
  rcases hkey : (c.withKey args).keyPath? s.machine.home? with cause | key
  · obtain ⟨-,hhome,hneeds⟩ := Config.keyPath?_eq_error.mp hkey
    exact .inl ⟨⟨_,rfl,rfl⟩,fun _ h => .home h hhome (.inr hneeds)⟩
  simp only [mapError_ok, run_get]
  cases hdirectory : s.machine.files.isDirectory source with
  | false => exact .inl ⟨⟨_,rfl,rfl⟩,fun _ _ => .source hsource hdirectory⟩
  | true =>
  have hrequest : ((request c args source).user = "" || (request c args source).email = "") =
      decide ((args.user.or c.name).getD "" = "" ∨ (args.email.or c.email).getD "" = "") := by
    simp [request]
  rw [hrequest]
  by_cases hauthor : (args.user.or c.name).getD "" = "" ∨ (args.email.or c.email).getD "" = ""
  · rw [decide_eq_true hauthor]
    exact .inl ⟨⟨_,rfl,rfl⟩,fun _ h => .author h hauthor⟩
  obtain ⟨huser,hemail⟩ := not_or.mp hauthor
  rw [decide_eq_false hauthor]
  cases hgit : isInstalled s.machine "git" with
  | false => exact .inl ⟨⟨.noGit,by simp [run_bind, hgit],rfl⟩,fun _ _ => .git hgit⟩
  | true =>
  refine .inr ⟨source,key,⟨hlocation,hsource,hkey,hdirectory,huser,hemail,hgit⟩,?_⟩
  simp only [Bool.not_true, Bool.false_eq_true, if_false, run_bind, run_get, hgit, publishing]
  rfl

def sessionOf (key : Option Path) (s : Running) : Session where
  runner := s.machine.runner
  overrides := keyOverrides key
  temporary := s.machine.environment.temporaryDirectory
  fresh := s.machine.fresh
  files := s.machine.files
  calls := s.calls
  workDir := none

def leftBy (s : Running) (t : Session) : Running :=
  { s with machine := { s.machine with files := t.files, fresh := t.fresh }, calls := t.calls }

theorem run_runPublish (key : Option Path) (request : PublishRequest) (s : Running) :
    (runPublish key request).run s =
      (((Work.publish request).run (sessionOf key s)).1.mapError (.publish request.url),
        leftBy s ((Work.publish request).run (sessionOf key s)).2) := by
  rw [runPublish, run_bind, run_get]
  exact run_ofResult _ ((Work.publish request).run (sessionOf key s)).1 _

theorem run_publishing (key : Option Path) (request : PublishRequest) (s : Running) :
    let start := Report.action "Publishing" (request.source.text ++ " to " ++ request.url)
    let begun := { s with reports := s.reports ++ [start] }
    (publishing key request).run s = match (Work.publish request).run (sessionOf key s) with
      | (.ok outcome, t) => (.ok (), { leftBy begun t with
          reports := begun.reports ++ outcomeReports request outcome })
      | (.error cause, t) => (.error (.publish request.url cause), leftBy begun t) := by
  intro start begun
  have hsession : sessionOf key begun = sessionOf key s := rfl
  rw [publishing, run_bind, run_report]
  dsimp only
  rw [run_bind, run_runPublish, hsession]
  rcases (Work.publish request).run (sessionOf key s) with ⟨cause | outcome, t⟩
  · rfl
  · exact run_reports _ _

/-- What is accepted can be refused only for where it goes inside the repository. -/
theorem Accepts.subdir_of_refused {path : Path} (ha : Accepts m c args source key)
    (hc : m.config? = .ok (path, c)) (h : Refused m args) :
    ∃ p, args.subdir = some p ∧ p.staysBelow = false := by
  cases h with
  | config h => cases h.symm.trans hc
  | location h => cases h.symm.trans ha.location
  | home h hhome hneeds =>
    cases h.symm.trans hc
    rcases hneeds with hsource | hkey
    · cases (Path.expandHome?_eq_none.mpr ⟨hhome,hsource⟩).symm.trans ha.expanded
    · have herror : (c.withKey args).keyPath? m.home? = .error .noHome :=
        Config.keyPath?_eq_error.mpr ⟨rfl,hhome,hkey⟩
      cases herror.symm.trans ha.key
  | source h hdirectory =>
    cases h.symm.trans ha.expanded
    cases hdirectory.symm.trans ha.directory
  | author h hauthor =>
    cases h.symm.trans hc
    exact absurd hauthor (not_or.mpr ⟨ha.user,ha.email⟩)
  | git h => cases h.symm.trans ha.git
  | subdir h hleaves => exact ⟨_,h,Path.staysBelow_eq_false.mpr hleaves⟩

/-- What is refused is refused before anything is done. -/
theorem run_push_of_refused (h : Refused m args) : ∃ e s,
    (push args).run { machine := m } = (.error e, s) ∧ s.machine = m ∧ s.calls = [] := by
  rw [run_push]
  dsimp only
  rcases hconfig : m.config? with cause | ⟨path, c⟩
  · exact ⟨_,_,rfl,rfl,rfl⟩
  dsimp only
  rcases pushWith_cases c args { machine := m } with ⟨⟨e,hrun,-⟩,-⟩ | ⟨source,key,ha,hrun⟩
  · exact ⟨e,_,hrun,rfl,rfl⟩
  -- the subdirectory is looked at last, when publishing has started
  obtain ⟨p,hp,hleaves⟩ := ha.subdir_of_refused hconfig h
  have hsubdir : Work.checkedSubdir (request c args source).subdir =
      .error (.copy ⟨""⟩ p .outsideRepository) :=
    Work.checkedSubdir_eq_error.mpr ⟨p,hp,hleaves,rfl⟩
  have hlocation : Location.validate (request c args source).url = .ok () := ha.location
  rw [hrun, run_publishing, Work.run_publish, hlocation, hsubdir]
  exact ⟨_,_,rfl,rfl,rfl⟩

/-- What is not refused has a configuration, all is accepted, and publishing starts. -/
theorem accepts_of_not_refused (h : ¬ Refused m args) : ∃ path c source key subdir,
    m.config? = .ok (path, c) ∧ Accepts m c args source key ∧
      Work.checkedSubdir args.subdir = .ok subdir ∧
      (push args).run { machine := m } =
        (publishing key (request c args source)).run { machine := m } := by
  rcases hconfig : m.config? with cause | ⟨path, c⟩
  · exact absurd (.config hconfig) h
  rcases pushWith_cases c args { machine := m } with ⟨-,hrefused⟩ | ⟨source,key,ha,hrun⟩
  · exact absurd (hrefused path hconfig) h
  rcases hsubdir : Work.checkedSubdir args.subdir with e | subdir
  · obtain ⟨p,hp,hleaves,-⟩ := Work.checkedSubdir_eq_error.mp hsubdir
    exact absurd (.subdir hp (Path.staysBelow_eq_false.mp hleaves)) h
  · refine ⟨path,c,source,key,subdir,rfl,ha,rfl,?_⟩
    rw [run_push]
    dsimp only
    rw [hconfig]
    exact hrun

section accepted
variable {subdir : Path} {files : FileSystem} (ha : Accepts m c args source key)
  (hs : Work.checkedSubdir args.subdir = .ok subdir)
include ha hs

/-- Where no temporary directory can be made, nothing is called. -/
theorem run_publishing_homeless {cause : IoError}
    (ht : (FileAction.makeTemporary m.environment.temporaryDirectory (args.stem.getD c.stem)
      m.fresh).run m.files = (.error cause, files)) :
    ∃ e s, (publishing key (request c args source)).run { machine := m } = (.error e, s) ∧
      s.calls = [] ∧ s.machine.files = files := by
  have hlocation : Location.validate (request c args source).url = .ok () := ha.location
  have hrun := Work.run_publish_homeless (s := sessionOf key { machine := m }) hlocation hs ht
  rw [run_publishing, hrun]
  exact ⟨_,_,rfl,rfl,rfl⟩

/-- Where a temporary directory is made, the first call clones into it. -/
theorem run_publishing_clones {dir : Path} {fresh : List String}
    (ht : (FileAction.makeTemporary m.environment.temporaryDirectory (args.stem.getD c.stem)
      m.fresh).run m.files = (.ok (dir, fresh), files)) :
    ∃ result s rest, (publishing key (request c args source)).run { machine := m } = (result, s) ∧
      s.calls =
        { command := "git", args := Git.clone args.url dir, dir := none,
          environment := keyOverrides key } :: rest := by
  have hlocation : Location.validate (request c args source).url = .ok () := ha.location
  obtain ⟨create,copied,-,hends⟩ :=
    Work.publish_ends_of_made (s := sessionOf key { machine := m }) hlocation hs ht
  obtain ⟨reply,more,hmakes⟩ := hends.makes_clone
  have hcalls := hmakes.calls
  rw [run_publishing]
  rcases hpublish : (Work.publish (request c args source)).run (sessionOf key { machine := m }) with
    ⟨cause | outcome, t⟩ <;> rw [hpublish] at hcalls <;> exact ⟨_,_,_,rfl,hcalls⟩

end accepted

/-- What is refused changes nothing and calls nothing. Otherwise a temporary directory is asked for,
and what is called first, if anything, clones the location into it. -/
theorem push_demands (m : Machine) (colour : Bool) (words : List String)
    (i : CommandLine.Invocation) (args : PushArguments)
    (hparse : CommandLine.parse m.environment words = .ok i) (hpush : i.command = .push args) :
    let run := runProgram m colour words
    (Refused m args → run.exitCode = 1 ∧ run.calls = [] ∧ run.files = m.files) ∧
      (¬ Refused m args → ∃ path c key, m.config? = .ok (path, c) ∧
        (c.withKey args).keyPath? m.home? = .ok key ∧
        match (FileAction.makeTemporary m.environment.temporaryDirectory (args.stem.getD c.stem)
          m.fresh).run m.files with
        | (.error _, files) => run.exitCode = 1 ∧ run.calls = [] ∧ run.files = files
        | (.ok (dir, _), _) => ∃ rest, run.calls =
            { command := "git", args := Git.clone args.url dir, dir := none,
              environment := keyOverrides key } :: rest) := by
  intro run
  have hrun : run = runProgram m colour words := rfl
  rw [runProgram_of_parse hparse, hpush, follow, Machine.perform] at hrun
  constructor
  · intro h
    obtain ⟨e,s,hs,hmachine,hcalls⟩ := run_push_of_refused h
    rw [hrun, hs]
    exact ⟨rfl,hcalls,congrArg Machine.files hmachine⟩
  · intro h
    obtain ⟨path,c,source,key,subdir,hconfig,ha,hsubdir,hstart⟩ := accepts_of_not_refused h
    rw [hstart] at hrun
    refine ⟨path,c,key,hconfig,ha.key,?_⟩
    split
    next ht =>
      obtain ⟨e,s,hs,hcalls,hfiles⟩ := run_publishing_homeless ha hsubdir ht
      rw [hrun, hs]
      exact ⟨rfl,hcalls,hfiles⟩
    next ht =>
      obtain ⟨result,s,rest,hs,hcalls⟩ := run_publishing_clones ha hsubdir ht
      rw [hrun, hs]
      rcases result with e | ⟨⟩ <;> exact ⟨rest,hcalls⟩

def siteArguments : PushArguments where
  url := "git@example.org:site"
  branch := none
  bootstrap := false
  source := ⟨"/site"⟩
  subdir := none
  message := "update"
  user := some "bot"
  email := some "bot@example.org"
  sshKey := none
  stem := none
  keep := false

/-- A machine with an empty directory `/site` to publish, and nothing in the way. -/
def siteMachine : Machine :=
  { idleMachine [("PATH", "/bin"), (Config.pathVariable, "/gitwrite.toml")]
      ⟨[(["bin"], .directory 0o755), (["bin", "git"], .file 0o755 .empty),
        (["site"], .directory 0o755), (["tmp"], .directory 0o755)],[],by decide⟩ with
    fresh := ["a1b2c3"] }

theorem accepts_site : siteMachine.config? = .ok (⟨"/gitwrite.toml"⟩, {}) ∧
    Accepts siteMachine {} siteArguments ⟨"/site"⟩ none := by
  have ht : siteMachine.files.IsTree := by decide
  have hnone : siteMachine.files.get? ["gitwrite.toml"] = none := by decide
  have hprogram : siteMachine.files.get? ["bin", "git"] = some (.file 0o755 .empty) := by decide
  have hconfigSteps : Step.ofText "/gitwrite.toml" = [.stay] ++ [.enter "gitwrite.toml"] := by
    decide
  have hconfig : siteMachine.files.locate true ⟨"/gitwrite.toml"⟩ = .ok ["gitwrite.toml"] :=
    FileSystem.locate_name ht (by decide) (by decide) (by decide) hconfigSteps (by decide)
      (fun _ hl => nomatch hnone.symm.trans hl) true
  have hsite : siteMachine.files.locate true ⟨"/site"⟩ = .ok ["site"] :=
    FileSystem.locate_directory ht (by decide) (by decide) (by decide) (by decide)
  have hgitSteps : Step.ofText "/bin/git" = [.stay, .enter "bin"] ++ [.enter "git"] := by decide
  have hgit : siteMachine.files.locate true ⟨"/bin/git"⟩ = .ok ["bin", "git"] :=
    FileSystem.locate_name ht (by decide) (by decide) (by decide) hgitSteps (by decide)
      (fun _ hl => nomatch hprogram.symm.trans hl) true
  have hfind : siteMachine.files.find? ⟨"/bin/git"⟩ = some (.file 0o755 .empty) := by
    rw [FileSystem.find?, FileSystem.find_eq_ok.mpr ⟨hgit,hprogram⟩]
    rfl
  have hfound : isInstalled siteMachine "git" := by
    have hpath : siteMachine.environment.lookup "PATH" = some "/bin" := by decide
    have hdirs : List.splitOn ':' "/bin".toList = ["/bin".toList] := by decide
    have hjoin : (⟨String.ofList "/bin".toList⟩ / ⟨"git"⟩ : Path) = ⟨"/bin/git"⟩ := by decide
    rw [isInstalled, hpath]
    dsimp only
    rw [hdirs, List.any_cons, hjoin, hfind]
    decide
  refine ⟨Machine.config?_eq_ok.mpr ⟨rfl,?_⟩,rfl,rfl,rfl,?_,by decide,by decide,hfound⟩
  · exact Config.load_of_absent (FileSystem.isPresent_of_none hconfig hnone)
  · exact FileSystem.isDirectory_iff.mpr ⟨_,hsite,by decide⟩

theorem push_demands_site :
    let words := ["push", "--url=git@example.org:site", "-s", "/site", "-m", "update", "--user",
      "bot", "--email", "bot@example.org"]
    CommandLine.parse siteMachine.environment words = .ok ⟨false, false, .push siteArguments⟩ ∧
      ¬ Refused siteMachine siteArguments ∧
      ∃ rest, (runProgram siteMachine false words).calls =
        { command := "git", args := ["clone", "git@example.org:site", "/tmp/gitwrite-a1b2c3"],
          dir := none } :: rest := by
  intro words
  have hparse : CommandLine.parse siteMachine.environment words =
      .ok ⟨false, false, .push siteArguments⟩ := by rfl
  obtain ⟨hconfig,ha⟩ := accepts_site
  have hrefused : ¬ Refused siteMachine siteArguments := by
    intro h
    obtain ⟨p,hp,-⟩ := ha.subdir_of_refused hconfig h
    cases hp
  have hmake : (FileAction.makeTemporary siteMachine.environment.temporaryDirectory
      (siteArguments.stem.getD ({} : Config).stem) siteMachine.fresh).run siteMachine.files =
      (.ok (⟨"/tmp/gitwrite-a1b2c3"⟩, []), _) :=
    FileAction.run_makeTemporary_tmp "gitwrite-a1b2c3" (by decide) (by decide) (by decide)
      (by decide) (by decide) (by decide) []
  obtain ⟨-,hrun⟩ := push_demands siteMachine false words _ _ hparse rfl
  obtain ⟨path,c,key,hc,hkey,hclone⟩ := hrun hrefused
  cases hc.symm.trans hconfig
  cases hkey
  rw [hmake] at hclone
  exact ⟨hparse,hrefused,hclone⟩

end Job
end GitPublish
