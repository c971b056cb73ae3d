import GitPublish.Proofs.Acceptance

/-!
# Where temporary directories lie

A temporary directory is new wherever it is made. It lies directly in the directory for such
directories, under a name with the start that was asked for, if and only if that start has no slash
in it. The start that a configuration gives never has one; one that is given on the command line is
taken as it is.
-/
namespace GitPublish

namespace Step

theorem toList_of_ofPiece {piece : List Char} {name : String} (h : ofPiece piece = .enter name) :
    name.toList = piece := by
  unfold ofPiece at h
  split at h
  · cases h
  · split at h
    · cases h
    · rw [← Step.enter.inj h, String.toList_ofList]

/-- A step enters what has a name, and no name has a slash. -/
theorem slash_not_mem_of_enter {text name : String} (h : .enter name ∈ ofText text) :
    '/' ∉ name.toList := by
  obtain ⟨piece,hpiece,hstep⟩ := List.mem_map.mp h
  rw [toList_of_ofPiece hstep]
  exact Text.not_mem_of_mem_splitOn hpiece

theorem ofText_of_name {text : String} (h : (⟨text⟩ : Path).EndsInName) (hs : '/' ∉ text.toList) :
    ofText text = [.enter text] := by
  have hpiece : ofText text = [ofPiece text.toList] := by
    rw [ofText, List.splitOn_eq_singleton hs, List.map_singleton]
  obtain ⟨name,hlast⟩ := h.last_step
  rw [hpiece, List.getLast?_singleton] at hlast
  have hstep := Option.some.inj hlast
  rw [hpiece, hstep, String.toList_inj.mp (toList_of_ofPiece hstep)]

end Step

namespace FileSystem
variable {fs : FileSystem} {p base : Path} {a : Address} {stem : String}

/-- A path from the root: a relative path starts at the current directory. -/
def rooted (fs : FileSystem) (p : Path) : Path :=
  if p.isAbsolute then p else fs.currentPath / p

/-- An address lies directly in the directory that a path leads to, under a name with this start. -/
def NamedIn (fs : FileSystem) (p : Path) (stem : String) (a : Address) : Prop :=
  ∃ dir name, fs.locate true (fs.rooted p) = .ok dir ∧ a = dir ++ [name] ∧
    stem.toList <+: name.toList

/-- A path that ends in a name leads to nothing: then it has led into a directory before, and the
name is free there. -/
theorem exists_directory_of_free (hl : fs.locate false p = .ok a) (hn : fs.get? a = none)
    (hp : p.EndsInName) : ∃ front name dir, Step.ofText p.text = front ++ [.enter name] ∧
      fs.Leads true linkLimit (startOf p.text fs.current) front dir ∧ fs.isDirectoryAt dir ∧
        a = dir ++ [name] := by
  obtain ⟨name,hlast⟩ := hp.last_step
  obtain ⟨front,hsteps⟩ := List.getLast?_eq_some_iff.mp hlast
  obtain ⟨-,-,-,hleads⟩ := locate_eq_ok.mp hl
  rw [hsteps] at hleads
  obtain ⟨dir,left,hfront,hback⟩ := hleads.split (by simp)
  refine ⟨front,name,dir,hsteps,hfront,?_⟩
  cases hback with
  | enter hd _ _ hrest =>
    cases hrest
    exact ⟨hd,rfl⟩
  | last _ _ hlink _ => cases hn.symm.trans hlink
  | link _ _ _ hrest _ => simp at hrest

/-- Where a name is put behind a path, what the path leads to is the directory of the name. -/
theorem locate_of_div (ht : fs.IsTree) (hb : base.isAbsolute) {name : String}
    (hname : (⟨name⟩ : Path).EndsInName) (hs : '/' ∉ name.toList)
    (hl : fs.locate false (base / ⟨name⟩) = .ok a) (hn : fs.get? a = none) :
    ∃ dir, fs.locate true base = .ok dir ∧ a = dir ++ [name] := by
  have hrelative : (⟨name⟩ : Path).isAbsolute = false := by
    rw [← Bool.not_eq_true, Path.isAbsolute_iff]
    rintro ⟨rest,hrest⟩
    apply hs
    rw [hrest]
    exact List.mem_cons_self ..
  obtain ⟨front,k,rest,htext,hsteps,hbase⟩ := Path.exists_ofText_div hrelative base
  rw [Step.ofText_of_name hname hs] at hsteps
  obtain ⟨front',name',dir,hsteps',hfront,hd,ha⟩ := exists_directory_of_free hl hn (hname.join base)
  obtain ⟨rfl,hsame⟩ := List.append_inj' (hsteps.symm.trans hsteps') rfl
  have hname' : name = name' := Step.enter.inj (List.cons.inj hsame).1
  obtain ⟨hnul,-,hlength,-⟩ := locate_eq_ok.mp hl
  obtain ⟨hnul,hlength⟩ := fits_of_append htext hnul hlength
  -- the path itself may end in slashes, which ask for the directory once more
  have hleads := hfront.append_stay ht hd k
  rw [← hbase, startOf_absolute (Path.isAbsolute_div hb _)] at hleads
  refine ⟨dir,locate_eq_ok.mpr ⟨hnul,Path.text_ne_of_isAbsolute hb,hlength,?_⟩,hname' ▸ ha⟩
  rwa [startOf_absolute hb]

end FileSystem

namespace FileAction
variable {fs : FileSystem} {base : Path} {stem ending : String} {a : Address}

/-- The start of a name is kept if and only if it has no slash. -/
theorem namedIn_iff (ht : fs.IsTree) (he : IsEnding ending)
    (hl : fs.locate false (fs.rooted base / ⟨stem ++ ending⟩) = .ok a) (hn : fs.get? a = none) :
    fs.NamedIn base stem a ↔ '/' ∉ stem.toList := by
  have hname := he.endsInName stem
  constructor
  · rintro ⟨dir,name,-,ha,hstem⟩ hslash
    obtain ⟨front,name',dir',hsteps,-,-,ha'⟩ :=
      FileSystem.exists_directory_of_free hl hn (hname.join _)
    obtain ⟨-,hsame⟩ := List.append_inj' (ha.symm.trans ha') rfl
    obtain rfl := (List.cons.inj hsame).1
    have hmem : .enter name ∈ Step.ofText (fs.rooted base / ⟨stem ++ ending⟩).text := by
      rw [hsteps]
      exact List.mem_append_right _ (List.mem_singleton_self _)
    exact Step.slash_not_mem_of_enter hmem (hstem.subset hslash)
  · intro hs
    have hslash : '/' ∉ (stem ++ ending).toList := by
      rw [String.toList_append, List.mem_append, not_or]
      refine ⟨hs,fun hmem => ?_⟩
      exact absurd (he.2 _ hmem) (by decide)
    obtain ⟨dir,hdir,ha⟩ :=
      FileSystem.locate_of_div ht (isAbsolute_base base fs) hname hslash hl hn
    exact ⟨dir,_,hdir,ha,by rw [String.toList_append]; exact List.prefix_append _ _⟩

theorem makeTemporary_placed {dir : Path} {endings rest : List String} {fs' : FileSystem}
    (ht : fs.IsTree) (he : ∀ ending ∈ endings, IsEnding ending)
    (h : (makeTemporary base stem endings).run fs = (.ok (dir, rest), fs')) :
    ∃ a, fs.locate false dir = .ok a ∧ fs.get? a = none ∧
      fs' = fs.put a (.directory (masked 0o777)) ∧
      (fs.NamedIn base stem a ↔ '/' ∉ stem.toList) := by
  rw [makeTemporary, run_bind, run_get] at h
  dsimp only at h
  rw [← FileSystem.rooted] at h
  rcases run_makeFresh (fs.rooted base) stem endings fs with ⟨e,hr⟩ | ⟨ending,hmem,_,a,hl,hn,hr⟩ <;>
    rw [hr] at h
  · cases (Prod.mk.inj h).1
  · obtain ⟨hdir,hfs⟩ := Prod.mk.inj h
    have hname := ((he ending hmem).endsInName stem).join (fs.rooted base)
    rw [FileSystem.locateName_of_unslashed hname.unslashed] at hl
    rw [← (Prod.mk.inj (Except.ok.inj hdir)).1]
    exact ⟨a,hl,hn,hfs.symm,namedIn_iff ht (he ending hmem) hl hn⟩

theorem run_makeTemporary_at {rest : List String} (hb : base.isAbsolute)
    (hl : fs.locateName (base / ⟨stem ++ ending⟩) = .ok a) (hn : fs.get? a = none) :
    (makeTemporary base stem (ending :: rest)).run fs =
      (.ok (base / ⟨stem ++ ending⟩, rest), fs.put a (.directory (masked 0o777))) := by
  have hmake : (makeDirectory 0o777 (base / ⟨stem ++ ending⟩)).run fs =
      (.ok (), fs.put a (.directory (masked 0o777))) := by
    simp only [makeDirectory, run_bind, run_get, run_liftExcept, hl, hn]
    rfl
  rw [makeTemporary, run_bind, run_get]
  dsimp only
  rw [if_pos hb, makeFresh, run_tryCatch, run_bind, hmake]
  rfl

end FileAction

/-- The start that a configuration gives has no slash, wherever the configuration is loaded from. -/
theorem Config.slash_not_mem_stem {fs : FileSystem} {path : Path} {c : Config}
    (h : Config.load fs path = .ok c) : '/' ∉ c.stem.toList :=
  (isValid_iff.mp (isValid_of_load h)).1.2

namespace Job
open CommandLine (PushArguments)
variable {m : Machine} {words : List String} {i : CommandLine.Invocation} {args : PushArguments}

/-- A run that publishes is refused, or finds no place for its clone, or clones into a new
temporary directory. -/
theorem run_push_cases (colour : Bool) (hparse : CommandLine.parse m.environment words = .ok i)
    (hpush : i.command = .push args) :
    let run := runProgram m colour words
    Refused m args ∧ run.calls = [] ∧ run.files = m.files ∨ ∃ path c, m.config? = .ok (path, c) ∧
      ((∃ cause files, (FileAction.makeTemporary m.environment.temporaryDirectory
          (args.stem.getD c.stem) m.fresh).run m.files = (.error cause, files) ∧
          run.calls = [] ∧ run.files = files) ∨
        ∃ dir fresh files call rest, (FileAction.makeTemporary m.environment.temporaryDirectory
          (args.stem.getD c.stem) m.fresh).run m.files = (.ok (dir, fresh), files) ∧
          run.calls = call :: rest ∧ call.args = ["clone", args.url, dir.text]) := by
  intro run
  have hrun : run = runProgram m colour words := rfl
  rw [runProgram_of_parse hparse, hpush, follow, Machine.perform] at hrun
  by_cases h : Refused m args
  · obtain ⟨e,s,hs,hmachine,hcalls⟩ := run_push_of_refused h
    rw [hrun, hs]
    exact .inl ⟨h,hcalls,congrArg Machine.files hmachine⟩
  obtain ⟨path,c,source,key,subdir,hconfig,ha,hsubdir,hstart⟩ := accepts_of_not_refused h
  rw [hstart] at hrun
  refine .inr ⟨path,c,hconfig,?_⟩
  rcases ht : (FileAction.makeTemporary m.environment.temporaryDirectory (args.stem.getD c.stem)
    m.fresh).run m.files with ⟨cause | ⟨dir,fresh⟩,files⟩
  · obtain ⟨e,s,hs,hcalls,hfiles⟩ := run_publishing_homeless ha hsubdir ht
    rw [hrun, hs]
    exact .inl ⟨cause,files,rfl,hcalls,hfiles⟩
  · obtain ⟨result,s,rest,hs,hcalls⟩ := run_publishing_clones ha hsubdir ht
    rw [hrun, hs]
    rcases result with e | ⟨⟩ <;> exact .inr ⟨dir,fresh,files,_,rest,rfl,hcalls,rfl⟩

/-- A new directory is made at `a`, which `dir` leads to, and is cloned into first. -/
structure Houses (m : Machine) (args : PushArguments) (stem : String) (calls : List Call)
    (dir : Path) (a : Address) : Prop where
  made : ∃ fresh, (FileAction.makeTemporary m.environment.temporaryDirectory stem m.fresh).run
    m.files = (.ok (dir, fresh), m.files.put a (.directory (FileAction.masked 0o777)))
  leads : m.files.locate false dir = .ok a
  new : m.files.get? a = none
  cloned : ∃ call rest, calls = call :: rest ∧ call.args = ["clone", args.url, dir.text]

/-- A run that calls nothing has made nothing. Otherwise it has made a new directory, which lies
where temporary directories do, under a name with the start that was asked for, if and only if this
start has no slash; and that of a configuration has none. -/
theorem push_places (m : Machine) (colour : Bool) (words : List String)
    (i : CommandLine.Invocation) (args : PushArguments)
    (hparse : CommandLine.parse m.environment words = .ok i) (hpush : i.command = .push args)
    (ht : m.files.IsTree) (he : ∀ ending ∈ m.fresh, FileAction.IsEnding ending) :
    let run := runProgram m colour words
    run.calls = [] ∧ run.files = m.files ∨
      ∃ path c dir a, m.config? = .ok (path, c) ∧
        Houses m args (args.stem.getD c.stem) run.calls dir a ∧
        (m.files.NamedIn m.environment.temporaryDirectory (args.stem.getD c.stem) a ↔
          '/' ∉ (args.stem.getD c.stem).toList) ∧
        (args.stem = none → m.files.NamedIn m.environment.temporaryDirectory c.stem a) := by
  intro run
  rcases run_push_cases colour hparse hpush with ⟨-,hcalls,hfiles⟩ | ⟨path,c,hconfig,h⟩
  · exact .inl ⟨hcalls,hfiles⟩
  rcases h with ⟨cause,files,hmake,hcalls,hfiles⟩ | ⟨dir,fresh,files,call,rest,hmake,hcalls,hargs⟩
  · rw [FileAction.files_of_makeTemporary_error hmake] at hfiles
    exact .inl ⟨hcalls,hfiles⟩
  obtain ⟨a,hl,hn,rfl,hplaced⟩ := FileAction.makeTemporary_placed ht he hmake
  refine .inr ⟨path,c,dir,a,hconfig,⟨⟨fresh,hmake⟩,hl,hn,_,rest,hcalls,hargs⟩,hplaced,?_⟩
  intro hnone
  rw [hnone] at hplaced
  exact hplaced.mpr (Config.slash_not_mem_stem (Machine.config?_eq_ok.mp hconfig).2)

theorem cloned_of_made {path : Path} {c : Config} {source : Path} {key : Option Path} {dir : Path}
    {fresh : List String} {files : FileSystem} (colour : Bool)
    (hparse : CommandLine.parse m.environment words = .ok i) (hpush : i.command = .push args)
    (hconfig : m.config? = .ok (path, c)) (ha : Accepts m c args source key)
    (hsubdir : args.subdir = none)
    (hmake : (FileAction.makeTemporary m.environment.temporaryDirectory (args.stem.getD c.stem)
      m.fresh).run m.files = (.ok (dir, fresh), files)) :
    ∃ call rest, (runProgram m colour words).calls = call :: rest ∧
      call.args = ["clone", args.url, dir.text] := by
  rcases run_push_cases colour hparse hpush with ⟨hrefused,-⟩ | ⟨path',c',hconfig',h⟩
  · obtain ⟨p,hp,-⟩ := ha.subdir_of_refused hconfig hrefused
    cases hsubdir.symm.trans hp
  obtain ⟨rfl,rfl⟩ := Prod.mk.inj (Except.ok.inj (hconfig.symm.trans hconfig'))
  rcases h with ⟨cause,files',hmake',-⟩ | ⟨dir',fresh',files',call,rest,hmake',hcalls,hargs⟩
  · cases (Prod.mk.inj (hmake.symm.trans hmake')).1
  · obtain ⟨hdir,-⟩ := Prod.mk.inj (hmake.symm.trans hmake')
    rw [(Prod.mk.inj (Except.ok.inj hdir)).1]
    exact ⟨call,rest,hcalls,hargs⟩

theorem push_places_site :
    let words := ["push", "--url=git@example.org:site", "-s", "/site", "-m", "update", "--user",
      "bot", "--email", "bot@example.org"]
    CommandLine.parse siteMachine.environment words = .ok ⟨false, false, .push siteArguments⟩ ∧
      siteMachine.files.IsTree ∧ (∀ ending ∈ siteMachine.fresh, FileAction.IsEnding ending) ∧
      let calls := (runProgram siteMachine false words).calls
      ∃ dir a, Houses siteMachine siteArguments "gitwrite-" calls dir a ∧
        siteMachine.files.NamedIn ⟨"/tmp"⟩ "gitwrite-" a := by
  intro words
  have hparse : CommandLine.parse siteMachine.environment words =
      .ok ⟨false, false, .push siteArguments⟩ := by rfl
  have ht : siteMachine.files.IsTree := by decide
  have he : ∀ ending ∈ siteMachine.fresh, FileAction.IsEnding ending := by decide
  have hmake : (FileAction.makeTemporary siteMachine.environment.temporaryDirectory
      (siteArguments.stem.getD ({} : Config).stem) siteMachine.fresh).run siteMachine.files =
      (.ok (⟨"/tmp/gitwrite-a1b2c3"⟩, []), _) :=
    FileAction.run_makeTemporary_tmp "gitwrite-a1b2c3" (by decide) (by decide) (by decide)
      (by decide) (by decide) (by decide) []
  obtain ⟨hconfig,ha⟩ := accepts_site
  obtain ⟨call,rest,hcalls,-⟩ := cloned_of_made false hparse rfl hconfig ha rfl hmake
  refine ⟨hparse,ht,he,?_⟩
  rcases push_places siteMachine false words _ siteArguments hparse rfl ht he with
    ⟨hnone,-⟩ | ⟨path,c,dir,a,hc,hhouses,-,hplaced⟩
  · cases hcalls.symm.trans hnone
  obtain ⟨-,rfl⟩ := Prod.mk.inj (Except.ok.inj (hconfig.symm.trans hc))
  exact ⟨dir,a,hhouses,hplaced rfl⟩

/-- A start with a step up in it is taken as it is, and the clone lies beside the directory for
temporary ones. -/
theorem push_places_outside :
    let words := ["push", "--url=git@example.org:site", "-s", "/site", "-m", "update", "--user",
      "bot", "--email", "bot@example.org", "--prefix", "../u-"]
    let args := { siteArguments with stem := some "../u-" }
    CommandLine.parse siteMachine.environment words = .ok ⟨false, false, .push args⟩ ∧
      siteMachine.environment.temporaryDirectory = ⟨"/tmp"⟩ ∧
      Houses siteMachine args "../u-" (runProgram siteMachine false words).calls
        ⟨"/tmp/../u-a1b2c3"⟩ ["u-a1b2c3"] ∧
      ¬ siteMachine.files.NamedIn ⟨"/tmp"⟩ "../u-" ["u-a1b2c3"] := by
  intro words args
  have hparse : CommandLine.parse siteMachine.environment words =
      .ok ⟨false, false, .push args⟩ := by rfl
  have ht : siteMachine.files.IsTree := by decide
  have hroot : siteMachine.files.isDirectoryAt [] := by decide
  have htmp : siteMachine.files.isDirectoryAt ["tmp"] := by decide
  have hnew : siteMachine.files.get? ["u-a1b2c3"] = none := by decide
  have hsteps : Step.ofText "/tmp/../u-a1b2c3" =
      [.stay, .enter "tmp", .up, .enter "u-a1b2c3"] := by decide
  have hleads : siteMachine.files.locate false ⟨"/tmp/../u-a1b2c3"⟩ = .ok ["u-a1b2c3"] := by
    refine FileSystem.locate_eq_ok.mpr ⟨by decide,by decide,by decide,?_⟩
    rw [hsteps]
    refine .stay hroot (.into hroot (by decide) htmp (.up htmp (.enter hroot (by decide) ?_ .nil)))
    exact fun _ hlink => nomatch hnew.symm.trans hlink
  have hname : siteMachine.files.locateName (⟨"/tmp"⟩ / ⟨"../u-" ++ "a1b2c3"⟩) =
      .ok ["u-a1b2c3"] :=
    (FileSystem.locateName_of_unslashed (by decide)).trans hleads
  have hmake : (FileAction.makeTemporary ⟨"/tmp"⟩ "../u-" ["a1b2c3"]).run siteMachine.files = _ :=
    FileAction.run_makeTemporary_at (by decide) hname hnew
  obtain ⟨hconfig,ha⟩ := accepts_site
  have haccepts : Accepts siteMachine {} args ⟨"/site"⟩ none :=
    ⟨ha.location,ha.expanded,ha.key,ha.directory,ha.user,ha.email,ha.git⟩
  obtain ⟨call,rest,hcalls,hargs⟩ := cloned_of_made false hparse rfl hconfig haccepts rfl hmake
  refine ⟨hparse,rfl,⟨⟨[],hmake⟩,hleads,hnew,call,rest,hcalls,hargs⟩,?_⟩
  rintro ⟨dir,name,hdir,ha,-⟩
  have htmpLeads : siteMachine.files.locate true ⟨"/tmp"⟩ = .ok ["tmp"] :=
    FileSystem.locate_directory ht (by decide) (by decide) (by decide) (by decide)
  rw [FileSystem.rooted, if_pos (by decide)] at hdir
  rw [← Except.ok.inj (htmpLeads.symm.trans hdir)] at ha
  simp at ha

end Job

end GitPublish
