import GitPublish.Proofs.Cleanup
import GitPublish.Proofs.FileSystem.Again
import GitPublish.Proofs.FileSystem.Below
import GitPublish.Proofs.Path.Components
import GitPublish.Proofs.Switching

/-!
# What a failure of cloning leaves behind

Cloning takes nothing back, so a failure tells which directory to look into. It is the one that was
cloned into, as a path: however that is written, its components are found again above the place
where its branches were looked for. A directory that cloning made is still there, unless a command
took it away, since cloning itself does nothing more to the files.
-/
namespace GitPublish

/-! ## What answers do to the files -/

namespace Runner
variable {r : Runner} {before made : List Call} {fs : FileSystem} {dir : Path}

/-- The files that are left by the answers to a row of calls, behind calls that were made before. -/
def filesAfter (r : Runner) (before : List Call) : List Call → FileSystem → FileSystem
  | [], fs => fs
  | call :: rest, fs => r.filesAfter (before ++ [call]) rest (r.answer before call fs).2

theorem filesAfter_append (r : Runner) (before xs ys : List Call) (fs : FileSystem) :
    r.filesAfter before (xs ++ ys) fs =
      r.filesAfter (before ++ xs) ys (r.filesAfter before xs fs) := by
  induction xs generalizing before fs with
  | nil => rw [List.append_nil]; rfl
  | cons call xs ih =>
    rw [List.cons_append, filesAfter, filesAfter, ih, List.append_assoc]
    rfl

/-- One of the answers takes away the directory that a path leads to. -/
def Removes (r : Runner) (before made : List Call) (fs : FileSystem) (dir : Path) : Prop :=
  ∃ done call rest, made = done ++ call :: rest ∧
    (r.filesAfter before done fs).isDirectory dir ∧
    ¬ (r.answer (before ++ done) call (r.filesAfter before done fs)).2.isDirectory dir

theorem isDirectory_or_removes (h : fs.isDirectory dir) (before made : List Call) :
    (r.filesAfter before made fs).isDirectory dir ∨ r.Removes before made fs dir := by
  induction made generalizing before fs with
  | nil => exact .inl h
  | cons call rest ih =>
    by_cases hd : (r.answer before call fs).2.isDirectory dir
    · refine (ih hd (before ++ [call])).imp_right ?_
      rintro ⟨done,last,rest,rfl,hkept,hgone⟩
      rw [List.append_assoc] at hgone
      exact ⟨call :: done,last,rest,rfl,hkept,hgone⟩
    · exact .inr ⟨[],call,rest,rfl,h,by rwa [List.append_nil]⟩

end Runner

namespace Change

/-- The files change by the answers to calls only. -/
def answered : Change Session where
  allows s t := t.runner = s.runner ∧ ∃ made, t.calls = s.calls ++ made ∧
    t.files = s.runner.filesAfter s.calls made s.files
  refl s := ⟨rfl,[],(List.append_nil _).symm,rfl⟩
  trans := by
    rintro s t u ⟨hr,xs,hc,hf⟩ ⟨kr,ys,kc,kf⟩
    refine ⟨kr.trans hr,xs ++ ys,by rw [kc, hc, List.append_assoc],?_⟩
    rw [kf, hr, hc, hf, Runner.filesAfter_append]

theorem answered_git (s : Session) (dir : Option Path) (args : List String) :
    answered.allows s (s.afterGit dir args) := ⟨rfl,[s.gitCall dir args],rfl,rfl⟩

theorem answered_attach (s : Session) (path : Path) :
    answered.allows s { s with workDir := some path } := ⟨rfl,[],(List.append_nil _).symm,rfl⟩

end Change

/-! ## What failures tell -/

/-- A failure tells of the directory that was cloned into, as a path. -/
def RepoError.Tells (e : RepoError) (dir : Path) : Prop :=
  ∃ q, e.cloneDir? = some q ∧ q.components = dir.components

namespace Work
variable {path dir : Path} {options : CloneOptions} {s t : Session} {e : RepoError}

theorem components_headsOf (dir : Path) : (headsOf dir).components =
    dir.components ++ [.name ".git".toList, .name "refs".toList, .name "heads".toList] := by
  rw [headsOf, Path.components_div _ (by decide), Path.components_div _ (by decide),
    Path.components_div _ (by decide), List.append_assoc, List.append_assoc]
  rfl

/-- Three steps above the branches of a clone is the clone. -/
theorem heads_tells (dir : Path) (cause : IoError) :
    (RepoError.heads (headsOf dir) cause).Tells dir := by
  obtain ⟨q,hq,hc⟩ := Path.exists_ancestor (components_headsOf dir) (by simp)
  exact ⟨q,hq,hc⟩

example : (RepoError.heads (headsOf ⟨"a//./"⟩) .notText).cloneDir? = some ⟨"a"⟩ := by decide

theorem cloneInto_tells (h : (cloneInto path options).run s = (.error e, t)) : e.Tells path := by
  have hrun := cloneInto_cases path options s
  rw [h] at hrun
  rcases hrun.cloneDir?_or_heads rfl with hdir | ⟨cause,rfl⟩
  · exact ⟨path,hdir,rfl⟩
  · exact heads_tells path cause

/-- A temporary directory is made for a session where nothing was, and is a directory then. -/
structure MakesTemporary (s : Session) (stem : String) (dir : Path) (files : FileSystem) :
    Prop where
  run : ∃ fresh, (FileAction.makeTemporary s.temporary stem s.fresh).run s.files =
    (.ok (dir, fresh), files)
  place : ∃ a mode, s.files.locateName dir = .ok a ∧ s.files.get? a = none ∧
    files = s.files.put a (.directory mode)
  present : files.isDirectory dir

theorem makesTemporary {stem : String} {fresh : List String} {files : FileSystem}
    (ht : s.files.IsTree)
    (h : (FileAction.makeTemporary s.temporary stem s.fresh).run s.files =
      (.ok (dir, fresh), files)) : MakesTemporary s stem dir files := by
  have hrun := h
  rw [FileAction.makeTemporary, run_bind, run_get] at hrun
  dsimp only at hrun
  generalize (if s.temporary.isAbsolute then s.temporary else s.files.currentPath / s.temporary) =
    base at hrun
  rcases FileAction.run_makeFresh base stem s.fresh s.files with
    ⟨cause,hr⟩ | ⟨ending,-,rest,a,hl,hn,hr⟩ <;> rw [hr] at hrun
  · cases (Prod.mk.inj hrun).1
  obtain ⟨hdir,rfl⟩ := Prod.mk.inj hrun
  obtain rfl := (Prod.mk.inj (Except.ok.inj hdir)).1
  obtain ⟨ht',hg⟩ := FileAction.growing_allowsDirectory 0o777 _ s.files a hl hn ht
  have hl' := FileSystem.locateName_of_keeps hg.toKeeps hl
  exact ⟨⟨fresh,h⟩,⟨a,_,hl,hn,rfl⟩,FileSystem.isDirectory_of_locateName ht' hl'
    (FileSystem.isDirectoryAt_put ..)⟩

/-- Cloning into a path fails because no directory can be made there, or the failure tells of it. -/
theorem cloneIn_error (h : (cloneIn path options).run s = (.error e, t)) :
    (∃ cause, e = .directory path cause) ∧ e.cloneDir? = none ∨ e.Tells path := by
  rw [cloneIn, run_bind, run_onFiles] at h
  rcases hr : ((FileAction.makePrivateDirectories path).run s.files).1 with cause | ⟨⟩ <;>
    rw [hr] at h
  · obtain ⟨he,-⟩ := Prod.mk.inj h
    obtain rfl := Except.error.inj he
    exact .inl ⟨⟨cause,rfl⟩,rfl⟩
  · exact .inr (cloneInto_tells h)

/-- A failure after a temporary directory is made tells of it, and it is there unless an answer took
it away. -/
theorem cloneInTemporary_error {stem : String} (ht : s.files.IsTree)
    (h : (cloneInTemporary stem options).run s = (.error e, t)) :
    (∃ cause, e = .temporary stem cause) ∨
      ∃ dir files, MakesTemporary s stem dir files ∧ e.Tells dir ∧
        ∃ made, t.calls = s.calls ++ made ∧
          (t.files.isDirectory dir ∨ s.runner.Removes s.calls made files dir) := by
  rw [cloneInTemporary, run_bind, run_makeTemporary] at h
  rcases hr : (FileAction.makeTemporary s.temporary stem s.fresh).run s.files with
    ⟨cause | ⟨dir,fresh⟩,files⟩ <;> rw [hr] at h
  · obtain ⟨he,-⟩ := Prod.mk.inj h
    exact .inl ⟨cause,(Except.error.inj he).symm⟩
  have hmade := makesTemporary ht hr
  have hwithin := cloneInto_within Change.answered_git Change.answered_attach dir options
    { s with files, fresh }
  dsimp only at h
  rw [run_bind] at h
  rcases hc : (cloneInto dir options).run { s with files, fresh } with ⟨e' | ⟨⟩,t'⟩ <;>
    rw [hc] at h hwithin
  · obtain ⟨he,rfl⟩ := Prod.mk.inj h
    obtain rfl := Except.error.inj he
    obtain ⟨-,made,hcalls,hfiles⟩ := hwithin
    refine .inr ⟨dir,files,hmade,cloneInto_tells hc,made,hcalls,?_⟩
    rw [hfiles]
    exact Runner.isDirectory_or_removes hmade.present s.calls made
  · cases (Prod.mk.inj h).1

/-- Every failure of cloning but one leads to the directory that was cloned into. The exception is
that this directory could not be made. -/
theorem clone_leftBehind :
    (∀ path options s e, ((cloneIn path options).run s).1 = .error e →
      (∃ cause, e = .directory path cause) ∧ e.cloneDir? = none ∨ e.Tells path) ∧
    (∀ stem options s e t, s.files.IsTree →
      (cloneInTemporary stem options).run s = (.error e, t) →
      (∃ cause, e = .temporary stem cause) ∨
        ∃ dir files, MakesTemporary s stem dir files ∧ e.Tells dir ∧
          ∃ made, t.calls = s.calls ++ made ∧
            (t.files.isDirectory dir ∨ s.runner.Removes s.calls made files dir)) :=
  ⟨fun _ _ _ _ h => cloneIn_error (Prod.ext h rfl),
    fun _ _ _ _ _ ht h => cloneInTemporary_error ht h⟩

/-- The branch `main`, which is made if the repository is empty. -/
def mainBranch : CloneOptions := ⟨"https://example.com/site.git", some "main", true⟩

theorem run_cloneInTemporary_idle : ∃ cause t,
    (cloneInTemporary "site-" mainBranch).run idleSession =
      (.error (.heads (headsOf ⟨"/tmp/site-a1b2c3"⟩) cause), t) := by
  have hmade := idleSession.run_makeTemporary
  generalize hf : idleSession.files.put _ _ = files at hmade
  have hheads : Step.ofText (headsOf ⟨"/tmp/site-a1b2c3"⟩).text =
      [.stay, .enter "tmp", .enter "site-a1b2c3", .enter ".git", .enter "refs"] ++
        [.enter "heads"] := by decide
  have hgoes : files.GoesOn (headsOf ⟨"/tmp/site-a1b2c3"⟩) [] (Step.ofText _) :=
    FileSystem.goesOn_root (by rw [← hf]; decide) (by decide) (by decide) (by decide)
  rw [hheads] at hgoes
  -- the command says that it cloned, but left no directory of branches
  have hlocate := hgoes.locate_missing (by rw [← hf]; decide) (by rw [← hf]; decide) true
  have hnone : files.isDirectory (headsOf ⟨"/tmp/site-a1b2c3"⟩) = false := by
    refine Bool.eq_false_iff.mpr fun hd => ?_
    obtain ⟨a,ha,-⟩ := FileSystem.isDirectory_iff.mp hd
    cases hlocate.symm.trans ha
  obtain ⟨-,cause,hcause⟩ := CloneOutcome.of_unlisted
    (cloneInto_outcome ⟨"/tmp/site-a1b2c3"⟩ mainBranch { idleSession with files, fresh := [] })
    rfl rfl rfl hnone
  refine ⟨cause,((cloneInto ⟨"/tmp/site-a1b2c3"⟩ mainBranch).run
    { idleSession with files, fresh := [] }).2,?_⟩
  rw [cloneInTemporary, run_bind, run_makeTemporary, hmade]
  exact run_bind_error (Prod.ext hcause rfl)

/-- The failure is about a place far below the directory, and tells of the directory all the
same. -/
theorem clone_leftBehind_idle : idleSession.files.IsTree ∧ ∃ cause t,
    (cloneInTemporary "site-" mainBranch).run idleSession =
      (.error (.heads (headsOf ⟨"/tmp/site-a1b2c3"⟩) cause), t) ∧
    ∃ dir files, MakesTemporary idleSession "site-" dir files ∧
      (RepoError.heads (headsOf ⟨"/tmp/site-a1b2c3"⟩) cause).Tells dir ∧
        ∃ made, t.calls = idleSession.calls ++ made ∧ (t.files.isDirectory dir ∨
          idleSession.runner.Removes idleSession.calls made files dir) := by
  have ht : idleSession.files.IsTree := by decide
  obtain ⟨cause,t,hrun⟩ := run_cloneInTemporary_idle
  refine ⟨ht,cause,t,hrun,?_⟩
  exact (clone_leftBehind.2 _ _ _ _ _ ht hrun).resolve_left fun ⟨_,he⟩ => nomatch he

end Work
end GitPublish
