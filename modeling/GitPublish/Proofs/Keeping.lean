import GitPublish.Proofs.Cleanup

/-!
# Whether the clone is kept

Whether a clone is to be kept is looked at twice, behind a failed clone and behind everything else.
By then the result is settled and all calls are made. So a request leads to the same result either
way, and the files differ by what the removal took away, which may be nothing.
-/
namespace GitPublish

namespace Work
variable {s : Session}

section made
variable {r : PublishRequest} {subdir dir : Path} {fresh : List String} {files : FileSystem}
  {t u : Session} (hl : Location.validate r.url = .ok ())
  (hs : checkedSubdir r.subdir = .ok subdir)
  (hm : (FileAction.makeTemporary s.temporary r.stem s.fresh).run s.files =
    (.ok (dir, fresh), files))
include hl hs hm

theorem run_publish_uncloned {e : RepoError}
    (hc : (cloneInto dir r.cloneOptions).run { s with files := files, fresh := fresh } =
      (.error e, t)) :
    (publish r).run s = (.error e, if r.keep then t else ((discard e).run t).2) := by
  have hmake : (makeTemporary r.stem).run s =
      (.ok dir, { s with files := files, fresh := fresh }) := by rw [run_makeTemporary, hm]
  rw [run_publish, hl, hs]
  dsimp only
  rw [cloneInTemporary, run_bind_ok hmake, run_bind_error hc]

theorem run_publish_cloned {result : Except RepoError (List Path × CommitOutcome × Bool)}
    (hc : (cloneInto dir r.cloneOptions).run { s with files := files, fresh := fresh } =
      (.ok (), t)) (hp : (publishClone r dir subdir).run t = (result, u)) :
    (publish r).run s =
      (result.map fun (files, commit, pushed) => ⟨dir, files, commit, pushed⟩,
        if r.keep then u else ((attempt delete).run u).2) := by
  have hmake : (makeTemporary r.stem).run s =
      (.ok dir, { s with files := files, fresh := fresh }) := by rw [run_makeTemporary, hm]
  rw [run_publish, hl, hs]
  dsimp only
  rw [cloneInTemporary, run_bind_ok hmake, run_bind_ok hc, run_pure]
  dsimp only
  rw [hp]

/-- What becomes of the clone comes behind everything else. -/
theorem exists_disposed (hd : dir.EndsInName) :
    ∃ result t, ∀ keep, (publish { r with keep := keep }).run s =
      (result, if keep then t else
        { t with files := ((FileAction.removeTree dir).run t.files).2 }) := by
  have hrun := cloneInto_cases dir r.cloneOptions { s with files := files, fresh := fresh }
  rcases hc : (cloneInto dir r.cloneOptions).run { s with files := files, fresh := fresh }
    with ⟨e | ⟨⟩, t⟩
  · -- a failed clone is found by its failure
    rw [hc] at hrun
    refine ⟨.error e,t,fun keep => ?_⟩
    rw [run_publish_uncloned (r := { r with keep := keep }) hl hs hm hc,
      run_discard (hrun.cloneDir? hd rfl)]
  · -- any other is the one that is worked on
    have hkeeps := publishClone_within absorbs_keepsDirectory r dir subdir t
    rcases hp : (publishClone r dir subdir).run t with ⟨result,u⟩
    rw [hp] at hkeeps
    refine ⟨result.map fun (files, commit, pushed) => ⟨dir, files, commit, pushed⟩,u,
      fun keep => ?_⟩
    rw [run_publish_cloned (r := { r with keep := keep }) hl hs hm hc hp,
      run_attempt_delete (hkeeps.trans (cloneInto_ok hc).2)]

end made

/-- Publishing is refused before anything is done, or a directory is made for it. -/
theorem publish_starts (request : PublishRequest) (s : Session) :
    (∃ e, e.runError? = none ∧
      ∀ keep, (publish { request with keep := keep }).run s = (.error e, s)) ∨
      ∃ subdir dir fresh files, Location.validate request.url = .ok () ∧
        checkedSubdir request.subdir = .ok subdir ∧
        (FileAction.makeTemporary s.temporary request.stem s.fresh).run s.files =
          (.ok (dir, fresh), files) := by
  rcases hl : Location.validate request.url with cause | ⟨⟩
  · exact .inl ⟨.location cause,rfl,fun keep => by rw [run_publish, hl]⟩
  rcases hs : checkedSubdir request.subdir with e | subdir
  · obtain ⟨p,-,-,rfl⟩ := checkedSubdir_eq_error.mp hs
    exact .inl ⟨_,rfl,fun keep => by rw [run_publish, hl, hs]⟩
  rcases hm : (FileAction.makeTemporary s.temporary request.stem s.fresh).run s.files with
    ⟨cause | ⟨dir,fresh⟩,files⟩
  · obtain rfl := FileAction.files_of_makeTemporary_error hm
    exact .inl ⟨.temporary request.stem cause,rfl,fun keep => run_publish_homeless hl hs hm⟩
  · exact .inr ⟨subdir,dir,fresh,files,rfl,rfl,rfl⟩

end Work

/-- Whether the clone is kept changes neither the result nor the calls, nor what is worked on, also
where it cannot be removed. What is missing from the files was in the directory that was made. -/
theorem publish_keep (request : PublishRequest) (s : Session)
    (he : ∀ ending ∈ s.fresh, FileAction.IsEnding ending) :
    let kept := (Work.publish { request with keep := true }).run s
    let gone := (Work.publish { request with keep := false }).run s
    gone.1 = kept.1 ∧ gone.2 = { kept.2 with files := gone.2.files } ∧
      (gone.2.files = kept.2.files ∨ ∃ dir fresh files,
        (FileAction.makeTemporary s.temporary request.stem s.fresh).run s.files =
          (.ok (dir, fresh), files) ∧ kept.2.files.Loses dir gone.2.files) := by
  intro kept gone
  rcases Work.publish_starts request s with ⟨e,-,h⟩ | ⟨subdir,dir,fresh,files,hl,hs,hm⟩
  · have hkept : kept = _ := h true
    have hgone : gone = _ := h false
    rw [hkept, hgone]
    exact ⟨rfl,rfl,.inl rfl⟩
  · obtain ⟨a,hv⟩ := FileAction.exists_vacant he hm
    obtain ⟨result,t,h⟩ := Work.exists_disposed hl hs hm hv.endsInName
    have hkept : kept = _ := h true
    have hgone : gone = _ := h false
    rw [hkept, hgone]
    exact ⟨rfl,rfl,.inr ⟨dir,fresh,files,hm,FileSystem.loses_removeTree hv.absolute t.files⟩⟩

/-- A session whose commands take the clone away themselves, and fail. -/
def strippedSession : Session :=
  { idleSession with
    runner := ⟨fun _ _ fs => (.exited (some 128) "", fs.remove ["tmp", "site-a1b2c3"])⟩ }

/-- Where there is nothing left to remove, the result is that of the clone all the same. -/
theorem publish_keep_stripped :
    (∀ ending ∈ strippedSession.fresh, FileAction.IsEnding ending) ∧
    let kept := (Work.publish { outRequest with keep := true }).run strippedSession
    let gone := (Work.publish { outRequest with keep := false }).run strippedSession
    kept.1 = .error (.clone ⟨"/tmp/site-a1b2c3"⟩ (.exited
      ⟨"git", ["clone", "git@example.com:site", "/tmp/site-a1b2c3"], none, []⟩ (some 128) "")) ∧
      gone.1 = kept.1 ∧ gone.2 = { kept.2 with files := gone.2.files } := by
  have he : ∀ ending ∈ strippedSession.fresh, FileAction.IsEnding ending := by decide
  have hmade : (FileAction.makeTemporary strippedSession.temporary outRequest.stem
      strippedSession.fresh).run strippedSession.files = (.ok (⟨"/tmp/site-a1b2c3"⟩, []), _) :=
    FileAction.run_makeTemporary_tmp "site-a1b2c3" (by decide) (by decide) (by decide) (by decide)
      (by decide) (by decide) []
  obtain ⟨hresult,hsession,-⟩ := publish_keep outRequest strippedSession he
  have hsubdir : Work.checkedSubdir outRequest.subdir = .ok ⟨""⟩ := by rfl
  have hclone := Work.run_publish_uncloned (r := { outRequest with keep := true }) (by rfl) hsubdir
    hmade rfl
  exact ⟨he,congrArg Prod.fst hclone,hresult,hsession⟩

end GitPublish
