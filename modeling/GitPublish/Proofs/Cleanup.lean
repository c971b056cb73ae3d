import GitPublish.Proofs.Publish
import GitPublish.Proofs.Temporary

/-!
# What becomes of the clone

Publishing makes one directory, and in the end removes this one unless it is to be kept. Whatever
fails on the way, either the failure leads back to the directory or it is the one that is worked on.
Nothing that was there before is removed.
-/
namespace GitPublish

/-- Commands that touch nothing outside an address. -/
structure Runner.Confined (r : Runner) (a : Address) : Prop where
  current : ∀ calls call fs, (r.answer calls call fs).2.current = fs.current
  outside : ∀ calls call fs b, ¬ a <+: b → (r.answer calls call fs).2.get? b = fs.get? b
  tree : ∀ calls call fs, fs.IsTree → (r.answer calls call fs).2.IsTree

def Runner.Spares (r : Runner) (a : Address) : Prop :=
  ∀ calls call fs, fs.isDirectoryAt a → (r.answer calls call fs).2.isDirectoryAt a

structure Absorbs (R : Change Session) : Prop where
  git : ∀ s dir args, R.allows s (s.afterGit dir args)
  grow : ∀ s files, FileSystem.growing.allows s.files files → R.allows s { s with files := files }

namespace Work
variable {R : Change Session}

theorem publishClone_within (h : Absorbs R) (request : PublishRequest) (dir subdir : Path) :
    Within R (publishClone request dir subdir) := by
  rw [publishClone_eq]
  refine (copyTree_within h.grow _ _ _).bind fun files => (add_within h.git files).bind fun _ =>
    (commit_within h.git _ _ _).bind fun outcome => ?_
  cases outcome with
  | nothingToCommit => exact within_pure _
  | committed => exact (push_within h.git).bind fun _ => within_pure _

theorem cloneInto_within (hgit : ∀ s dir args, R.allows s (s.afterGit dir args))
    (hattach : ∀ s path, R.allows s { s with workDir := some path }) (path : Path)
    (options : CloneOptions) : Within R (cloneInto path options) := fun s => by
  have hc := cloneInto_cases path options s
  generalize ((cloneInto path options).run s).1 = result at hc
  generalize ((cloneInto path options).run s).2 = t at hc ⊢
  have hcloned := R.trans (hgit s none (Git.clone options.url path))
    (hattach (s.afterGit none (Git.clone options.url path)) path)
  cases hc with
  | refused => exact hgit s _ _
  | plain | unlisted => exact hcloned
  | switched => exact R.trans hcloned (hgit _ _ _)

end Work

/-- What a session does to files that were there before anything was found at `a`: if its commands
stay below `a`, all of them are still there. A directory at `a` stays if commands spare it. -/
def sheltering (fs₀ : FileSystem) (a : Address) : Change Session where
  allows s t := t.runner = s.runner ∧
    (s.runner.Confined a → s.files.IsTree → fs₀.Keeps s.files →
      t.files.IsTree ∧ fs₀.Keeps t.files ∧
        (s.runner.Spares a → s.files.isDirectoryAt a → t.files.isDirectoryAt a))
  refl s := ⟨rfl,fun _ ht hk => ⟨ht,hk,fun _ hd => hd⟩⟩
  trans := by
    rintro s t u ⟨hr,h⟩ ⟨kr,k⟩
    refine ⟨kr.trans hr,fun hc ht hk => ?_⟩
    obtain ⟨ht',hk',hd'⟩ := h hc ht hk
    obtain ⟨ht'',hk'',hd''⟩ := k (hr ▸ hc) ht' hk'
    exact ⟨ht'',hk'',fun hs hd => hd'' (hr ▸ hs) (hd' hs hd)⟩

theorem sheltering_attach {fs₀ : FileSystem} {a : Address} (s : Session) (path : Path) :
    (sheltering fs₀ a).allows s { s with workDir := some path } :=
  ⟨rfl,fun _ ht hk => ⟨ht,hk,fun _ hd => hd⟩⟩

theorem absorbs_keepsDirectory : Absorbs .keepsDirectory :=
  ⟨Change.keepsDirectory_git,fun _ _ _ => rfl⟩

theorem absorbs_sheltering {fs₀ : FileSystem} {p : Path} {a : Address} (hv : fs₀.Vacant p a)
    (ht₀ : fs₀.IsTree) : Absorbs (sheltering fs₀ a) where
  git s dir args := by
    refine ⟨rfl,fun hc ht hk => ⟨hc.tree _ _ _ ht,⟨?_,fun b e hb => ?_⟩,fun hs hd => hs _ _ _ hd⟩⟩
    · exact (hc.current _ _ _).trans hk.current
    · have hab := hv.not_prefix ht₀ (by simp [hb] : fs₀.get? b ≠ none)
      have ho : (s.afterGit dir args).files.get? b = s.files.get? b := hc.outside _ _ _ b hab
      rw [ho]
      exact hk.kept b e hb
  grow s files h := by
    refine ⟨rfl,fun _ ht hk => ?_⟩
    obtain ⟨ht',hg⟩ := h ht
    exact ⟨ht',hk.trans hg.toKeeps,fun _ hd => hg.isDirectoryAt hd⟩

structure Cleanup (request : PublishRequest) (s t : Session) : Prop where
  refused : (∃ cause, Location.validate request.url = .error cause) ∨
    (∃ e, Work.checkedSubdir request.subdir = .error e) ∨
    (∃ e, ((FileAction.makeTemporary s.temporary request.stem s.fresh).run s.files).1 = .error e) →
      t = s
  -- Otherwise a directory is made where nothing was. Everything that was there before is still
  -- there, and the directory is gone or stays as was asked for, however publishing ended.
  made : ∀ subdir dir fresh files, Location.validate request.url = .ok () →
    Work.checkedSubdir request.subdir = .ok subdir →
    (FileAction.makeTemporary s.temporary request.stem s.fresh).run s.files =
      (.ok (dir, fresh), files) →
    ∃ a mode, s.files.Vacant dir a ∧ files = s.files.put a (.directory mode) ∧
      (s.runner.Confined a → s.files.Keeps t.files ∧
        (request.keep = false → ∀ e, t.files.get? a = some e → e.isFile) ∧
        (request.keep = true → s.runner.Spares a → t.files.isDirectoryAt a))

namespace Work
variable {s t : Session}

/-- A failure of cloning keeps the directory, or the place where its branches were looked for. -/
theorem CloneRun.cloneDir?_or_heads {dir : Path} {options : CloneOptions} {e : RepoError}
    {result : Except RepoError Unit} (h : CloneRun dir options s result t)
    (he : result = .error e) :
    e.cloneDir? = some dir ∨ ∃ cause, e = .heads (headsOf dir) cause := by
  cases h with
  | refused => cases he; exact .inl rfl
  | plain => cases he
  | unlisted => cases he; exact .inr ⟨_,rfl⟩
  | @switched branch create =>
    generalize ((cloned dir options s).gitReply (some dir) (Git.checkout branch create)).result _ =
      answer at he
    cases answer with
    | ok => cases he
    | error cause => cases he; exact .inl rfl

theorem CloneRun.cloneDir? {dir : Path} {options : CloneOptions} {e : RepoError}
    (hd : dir.EndsInName) {result : Except RepoError Unit} (h : CloneRun dir options s result t)
    (he : result = .error e) : e.cloneDir? = some dir := by
  rcases h.cloneDir?_or_heads he with hdir | ⟨cause,rfl⟩
  · exact hdir
  · exact cloneDir?_heads hd cause

theorem run_discard {e : RepoError} {dir : Path} (h : e.cloneDir? = some dir) (s : Session) :
    (discard e).run s =
      (.ok (), { s with files := ((FileAction.removeTree dir).run s.files).2 }) := by
  rw [discard, h]
  exact (run_attempt _ s).trans (by rw [run_onFiles])

theorem run_attempt_delete {dir : Path} (h : s.workDir = some dir) :
    (attempt delete).run s =
      (.ok (), { s with files := ((FileAction.removeTree dir).run s.files).2 }) := by
  have hd : delete.run s = (onFiles (.delete dir) (FileAction.removeTree dir)).run s := by
    rw [delete, run_bind_boundDirectory, h]
  rw [run_attempt, hd, run_onFiles]

theorem cleanup_of_sheltered {fs₀ files : FileSystem} {dir : Path} {a : Address} {mode : Nat}
    {keep : Bool} {r : Runner} (h : (sheltering fs₀ a).allows s t) (hv : fs₀.Vacant dir a)
    (ht₀ : fs₀.IsTree) (hs : s.runner = r ∧ s.files = fs₀.put a (.directory mode))
    (htree : s.files.IsTree)
    (hfiles : files = if keep then t.files else ((FileAction.removeTree dir).run t.files).2) :
    r.Confined a → fs₀.Keeps files ∧ (keep = false → ∀ e, files.get? a = some e → e.isFile) ∧
      (keep = true → r.Spares a → files.isDirectoryAt a) := by
  intro hc
  obtain ⟨rfl,hput⟩ := hs
  have hk₀ : fs₀.Keeps s.files := hput ▸ hv.keeps_put (.refl fs₀) _
  have hd₀ : s.files.isDirectoryAt a := hput ▸ FileSystem.isDirectoryAt_put ..
  obtain ⟨-,hk,hd⟩ := h.2 hc htree hk₀
  obtain ⟨hrk,hrf⟩ := hv.removeTree_vacates ht₀ hk
  cases keep with
  | true =>
    rw [hfiles]
    exact ⟨hk,by simp,fun _ hs => hd hs hd₀⟩
  | false =>
    rw [hfiles]
    exact ⟨hrk,fun _ => hrf,by simp⟩

end Work

/-- Once the directory is made, nothing was refused, and what it is and where is settled. -/
theorem cleanup_of_made {request : PublishRequest} {s t : Session} {subdir dir : Path}
    {fresh : List String} {files : FileSystem} {a : Address} {mode : Nat}
    (hl : Location.validate request.url = .ok ())
    (hs : Work.checkedSubdir request.subdir = .ok subdir)
    (hm : (FileAction.makeTemporary s.temporary request.stem s.fresh).run s.files =
      (.ok (dir, fresh), files))
    (hv : s.files.Vacant dir a) (hfiles : files = s.files.put a (.directory mode))
    (h : s.runner.Confined a → s.files.Keeps t.files ∧
      (request.keep = false → ∀ e, t.files.get? a = some e → e.isFile) ∧
      (request.keep = true → s.runner.Spares a → t.files.isDirectoryAt a)) :
    Cleanup request s t where
  refused hr := by
    rcases hr with ⟨cause,hr⟩ | ⟨e,hr⟩ | ⟨e,hr⟩
    · cases hl.symm.trans hr
    · cases hs.symm.trans hr
    · rw [hm] at hr
      cases hr
  made subdir' dir' fresh' files' _ _ hm' := by
    obtain ⟨hdir,rfl⟩ := Prod.mk.inj (hm.symm.trans hm')
    obtain ⟨rfl,-⟩ := Prod.mk.inj (Except.ok.inj hdir)
    exact ⟨a,mode,hv,hfiles,h⟩

/-- Where a temporary directory was made, nothing was. Cloning into it leaves all the rest. -/
theorem vacant_of_made {s : Session} {stem : String} {dir : Path} {fresh : List String}
    {files : FileSystem} (ht : s.files.IsTree)
    (he : ∀ ending ∈ s.fresh, FileAction.IsEnding ending)
    (hm : (FileAction.makeTemporary s.temporary stem s.fresh).run s.files =
      (.ok (dir, fresh), files)) :
    ∃ a, s.files.Vacant dir a ∧ files = s.files.put a (.directory (FileAction.masked 0o777)) ∧
      files.IsTree ∧ ∀ options,
        (sheltering s.files a).allows { s with files := files, fresh := fresh }
          ((Work.cloneInto dir options).run { s with files := files, fresh := fresh }).2 := by
  rcases FileAction.run_makeTemporary he s.temporary stem s.files with
    ⟨e,hn⟩ | ⟨dir',fresh',a,hv,hn⟩
  · cases (Prod.mk.inj (hm.symm.trans hn)).1
  obtain ⟨hdir,rfl⟩ := Prod.mk.inj (hm.symm.trans hn)
  obtain ⟨rfl,-⟩ := Prod.mk.inj (Except.ok.inj hdir)
  have htree := (FileSystem.growing_putDirectory hv.leads hv.free (FileAction.masked 0o777) ht).1
  refine ⟨a,hv,rfl,htree,fun options => ?_⟩
  exact Work.cloneInto_within (absorbs_sheltering hv ht).git sheltering_attach dir options _

/-- However publishing ends, it has made one directory at most, which is gone unless it is to be
kept, and everything that was there before is still there. -/
theorem publish_cleanup (request : PublishRequest) (s : Session) (ht : s.files.IsTree)
    (he : ∀ ending ∈ s.fresh, FileAction.IsEnding ending) :
    Cleanup request s ((Work.publish request).run s).2 := by
  have h := Work.publish_cases request s
  have htemporary := FileAction.run_makeTemporary he s.temporary request.stem s.files
  generalize ((Work.publish request).run s).1 = result at h
  generalize ((Work.publish request).run s).2 = t at h ⊢
  cases h with
  | refused hl =>
    refine ⟨fun _ => rfl,fun _ _ _ _ hl' => ?_⟩
    cases hl.symm.trans hl'
  | outside _ hs =>
    refine ⟨fun _ => rfl,fun _ _ _ _ _ hs' => ?_⟩
    cases hs.symm.trans hs'
  | homeless _ _ hm =>
    refine ⟨fun _ => ?_,fun _ _ _ _ _ _ hm' => ?_⟩
    · rcases htemporary with ⟨e,hn⟩ | ⟨dir,rest,a,-,hn⟩
      · rw [(Prod.mk.inj (hm.symm.trans hn)).2]
      · cases (Prod.mk.inj (hm.symm.trans hn)).1
    · cases (Prod.mk.inj (hm.symm.trans hm')).1
  | @uncloned subdir dir fresh files e t hl hs hm hc =>
    obtain ⟨a,hv,hfiles,htree,hclone⟩ := vacant_of_made ht he hm
    replace hclone := hclone request.cloneOptions
    have hrun := Work.cloneInto_cases dir request.cloneOptions
      { s with files := files, fresh := fresh }
    rw [hc] at hclone hrun
    -- what is discarded is found by the failure alone
    have hdir := hrun.cloneDir? hv.endsInName rfl
    refine cleanup_of_made hl hs hm hv hfiles (Work.cleanup_of_sheltered hclone hv ht
      ⟨rfl,hfiles⟩ htree ?_)
    cases request.keep
    · rw [if_neg Bool.false_ne_true, Work.run_discard hdir]
      rfl
    · rfl
  | @cloned subdir dir fresh files t u result hl hs hm hc hp =>
    obtain ⟨a,hv,hfiles,htree,hclone⟩ := vacant_of_made ht he hm
    replace hclone := hclone request.cloneOptions
    have hpublish := Work.publishClone_within (absorbs_sheltering hv ht) request dir subdir t
    have hdir := Work.publishClone_within absorbs_keepsDirectory request dir subdir t
    rw [hc] at hclone
    rw [hp] at hpublish hdir
    -- what is deleted is what is worked on, which nothing has changed since the clone
    have hwork : u.workDir = some dir := hdir.trans (Work.cloneInto_ok hc).2
    refine cleanup_of_made hl hs hm hv hfiles (Work.cleanup_of_sheltered
      ((sheltering s.files a).trans hclone hpublish) hv ht ⟨rfl,hfiles⟩ htree ?_)
    cases request.keep
    · rw [if_neg Bool.false_ne_true, Work.run_attempt_delete hwork]
      rfl
    · rfl

/-- A session with nothing but an empty directory for temporary ones, whose commands succeed and do
nothing. -/
def idleSession : Session where
  runner := ⟨fun _ _ fs => (.succeeded, fs)⟩
  overrides := []
  temporary := ⟨"/tmp"⟩
  fresh := ["a1b2c3"]
  files := ⟨[(["tmp"], .directory 0o755)],[],by decide⟩
  calls := []
  workDir := none

theorem idleSession.run_makeTemporary :
    (FileAction.makeTemporary idleSession.temporary "site-" idleSession.fresh).run
      idleSession.files = (.ok (⟨"/tmp/site-a1b2c3"⟩, []),
        idleSession.files.put ["tmp", "site-a1b2c3"]
          (.directory (FileAction.masked 0o777))) :=
  FileAction.run_makeTemporary_tmp "site-a1b2c3" (by decide) (by decide) (by decide) (by decide)
    (by decide) (by decide) []

def outRequest : PublishRequest where
  url := "git@example.com:site"
  branch := none
  bootstrap := false
  source := ⟨"/out"⟩
  subdir := none
  message := "update"
  user := "bot"
  email := "bot@example.com"
  stem := "site-"
  keep := false

namespace Work
open FileSystem
variable {fs : FileSystem} {a b : Address}

/-- What a clone of a site holds at `a`. -/
def checkedOut (a : Address) (fs : FileSystem) : FileSystem :=
  if fs.isDirectoryAt a && (fs.get? (a ++ ["README"])).isNone then
    fs.put (a ++ ["README"]) (.file 0o644 "a site".toUTF8)
  else fs

theorem current_checkedOut (fs : FileSystem) : (checkedOut a fs).current = fs.current := by
  unfold checkedOut
  split <;> rfl

theorem get?_checkedOut_of_ne (h : b ≠ a ++ ["README"]) :
    (checkedOut a fs).get? b = fs.get? b := by
  unfold checkedOut
  split
  · exact get?_put_of_ne fs _ h
  · rfl

theorem isTree_checkedOut (ht : fs.IsTree) : (checkedOut a fs).IsTree := by
  unfold checkedOut
  split
  next h =>
    obtain ⟨hd,hn⟩ := Bool.and_eq_true_iff.mp h
    have hnone : fs.get? (a ++ ["README"]) = none := Option.isNone_iff_eq_none.mp hn
    have hgrows : fs.Grows (fs.put (a ++ ["README"]) (.file 0o644 "a site".toUTF8)) :=
      grows_put (fun old hold => nomatch hnone.symm.trans hold) (by simp)
    refine hgrows.isTree_put ht fun dir name heq => ?_
    obtain ⟨rfl,-⟩ := List.append_inj' heq rfl
    exact hd
  · exact ht

/-- Commands that succeed, of which `clone` checks a site out at `a`. -/
def siteRunner (a : Address) : Runner :=
  ⟨fun _ call fs =>
    if call.args.head? = some "clone" then (.succeeded, checkedOut a fs) else (.succeeded, fs)⟩

namespace siteRunner

theorem confined (a : Address) : (siteRunner a).Confined a where
  current _ call fs := by
    dsimp only [siteRunner]
    split
    · exact current_checkedOut fs
    · rfl
  outside _ call fs b hb := by
    have hne : b ≠ a ++ ["README"] := by
      rintro rfl
      exact hb (List.prefix_append ..)
    dsimp only [siteRunner]
    split
    · exact get?_checkedOut_of_ne hne
    · rfl
  tree _ call fs ht := by
    dsimp only [siteRunner]
    split
    · exact isTree_checkedOut ht
    · exact ht

theorem spares (a : Address) : (siteRunner a).Spares a := by
  intro _ call fs hd
  dsimp only [siteRunner]
  split
  · rwa [isDirectoryAt, get?_checkedOut_of_ne (by simp)]
  · exact hd

end siteRunner

/-- A session with one page to publish in `/out`. -/
def pageSession : Session :=
  { idleSession with
    runner := siteRunner ["tmp", "site-a1b2c3"]
    files := ⟨[(["tmp"], .directory 0o755), (["out"], .directory 0o755),
      (["out", "page"], .file 0o644 "new".toUTF8)],[],by decide⟩ }

end Work

/-- The site is cloned into a new directory, which is gone or kept in the end as was asked for. -/
theorem publish_cleanup_page : Work.pageSession.files.IsTree ∧
    (∀ ending ∈ Work.pageSession.fresh, FileAction.IsEnding ending) ∧
    Location.validate outRequest.url = .ok () ∧
    Work.pageSession.runner.Confined ["tmp", "site-a1b2c3"] ∧
    Work.pageSession.runner.Spares ["tmp", "site-a1b2c3"] ∧
    ∀ keep, let request := { outRequest with keep := keep }
      let t := ((Work.publish request).run Work.pageSession).2
      Cleanup request Work.pageSession t ∧ Work.pageSession.files.Keeps t.files ∧
        t.files.isDirectoryAt ["tmp", "site-a1b2c3"] = keep := by
  have ht : Work.pageSession.files.IsTree := by decide
  have he : ∀ ending ∈ Work.pageSession.fresh, FileAction.IsEnding ending := by decide
  have hl : Location.validate outRequest.url = .ok () := by rfl
  have hconfined := Work.siteRunner.confined ["tmp", "site-a1b2c3"]
  have hspares := Work.siteRunner.spares ["tmp", "site-a1b2c3"]
  refine ⟨ht,he,hl,hconfined,hspares,fun keep => ?_⟩
  have h := publish_cleanup { outRequest with keep := keep } Work.pageSession ht he
  have hsubdir : Work.checkedSubdir outRequest.subdir = .ok ⟨""⟩ := by rfl
  have hmade : (FileAction.makeTemporary Work.pageSession.temporary outRequest.stem
      Work.pageSession.fresh).run Work.pageSession.files = (.ok (⟨"/tmp/site-a1b2c3"⟩, []), _) :=
    FileAction.run_makeTemporary_tmp "site-a1b2c3" ht (by decide) (by decide) (by decide)
      (by decide) (by decide) []
  obtain ⟨a,mode,hv,hput,hcleanup⟩ := h.made _ _ _ _ hl hsubdir hmade
  obtain rfl : a = ["tmp", "site-a1b2c3"] := FileSystem.eq_of_put_eq hput hv.free
  obtain ⟨hkeeps,hgone,hkept⟩ := hcleanup hconfined
  refine ⟨h,hkeeps,?_⟩
  cases keep with
  | false =>
    refine Bool.eq_false_iff.mpr fun hd => ?_
    obtain ⟨_,hdir⟩ := FileSystem.isDirectoryAt_iff.mp hd
    cases hgone rfl _ hdir
  | true => exact hkept rfl hspares

end GitPublish
