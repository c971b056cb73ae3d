import GitPublish.Proofs.Client
import GitPublish.Proofs.FileSystem.Action
import GitPublish.Publish

/-!
# How publishing runs

Publishing follows a script of stages. It ends in one of three ways: it halts on the way, it finds
nothing to commit, or it reaches the end of the script. What becomes of the clone afterwards changes
neither the calls nor the result.
-/
namespace GitPublish

namespace PublishRequest

def cloneOptions (r : PublishRequest) : CloneOptions :=
  { url := r.url, branch := r.branch, bootstrap := r.bootstrap }

/-- What is asked for once files were copied into a clone. -/
def publishStages (r : PublishRequest) (dir : Path) (files : List Path) : List Stage :=
  [.add dir files, .diff dir] ++ (recordStages dir r.message r.user r.email ++ [.push dir])

/-- Everything that is asked for, in order. -/
def script (r : PublishRequest) (dir : Path) (create : Bool) (files : List Path) : List Stage :=
  cloneStages r.cloneOptions dir create ++ r.publishStages dir files

/-- The failures between the calls: the branches cannot be listed, or a file cannot be copied. -/
inductive Interrupts (r : PublishRequest) (dir : Path) (create : Bool) :
    List Stage → RepoError → Prop
  | unlisted (cause : IoError) :
      Interrupts r dir create [.clone r.url dir] (.heads (Work.headsOf dir) cause)
  | uncopied (source target : Path) (cause : IoError) :
      Interrupts r dir create (cloneStages r.cloneOptions dir create) (.copy source target cause)

inductive Ends (r : PublishRequest) (dir : Path) (create : Bool) (files : List Path)
    (s : Session) : Except RepoError PublishOutcome → Session → Prop
  | halted {e : RepoError} {t : Session} :
      s.Halted (Interrupts r dir create) (r.script dir create files) e t →
      Ends r dir create files s (.error e) t
  | unchanged {made : List Exchange} {t : Session} :
      s.Makes (made ++ [(.diff dir, .succeeded)]) t →
      made.map Prod.fst = cloneStages r.cloneOptions dir create ++ [.add dir files] →
      (∀ m ∈ made, m.1.Passes m.2) →
      Ends r dir create files s (.ok ⟨dir, files, .nothingToCommit, false⟩) t
  | pushed {t : Session} :
      s.Passed (r.script dir create files) t →
      Ends r dir create files s (.ok ⟨dir, files, .committed, true⟩) t

theorem Ends.files {r : PublishRequest} {dir : Path} {create : Bool} {files : List Path}
    {s t u : Session} {result : Except RepoError PublishOutcome}
    (h : r.Ends dir create files s result t) (k : Change.files.allows t u) :
    r.Ends dir create files s result u := by
  cases h with
  | halted h => exact .halted (h.files k)
  | unchanged hm hs hp => exact .unchanged (hm.files k) hs hp
  | pushed h => exact .pushed (h.files k)

end PublishRequest

theorem Change.files_set (s : Session) (fs : FileSystem)
    (_ : FileSystem.growing.allows s.files fs) : Change.files.allows s { s with files := fs } :=
  ⟨fs,rfl⟩

namespace Work
variable {s : Session}

section Within
variable {R : Change Session}
  (h : ∀ s files, FileSystem.growing.allows s.files files → R.allows s { s with files := files })
include h

theorem copyFile_within (source cloneDir subdir file : Path) :
    Within R (copyFile source cloneDir subdir file) := by
  refine (within_onFiles fun s => h s _ ?_).bind fun _ => within_pure _
  have hparents := FileAction.makeParents_within (p := cloneDir / (subdir / file))
    fun parent _ q _ => FileAction.growing_allowsDirectory 0o777 q
  have hcopy := FileAction.copy_within (source / file)
    (FileAction.growing_allowsFile (cloneDir / (subdir / file)))
  exact (hparents.bind fun _ => hcopy) s.files

theorem copyTree_within (source cloneDir subdir : Path) :
    Within R (copyTree source cloneDir subdir) := by
  unfold copyTree
  refine within_get.bind fun s => ?_
  split
  · exact within_throw _
  · exact .mapM fun file _ => copyFile_within h source cloneDir subdir file

end Within

theorem attempt_within {R : Change Session} {w : Work Unit} (h : Within R w) :
    Within R (attempt w) :=
  h.tryCatch fun _ => within_pure ()

/-- An attempt never fails. -/
theorem run_attempt (w : Work Unit) (s : Session) :
    (attempt w).run s = (.ok (), (w.run s).2) := by
  rw [attempt, run_tryCatch]
  rcases w.run s with ⟨e | a, t⟩ <;> rfl

theorem exists_run_discard (failure : RepoError) (s : Session) :
    ∃ t, (discard failure).run s = (.ok (), t) := by
  unfold discard
  split
  · exact ⟨_,run_attempt _ s⟩
  · exact ⟨s,rfl⟩

theorem discard_within_files (failure : RepoError) : Within .files (discard failure) := by
  unfold discard
  split
  · exact attempt_within (onFiles_within_files _ _)
  · exact within_pure ()

/-- Publishing step by step: what is refused changes nothing, a failed clone is discarded, and a
clone that was made is removed behind whatever became of it, unless it is to be kept. -/
theorem run_publish (request : PublishRequest) (s : Session) :
    (publish request).run s = match Location.validate request.url with
      | .error cause => (.error (.location cause), s)
      | .ok () => match checkedSubdir request.subdir with
        | .error e => (.error e, s)
        | .ok subdir => match (cloneInTemporary request.stem request.cloneOptions).run s with
          | (.error e, t) => (.error e, if request.keep then t else ((discard e).run t).2)
          | (.ok dir, t) =>
            match (publishClone request dir subdir).run t with
            | (result, u) =>
              (result.map fun (files, commit, pushed) => ⟨dir, files, commit, pushed⟩,
                if request.keep then u else ((attempt delete).run u).2) := by
  unfold publish
  rcases hl : Location.validate request.url with cause | ⟨⟩
  · rfl
  rcases hs : checkedSubdir request.subdir with e | subdir
  · rfl
  simp only [run_bind, run_ofResult, run_tryCatch, PublishRequest.cloneOptions]
  rcases (cloneInTemporary request.stem ⟨request.url, request.branch, request.bootstrap⟩).run s
    with ⟨e | dir, t⟩
  · obtain ⟨t',hd⟩ := exists_run_discard e t
    cases request.keep <;> simp [run_bind, hd]
  · simp only [run_observe]
    rcases (publishClone request dir subdir).run t with ⟨e | outcome, u⟩ <;>
      cases request.keep <;> simp [run_bind, run_attempt, Except.map] <;> rfl

/-- Without a temporary directory nothing is cloned, and there is nothing to discard. -/
theorem run_publish_homeless {request : PublishRequest} {s : Session} {subdir : Path}
    {cause : IoError} {fs : FileSystem} (hl : Location.validate request.url = .ok ())
    (hs : checkedSubdir request.subdir = .ok subdir)
    (ht : (FileAction.makeTemporary s.temporary request.stem s.fresh).run s.files =
      (.error cause, fs)) :
    (publish request).run s =
      (.error (.temporary request.stem cause), { s with files := fs }) := by
  have hd : ∀ t, ((discard (.temporary request.stem cause)).run t).2 = t := fun _ => rfl
  rw [run_publish, hl, hs]
  dsimp only
  rw [cloneInTemporary, run_bind, run_makeTemporary, ht]
  dsimp only
  rw [hd, ite_self]

theorem copyFile_error {source cloneDir subdir file : Path} {e : RepoError} {t : Session}
    (h : (copyFile source cloneDir subdir file).run s = (.error e, t)) :
    ∃ origin target cause, e = .copy origin target cause := by
  rw [copyFile, run_bind, run_onFiles] at h
  rcases hr : ((do
      FileAction.makeParents (cloneDir / (subdir / file))
      FileAction.copy (source / file) (cloneDir / (subdir / file)) : FileAction Unit).run
        s.files).1 with cause | ⟨⟩ <;> rw [hr] at h
  · exact ⟨_,_,cause,by cases h; rfl⟩
  · cases h

theorem mapM_error {α β : Type} {f : α → Work β} {P : RepoError → Prop}
    (hf : ∀ a s e t, (f a).run s = (.error e, t) → P e) (l : List α) {e : RepoError}
    {t : Session} (h : (l.mapM f).run s = (.error e, t)) : P e := by
  induction l generalizing s with
  | nil => cases h
  | cons a l ih =>
    rw [List.mapM_cons, run_bind] at h
    rcases ha : (f a).run s with ⟨e' | b, u⟩ <;> simp only [ha] at h
    · cases h
      exact hf a s e t ha
    · rw [run_bind] at h
      rcases hl : (l.mapM f).run u with ⟨e' | bs, v⟩ <;> simp only [hl] at h
      · cases h
        exact ih hl
      · cases h

theorem copyTree_error {source cloneDir subdir : Path} {e : RepoError} {t : Session}
    (h : (copyTree source cloneDir subdir).run s = (.error e, t)) :
    ∃ origin target cause, e = .copy origin target cause := by
  rw [copyTree, run_bind, run_get] at h
  dsimp only at h
  split at h
  · exact ⟨_,_,_,by cases h; rfl⟩
  · exact mapM_error (fun _ _ _ _ => copyFile_error) _ h

/-- A new commit is pushed. -/
def finish (files : List Path) : CommitOutcome → Work (List Path × CommitOutcome × Bool)
  | .nothingToCommit => pure (files, .nothingToCommit, false)
  | .committed => do
    push
    pure (files, .committed, true)

theorem publishClone_eq (request : PublishRequest) (dir subdir : Path) :
    publishClone request dir subdir = (do
      let files ← copyTree request.source dir subdir
      add files
      let outcome ← commit request.message request.user request.email
      finish files outcome) := by
  unfold publishClone finish
  rfl

theorem record_finish_follows (interrupts : List Stage → RepoError → Prop) {dir : Path}
    (hw : s.workDir = some dir) (message user email : String) (files : List Path) :
    (record dir message user email >>= finish files).Follows interrupts s
      (recordStages dir message user email ++ [.push dir]) := by
  refine (record_follows _ dir message user email).bind fun outcome t ht => ?_
  have hd : t.workDir = some dir := by
    have h := record_within Change.keepsDirectory_git dir message user email s
    rw [ht] at h
    exact h.trans hw
  rw [record_ok ht]
  exact (follows_push _ hd).bind fun _ _ _ => follows_pure _

theorem record_finish_ok {dir : Path} {message user email : String} {files : List Path}
    {value : List Path × CommitOutcome × Bool} {t : Session}
    (h : (record dir message user email >>= finish files).run s = (.ok value, t)) :
    value = (files, .committed, true) := by
  rw [run_bind] at h
  rcases hr : (record dir message user email).run s with ⟨e | outcome, u⟩ <;>
    simp only [hr] at h
  · cases h
  · rw [record_ok hr, finish, run_bind] at h
    rcases hq : push.run u with ⟨e | ⟨⟩, v⟩ <;> simp only [hq] at h <;> cases h
    rfl

/-- The reply of `git diff` decides: nothing to commit, a failure, or a commit and a push. -/
theorem commit_finish_ends {request : PublishRequest} {dir : Path} {create : Bool}
    {files : List Path} {start : Session} (hw : s.workDir = some dir)
    (hp : start.Passed (cloneStages request.cloneOptions dir create ++ [.add dir files]) s) :
    request.Ends dir create files start
      (((commit request.message request.user request.email >>= finish files).run s).1.map
        fun (files, commit, pushed) => ⟨dir, files, commit, pushed⟩)
      ((commit request.message request.user request.email >>= finish files).run s).2 := by
  let message := request.message
  let user := request.user
  let email := request.email
  have hs : request.script dir create files =
      (cloneStages request.cloneOptions dir create ++ [.add dir files]) ++
        ([.diff dir] ++ (recordStages dir message user email ++ [.push dir])) := by
    rw [List.append_assoc]
    rfl
  have hm := s.makes_afterGit (.diff dir)
  rw [run_bind, run_commit hw]
  rcases hr : s.gitReply (some dir) Git.diff with - | ⟨code, output⟩ | cause
  · obtain ⟨made,hmade,hstages,hpass⟩ := hp
    have hd : s.gitReply (Stage.diff dir).place (Stage.diff dir).args = .succeeded := hr
    rw [hd] at hm
    exact .unchanged (hmade.append hm) hstages hpass
  · have hd : start.Passed ((cloneStages request.cloneOptions dir create ++ [.add dir files]) ++
        [.diff dir]) (s.afterGit (some dir) Git.diff) := by
      refine hp.append ⟨_,hm,rfl,?_⟩
      intro m h
      rw [List.mem_singleton.mp h]
      exact ⟨code,output,hr⟩
    have hf := fun interrupts => record_finish_follows interrupts
      (s := s.afterGit (some dir) Git.diff) hw message user email files
    dsimp only
    rw [← run_bind]
    rcases hq : (record dir message user email >>= finish files).run
      (s.afterGit (some dir) Git.diff) with ⟨e | value, t⟩
    · refine .halted ?_
      rw [hs, ← List.append_assoc]
      exact hd.halted ((hf _).halted hq)
    · rw [record_finish_ok hq]
      refine .pushed ?_
      rw [hs, ← List.append_assoc]
      exact hd.append ((hf fun _ _ => False).passed hq)
  · refine .halted ?_
    rw [hs]
    refine hp.halted (.failed [] _ (g := .diff dir) hm rfl (by simp) ?_ ?_)
    · rintro ⟨code,output,h⟩
      exact absurd (hr.symm.trans h) (by simp)
    · rw [show s.gitReply (Stage.diff dir).place (Stage.diff dir).args = .notStarted cause from hr]
      rfl

/-- Copying, staging, committing and pushing in the directory that is worked on. -/
theorem publishClone_ends {request : PublishRequest} {dir : Path} (subdir : Path)
    {create : Bool} {start : Session} (hw : s.workDir = some dir)
    (hp : start.Passed (cloneStages request.cloneOptions dir create) s) :
    ∃ files, request.Ends dir create files start
      (((publishClone request dir subdir).run s).1.map fun (files, commit, pushed) =>
        ⟨dir, files, commit, pushed⟩)
      ((publishClone request dir subdir).run s).2 := by
  have hcopy : (copyTree request.source dir subdir).Follows
      (fun before => request.Interrupts dir create
        (cloneStages request.cloneOptions dir create ++ before)) s [] := by
    refine follows_of_within (copyTree_within Change.files_set _ _ _) fun e t h => ?_
    obtain ⟨origin,target,cause,rfl⟩ := copyTree_error h
    rw [List.append_nil]
    exact .uncopied origin target cause
  rw [publishClone_eq, run_bind]
  rcases hc : (copyTree request.source dir subdir).run s with ⟨e | files, t⟩
  · exact ⟨[],.halted (hp.halted ((hcopy.halted hc).extend _))⟩
  have ht : t.workDir = some dir := by
    obtain ⟨fs,h⟩ := copyTree_within Change.files_set request.source dir subdir s
    rw [hc] at h
    rw [show t = { s with files := fs } from h]
    exact hw
  have hpt : start.Passed (cloneStages request.cloneOptions dir create) t := by
    simpa only [List.append_nil] using hp.append (hcopy.passed hc)
  refine ⟨files,?_⟩
  dsimp only
  rw [run_bind]
  have hadd := fun interrupts => follows_add interrupts ht files
  rcases ha : (add files).run t with ⟨e | ⟨⟩, u⟩
  · exact .halted (hpt.halted (((hadd _).halted ha).extend
      (.diff dir :: (recordStages dir request.message request.user request.email ++ [.push dir]))))
  have hu : u.workDir = some dir := by
    have h := add_within Change.keepsDirectory_git files t
    rw [ha] at h
    exact h.trans ht
  exact commit_finish_ends hu (hpt.append ((hadd fun _ _ => False).passed ha))

/-- What publishing can do. Nothing happens before the location and the target are accepted; the
temporary directory is made then, and everything else happens behind it. -/
inductive Published (request : PublishRequest) (s : Session) :
    Except RepoError PublishOutcome → Session → Prop
  | refused {cause : LocationError} :
      Location.validate request.url = .error cause →
      Published request s (.error (.location cause)) s
  | outside {e : RepoError} :
      Location.validate request.url = .ok () → checkedSubdir request.subdir = .error e →
      Published request s (.error e) s
  | homeless {subdir : Path} {cause : IoError} {files : FileSystem} :
      Location.validate request.url = .ok () → checkedSubdir request.subdir = .ok subdir →
      (FileAction.makeTemporary s.temporary request.stem s.fresh).run s.files =
        (.error cause, files) →
      Published request s (.error (.temporary request.stem cause)) { s with files := files }
  | uncloned {subdir dir : Path} {fresh : List String} {files : FileSystem} {e : RepoError}
      {t : Session} :
      Location.validate request.url = .ok () → checkedSubdir request.subdir = .ok subdir →
      (FileAction.makeTemporary s.temporary request.stem s.fresh).run s.files =
        (.ok (dir, fresh), files) →
      (cloneInto dir request.cloneOptions).run { s with files := files, fresh := fresh } =
        (.error e, t) →
      Published request s (.error e) (if request.keep then t else ((discard e).run t).2)
  | cloned {subdir dir : Path} {fresh : List String} {files : FileSystem} {t u : Session}
      {result : Except RepoError (List Path × CommitOutcome × Bool)} :
      Location.validate request.url = .ok () → checkedSubdir request.subdir = .ok subdir →
      (FileAction.makeTemporary s.temporary request.stem s.fresh).run s.files =
        (.ok (dir, fresh), files) →
      (cloneInto dir request.cloneOptions).run { s with files := files, fresh := fresh } =
        (.ok (), t) →
      (publishClone request dir subdir).run t = (result, u) →
      Published request s
        (result.map fun (files, commit, pushed) => ⟨dir, files, commit, pushed⟩)
        (if request.keep then u else ((attempt delete).run u).2)

theorem publish_cases (request : PublishRequest) (s : Session) :
    Published request s ((publish request).run s).1 ((publish request).run s).2 := by
  rw [run_publish]
  rcases hl : Location.validate request.url with cause | ⟨⟩
  · exact .refused hl
  rcases hs : checkedSubdir request.subdir with e | subdir
  · exact .outside hl hs
  dsimp only
  rw [cloneInTemporary, run_bind, run_makeTemporary]
  rcases ht : (FileAction.makeTemporary s.temporary request.stem s.fresh).run s.files with
    ⟨cause | ⟨dir, fresh⟩, files⟩
  · have h := Published.homeless hl hs ht
    cases request.keep <;> exact h
  dsimp only
  rw [run_bind]
  rcases hc : (cloneInto dir request.cloneOptions).run { s with files := files, fresh := fresh }
    with ⟨e | ⟨⟩, t⟩
  · exact .uncloned hl hs ht hc
  · exact .cloned hl hs ht hc rfl

/-- A target that is not accepted is one that leaves the repository. -/
theorem checkedSubdir_eq_error {subdir : Option Path} {e : RepoError} :
    checkedSubdir subdir = .error e ↔
      ∃ p, subdir = some p ∧ p.staysBelow = false ∧ e = .copy ⟨""⟩ p .outsideRepository := by
  unfold checkedSubdir
  cases subdir with
  | none => simp
  | some p =>
    cases h : p.staysBelow with
    | true => simp [h]
    | false =>
      constructor
      · intro he
        exact ⟨p,rfl,h,by simpa [h] using he.symm⟩
      · rintro ⟨_,⟨⟩,-,rfl⟩
        simp [h]

/-- What becomes of the clone in the end is a matter of files alone. -/
theorem cleanup_allows (keep : Bool) {w : Work Unit} (hw : Within .files w) (t : Session) :
    Change.files.allows t (if keep then t else (w.run t).2) := by
  cases keep
  · exact hw t
  · exact Change.files.refl t

/-- Once there is a temporary directory, publishing ends in one of three ways. -/
theorem publish_ends_of_made {request : PublishRequest} {subdir dir : Path} {fresh : List String}
    {fs : FileSystem} (hl : Location.validate request.url = .ok ())
    (hs : checkedSubdir request.subdir = .ok subdir)
    (ht : (FileAction.makeTemporary s.temporary request.stem s.fresh).run s.files =
      (.ok (dir, fresh), fs)) :
    ∃ create files, (create = true → request.bootstrap = true) ∧
      request.Ends dir create files s ((publish request).run s).1 ((publish request).run s).2 := by
  have h := publish_cases request s
  generalize ((publish request).run s).1 = result at h ⊢
  generalize ((publish request).run s).2 = t at h ⊢
  let start : Session := { s with files := fs, fresh := fresh }
  have hstart : s.Passed [] start := .nil (.nil rfl rfl rfl)
  obtain ⟨create,hcreate,hf⟩ := cloneInto_follows dir request.cloneOptions start
  cases h with
  | refused hl' => cases hl.symm.trans hl'
  | outside _ hs' => cases hs.symm.trans hs'
  | homeless _ _ ht' => cases (Prod.mk.inj (ht.symm.trans ht')).1
  | @uncloned _ _ _ _ _ t _ _ ht' hc =>
    cases ht.symm.trans ht'
    refine ⟨create,[],hcreate,.files (.halted ?_)
      (cleanup_allows request.keep (discard_within_files _) t)⟩
    refine hstart.halted (((hf.halted hc).mono ?_).extend (request.publishStages dir []))
    rintro before e ⟨rfl,cause,rfl⟩
    exact .unlisted cause
  | @cloned subdir _ _ _ t u result _ _ ht' hc hp =>
    cases ht.symm.trans ht'
    obtain ⟨staged,he⟩ := publishClone_ends subdir (cloneInto_ok hc).2
      (hstart.append (hf.passed hc))
    rw [hp] at he
    exact ⟨create,staged,hcreate,he.files
      (cleanup_allows request.keep (attempt_within delete_within_files) u)⟩

/-- Either publishing is refused before any call, or it ends in one of three ways. -/
theorem publish_ends (request : PublishRequest) (s : Session) :
    (∃ e, ((publish request).run s).1 = .error e ∧ (∀ heads cause, e ≠ .heads heads cause) ∧
      s.Makes [] ((publish request).run s).2) ∨
    ∃ dir create files fresh fs,
      (FileAction.makeTemporary s.temporary request.stem s.fresh).run s.files =
        (.ok (dir, fresh), fs) ∧ (create = true → request.bootstrap = true) ∧
      request.Ends dir create files s ((publish request).run s).1 ((publish request).run s).2 := by
  rcases hl : Location.validate request.url with cause | ⟨⟩
  · rw [run_publish, hl]
    exact .inl ⟨_,rfl,by simp,.nil rfl rfl rfl⟩
  rcases hs : checkedSubdir request.subdir with e | subdir
  · obtain ⟨p,-,-,rfl⟩ := checkedSubdir_eq_error.mp hs
    rw [run_publish, hl, hs]
    exact .inl ⟨_,rfl,by simp,.nil rfl rfl rfl⟩
  rcases ht : (FileAction.makeTemporary s.temporary request.stem s.fresh).run s.files with
    ⟨cause | ⟨dir, fresh⟩, fs⟩
  · rw [run_publish_homeless hl hs ht]
    exact .inl ⟨_,rfl,by simp,.nil rfl rfl rfl⟩
  · obtain ⟨create,files,hcreate,he⟩ := publish_ends_of_made hl hs ht
    exact .inr ⟨dir,create,files,fresh,fs,rfl,hcreate,he⟩

end Work
end GitPublish
