import GitPublish.Proofs.Stage

/-!
# What working on a clone asks git for

Cloning asks for the clone and, if there is a branch, for a checkout; its only failure between the
two is that the branches cannot be listed. Committing asks first whether anything is staged, then
sets what is known of the author, and commits.
-/
namespace GitPublish

/-- What cloning into a directory asks for. -/
def cloneStages (options : CloneOptions) (dir : Path) (create : Bool) : List Stage :=
  .clone options.url dir :: (options.branch.map (Stage.checkout dir · create)).toList

/-- What setting a key asks for; an empty value is not set. -/
def configStages (dir : Path) (key value : String) : List Stage :=
  if value = "" then [] else [.config dir key value]

/-- What recording a commit asks for, once something is known to be staged. -/
def recordStages (dir : Path) (message user email : String) : List Stage :=
  configStages dir "user.email" email ++
    (configStages dir "user.name" user ++ [.commit dir message user email])

section stages
variable {g : Stage} {dir : Path} {key value message user email : String}

theorem eq_of_mem_configStages (h : g ∈ configStages dir key value) :
    g = .config dir key value := by
  unfold configStages at h
  split at h
  · cases h
  · exact List.mem_singleton.mp h

theorem cases_of_mem_recordStages (h : g ∈ recordStages dir message user email) :
    g = .config dir "user.email" email ∨ g = .config dir "user.name" user ∨
      g = .commit dir message user email := by
  rcases List.mem_append.mp h with h | h
  · exact .inl (eq_of_mem_configStages h)
  rcases List.mem_append.mp h with h | h
  · exact .inr (.inl (eq_of_mem_configStages h))
  · exact .inr (.inr (List.mem_singleton.mp h))

theorem place_of_mem_recordStages (h : g ∈ recordStages dir message user email) :
    g.place = some dir := by
  rcases cases_of_mem_recordStages h with rfl | rfl | rfl <;> rfl

end stages

namespace Work
variable {interrupts : List Stage → RepoError → Prop} {s : Session}

theorem run_makeTemporary (stem : String) (s : Session) :
    (makeTemporary stem).run s =
      match (FileAction.makeTemporary s.temporary stem s.fresh).run s.files with
      | (.ok (dir, fresh), files) => (.ok dir, { s with files, fresh })
      | (.error cause, files) => (.error (.temporary stem cause), { s with files }) := by
  rw [makeTemporary, run_bind, run_get]
  dsimp only
  rw [run_bind, run_onFiles]
  rcases (FileAction.makeTemporary s.temporary stem s.fresh).run s.files with
    ⟨cause | ⟨dir, fresh⟩, fs⟩ <;> rfl

/-- Where a clone keeps its branches. -/
def headsOf (dir : Path) : Path := dir / ⟨".git"⟩ / ⟨"refs"⟩ / ⟨"heads"⟩

def Unlisted (options : CloneOptions) (dir : Path) (before : List Stage) (e : RepoError) : Prop :=
  before = [.clone options.url dir] ∧ ∃ cause, e = .heads (headsOf dir) cause

theorem run_hasNoHeads {path : Path} (h : s.workDir = some path) :
    (∃ empty, hasNoHeads.run s = (.ok empty, s)) ∨
      ∃ cause, hasNoHeads.run s = (.error (.heads (headsOf path) cause), s) := by
  have hf : ((FileAction.entriesOf (headsOf path)).run s.files).2 = s.files := by
    rw [FileAction.entriesOf, run_bind, run_get]
    simp only [run_bind, run_liftExcept]
    rcases s.files.find true (headsOf path) with cause | ⟨a, entry⟩
    · rfl
    · simp only [FileAction.refuse]
      split <;> rfl
  rw [hasNoHeads, run_bind_boundDirectory, h]
  dsimp only
  rw [run_bind, run_onFiles, ← headsOf, hf]
  rcases ((FileAction.entriesOf (headsOf path)).run s.files).1 with cause | entries
  · exact .inr ⟨cause,rfl⟩
  · exact .inl ⟨_,rfl⟩

/-- Work on the files makes no call, and its failure interrupts. -/
theorem follows_of_within {α : Type} {w : Work α} (h : Within .files w)
    (he : ∀ e t, w.run s = (.error e, t) → interrupts [] e) : w.Follows interrupts s [] := by
  obtain ⟨files,h⟩ := h s
  rcases hr : w.run s with ⟨e | a, t⟩ <;> rw [hr] at h <;> obtain rfl : t = _ := h <;>
    rw [Follows, hr]
  · exact .interrupted [] [] (.nil rfl rfl rfl) rfl (by simp) (he e _ hr)
  · exact .nil (.nil rfl rfl rfl)

theorem follows_configure (dir : Path) (key value : String) :
    (configure dir key value).Follows interrupts s (configStages dir key value) := by
  unfold configure configStages
  split
  · exact follows_pure ()
  · exact follows_demand (.config dir key value) fun _ => Iff.rfl

/-- The session in which a clone that was made is looked at. -/
def cloned (path : Path) (options : CloneOptions) (s : Session) : Session :=
  { s.afterGit none (Git.clone options.url path) with workDir := some path }

/-- What cloning can do. The directory is worked on as soon as the clone is there, and its branches
are looked at only then. -/
inductive CloneRun (path : Path) (options : CloneOptions) (s : Session) :
    Except RepoError Unit → Session → Prop
  | refused {cause : RunError} :
      (s.gitReply none (Git.clone options.url path)).result
        (s.gitCall none (Git.clone options.url path)) = .error cause →
      CloneRun path options s (.error (.clone path cause))
        (s.afterGit none (Git.clone options.url path))
  | plain :
      s.gitReply none (Git.clone options.url path) = .succeeded → options.branch = none →
      CloneRun path options s (.ok ()) (cloned path options s)
  | unlisted {branch : String} {cause : IoError} :
      s.gitReply none (Git.clone options.url path) = .succeeded → options.branch = some branch →
      CloneRun path options s (.error (.heads (headsOf path) cause)) (cloned path options s)
  | switched {branch : String} {create : Bool} :
      s.gitReply none (Git.clone options.url path) = .succeeded → options.branch = some branch →
      (create = true → options.bootstrap = true) →
      CloneRun path options s
        ((((cloned path options s).gitReply (some path) (Git.checkout branch create)).result
          ((cloned path options s).gitCall (some path) (Git.checkout branch create))).mapError
            (.checkout path branch))
        ((cloned path options s).afterGit (some path) (Git.checkout branch create))

theorem cloneInto_cases (path : Path) (options : CloneOptions) (s : Session) :
    CloneRun path options s ((cloneInto path options).run s).1
      ((cloneInto path options).run s).2 := by
  rw [cloneInto, run_bind, run_demand]
  rcases hr : (s.gitReply none (Git.clone options.url path)).result
    (s.gitCall none (Git.clone options.url path)) with cause | ⟨⟩
  · exact .refused hr
  have hs := Reply.result_eq_ok.mp hr
  dsimp only [Except.mapError]
  rw [run_bind, run_attach, ← cloned]
  rcases hb : options.branch with - | branch
  · exact .plain hs hb
  dsimp only
  rcases ho : options.bootstrap with - | -
  · simp only [Bool.false_eq_true, if_false, run_bind, run_pure, run_demand]
    exact .switched hs hb (by simp)
  · simp only [if_true, run_bind]
    rcases run_hasNoHeads (s := cloned path options s) rfl with ⟨create,h⟩ | ⟨cause,h⟩ <;> rw [h]
    · dsimp only
      rw [run_demand]
      exact .switched hs hb fun _ => ho
    · exact .unlisted hs hb

/-- Cloning makes the calls of its stages. The branch is made only if that was asked for. -/
theorem cloneInto_follows (path : Path) (options : CloneOptions) (s : Session) :
    ∃ create, (create = true → options.bootstrap = true) ∧
      (cloneInto path options).Follows (Unlisted options path) s
        (cloneStages options path create) := by
  have h := cloneInto_cases path options s
  have hm := s.makes_afterGit (.clone options.url path)
  have passed : s.gitReply none (Git.clone options.url path) = .succeeded →
      s.Passed [.clone options.url path] (cloned path options s) := fun hs =>
    ⟨_,⟨hm.calls,hm.replies,hm.overrides⟩,rfl,fun m h => by rw [List.mem_singleton.mp h]; exact hs⟩
  unfold Follows
  rcases hrun : (cloneInto path options).run s with ⟨result, t⟩
  rw [hrun] at h
  cases h with
  | refused hr =>
    exact ⟨false,by simp,.failed [] _ hm rfl (by simp) (Reply.ne_succeeded hr) hr⟩
  | plain hs hb =>
    refine ⟨false,by simp,?_⟩
    rw [cloneStages, hb]
    exact passed hs
  | @unlisted branch _ hs hb =>
    obtain ⟨made,hmade,hstages,hpass⟩ := passed hs
    refine ⟨false,by simp,.interrupted made [.checkout path branch false] hmade ?_ hpass
      ⟨hstages,_,rfl⟩⟩
    rw [hstages, cloneStages, hb]
    rfl
  | @switched branch create hs hb ho =>
    refine ⟨create,ho,?_⟩
    have hf : (demand (.checkout path branch) (some path) (Git.checkout branch create)).Follows
        (fun before => Unlisted options path ([.clone options.url path] ++ before))
        (cloned path options s) [.checkout path branch create] :=
      follows_demand (.checkout path branch create) fun _ => Iff.rfl
    rw [Follows, run_demand] at hf
    rw [cloneStages, hb]
    generalize hq : ((cloned path options s).gitReply (some path)
      (Git.checkout branch create)).result _ = answer at hf ⊢
    cases answer with
    | error cause => exact (passed hs).halted hf
    | ok => exact (passed hs).append hf

/-- A clone that is made is worked on, and stays so if its branches or its branch make trouble. -/
theorem cloneInto_workDir (path : Path) (options : CloneOptions) (s : Session) :
    ((cloneInto path options).run s).2.workDir =
      if s.gitReply none (Git.clone options.url path) = .succeeded then some path
      else s.workDir := by
  have h := cloneInto_cases path options s
  generalize ((cloneInto path options).run s).1 = result at h
  generalize ((cloneInto path options).run s).2 = t at h ⊢
  cases h with
  | refused hr => rw [if_neg (Reply.ne_succeeded hr)]; rfl
  | plain hs | unlisted hs | switched hs => rw [if_pos hs]; rfl

theorem cloneInto_ok {path : Path} {options : CloneOptions} {t : Session}
    (h : (cloneInto path options).run s = (.ok (), t)) :
    s.gitReply none (Git.clone options.url path) = .succeeded ∧ t.workDir = some path := by
  have hc := cloneInto_cases path options s
  have hw := cloneInto_workDir path options s
  rw [h] at hc hw
  have hs : s.gitReply none (Git.clone options.url path) = .succeeded := by
    obtain ⟨result,hr⟩ : ∃ result : Except RepoError Unit, result = .ok () := ⟨_,rfl⟩
    dsimp only at hc
    rw [← hr] at hc
    cases hc with
    | refused => cases hr
    | plain hs | unlisted hs | switched hs => exact hs
  rw [if_pos hs] at hw
  exact ⟨hs,hw⟩

theorem follows_add (interrupts : List Stage → RepoError → Prop) {dir : Path}
    (h : s.workDir = some dir) (files : List Path) :
    (add files).Follows interrupts s [.add dir files] := by
  rw [Follows, add, run_bind_boundDirectory, h]
  exact follows_demand (.add dir files) fun _ => Iff.rfl

theorem follows_push (interrupts : List Stage → RepoError → Prop) {dir : Path}
    (h : s.workDir = some dir) : push.Follows interrupts s [.push dir] := by
  rw [Follows, push, run_bind_boundDirectory, h]
  exact follows_demand (.push dir) fun _ => Iff.rfl

theorem delete_within_files : Within .files delete := fun s => by
  rw [delete, run_bind_boundDirectory]
  split
  · exact onFiles_within_files _ _ s
  · exact ⟨s.files,rfl⟩

def record (dir : Path) (message user email : String) : Work CommitOutcome := do
  configure dir "user.email" email
  configure dir "user.name" user
  demand .commit (some dir) (Git.commit message user email)
  pure .committed

theorem run_commit {dir : Path} (h : s.workDir = some dir) (message user email : String) :
    (commit message user email).run s = match s.gitReply (some dir) Git.diff with
      | .succeeded => (.ok .nothingToCommit, s.afterGit (some dir) Git.diff)
      | .notStarted cause =>
        (.error (.diff (.notStarted (s.gitCall (some dir) Git.diff) cause)),
          s.afterGit (some dir) Git.diff)
      | .exited .. => (record dir message user email).run (s.afterGit (some dir) Git.diff) := by
  rw [commit, run_bind_boundDirectory, h]
  simp only [run_bind, run_lift, run_git]
  cases s.gitReply (some dir) Git.diff <;> rfl

theorem record_follows (interrupts : List Stage → RepoError → Prop) (dir : Path)
    (message user email : String) :
    (record dir message user email).Follows interrupts s (recordStages dir message user email) :=
  (follows_configure ..).bind fun _ _ _ => (follows_configure ..).bind fun _ _ _ =>
    (follows_demand (.commit dir message user email) fun _ => Iff.rfl).bind fun _ _ _ =>
      follows_pure _

theorem record_ok {dir : Path} {message user email : String} {outcome : CommitOutcome}
    {t : Session} (h : (record dir message user email).run s = (.ok outcome, t)) :
    outcome = .committed := by
  simp only [record, run_bind] at h
  repeat' split at h
  all_goals cases h
  rfl

section Within
variable {R : Change Session} (h : ∀ s dir args, R.allows s (s.afterGit dir args))
include h

theorem demand_within (failure : RunError → RepoError) (dir : Option Path) (args : List String) :
    Within R (demand failure dir args) := by
  intro s
  rw [run_demand]
  exact h s dir args

theorem add_within (files : List Path) : Within R (add files) := by
  intro s
  rw [add, run_bind_boundDirectory]
  split
  · exact demand_within h _ _ _ s
  · exact R.refl s

theorem push_within : Within R push := by
  intro s
  rw [push, run_bind_boundDirectory]
  split
  · exact demand_within h _ _ _ s
  · exact R.refl s

theorem configure_within (dir : Path) (key value : String) :
    Within R (configure dir key value) := by
  unfold configure
  split
  · exact within_pure ()
  · exact demand_within h _ _ _

theorem record_within (dir : Path) (message user email : String) :
    Within R (record dir message user email) :=
  (configure_within h _ _ _).bind fun _ => (configure_within h _ _ _).bind fun _ =>
    (demand_within h _ _ _).bind fun _ => within_pure _

theorem commit_within (message user email : String) : Within R (commit message user email) := by
  intro s
  rcases hw : s.workDir with - | dir
  · rw [commit, run_bind_boundDirectory, hw]
    exact R.refl s
  · rw [run_commit hw]
    split
    · exact h s _ _
    · exact h s _ _
    · exact R.trans (h s _ _) (record_within h dir message user email _)

end Within

end Work
end GitPublish
