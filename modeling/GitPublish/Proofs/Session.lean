import GitPublish.Client
import GitPublish.Proofs.Effect

/-!
# How work runs

A call of `git` is the only thing that adds to the calls of a session and to their replies; what is
done to the files directly leaves both alone. The rules for the steps of work say so.
-/
namespace GitPublish

namespace Session

def gitCall (s : Session) (dir : Option Path) (args : List String) : Call :=
  { command := "git", args, dir, environment := s.overrides }

def gitReply (s : Session) (dir : Option Path) (args : List String) : Reply :=
  (s.runner.answer s.calls (s.gitCall dir args) s.files).1

def afterGit (s : Session) (dir : Option Path) (args : List String) : Session :=
  { s with
    files := (s.runner.answer s.calls (s.gitCall dir args) s.files).2
    calls := s.calls ++ [s.gitCall dir args]
    replies := s.replies ++ [s.gitReply dir args] }

end Session

namespace Reply

@[simp] theorem result_eq_ok {call : Call} {reply : Reply} :
    reply.result call = .ok () ↔ reply = .succeeded := by
  cases reply <;> simp [result]

theorem ne_succeeded {call : Call} {reply : Reply} {cause : RunError}
    (h : reply.result call = .error cause) : reply ≠ .succeeded := by
  rintro rfl
  cases h

end Reply

namespace Work
variable {α β : Type}

theorem run_observe (w : Work α) (s : Session) :
    (observe w).run s = (.ok (w.run s).1, (w.run s).2) := rfl

@[simp] theorem run_ofResult (result : Except RepoError α) (s : Session) :
    (ofResult result).run s = (result, s) := rfl

theorem run_onFiles (failure : IoError → RepoError) (action : FileAction α) (s : Session) :
    (onFiles failure action).run s =
      ((action.run s.files).1.mapError failure, { s with files := (action.run s.files).2 }) := by
  rcases ha : action.run s.files with ⟨result, files⟩
  simp only [onFiles, run_bind, run_get, ha, run_set]
  cases result <;> rfl

theorem ok_of_run_onFiles {failure : IoError → RepoError} {action : FileAction α} {s t : Session}
    {a : α} (h : (onFiles failure action).run s = (.ok a, t)) :
    action.run s.files = (.ok a, t.files) := by
  rw [run_onFiles] at h
  obtain ⟨ha,rfl⟩ := Prod.mk.inj h
  rcases hr : action.run s.files with ⟨e | b, files⟩ <;> rw [hr] at ha
  · cases ha
  · rw [← Except.ok.inj ha]

theorem run_lift (m : StateM Session α) (s : Session) :
    (liftM m : Work α).run s = (.ok (m s).1, (m s).2) := rfl

theorem run_git (dir : Option Path) (args : List String) (s : Session) :
    (git dir args) s = ((s.gitReply dir args).result (s.gitCall dir args), s.afterGit dir args) :=
  rfl

theorem run_demand (failure : RunError → RepoError) (dir : Option Path) (args : List String)
    (s : Session) :
    (demand failure dir args).run s =
      (((s.gitReply dir args).result (s.gitCall dir args)).mapError failure,
        s.afterGit dir args) := by
  simp only [demand, run_bind, run_lift, run_git]
  cases (s.gitReply dir args).result (s.gitCall dir args) <;> rfl

@[simp] theorem run_attach (path : Path) (s : Session) :
    (attach path).run s = (.ok (), { s with workDir := some path }) := rfl

/-- Without a directory to work on there is a failure before anything is done. -/
theorem run_bind_boundDirectory (f : Path → Work α) (s : Session) :
    (boundDirectory >>= f).run s = match s.workDir with
      | some dir => (f dir).run s
      | none => (.error .unbound, s) := by
  rw [boundDirectory, run_bind, run_bind, run_get]
  cases h : s.workDir <;> simp only [run_pure, run_throw, h]

end Work

namespace Change

def files : Change Session where
  allows s t := ∃ files, t = { s with files := files }
  refl s := ⟨s.files,rfl⟩
  trans := by
    rintro s _ _ ⟨files,rfl⟩ ⟨files',rfl⟩
    exact ⟨files',rfl⟩

/-- A change of the files alone, for what is seen of them. -/
def ofFiles (R : Change FileSystem) : Change Session where
  allows s t := R.allows s.files t.files
  refl s := R.refl s.files
  trans := R.trans

/-- The directory that is worked on stays. -/
def keepsDirectory : Change Session where
  allows s t := t.workDir = s.workDir
  refl _ := rfl
  trans h k := k.trans h

theorem keepsDirectory_git (s : Session) (dir : Option Path) (args : List String) :
    keepsDirectory.allows s (s.afterGit dir args) := rfl

end Change

namespace Work
variable {α : Type} {R : Change Session}

theorem within_onFiles {failure : IoError → RepoError} {action : FileAction α}
    (h : ∀ s, R.allows s { s with files := (action.run s.files).2 }) :
    Within R (onFiles failure action) := by
  intro s
  rw [run_onFiles]
  exact h s

theorem onFiles_within {R : Change FileSystem} {action : FileAction α} (h : Within R action)
    (failure : IoError → RepoError) : Within (.ofFiles R) (onFiles failure action) :=
  within_onFiles fun s => h s.files

theorem onFiles_within_files (failure : IoError → RepoError) (action : FileAction α) :
    Within .files (onFiles failure action) := within_onFiles fun _ => ⟨_,rfl⟩

end Work
end GitPublish
