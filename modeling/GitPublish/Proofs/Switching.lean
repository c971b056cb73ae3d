import GitPublish.Proofs.Client
import GitPublish.Proofs.FileSystem.Entries

/-!
# How a clone comes to its branch

A clone that was made is switched to a branch if one is asked for. Whether the branch is made is
read off what the clone has left behind, and only if that was asked for: it is made where the
directory of branches is empty. Where that directory cannot be listed, nothing more is asked of
`git`.
-/
namespace GitPublish

/-- From `s` to `t`, `git` is run in these places with these arguments, and ends so each time. -/
structure Session.Asks (s : Session) (asked : List (Option Path × List String))
    (answers : List Reply) (t : Session) : Prop where
  calls : t.calls = s.calls ++ asked.map fun g => s.gitCall g.1 g.2
  replies : t.replies = s.replies ++ answers

def cloneRequest (url : String) (path : Path) : Option Path × List String :=
  (none, ["clone", url, path.text])

def switchRequest (path : Path) (branch : String) (create : Bool) : Option Path × List String :=
  (some path, if create then ["checkout", "-b", branch] else ["checkout", branch])

open Work (headsOf)

/-- What cloning can come to, once its directory is there: `first` is how the call for the clone
ended, and `left` are the files that it left. -/
inductive CloneOutcome (path : Path) (options : CloneOptions) (s : Session) (first : Reply)
    (left : FileSystem) : Except RepoError Unit → Session → Prop
  | refused {cause : RunError} {t : Session} :
      first.result (s.gitCall none ["clone", options.url, path.text]) = .error cause →
      s.Asks [cloneRequest options.url path] [first] t →
      CloneOutcome path options s first left (.error (.clone path cause)) t
  | plain {t : Session} :
      first = .succeeded → options.branch = none →
      s.Asks [cloneRequest options.url path] [first] t →
      CloneOutcome path options s first left (.ok ()) t
  | unlisted {branch : String} {cause : IoError} {t : Session} :
      first = .succeeded → options.branch = some branch → options.bootstrap = true →
      left.isDirectory (headsOf path) = false → s.Asks [cloneRequest options.url path] [first] t →
      CloneOutcome path options s first left (.error (.heads (headsOf path) cause)) t
  | switched {branch : String} {create : Bool} {reply : Reply} {t : Session} :
      first = .succeeded → options.branch = some branch →
      (options.bootstrap = true → left.isDirectory (headsOf path)) →
      (create = true ↔ options.bootstrap = true ∧ ∀ name, ¬ left.HasEntry (headsOf path) name) →
      s.Asks [cloneRequest options.url path, switchRequest path branch create] [first, reply] t →
      CloneOutcome path options s first left
        ((reply.result (s.gitCall (some path) (switchRequest path branch create).2)).mapError
          (.checkout path branch)) t

namespace Work
variable {s : Session} {path : Path}

theorem checkout_eq (path : Path) (branch : String) (create : Bool) :
    Git.checkout branch create = (switchRequest path branch create).2 := by
  cases create <;> rfl

/-- Whether a clone has branches is asked of its files alone. -/
theorem run_hasNoHeads_of_files (h : s.workDir = some path) :
    (s.files.isDirectory (headsOf path) = false ∧
      ∃ cause, hasNoHeads.run s = (.error (.heads (headsOf path) cause), s)) ∨
    s.files.isDirectory (headsOf path) ∧ ∃ empty, hasNoHeads.run s = (.ok empty, s) ∧
      (empty = true ↔ ∀ name, ¬ s.files.HasEntry (headsOf path) name) := by
  rw [hasNoHeads, run_bind_boundDirectory, h]
  dsimp only
  rw [run_bind, run_onFiles, ← headsOf]
  rcases FileAction.run_entriesOf (headsOf path) s.files with
    ⟨hd,cause,hrun⟩ | ⟨hd,names,hrun,hnames⟩ <;> rw [hrun]
  · exact .inl ⟨hd,cause,rfl⟩
  · refine .inr ⟨hd,_,rfl,?_⟩
    rw [decide_eq_true_iff]
    exact FileAction.names_eq_nil hnames

theorem cloneInto_outcome (path : Path) (options : CloneOptions) (s : Session) :
    CloneOutcome path options s (s.gitReply none (Git.clone options.url path))
      (s.afterGit none (Git.clone options.url path)).files
      ((cloneInto path options).run s).1 ((cloneInto path options).run s).2 := by
  rw [cloneInto, run_bind, run_demand]
  rcases hr : (s.gitReply none (Git.clone options.url path)).result
    (s.gitCall none (Git.clone options.url path)) with cause | ⟨⟩
  · exact .refused hr ⟨rfl,rfl⟩
  have hs := Reply.result_eq_ok.mp hr
  dsimp only [Except.mapError]
  rw [run_bind, run_attach, ← cloned]
  rcases hb : options.branch with - | branch
  · exact .plain hs hb ⟨rfl,rfl⟩
  -- however it is decided whether the branch is made, the one call for it is left
  have switch (create : Bool) (hd : options.bootstrap = true →
      (cloned path options s).files.isDirectory (headsOf path)) (hc : create = true ↔
        options.bootstrap = true ∧
          ∀ name, ¬ (cloned path options s).files.HasEntry (headsOf path) name) :
      CloneOutcome path options s (s.gitReply none (Git.clone options.url path))
        (cloned path options s).files
        ((demand (.checkout path branch) (some path) (Git.checkout branch create)).run
          (cloned path options s)).1
        ((demand (.checkout path branch) (some path) (Git.checkout branch create)).run
          (cloned path options s)).2 := by
    rw [run_demand, checkout_eq path]
    exact .switched hs hb hd hc ⟨List.append_assoc ..,List.append_assoc ..⟩
  dsimp only
  rcases ho : options.bootstrap with - | -
  · simp only [Bool.false_eq_true, if_false, run_bind, run_pure]
    exact switch false (by simp [ho]) (by simp [ho])
  · simp only [if_true, run_bind]
    rcases run_hasNoHeads_of_files (s := cloned path options s) rfl with
      ⟨hd,cause,h⟩ | ⟨hd,create,h,hcreate⟩ <;> rw [h]
    · exact .unlisted hs hb ho hd ⟨rfl,rfl⟩
    · exact switch create (fun _ => hd) (by rw [hcreate, ho]; simp)

end Work

/-- Behind the clone there is the one call for the branch, and the result is what it came to. -/
def Switches (path : Path) (options : CloneOptions) (branch : String) (create : Bool) (s : Session)
    (first : Reply) (result : Except RepoError Unit) (t : Session) : Prop :=
  ∃ reply,
    s.Asks [cloneRequest options.url path, switchRequest path branch create] [first, reply] t ∧
    result = (reply.result (s.gitCall (some path) (switchRequest path branch create).2)).mapError
      (.checkout path branch)

namespace CloneOutcome
variable {path : Path} {options : CloneOptions} {s t : Session} {first : Reply} {left : FileSystem}
  {result : Except RepoError Unit} {branch : String} {create : Bool}

theorem of_refused (h : CloneOutcome path options s first left result t)
    (hf : first ≠ .succeeded) : s.Asks [cloneRequest options.url path] [first] t ∧ ∃ cause,
      first.result (s.gitCall none ["clone", options.url, path.text]) = .error cause ∧
        result = .error (.clone path cause) := by
  cases h with
  | refused hr ha => exact ⟨ha,_,hr,rfl⟩
  | plain hs => exact absurd hs hf
  | unlisted hs => exact absurd hs hf
  | switched hs => exact absurd hs hf

theorem of_branchless (h : CloneOutcome path options s first left result t)
    (hs : first = .succeeded) (hb : options.branch = none) :
    s.Asks [cloneRequest options.url path] [first] t ∧ result = .ok () := by
  cases h with
  | refused hr => exact absurd hs (Reply.ne_succeeded hr)
  | plain _ _ ha => exact ⟨ha,rfl⟩
  | unlisted _ hb' => cases hb.symm.trans hb'
  | switched _ hb' => cases hb.symm.trans hb'

theorem of_unlisted (h : CloneOutcome path options s first left result t)
    (hs : first = .succeeded) (hb : options.branch = some branch) (ho : options.bootstrap = true)
    (hd : left.isDirectory (headsOf path) = false) :
    s.Asks [cloneRequest options.url path] [first] t ∧
      ∃ cause, result = .error (.heads (headsOf path) cause) := by
  cases h with
  | refused hr => exact absurd hs (Reply.ne_succeeded hr)
  | plain _ hb' => cases hb.symm.trans hb'
  | unlisted _ _ _ _ ha => exact ⟨ha,_,rfl⟩
  | switched _ _ hd' => cases hd.symm.trans (hd' ho)

/-- Where the branches are not looked at or are listed, the branch is switched to. -/
theorem of_listed (h : CloneOutcome path options s first left result t)
    (hs : first = .succeeded) (hb : options.branch = some branch)
    (hd : options.bootstrap = true → left.isDirectory (headsOf path))
    (hc : create = true ↔
      options.bootstrap = true ∧ ∀ name, ¬ left.HasEntry (headsOf path) name) :
    Switches path options branch create s first result t := by
  cases h with
  | refused hr => exact absurd hs (Reply.ne_succeeded hr)
  | plain _ hb' => cases hb.symm.trans hb'
  | unlisted _ _ ho hd' => cases hd'.symm.trans (hd ho)
  | @switched branch' create' reply _ _ hb' _ hc' ha =>
    obtain rfl := Option.some.inj (hb.symm.trans hb')
    have hcreate : create = create' := Bool.eq_iff_iff.mpr (hc.trans hc'.symm)
    rw [hcreate]
    exact ⟨reply,ha,rfl⟩

theorem of_heads (h : CloneOutcome path options s first left result t) {heads : Path}
    {cause : IoError} (he : result = .error (.heads heads cause)) :
    options.branch ≠ none ∧ options.bootstrap = true := by
  cases h with
  | refused => cases he
  | plain => cases he
  | unlisted _ hb ho => exact ⟨by simp [hb],ho⟩
  | @switched _ _ reply _ _ _ _ _ =>
    generalize reply.result _ = answer at he
    cases answer <;> cases he

theorem succeeds (h : CloneOutcome path options s first left result t) : result = .ok () ↔
    (∃ answers, t.replies = s.replies ++ answers ∧ ∀ reply ∈ answers, reply = .succeeded) ∧
      (options.branch ≠ none → options.bootstrap = true → left.isDirectory (headsOf path)) := by
  have replies {asked answers} (ha : s.Asks asked answers t) :
      (∃ answers, t.replies = s.replies ++ answers ∧ ∀ reply ∈ answers, reply = .succeeded) ↔
        ∀ reply ∈ answers, reply = .succeeded := by
    rw [ha.replies]
    simp only [List.append_cancel_left_eq, exists_eq_left']
  cases h with
  | refused hr ha =>
    have hne := Reply.ne_succeeded hr
    rw [replies ha]
    simp [hne]
  | plain hs hb ha =>
    rw [replies ha]
    simp [hs, hb]
  | unlisted _ hb ho hd =>
    simp [hb, ho, hd]
  | @switched branch create reply _ hs hb hd _ ha =>
    rw [replies ha]
    rcases hr : reply.result (s.gitCall (some path) (switchRequest path branch create).2) with
      cause | ⟨⟩
    · have hne := Reply.ne_succeeded hr
      rw [mapError_error]
      simp [hne]
    · rw [mapError_ok]
      simpa [hs, Reply.result_eq_ok.mp hr] using fun _ => hd

end CloneOutcome

/-- What cloning into a directory that is there does from `s` to `t`: `first` is how the call for
the clone ended, and `left` are the files that it left. -/
structure CloneCalls (path : Path) (options : CloneOptions) (s : Session)
    (result : Except RepoError Unit) (t : Session) (first : Reply) (left : FileSystem) : Prop where
  answer : s.runner.answer s.calls (s.gitCall none ["clone", options.url, path.text]) s.files =
    (first, left)
  refused : first ≠ .succeeded → s.Asks [cloneRequest options.url path] [first] t ∧ ∃ cause,
    first.result (s.gitCall none ["clone", options.url, path.text]) = .error cause ∧
      result = .error (.clone path cause)
  plain : first = .succeeded → options.branch = none →
    s.Asks [cloneRequest options.url path] [first] t ∧ result = .ok ()
  direct : ∀ branch, first = .succeeded → options.branch = some branch →
    options.bootstrap = false → Switches path options branch false s first result t
  bare : ∀ branch, first = .succeeded → options.branch = some branch → options.bootstrap = true →
    left.isDirectory (headsOf path) → (∀ name, ¬ left.HasEntry (headsOf path) name) →
      Switches path options branch true s first result t
  used : ∀ branch, first = .succeeded → options.branch = some branch → options.bootstrap = true →
    left.isDirectory (headsOf path) → (∃ name, left.HasEntry (headsOf path) name) →
      Switches path options branch false s first result t
  unlisted : ∀ branch, first = .succeeded → options.branch = some branch →
    options.bootstrap = true → left.isDirectory (headsOf path) = false →
      s.Asks [cloneRequest options.url path] [first] t ∧
        ∃ cause, result = .error (.heads (headsOf path) cause)
  consulted : ∀ heads cause, result = .error (.heads heads cause) →
    options.branch ≠ none ∧ options.bootstrap = true
  succeeds : result = .ok () ↔
    (∃ answers, t.replies = s.replies ++ answers ∧ ∀ reply ∈ answers, reply = .succeeded) ∧
      (options.branch ≠ none → options.bootstrap = true → left.isDirectory (headsOf path))

theorem CloneOutcome.calls {path : Path} {options : CloneOptions} {s t : Session}
    {result : Except RepoError Unit} {first : Reply} {left : FileSystem}
    (h : CloneOutcome path options s first left result t)
    (ha : s.runner.answer s.calls (s.gitCall none ["clone", options.url, path.text]) s.files =
      (first, left)) : CloneCalls path options s result t first left where
  answer := ha
  refused := h.of_refused
  plain := h.of_branchless
  direct := by
    intro branch hs hb ho
    exact h.of_listed hs hb (by simp [ho]) (by simp [ho])
  bare := by
    intro branch hs hb ho hd hnone
    exact h.of_listed hs hb (fun _ => hd) (by simp [ho, hnone])
  used := by
    intro branch hs hb ho hd hsome
    apply h.of_listed hs hb (fun _ => hd)
    simpa using fun _ => hsome
  unlisted _ := h.of_unlisted
  consulted _ _ := h.of_heads
  succeeds := h.succeeds

theorem Work.cloneInto_calls (path : Path) (options : CloneOptions) (s : Session) :
    ∃ first left, CloneCalls path options s ((Work.cloneInto path options).run s).1
      ((Work.cloneInto path options).run s).2 first left :=
  ⟨_,_,(cloneInto_outcome path options s).calls rfl⟩

/-- Without a directory nothing is asked of `git`; with one, cloning does what its rules say. -/
theorem Work.clone_switches (options : CloneOptions) (s : Session) :
    (∀ path, match (FileAction.makePrivateDirectories path).run s.files with
      | (.error cause, files) => (Work.cloneIn path options).run s =
          (.error (.directory path cause), { s with files })
      | (.ok (), files) => ∃ first left, CloneCalls path options { s with files }
          ((Work.cloneIn path options).run s).1 ((Work.cloneIn path options).run s).2 first left) ∧
    ∀ stem, match (FileAction.makeTemporary s.temporary stem s.fresh).run s.files with
      | (.error cause, files) => (Work.cloneInTemporary stem options).run s =
          (.error (.temporary stem cause), { s with files })
      | (.ok (path, fresh), files) => ∃ result t first left,
          CloneCalls path options { s with files, fresh } result t first left ∧
            (Work.cloneInTemporary stem options).run s = (result.map fun _ => path, t) := by
  constructor
  · intro path
    rw [cloneIn, run_bind, run_onFiles]
    rcases (FileAction.makePrivateDirectories path).run s.files with ⟨cause | ⟨⟩,files⟩
    · rfl
    · exact cloneInto_calls path options { s with files }
  · intro stem
    rw [cloneInTemporary, run_bind, run_makeTemporary]
    rcases (FileAction.makeTemporary s.temporary stem s.fresh).run s.files with
      ⟨cause | ⟨path,fresh⟩,files⟩
    · rfl
    · obtain ⟨first,left,h⟩ := cloneInto_calls path options { s with files, fresh }
      refine ⟨_,_,first,left,h,?_⟩
      dsimp only
      rw [run_bind]
      rcases (cloneInto path options).run { s with files, fresh } with ⟨e | ⟨⟩,t⟩ <;> rfl

end GitPublish
