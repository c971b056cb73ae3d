import GitPublish.Proofs.Client

/-!
# What a commit comes to

Committing asks first whether anything is staged. A clean exit means that nothing is, and ends it;
that the question could not be put is a failure; any other exit, by a code or by a signal, means
that something is staged. What is known of the author is set then, and the commit is made, up to the
first call that fails.
-/
namespace GitPublish

/-- What committing asks `git` for, word by word. What is not known of the author is not set. -/
def commitRequests (message user email : String) : List (List String) :=
  [["diff", "--cached", "--quiet"]] ++
    (if email = "" then [] else [["config", "user.email", email]]) ++
    (if user = "" then [] else [["config", "user.name", user]]) ++
    [["commit", "-m", message, "--author=" ++ user ++ " <" ++ email ++ ">"]]

/-- All calls went well but the last, which asked for a stage and failed for a cause. -/
def StoppedAt (g : Stage) (overrides : Environment) (made : List Exchange) (cause : RunError) :
    Prop :=
  ∃ before reply, made = before ++ [(g, reply)] ∧ (∀ m ∈ before, m.2 = .succeeded) ∧
    reply.result (g.call overrides) = .error cause

section stages
variable {g g' : Stage} {dir : Path} {message user email : String} {cause cause' : RunError}
  {overrides : Environment} {made : List Exchange}

theorem requests_eq (dir : Path) (message user email : String) :
    (Stage.diff dir :: recordStages dir message user email).map Stage.args =
      commitRequests message user email := by
  unfold recordStages configStages commitRequests
  by_cases he : email = "" <;> by_cases hu : user = "" <;> simp only [he, hu] <;> rfl

theorem passes_of_mem_recordStages (h : g ∈ recordStages dir message user email) (reply : Reply) :
    g.Passes reply ↔ reply = .succeeded := by
  rcases cases_of_mem_recordStages h with rfl | rfl | rfl <;> rfl

theorem failure_inj (h : g ∈ recordStages dir message user email)
    (h' : g' = .config dir "user.email" email ∨ g' = .config dir "user.name" user ∨
      g' = .commit dir message user email)
    (he : g.failure cause = g'.failure cause') : g = g' ∧ cause = cause' := by
  rcases cases_of_mem_recordStages h with rfl | rfl | rfl <;> rcases h' with rfl | rfl | rfl <;>
    simp_all [Stage.failure]

theorem StoppedAt.unique (h : StoppedAt g overrides made cause)
    (h' : StoppedAt g' overrides made cause') : g = g' ∧ cause = cause' := by
  obtain ⟨before,reply,hm,-,hr⟩ := h
  obtain ⟨before',reply',hm',-,hr'⟩ := h'
  obtain ⟨-,hlast⟩ := List.append_inj' (hm.symm.trans hm') rfl
  cases hlast
  exact ⟨rfl,Except.error.inj (hr.symm.trans hr')⟩

theorem StoppedAt.not_succeeded (h : StoppedAt g overrides made cause) :
    ¬ ∀ m ∈ made, m.2 = .succeeded := by
  obtain ⟨before,reply,rfl,-,hr⟩ := h
  intro hall
  exact Reply.ne_succeeded hr (hall (g, reply) (by simp))

end stages

/-- What committing can do, by how the first call ended: the calls behind it, and the result. -/
inductive CommitRun (dir : Path) (message user email : String) (overrides : Environment) :
    Reply → List Exchange → Except RepoError CommitOutcome → Prop
  | unchanged : CommitRun dir message user email overrides .succeeded [] (.ok .nothingToCommit)
  | unknown {cause : IoError} : CommitRun dir message user email overrides (.notStarted cause) []
      (.error (.diff (.notStarted ((Stage.diff dir).call overrides) cause)))
  | committed {code : Option Int} {output : String} {rest : List Exchange} :
      rest.map Prod.fst = recordStages dir message user email → (∀ m ∈ rest, m.2 = .succeeded) →
      CommitRun dir message user email overrides (.exited code output) rest (.ok .committed)
  | halted {code : Option Int} {output : String} {rest : List Exchange} {g : Stage}
      {cause : RunError} :
      rest.map Prod.fst <+: recordStages dir message user email →
      g ∈ recordStages dir message user email → StoppedAt g overrides rest cause →
      CommitRun dir message user email overrides (.exited code output) rest
        (.error (g.failure cause))

namespace CommitRun
variable {dir : Path} {message user email : String} {overrides : Environment} {first : Reply}
  {rest : List Exchange} {result : Except RepoError CommitOutcome}

theorem nothing_iff (h : CommitRun dir message user email overrides first rest result) :
    result = .ok .nothingToCommit ↔ first = .succeeded := by
  cases h <;> simp

theorem unknown_iff (h : CommitRun dir message user email overrides first rest result)
    (e : RunError) : result = .error (.diff e) ↔ ∃ cause, first = .notStarted cause ∧
      e = .notStarted ((Stage.diff dir).call overrides) cause := by
  cases h with
  | unchanged => simp
  | unknown => simp [eq_comm]
  | committed => simp
  | halted _ hg _ =>
    rcases cases_of_mem_recordStages hg with rfl | rfl | rfl <;> simp [Stage.failure]

theorem rest_eq_nil (h : CommitRun dir message user email overrides first rest result)
    (hf : ∀ code output, first ≠ .exited code output) : rest = [] := by
  cases h with
  | unchanged => rfl
  | unknown => rfl
  | committed => exact absurd rfl (hf _ _)
  | halted => exact absurd rfl (hf _ _)

theorem inOrder (h : CommitRun dir message user email overrides first rest result) :
    rest.map Prod.fst <+: recordStages dir message user email := by
  cases h with
  | unchanged => exact List.nil_prefix
  | unknown => exact List.nil_prefix
  | committed hs _ => exact hs ▸ List.prefix_refl _
  | halted hs _ _ => exact hs

theorem committed_iff (h : CommitRun dir message user email overrides first rest result) :
    result = .ok .committed ↔ (∃ code output, first = .exited code output) ∧
      rest.map Prod.fst = recordStages dir message user email ∧ ∀ m ∈ rest, m.2 = .succeeded := by
  cases h with
  | unchanged => simp
  | unknown => simp
  | committed hs hall => exact ⟨fun _ => ⟨⟨_,_,rfl⟩,hs,hall⟩,fun _ => rfl⟩
  | halted _ _ hstop => exact ⟨nofun,fun ⟨_,_,hall⟩ => absurd hall hstop.not_succeeded⟩

theorem stopped_iff (h : CommitRun dir message user email overrides first rest result) {g : Stage}
    (hg : g = .config dir "user.email" email ∨ g = .config dir "user.name" user ∨
      g = .commit dir message user email) (cause : RunError) :
    result = .error (g.failure cause) ↔ StoppedAt g overrides rest cause := by
  have hdiff : ∀ e, g.failure cause ≠ .diff e := by
    rcases hg with rfl | rfl | rfl <;> exact nofun
  cases h with
  | unchanged => simp [StoppedAt]
  | unknown => simpa [StoppedAt] using (hdiff _).symm
  | committed _ hall => exact ⟨nofun,fun hstop => absurd hall hstop.not_succeeded⟩
  | halted _ hg' hstop =>
    constructor
    · intro he
      obtain ⟨rfl,rfl⟩ := failure_inj hg' hg (Except.error.inj he)
      exact hstop
    · intro hstop'
      obtain ⟨rfl,rfl⟩ := hstop.unique hstop'
      rfl

end CommitRun

namespace Work
variable {s : Session} {dir : Path}

/-- Behind the first call, committing makes the calls of its stages up to the first that fails. -/
theorem record_run (dir : Path) (message user email : String) (s : Session) (code : Option Int)
    (output : String) : ∃ rest, s.Makes rest ((record dir message user email).run s).2 ∧
      CommitRun dir message user email s.overrides (.exited code output) rest
        ((record dir message user email).run s).1 := by
  have hf := record_follows (fun _ _ => False) (s := s) dir message user email
  -- behind the first call every stage that passes has succeeded: only `diff` may exit otherwise
  have succeeded {made : List Exchange} {after : List Stage}
      (hs : made.map Prod.fst ++ after = recordStages dir message user email)
      (hp : ∀ m ∈ made, m.1.Passes m.2) : ∀ m ∈ made, m.2 = .succeeded := by
    intro m hm
    have hmem : m.1 ∈ recordStages dir message user email := by
      rw [← hs]
      exact List.mem_append_left _ (List.mem_map_of_mem hm)
    exact (passes_of_mem_recordStages hmem m.2).mp (hp m hm)
  rcases hrun : (record dir message user email).run s with ⟨e | outcome, t⟩
  · cases hf.halted hrun with
    | @failed made after g reply cause _ hm hs hp _ hr =>
      refine ⟨_,hm,.halted ?_ ?_ ⟨made,reply,rfl,succeeded hs hp,hr⟩⟩
      · rw [← hs, List.map_append]
        exact ⟨after,by simp⟩
      · rw [← hs]
        simp
    | interrupted _ _ _ _ _ hi => exact hi.elim
  · obtain ⟨made,hm,hs,hp⟩ := hf.passed hrun
    rw [record_ok hrun]
    exact ⟨made,hm,.committed hs (succeeded (by rw [hs, List.append_nil]) hp)⟩

theorem commit_run (h : s.workDir = some dir) (message user email : String) :
    ∃ rest, s.Makes ((.diff dir, s.gitReply (some dir) Git.diff) :: rest)
        ((commit message user email).run s).2 ∧
      CommitRun dir message user email s.overrides (s.gitReply (some dir) Git.diff) rest
        ((commit message user email).run s).1 := by
  have hfirst := s.makes_afterGit (.diff dir)
  have hreply : s.gitReply (Stage.diff dir).place (Stage.diff dir).args =
      s.gitReply (some dir) Git.diff := rfl
  rw [hreply] at hfirst
  rw [run_commit h]
  rcases hr : s.gitReply (some dir) Git.diff with - | ⟨code,output⟩ | cause <;> rw [hr] at hfirst
  · exact ⟨[],hfirst,.unchanged⟩
  · obtain ⟨rest,hm,hrun⟩ := record_run dir message user email (s.afterGit (some dir) Git.diff)
      code output
    exact ⟨rest,hfirst.append hm,hrun⟩
  · exact ⟨[],hfirst,.unknown⟩

end Work

/-- What committing does from `s` to `t`: how the first call ended, and which calls were made behind
it, tell the result, and the result tells them. -/
structure CommitOutcomes (dir : Path) (message user email : String) (s : Session)
    (result : Except RepoError CommitOutcome) (t : Session) (first : Reply)
    (rest : List Exchange) : Prop where
  calls : ∃ asked, asked <+: commitRequests message user email ∧ t.calls = s.calls ++
    asked.map fun args => { command := "git", args, dir := some dir, environment := s.overrides }
  makes : s.Makes ((.diff dir, first) :: rest) t
  answer : first = s.gitReply (some dir) Git.diff
  nothing : result = .ok .nothingToCommit ↔ first = .succeeded
  unknown : ∀ e, result = .error (.diff e) ↔ ∃ cause, first = .notStarted cause ∧
    e = .notStarted ((Stage.diff dir).call s.overrides) cause
  -- only if the first call exits otherwise, another one is made
  alone : (∀ code output, first ≠ .exited code output) → rest = []
  committed : result = .ok .committed ↔ (∃ code output, first = .exited code output) ∧
    rest.map Prod.fst = recordStages dir message user email ∧ ∀ m ∈ rest, m.2 = .succeeded
  emailFailed : ∀ cause, result = .error (.config "user.email" cause) ↔
    StoppedAt (.config dir "user.email" email) s.overrides rest cause
  nameFailed : ∀ cause, result = .error (.config "user.name" cause) ↔
    StoppedAt (.config dir "user.name" user) s.overrides rest cause
  commitFailed : ∀ cause, result = .error (.commit cause) ↔
    StoppedAt (.commit dir message user email) s.overrides rest cause
  results : result = .ok .nothingToCommit ∨ result = .ok .committed ∨ ∃ cause,
    result = .error (.diff cause) ∨ result = .error (.config "user.email" cause) ∨
      result = .error (.config "user.name" cause) ∨ result = .error (.commit cause)

namespace CommitRun
variable {dir : Path} {message user email : String} {overrides : Environment} {first : Reply}
  {rest : List Exchange} {result : Except RepoError CommitOutcome}

theorem results (h : CommitRun dir message user email overrides first rest result) :
    result = .ok .nothingToCommit ∨ result = .ok .committed ∨ ∃ cause,
      result = .error (.diff cause) ∨ result = .error (.config "user.email" cause) ∨
        result = .error (.config "user.name" cause) ∨ result = .error (.commit cause) := by
  cases h with
  | unchanged => exact .inl rfl
  | unknown => exact .inr (.inr ⟨_,.inl rfl⟩)
  | committed => exact .inr (.inl rfl)
  | halted _ hg _ =>
    apply Or.inr
    apply Or.inr
    rcases cases_of_mem_recordStages hg with rfl | rfl | rfl
    · exact ⟨_,.inr (.inl rfl)⟩
    · exact ⟨_,.inr (.inr (.inl rfl))⟩
    · exact ⟨_,.inr (.inr (.inr rfl))⟩

theorem calls {s t : Session} (h : CommitRun dir message user email s.overrides first rest result)
    (hm : s.Makes ((.diff dir, first) :: rest) t) :
    ∃ asked, asked <+: commitRequests message user email ∧ t.calls = s.calls ++
      asked.map fun args =>
        { command := "git", args, dir := some dir, environment := s.overrides } := by
  have hplace : ∀ m ∈ (Stage.diff dir, first) :: rest, m.1.place = some dir := by
    intro m hmem
    rcases List.mem_cons.mp hmem with rfl | hmem
    · rfl
    · exact place_of_mem_recordStages (h.inOrder.subset (List.mem_map_of_mem hmem))
  refine ⟨((Stage.diff dir, first) :: rest).map (fun m => m.1.args),?_,?_⟩
  · rw [← requests_eq dir, List.map_cons, List.map_cons, List.prefix_cons_inj]
    have hmap := h.inOrder.map Stage.args
    rwa [List.map_map] at hmap
  · rw [hm.calls, List.map_map]
    congr 1
    apply List.map_congr_left
    intro m hmem
    simp only [Stage.call, hplace m hmem, Function.comp_apply]

end CommitRun

/-- Whatever `git` answers, a commit in a clone comes to what the answers say. -/
theorem Work.commit_outcomes (message user email : String) {s : Session} {dir : Path}
    (h : s.workDir = some dir) : ∃ first rest, CommitOutcomes dir message user email s
      ((Work.commit message user email).run s).1 ((Work.commit message user email).run s).2
      first rest := by
  obtain ⟨rest,hm,hrun⟩ := commit_run h message user email
  exact ⟨_,rest,
    { calls := hrun.calls hm
      makes := hm
      answer := rfl
      nothing := hrun.nothing_iff
      unknown := hrun.unknown_iff
      alone := hrun.rest_eq_nil
      committed := hrun.committed_iff
      emailFailed := hrun.stopped_iff (.inl rfl)
      nameFailed := hrun.stopped_iff (.inr (.inl rfl))
      commitFailed := hrun.stopped_iff (.inr (.inr rfl))
      results := hrun.results }⟩

/-- A session in a clone in which something is staged, where every further call is killed. -/
def stagedSession : Session where
  runner := ⟨fun before _ fs => (if before = [] then .exited (some 1) "" else .exited none "", fs)⟩
  overrides := []
  temporary := ⟨"/tmp"⟩
  fresh := []
  files := ⟨[(["clone"], .directory 0o755)],[],by decide⟩
  calls := []
  workDir := some ⟨"/clone"⟩

/-- Without an email the name is set first, and it is the name that the failure is about. -/
theorem Work.commit_outcomes_killed : stagedSession.workDir = some ⟨"/clone"⟩ ∧
    (∃ first rest, CommitOutcomes ⟨"/clone"⟩ "update" "bot" "" stagedSession
      ((Work.commit "update" "bot" "").run stagedSession).1
      ((Work.commit "update" "bot" "").run stagedSession).2 first rest) ∧
    ((Work.commit "update" "bot" "").run stagedSession).1 = .error (.config "user.name"
      (.exited ⟨"git",["config", "user.name", "bot"],some ⟨"/clone"⟩,[]⟩ none "")) ∧
    ((Work.commit "update" "bot" "").run stagedSession).2.calls =
      [⟨"git",["diff", "--cached", "--quiet"],some ⟨"/clone"⟩,[]⟩,
        ⟨"git",["config", "user.name", "bot"],some ⟨"/clone"⟩,[]⟩] :=
  ⟨rfl,Work.commit_outcomes "update" "bot" "" rfl,by rfl,by rfl⟩

end GitPublish
