import GitPublish.Proofs.Keeping
import GitPublish.Proofs.Transcript

/-!
# Publishing with a session that was used before

A session may have made calls, and may work on a directory, which is there or not. Publishing does
not get to see any of this: it comes to the same as in a new session, whose commands go on from
where the others ended. What is worked on afterwards is the new clone, if there is one.
-/
namespace GitPublish

namespace Session

/-- A session that has done nothing yet. Its commands do what they would do next in the other. -/
def renewed (s : Session) : Session :=
  { s with
    runner := ⟨fun made => s.runner.answer (s.calls ++ made)⟩
    calls := []
    workDir := none
    replies := [] }

/-- What a session comes to that goes on as a new one has. -/
def resumed (s u : Session) : Session :=
  { u with
    runner := s.runner
    calls := s.calls ++ u.calls
    workDir := u.workDir.or s.workDir
    replies := s.replies ++ u.replies }

theorem resumed_renewed (s : Session) : s.resumed s.renewed = s := by
  simp [resumed, renewed]

theorem resumed_files (s u : Session) : (s.resumed u).files = u.files := rfl

structure Renews (s : Session) (P : Option Path → Prop) (u : Session) : Prop where
  runner : u.runner = s.renewed.runner
  workDir : P u.workDir

variable {s u : Session} {P : Option Path → Prop}

theorem Renews.gitReply (h : s.Renews P u) (dir : Option Path) (args : List String) :
    (s.resumed u).gitReply dir args = u.gitReply dir args := by
  rw [Session.gitReply, Session.gitReply, h.runner]
  rfl

theorem Renews.afterGit (h : s.Renews P u) (dir : Option Path) (args : List String) :
    (s.resumed u).afterGit dir args = s.resumed (u.afterGit dir args) := by
  unfold Session.afterGit
  rw [h.gitReply, h.runner]
  simp only [resumed, List.append_assoc]
  rfl

end Session

namespace Work
variable {α : Type} {s : Session} {P : Option Path → Prop}

/-- Work that does not see what a session was before. -/
abbrev Forgets (s : Session) (P : Option Path → Prop) (w : Work α) : Prop :=
  Unaware s.resumed (s.Renews P) w

theorem onFiles_forgets (failure : IoError → RepoError) (action : FileAction α) :
    Forgets s P (onFiles failure action) := by
  intro u hu
  rw [run_onFiles, run_onFiles]
  exact ⟨rfl,hu.runner,hu.workDir⟩

theorem demand_forgets (failure : RunError → RepoError) (dir : Option Path) (args : List String) :
    Forgets s P (demand failure dir args) := by
  intro u hu
  rw [run_demand, run_demand, hu.gitReply, hu.afterGit]
  exact ⟨rfl,hu.runner,hu.workDir⟩

theorem makeTemporary_forgets (stem : String) : Forgets s P (makeTemporary stem) := by
  intro u hu
  rw [run_makeTemporary, run_makeTemporary]
  rcases hm : (FileAction.makeTemporary u.temporary stem u.fresh).run u.files with
    ⟨cause | ⟨dir,fresh⟩,files⟩
  all_goals
    have hm' : (FileAction.makeTemporary (s.resumed u).temporary stem (s.resumed u).fresh).run
      (s.resumed u).files = _ := hm
    rw [hm']
    exact ⟨rfl,hu.runner,hu.workDir⟩

section bound
variable {dir : Path}

/-- What is worked on now is seen, and not what was worked on before. -/
theorem boundDirectory_forgets {f : Path → Work α} (hf : Forgets s (· = some dir) (f dir)) :
    Forgets s (· = some dir) (boundDirectory >>= f) := by
  intro u hu
  have hr : (s.resumed u).workDir = some dir := by rw [Session.resumed, hu.workDir]; rfl
  rw [run_bind_boundDirectory, run_bind_boundDirectory, hr, hu.workDir]
  exact hf u hu

theorem copyTree_forgets (source cloneDir subdir : Path) :
    Forgets s P (copyTree source cloneDir subdir) := by
  intro u hu
  rw [copyTree, run_bind, run_bind, run_get, run_get]
  dsimp only
  rw [Session.resumed_files]
  split
  · exact unaware_throw _ u hu
  · exact Unaware.mapM (fun file _ => (onFiles_forgets _ _).bind fun _ => unaware_pure _) u hu

theorem configure_forgets (place : Path) (key value : String) :
    Forgets s P (configure place key value) := by
  unfold configure
  split
  · exact unaware_pure ()
  · exact demand_forgets _ _ _

theorem record_forgets (place : Path) (message user email : String) :
    Forgets s P (record place message user email) :=
  (configure_forgets _ _ _).bind fun _ => (configure_forgets _ _ _).bind fun _ =>
    (demand_forgets _ _ _).bind fun _ => unaware_pure _

theorem commit_forgets (message user email : String) :
    Forgets s (· = some dir) (commit message user email) := by
  intro u hu
  have hr : (s.resumed u).workDir = some dir := by rw [Session.resumed, hu.workDir]; rfl
  rw [run_commit hr, run_commit hu.workDir, hu.gitReply, hu.afterGit]
  have hafter : s.Renews (· = some dir) (u.afterGit (some dir) Git.diff) := ⟨hu.runner,hu.workDir⟩
  cases u.gitReply (some dir) Git.diff with
  | succeeded => exact ⟨rfl,hafter⟩
  | notStarted => exact ⟨rfl,hafter⟩
  | exited => exact record_forgets dir message user email _ hafter

theorem finish_forgets (files : List Path) (outcome : CommitOutcome) :
    Forgets s (· = some dir) (finish files outcome) := by
  cases outcome with
  | nothingToCommit => exact unaware_pure _
  | committed =>
    exact (boundDirectory_forgets (demand_forgets _ _ _)).bind fun _ => unaware_pure _

theorem publishClone_forgets (request : PublishRequest) (subdir : Path) :
    Forgets s (· = some dir) (publishClone request dir subdir) := by
  rw [publishClone_eq]
  exact (copyTree_forgets _ _ _).bind fun files =>
    (boundDirectory_forgets (demand_forgets _ _ _)).bind fun _ =>
      (commit_forgets _ _ _).bind fun outcome => finish_forgets files outcome

theorem hasNoHeads_forgets : Forgets s (· = some dir) hasNoHeads :=
  boundDirectory_forgets ((onFiles_forgets _ _).bind fun _ => unaware_pure _)

/-- Switching to the branch, once there is a clone. -/
def switch (path : Path) (options : CloneOptions) : Work Unit :=
  match options.branch with
  | none => pure ()
  | some branch => do
    let create ← if options.bootstrap then hasNoHeads else pure false
    demand (.checkout path branch) (some path) (Git.checkout branch create)

theorem cloneInto_eq (path : Path) (options : CloneOptions) :
    cloneInto path options = (do
      demand (.clone path) none (Git.clone options.url path)
      attach path
      switch path options) := by
  unfold cloneInto switch
  rfl

theorem switch_forgets (options : CloneOptions) :
    Forgets s (· = some dir) (switch dir options) := by
  unfold switch
  split
  · exact unaware_pure ()
  · dsimp only
    split
    · exact hasNoHeads_forgets.bind fun _ => demand_forgets _ _ _
    · exact (unaware_pure false).bind fun _ => demand_forgets _ _ _

theorem delete_forgets : Forgets s (· = some dir) delete :=
  boundDirectory_forgets (f := fun dir => onFiles (.delete dir) (FileAction.removeTree dir))
    (onFiles_forgets _ _)

end bound

theorem cloneInto_forgets (path : Path) (options : CloneOptions) :
    Forgets s (fun _ => True) (cloneInto path options) := by
  rw [cloneInto_eq]
  refine (demand_forgets _ _ _).bind fun _ u hu => ?_
  rw [run_bind_ok (run_attach path _), run_bind_ok (run_attach path u)]
  -- only now is it looked up what is worked on, and that is the clone
  have h := switch_forgets options { u with workDir := some path } ⟨hu.runner,rfl⟩
  exact ⟨h.1,h.2.runner,trivial⟩

theorem cloneInTemporary_forgets (stem : String) (options : CloneOptions) :
    Forgets s (fun _ => True) (cloneInTemporary stem options) :=
  (makeTemporary_forgets stem).bind fun path => (cloneInto_forgets path options).bind fun _ =>
    unaware_pure path

theorem attempt_forgets {w : Work Unit} (hw : Forgets s P w) : Forgets s P (attempt w) := by
  intro u hu
  rw [run_attempt, run_attempt, (hw u hu).1]
  exact ⟨rfl,(hw u hu).2⟩

theorem discard_forgets (failure : RepoError) : Forgets s P (discard failure) := by
  unfold discard
  split
  · exact attempt_forgets (onFiles_forgets _ _)
  · exact unaware_pure ()

theorem cloneInTemporary_ok {stem : String} {options : CloneOptions} {dir : Path} {t : Session}
    (h : (cloneInTemporary stem options).run s = (.ok dir, t)) : t.workDir = some dir := by
  obtain ⟨path,u,-,h⟩ := ok_of_run_bind h
  obtain ⟨⟨⟩,v,hc,h⟩ := ok_of_run_bind h
  obtain ⟨hdir,rfl⟩ := Prod.mk.inj h
  rw [← Except.ok.inj hdir]
  exact (cloneInto_ok hc).2

theorem publish_forgets (request : PublishRequest) :
    Forgets s (fun _ => True) (publish request) := by
  intro u hu
  rw [run_publish, run_publish]
  rcases Location.validate request.url with cause | ⟨⟩
  · exact ⟨rfl,hu⟩
  rcases checkedSubdir request.subdir with e | subdir
  · exact ⟨rfl,hu⟩
  have hclone := cloneInTemporary_forgets (s := s) request.stem request.cloneOptions
  dsimp only
  rcases hc : (cloneInTemporary request.stem request.cloneOptions).run u with ⟨e | dir,t⟩
  -- what a failed clone leaves is found by the failure, and any other by what is worked on
  · have ht := hclone.holds hu hc
    have hd := discard_forgets e t ht
    rw [hclone.run_eq hu hc]
    dsimp only
    rw [hd.1]
    cases request.keep
    · exact ⟨rfl,hd.2⟩
    · exact ⟨rfl,ht⟩
  · have ht : s.Renews (· = some dir) t := ⟨(hclone.holds hu hc).runner,cloneInTemporary_ok hc⟩
    have hpublish : Forgets s (· = some dir) (publishClone request dir subdir) :=
      publishClone_forgets request subdir
    rw [hclone.run_eq hu hc]
    dsimp only
    rcases hp : (publishClone request dir subdir).run t with ⟨result,v⟩
    have hv := hpublish.holds ht hp
    have hd := attempt_forgets delete_forgets v hv
    rw [hpublish.run_eq ht hp]
    dsimp only
    rw [hd.1]
    cases request.keep
    · exact ⟨rfl,hd.2.runner,trivial⟩
    · exact ⟨rfl,hv.runner,trivial⟩

end Work

def Change.records : Change Session where
  allows s t := s.replies <+: t.replies
  refl _ := List.prefix_refl _
  trans := List.IsPrefix.trans

theorem absorbs_records : Absorbs .records :=
  ⟨fun _ _ _ => List.prefix_append _ _,fun _ _ _ => List.prefix_refl _⟩

namespace Work
variable {s : Session}

theorem cloneInto_records (path : Path) (options : CloneOptions) (s : Session) :
    s.replies ++ [s.gitReply none (Git.clone options.url path)] <+:
      ((cloneInto path options).run s).2.replies := by
  have h := cloneInto_cases path options s
  generalize ((cloneInto path options).run s).1 = result at h
  generalize ((cloneInto path options).run s).2 = t at h ⊢
  cases h with
  | refused | plain | unlisted => exact List.prefix_refl _
  | switched => exact List.prefix_append _ _

/-- The first reply is that of the clone, and decides what is worked on afterwards. -/
theorem publish_binds {request : PublishRequest} {subdir dir : Path} {fresh : List String}
    {files : FileSystem} (hl : Location.validate request.url = .ok ())
    (hs : checkedSubdir request.subdir = .ok subdir)
    (hm : (FileAction.makeTemporary s.temporary request.stem s.fresh).run s.files =
      (.ok (dir, fresh), files)) :
    ∃ reply, s.replies ++ [reply] <+: ((publish request).run s).2.replies ∧
      ((publish request).run s).2.workDir = if reply = .succeeded then some dir else s.workDir := by
  let start : Session := { s with files := files, fresh := fresh }
  refine ⟨start.gitReply none (Git.clone request.url dir),?_⟩
  have hrecords := cloneInto_records dir request.cloneOptions start
  have hworkDir := cloneInto_workDir dir request.cloneOptions start
  rcases hc : (cloneInto dir request.cloneOptions).run start with ⟨e | ⟨⟩,t⟩ <;>
    rw [hc] at hrecords hworkDir
  · obtain ⟨fs,hfiles⟩ := cleanup_allows request.keep (discard_within_files e) t
    rw [run_publish_uncloned hl hs hm hc, hfiles]
    exact ⟨hrecords,hworkDir⟩
  · have hmore := publishClone_within absorbs_records request dir subdir t
    have hkeeps := publishClone_within absorbs_keepsDirectory request dir subdir t
    rcases hp : (publishClone request dir subdir).run t with ⟨result,u⟩
    rw [hp] at hmore hkeeps
    obtain ⟨fs,hfiles⟩ := cleanup_allows request.keep (attempt_within delete_within_files) u
    rw [run_publish_cloned hl hs hm hc hp, hfiles]
    exact ⟨hrecords.trans hmore,hkeeps.trans hworkDir⟩

end Work

namespace PublishRequest
variable {r : PublishRequest} {dir : Path} {create : Bool} {files : List Path}

/-- Everything that is asked for behind the clone is asked for inside it. -/
theorem place_of_mem_tail {g : Stage} (h : g ∈ (r.script dir create files).tail) :
    g.place = some dir := by
  simp only [script, publishStages, cloneStages, List.cons_append, List.nil_append,
    List.tail_cons, List.mem_append, List.mem_cons, List.not_mem_nil, or_false, Option.mem_toList,
    Option.map_eq_some_iff] at h
  rcases h with ⟨branch,-,rfl⟩ | rfl | rfl | hrecord | rfl
  · rfl
  · rfl
  · rfl
  · exact place_of_mem_recordStages hrecord
  · rfl

theorem exists_clone {made : List Exchange} {reply : Reply} (hr : [reply] <+: made.map Prod.snd)
    (hs : made.map Prod.fst <+: r.script dir create files) :
    ∃ more, made = (.clone r.url dir, reply) :: more ∧ ∀ m ∈ more, m.1.place = some dir := by
  obtain ⟨⟨g,answer⟩,more,rfl⟩ := List.exists_cons_of_ne_nil (l := made) (by
    rintro rfl
    exact absurd (List.prefix_nil.mp hr) (by simp))
  obtain ⟨rfl,-⟩ := List.cons_prefix_cons.mp hr
  obtain ⟨rfl,hmore⟩ := List.cons_prefix_cons.mp hs
  refine ⟨more,rfl,fun m hm => ?_⟩
  have htail : m.1 ∈ (r.script dir create files).tail := hmore.subset (List.mem_map_of_mem hm)
  exact place_of_mem_tail htail

/-- Only the branches of the clone are listed. -/
theorem Ends.eq_headsOf {s t : Session} {heads : Path} {cause : IoError}
    {result : Except RepoError PublishOutcome} (h : r.Ends dir create files s result t)
    (he : result = .error (.heads heads cause)) : heads = Work.headsOf dir := by
  cases h with
  | halted h =>
    cases h with
    | @failed _ _ g => cases g <;> cases he
    | interrupted made _ _ _ _ hi =>
      generalize made.map Prod.fst = before at hi
      cases hi <;> cases he
      rfl
  | unchanged => cases he
  | pushed => cases he

end PublishRequest

/-- A run that keeps away from what was there before it, and what it leaves. -/
structure Apart (request : PublishRequest) (s : Session) (result : Except RepoError PublishOutcome)
    (t : Session) (dir : Path) (a : Address) (reply : Reply) (more : List Exchange) : Prop where
  made : ∃ fresh files, (FileAction.makeTemporary s.temporary request.stem s.fresh).run s.files =
    (.ok (dir, fresh), files)
  -- the path of the directory led nowhere, and nothing that was there is inside
  absent : s.files.isPresent dir = false
  leads : s.files.locate false dir = .ok a
  outside : ∀ b, s.files.get? b ≠ none → ¬ a <+: b
  makes : s.Makes ((.clone request.url dir, reply) :: more) t
  inside : ∀ m ∈ more, m.1.place = some dir
  unlisted : ∀ heads cause, result = .error (.heads heads cause) → heads = Work.headsOf dir
  workDir : t.workDir = if reply = .succeeded then some dir else s.workDir
  -- What is removed in the end is found where the path of the directory leads, unless it is to be
  -- kept. While this is where it led, nothing of what was there before is touched.
  removed : ∃ kept, (Work.publish { request with keep := true }).run s = (result, kept) ∧
    t.files = (if request.keep then kept.files
      else ((FileAction.removeTree dir).run kept.files).2) ∧
    kept.files.Loses dir t.files ∧
    (kept.files.locate false dir = .ok a → ∀ b, s.files.get? b ≠ none →
      t.files.get? b = kept.files.get? b)

theorem exists_apart {request : PublishRequest} {s : Session} {subdir dir : Path}
    {fresh : List String} {files : FileSystem} {a : Address} (ht : s.files.IsTree)
    (hl : Location.validate request.url = .ok ())
    (hs : Work.checkedSubdir request.subdir = .ok subdir)
    (hm : (FileAction.makeTemporary s.temporary request.stem s.fresh).run s.files =
      (.ok (dir, fresh), files)) (hv : s.files.Vacant dir a) :
    ∃ reply more, Apart request s ((Work.publish request).run s).1
      ((Work.publish request).run s).2 dir a reply more := by
  obtain ⟨create,staged,hcreate,hends⟩ := Work.publish_ends_of_made hl hs hm
  obtain ⟨made,hmade⟩ := transcript_of_ends ⟨fresh,files,hm⟩ hcreate hends
  obtain ⟨reply,hreply,hworkDir⟩ := Work.publish_binds hl hs hm
  rw [hmade.makes.replies] at hreply
  obtain ⟨more,rfl,hinside⟩ := PublishRequest.exists_clone
    ((List.prefix_append_right_inj _).mp hreply) hmade.inOrder
  obtain ⟨result,kept,hkept⟩ := Work.exists_disposed hl hs hm hv.endsInName
  have hrun : (Work.publish request).run s = _ := hkept request.keep
  have hloses : kept.files.Loses dir ((Work.publish request).run s).2.files := by
    rw [hrun]
    split
    · exact .refl _ _
    · exact FileSystem.loses_removeTree hv.absolute kept.files
  refine ⟨reply,more,⟨fresh,files,hm⟩,hv.isPresent_eq_false,hv.leads,
    fun b hb => hv.not_prefix ht hb,hmade.makes,hinside,fun _ _ => hends.eq_headsOf,hworkDir,
    kept,by rw [hrun, hkept true, if_pos rfl],by rw [hrun]; split <;> rfl,hloses,
    fun hleads b hb => ?_⟩
  -- whatever is taken away is found below where the path leads, and there was nothing there
  refine Classical.byContradiction fun hne => ?_
  obtain ⟨-,c,hc,hcb⟩ := hloses.gone b hne
  cases hleads.symm.trans hc
  exact hv.not_prefix ht hb hcb

/-- Publishing with a session that was used before comes to the same as with a new one, and goes on
from where that session was. It keeps away from what was worked on before: it is refused before
anything is done, or it makes a directory of its own. -/
theorem publish_afresh (request : PublishRequest) (s : Session) (ht : s.files.IsTree)
    (he : ∀ ending ∈ s.fresh, FileAction.IsEnding ending) :
    let used := (Work.publish request).run s
    let new := (Work.publish request).run s.renewed
    used.1 = new.1 ∧ used.2 = s.resumed new.2 ∧
      ((∃ e, used = (.error e, s)) ∨
        ∃ dir a reply more, Apart request s used.1 used.2 dir a reply more) := by
  intro used new
  have hused : used = (new.1, s.resumed new.2) := by
    have h := (Work.publish_forgets (s := s) request s.renewed ⟨rfl,trivial⟩).1
    rwa [s.resumed_renewed] at h
  refine ⟨by rw [hused],by rw [hused],?_⟩
  rcases Work.publish_starts request s with ⟨e,-,h⟩ | ⟨subdir,dir,fresh,files,hl,hs,hm⟩
  · exact .inl ⟨e,h request.keep⟩
  · obtain ⟨a,hv⟩ := FileAction.exists_vacant he hm
    obtain ⟨reply,more,h⟩ := exists_apart ht hl hs hm hv
    exact .inr ⟨dir,a,reply,more,h⟩

/-- A session that has worked on a directory, which is not there any more. -/
def usedSession : Session :=
  { idleSession with
    calls := [⟨"git", ["push"], some ⟨"/tmp/site-000000"⟩, []⟩]
    replies := [.exited (some 1) "rejected"]
    workDir := some ⟨"/tmp/site-000000"⟩ }

theorem publish_afresh_used :
    usedSession.files.IsTree ∧ (∀ ending ∈ usedSession.fresh, FileAction.IsEnding ending) ∧
    let used := (Work.publish outRequest).run usedSession
    let new := (Work.publish outRequest).run usedSession.renewed
    used.1 = new.1 ∧ used.2 = usedSession.resumed new.2 := by
  have ht : usedSession.files.IsTree := by decide
  have he : ∀ ending ∈ usedSession.fresh, FileAction.IsEnding ending := by decide
  have h := publish_afresh outRequest usedSession ht he
  exact ⟨ht,he,h.1,h.2.1⟩

end GitPublish
