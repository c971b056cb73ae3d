import GitPublish.Proofs.Acceptance
import GitPublish.Proofs.Keeping

/-!
# What the program says about a failure

When a call fails, publishing ends, and its failure carries what the call came to up to the last
line of the program: the hint tells the kind of exactly this failure. All other failures come
without a hint, since nothing is known of them but what they say.
-/
namespace GitPublish

open CommandLine (PushArguments)

namespace Reply

/-- Whether a call has failed that ends like this. What is staged is asked for by the exit code. -/
def Fails (call : Call) : Reply → Prop
  | succeeded => False
  | exited .. => call.args ≠ Git.diff
  | notStarted _ => True

/-- The kind of failure that a reply tells of: by the error output, or by what is in the way. -/
def kind? : Reply → Option FailureKind
  | succeeded => none
  | exited _ output => some (.ofOutput output)
  | notStarted cause => some (match cause.kind with
    | .permissionDenied => .permission
    | .notFound => .notFound
    | _ => .unknown)

theorem kind?_of_result {reply : Reply} {call : Call} {cause : RunError}
    (h : reply.result call = .error cause) : reply.kind? = some cause.failureKind := by
  cases reply <;> cases h <;> rfl

end Reply

namespace Stage

theorem args_eq_diff {g : Stage} : g.args = Git.diff ↔ ∃ dir, g = .diff dir := by
  cases g <;> simp [args, Git.clone, Git.checkout, Git.add, Git.diff, Git.config, Git.commit,
    Git.push]

/-- A stage at which work ends is one whose call has failed, unless nothing was staged. -/
theorem fails_iff {g : Stage} {reply : Reply} {overrides : Environment} :
    reply.Fails (g.call overrides) ↔ ¬ g.Passes reply ∧ reply ≠ .succeeded := by
  cases reply with
  | succeeded => simp [Reply.Fails]
  | exited code output =>
    have hpasses : g.Passes (.exited code output) ↔ ∃ dir, g = .diff dir := by
      cases g <;> simp [Passes]
    simp [Reply.Fails, call, hpasses, args_eq_diff]
  | notStarted cause => cases g <;> simp [Reply.Fails, Passes]

theorem runError?_failure (g : Stage) (cause : RunError) :
    (g.failure cause).runError? = some cause := by
  cases g <;> rfl

end Stage

def Session.exchanges (s : Session) : List (Call × Reply) := s.calls.zip s.replies

/-- All calls went well, or only the last did not, and the failure is about this one. -/
inductive Blames {α : Type} : Except RepoError α → List (Call × Reply) → Prop
  | nothing {result : Except RepoError α} {exchanges : List (Call × Reply)} :
      (∀ e, result = .error e → e.runError? = none) →
      (∀ x ∈ exchanges, ¬ x.2.Fails x.1) → Blames result exchanges
  | last {before : List (Call × Reply)} {call : Call} {reply : Reply} {cause : RunError}
      {e : RepoError} :
      (∀ x ∈ before, ¬ x.2.Fails x.1) → reply.Fails call → reply.result call = .error cause →
      e.runError? = some cause → Blames (.error e) (before ++ [(call, reply)])

namespace PublishRequest
variable {r : PublishRequest} {dir : Path} {create : Bool} {files : List Path} {s t : Session}

theorem exchanges_of_makes {made : List Exchange} (hc : s.calls = []) (hr : s.replies = [])
    (h : s.Makes made t) : t.exchanges = made.map fun m => (m.1.call s.overrides, m.2) := by
  rw [Session.exchanges, h.calls, h.replies, hc, hr, List.nil_append, List.nil_append,
    List.zip_map']

theorem not_fails_of_passes {made : List Exchange} (hp : ∀ m ∈ made, m.1.Passes m.2) :
    ∀ x ∈ made.map fun m => (m.1.call s.overrides, m.2), ¬ x.2.Fails x.1 := by
  intro x hx
  obtain ⟨m,hm,rfl⟩ := List.mem_map.mp hx
  exact fun h => (Stage.fails_iff.mp h).1 (hp m hm)

theorem Interrupts.runError? {before : List Stage} {e : RepoError}
    (h : r.Interrupts dir create before e) : e.runError? = none := by
  cases h <;> rfl

theorem Ends.blames {result : Except RepoError PublishOutcome} (hc : s.calls = [])
    (hr : s.replies = []) (h : r.Ends dir create files s result t) :
    Blames result t.exchanges := by
  cases h with
  | halted h =>
    cases h with
    | @failed made _ g reply cause _ hm _ hp hg hreply =>
      rw [exchanges_of_makes hc hr hm, List.map_append]
      exact .last (not_fails_of_passes hp)
        (Stage.fails_iff.mpr ⟨hg,Reply.ne_succeeded hreply⟩) hreply (g.runError?_failure cause)
    | interrupted _ _ hm _ hp hi =>
      rw [exchanges_of_makes hc hr hm]
      refine .nothing (fun e he => ?_) (not_fails_of_passes hp)
      rw [← Except.error.inj he]
      exact hi.runError?
  | @unchanged made _ hm _ hp =>
    rw [exchanges_of_makes hc hr hm, List.map_append]
    refine .nothing nofun fun x hx => ?_
    rcases List.mem_append.mp hx with hx | hx
    · exact not_fails_of_passes hp x hx
    · rw [List.mem_singleton.mp hx]
      exact id
  | pushed h =>
    obtain ⟨made,hm,-,hp⟩ := h
    rw [exchanges_of_makes hc hr hm]
    exact .nothing nofun (not_fails_of_passes hp)

end PublishRequest

theorem Work.publish_blames (request : PublishRequest) {s : Session} (hc : s.calls = [])
    (hr : s.replies = []) :
    Blames ((publish request).run s).1 ((publish request).run s).2.exchanges := by
  rcases publish_starts request s with ⟨e,he,h⟩ | ⟨subdir,dir,fresh,files,hl,hs,hm⟩
  · have hrun : (publish request).run s = _ := h request.keep
    rw [hrun]
    refine .nothing (fun e' heq => ?_) (by simp [Session.exchanges, hc])
    rwa [← Except.error.inj heq]
  · obtain ⟨create,staged,-,h⟩ := publish_ends_of_made hl hs hm
    exact h.blames hc hr

def Report.isTrouble : Report → Bool
  | .failure _ | .hint _ => true
  | _ => false

namespace Job
variable {m : Machine} {args : PushArguments} {result result' : Except RepoError PublishOutcome}
  {t t' : Session}

/-- Publishing starts, and comes to a result. -/
def Reaches (m : Machine) (args : PushArguments) (result : Except RepoError PublishOutcome)
    (t : Session) : Prop :=
  ∃ path c source key, m.config? = .ok (path, c) ∧ Accepts m c args source key ∧
    (Work.publish (request c args source)).run (sessionOf key { machine := m }) = (result, t)

theorem Reaches.unique (h : Reaches m args result t) (k : Reaches m args result' t') :
    result = result' ∧ t = t' := by
  obtain ⟨path,c,source,key,hc,ha,h⟩ := h
  obtain ⟨path',c',source',key',hc',ha',k⟩ := k
  cases hc.symm.trans hc'
  cases ha.expanded.symm.trans ha'.expanded
  cases ha.key.symm.trans ha'.key
  exact Prod.mk.inj (h.symm.trans k)

theorem Reaches.blames (h : Reaches m args result t) : Blames result t.exchanges := by
  obtain ⟨path,c,source,key,-,-,h⟩ := h
  have hb := Work.publish_blames (s := sessionOf key { machine := m }) (request c args source) rfl
    rfl
  rwa [h] at hb

/-- The run ends at a call that fails, and no call has failed before. -/
def EndedBy (m : Machine) (args : PushArguments) (call : Call) (reply : Reply) : Prop :=
  ∃ e t before, Reaches m args (.error e) t ∧ t.exchanges = before ++ [(call, reply)] ∧
    (∀ x ∈ before, ¬ x.2.Fails x.1) ∧ reply.Fails call

theorem Reaches.endedBy (h : Reaches m args result t) {x : Call × Reply} (hx : x ∈ t.exchanges)
    (hf : x.2.Fails x.1) : EndedBy m args x.1 x.2 := by
  have hb := h.blames
  generalize hlist : t.exchanges = exchanges at hb hx
  cases hb with
  | nothing _ hnone => exact absurd hf (hnone x hx)
  | last hbefore hcall =>
    rcases List.mem_append.mp hx with hx | hx
    · exact absurd hf (hbefore x hx)
    · rw [List.mem_singleton.mp hx]
      exact ⟨_,t,_,h,hlist,hbefore,hcall⟩

/-- The kind of failure that publishing comes to is that of the call it ends at. -/
theorem Reaches.kind_iff (h : Reaches m args result t) (kind : FailureKind) :
    (∃ e, result = .error e ∧ e.failureKind? = some kind) ↔
      ∃ call reply, EndedBy m args call reply ∧ reply.kind? = some kind := by
  have hb := h.blames
  generalize hlist : t.exchanges = exchanges at hb
  have ended {call : Call} {reply : Reply} (he : EndedBy m args call reply) :
      (∃ before, exchanges = before ++ [(call, reply)]) ∧ reply.Fails call := by
    obtain ⟨e,t',before,hr,hlast,-,hf⟩ := he
    obtain ⟨-,rfl⟩ := h.unique hr
    exact ⟨⟨before,hlist.symm.trans hlast⟩,hf⟩
  cases hb with
  | nothing hnone hpass =>
    constructor
    · rintro ⟨e,he,hk⟩
      rw [RepoError.failureKind?, hnone e he] at hk
      cases hk
    · rintro ⟨call,reply,he,-⟩
      obtain ⟨⟨before,rfl⟩,hf⟩ := ended he
      exact absurd hf (hpass _ (List.mem_append_right _ (List.mem_singleton_self _)))
  | @last before call reply cause e hpass hcall hresult hcause =>
    have hkind : e.failureKind? = reply.kind? := by
      rw [RepoError.failureKind?, hcause, Reply.kind?_of_result hresult]
      rfl
    constructor
    · rintro ⟨e',he,hk⟩
      rw [← Except.error.inj he, hkind] at hk
      exact ⟨call,reply,⟨e,t,before,h,hlist,hpass,hcall⟩,hk⟩
    · rintro ⟨call',reply',he,hk⟩
      obtain ⟨⟨before',hsame⟩,-⟩ := ended he
      obtain ⟨-,hlast⟩ := List.append_inj' hsame rfl
      obtain ⟨-,rfl⟩ := Prod.mk.inj (List.singleton_inj.mp hlast)
      exact ⟨e,rfl,hkind.trans hk⟩

theorem pushWith_of_accepts {c : Config} {source : Path} {key : Option Path} {s : Running}
    (h : Accepts s.machine c args source key) :
    (pushWith c args).run s = (publishing key (request c args source)).run s := by
  have hauthor : ((request c args source).user = "" || (request c args source).email = "") =
      false :=
    Bool.or_eq_false_iff.mpr ⟨decide_eq_false h.user,decide_eq_false h.email⟩
  have hkey : ({ c with privateKey := args.sshKey.or c.privateKey }.keyPath? s.machine.home?) =
      .ok key := h.key
  unfold pushWith
  simp only [run_bind, run_ofResult, h.location, mapError_ok, run_home?, h.expanded, hkey, run_get,
    h.directory, hauthor, h.git, Bool.not_true, Bool.false_eq_true, if_false, publishing]
  rfl

theorem isTrouble_outcomeReports {request : PublishRequest} {outcome : PublishOutcome} :
    ∀ r ∈ outcomeReports request outcome, r.isTrouble = false := by
  intro r hr
  simp only [outcomeReports, List.mem_append, List.mem_map, List.mem_singleton] at hr
  rcases hr with (⟨file,-,rfl⟩ | rfl) | hr
  · rfl
  · split <;> rfl
  · split at hr
    · rw [List.mem_singleton.mp hr]
      rfl
    · cases hr

inductive PushRun (m : Machine) (args : PushArguments) : Except Failure Unit → Running → Prop
  | refused {failure : Failure} {s : Running} : (∀ result t, ¬ Reaches m args result t) →
      failure.kind? = none → s.reports = [] → s.calls = [] → PushRun m args (.error failure) s
  | failed {url : String} {e : RepoError} {t : Session} {s : Running} :
      Reaches m args (.error e) t → (∀ r ∈ s.reports, r.isTrouble = false) → s.calls = t.calls →
      PushRun m args (.error (.publish url e)) s
  | published {outcome : PublishOutcome} {t : Session} {s : Running} :
      Reaches m args (.ok outcome) t → (∀ r ∈ s.reports, r.isTrouble = false) →
      s.calls = t.calls → PushRun m args (.ok ()) s

theorem push_cases (m : Machine) (args : PushArguments) :
    PushRun m args ((push args).run { machine := m }).1 ((push args).run { machine := m }).2 := by
  rw [run_push]
  dsimp only
  rcases hconfig : m.config? with cause | ⟨path,c⟩
  · refine .refused ?_ rfl rfl rfl
    rintro result t ⟨_,_,_,_,hc,-⟩
    cases hconfig.symm.trans hc
  dsimp only
  by_cases ha : ∃ source key, Accepts m c args source key
  · obtain ⟨source,key,ha⟩ := ha
    rw [pushWith_of_accepts (s := { machine := m }) ha, run_publishing]
    rcases hp : (Work.publish (request c args source)).run (sessionOf key { machine := m }) with
      ⟨e | outcome,t⟩
    · exact .failed ⟨path,c,source,key,hconfig,ha,hp⟩ (by simp [leftBy, Report.isTrouble]) rfl
    · refine .published ⟨path,c,source,key,hconfig,ha,hp⟩ ?_ rfl
      intro r hr
      rcases List.mem_cons.mp hr with rfl | hr
      · rfl
      · exact isTrouble_outcomeReports r hr
  · rcases pushWith_cases c args { machine := m } with ⟨⟨e,hrun,hkind⟩,-⟩ | ⟨source,key,h,-⟩
    · rw [hrun]
      refine .refused ?_ hkind rfl rfl
      rintro result t ⟨_,_,source,key,hc,h,-⟩
      cases hconfig.symm.trans hc
      exact ha ⟨source,key,h⟩
    · exact absurd ⟨source,key,h⟩ ha

structure Diagnosis (m : Machine) (args : PushArguments) (v : Verbosity) (colour : Bool)
    (run : Finished) : Prop where
  succeeds : run.exitCode = 0 ↔ ∃ outcome t, Reaches m args (.ok outcome) t
  fails : run.exitCode ≠ 0 → run.exitCode = 1
  calls : ∀ result t, Reaches m args result t → run.calls = t.calls
  uncalled : (∀ result t, ¬ Reaches m args result t) → run.calls = []
  ended : ∀ result t, Reaches m args result t → ∀ x ∈ t.exchanges, x.2.Fails x.1 →
    EndedBy m args x.1 x.2
  -- a run that fails says why, once and in the end, and gives a hint behind it if and only if it
  -- ended at a call: the hint for what this call came to
  said : ∃ status text told, (∀ r ∈ status, r.isTrouble = false) ∧
    run.errors = shown v colour false status ++ (if run.exitCode = 0 then ""
      else Report.line colour (.failure text) ++ hintLine colour told) ∧
    ∀ kind, told = some kind ↔ ∃ call reply, EndedBy m args call reply ∧ reply.kind? = some kind

/-- However commands end, a run that is to publish says what it came to: its exit code tells whether
it was published, and a hint is given if and only if a call failed, for this call. -/
theorem push_diagnoses (m : Machine) (colour : Bool) (words : List String)
    (i : CommandLine.Invocation) (args : PushArguments)
    (hparse : CommandLine.parse m.environment words = .ok i) (hpush : i.command = .push args) :
    Diagnosis m args i.verbosity colour (runProgram m colour words) := by
  have hfollow : follow i.command = push args := by rw [hpush]; rfl
  have hcases := push_cases m args
  rcases hrun : (push args).run { machine := m } with ⟨ending,s⟩
  rw [hrun] at hcases
  rw [← hfollow] at hrun
  cases hcases with
  | @refused failure _ hnone hkind hreports hcalls =>
    rw [runProgram_of_error hparse colour hrun]
    refine ⟨⟨nofun,fun ⟨_,t,h⟩ => absurd h (hnone _ t)⟩,fun _ => rfl,
      fun result t h => absurd h (hnone result t),fun _ => hcalls,
      fun result t h => absurd h (hnone result t),[],": ".intercalate failure.chain,none,nofun,
      by rw [hreports, hkind]; rfl,fun kind => ⟨nofun,?_⟩⟩
    rintro ⟨_,_,⟨e,t,_,h,-⟩,-⟩
    exact absurd h (hnone _ t)
  | @failed url e t _ h hstatus hcalls =>
    rw [runProgram_of_error hparse colour hrun]
    refine ⟨⟨nofun,fun ⟨outcome,t',k⟩ => nomatch (h.unique k).1⟩,fun _ => rfl,fun result t' k => ?_,
      fun hnone => absurd h (hnone _ t),fun result t' k x => k.endedBy,
      s.reports,_,e.failureKind?,hstatus,rfl,fun kind => ?_⟩
    · rw [← (h.unique k).2]
      exact hcalls
    · rw [← h.kind_iff kind]
      exact ⟨fun hk => ⟨e,rfl,hk⟩,fun ⟨_,he,hk⟩ => Except.error.inj he ▸ hk⟩
  | @published outcome t _ h hstatus hcalls =>
    rw [runProgram_of_ok hparse colour hrun]
    refine ⟨⟨fun _ => ⟨outcome,t,h⟩,fun _ => rfl⟩,nofun,fun result t' k => ?_,
      fun hnone => absurd h (hnone _ t),fun result t' k x => k.endedBy,
      s.reports,"",none,hstatus,by simp,fun kind => ?_⟩
    · rw [← (h.unique k).2]
      exact hcalls
    · rw [← h.kind_iff kind]
      exact ⟨nofun,fun ⟨_,he,_⟩ => nomatch he⟩

/-- A machine on which there is nothing to clone. -/
def missingMachine : Machine :=
  { siteMachine with
    runner := ⟨fun _ _ fs => (.exited (some 128) "not found", fs)⟩ }

theorem reaches_missing : ∃ t, Reaches missingMachine siteArguments
    (.error (.clone ⟨"/tmp/gitwrite-a1b2c3"⟩ (.exited
      ⟨"git", ["clone", "git@example.org:site", "/tmp/gitwrite-a1b2c3"], none, []⟩ (some 128)
      "not found"))) t := by
  obtain ⟨hconfig,ha⟩ := accepts_site
  let session := sessionOf none { machine := missingMachine }
  let request := request {} siteArguments ⟨"/site"⟩
  have hmade : (FileAction.makeTemporary session.temporary request.stem session.fresh).run
      session.files = (.ok (⟨"/tmp/gitwrite-a1b2c3"⟩, []), _) :=
    FileAction.run_makeTemporary_tmp "gitwrite-a1b2c3" (by decide) (by decide) (by decide)
      (by decide) (by decide) (by decide) []
  have hsubdir : Work.checkedSubdir request.subdir = .ok ⟨""⟩ := by rfl
  have haccepts : Accepts missingMachine {} siteArguments ⟨"/site"⟩ none :=
    ⟨ha.location,ha.expanded,ha.key,ha.directory,ha.user,ha.email,ha.git⟩
  exact ⟨_,⟨"/gitwrite.toml"⟩,{},⟨"/site"⟩,none,hconfig,haccepts,
    Work.run_publish_uncloned ha.location hsubdir hmade rfl⟩

theorem push_diagnoses_missing :
    let words := ["push", "--url=git@example.org:site", "-s", "/site", "-m", "update", "--user",
      "bot", "--email", "bot@example.org"]
    CommandLine.parse missingMachine.environment words = .ok ⟨false, false, .push siteArguments⟩ ∧
      (runProgram missingMachine false words).exitCode = 1 ∧
      ∃ before, (runProgram missingMachine false words).errors =
        before ++ ("Hint: not found: Verify the repository URL and that the branch exists, " ++
          "or use --bootstrap.\n") := by
  intro words
  have hparse : CommandLine.parse missingMachine.environment words =
      .ok ⟨false, false, .push siteArguments⟩ := by rfl
  obtain ⟨t,h⟩ := reaches_missing
  have hd := push_diagnoses missingMachine false words _ _ hparse rfl
  have hcode : (runProgram missingMachine false words).exitCode ≠ 0 := by
    intro hzero
    obtain ⟨outcome,t',h'⟩ := hd.succeeds.mp hzero
    cases (h.unique h').1
  obtain ⟨status,text,told,-,herrors,htold⟩ := hd.said
  have hkind : told = some .notFound :=
    (htold _).mpr ((h.kind_iff _).mp ⟨_,rfl,by rfl⟩)
  refine ⟨hparse,hd.fails hcode,?_⟩
  rw [herrors, if_neg hcode, hkind, ← String.append_assoc]
  exact ⟨_,rfl⟩

end Job
end GitPublish
