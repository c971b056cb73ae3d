import GitPublish.Proofs.Session

/-!
# The stages of publishing

A stage is one thing that `git` is asked for. Work that follows a list of stages makes the calls of
a beginning of that list and nothing else: either all of them pass, or work halts at the first that
does not, or it is interrupted between two calls by a failure of its own. The rule for binding says
that lists of stages are put one behind the other as the work is.
-/
namespace GitPublish

inductive Stage where
  | clone (url : String) (dir : Path)
  | checkout (dir : Path) (branch : String) (create : Bool)
  | add (dir : Path) (files : List Path)
  | diff (dir : Path)
  | config (dir : Path) (key value : String)
  | commit (dir : Path) (message user email : String)
  | push (dir : Path)
  deriving DecidableEq, Repr

namespace Stage

/-- The clone does not exist before it is made; everything else is asked for inside it. -/
def place : Stage → Option Path
  | clone .. => none
  | checkout dir .. | add dir _ | diff dir | config dir .. | commit dir .. | push dir => some dir

def args : Stage → List String
  | clone url dir => Git.clone url dir
  | checkout _ branch create => Git.checkout branch create
  | add _ files => Git.add files
  | diff _ => Git.diff
  | config _ key value => Git.config key value
  | commit _ message user email => Git.commit message user email
  | push _ => Git.push

def call (overrides : Environment) (g : Stage) : Call :=
  { command := "git", args := g.args, dir := g.place, environment := overrides }

/-- The failure that belongs to a stage, around the failed call. -/
def failure : Stage → RunError → RepoError
  | clone _ dir => .clone dir
  | checkout dir branch _ => .checkout dir branch
  | add .. => .add
  | diff _ => .diff
  | config _ key _ => .config key
  | commit .. => .commit
  | push _ => .push

/-- Whether work goes on behind a stage. That nothing is staged ends it, so the stage that asks for
this passes when `git` exits with an error. -/
def Passes (g : Stage) (reply : Reply) : Prop :=
  match g with
  | diff _ => ∃ code output, reply = .exited code output
  | _ => reply = .succeeded

end Stage

abbrev Exchange := Stage × Reply

/-- From `s` to `t` exactly the calls of `made` are made, and end as it says. -/
structure Session.Makes (s : Session) (made : List Exchange) (t : Session) : Prop where
  calls : t.calls = s.calls ++ made.map (·.1.call s.overrides)
  replies : t.replies = s.replies ++ made.map (·.2)
  overrides : t.overrides = s.overrides

namespace Session
variable {s t u : Session}

theorem Makes.append {xs ys : List Exchange} (h : s.Makes xs t) (k : t.Makes ys u) :
    s.Makes (xs ++ ys) u where
  calls := by rw [k.calls, h.calls, h.overrides, List.map_append, List.append_assoc]
  replies := by rw [k.replies, h.replies, List.map_append, List.append_assoc]
  overrides := k.overrides.trans h.overrides

theorem Makes.nil (hc : t.calls = s.calls) (hr : t.replies = s.replies)
    (ho : t.overrides = s.overrides) : s.Makes [] t := ⟨by simp [hc],by simp [hr],ho⟩

theorem makes_afterGit (s : Session) (g : Stage) :
    s.Makes [(g, s.gitReply g.place g.args)] (s.afterGit g.place g.args) := ⟨rfl,rfl,rfl⟩

/-- All stages are asked for from `s` to `t`, and all pass. -/
def Passed (s : Session) (stages : List Stage) (t : Session) : Prop :=
  ∃ made, s.Makes made t ∧ made.map Prod.fst = stages ∧ ∀ m ∈ made, m.1.Passes m.2

/-- Work halts at a failure between `s` and `t`. It is that of the last call, or, if all calls
passed, one which `interrupts` allows behind them. -/
inductive Halted (interrupts : List Stage → RepoError → Prop) (s : Session) (stages : List Stage) :
    RepoError → Session → Prop
  | failed (made : List Exchange) (rest : List Stage) {g : Stage} {reply : Reply}
      {cause : RunError} {t : Session} :
      s.Makes (made ++ [(g, reply)]) t → made.map Prod.fst ++ g :: rest = stages →
      (∀ m ∈ made, m.1.Passes m.2) → ¬ g.Passes reply →
      reply.result (g.call s.overrides) = .error cause →
      Halted interrupts s stages (g.failure cause) t
  | interrupted (made : List Exchange) (rest : List Stage) {e : RepoError} {t : Session} :
      s.Makes made t → made.map Prod.fst ++ rest = stages →
      (∀ m ∈ made, m.1.Passes m.2) → interrupts (made.map Prod.fst) e →
      Halted interrupts s stages e t

theorem Passed.nil (h : s.Makes [] t) : s.Passed [] t := ⟨[],h,rfl,by simp⟩

theorem Passed.append {xs ys : List Stage} (h : s.Passed xs t) (k : t.Passed ys u) :
    s.Passed (xs ++ ys) u := by
  obtain ⟨xm,hx,rfl,px⟩ := h
  obtain ⟨ym,hy,rfl,py⟩ := k
  refine ⟨xm ++ ym,hx.append hy,List.map_append,?_⟩
  intro m hm
  rcases List.mem_append.mp hm with hm | hm
  · exact px m hm
  · exact py m hm

variable {interrupts : List Stage → RepoError → Prop} {e : RepoError}

theorem Passed.halted {xs ys : List Stage} (h : s.Passed xs t)
    (k : t.Halted (fun before => interrupts (xs ++ before)) ys e u) :
    s.Halted interrupts (xs ++ ys) e u := by
  obtain ⟨xm,hx,rfl,px⟩ := h
  have pass : ∀ ym : List Exchange, (∀ m ∈ ym, m.1.Passes m.2) →
      ∀ m ∈ xm ++ ym, m.1.Passes m.2 := fun ym py m hm =>
    (List.mem_append.mp hm).elim (px m) (py m)
  cases k with
  | @failed ym rest g reply cause _ hy hs py hg hr =>
    refine .failed (xm ++ ym) rest ?_ ?_ (pass ym py) hg (hx.overrides ▸ hr)
    · rw [List.append_assoc]
      exact hx.append hy
    · rw [List.map_append,List.append_assoc,hs]
  | interrupted ym rest hy hs py hi =>
    refine .interrupted (xm ++ ym) rest (hx.append hy) ?_ (pass ym py) ?_
    · rw [List.map_append,List.append_assoc,hs]
    · rwa [List.map_append]

theorem Halted.extend {xs : List Stage} (h : s.Halted interrupts xs e t) (ys : List Stage) :
    s.Halted interrupts (xs ++ ys) e t := by
  cases h with
  | failed made rest hm hs hp hg hr =>
    exact .failed made (rest ++ ys) hm (by rw [← hs,List.append_assoc,List.cons_append]) hp hg hr
  | interrupted made rest hm hs hp hi =>
    exact .interrupted made (rest ++ ys) hm (by rw [← hs,List.append_assoc]) hp hi

theorem Halted.mono {interrupts' : List Stage → RepoError → Prop} {stages : List Stage}
    (h : s.Halted interrupts stages e t)
    (hi : ∀ before e, interrupts before e → interrupts' before e) :
    s.Halted interrupts' stages e t := by
  cases h with
  | failed made rest hm hs hp hg hr => exact .failed made rest hm hs hp hg hr
  | interrupted made rest hm hs hp k => exact .interrupted made rest hm hs hp (hi _ _ k)

/-- Calls, and how they ended, do not depend on what is done to the files afterwards. -/
theorem Makes.files {made : List Exchange} (h : s.Makes made t) (k : Change.files.allows t u) :
    s.Makes made u := by
  obtain ⟨fs,rfl⟩ := k
  exact ⟨h.calls,h.replies,h.overrides⟩

theorem Passed.files {stages : List Stage} (h : s.Passed stages t)
    (k : Change.files.allows t u) : s.Passed stages u := by
  obtain ⟨made,hm,hs,hp⟩ := h
  exact ⟨made,hm.files k,hs,hp⟩

theorem Halted.files {stages : List Stage} (h : s.Halted interrupts stages e t)
    (k : Change.files.allows t u) : s.Halted interrupts stages e u := by
  cases h with
  | failed made rest hm hs hp hg hr => exact .failed made rest (hm.files k) hs hp hg hr
  | interrupted made rest hm hs hp hi => exact .interrupted made rest (hm.files k) hs hp hi

end Session

namespace Work
variable {α β : Type} {interrupts : List Stage → RepoError → Prop} {s : Session}

/-- Work follows stages: with a result all of them have passed, and with a failure it has halted on
the way. -/
def Follows (interrupts : List Stage → RepoError → Prop) (w : Work α) (s : Session)
    (stages : List Stage) : Prop :=
  match w.run s with
  | (.ok _, t) => s.Passed stages t
  | (.error e, t) => s.Halted interrupts stages e t

theorem Follows.passed {w : Work α} {stages : List Stage} (h : w.Follows interrupts s stages)
    {a : α} {t : Session} (hr : w.run s = (.ok a, t)) : s.Passed stages t := by
  rwa [Follows, hr] at h

theorem Follows.halted {w : Work α} {stages : List Stage} (h : w.Follows interrupts s stages)
    {e : RepoError} {t : Session} (hr : w.run s = (.error e, t)) :
    s.Halted interrupts stages e t := by
  rwa [Follows, hr] at h

/-- However work ends that follows stages, the calls it has made are a beginning of them. -/
theorem Follows.makes {w : Work α} {stages : List Stage} (h : w.Follows interrupts s stages) :
    ∃ made, s.Makes made (w.run s).2 ∧ made.map Prod.fst <+: stages := by
  rcases hr : w.run s with ⟨e | a, t⟩
  · cases h.halted hr with
    | @failed made rest g reply _ _ hm hs =>
      refine ⟨made ++ [(g, reply)],hm,rest,?_⟩
      rw [← hs, List.map_append, List.append_assoc]
      rfl
    | interrupted made rest hm hs => exact ⟨made,hm,rest,hs⟩
  · obtain ⟨made,hm,hs,-⟩ := h.passed hr
    exact ⟨made,hm,hs ▸ List.prefix_refl _⟩

theorem Follows.bind {w : Work α} {f : α → Work β} {xs ys : List Stage}
    (hw : w.Follows interrupts s xs)
    (hf : ∀ a t, w.run s = (.ok a, t) →
      (f a).Follows (fun before => interrupts (xs ++ before)) t ys) :
    (w >>= f).Follows interrupts s (xs ++ ys) := by
  rcases hr : w.run s with ⟨e | a, t⟩
  · rw [Follows, run_bind_error hr]
    exact (hw.halted hr).extend ys
  · have hp := hw.passed hr
    have hb := hf a t hr
    rw [Follows, run_bind_ok hr]
    rcases hq : (f a).run t with ⟨e | b, u⟩
    · exact hp.halted (hb.halted hq)
    · exact hp.append (hb.passed hq)

theorem follows_pure (a : α) : (pure a : Work α).Follows interrupts s [] :=
  .nil (.nil rfl rfl rfl)

/-- A call that has to succeed is a stage of its own. -/
theorem follows_demand (g : Stage) (hg : ∀ reply, g.Passes reply ↔ reply = .succeeded) :
    (demand g.failure g.place g.args).Follows interrupts s [g] := by
  have hm := s.makes_afterGit g
  rw [Follows, run_demand]
  rcases hr : (s.gitReply g.place g.args).result (s.gitCall g.place g.args) with cause | ⟨⟩
  · exact .failed [] [] hm rfl (by simp) (fun h => Reply.ne_succeeded hr ((hg _).mp h)) hr
  · refine ⟨_,hm,rfl,?_⟩
    intro m h
    rw [List.mem_singleton.mp h]
    exact (hg _).mpr (Reply.result_eq_ok.mp hr)

end Work
end GitPublish
