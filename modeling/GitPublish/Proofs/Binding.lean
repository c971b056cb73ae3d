import GitPublish.Proofs.Client

/-!
# Which directory is worked on

The directory that is worked on is the latest one that was attached to, or that a `git clone` which
succeeded was given. This is read off the record of calls, so it holds of operations in any order,
and of those that fail on the way as well.
-/
namespace GitPublish

inductive Operation where
  | cloneIn (path : Path) (options : CloneOptions)
  | cloneInTemporary (stem : String) (options : CloneOptions)
  | attach (path : Path)
  | add (files : List Path)
  | commit (message user email : String)
  | push
  | delete

namespace Operation

/-- What an operation does. Only whether it succeeds is kept of its result. -/
def work : Operation → Work Unit
  | cloneIn path options => Work.cloneIn path options
  | cloneInTemporary stem options => do let _ ← Work.cloneInTemporary stem options
  | attach path => Work.attach path
  | add files => Work.add files
  | commit message user email => do let _ ← Work.commit message user email
  | push => Work.push
  | delete => Work.delete

def isClone : Operation → Bool
  | cloneIn .. | cloneInTemporary .. => true
  | _ => false

def isInside : Operation → Bool
  | add .. | commit .. | push | delete => true
  | _ => false

end Operation

def Call.isClone (c : Call) : Bool := c.args.head? = some "clone"

/-- The directory that a call binds: the one that `git clone` is given, if it succeeds. -/
def boundBy (m : Call × Reply) : Option Path :=
  if m.1.isClone ∧ m.2 = .succeeded then m.1.args.getLast?.map Path.mk else none

def latest (made : List (Call × Reply)) : Option Path := (made.filterMap boundBy).getLast?

structure Performed where
  operation : Operation
  before : Session
  result : Except RepoError Unit
  after : Session

namespace Performed

def made (p : Performed) : List (Call × Reply) :=
  (p.after.calls.drop p.before.calls.length).zip (p.after.replies.drop p.before.replies.length)

/-- The directory that an operation binds: the one it attaches to, or that it cloned into. -/
def binds (p : Performed) : Option Path :=
  match p.operation with
  | .attach path => some path
  | _ => latest p.made

end Performed

def binding (ps : List Performed) : Option Path := (ps.filterMap Performed.binds).getLast?

def Operation.perform (op : Operation) (s : Session) : Performed where
  operation := op
  before := s
  result := (op.work.run s).1
  after := (op.work.run s).2

def Session.perform : Session → List Operation → List Performed
  | _, [] => []
  | s, op :: ops => op.perform s :: (op.perform s).after.perform ops

/-- What an operation has to do with the directory that is worked on, behind those before it. -/
structure Performed.Bound (earlier : List Performed) (p : Performed) : Prop where
  recorded : p.after.calls = p.before.calls ++ p.made.map Prod.fst
  before : p.before.workDir = binding earlier
  after : p.after.workDir = binding (earlier ++ [p])
  inPath : ∀ path options, p.operation = .cloneIn path options → ∀ dir, p.binds = some dir →
    dir = path
  inTemporary : ∀ stem options, p.operation = .cloneInTemporary stem options →
    ∀ dir, p.binds = some dir → ∃ fresh files,
      (FileAction.makeTemporary p.before.temporary stem p.before.fresh).run p.before.files =
        (.ok (dir, fresh), files)
  -- a clone that fails before it is there leaves the directory alone; one that fails afterwards has
  -- bound its own
  failed : p.operation.isClone → ∀ e, p.result = .error e → match e with
    | .directory .. | .temporary .. | .clone .. => p.after.workDir = p.before.workDir
    | .heads heads _ => ∃ path, heads = Work.headsOf path ∧ p.binds = some path
    | .checkout path .. => p.binds = some path
    | _ => False
  kept : p.operation.isInside → p.after.workDir = p.before.workDir
  -- `git clone` runs nowhere in particular, any other call in the directory bound at the time
  placed : ∀ made m rest, p.made = made ++ m :: rest →
    m.1.dir = if m.1.isClone then none else (latest made).or (binding earlier)
  unbound : p.operation.isInside → binding earlier = none →
    p.result = .error .unbound ∧ p.after = p.before

/-- Calls that start while one directory is worked on and end while another is. -/
inductive Placed : Option Path → List Exchange → Option Path → Prop
  | nil (current : Option Path) : Placed current [] current
  | refused {url : String} {dir : Path} {reply : Reply} {current last : Option Path}
      {made : List Exchange} : reply ≠ .succeeded → Placed current made last →
      Placed current ((.clone url dir, reply) :: made) last
  | cloned {url : String} {dir : Path} {current last : Option Path} {made : List Exchange} :
      Placed (some dir) made last → Placed current ((.clone url dir, .succeeded) :: made) last
  | inside {g : Stage} {reply : Reply} {dir : Path} {last : Option Path} {made : List Exchange} :
      g.place = some dir → Placed (some dir) made last → Placed (some dir) ((g, reply) :: made) last

def Exchange.recorded (overrides : Environment) (m : Exchange) : Call × Reply :=
  (m.1.call overrides, m.2)

theorem isClone_recorded (overrides : Environment) (g : Stage) (reply : Reply) :
    (Exchange.recorded overrides (g, reply)).1.isClone = g.place.isNone := by
  cases g <;> simp [Exchange.recorded, Call.isClone, Stage.call, Stage.args, Stage.place,
    Git.clone, Git.checkout, Git.add, Git.diff, Git.config, Git.commit, Git.push]

theorem boundBy_clone (overrides : Environment) (url : String) (dir : Path) :
    boundBy (Exchange.recorded overrides (.clone url dir, .succeeded)) = some dir := by
  rw [boundBy, if_pos ⟨isClone_recorded overrides _ _,rfl⟩]
  rfl

theorem boundBy_refused (overrides : Environment) (g : Stage) {reply : Reply}
    (h : reply ≠ .succeeded) : boundBy (Exchange.recorded overrides (g, reply)) = none :=
  if_neg fun hb => h hb.2

theorem boundBy_inside (overrides : Environment) {g : Stage} {dir : Path} (reply : Reply)
    (h : g.place = some dir) : boundBy (Exchange.recorded overrides (g, reply)) = none := by
  refine if_neg fun hb => ?_
  have hc := hb.1
  rw [isClone_recorded, h] at hc
  cases hc

theorem latest_cons (m : Call × Reply) (ms : List (Call × Reply)) :
    latest (m :: ms) = (latest ms).or (boundBy m) := by
  unfold latest
  cases h : boundBy m with
  | none => rw [List.filterMap_cons_none h, Option.or_none]
  | some dir =>
    rw [List.filterMap_cons_some h, List.getLast?_cons]
    cases (ms.filterMap boundBy).getLast? <;> rfl

theorem Placed.latest (overrides : Environment) {current last : Option Path}
    {made : List Exchange} (h : Placed current made last) :
    last = (latest (made.map (Exchange.recorded overrides))).or current := by
  induction h with
  | nil => rfl
  | refused hr _ ih => rw [List.map_cons, latest_cons, boundBy_refused _ _ hr, Option.or_none, ih]
  | cloned _ ih => rw [List.map_cons, latest_cons, boundBy_clone, Option.or_assoc, ih]; rfl
  | inside hg _ ih => rw [List.map_cons, latest_cons, boundBy_inside _ _ hg, Option.or_none, ih]

theorem Placed.dir_eq (overrides : Environment) {current last : Option Path}
    {made : List Exchange} (h : Placed current made last) {earlier rest : List (Call × Reply)}
    {m : Call × Reply} (hm : made.map (Exchange.recorded overrides) = earlier ++ m :: rest) :
    m.1.dir = if m.1.isClone then none else (GitPublish.latest earlier).or current := by
  induction h generalizing earlier with
  | nil => cases earlier <;> cases hm
  | @refused url dir reply current last made hr _ ih =>
    cases earlier with
    | nil =>
      obtain ⟨rfl,-⟩ := List.cons.inj hm
      exact (if_pos (isClone_recorded overrides (.clone url dir) _)).symm
    | cons first earlier =>
      obtain ⟨rfl,htail⟩ := List.cons.inj hm
      rw [ih htail, latest_cons, boundBy_refused _ _ hr, Option.or_none]
  | @cloned url dir current last made _ ih =>
    cases earlier with
    | nil =>
      obtain ⟨rfl,-⟩ := List.cons.inj hm
      exact (if_pos (isClone_recorded overrides (.clone url dir) _)).symm
    | cons first earlier =>
      obtain ⟨rfl,htail⟩ := List.cons.inj hm
      rw [ih htail, latest_cons, boundBy_clone, Option.or_assoc]
      rfl
  | @inside g reply dir last made hg _ ih =>
    cases earlier with
    | nil =>
      obtain ⟨rfl,-⟩ := List.cons.inj hm
      rw [if_neg]
      · exact hg
      · rw [isClone_recorded, hg]
        exact Bool.false_ne_true
    | cons first earlier =>
      obtain ⟨rfl,htail⟩ := List.cons.inj hm
      rw [ih htail, latest_cons, boundBy_inside _ _ hg, Option.or_none]

theorem placed_of_inside {dir : Path} {made : List Exchange}
    (h : ∀ m ∈ made, m.1.place = some dir) : Placed (some dir) made (some dir) := by
  induction made with
  | nil => exact .nil _
  | cons m made ih =>
    exact .inside (h m (List.mem_cons_self ..)) (ih fun m hm => h m (List.mem_cons_of_mem _ hm))

theorem Performed.made_eq {p : Performed} {made : List Exchange}
    (h : p.before.Makes made p.after) :
    p.made = made.map (Exchange.recorded p.before.overrides) := by
  rw [Performed.made, h.calls, h.replies, List.drop_left, List.drop_left, List.zip_map']
  rfl

theorem binding_concat (earlier : List Performed) (p : Performed) :
    binding (earlier ++ [p]) = p.binds.or (binding earlier) := by
  unfold binding
  rw [List.filterMap_append, List.getLast?_append]
  cases h : p.binds with
  | none => rw [List.filterMap_cons_none h]; rfl
  | some dir => rw [List.filterMap_cons_some h]; rfl

namespace Work
variable {s t : Session}

/-- What a clone comes to: its call fails and binds nothing, or it binds the directory, whatever
fails afterwards. -/
def Clones (path : Path) (s : Session) (result : Except RepoError Unit) (t : Session) : Prop :=
  ∃ made, s.Makes made t ∧ Placed s.workDir made t.workDir ∧
    (latest (made.map (Exchange.recorded s.overrides)) = none ∧
        (∃ cause, result = .error (.clone path cause)) ∨
      latest (made.map (Exchange.recorded s.overrides)) = some path ∧
        ∀ e, result = .error e → (∃ cause, e = .heads (headsOf path) cause) ∨
          ∃ branch cause, e = .checkout path branch cause)

theorem CloneRun.clones {path : Path} {options : CloneOptions} {result : Except RepoError Unit}
    (h : CloneRun path options s result t) : Clones path s result t := by
  have hm := s.makes_afterGit (.clone options.url path)
  have hc : s.gitReply none (Git.clone options.url path) = .succeeded →
      s.Makes [(.clone options.url path, .succeeded)] (cloned path options s) := fun hs =>
    ⟨hm.calls,hs ▸ hm.replies,hm.overrides⟩
  have hl : latest ([(Stage.clone options.url path, Reply.succeeded)].map
      (Exchange.recorded s.overrides)) = some path := by
    rw [List.map_singleton, latest_cons, boundBy_clone]
    rfl
  cases h with
  | @refused cause hr =>
    have hne := Reply.ne_succeeded hr
    refine ⟨_,hm,.refused hne (.nil _),.inl ⟨?_,cause,rfl⟩⟩
    rw [List.map_singleton, latest_cons]
    exact congrArg (Option.or none) (boundBy_refused s.overrides _ hne)
  | plain hs => exact ⟨_,hc hs,.cloned (.nil _),.inr ⟨hl,fun _ h => by cases h⟩⟩
  | @unlisted _ cause hs =>
    exact ⟨_,hc hs,.cloned (.nil _),.inr ⟨hl,fun _ h => .inl ⟨cause,by cases h; rfl⟩⟩⟩
  | @switched branch create hs =>
    have hk := (cloned path options s).makes_afterGit (.checkout path branch create)
    refine ⟨_,(hc hs).append hk,.cloned (.inside rfl (.nil _)),.inr ⟨?_,fun e h => .inr ?_⟩⟩
    · rw [List.singleton_append, List.map_cons, latest_cons, boundBy_clone, List.map_singleton,
        latest_cons, boundBy_inside _ _ rfl]
      rfl
    · generalize ((cloned path options s).gitReply (some path)
        (Git.checkout branch create)).result _ = answer at h
      cases answer with
      | error cause => exact ⟨branch,cause,by cases h; rfl⟩
      | ok => cases h

/-- What is done before a clone, apart from calls, does not matter to it. -/
theorem Clones.of_start {path : Path} {result : Except RepoError Unit} {u : Session}
    (h : Clones path t result u) (hm : s.Makes [] t) (hw : t.workDir = s.workDir) :
    Clones path s result u := by
  obtain ⟨made,hmade,hplaced,hcases⟩ := h
  rw [hw] at hplaced
  rw [hm.overrides] at hcases
  exact ⟨made,hm.append hmade,hplaced,hcases⟩

theorem cloneIn_cases (path : Path) (options : CloneOptions) (s : Session) :
    (∃ cause files, (cloneIn path options).run s =
        (.error (.directory path cause), { s with files := files })) ∨
      Clones path s ((cloneIn path options).run s).1 ((cloneIn path options).run s).2 := by
  rw [cloneIn, run_bind, run_onFiles]
  rcases ((FileAction.makePrivateDirectories path).run s.files).1 with cause | ⟨⟩
  · exact .inl ⟨cause,_,rfl⟩
  · exact .inr ((cloneInto_cases path options _).clones.of_start (.nil rfl rfl rfl) rfl)

theorem cloneInTemporary_cases (stem : String) (options : CloneOptions) (s : Session) :
    (∃ cause files, (cloneInTemporary stem options).run s =
        (.error (.temporary stem cause), { s with files := files })) ∨
      ∃ path fresh files,
        (FileAction.makeTemporary s.temporary stem s.fresh).run s.files =
          (.ok (path, fresh), files) ∧
        Clones path s (((cloneInTemporary stem options).run s).1.map fun _ => ())
          ((cloneInTemporary stem options).run s).2 := by
  rw [cloneInTemporary, run_bind, run_makeTemporary]
  rcases (FileAction.makeTemporary s.temporary stem s.fresh).run s.files with
    ⟨cause | ⟨path, fresh⟩, files⟩
  · exact .inl ⟨cause,files,rfl⟩
  · have h := (cloneInto_cases path options { s with files := files, fresh := fresh }).clones
    refine .inr ⟨path,fresh,files,rfl,?_⟩
    dsimp only
    rw [run_bind]
    rcases hr : (cloneInto path options).run { s with files := files, fresh := fresh } with
      ⟨e | ⟨⟩, t⟩ <;> rw [hr] at h <;> exact h.of_start (.nil rfl rfl rfl) rfl

/-- Work inside the directory that is worked on: there is nothing to do without one, and otherwise
every call is made there. -/
structure Inside {α : Type} (w : Work α) : Prop where
  unbound : ∀ s, s.workDir = none → w.run s = (.error .unbound, s)
  bound : ∀ s dir, s.workDir = some dir → ∃ made, s.Makes made (w.run s).2 ∧
    (∀ m ∈ made, m.1.place = some dir) ∧ (w.run s).2.workDir = some dir

theorem Follows.exists_makes {α : Type} {w : Work α} {stages : List Stage}
    {interrupts : List Stage → RepoError → Prop} (h : w.Follows interrupts s stages) :
    ∃ made, s.Makes made (w.run s).2 ∧ ∀ m ∈ made, m.1 ∈ stages := by
  rcases hr : w.run s with ⟨e | a, t⟩
  · cases h.halted hr with
    | @failed made rest g reply _ _ hm hs =>
      refine ⟨_,hm,fun m hmem => ?_⟩
      rw [← hs]
      rcases List.mem_append.mp hmem with hmem | hmem
      · exact List.mem_append_left _ (List.mem_map_of_mem hmem)
      · rw [List.mem_singleton.mp hmem]
        exact List.mem_append_right _ (List.mem_cons_self ..)
    | interrupted made rest hm hs =>
      exact ⟨_,hm,fun m hmem => hs ▸ List.mem_append_left _ (List.mem_map_of_mem hmem)⟩
  · obtain ⟨made,hm,hs,-⟩ := h.passed hr
    exact ⟨made,hm,fun m hmem => hs ▸ List.mem_map_of_mem hmem⟩

theorem inside_add (files : List Path) : Inside (add files) where
  unbound s h := by rw [add, run_bind_boundDirectory, h]
  bound s dir h := by
    obtain ⟨made,hm,hs⟩ := (follows_add (fun _ _ => True) h files).exists_makes
    refine ⟨made,hm,fun m hmem => ?_,(add_within Change.keepsDirectory_git files s).trans h⟩
    rw [List.mem_singleton.mp (hs m hmem)]
    rfl

theorem inside_push : Inside push where
  unbound s h := by rw [push, run_bind_boundDirectory, h]
  bound s dir h := by
    obtain ⟨made,hm,hs⟩ := (follows_push (fun _ _ => True) h).exists_makes
    refine ⟨made,hm,fun m hmem => ?_,?_⟩
    · rw [List.mem_singleton.mp (hs m hmem)]
      rfl
    · rw [push, run_bind_boundDirectory, h]
      exact (demand_within Change.keepsDirectory_git _ _ _ s).trans h

theorem inside_delete : Inside delete where
  unbound s h := by rw [delete, run_bind_boundDirectory, h]
  bound s dir h := by
    obtain ⟨files,hd⟩ := delete_within_files s
    rw [hd]
    exact ⟨[],.nil rfl rfl rfl,by simp,h⟩

theorem inside_commit (message user email : String) : Inside (commit message user email) where
  unbound s h := by rw [commit, run_bind_boundDirectory, h]
  bound s dir h := by
    have hm := s.makes_afterGit (.diff dir)
    have hp : ∀ m ∈ [(Stage.diff dir, s.gitReply (Stage.diff dir).place (Stage.diff dir).args)],
        m.1.place = some dir := fun m hmem => by rw [List.mem_singleton.mp hmem]; rfl
    rw [run_commit h]
    cases s.gitReply (some dir) Git.diff with
    | succeeded | notStarted => exact ⟨_,hm,hp,h⟩
    | exited =>
      obtain ⟨made,hr,hs⟩ := (record_follows (fun _ _ => True) (s := s.afterGit (some dir) Git.diff)
        dir message user email).exists_makes
      have hk := record_within Change.keepsDirectory_git dir message user email
      refine ⟨_,hm.append hr,fun m hmem => ?_,(hk _).trans h⟩
      rcases List.mem_append.mp hmem with hmem | hmem
      · exact hp m hmem
      · exact place_of_mem_recordStages (hs m hmem)

theorem run_forget {α : Type} (w : Work α) (s : Session) :
    (do let _ ← w : Work Unit).run s = ((w.run s).1.map fun _ => (), (w.run s).2) := by
  rw [run_bind]
  rcases w.run s with ⟨e | a, t⟩ <;> rfl

theorem Inside.forget {α : Type} {w : Work α} (h : Inside w) :
    Inside (do let _ ← w : Work Unit) where
  unbound s hs := by rw [run_forget, h.unbound s hs]; rfl
  bound s dir hs := by
    rw [run_forget]
    exact h.bound s dir hs

end Work

theorem Operation.not_isInside {op : Operation} (h : op.isClone) : ¬ op.isInside := by
  cases op with
  | cloneIn | cloneInTemporary => exact Bool.false_ne_true
  | attach | add | commit | push | delete => cases h

theorem Operation.inside_work {op : Operation} (h : op.isInside) : Work.Inside op.work := by
  cases op with
  | add files => exact Work.inside_add files
  | commit message user email => exact (Work.inside_commit message user email).forget
  | push => exact Work.inside_push
  | delete => exact Work.inside_delete
  | cloneIn | cloneInTemporary | attach => cases h

namespace Performed
variable {earlier : List Performed} {p : Performed}

theorem binds_eq (ha : ∀ path, p.operation ≠ .attach path) : p.binds = latest p.made := by
  unfold binds
  split
  next path h => exact absurd h (ha path)
  next => rfl

/-- What the calls of an operation tell about the directory, whatever the operation is. -/
theorem bound_of_placed {made : List Exchange} (hb : p.before.workDir = binding earlier)
    (ha : ∀ path, p.operation ≠ .attach path) (hm : p.before.Makes made p.after)
    (hp : Placed p.before.workDir made p.after.workDir) :
    p.after.calls = p.before.calls ++ p.made.map Prod.fst ∧
      p.after.workDir = binding (earlier ++ [p]) ∧
      ∀ made m rest, p.made = made ++ m :: rest →
        m.1.dir = if m.1.isClone then none else (latest made).or (binding earlier) := by
  refine ⟨?_,?_,?_⟩
  · rw [made_eq hm, hm.calls, List.map_map]
    rfl
  · rw [binding_concat, binds_eq ha, made_eq hm, ← hb]
    exact hp.latest p.before.overrides
  · intro earlierCalls m rest h
    rw [made_eq hm] at h
    rw [← hb]
    exact hp.dir_eq p.before.overrides h

theorem bound_of_inside (hb : p.before.workDir = binding earlier) (hi : p.operation.isInside)
    (hp : p = p.operation.perform p.before) : Bound earlier p := by
  have hw := Operation.inside_work hi
  have hresult : p.result = (p.operation.work.run p.before).1 := congrArg result hp
  have hafter : p.after = (p.operation.work.run p.before).2 := congrArg after hp
  have hattach : ∀ path, p.operation ≠ .attach path := fun path h => by rw [h] at hi; cases hi
  obtain ⟨made,hm,hplaced⟩ : ∃ made, p.before.Makes made p.after ∧
      Placed p.before.workDir made p.after.workDir := by
    rcases hd : p.before.workDir with - | dir
    · have hn : p.after = p.before := by rw [hafter, hw.unbound _ hd]
      rw [hn, hd]
      exact ⟨[],.nil rfl rfl rfl,.nil _⟩
    · obtain ⟨made,hm,hin,hk⟩ := hw.bound p.before dir hd
      rw [← hafter] at hm hk
      rw [hk]
      exact ⟨made,hm,placed_of_inside hin⟩
  obtain ⟨hrecorded,hworkDir,hdirs⟩ := bound_of_placed hb hattach hm hplaced
  exact {
    recorded := hrecorded
    before := hb
    after := hworkDir
    inPath := fun path options h => by rw [h] at hi; cases hi
    inTemporary := fun stem options h => by rw [h] at hi; cases hi
    failed := fun h => absurd hi (Operation.not_isInside h)
    kept := fun _ => by
      rcases hd : p.before.workDir with - | dir
      · rw [hafter, hw.unbound _ hd, hd]
      · obtain ⟨-,-,-,hk⟩ := hw.bound p.before dir hd
        rw [hafter, hk]
    placed := hdirs
    unbound := fun _ hn => by
      have h := hw.unbound p.before (hb.trans hn)
      exact ⟨by rw [hresult, h],by rw [hafter, h]⟩ }

/-- A clone that has nowhere to go changes files at most. -/
theorem bound_of_unmade {e : RepoError} {files : FileSystem}
    (hb : p.before.workDir = binding earlier) (hc : p.operation.isClone)
    (hp : p = p.operation.perform p.before)
    (hrun : p.operation.work.run p.before = (.error e, { p.before with files := files }))
    (he : (∃ path cause, e = .directory path cause) ∨ ∃ stem cause, e = .temporary stem cause) :
    Bound earlier p := by
  have hresult : p.result = .error e := by rw [hp, Operation.perform, hrun]
  have hafter : p.after = { p.before with files := files } := by rw [hp, Operation.perform, hrun]
  have hattach : ∀ path, p.operation ≠ .attach path := fun path h => by rw [h] at hc; cases hc
  have hm : p.before.Makes [] p.after := by rw [hafter]; exact .nil rfl rfl rfl
  have hk : p.after.workDir = p.before.workDir := by rw [hafter]
  have hn : p.binds = none := by rw [binds_eq hattach, made_eq hm]; rfl
  have hi := Operation.not_isInside hc
  obtain ⟨hrecorded,hworkDir,hdirs⟩ := bound_of_placed hb hattach hm (hk ▸ .nil _)
  exact {
    recorded := hrecorded
    before := hb
    after := hworkDir
    inPath := fun _ _ _ dir h => by rw [hn] at h; cases h
    inTemporary := fun _ _ _ dir h => by rw [hn] at h; cases h
    failed := by
      intro _ e' h
      obtain rfl := Except.error.inj (hresult.symm.trans h)
      rcases he with ⟨path,cause,rfl⟩ | ⟨stem,cause,rfl⟩ <;> exact hk
    kept := fun h => absurd h hi
    placed := hdirs
    unbound := fun h => absurd h hi }

theorem bound_of_clones {path : Path} (hb : p.before.workDir = binding earlier)
    (hc : p.operation.isClone) (h : Work.Clones path p.before p.result p.after)
    (hpath : ∀ path' options, p.operation = .cloneIn path' options → path = path')
    (htemporary : ∀ stem options, p.operation = .cloneInTemporary stem options → ∃ fresh files,
      (FileAction.makeTemporary p.before.temporary stem p.before.fresh).run p.before.files =
        (.ok (path, fresh), files)) : Bound earlier p := by
  obtain ⟨made,hm,hplaced,hcases⟩ := h
  have hattach : ∀ path, p.operation ≠ .attach path := fun path h => by rw [h] at hc; cases hc
  have hi := Operation.not_isInside hc
  have hk := hplaced.latest p.before.overrides
  rw [← made_eq hm, ← binds_eq hattach] at hk hcases
  have hdir : ∀ dir, p.binds = some dir → dir = path := by
    intro dir hd
    rcases hcases with ⟨hn,-⟩ | ⟨hs,-⟩
    · rw [hn] at hd
      cases hd
    · exact (Option.some.inj (hs.symm.trans hd)).symm
  obtain ⟨hrecorded,hworkDir,hdirs⟩ := bound_of_placed hb hattach hm hplaced
  exact {
    recorded := hrecorded
    before := hb
    after := hworkDir
    inPath := fun path' options h dir hd => (hdir dir hd).trans (hpath path' options h)
    inTemporary := fun stem options h dir hd => hdir dir hd ▸ htemporary stem options h
    failed := by
      intro _ e h
      rcases hcases with ⟨hn,cause,hr⟩ | ⟨hs,herror⟩
      · obtain rfl := Except.error.inj (hr.symm.trans h)
        rw [hn] at hk
        exact hk
      · rcases herror e h with ⟨cause,rfl⟩ | ⟨branch,cause,rfl⟩
        · exact ⟨path,rfl,hs⟩
        · exact hs
    kept := fun h => absurd h hi
    placed := hdirs
    unbound := fun h => absurd h hi }

theorem bound_of_attach {path : Path} {s : Session} (hb : s.workDir = binding earlier) :
    Bound earlier ((Operation.attach path).perform s) where
  recorded := by simp [Operation.perform, Operation.work, made]
  before := hb
  after := by rw [binding_concat]; rfl
  inPath _ _ h := by cases h
  inTemporary _ _ h := by cases h
  failed h := by cases h
  kept h := by cases h
  placed made m rest h := by
    simp [Operation.perform, Operation.work, Performed.made] at h
  unbound h := by cases h

end Performed

theorem Operation.perform_bound (op : Operation) {s : Session} {earlier : List Performed}
    (hb : s.workDir = binding earlier) : (op.perform s).Bound earlier := by
  cases op with
  | cloneIn path options =>
    rcases Work.cloneIn_cases path options s with ⟨cause,files,h⟩ | h
    · have hrun : (Operation.cloneIn path options).work.run s =
          (.error (.directory path cause), { s with files := files }) := by rw [Operation.work, h]
      exact Performed.bound_of_unmade hb rfl rfl hrun (.inl ⟨path,cause,rfl⟩)
    · refine Performed.bound_of_clones hb rfl ?_ (fun _ _ h => by cases h; rfl)
        (fun _ _ h => by cases h)
      dsimp only [Operation.perform, Operation.work]
      exact h
  | cloneInTemporary stem options =>
    have hrun := Work.run_forget (Work.cloneInTemporary stem options) s
    rcases Work.cloneInTemporary_cases stem options s with
      ⟨cause,files,h⟩ | ⟨path,fresh,files,ht,h⟩
    · rw [h] at hrun
      exact Performed.bound_of_unmade hb rfl rfl hrun (.inr ⟨stem,cause,rfl⟩)
    · refine Performed.bound_of_clones hb rfl ?_ (fun _ _ h => by cases h)
        (fun _ _ h => by cases h; exact ⟨fresh,files,ht⟩)
      dsimp only [Operation.perform, Operation.work]
      rw [hrun]
      exact h
  | attach path => exact Performed.bound_of_attach hb
  | add | commit | push | delete => exact Performed.bound_of_inside hb rfl rfl

def EachBound (ps : List Performed) : Prop :=
  ∀ earlier p later, ps = earlier ++ p :: later → p.Bound earlier

theorem perform_bound_behind (ops : List Operation) {s : Session} {done : List Performed}
    (hb : s.workDir = binding done) {earlier later : List Performed} {p : Performed}
    (h : s.perform ops = earlier ++ p :: later) : p.Bound (done ++ earlier) := by
  induction ops generalizing s done earlier with
  | nil => cases earlier <;> cases h
  | cons op ops ih =>
    have hop := op.perform_bound hb
    cases earlier with
    | nil =>
      obtain ⟨rfl,-⟩ := List.cons.inj h
      rwa [List.append_nil]
    | cons first earlier =>
      obtain ⟨rfl,htail⟩ := List.cons.inj h
      have htail := ih hop.after htail
      rwa [List.append_assoc] at htail

/-- Whatever operations a session performs that starts without a directory, each of them works on
the latest directory that was bound before it, and leaves the latest that was bound with it. -/
theorem perform_eachBound (ops : List Operation) (s : Session) :
    EachBound ({ s with workDir := none }.perform ops) := by
  intro earlier p later h
  have hb : ({ s with workDir := none } : Session).workDir = binding [] := rfl
  exact perform_bound_behind ops hb h

end GitPublish
