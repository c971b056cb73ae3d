import GitPublish.Proofs.Publish

/-!
# The transcript of publishing

Whatever a request asks for, whatever the session was before and however its commands end, the calls
of publishing are a beginning of one fixed script. Every call but the last has passed. A last call
that failed is the cause of the result, inside the failure of its stage, and nothing is pushed that
was not staged and committed before in the same run.
-/
namespace GitPublish

/-- What a run of publishing from `s` to `t` has asked for, in order, and how each call ended. -/
structure Transcript (request : PublishRequest) (s : Session)
    (result : Except RepoError PublishOutcome) (t : Session) (dir : Path) (create : Bool)
    (files : List Path) (made : List Exchange) : Prop where
  makes : s.Makes made t
  inOrder : made.map Prod.fst <+: request.script dir create files
  temporary : made ≠ [] → ∃ fresh files,
    (FileAction.makeTemporary s.temporary request.stem s.fresh).run s.files =
      (.ok (dir, fresh), files)
  bootstrap : create = true → request.bootstrap = true
  passing : ∀ m ∈ made.dropLast, m.1.Passes m.2
  -- a call that failed and does not pass is the last one, and the result is its failure
  failing : ∀ before g reply after, made = before ++ (g, reply) :: after →
    reply ≠ .succeeded → ¬ g.Passes reply →
    after = [] ∧ ∃ cause, reply.result (g.call s.overrides) = .error cause ∧
      result = .error (g.failure cause)
  unlisted : ∀ heads cause, result = .error (.heads heads cause) →
    made = [(.clone request.url dir, .succeeded)]
  uncopied : ∀ source target cause, result = .error (.copy source target cause) →
    made = [] ∨ made.map Prod.fst = cloneStages request.cloneOptions dir create ∧
      ∀ m ∈ made, m.2 = .succeeded
  pushed : ∀ reply, (.push dir, reply) ∈ made →
    (.commit dir request.message request.user request.email, .succeeded) ∈ made
  committed : ∀ reply,
    (.commit dir request.message request.user request.email, reply) ∈ made →
    (.add dir files, .succeeded) ∈ made ∧
      ∃ code output, (.diff dir, .exited code output) ∈ made
  outcome : ∀ o, result = .ok o → o.cloneDir = dir ∧ o.files = files ∧
    (o.commit = .committed ∧ o.pushed = true ∧ (.push dir, .succeeded) ∈ made ∨
      o.commit = .nothingToCommit ∧ o.pushed = false ∧
        made.getLast? = some (.diff dir, .succeeded))

section exchanges
variable {made : List Exchange}

/-- A beginning of a list that has met an element has everything before that element. -/
theorem mem_prefix_of_mem {α : Type} {l xs ys : List α} {g : α} (h : l <+: xs ++ g :: ys)
    (hg : g ∈ l) (hx : g ∉ xs) : xs ++ [g] <+: l := by
  have hxs : xs ++ [g] <+: xs ++ g :: ys := ⟨ys,by rw [List.append_assoc,List.singleton_append]⟩
  rcases List.prefix_or_prefix_of_prefix h hxs with hl | hl
  · rcases List.prefix_concat_iff.mp hl with rfl | hl
    · exact List.prefix_refl _
    · exact absurd (hl.subset hg) hx
  · exact hl

/-- Where all but the last call passed, a stage is reached only if the stages before it passed. -/
theorem passed_before (hp : ∀ m ∈ made.dropLast, m.1.Passes m.2) {xs ys : List Stage}
    {g k : Stage} {reply : Reply} (h : made.map Prod.fst <+: xs ++ g :: ys)
    (hg : (g, reply) ∈ made) (hx : g ∉ xs) (hk : k ∈ xs) :
    ∃ answer, (k, answer) ∈ made ∧ k.Passes answer := by
  have hpre := mem_prefix_of_mem h (List.mem_map_of_mem (f := Prod.fst) hg) hx
  have hdrop : xs <+: made.dropLast.map Prod.fst := by
    obtain ⟨rest,hr⟩ := hpre
    rw [List.map_dropLast, ← hr, List.append_assoc,
      List.dropLast_append_of_ne_nil (by simp : [g] ++ rest ≠ [])]
    exact List.prefix_append _ _
  obtain ⟨⟨k',answer⟩,hm,rfl⟩ := List.mem_map.mp (hdrop.subset hk)
  exact ⟨answer,List.dropLast_subset _ hm,hp _ hm⟩

/-- Where all but the last call passed, one that does not pass is the last. -/
theorem last_of_not_passes (hp : ∀ m ∈ made.dropLast, m.1.Passes m.2) {before after : List Exchange}
    {g : Stage} {reply : Reply} (h : made = before ++ (g, reply) :: after)
    (hn : ¬ g.Passes reply) : after = [] := by
  cases after with
  | nil => rfl
  | cons next after =>
    refine absurd (hp (g, reply) ?_) hn
    rw [h, List.dropLast_append_of_ne_nil (by simp), List.dropLast_cons_of_ne_nil (by simp)]
    exact List.mem_append_right _ (List.mem_cons_self ..)

theorem succeeded_of_passes {options : CloneOptions} {dir : Path} {create : Bool} {g : Stage}
    {reply : Reply} (hg : g ∈ cloneStages options dir create) (h : g.Passes reply) :
    reply = .succeeded := by
  rcases List.mem_cons.mp hg with rfl | hg
  · exact h
  · obtain ⟨branch,-,rfl⟩ := Option.map_eq_some_iff.mp (Option.mem_toList.mp hg)
    exact h

theorem not_failing_of_passes (hp : ∀ m ∈ made, m.1.Passes m.2) {before after : List Exchange}
    {g : Stage} {reply : Reply} (h : made = before ++ (g, reply) :: after) : g.Passes reply :=
  hp (g, reply) (h ▸ List.mem_append_right _ (List.mem_cons_self ..))

end exchanges

namespace PublishRequest
variable {r : PublishRequest} {dir : Path} {create : Bool} {files : List Path}
  {made : List Exchange}

theorem script_eq_push : r.script dir create files =
    (cloneStages r.cloneOptions dir create ++ [.add dir files, .diff dir] ++
      recordStages dir r.message r.user r.email) ++ .push dir :: [] := by
  simp only [script, publishStages, List.append_assoc]

theorem script_eq_commit : r.script dir create files =
    (cloneStages r.cloneOptions dir create ++ [.add dir files, .diff dir] ++
      configStages dir "user.email" r.email ++ configStages dir "user.name" r.user) ++
        .commit dir r.message r.user r.email :: [.push dir] := by
  simp only [script, publishStages, recordStages, List.append_assoc, List.singleton_append]

/-- Nothing is pushed that was not committed. -/
theorem pushed_of_prefix (hp : ∀ m ∈ made.dropLast, m.1.Passes m.2)
    (h : made.map Prod.fst <+: r.script dir create files) {reply : Reply}
    (hm : (.push dir, reply) ∈ made) :
    (.commit dir r.message r.user r.email, .succeeded) ∈ made := by
  rw [script_eq_push] at h
  obtain ⟨answer,hc,ha⟩ := passed_before hp h hm (by simp [cloneStages, recordStages, configStages])
    (k := .commit dir r.message r.user r.email) (by simp [recordStages])
  rwa [← show answer = .succeeded from ha]

/-- Nothing is committed that was not staged, and only if something was. -/
theorem committed_of_prefix (hp : ∀ m ∈ made.dropLast, m.1.Passes m.2)
    (h : made.map Prod.fst <+: r.script dir create files) {reply : Reply}
    (hm : (.commit dir r.message r.user r.email, reply) ∈ made) :
    (.add dir files, .succeeded) ∈ made ∧
      ∃ code output, (.diff dir, .exited code output) ∈ made := by
  rw [script_eq_commit] at h
  have hx : Stage.commit dir r.message r.user r.email ∉
      cloneStages r.cloneOptions dir create ++ [.add dir files, .diff dir] ++
        configStages dir "user.email" r.email ++ configStages dir "user.name" r.user := by
    simp [cloneStages, configStages]
  obtain ⟨staged,hs,ha⟩ := passed_before hp h hm hx (k := .add dir files) (by simp)
  obtain ⟨answer,hd,code,output,rfl⟩ := passed_before hp h hm hx (k := .diff dir) (by simp)
  rw [show staged = .succeeded from ha] at hs
  exact ⟨hs,code,output,hd⟩

/-- Calls that begin the script begin with the clone. -/
theorem clone_of_prefix (hne : made ≠ []) (h : made.map Prod.fst <+: r.script dir create files) :
    ∃ reply more, made = (.clone r.url dir, reply) :: more := by
  obtain ⟨⟨g,reply⟩,more,rfl⟩ := List.exists_cons_of_ne_nil hne
  obtain ⟨rest,hs⟩ := h
  have hg : g = .clone r.url dir := (List.cons.inj hs).1
  exact ⟨reply,more,by rw [hg]⟩

/-- However publishing ends once there is a temporary directory, the location is cloned into it. -/
theorem Ends.makes_clone {s t : Session} {result : Except RepoError PublishOutcome}
    (h : r.Ends dir create files s result t) :
    ∃ reply more, s.Makes ((.clone r.url dir, reply) :: more) t := by
  have first {made : List Exchange} (hm : s.Makes made t) (hne : made ≠ [])
      (hs : made.map Prod.fst <+: r.script dir create files) :
      ∃ reply more, s.Makes ((.clone r.url dir, reply) :: more) t := by
    obtain ⟨reply,more,rfl⟩ := clone_of_prefix hne hs
    exact ⟨reply,more,hm⟩
  cases h with
  | halted h =>
    cases h with
    | failed made rest hm hs =>
      refine first hm (by simp) ⟨rest,?_⟩
      rw [← hs, List.map_append, List.append_assoc]
      rfl
    | interrupted made rest hm hs _ hi =>
      refine first hm ?_ ⟨rest,hs⟩
      rintro rfl
      cases hi
  | unchanged hm hs =>
    refine first hm (by simp) ⟨recordStages dir r.message r.user r.email ++ [.push dir],?_⟩
    rw [List.map_append, hs, script, publishStages]
    simp only [List.append_assoc, List.map_cons, List.map_nil, List.cons_append, List.nil_append]
  | pushed h =>
    obtain ⟨made,hm,hs,-⟩ := h
    refine first hm ?_ (hs ▸ List.prefix_refl _)
    rintro rfl
    cases hs

end PublishRequest

section ends
variable {r : PublishRequest} {dir : Path} {create : Bool} {files : List Path} {s t : Session}
  {made : List Exchange}
  (ht : ∃ fresh files, (FileAction.makeTemporary s.temporary r.stem s.fresh).run s.files =
    (.ok (dir, fresh), files))
  (hb : create = true → r.bootstrap = true)
include ht hb

/-- A call that fails halts a run, and its failure is the result. -/
theorem transcript_of_failed {g : Stage} {reply : Reply} {cause : RunError} {rest : List Stage}
    (hm : s.Makes (made ++ [(g, reply)]) t)
    (hs : made.map Prod.fst ++ g :: rest = r.script dir create files)
    (hp : ∀ m ∈ made, m.1.Passes m.2) (hg : ¬ g.Passes reply)
    (hr : reply.result (g.call s.overrides) = .error cause) :
    Transcript r s (.error (g.failure cause)) t dir create files (made ++ [(g, reply)]) := by
  have hpass : ∀ m ∈ (made ++ [(g, reply)]).dropLast, m.1.Passes m.2 := by
    rwa [List.dropLast_concat]
  have horder : (made ++ [(g, reply)]).map Prod.fst <+: r.script dir create files :=
    ⟨rest,by rw [← hs, List.map_append, List.append_assoc]; rfl⟩
  exact {
    makes := hm
    inOrder := horder
    temporary := fun _ => ht
    bootstrap := hb
    passing := hpass
    failing := by
      intro before g' reply' after h _ hn
      obtain rfl := last_of_not_passes hpass h hn
      obtain ⟨-,h⟩ := List.append_inj' h rfl
      obtain ⟨rfl,rfl⟩ := Prod.mk.inj (List.singleton_inj.mp h)
      exact ⟨rfl,cause,hr,rfl⟩
    unlisted := by
      intro heads cause' h
      cases g <;> cases h
    uncopied := by
      intro source target cause' h
      cases g <;> cases h
    pushed := fun _ => PublishRequest.pushed_of_prefix hpass horder
    committed := fun _ => PublishRequest.committed_of_prefix hpass horder
    outcome := fun _ h => by cases h }

/-- A failure between two calls ends the calls where it happens. -/
theorem transcript_of_interrupted {e : RepoError} {rest : List Stage} (hm : s.Makes made t)
    (hs : made.map Prod.fst ++ rest = r.script dir create files)
    (hp : ∀ m ∈ made, m.1.Passes m.2) (hi : r.Interrupts dir create (made.map Prod.fst) e) :
    Transcript r s (.error e) t dir create files made := by
  have hpass : ∀ m ∈ made.dropLast, m.1.Passes m.2 := fun m h => hp m (List.dropLast_subset _ h)
  have horder : made.map Prod.fst <+: r.script dir create files := ⟨rest,hs⟩
  generalize hbefore : made.map Prod.fst = before at hi
  exact {
    makes := hm
    inOrder := horder
    temporary := fun _ => ht
    bootstrap := hb
    passing := hpass
    failing := fun _ _ _ _ h _ hn => absurd (not_failing_of_passes hp h) hn
    unlisted := by
      intro heads cause h
      obtain rfl := Except.error.inj h
      cases hi
      obtain ⟨⟨g,reply⟩,rfl,hg⟩ := List.map_eq_singleton_iff.mp hbefore
      obtain rfl : g = .clone r.url dir := hg
      rw [show reply = .succeeded from hp (.clone r.url dir, reply) (List.mem_singleton_self _)]
    uncopied := by
      intro source target cause h
      obtain rfl := Except.error.inj h
      cases hi
      refine .inr ⟨hbefore,fun m hmem => ?_⟩
      exact succeeded_of_passes (hbefore ▸ List.mem_map_of_mem hmem) (hp m hmem)
    pushed := fun _ => PublishRequest.pushed_of_prefix hpass horder
    committed := fun _ => PublishRequest.committed_of_prefix hpass horder
    outcome := fun _ h => by cases h }

/-- Files that the repository holds already end the calls with the question what is staged. -/
theorem transcript_of_unchanged (hm : s.Makes (made ++ [(.diff dir, .succeeded)]) t)
    (hs : made.map Prod.fst = cloneStages r.cloneOptions dir create ++ [.add dir files])
    (hp : ∀ m ∈ made, m.1.Passes m.2) :
    Transcript r s (.ok ⟨dir, files, .nothingToCommit, false⟩) t dir create files
      (made ++ [(.diff dir, .succeeded)]) := by
  have hpass : ∀ m ∈ (made ++ [(Stage.diff dir, Reply.succeeded)]).dropLast, m.1.Passes m.2 := by
    rwa [List.dropLast_concat]
  have horder : (made ++ [(Stage.diff dir, Reply.succeeded)]).map Prod.fst <+:
      r.script dir create files := by
    refine ⟨recordStages dir r.message r.user r.email ++ [.push dir],?_⟩
    rw [List.map_append, hs, PublishRequest.script, PublishRequest.publishStages]
    simp only [List.append_assoc, List.map_cons, List.map_nil, List.cons_append, List.nil_append]
  exact {
    makes := hm
    inOrder := horder
    temporary := fun _ => ht
    bootstrap := hb
    passing := hpass
    failing := by
      intro before g reply after h hne hn
      obtain rfl := last_of_not_passes hpass h hn
      obtain ⟨-,h⟩ := List.append_inj' h rfl
      exact absurd (Prod.mk.inj (List.singleton_inj.mp h)).2.symm hne
    unlisted := fun _ _ h => by cases h
    uncopied := fun _ _ _ h => by cases h
    pushed := fun _ => PublishRequest.pushed_of_prefix hpass horder
    committed := fun _ => PublishRequest.committed_of_prefix hpass horder
    outcome := by
      intro o h
      cases h
      exact ⟨rfl,rfl,.inr ⟨rfl,rfl,List.getLast?_concat⟩⟩ }

theorem transcript_of_pushed (hm : s.Makes made t)
    (hs : made.map Prod.fst = r.script dir create files) (hp : ∀ m ∈ made, m.1.Passes m.2) :
    Transcript r s (.ok ⟨dir, files, .committed, true⟩) t dir create files made := by
  have hpass : ∀ m ∈ made.dropLast, m.1.Passes m.2 := fun m h => hp m (List.dropLast_subset _ h)
  have horder : made.map Prod.fst <+: r.script dir create files := hs ▸ List.prefix_refl _
  exact {
    makes := hm
    inOrder := horder
    temporary := fun _ => ht
    bootstrap := hb
    passing := hpass
    failing := fun _ _ _ _ h _ hn => absurd (not_failing_of_passes hp h) hn
    unlisted := fun _ _ h => by cases h
    uncopied := fun _ _ _ h => by cases h
    pushed := fun _ => PublishRequest.pushed_of_prefix hpass horder
    committed := fun _ => PublishRequest.committed_of_prefix hpass horder
    outcome := by
      intro o h
      cases h
      have hpush : Stage.push dir ∈ made.map Prod.fst := by
        rw [hs, PublishRequest.script_eq_push]
        exact List.mem_append_right _ (List.mem_singleton_self _)
      obtain ⟨⟨g,reply⟩,hmem,rfl⟩ := List.mem_map.mp hpush
      obtain rfl : reply = .succeeded := hp _ hmem
      exact ⟨rfl,rfl,.inl ⟨rfl,rfl,hmem⟩⟩ }

theorem transcript_of_ends {result : Except RepoError PublishOutcome}
    (h : r.Ends dir create files s result t) :
    ∃ made, Transcript r s result t dir create files made := by
  cases h with
  | halted h =>
    cases h with
    | failed made rest hm hs hp hg hr => exact ⟨_,transcript_of_failed ht hb hm hs hp hg hr⟩
    | interrupted made rest hm hs hp hi => exact ⟨_,transcript_of_interrupted ht hb hm hs hp hi⟩
  | unchanged hm hs hp => exact ⟨_,transcript_of_unchanged ht hb hm hs hp⟩
  | pushed h =>
    obtain ⟨made,hm,hs,hp⟩ := h
    exact ⟨made,transcript_of_pushed ht hb hm hs hp⟩

end ends

theorem transcript_of_refused {r : PublishRequest} {s t : Session} {e : RepoError} (dir : Path)
    (hm : s.Makes [] t) (he : ∀ heads cause, e ≠ .heads heads cause) :
    Transcript r s (.error e) t dir false [] [] where
  makes := hm
  inOrder := List.nil_prefix
  temporary h := absurd rfl h
  bootstrap h := by cases h
  passing _ h := by cases h
  failing before _ _ _ h := by cases before <;> cases h
  unlisted heads cause h := absurd (Except.error.inj h) (he heads cause)
  uncopied _ _ _ _ := .inl rfl
  pushed _ h := by cases h
  committed _ h := by cases h
  outcome _ h := by cases h

/-- Every run of publishing leaves a transcript: its calls are a beginning of the script, inside the
directory that was made for them, and its result is what the last of them makes it. -/
theorem publish_transcript (request : PublishRequest) (s : Session) :
    ∃ dir create files made, Transcript request s ((Work.publish request).run s).1
      ((Work.publish request).run s).2 dir create files made := by
  rcases Work.publish_ends request s with ⟨e,he,hn,hm⟩ | ⟨dir,create,files,fresh,fs,ht,hb,h⟩
  · rw [he]
    exact ⟨s.temporary,false,[],[],transcript_of_refused _ hm hn⟩
  · obtain ⟨made,h⟩ := transcript_of_ends ⟨fresh,fs,ht⟩ hb h
    exact ⟨dir,create,files,made,h⟩

end GitPublish
