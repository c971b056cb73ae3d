import GitPublish.Proofs.Cleanup
import GitPublish.Proofs.Location
import GitPublish.Proofs.Transcript

/-!
# What git can read as an option

Files are staged behind `--`, and the message of a commit is the operand of `-m`. The location, the
branch and the values of the configuration have no such guard: each of them is read as an option if
it starts with a dash, and nothing else that is given is. A location that starts with a dash is
accepted in the short form.
-/
namespace GitPublish

namespace Git

/-- Whether an argument looks like an option. -/
def isDashed (arg : String) : Bool := arg.toList.head? = some '-'

/-- The arguments behind the subcommand that can be read as options: what starts with a dash, has no
`--` before it and does not follow `-m` as its operand. -/
def Readable (args : List String) (arg : String) : Prop :=
  ∃ before after, args = before ++ arg :: after ∧ isDashed arg ∧ "--" ∉ before ∧
    before.getLast? ≠ some "-m"

variable {arg : String} {args : List String}

theorem Readable.mem (h : Readable args arg) : arg ∈ args ∧ isDashed arg := by
  obtain ⟨before,after,rfl,hd,-,-⟩ := h
  exact ⟨List.mem_append_right _ (List.mem_cons_self ..),hd⟩

theorem Readable.eq_separator (h : Readable ("--" :: args) arg) : arg = "--" := by
  obtain ⟨before,after,hargs,-,hsep,-⟩ := h
  cases before with
  | nil => exact (List.cons.inj hargs).1.symm
  | cons first before =>
    rw [← (List.cons.inj hargs).1] at hsep
    exact absurd (List.mem_cons_self ..) hsep

/-- What follows `-m` is no option. -/
theorem Readable.of_operand {operand : String} (h : Readable ("-m" :: operand :: args) arg) :
    arg = "-m" ∨ arg ∈ args := by
  obtain ⟨before,after,hargs,-,-,hlast⟩ := h
  rcases before with - | ⟨first, - | ⟨second, before⟩⟩
  · exact .inl (List.cons.inj hargs).1.symm
  · rw [← (List.cons.inj hargs).1] at hlast
    exact absurd rfl hlast
  · obtain ⟨-,hargs⟩ := List.cons.inj hargs
    obtain ⟨-,rfl⟩ := List.cons.inj hargs
    exact .inr (List.mem_append_right _ (List.mem_cons_self ..))

theorem not_isDashed_of_isAbsolute {p : Path} (h : p.isAbsolute) : isDashed p.text = false := by
  obtain ⟨body,hb⟩ := Path.isAbsolute_iff.mp h
  simp [isDashed, hb]

/-- The first argument is an option if it looks like one, and so is what follows an argument that
neither ends the options nor has an operand. -/
theorem readable_head (hd : isDashed arg) : Readable (arg :: args) arg :=
  ⟨[],args,rfl,hd,by simp,by simp⟩

theorem readable_second {first : String} (hsep : first ≠ "--") (hm : first ≠ "-m")
    (hd : isDashed arg) : Readable (first :: arg :: args) arg :=
  ⟨[first],args,rfl,hd,by simpa using hsep.symm,by simpa using hm⟩

end Git

namespace Stage

/-- The options that a stage is always asked for with. -/
def options : Stage → List String
  | checkout _ _ create => if create then ["-b"] else []
  | add .. => ["--"]
  | diff _ => ["--cached", "--quiet"]
  | commit _ _ user email => ["-m", "--author=" ++ user ++ " <" ++ email ++ ">"]
  | clone .. | config .. | push _ => []

/-- The arguments that are given with a request and have no guard. -/
def operands : Stage → List String
  | clone url _ => [url]
  | checkout _ branch _ => [branch]
  | config _ _ value => [value]
  | add .. | diff _ | commit .. | push _ => []

/-- Where a stage of publishing has its unguarded arguments from. -/
def Gives (r : PublishRequest) (arg : String) : Stage → Prop
  | clone .. => arg = r.url
  | checkout .. => r.branch = some arg
  | config _ key _ => key = "user.email" ∧ arg = r.email ∨ key = "user.name" ∧ arg = r.user
  | add .. | diff _ | commit .. | push _ => False

/-- What git can take for options at a stage: the options that are always there, and those of the
unguarded arguments that look like one. -/
structure Exposed (r : PublishRequest) (g : Stage) : Prop where
  readable : ∀ arg, Git.Readable g.args.tail arg → arg ∈ g.options ∨ arg ∈ g.operands
  unguarded : ∀ arg ∈ g.operands, Git.isDashed arg → Git.Readable g.args.tail arg
  given : ∀ arg ∈ g.operands, g.Gives r arg

variable {r : PublishRequest} {dir : Path} {create : Bool} {files : List Path} {g : Stage}

theorem exposed_clone (hdir : dir.isAbsolute) : (clone r.url dir).Exposed r where
  readable arg h := by
    obtain ⟨hmem,hd⟩ := h.mem
    rcases List.mem_cons.mp hmem with rfl | hmem
    · exact .inr (List.mem_singleton_self _)
    · rw [List.mem_singleton.mp hmem, Git.not_isDashed_of_isAbsolute hdir] at hd
      cases hd
  unguarded arg h hd := by
    rw [List.mem_singleton.mp h] at hd ⊢
    exact Git.readable_head hd
  given _ h := List.mem_singleton.mp h

theorem exposed_checkout {branch : String} (hb : r.branch = some branch) :
    (checkout dir branch create).Exposed r where
  readable arg h := by
    have hmem := h.mem.1
    cases create with
    | false => exact .inr hmem
    | true => exact (List.mem_cons.mp hmem).imp (fun h => List.mem_singleton.mpr h) id
  unguarded arg h hd := by
    rw [List.mem_singleton.mp h] at hd ⊢
    cases create with
    | false => exact Git.readable_head hd
    | true => exact Git.readable_second (by decide) (by decide) hd
  given _ h := hb.trans (congrArg some (List.mem_singleton.mp h).symm)

theorem exposed_config {key value : String} (hkey : Git.isDashed key = false)
    (hgiven : (config dir key value).Gives r value) : (config dir key value).Exposed r where
  readable arg h := by
    obtain ⟨hmem,hd⟩ := h.mem
    rcases List.mem_cons.mp hmem with rfl | hmem
    · cases hkey.symm.trans hd
    · exact .inr hmem
  unguarded arg h hd := by
    rw [List.mem_singleton.mp h] at hd ⊢
    have apart (option : String) (ho : Git.isDashed option) : key ≠ option := by
      rintro rfl
      cases hkey.symm.trans ho
    exact Git.readable_second (apart "--" (by decide)) (apart "-m" (by decide)) hd
  given _ h := List.mem_singleton.mp h ▸ hgiven

/-- A stage without unguarded arguments has only the options that are always there. -/
theorem exposed_of_guarded (ho : g.operands = [])
    (h : ∀ arg, Git.Readable g.args.tail arg → arg ∈ g.options) : g.Exposed r where
  readable arg hr := .inl (h arg hr)
  unguarded arg h := by rw [ho] at h; cases h
  given arg h := by rw [ho] at h; cases h

theorem exposed_of_mem_configStages {key value : String} (hkey : Git.isDashed key = false)
    (hgiven : (config dir key value).Gives r value) (h : g ∈ configStages dir key value) :
    g.Exposed r := by
  rw [eq_of_mem_configStages h]
  exact exposed_config hkey hgiven

theorem exposed_of_mem_script (hdir : dir.isAbsolute) (h : g ∈ r.script dir create files) :
    g.Exposed r := by
  simp only [PublishRequest.script, PublishRequest.publishStages, recordStages, cloneStages,
    List.mem_append, List.mem_cons, List.not_mem_nil, or_false, Option.mem_toList,
    Option.map_eq_some_iff] at h
  rcases h with (rfl | ⟨branch,hb,rfl⟩) | (rfl | rfl) | (h | h | rfl) | rfl
  · exact exposed_clone hdir
  · exact exposed_checkout hb
  · exact exposed_of_guarded rfl fun arg h => List.mem_singleton.mpr h.eq_separator
  · exact exposed_of_guarded rfl fun arg h => h.mem.1
  · exact exposed_of_mem_configStages (by decide) (.inl ⟨rfl,rfl⟩) h
  · exact exposed_of_mem_configStages (by decide) (.inr ⟨rfl,rfl⟩) h
  · refine exposed_of_guarded rfl fun arg h => ?_
    rcases h.of_operand with rfl | h
    · exact List.mem_cons_self ..
    · exact List.mem_cons_of_mem _ h
  · exact exposed_of_guarded rfl fun arg h => h.mem.1

/-- Where no unguarded argument looks like an option, there are only the options that are always
there. -/
theorem Exposed.options_of_plain (h : g.Exposed r) (hurl : Git.isDashed r.url = false)
    (hbranch : ∀ branch, r.branch = some branch → Git.isDashed branch = false)
    (hemail : Git.isDashed r.email = false) (huser : Git.isDashed r.user = false) {arg : String}
    (hr : Git.Readable g.args.tail arg) : arg ∈ g.options := by
  refine (h.readable arg hr).resolve_right fun ho => ?_
  have hgiven := h.given arg ho
  have hplain : Git.isDashed arg = false := by
    cases g with
    | clone => exact hgiven ▸ hurl
    | checkout => exact hbranch arg hgiven
    | config =>
      rcases hgiven with ⟨-,rfl⟩ | ⟨-,rfl⟩
      · exact hemail
      · exact huser
    | add | diff | commit | push => exact hgiven.elim
  cases hplain.symm.trans hr.mem.2

end Stage

/-- What git can take for options in a run of publishing from `s` to `t`, in which it is asked for
the stages of `made`. -/
structure Exposure (r : PublishRequest) (s t : Session) (made : List Exchange) : Prop where
  makes : s.Makes made t
  exposed : ∀ m ∈ made, m.1.Exposed r
  plain : Git.isDashed r.url = false →
    (∀ branch, r.branch = some branch → Git.isDashed branch = false) →
    Git.isDashed r.email = false → Git.isDashed r.user = false →
    ∀ m ∈ made, ∀ arg, Git.Readable m.1.args.tail arg → arg ∈ m.1.options
  -- a location that looks like an option is accepted only in the short form
  location : Location.validate r.url = .ok () → Git.isDashed r.url → Location.IsShort r.url

theorem exposure_of_exposed {r : PublishRequest} {s t : Session} {made : List Exchange}
    (hm : s.Makes made t) (h : ∀ m ∈ made, m.1.Exposed r) : Exposure r s t made where
  makes := hm
  exposed := h
  plain hurl hbranch hemail huser m hmem _ hr :=
    (h m hmem).options_of_plain hurl hbranch hemail huser hr
  location h hd := Location.isShort_of_dash h (by simpa [Git.isDashed] using hd)

/-- In every run, what git can take for an option is always there or looks like one in the
request. -/
theorem publish_exposure (request : PublishRequest) (s : Session) :
    ∃ made, Exposure request s ((Work.publish request).run s).2 made := by
  rcases Work.publish_ends request s with ⟨e,-,-,hm⟩ | ⟨dir,create,files,fresh,fs,ht,hb,h⟩
  · exact ⟨[],exposure_of_exposed hm nofun⟩
  · obtain ⟨made,h⟩ := transcript_of_ends ⟨fresh,fs,ht⟩ hb h
    have hdir := FileAction.isAbsolute_of_makeTemporary ht
    refine ⟨made,exposure_of_exposed h.makes fun m hm => ?_⟩
    exact Stage.exposed_of_mem_script hdir (h.inOrder.subset (List.mem_map_of_mem hm))

/-- A request whose location is accepted and looks like an option. -/
def dashedRequest : PublishRequest where
  url := "--upload-pack=run:x"
  branch := none
  bootstrap := false
  source := ⟨"/out"⟩
  subdir := none
  message := "update"
  user := "bot"
  email := "bot@example.com"
  stem := "site-"
  keep := false

/-- A location that is accepted may be read as an option, although no call is given such an
option. -/
theorem publish_reads_location : Location.validate dashedRequest.url = .ok () ∧
    Work.checkedSubdir dashedRequest.subdir = .ok ⟨""⟩ ∧
    ∃ call ∈ ((Work.publish dashedRequest).run idleSession).2.calls,
      Git.Readable call.args.tail dashedRequest.url ∧
        dashedRequest.url ∉ ["-b", "--", "--cached", "--quiet", "-m"] ∧
          ¬ "--author=".toList <+: dashedRequest.url.toList := by
  have hv : Location.validate dashedRequest.url = .ok () := by rfl
  obtain ⟨create,files,-,he⟩ := Work.publish_ends_of_made hv rfl idleSession.run_makeTemporary
  obtain ⟨reply,more,hm⟩ := he.makes_clone
  let clone := Stage.clone dashedRequest.url ⟨"/tmp/site-a1b2c3"⟩
  refine ⟨hv,rfl,clone.call idleSession.overrides,?_,?_,by decide,by decide⟩
  · rw [hm.calls]
    exact List.mem_append_right _ (List.mem_cons_self ..)
  · exact Git.readable_head (by decide)

end GitPublish
