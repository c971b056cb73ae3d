import GitPublish.Proofs.Location

/-!
# How a text without `://` is read

The parts of the short form are told one by one: each rule says where a part ends in what the part
before it leaves. At most one split of a text is told so, and it is the preferred one. A text
without `://` names the location with these parts, or else a local path.
-/
namespace GitPublish

namespace Text
variable {c d : Char} {cs before behind xs ys : List Char}

/-- The text before the first `c`, and the text behind it. -/
def FirstAt (c : Char) (cs before behind : List Char) : Prop :=
  cs = before ++ c :: behind ∧ c ∉ before

theorem FirstAt.takeWhile_drop (h : FirstAt c cs before behind) :
    cs.takeWhile (fun x => x ≠ c) = before ∧ cs.drop before.length = c :: behind := by
  refine (takeWhile_drop_iff (fun x => x ≠ c) c (by simp) cs before behind).mpr ⟨h.1,?_⟩
  intro x hx
  have hne : x ≠ c := fun hc => h.2 (hc ▸ hx)
  simpa using hne

theorem FirstAt.unique (h : FirstAt c cs before behind) (h' : FirstAt c cs xs ys) :
    before = xs ∧ behind = ys := by
  obtain ⟨htake,hdrop⟩ := h.takeWhile_drop
  obtain ⟨htake',hdrop'⟩ := h'.takeWhile_drop
  have hbefore : before = xs := htake.symm.trans htake'
  rw [hbefore, hdrop'] at hdrop
  exact ⟨hbefore,(List.cons.inj hdrop).2.symm⟩

/-- Of a character that does not come before another, the other comes before it. -/
theorem mem_of_append_eq (h : before ++ c :: behind = xs ++ d :: ys) (hd : d ∉ before)
    (hne : d ≠ c) : c ∈ xs := by
  rcases List.append_eq_append_iff.mp h with ⟨as,hxs,hc⟩ | ⟨bs,hbefore,hd'⟩
  · cases as with
    | nil => exact absurd (List.cons.inj hc).1.symm hne
    | cons a as =>
      rw [hxs, (List.cons.inj hc).1]
      simp
  · cases bs with
    | nil => exact absurd (List.cons.inj hd').1 hne
    | cons b bs =>
      apply absurd _ hd
      rw [hbefore, (List.cons.inj hd').1]
      simp

end Text

namespace ShortForm
variable {cs behind tail behind' tail' digits path : List Char} {f g : ShortForm} {l : Location}

def IsPath (path : List Char) : Prop := ∃ c rest, path = c :: rest ∧ c ≠ '\\' ∧ '\n' ∉ rest

/-- The text can be split so that it has a user. -/
def HasUser (cs : List Char) : Prop := ∃ g : ShortForm, g.Splits cs ∧ g.user ≠ none

/-- The text is a port and a path with a slash between them. -/
def HasPort (cs digits path : List Char) : Prop :=
  cs = digits ++ '/' :: path ∧ IsPort digits ∧ IsPath path

/-- The parts are a split of the text, told one by one: `behind` is what the user leaves of it, and
`tail` is what the host leaves of that. -/
structure Told (f : ShortForm) (cs behind tail : List Char) : Prop where
  splits : f.Splits cs
  user : HasUser cs → ∃ user, f.user = some user ∧ Text.FirstAt '@' cs user behind
  userless : ¬ HasUser cs → f.user = none ∧ behind = cs
  host : Text.FirstAt ':' behind f.host tail
  port : ∀ digits path, HasPort tail digits path → f.port = some digits ∧ f.path = path
  portless : (∀ digits path, ¬ HasPort tail digits path) → f.port = none ∧ f.path = tail

theorem IsPort.slash_not_mem (h : IsPort digits) : '/' ∉ digits := by
  intro hmem
  exact absurd (h.2.2 _ hmem) (by decide)

theorem IsHost.colon_not_mem {host : List Char} (h : IsHost host) : ':' ∉ host := by
  intro hmem
  exact (h.2 _ hmem).1 rfl

theorem IsHost.slash_not_mem {host : List Char} (h : IsHost host) : '/' ∉ host := by
  intro hmem
  exact (h.2 _ hmem).2.1 rfl

theorem HasPort.unique {digits' path' : List Char} (h : HasPort tail digits path)
    (h' : HasPort tail digits' path') : digits = digits' ∧ path = path' := by
  have hfirst : Text.FirstAt '/' tail digits path := ⟨h.1,h.2.1.slash_not_mem⟩
  exact hfirst.unique ⟨h'.1,h'.2.1.slash_not_mem⟩

theorem Told.unique (h : f.Told cs behind tail) (h' : g.Told cs behind' tail') : f = g := by
  have huser : f.user = g.user ∧ behind = behind' := by
    by_cases hu : HasUser cs
    · obtain ⟨user,hf,hfirst⟩ := h.user hu
      obtain ⟨user',hg,hfirst'⟩ := h'.user hu
      obtain ⟨rfl,rfl⟩ := hfirst.unique hfirst'
      exact ⟨hf.trans hg.symm,rfl⟩
    · obtain ⟨hf,rfl⟩ := h.userless hu
      obtain ⟨hg,rfl⟩ := h'.userless hu
      exact ⟨hf.trans hg.symm,rfl⟩
  obtain ⟨hu,rfl⟩ := huser
  obtain ⟨hhost,rfl⟩ := h.host.unique h'.host
  have hport : f.port = g.port ∧ f.path = g.path := by
    by_cases hp : ∃ digits path, HasPort tail digits path
    · obtain ⟨digits,path,hp⟩ := hp
      obtain ⟨hd,hpath⟩ := h.port digits path hp
      obtain ⟨hd',hpath'⟩ := h'.port digits path hp
      exact ⟨hd.trans hd'.symm,hpath.trans hpath'.symm⟩
    · have hnone : ∀ digits path, ¬ HasPort tail digits path :=
        fun digits path h => hp ⟨digits,path,h⟩
      obtain ⟨hd,hpath⟩ := h.portless hnone
      obtain ⟨hd',hpath'⟩ := h'.portless hnone
      exact ⟨hd.trans hd'.symm,hpath.trans hpath'.symm⟩
  cases f
  cases g
  rw [mk.injEq]
  exact ⟨hu,hhost,hport⟩

theorem Splits.hasPort (h : f.Splits cs) (hp : f.port = some digits) :
    HasPort f.tailText digits f.path := by
  refine ⟨?_,h.port digits hp,h.path⟩
  rw [tailText, hp]

theorem tailText_of_portless (h : f.port = none) : f.tailText = f.path := by
  rw [tailText, h]

/-- With a port in front of its path, a split is a split still. -/
theorem Splits.with_port (h : f.Splits cs) (hp : f.port = none)
    (hport : HasPort f.path digits path) :
    ShortForm.Splits { f with port := some digits, path := path } cs where
  user := h.user
  host := h.host
  port := by
    intro digits' hd
    rw [← Option.some.inj hd]
    exact hport.2.1
  path := hport.2.2
  text := by
    rw [← h.text]
    unfold ShortForm.text
    simp [hp, hport.1]

theorem Preferred.told (h : f.Preferred cs) : ∃ behind tail, f.Told cs behind tail := by
  have hport : ∀ digits path, HasPort f.tailText digits path →
      f.port = some digits ∧ f.path = path := by
    intro digits path hp
    rcases hf : f.port with - | digits'
    · -- the port that is left out could have been taken
      rw [tailText_of_portless hf] at hp
      cases h.port hf _ (h.splits.with_port hf hp) rfl
    · obtain ⟨rfl,rfl⟩ := (h.splits.hasPort hf).unique hp
      exact ⟨rfl,rfl⟩
  have hportless : (∀ digits path, ¬ HasPort f.tailText digits path) →
      f.port = none ∧ f.path = f.tailText := by
    intro hnone
    have hf : f.port = none := by
      apply Option.eq_none_iff_forall_ne_some.mpr
      intro digits hd
      exact hnone digits f.path (h.splits.hasPort hd)
    exact ⟨hf,(tailText_of_portless hf).symm⟩
  refine ⟨f.host ++ ':' :: f.tailText,f.tailText,h.splits,?_,?_,
    ⟨rfl,h.splits.host.colon_not_mem⟩,hport,hportless⟩
  · rintro ⟨g,hg,hne⟩
    obtain ⟨user,hf⟩ := Option.ne_none_iff_exists'.mp (fun hf => hne (h.user hf g hg))
    refine ⟨user,hf,?_,?_⟩
    · rw [← h.splits.text, text_of_user hf]
    · intro hmem
      exact ((h.splits.user user hf).2 _ hmem).1 rfl
  · intro hnone
    have hf : f.user = none := Decidable.byContradiction fun hne => hnone ⟨f,h.splits,hne⟩
    exact ⟨hf,by rw [← h.splits.text, text_of_no_user hf]⟩

/-- The split that is told is the one that is read. -/
theorem Told.preferred (h : f.Told cs behind tail) : f.Preferred cs := by
  have huser : f.user = none → ∀ g, Splits g cs → g.user = none := by
    intro hf g hg
    refine Decidable.byContradiction fun hne => ?_
    obtain ⟨user,hu,-⟩ := h.user ⟨g,hg,hne⟩
    cases hf.symm.trans hu
  obtain ⟨g,hg,-⟩ := h.splits.exists_parse? huser
  obtain ⟨behind',tail',hg'⟩ := (parse?_eq_some.mp hg).told
  rw [h.unique hg']
  exact parse?_eq_some.mp hg

/-- A text that can be split has a colon before its first slash. -/
theorem Splits.colon_mem (h : f.Splits cs) {before rest : List Char}
    (hcs : cs = before ++ '/' :: rest) : ':' ∈ before := by
  have hhost := h.host.slash_not_mem
  rw [← h.text] at hcs
  rcases hu : f.user with - | user
  · rw [text_of_no_user hu] at hcs
    exact Text.mem_of_append_eq hcs hhost (by decide)
  · have huser : '/' ∉ user := fun hmem => ((h.user user hu).2 _ hmem).2 rfl
    -- the user may have a colon itself, so the one behind the host is looked at
    have hfront : '/' ∉ user ++ '@' :: f.host := by simp [huser, hhost]
    rw [text_of_user hu, ← List.cons_append, ← List.append_assoc] at hcs
    exact Text.mem_of_append_eq hcs hfront (by decide)

def PortFits (f : ShortForm) : Prop := ∀ digits, f.port = some digits → value digits ≤ 65535

/-- The location with these parts, where the port is the number that its digits write. -/
def location (f : ShortForm) : Location where
  scheme := "ssh"
  user := f.user.map String.ofList
  host := String.ofList f.host
  port := f.port.map value
  path := String.ofList f.path

theorem location?_eq_some : f.location? = some l ↔ f.PortFits ∧ l = f.location := by
  unfold location? PortFits location
  rcases f.port with - | digits
  · simp [eq_comm]
  · simp only [Option.some.injEq, forall_eq', Option.map_some]
    split
    next hlt => simp [eq_comm, Nat.le_of_lt_succ hlt]
    next hlt => simp [Nat.not_le.mpr (Nat.lt_of_succ_le (Nat.le_of_not_lt hlt))]

end ShortForm

namespace Location
variable {text : String} {l : Location}

structure Unmarked (text : String) (l : Location) : Prop where
  -- a location over SSH has the parts that the text is told to have
  parts : l.scheme = "ssh" → ∃ f behind tail, ShortForm.Told f text.toList behind tail ∧
    f.PortFits ∧ l = f.location
  unique : ∀ f g behind tail behind' tail', ShortForm.Told f text.toList behind tail →
    ShortForm.Told g text.toList behind' tail' → f = g
  ssh : ∀ f behind tail, ShortForm.Told f text.toList behind tail → f.PortFits → l = f.location
  file : l.scheme ≠ "ssh" →
    l = { scheme := "file", user := none, host := "", port := none, path := text }
  -- a slash before the first colon makes the text a path
  slash : ∀ before rest, text.toList = before ++ '/' :: rest → ':' ∉ before → l.scheme = "file"

theorem unmarked_cases (h : ¬ "://".toList <:+: text.toList) :
    ∃ l, parse text = .ok l ∧
      ((∃ f : ShortForm, f.Preferred text.toList ∧ f.PortFits ∧ l = f.location) ∨
        (∀ f : ShortForm, f.Preferred text.toList → ¬ f.PortFits) ∧ l = ofPath text) := by
  refine ⟨_,if_neg (mt (Text.contains_iff _ _).mp h),?_⟩
  rcases hread : (ShortForm.parse? text.toList).bind ShortForm.location? with - | l
  · refine .inr ⟨fun f hf hport => ?_,rfl⟩
    rw [ShortForm.parse?_eq_some.mpr hf, Option.bind_some,
      ShortForm.location?_eq_some.mpr ⟨hport,rfl⟩] at hread
    cases hread
  · obtain ⟨f,hf,hl⟩ := Option.bind_eq_some_iff.mp hread
    exact .inl ⟨f,ShortForm.parse?_eq_some.mp hf,ShortForm.location?_eq_some.mp hl⟩

theorem unmarked_of_short {f : ShortForm} (hf : f.Preferred text.toList) (hport : f.PortFits) :
    Unmarked text f.location where
  parts := by
    intro _
    obtain ⟨behind,tail,htold⟩ := hf.told
    exact ⟨f,behind,tail,htold,hport,rfl⟩
  unique := fun _ _ _ _ _ _ h h' => h.unique h'
  ssh := by
    intro g behind tail hg _
    obtain ⟨_,_,htold⟩ := hf.told
    rw [htold.unique hg]
  file := fun hne => absurd rfl hne
  slash := fun before rest hcs hmem => absurd (hf.splits.colon_mem hcs) hmem

theorem unmarked_of_path (h : ∀ f : ShortForm, f.Preferred text.toList → ¬ f.PortFits) :
    Unmarked text (ofPath text) where
  parts := by
    intro hs
    have hfile : "file" ≠ "ssh" := by decide
    exact absurd hs hfile
  unique := fun _ _ _ _ _ _ h h' => h.unique h'
  ssh := fun f _ _ hf hport => absurd hport (h f hf.preferred)
  file := fun _ => rfl
  slash := fun _ _ _ _ => rfl

/-- A text without `://` is always read, and as its parts are told. -/
theorem parse_unmarked (text : String) (h : ¬ "://".toList <:+: text.toList) :
    ∃ l, parse text = .ok l ∧ Unmarked text l := by
  obtain ⟨l,hl,⟨f,hf,hport,rfl⟩ | ⟨hnone,rfl⟩⟩ := unmarked_cases h
  · exact ⟨_,hl,unmarked_of_short hf hport⟩
  · exact ⟨_,hl,unmarked_of_path hnone⟩

/-- The user has a colon, the host has an `@`, and the port starts with a zero. -/
theorem parse_unmarked_nested : ¬ "://".toList <:+: "a:b@c@d:022/7/x".toList ∧
    parse "a:b@c@d:022/7/x" = .ok ⟨"ssh",some "a:b","c@d",some 22,"7/x"⟩ ∧
    Unmarked "a:b@c@d:022/7/x" ⟨"ssh",some "a:b","c@d",some 22,"7/x"⟩ := by
  have hmark : ¬ "://".toList <:+: "a:b@c@d:022/7/x".toList := by
    rw [← Text.contains_iff]
    decide
  have hparse : parse "a:b@c@d:022/7/x" = .ok ⟨"ssh",some "a:b","c@d",some 22,"7/x"⟩ := by rfl
  obtain ⟨l,hl,hread⟩ := parse_unmarked "a:b@c@d:022/7/x" hmark
  obtain rfl := Except.ok.inj (hparse.symm.trans hl)
  exact ⟨hmark,hparse,hread⟩

end Location
end GitPublish
