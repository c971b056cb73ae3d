import GitPublish.Proofs.Acceptance
import GitPublish.Proofs.Shell.Quoting
import Mathlib.Data.Set.List

/-!
# Paths that start at home

A `~` stands for the home directory, and what stands behind `~/` lies below it. A shell puts it
there however many slashes there are. So does the program, unless a second slash follows the first:
then what is to be put behind the home directory is absolute, and takes its place. In either case
the path that is left has no `~` in front of it, and is not changed again.

Both leave a `~` alone that is the start of a name: the shell here knows of no other home directory
than its own.
-/
namespace GitPublish

namespace Path
variable {home p q r rest : Path}

/-! ## Where a `~` leads -/

/-- The home directory takes the place of the `~` that a path starts with. -/
structure AtHome (home p q : Path) : Prop where
  alone : p.text = "~" → q = home
  below : ∀ rest : Path, p.text = "~/" ++ rest.text → q.components = home.components ++ rest.inner
  -- without a step up, nothing leads out of the home directory
  inside : ∀ rest : Path, p.text = "~/" ++ rest.text → .parent ∉ rest.components →
    ∃ names : List (List Char), q.components = home.components ++ names.map .name
  kept : ¬ p.NeedsHome → q = p

/-- What stands behind the `~/` that a path starts with is absolute: a second slash is there. -/
def DropsHome (p : Path) : Prop := ∃ rest : Path, p.text = "~/" ++ rest.text ∧ rest.isAbsolute

theorem inner_eq_names (h : .parent ∉ p.components) :
    ∃ names : List (List Char), p.inner = names.map .name := by
  have hname : ∀ c ∈ p.inner, c ∈ Set.range Component.name := by
    intro c hc
    obtain ⟨hmem,hne⟩ := List.mem_filter.mp hc
    obtain ⟨hroot,hcurrent⟩ := of_decide_eq_true hne
    cases c with
    | name name => exact ⟨name,rfl⟩
    | root => exact absurd rfl hroot
    | current => exact absurd rfl hcurrent
    | parent => exact absurd hmem h
  have hrange : p.inner ∈ Set.range (List.map Component.name) := by
    rw [Set.range_list_map]
    exact hname
  obtain ⟨names,hnames⟩ := hrange
  exact ⟨names,hnames.symm⟩

theorem NeedsHome.cases (h : p.NeedsHome) :
    p.text = "~" ∨ ∃ rest : Path, p.text = "~/" ++ rest.text :=
  h.imp_right fun ⟨rest,hrest⟩ => ⟨⟨rest⟩,hrest⟩

theorem rest_unique (h : p.text = "~/" ++ rest.text) (hr : p.text = "~/" ++ r.text) : r = rest := by
  cases r
  cases rest
  exact congrArg Path.mk ((String.append_right_inj "~/").mp (hr.symm.trans h))

theorem toList_alone (h : p.text = "~") : p.text.toList = ['~'] := by
  rw [h]
  rfl

theorem toList_below (h : p.text = "~/" ++ rest.text) :
    p.text.toList = '~' :: '/' :: rest.text.toList := by
  rw [h, String.toList_append]
  rfl

theorem not_alone (h : p.text = "~/" ++ rest.text) : p.text ≠ "~" := fun halone =>
  nomatch (toList_below h).symm.trans (toList_alone halone)

theorem NeedsHome.isAbsolute (h : p.NeedsHome) : p.isAbsolute = false := by
  unfold Path.isAbsolute
  rcases h.cases with h | ⟨rest,h⟩
  · rw [toList_alone h]
    rfl
  · rw [toList_below h]
    rfl

theorem atHome_alone (h : p.text = "~") : AtHome home p home where
  alone _ := rfl
  below _ hrest := absurd h (not_alone hrest)
  inside _ hrest := absurd h (not_alone hrest)
  kept hn := absurd (.inl h) hn

theorem atHome_below (h : p.text = "~/" ++ rest.text)
    (hq : q.components = home.components ++ rest.inner) : AtHome home p q where
  alone ha := absurd ha (not_alone h)
  below r hr := by rwa [rest_unique h hr]
  inside r hr hup := by
    obtain rfl := rest_unique h hr
    obtain ⟨names,hnames⟩ := inner_eq_names hup
    exact ⟨names,by rw [hq, hnames]⟩
  kept hn := absurd (.inr ⟨rest.text,h⟩) hn

theorem atHome_kept (h : ¬ p.NeedsHome) : AtHome home p p where
  alone ha := absurd (.inl ha) h
  below rest hrest := absurd (.inr ⟨rest.text,hrest⟩) h
  inside rest hrest := absurd (.inr ⟨rest.text,hrest⟩) h
  kept _ := rfl

/-- A path leads to one place only. -/
theorem AtHome.components_eq (hq : AtHome home p q) (hr : AtHome home p r) :
    q.components = r.components := by
  by_cases h : p.NeedsHome
  · rcases h.cases with h | ⟨rest,h⟩
    · rw [hq.alone h, hr.alone h]
    · rw [hq.below rest h, hr.below rest h]
  · rw [hq.kept h, hr.kept h]

/-! ## What the program makes of it -/

theorem expandHome?_alone (h : p.text = "~") (home : Option Path) : p.expandHome? home = home := by
  rw [expandHome?, toList_alone h]
  rfl

theorem expandHome?_below (h : p.text = "~/" ++ rest.text) (home : Option Path) :
    p.expandHome? home = home.map (· / rest) := by
  have hrest : (⟨String.ofList rest.text.toList⟩ : Path) = rest := by rw [String.ofList_toList]
  rw [expandHome?, toList_below h]
  change home.map (· / ⟨String.ofList rest.text.toList⟩) = _
  rw [hrest]

theorem expandHome?_kept (h : ¬ p.NeedsHome) (home : Option Path) :
    p.expandHome? home = some p := by
  unfold expandHome?
  split
  next htext => exact absurd (.inl (String.toList_inj.mp htext)) h
  next rest htext =>
    exact absurd (.inr ⟨String.ofList rest,String.toList_inj.mp (by simp [htext])⟩) h
  next => rfl

example : (⟨"~me/key"⟩ : Path).expandHome? (some ⟨"/home/me"⟩) = some ⟨"~me/key"⟩ := rfl

theorem div_of_isAbsolute (home : Path) (h : rest.isAbsolute) : home / rest = rest := by
  change home.join rest = rest
  rw [join, h, Bool.true_or, if_pos rfl]

theorem components_of_isAbsolute (h : p.isAbsolute) : p.components = [.root] ++ p.inner := by
  obtain ⟨body,hbody⟩ := isAbsolute_iff.mp h
  rw [inner_eq, components_eq, hbody, Text.splitOn_cons, if_pos rfl]
  rfl

theorem exists_expandHome? (home p : Path) : ∃ q, p.expandHome? (some home) = some q :=
  Option.ne_none_iff_exists'.mp fun h => nomatch (expandHome?_eq_none.mp h).1

section expanded
variable (hh : home.isAbsolute) (h : p.expandHome? (some home) = some q)
include hh h

/-- What is absolute takes the place of the home directory, which makes no difference only if that
is the root. -/
theorem components_below_iff (hp : p.text = "~/" ++ rest.text) :
    q.components = home.components ++ rest.inner ↔
      (p.DropsHome → home.components = [.root]) := by
  rw [expandHome?_below hp] at h
  obtain rfl : home / rest = q := Option.some.inj h
  by_cases hr : rest.isAbsolute
  -- behind the root and behind the home directory stand the same components
  · rw [div_of_isAbsolute home hr, components_of_isAbsolute hr]
    constructor
    · exact fun hsame _ => (List.append_cancel_right hsame).symm
    · exact fun hroot => by rw [hroot ⟨rest,hp,hr⟩]
  · refine iff_of_true ?_ ?_
    · exact components_div_of_relative (text_ne_of_isAbsolute hh) (Bool.eq_false_iff.mpr hr)
    · rintro ⟨r,hr',habsolute⟩
      exact absurd (rest_unique hp hr' ▸ habsolute) hr

/-- The home directory is where it should be, unless it is dropped and is not the root. -/
theorem atHome_iff : AtHome home p q ↔ (p.DropsHome → home.components = [.root]) := by
  by_cases hp : p.NeedsHome
  · rcases hp.cases with hp | ⟨rest,hp⟩
    · rw [expandHome?_alone hp] at h
      obtain rfl := Option.some.inj h
      refine iff_of_true (atHome_alone hp) ?_
      rintro ⟨rest,hrest,-⟩
      exact absurd hp (not_alone hrest)
    · rw [← components_below_iff hh h hp]
      exact ⟨fun hat => hat.below rest hp,atHome_below hp⟩
  · rw [expandHome?_kept hp] at h
    obtain rfl := Option.some.inj h
    refine iff_of_true (atHome_kept hp) ?_
    rintro ⟨rest,hrest,-⟩
    exact absurd (.inr ⟨rest.text,hrest⟩) hp

/-- So it is where another expansion has it, if that one is right. -/
theorem components_eq_iff (hr : AtHome home p r) :
    q.components = r.components ↔ (p.DropsHome → home.components = [.root]) := by
  constructor
  · rintro hsame ⟨rest,hrest,habsolute⟩
    rw [hr.below rest hrest] at hsame
    exact (components_below_iff hh h hrest).mp hsame ⟨rest,hrest,habsolute⟩
  · exact fun hroot => ((atHome_iff hh h).mpr hroot).components_eq hr

/-- What is left has no `~` in front of it. -/
theorem not_needsHome_of_expanded : ¬ q.NeedsHome := by
  have habsolute (hq : q.isAbsolute) : ¬ q.NeedsHome := fun hn =>
    Bool.false_ne_true (hn.isAbsolute.symm.trans hq)
  by_cases hp : p.NeedsHome
  · rcases hp.cases with hp | ⟨rest,hp⟩
    · rw [expandHome?_alone hp] at h
      exact habsolute (Option.some.inj h ▸ hh)
    · rw [expandHome?_below hp] at h
      exact habsolute (Option.some.inj h ▸ isAbsolute_div hh _)
  · rw [expandHome?_kept hp] at h
    exact Option.some.inj h ▸ hp

end expanded

end Path

/-! ## What a shell makes of it -/

namespace Shell

theorem Glyph.chars_glyphs (piece : Piece) : Glyph.chars piece.glyphs = piece.chars := by
  match piece with
  | .text true cs => simp [Piece.glyphs, Piece.chars, Glyph.ofQuoted, Glyph.chars]
  | .text false cs => simp [Piece.glyphs, Piece.chars, Glyph.chars]
  | .expansion quoted e => rfl

theorem Glyph.text_word (w : Word) : Glyph.text (w.flatMap Piece.glyphs) =
    String.ofList ((w.flatMap Piece.chars).map Prod.snd) := by
  have hchars : Glyph.chars (w.flatMap Piece.glyphs) = w.flatMap Piece.chars := by
    rw [Glyph.chars, List.filterMap_flatMap]
    exact congrArg (w.flatMap ·) (funext Glyph.chars_glyphs)
  rw [Glyph.text, hchars]

namespace Action
variable {s : State} {home : String} {cs : List Char} {w w' : Word}
  (output : List Char → Action (List UInt8)) (fuel : Nat)

theorem run_value? (name : String) (s : State) :
    ExceptT.run (value? name) s = (.ok (s.values.lookup name), s) := rfl

theorem run_atHome_tilde (hs : s.values.lookup "HOME" = some home)
    (hc : cs = [] ∨ cs.head? = some '/') : ExceptT.run (atHome [.text false ('~' :: cs)]) s =
      (.ok [.text true home.toList, .text false cs], s) := by
  have hends : (decide (cs.head?.getD '/' = '/') && (decide (cs ≠ []) ||
      decide (([] : Word) = []))) = true := by
    rcases hc with rfl | hc
    · rfl
    · simp [hc]
  rw [atHome, if_pos hends, run_bind, run_value?, hs]
  rfl

theorem run_atHome_other (hc : ∀ rest, cs = '~' :: rest → rest ≠ [] ∧ rest.head? ≠ some '/')
    (s : State) : ExceptT.run (atHome [.text false cs]) s = (.ok [.text false cs], s) := by
  unfold atHome
  split
  next rest behind hw =>
    obtain ⟨hpiece,rfl⟩ := List.cons.inj hw
    obtain ⟨-,hcs⟩ := Piece.text.inj hpiece
    obtain ⟨hne,hhead⟩ := hc rest hcs
    obtain ⟨c,rest,rfl⟩ := List.exists_cons_of_ne_nil hne
    have hslash : c ≠ '/' := fun he => hhead (congrArg some he)
    -- the `~` is the start of a name
    rw [if_neg (by simp [hslash])]
    rfl
  next => rfl

theorem run_wordText (ha : ExceptT.run (atHome w) s = (.ok w', s))
    (hw : ∀ piece ∈ w', ∃ quoted cs, piece = .text quoted cs) :
    ExceptT.run (wordText output (fuel + 1) w) s =
      (.ok (String.ofList ((w'.flatMap Piece.chars).map Prod.snd)), s) := by
  rw [wordText, run_bind, ha]
  dsimp only
  rw [run_bind, run_expand hw]
  dsimp only
  rw [run_pure, Glyph.text_word]

theorem run_wordText_tilde (hs : s.values.lookup "HOME" = some home)
    (hc : cs = [] ∨ cs.head? = some '/') :
    ExceptT.run (wordText output (fuel + 1) [.text false ('~' :: cs)]) s =
      (.ok (home ++ String.ofList cs), s) := by
  have htext : String.ofList ((([.text true home.toList, .text false cs] : Word).flatMap
      Piece.chars).map Prod.snd) = home ++ String.ofList cs :=
    String.toList_inj.mp (by simp [Piece.chars, Function.comp_def, String.toList_append])
  rw [run_wordText output fuel (run_atHome_tilde hs hc) (by simp), htext]

/-- A shell puts the home directory where it should be. -/
theorem exists_wordText {home p : Path} (hh : home.isAbsolute)
    (hs : s.values.lookup "HOME" = some home.text) : ∃ q : Path,
      ExceptT.run (wordText output (fuel + 1) [.text false p.text.toList]) s =
        (.ok q.text, s) ∧ Path.AtHome home p q := by
  by_cases hp : p.NeedsHome
  · rcases hp.cases with hp | ⟨rest,hp⟩
    · refine ⟨home,?_,Path.atHome_alone hp⟩
      rw [Path.toList_alone hp, run_wordText_tilde output fuel hs (.inl rfl)]
      simp
    · refine ⟨⟨home.text ++ String.ofList ('/' :: rest.text.toList)⟩,?_,Path.atHome_below hp ?_⟩
      · rw [Path.toList_below hp, run_wordText_tilde output fuel hs (.inr rfl)]
      · have hne : home.text.toList ≠ [] :=
          mt String.toList_eq_nil_iff.mp (Path.text_ne_of_isAbsolute hh)
        have hjoin : home.text ++ String.ofList ('/' :: rest.text.toList) =
            String.ofList (home.text.toList ++ '/' :: rest.text.toList) :=
          String.toList_inj.mp (by simp [String.toList_append])
        rw [hjoin, Path.components_slash hne, String.ofList_toList, Path.inner_eq]
  · refine ⟨p,?_,Path.atHome_kept hp⟩
    have hother : ∀ rest, p.text.toList = '~' :: rest → rest ≠ [] ∧ rest.head? ≠ some '/' := by
      refine fun rest hrest => ⟨?_,fun hslash => ?_⟩
      · rintro rfl
        exact hp (.inl (String.toList_inj.mp hrest))
      · obtain ⟨more,rfl⟩ := List.head?_eq_some_iff.mp hslash
        exact hp (.inr ⟨String.ofList more,String.toList_inj.mp (by simp [hrest])⟩)
    rw [run_wordText output fuel (run_atHome_other hother s) (by simp)]
    simp [Piece.chars, Function.comp_def]

end Action
end Shell

/-! ## What is published, and with which key -/

/-- What a path is expanded to, where the home directory is known. It is the right place, and where
a shell has it, if and only if the home directory is not dropped, or is the root. -/
structure Path.Expands (home p q : Path) : Prop where
  expanded : p.expandHome? (some home) = some q
  again : q.expandHome? (some home) = some q
  atHome : AtHome home p q ↔ (p.DropsHome → home.components = [.root])
  dropped : ∀ rest : Path, p.text = "~/" ++ rest.text → rest.isAbsolute → q = rest
  asShell : ∀ output fuel (s : Shell.State), s.values.lookup "HOME" = some home.text →
    ∃ r : Path, ExceptT.run (Shell.Action.wordText output (fuel + 1)
        [.text false p.text.toList]) s = (.ok r.text, s) ∧ AtHome home p r ∧
      (q.components = r.components ↔ (p.DropsHome → home.components = [.root]))

theorem Path.expands_of_expandHome? {home p q : Path} (hh : home.isAbsolute)
    (h : p.expandHome? (some home) = some q) : Expands home p q where
  expanded := h
  again := expandHome?_kept (not_needsHome_of_expanded hh h) (some home)
  atHome := atHome_iff hh h
  dropped rest hrest habsolute := by
    rw [expandHome?_below hrest] at h
    rw [← div_of_isAbsolute home habsolute]
    exact (Option.some.inj h).symm
  asShell output fuel s hs := by
    obtain ⟨r,hr,hat⟩ := Shell.Action.exists_wordText output fuel hh hs
    exact ⟨r,hr,hat,components_eq_iff hh h hat⟩

theorem Session.Makes.environment {s t : Session} {made : List Exchange} (h : s.Makes made t)
    (hs : s.calls = []) : ∀ call ∈ t.calls, call.environment = s.overrides := by
  intro call hc
  rw [h.calls, hs, List.nil_append] at hc
  obtain ⟨m,-,rfl⟩ := List.mem_map.mp hc
  rfl

theorem Work.publish_makes (request : PublishRequest) (s : Session) :
    ∃ made, s.Makes made ((publish request).run s).2 := by
  rcases publish_ends request s with ⟨e,-,-,hm⟩ | ⟨dir,create,files,fresh,fs,ht,hb,h⟩
  · exact ⟨[],hm⟩
  · obtain ⟨made,h⟩ := transcript_of_ends ⟨fresh,fs,ht⟩ hb h
    exact ⟨made,h.makes⟩

theorem Config.keyPath?_home (c : Config) (home : Path) :
    c.keyPath? (some home) = .ok (c.privateKey.bind (·.expandHome? (some home))) := by
  unfold keyPath?
  cases c.privateKey with
  | none => rfl
  | some key =>
    obtain ⟨path,hpath⟩ := Path.exists_expandHome? home key
    dsimp only [Option.bind]
    rw [hpath]

namespace Job
open CommandLine (PushArguments)

/-- Every call that publishing makes is given the key. -/
theorem environment_of_publishing (key : Option Path) (request : PublishRequest) (m : Machine) :
    ∀ call ∈ (m.perform (publishing key request)).2.2.calls,
      call.environment = keyOverrides key := by
  obtain ⟨made,hm⟩ := Work.publish_makes request (sessionOf key { machine := m })
  have hcalls := hm.environment rfl
  rw [Machine.perform, run_publishing]
  rcases hpublish : (Work.publish request).run (sessionOf key { machine := m }) with
    ⟨cause | outcome, t⟩ <;> rw [hpublish] at hcalls <;> exact hcalls

/-- What is published, and the key that every call is given, are what the paths that are given for
them are expanded to. -/
theorem push_expands (home : Path) (hh : home.isAbsolute) :
    (∀ p : Path, ∃ q, Path.Expands home p q) ∧
    ∀ (m : Machine) (args : PushArguments), m.home? = some home → ¬ Refused m args →
      ∃ path c source, m.config? = .ok (path, c) ∧ Path.Expands home args.source source ∧
        let key := (args.sshKey.or c.privateKey).bind (·.expandHome? (some home))
        let done := execute m (.push args)
        done = m.perform (publishing key (request c args source)) ∧
          ∀ call ∈ done.2.2.calls, call.environment = keyOverrides key := by
  refine ⟨fun p => ?_,fun m args hm h => ?_⟩
  · obtain ⟨q,hq⟩ := Path.exists_expandHome? home p
    exact ⟨q,Path.expands_of_expandHome? hh hq⟩
  obtain ⟨path,c,source,key,-,hconfig,ha,-,hrun⟩ := accepts_of_not_refused h
  have hkey := ha.key
  have hsource := ha.expanded
  rw [hm] at hkey hsource
  rw [Config.keyPath?_home] at hkey
  have hdone : execute m (.push args) = m.perform (publishing key (request c args source)) := by
    rw [execute_eq, follow, Machine.perform, hrun]
    rfl
  obtain rfl := Except.ok.inj hkey
  refine ⟨path,c,source,hconfig,Path.expands_of_expandHome? hh hsource,hdone,?_⟩
  rw [hdone]
  exact environment_of_publishing _ _ m

/-- The machine with the directory `/site`, which is the home directory. -/
def homeMachine : Machine :=
  { siteMachine with environment := ("HOME", "/site") :: siteMachine.environment }

/-- What is given for publishing the home directory, with a key that lies there. -/
def homeArguments : PushArguments :=
  { siteArguments with source := ⟨"~"⟩, sshKey := some ⟨"~/.ssh/key"⟩ }

theorem accepts_home : homeMachine.config? = .ok (⟨"/gitwrite.toml"⟩, {}) ∧
    Accepts homeMachine {} homeArguments ⟨"/site"⟩ (some ⟨"/site/.ssh/key"⟩) := by
  obtain ⟨hconfig,ha⟩ := accepts_site
  obtain ⟨-,hload⟩ := Machine.config?_eq_ok.mp hconfig
  have hgit : isInstalled homeMachine "git" = isInstalled siteMachine "git" := rfl
  exact ⟨Machine.config?_eq_ok.mpr ⟨rfl,hload⟩,ha.location,rfl,rfl,ha.directory,ha.user,ha.email,
    hgit.trans ha.git⟩

theorem push_expands_home : (⟨"/site"⟩ : Path).isAbsolute ∧
    homeMachine.home? = some ⟨"/site"⟩ ∧ ¬ Refused homeMachine homeArguments ∧
    Path.AtHome ⟨"/site"⟩ ⟨"~/.ssh/key"⟩ ⟨"/site/.ssh/key"⟩ ∧
    execute homeMachine (.push homeArguments) = homeMachine.perform
      (publishing (some ⟨"/site/.ssh/key"⟩) (request {} homeArguments ⟨"/site"⟩)) := by
  have habsolute : (⟨"/site"⟩ : Path).isAbsolute := by decide
  obtain ⟨hconfig,ha⟩ := accepts_home
  have hrefused : ¬ Refused homeMachine homeArguments := by
    intro h
    obtain ⟨p,hp,-⟩ := ha.subdir_of_refused hconfig h
    cases hp
  obtain ⟨hpaths,hruns⟩ := push_expands ⟨"/site"⟩ habsolute
  refine ⟨habsolute,rfl,hrefused,?_,?_⟩
  · obtain ⟨q,hq⟩ := hpaths ⟨"~/.ssh/key"⟩
    obtain rfl : (⟨"/site/.ssh/key"⟩ : Path) = q := Option.some.inj hq.expanded
    refine hq.atHome.mpr ?_
    rintro ⟨rest,hrest,hslash⟩
    have hkey : "~/.ssh/key" = "~/" ++ (⟨".ssh/key"⟩ : Path).text := rfl
    obtain rfl := Path.rest_unique hkey hrest
    cases hslash
  · obtain ⟨path,c,source,hc,hsource,hdone,-⟩ := hruns homeMachine homeArguments rfl hrefused
    obtain ⟨-,rfl⟩ := Prod.mk.inj (Except.ok.inj (hconfig.symm.trans hc))
    obtain rfl : (⟨"/site"⟩ : Path) = source := Option.some.inj hsource.expanded
    exact hdone

end Job

/-- A key behind a second slash is looked for at the root. -/
theorem Path.expandHome?_drops_home : (⟨"/home/me"⟩ : Path).isAbsolute ∧
    (⟨"~//.ssh/key"⟩ : Path).expandHome? (some ⟨"/home/me"⟩) = some ⟨"/.ssh/key"⟩ ∧
    ¬ AtHome ⟨"/home/me"⟩ ⟨"~//.ssh/key"⟩ ⟨"/.ssh/key"⟩ := by
  have habsolute : (⟨"/home/me"⟩ : Path).isAbsolute := by decide
  have hdrops : (⟨"~//.ssh/key"⟩ : Path).DropsHome := ⟨⟨"/.ssh/key"⟩,rfl,by decide⟩
  have hhome : (⟨"/home/me"⟩ : Path).components ≠ [.root] := by decide
  exact ⟨habsolute,rfl,fun hat => hhome ((atHome_iff habsolute rfl).mp hat hdrops)⟩

end GitPublish
