import GitPublish.Location

/-!
# How the short form is split

A text in the short form may be split into its parts in more than one way. The split that is read is
the one that has a user if any has, and then a port if any has; and it is found whenever there is a
split at all.
-/
namespace GitPublish

namespace Text

/-- A text is divided before the first character that is not in a class. -/
theorem takeWhile_drop_iff (p : Char → Bool) (sep : Char) (hsep : p sep = false)
    (cs xs ys : List Char) :
    (cs.takeWhile p = xs ∧ cs.drop xs.length = sep :: ys) ↔
      cs = xs ++ sep :: ys ∧ ∀ c ∈ xs, p c := by
  constructor
  · rintro ⟨rfl,hd⟩
    refine ⟨?_,fun c hc => List.all_eq_true.mp List.all_takeWhile c hc⟩
    have hp : cs.takeWhile p = cs.take (cs.takeWhile p).length :=
      List.prefix_iff_eq_take.mp (List.takeWhile_prefix p)
    rw [← hd, hp, List.length_take, Nat.min_eq_left (List.takeWhile_prefix p).length_le,
      List.take_append_drop]
  · rintro ⟨rfl,hall⟩
    have htake : (xs ++ sep :: ys).takeWhile p = xs := by
      rw [List.takeWhile_append_of_pos hall, List.takeWhile_cons_of_neg (by simp [hsep]),
        List.append_nil]
    exact ⟨htake,List.drop_left⟩

/-- A colon with no slash before it and none right behind it is not the mark of a URL. -/
theorem not_mark {xs ys : List Char} (hx : '/' ∉ xs) (hy : ':' ∉ ys)
    (hslash : ys.head? ≠ some '/') : ¬ "://".toList <:+: xs ++ ':' :: ys := by
  have hmark : "://".toList = ':' :: '/' :: ['/'] := by decide
  -- on what stands before the colon: a mark there would have its slashes before the colon too
  induction xs with
  | nil =>
    rw [List.nil_append, List.infix_cons_iff, not_or]
    constructor
    · rintro ⟨rest,hrest⟩
      rw [hmark, List.cons_append] at hrest
      rw [← (List.cons.inj hrest).2] at hslash
      exact hslash rfl
    · exact fun h => hy (h.subset (by decide))
  | cons x xs ih =>
    obtain ⟨-,hxs⟩ := not_or.mp (mt List.mem_cons.mpr hx)
    rw [List.cons_append, List.infix_cons_iff, not_or]
    constructor
    · rintro ⟨rest,hrest⟩
      rw [hmark, List.cons_append] at hrest
      have hslashes := (List.cons.inj hrest).2
      cases xs with
      | nil => cases (List.cons.inj hslashes).1
      | cons y xs =>
        rw [← (List.cons.inj hslashes).1] at hxs
        exact hxs (List.mem_cons_self ..)
    · exact ih hxs

end Text

namespace ShortForm
variable {cs rest user host digits path : List Char} {f g : ShortForm}

def IsUser (user : List Char) : Prop := user ≠ [] ∧ ∀ c ∈ user, c ≠ '@' ∧ c ≠ '/'

def IsHost (host : List Char) : Prop :=
  host ≠ [] ∧ ∀ c ∈ host, c ≠ ':' ∧ c ≠ '/' ∧ Text.isBlank c = false

/-- The digits of a port, as far as the short form looks at them. -/
def IsPort (digits : List Char) : Prop :=
  digits ≠ [] ∧ digits.length ≤ 5 ∧ ∀ c ∈ digits, c.isDigit

theorem isPath_iff : isPath path ↔ ∃ c rest, path = c :: rest ∧ c ≠ '\\' ∧ '\n' ∉ rest := by
  cases path with
  | nil => simp [isPath]
  | cons c rest =>
    simp only [isPath, Bool.and_eq_true, decide_eq_true_eq, Bool.not_eq_true', List.contains_eq_mem,
      decide_eq_false_iff_not]
    constructor
    · exact fun h => ⟨c,rest,rfl,h⟩
    · rintro ⟨c',rest',h,hpath⟩
      obtain ⟨rfl,rfl⟩ := List.cons.inj h
      exact hpath

theorem cutUser?_eq_some :
    cutUser? cs = some (user, rest) ↔ IsUser user ∧ cs = user ++ '@' :: rest := by
  have hcut := Text.takeWhile_drop_iff (fun c => c ≠ '@' && c ≠ '/') '@' (by decide) cs user rest
  have hclass : (∀ c ∈ user, (c ≠ '@' && c ≠ '/') = true) ↔ ∀ c ∈ user, c ≠ '@' ∧ c ≠ '/' := by
    simp
  constructor
  · intro h
    unfold cutUser? at h
    dsimp only at h
    split at h
    next rest' hd =>
      split at h
      · cases h
      next hne =>
        obtain ⟨hu,rfl⟩ := Prod.mk.inj (Option.some.inj h)
        obtain ⟨hcs,hall⟩ := hcut.mp ⟨hu,hu ▸ hd⟩
        exact ⟨⟨hu ▸ hne,hclass.mp hall⟩,hcs⟩
    · cases h
  · rintro ⟨⟨hne,hall⟩,hcs⟩
    obtain ⟨ht,hd⟩ := hcut.mpr ⟨hcs,hclass.mpr hall⟩
    unfold cutUser?
    simp only [ht, hd, if_neg hne]

theorem cutHost?_eq_some :
    cutHost? cs = some (host, rest) ↔ IsHost host ∧ cs = host ++ ':' :: rest := by
  have hcut := Text.takeWhile_drop_iff (fun c => c ≠ ':' && c ≠ '/' && !Text.isBlank c) ':'
    (by decide) cs host rest
  have hclass : (∀ c ∈ host, (c ≠ ':' && c ≠ '/' && !Text.isBlank c) = true) ↔
      ∀ c ∈ host, c ≠ ':' ∧ c ≠ '/' ∧ Text.isBlank c = false := by
    simp [and_assoc]
  constructor
  · intro h
    unfold cutHost? at h
    dsimp only at h
    split at h
    next rest' hd =>
      split at h
      · cases h
      next hne =>
        obtain ⟨hu,rfl⟩ := Prod.mk.inj (Option.some.inj h)
        obtain ⟨hcs,hall⟩ := hcut.mp ⟨hu,hu ▸ hd⟩
        exact ⟨⟨hu ▸ hne,hclass.mp hall⟩,hcs⟩
    · cases h
  · rintro ⟨⟨hne,hall⟩,hcs⟩
    obtain ⟨ht,hd⟩ := hcut.mpr ⟨hcs,hclass.mpr hall⟩
    unfold cutHost?
    simp only [ht, hd, if_neg hne]

theorem cutPort?_eq_some : cutPort? cs = some (digits, path) ↔
    IsPort digits ∧ isPath path ∧ cs = digits ++ '/' :: path := by
  have hcut := Text.takeWhile_drop_iff Char.isDigit '/' (by decide) cs digits path
  constructor
  · intro h
    unfold cutPort? at h
    dsimp only at h
    split at h
    next path' hd =>
      split at h
      next hp =>
        obtain ⟨hu,rfl⟩ := Prod.mk.inj (Option.some.inj h)
        obtain ⟨hcs,hall⟩ := hcut.mp ⟨hu,hu ▸ hd⟩
        rw [hu] at hp
        simp only [Bool.and_eq_true, decide_eq_true_eq] at hp
        exact ⟨⟨hp.1.1,hp.1.2,hall⟩,hp.2,hcs⟩
      · cases h
    · cases h
  · rintro ⟨⟨hne,hlen,hall⟩,hpath,hcs⟩
    obtain ⟨ht,hd⟩ := hcut.mpr ⟨hcs,hall⟩
    unfold cutPort?
    simp [ht, hd, hne, hlen, hpath]

structure Splits (f : ShortForm) (cs : List Char) : Prop where
  user : ∀ user, f.user = some user → IsUser user
  host : IsHost f.host
  port : ∀ digits, f.port = some digits → IsPort digits
  path : ∃ c rest, f.path = c :: rest ∧ c ≠ '\\' ∧ '\n' ∉ rest
  text : f.text = cs

/-- The split of a text that is preferred: if it has no user, then none has, and if it has no port,
then none has that agrees with it about the user. -/
structure Preferred (f : ShortForm) (cs : List Char) : Prop where
  splits : f.Splits cs
  user : f.user = none → ∀ g, Splits g cs → g.user = none
  port : f.port = none → ∀ g, Splits g cs → g.user.isSome = f.user.isSome → g.port = none

/-- The text of a port with the slash behind it, and of the path. -/
def tailText (f : ShortForm) : List Char :=
  match f.port with
  | some port => port ++ '/' :: f.path
  | none => f.path

theorem text_of_user (h : f.user = some user) :
    f.text = user ++ '@' :: (f.host ++ ':' :: f.tailText) := by
  unfold text tailText
  cases f.port <;> simp [h]

theorem text_of_no_user (h : f.user = none) : f.text = f.host ++ ':' :: f.tailText := by
  unfold text tailText
  cases f.port <;> simp [h]

/-- What is read behind a user is the split that has a port if one has. -/
theorem ofHost?_eq_some {user : Option (List Char)} : ofHost? user cs = some f ↔
    f.user = user ∧ IsHost f.host ∧ (∀ digits, f.port = some digits → IsPort digits) ∧
      isPath f.path ∧ cs = f.host ++ ':' :: f.tailText ∧
      (f.port = none → cutPort? f.path = none) := by
  constructor
  · intro h
    obtain ⟨⟨host,rest⟩,hh,h⟩ := Option.bind_eq_some_iff.mp h
    obtain ⟨hhost,hcs⟩ := cutHost?_eq_some.mp hh
    dsimp only at h
    split at h
    next digits path hp =>
      obtain ⟨hport,hpath,hrest⟩ := cutPort?_eq_some.mp hp
      cases h
      refine ⟨rfl,hhost,fun _ h => ?_,hpath,?_,nofun⟩
      · rwa [← Option.some.inj h]
      · rw [hcs, hrest]
        rfl
    next hp =>
      split at h
      next hpath =>
        cases h
        exact ⟨rfl,hhost,nofun,hpath,hcs,fun _ => hp⟩
      · cases h
  · rintro ⟨rfl,hhost,hport,hpath,hcs,hnone⟩
    refine Option.bind_eq_some_iff.mpr ⟨_,cutHost?_eq_some.mpr ⟨hhost,hcs⟩,?_⟩
    dsimp only
    rcases hp : f.port with - | digits
    · have htail : f.tailText = f.path := by rw [tailText, hp]
      rw [htail, hnone hp, if_pos hpath, ← hp]
    · have htail : f.tailText = digits ++ '/' :: f.path := by rw [tailText, hp]
      rw [cutPort?_eq_some.mpr ⟨hport _ hp,hpath,htail⟩]
      dsimp only
      rw [← hp]

theorem splits_iff : f.Splits cs ↔
    (∀ user, f.user = some user → IsUser user) ∧ IsHost f.host ∧
      (∀ digits, f.port = some digits → IsPort digits) ∧ isPath f.path ∧ f.text = cs :=
  ⟨fun h => ⟨h.user,h.host,h.port,isPath_iff.mpr h.path,h.text⟩,
    fun ⟨hu,hh,hp,hpath,ht⟩ => ⟨hu,hh,hp,isPath_iff.mp hpath,ht⟩⟩

/-- Whatever a text can be split into behind a user, something is read there. -/
theorem Splits.exists_ofHost? (h : g.Splits cs) :
    ∃ f, ofHost? g.user (g.host ++ ':' :: g.tailText) = some f ∧ f.user = g.user ∧
      (g.port ≠ none ∨ f.port = none → f = g) := by
  obtain ⟨-,hhost,hport,hpath,-⟩ := splits_iff.mp h
  by_cases hnone : g.port = none → cutPort? g.path = none
  · exact ⟨g,ofHost?_eq_some.mpr ⟨rfl,hhost,hport,hpath,rfl,hnone⟩,rfl,fun _ => rfl⟩
  obtain ⟨hp,hcut⟩ := Classical.not_imp.mp hnone
  obtain ⟨⟨digits,path⟩,hcut⟩ := Option.ne_none_iff_exists'.mp hcut
  obtain ⟨hdigits,hpath',hg⟩ := cutPort?_eq_some.mp hcut
  refine ⟨{ g with port := some digits, path },ofHost?_eq_some.mpr ?_,rfl,?_⟩
  · have htail : g.tailText = digits ++ '/' :: path := by rw [tailText, hp, ← hg]
    refine ⟨rfl,hhost,fun _ hd => ?_,hpath',by rw [htail]; rfl,nofun⟩
    rwa [← Option.some.inj hd]
  · rintro (hne | hne)
    · exact absurd hp hne
    · cases hne

theorem splits_of_parse? (h : parse? cs = some f) : f.Splits cs := by
  rcases Option.or_eq_some_iff.mp h with h | ⟨-,h⟩
  · obtain ⟨⟨user,rest⟩,hu,hread⟩ := Option.bind_eq_some_iff.mp h
    obtain ⟨huser,rfl⟩ := cutUser?_eq_some.mp hu
    obtain ⟨hf,hhost,hport,hpath,hrest,-⟩ := ofHost?_eq_some.mp hread
    refine splits_iff.mpr ⟨fun user' h => ?_,hhost,hport,hpath,?_⟩
    · rwa [Option.some.inj (h.symm.trans hf)]
    · rw [text_of_user hf, ← hrest]
  · obtain ⟨hf,hhost,hport,hpath,hcs,-⟩ := ofHost?_eq_some.mp h
    refine splits_iff.mpr ⟨fun user h => ?_,hhost,hport,hpath,?_⟩
    · cases hf.symm.trans h
    · rw [text_of_no_user hf, ← hcs]

/-- A text that can be split is read, with a user if any split has one. -/
theorem Splits.exists_parse? (h : g.Splits cs)
    (hu : g.user = none → ∀ f, Splits f cs → f.user = none) :
    ∃ f, parse? cs = some f ∧ f.user = g.user ∧ (g.port ≠ none ∨ f.port = none → f = g) := by
  obtain ⟨f,hf,huser,hport⟩ := h.exists_ofHost?
  refine ⟨f,?_,huser,hport⟩
  rcases hg : g.user with - | user
  · -- no split has a user, so nothing is read behind one
    have hnone : (cutUser? cs).bind (fun x => ofHost? (some x.1) x.2) = none := by
      refine Option.eq_none_iff_forall_ne_some.mpr fun f' hf' => ?_
      have hs : f'.Splits cs := splits_of_parse? (Option.or_eq_some_iff.mpr (.inl hf'))
      obtain ⟨_,-,hread⟩ := Option.bind_eq_some_iff.mp hf'
      cases (hu hg f' hs).symm.trans (ofHost?_eq_some.mp hread).1
    rw [hg, ← text_of_no_user hg, h.text] at hf
    exact Option.or_eq_some_iff.mpr (.inr ⟨hnone,hf⟩)
  · have hcs := h.text
    rw [text_of_user hg] at hcs
    rw [hg] at hf
    exact Option.or_eq_some_iff.mpr (.inl (Option.bind_eq_some_iff.mpr
      ⟨_,cutUser?_eq_some.mpr ⟨h.user user hg,hcs.symm⟩,hf⟩))

/-- A text is read as the split that is preferred. -/
theorem parse?_eq_some : parse? cs = some f ↔ f.Preferred cs := by
  constructor
  · intro h
    have huser : f.user = none → ∀ g, Splits g cs → g.user = none := by
      intro hf g hg
      refine Decidable.byContradiction fun hne => ?_
      obtain ⟨f',hf',hu,-⟩ := hg.exists_parse? fun hn => absurd hn hne
      obtain rfl := Option.some.inj (h.symm.trans hf')
      exact hne (hu.symm.trans hf)
    refine ⟨splits_of_parse? h,huser,fun hf g hg hsome => ?_⟩
    obtain ⟨f',hf',-,hport⟩ := hg.exists_parse? fun hn => huser (by simpa [hn] using hsome.symm)
    obtain rfl := Option.some.inj (h.symm.trans hf')
    rw [← hport (.inr hf), hf]
  · intro h
    obtain ⟨f',hf',hu,hport⟩ := h.splits.exists_parse? h.user
    refine hf'.trans (congrArg some (hport ?_))
    by_cases hp : f.port = none
    · exact .inr (h.port hp f' (splits_of_parse? hf') (by rw [hu]))
    · exact .inl hp

end ShortForm

end GitPublish
