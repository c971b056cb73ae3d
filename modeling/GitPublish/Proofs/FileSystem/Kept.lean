import GitPublish.FileSystem.Trace

/-!
# What survives a change of the files

A change keeps what was there if directories and links stay as they are and files stay files. Paths
then lead where they led before: all that a way passes through are directories and links.
-/
namespace GitPublish

/-- Whether an entry survives in what is found in its place. -/
def Entry.KeptAs (e : Entry) (new : Option Entry) : Prop :=
  match e with
  | .file .. => ∃ mode content, new = some (.file mode content)
  | e => new = some e

theorem Entry.keptAs_self (e : Entry) : e.KeptAs (some e) := by
  cases e with
  | file mode content => exact ⟨mode,content,rfl⟩
  | directory | link => rfl

theorem Entry.KeptAs.trans {e : Entry} {new : Option Entry} (h : e.KeptAs new)
    {newer : Option Entry} (k : ∀ e', new = some e' → e'.KeptAs newer) : e.KeptAs newer := by
  cases e with
  | file =>
    obtain ⟨mode,content,h⟩ := h
    exact k (.file mode content) h
  | directory | link => exact k _ h

namespace FileSystem

/-- Everything lies in a directory, up to the root. -/
structure IsTree (fs : FileSystem) : Prop where
  root : fs.isDirectoryAt []
  parent : ∀ a name, fs.get? (a ++ [name]) ≠ none → fs.isDirectoryAt a

/-- Everything that is found in one file system is found in the other. -/
structure Keeps (fs fs' : FileSystem) : Prop where
  current : fs'.current = fs.current
  kept : ∀ a e, fs.get? a = some e → e.KeptAs (fs'.get? a)

variable {fs fs' fs'' : FileSystem} {a b : Address}

theorem isDirectoryAt_iff : fs.isDirectoryAt a ↔ ∃ mode, fs.get? a = some (.directory mode) := by
  unfold isDirectoryAt
  rcases fs.get? a with - | (mode | ⟨mode,content⟩ | target) <;> simp [Entry.isDirectory]

theorem isDirectoryAt_put (fs : FileSystem) (a : Address) (mode : Nat) :
    (fs.put a (.directory mode)).isDirectoryAt a :=
  isDirectoryAt_iff.mpr ⟨mode,get?_put_self ..⟩

/-- What is placed where nothing was is found in no other place. -/
theorem eq_of_put_eq {e e' : Entry} (h : fs.put a e = fs.put b e') (hb : fs.get? b = none) :
    b = a := by
  refine Decidable.by_contra fun hne => ?_
  have hput : (fs.put a e).get? b = some e' := by rw [h, get?_put_self]
  rw [get?_put_of_ne fs e hne, hb] at hput
  cases hput

theorem ne_none_of_isDirectoryAt (h : fs.isDirectoryAt a) : fs.get? a ≠ none := by
  obtain ⟨mode,h⟩ := isDirectoryAt_iff.mp h
  simp [h]

theorem ne_link_of_isDirectoryAt (h : fs.isDirectoryAt a) (target : String) :
    fs.get? a ≠ some (.link target) := by
  obtain ⟨mode,h⟩ := isDirectoryAt_iff.mp h
  simp [h]

theorem IsTree.dropLast (h : fs.IsTree) (ha : fs.get? a ≠ none) : fs.isDirectoryAt a.dropLast := by
  rcases List.eq_nil_or_concat a with rfl | ⟨dir,name,rfl⟩
  · exact h.root
  · rw [List.concat_eq_append] at ha ⊢
    rw [List.dropLast_concat]
    exact h.parent dir name ha

theorem get?_ne_none_iff (fs : FileSystem) (a : Address) :
    fs.get? a ≠ none ↔ a = [] ∨ ∃ x ∈ fs.entries, a = x.1 := by
  have hl : fs.entries.lookup a = none ↔ ∀ x ∈ fs.entries, a ≠ x.1 := by
    simp [List.lookup_eq_none_iff]
  unfold get?
  rcases h : fs.entries.lookup a with - | e
  · have hne := hl.mp h
    by_cases ha : a = []
    · simp [ha]
    · simp only [ha, if_false, ne_eq, not_true_eq_false, false_or, false_iff]
      rintro ⟨x,hx,rfl⟩
      exact hne x hx rfl
  · refine ⟨fun _ => .inr (Decidable.byContradiction fun hn => ?_),fun _ => by simp⟩
    rw [hl.mpr fun x hx ha => hn ⟨x,hx,ha⟩] at h
    cases h

/-- Whether files make a tree can be told from what is stored. -/
theorem isTree_iff (fs : FileSystem) :
    fs.IsTree ↔ fs.isDirectoryAt [] ∧ ∀ x ∈ fs.entries, fs.isDirectoryAt x.1.dropLast := by
  refine ⟨fun h => ⟨h.root,fun x hx => h.dropLast ?_⟩,fun ⟨hroot,h⟩ => ⟨hroot,fun a name hn => ?_⟩⟩
  · exact (fs.get?_ne_none_iff _).mpr (.inr ⟨x,hx,rfl⟩)
  · rcases (fs.get?_ne_none_iff _).mp hn with hnil | ⟨x,hx,ha⟩
    · simp at hnil
    · have hd := h x hx
      rwa [← ha, List.dropLast_concat] at hd

instance : DecidablePred IsTree := fun fs => decidable_of_iff' _ fs.isTree_iff

theorem IsTree.below (h : fs.IsTree) (ha : fs.get? a = none) (hb : a <+: b) :
    fs.get? b = none := by
  obtain ⟨rest,rfl⟩ := hb
  induction rest generalizing a with
  | nil => rwa [List.append_nil]
  | cons name rest ih =>
    have hn : fs.get? (a ++ [name]) = none := by
      refine Decidable.byContradiction fun hne => ?_
      obtain ⟨mode,hd⟩ := isDirectoryAt_iff.mp (h.parent a name hne)
      rw [ha] at hd
      cases hd
    have hr := ih hn
    rwa [List.append_assoc] at hr

theorem IsTree.above (h : fs.IsTree) (hb : fs.get? b ≠ none) (ha : a <+: b) :
    fs.get? a ≠ none := fun hn => hb (h.below hn ha)

theorem Keeps.refl (fs : FileSystem) : fs.Keeps fs where
  current := rfl
  kept _ e h := h ▸ e.keptAs_self

theorem Keeps.trans (h : fs.Keeps fs') (k : fs'.Keeps fs'') : fs.Keeps fs'' where
  current := k.current.trans h.current
  kept a e ha := (h.kept a e ha).trans fun e' he' => k.kept a e' he'

theorem Keeps.directory (h : fs.Keeps fs') {mode : Nat} (ha : fs.get? a = some (.directory mode)) :
    fs'.get? a = some (.directory mode) := h.kept a _ ha

theorem Keeps.link (h : fs.Keeps fs') {target : String} (ha : fs.get? a = some (.link target)) :
    fs'.get? a = some (.link target) := h.kept a _ ha

theorem Keeps.isDirectoryAt (h : fs.Keeps fs') (ha : fs.isDirectoryAt a) :
    fs'.isDirectoryAt a := by
  obtain ⟨mode,ha⟩ := isDirectoryAt_iff.mp ha
  exact isDirectoryAt_iff.mpr ⟨mode,h.directory ha⟩

/-- A link that was none before is found where nothing was. -/
theorem Keeps.none_of_link (h : fs.Keeps fs') {target : String}
    (hn : fs'.get? a = some (.link target)) (hl : ∀ target, fs.get? a ≠ some (.link target)) :
    fs.get? a = none := by
  cases he : fs.get? a with
  | none => rfl
  | some e =>
    have hk := h.kept a e he
    cases e with
    | file =>
      obtain ⟨mode,content,hk⟩ := hk
      cases hk.symm.trans hn
    | directory mode =>
      have hk : fs'.get? a = some (.directory mode) := hk
      cases hk.symm.trans hn
    | link target => exact absurd he (hl target)

structure Grows (fs fs' : FileSystem) : Prop extends Keeps fs fs' where
  links : ∀ a target, fs'.get? a = some (.link target) → fs.get? a = some (.link target)

theorem Grows.refl (fs : FileSystem) : fs.Grows fs := ⟨.refl fs,fun _ _ h => h⟩

theorem Grows.trans (h : fs.Grows fs') (k : fs'.Grows fs'') : fs.Grows fs'' :=
  ⟨h.toKeeps.trans k.toKeeps,fun a target ha => h.links a target (k.links a target ha)⟩

/-- Placing what may stand in the place of what was there, and is no new link, lets files grow. -/
theorem grows_put {e : Entry} (he : ∀ old, fs.get? a = some old → old.KeptAs (some e))
    (hl : ∀ target, e ≠ .link target) : fs.Grows (fs.put a e) where
  current := rfl
  kept b old hb := by
    rw [get?_put]
    split
    next h => exact he old (h ▸ hb)
    next => exact hb ▸ old.keptAs_self
  links b target hb := by
    rw [get?_put] at hb
    split at hb
    next => exact absurd (Option.some.inj hb) (hl target)
    next => exact hb

theorem Grows.isTree_put {e : Entry} (h : fs.Grows (fs.put a e)) (ht : fs.IsTree)
    (ha : ∀ dir name, a = dir ++ [name] → fs.isDirectoryAt dir) : (fs.put a e).IsTree where
  root := h.isDirectoryAt ht.root
  parent dir name hp := by
    refine h.isDirectoryAt ?_
    rw [get?_put] at hp
    split at hp
    next heq => exact ha dir name heq.symm
    next => exact ht.parent dir name hp

/-- Where a way leads that comes to an end. Each step is taken from a directory. -/
inductive Leads (fs : FileSystem) (follow : Bool) : Nat → Address → List Step → Address → Prop
  | nil {budget : Nat} {here : Address} : Leads fs follow budget here [] here
  | stay {budget : Nat} {here a : Address} {rest : List Step} : fs.isDirectoryAt here →
      Leads fs follow budget here rest a → Leads fs follow budget here (.stay :: rest) a
  | up {budget : Nat} {here a : Address} {rest : List Step} : fs.isDirectoryAt here →
      Leads fs follow budget here.dropLast rest a → Leads fs follow budget here (.up :: rest) a
  | enter {budget : Nat} {here a : Address} {name : String} {rest : List Step} :
      fs.isDirectoryAt here → name.utf8ByteSize ≤ nameLimit →
      (∀ target, fs.get? (here ++ [name]) ≠ some (.link target)) →
      Leads fs follow budget (here ++ [name]) rest a →
      Leads fs follow budget here (.enter name :: rest) a
  | last {budget : Nat} {here : Address} {name target : String} :
      fs.isDirectoryAt here → name.utf8ByteSize ≤ nameLimit →
      fs.get? (here ++ [name]) = some (.link target) → follow = false →
      Leads fs follow budget here [.enter name] (here ++ [name])
  | link {budget : Nat} {here a : Address} {name target : String} {rest : List Step} :
      fs.isDirectoryAt here → name.utf8ByteSize ≤ nameLimit →
      fs.get? (here ++ [name]) = some (.link target) → rest ≠ [] ∨ follow = true →
      Leads fs follow budget (startOf target here) (Step.ofText target ++ rest) a →
      Leads fs follow (budget + 1) here (.enter name :: rest) a

theorem Leads.into {follow : Bool} {budget : Nat} {here : Address} {name : String}
    {rest : List Step} (hd : fs.isDirectoryAt here) (hs : name.utf8ByteSize ≤ nameLimit)
    (hn : fs.isDirectoryAt (here ++ [name])) (h : Leads fs follow budget (here ++ [name]) rest a) :
    Leads fs follow budget here (.enter name :: rest) a :=
  .enter hd hs (ne_link_of_isDirectoryAt hn) h

theorem leads_of_walk {follow : Bool} {budget : Nat} {here : Address} {steps : List Step}
    (h : fs.walk follow budget here steps = .ok a) : fs.Leads follow budget here steps a := by
  fun_induction walk fs follow budget here steps with
  | case1 => cases h; exact .nil
  | case2 | case3 | case4 | case7 | case9 => cases h
  | case5 budget here rest mode hd ih => exact .stay (isDirectoryAt_iff.mpr ⟨mode,hd⟩) (ih h)
  | case6 budget here rest mode hd ih => exact .up (isDirectoryAt_iff.mpr ⟨mode,hd⟩) (ih h)
  | case8 budget here rest mode hd name hn target ht hlast =>
    cases h
    simp only [Bool.and_eq_true, decide_eq_true_eq, Bool.not_eq_true'] at hlast
    obtain ⟨rfl,rfl⟩ := hlast
    exact .last (isDirectoryAt_iff.mpr ⟨mode,hd⟩) (Nat.le_of_not_lt hn) ht rfl
  | case10 here rest mode hd name hn target ht hlast budget ih =>
    refine .link (isDirectoryAt_iff.mpr ⟨mode,hd⟩) (Nat.le_of_not_lt hn) ht ?_ (ih h)
    simpa [Decidable.imp_iff_not_or] using hlast
  | case11 budget here rest mode hd name hn ht ih =>
    exact .enter (isDirectoryAt_iff.mpr ⟨mode,hd⟩) (Nat.le_of_not_lt hn) ht (ih h)

theorem walk_of_leads {follow : Bool} {budget : Nat} {here : Address} {steps : List Step}
    (h : fs.Leads follow budget here steps a) : fs.walk follow budget here steps = .ok a := by
  induction h with
  | nil => rw [walk]
  | stay hd _ ih | up hd _ ih =>
    obtain ⟨mode,hd⟩ := isDirectoryAt_iff.mp hd
    rw [walk.eq_def]
    simpa only [hd] using ih
  | enter hd hn ht _ ih =>
    obtain ⟨mode,hd⟩ := isDirectoryAt_iff.mp hd
    rw [walk.eq_def]
    simpa only [hd, if_neg (Nat.not_lt.mpr hn)] using ih
  | last hd hn ht hf =>
    obtain ⟨mode,hd⟩ := isDirectoryAt_iff.mp hd
    rw [walk.eq_def]
    simp [hd, Nat.not_lt.mpr hn, ht, hf]
  | link hd hn ht hf _ ih =>
    obtain ⟨mode,hd⟩ := isDirectoryAt_iff.mp hd
    rw [walk.eq_def]
    simp only [hd, if_neg (Nat.not_lt.mpr hn), ht]
    rw [if_neg]
    · exact ih
    · simpa [Decidable.imp_iff_not_or] using hf

theorem walk_eq_ok {follow : Bool} {budget : Nat} {here : Address} {steps : List Step} :
    fs.walk follow budget here steps = .ok a ↔ fs.Leads follow budget here steps a :=
  ⟨leads_of_walk,walk_of_leads⟩

theorem Leads.name_le {follow : Bool} {budget : Nat} {here : Address} {steps : List Step}
    (h : fs.Leads follow budget here steps a) {name : String} (hn : .enter name ∈ steps) :
    name.utf8ByteSize ≤ nameLimit := by
  induction h with
  | nil => cases hn
  | stay _ _ ih | up _ _ ih => exact ih (by simpa using hn)
  | enter _ hle _ _ ih =>
    rcases List.mem_cons.mp hn with heq | hn
    · exact Step.enter.inj heq ▸ hle
    · exact ih hn
  | last _ hle _ _ => exact Step.enter.inj (List.mem_singleton.mp hn) ▸ hle
  | link _ hle _ _ _ ih =>
    rcases List.mem_cons.mp hn with heq | hn
    · exact Step.enter.inj heq ▸ hle
    · exact ih (List.mem_append_right _ hn)

/-- A way that goes on from somewhere finds a directory there. -/
theorem Leads.eq_of_none {follow : Bool} {budget : Nat} {here : Address} {steps : List Step}
    (hw : fs.Leads follow budget here steps a) (hn : fs.get? here = none) :
    steps = [] ∧ a = here := by
  have hd : ¬ fs.isDirectoryAt here := by simp [isDirectoryAt, hn]
  cases hw with
  | nil => exact ⟨rfl,rfl⟩
  | stay h | up h | enter h | last h | link h => exact absurd h hd

/-- Where nothing that was found goes, ways lead where they led. Only a link that is new at the end
of a way may make a difference, and only if it is followed. -/
theorem Leads.of_keeps (h : fs.Keeps fs') {follow : Bool} {budget : Nat} {here : Address}
    {steps : List Step} (hl : follow = false ∨ ∀ target, fs'.get? a ≠ some (.link target))
    (hw : fs.Leads follow budget here steps a) : fs'.Leads follow budget here steps a := by
  induction hw with
  | nil => exact .nil
  | stay hd _ ih => exact .stay (h.isDirectoryAt hd) (ih hl)
  | up hd _ ih => exact .up (h.isDirectoryAt hd) (ih hl)
  | @enter budget here a name rest hd hn ht hw ih =>
    by_cases hnew : ∃ target, fs'.get? (here ++ [name]) = some (.link target)
    · obtain ⟨target,ht'⟩ := hnew
      obtain ⟨rfl,rfl⟩ := hw.eq_of_none (h.none_of_link ht' ht)
      rcases hl with hf | hl
      · exact .last (h.isDirectoryAt hd) hn ht' hf
      · exact absurd ht' (hl target)
    · exact .enter (h.isDirectoryAt hd) hn (fun target ht' => hnew ⟨target,ht'⟩) (ih hl)
  | last hd hn ht hf => exact .last (h.isDirectoryAt hd) hn (h.link ht) hf
  | link hd hn ht hf _ ih => exact .link (h.isDirectoryAt hd) hn (h.link ht) hf (ih hl)

/-- In a tree, a way ends at something, or at a missing entry of a directory. -/
theorem Leads.parent_of_none (ht : fs.IsTree) {follow : Bool} {budget : Nat} {here : Address}
    {steps : List Step} (hw : fs.Leads follow budget here steps a) (hn : fs.get? a = none)
    (hs : fs.get? here ≠ none ∨ steps ≠ []) :
    ∃ dir name, a = dir ++ [name] ∧ fs.isDirectoryAt dir := by
  induction hw with
  | nil => exact absurd hn (hs.resolve_right fun h => h rfl)
  | stay hd _ ih => exact ih hn (.inl (ne_none_of_isDirectoryAt hd))
  | up hd _ ih =>
    exact ih hn (.inl (ne_none_of_isDirectoryAt (ht.dropLast (ne_none_of_isDirectoryAt hd))))
  | @enter budget here a name rest hd _ _ hw ih =>
    by_cases hm : fs.get? (here ++ [name]) = none
    · exact ⟨here,name,(hw.eq_of_none hm).2,hd⟩
    · exact ih hn (.inl hm)
  | last _ _ hl => cases hl.symm.trans hn
  | @link budget here a name target rest hd _ _ _ _ ih =>
    refine ih hn (.inl ?_)
    unfold startOf
    split
    · exact ne_none_of_isDirectoryAt ht.root
    · exact ne_none_of_isDirectoryAt hd

/-- In a tree, a way whose last link is followed does not end at a link. -/
theorem Leads.not_link (ht : fs.IsTree) {budget : Nat} {here : Address} {steps : List Step}
    (hw : fs.Leads true budget here steps a)
    (hs : (∀ target, fs.get? here ≠ some (.link target)) ∨ steps ≠ []) :
    ∀ target, fs.get? a ≠ some (.link target) := by
  generalize hf : true = follow at hw
  induction hw with
  | nil => exact hs.resolve_right fun h => h rfl
  | stay hd _ ih => exact ih (.inl (ne_link_of_isDirectoryAt hd))
  | up hd _ ih =>
    exact ih (.inl (ne_link_of_isDirectoryAt (ht.dropLast (ne_none_of_isDirectoryAt hd))))
  | enter _ _ hl _ ih => exact ih (.inl hl)
  | last _ _ _ hfalse => cases hf.trans hfalse
  | @link budget here a name target rest hd _ _ _ _ ih =>
    refine ih (.inl ?_)
    unfold startOf
    split
    · exact ne_link_of_isDirectoryAt ht.root
    · exact ne_link_of_isDirectoryAt hd

end FileSystem
end GitPublish
