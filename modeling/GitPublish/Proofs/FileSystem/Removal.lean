import GitPublish.Proofs.FileSystem.Onward

/-!
# What is gone after a removal

Removing a tree takes away what is found at its address and below, and nothing else. The path has to
lead there all the while, which it does if it led there before anything was found at that address.
-/
namespace GitPublish.FileSystem
variable {fs fs' fs₀ : FileSystem} {a b : Address} {p : Path}

theorem lookup_filter (keep : Address → Bool) (b : Address) (l : List (Address × Entry)) :
    (l.filter fun x => keep x.1).lookup b = if keep b then l.lookup b else none := by
  induction l with
  | nil => simp
  | cons x l ih =>
    obtain ⟨c,e⟩ := x
    by_cases hb : b = c
    · subst hb
      by_cases hk : keep b
      · simp [hk]
      · rw [List.filter_cons_of_neg (by simpa using hk), ih, if_neg hk, if_neg hk]
    · have hne : (b == c) = false := by simp [hb]
      by_cases hk : keep c
      · rw [List.filter_cons_of_pos (by simpa using hk), List.lookup_cons, hne, List.lookup_cons,
          hne]
        exact ih
      · rw [List.filter_cons_of_neg (by simpa using hk), ih, List.lookup_cons, hne]

theorem get?_remove (ha : a ≠ []) (fs : FileSystem) (b : Address) :
    (fs.remove a).get? b = if a <+: b then none else fs.get? b := by
  unfold get? remove
  rw [lookup_filter (fun c => !a.isPrefixOf c)]
  by_cases hab : a <+: b
  · have hb : b ≠ [] := by
      rintro rfl
      exact ha (List.prefix_nil.mp hab)
    simp [List.isPrefixOf_iff_prefix.mpr hab, hab, hb]
  · have hp : a.isPrefixOf b = false := by
      rw [← Bool.not_eq_true, List.isPrefixOf_iff_prefix]
      exact hab
    simp [hp, hab]

theorem get?_removeBelow (fs : FileSystem) (a b : Address) :
    (fs.removeBelow a).get? b = if a <+: b ∧ b ≠ a then none else fs.get? b := by
  unfold get? removeBelow
  rw [lookup_filter (fun c => c = a || !a.isPrefixOf c)]
  by_cases hab : a <+: b
  · by_cases hba : b = a
    · simp [hba]
    · have hb : b ≠ [] := by
        rintro rfl
        exact hba (List.prefix_nil.mp hab).symm
      simp [List.isPrefixOf_iff_prefix.mpr hab, hab, hba, hb]
  · have hp : a.isPrefixOf b = false := by
      rw [← Bool.not_eq_true, List.isPrefixOf_iff_prefix]
      exact hab
    simp [hp, hab]

theorem ne_nil_of_none (h : fs.get? a = none) : a ≠ [] := by
  rintro rfl
  unfold get? at h
  split at h <;> simp at h

structure Vacant (fs : FileSystem) (p : Path) (a : Address) : Prop where
  absolute : p.isAbsolute
  endsInName : p.EndsInName
  leads : fs.locate false p = .ok a
  free : fs.get? a = none

namespace Vacant
variable (h : fs₀.Vacant p a) (ht : fs₀.IsTree)
include h

theorem ne_nil : a ≠ [] := ne_nil_of_none h.free

/-- Nothing is found there, whether links are followed or not. -/
theorem isPresent_eq_false : fs₀.isPresent p = false := by
  obtain ⟨hnul,hempty,hlength,hleads⟩ := locate_eq_ok.mp h.leads
  have hfollowed := hleads.followed (by simp [h.free])
  exact isPresent_of_none (locate_eq_ok.mpr ⟨hnul,hempty,hlength,hfollowed⟩) h.free

/-- A path that led to a vacant address leads there as long as nothing else goes. -/
theorem leads_of_keeps (hk : fs₀.Keeps fs) : fs.locate false p = .ok a :=
  locate_of_keeps hk (.inl rfl) h.leads

theorem leadsName_of_keeps (hk : fs₀.Keeps fs) : fs.locateName p = .ok a := by
  rw [locateName_of_unslashed h.endsInName.unslashed]
  exact h.leads_of_keeps hk

theorem keeps_put (hk : fs₀.Keeps fs) (e : Entry) : fs₀.Keeps (fs.put a e) where
  current := hk.current
  kept b old hb := by
    have hab : b ≠ a := by
      rintro rfl
      cases h.free.symm.trans hb
    rw [get?_put_of_ne fs e hab]
    exact hk.kept b old hb

include ht

/-- What was there while an address was vacant does not lie below it. -/
theorem not_prefix (hb : fs₀.get? b ≠ none) : ¬ a <+: b := fun hab => hb (ht.below h.free hab)

theorem keeps_remove (hk : fs₀.Keeps fs) : fs₀.Keeps (fs.remove a) where
  current := hk.current
  kept b e hb := by
    rw [get?_remove h.ne_nil, if_neg (h.not_prefix ht (by simp [hb]))]
    exact hk.kept b e hb

theorem keeps_removeBelow (hk : fs₀.Keeps fs) : fs₀.Keeps (fs.removeBelow a) where
  current := hk.current
  kept b e hb := by
    have hab := h.not_prefix ht (by simp [hb] : fs₀.get? b ≠ none)
    rw [get?_removeBelow, if_neg fun hc => hab hc.1]
    exact hk.kept b e hb

/-- Removing what is found at the address of a path that led to a vacant address. -/
theorem run_removeTree (hk : fs₀.Keeps fs) :
    (FileAction.removeTree p).run fs = match fs.get? a with
      | none => (.error (.os .notFound), fs)
      | some (.file ..) => (.error (.os .notADirectory), fs)
      | some (.link _) => (.ok (), fs.remove a)
      | some (.directory _) => (.ok (), (fs.removeBelow a).remove a) := by
  have hfound := h.leads_of_keeps hk
  obtain ⟨name,hname⟩ := h.endsInName.last_step
  rw [FileAction.removeTree, run_bind, run_get]
  rcases hg : fs.get? a with - | (mode | ⟨mode,content⟩ | target)
  · simp only [run_bind, run_liftExcept, find_of_none hfound hg]
  · have hl := h.leadsName_of_keeps (h.keeps_removeBelow ht hk)
    simp only [run_bind, run_liftExcept, find_eq_ok.mpr ⟨hfound,hg⟩]
    rw [run_modify]
    dsimp only
    rw [FileAction.removeEmptied, run_bind, run_get]
    simp only [if_neg h.ne_nil, h.endsInName.unslashed, hname, run_bind, run_liftExcept, hl,
      if_true, run_set]
  · simp only [run_bind, run_liftExcept, find_eq_ok.mpr ⟨hfound,hg⟩]
    rfl
  · simp only [run_bind, run_liftExcept, find_eq_ok.mpr ⟨hfound,hg⟩]
    rfl

/-- Where a path led to a vacant address, no more than a file is left by a removal. -/
theorem removeTree_vacates (hk : fs₀.Keeps fs) :
    fs₀.Keeps ((FileAction.removeTree p).run fs).2 ∧
      ∀ e, ((FileAction.removeTree p).run fs).2.get? a = some e → e.isFile := by
  rw [h.run_removeTree ht hk]
  rcases hg : fs.get? a with - | (mode | ⟨mode,content⟩ | target)
  · exact ⟨hk,fun e he => by cases hg.symm.trans he⟩
  · refine ⟨h.keeps_remove ht (h.keeps_removeBelow ht hk),fun e he => ?_⟩
    dsimp only at he
    rw [get?_remove h.ne_nil, if_pos (List.prefix_refl a)] at he
    cases he
  · exact ⟨hk,fun e he => by cases hg.symm.trans he; rfl⟩
  · refine ⟨h.keeps_remove ht hk,fun e he => ?_⟩
    dsimp only at he
    rw [get?_remove h.ne_nil, if_pos (List.prefix_refl a)] at he
    cases he

end Vacant

/-! ## What a removal takes away -/

/-- Where `fs'` differs from `fs`, something is gone that was found where a path leads, or below. -/
structure Loses (fs : FileSystem) (p : Path) (fs' : FileSystem) : Prop where
  current : fs'.current = fs.current
  gone : ∀ b, fs'.get? b ≠ fs.get? b →
    fs'.get? b = none ∧ ∃ a, fs.locate false p = .ok a ∧ a <+: b

theorem Loses.refl (fs : FileSystem) (p : Path) : fs.Loses p fs := ⟨rfl,fun _ h => absurd rfl h⟩

theorem loses_removeBelow (hl : fs.locate false p = .ok a) : fs.Loses p (fs.removeBelow a) where
  current := rfl
  gone b h := by
    rw [get?_removeBelow] at h ⊢
    split at h
    next hb => exact ⟨if_pos hb,a,hl,hb.1⟩
    next => exact absurd rfl h

/-- What is taken away together with the address itself. -/
theorem Loses.remove (h : fs.Loses p fs') (ha : a ≠ []) (hl : fs.locate false p = .ok a) :
    fs.Loses p (fs'.remove a) where
  current := h.current
  gone b hb := by
    rw [get?_remove ha] at hb ⊢
    split at hb
    next hab => exact ⟨if_pos hab,a,hl,hab⟩
    next hab =>
      rw [if_neg hab]
      exact h.gone b hb

/-- An absolute path leads nowhere unless the root is a directory. -/
theorem isDirectoryAt_root (hp : p.isAbsolute) (hl : fs.locate false p = .ok a) :
    fs.isDirectoryAt [] := by
  obtain ⟨-,-,-,hleads⟩ := locate_eq_ok.mp hl
  have hstart : startOf p.text fs.current = [] := if_pos (by simpa [Path.isAbsolute] using hp)
  obtain ⟨step,rest,hsteps⟩ := List.exists_cons_of_ne_nil (ofText_ne_nil p.text)
  rw [hstart, hsteps] at hleads
  -- every way starts in a directory, whatever its first step is
  cases hleads with
  | stay hd | up hd | enter hd | last hd | link hd => exact hd

theorem run_removeEmptied (p : Path) (a : Address) (fs : FileSystem) :
    ((FileAction.removeEmptied p a).run fs).2 = fs ∨
      a ≠ [] ∧ ((FileAction.removeEmptied p a).run fs).2 = fs.remove a := by
  rw [FileAction.removeEmptied, run_bind, run_get]
  by_cases ha : a = []
  · exact .inl (by simp [ha, FileAction.refuse])
  simp only [if_neg ha]
  split
  · exact .inl rfl
  · exact .inl rfl
  · rw [run_bind, run_liftExcept]
    rcases fs.locateName p with cause | b
    · exact .inl rfl
    dsimp only
    split
    · exact .inr ⟨ha,rfl⟩
    · exact .inl rfl

/-- However a removal ends, it takes away nothing but what is found where its path leads. -/
theorem loses_removeTree (hp : p.isAbsolute) (fs : FileSystem) :
    fs.Loses p ((FileAction.removeTree p).run fs).2 := by
  rw [FileAction.removeTree, run_bind, run_get]
  simp only [run_bind, run_liftExcept]
  rcases hf : fs.find false p with cause | ⟨a,e⟩
  · exact .refl fs p
  obtain ⟨hl,he⟩ := find_eq_ok.mp hf
  cases e with
  | file => exact .refl fs p
  | link target =>
    have ha : a ≠ [] := by
      rintro rfl
      obtain ⟨mode,hroot⟩ := isDirectoryAt_iff.mp (isDirectoryAt_root hp hl)
      cases hroot.symm.trans he
    exact (Loses.refl fs p).remove ha hl
  | directory mode =>
    dsimp only
    rw [run_bind, run_modify]
    dsimp only
    rcases run_removeEmptied p a (fs.removeBelow a) with h | ⟨ha,h⟩ <;> rw [h]
    · exact loses_removeBelow hl
    · exact (loses_removeBelow hl).remove ha hl

end GitPublish.FileSystem
