import GitPublish.Proofs.FileSystem.Onward

/-!
# Making what is missing

Where a path goes on from a directory by names alone, and nothing but directories is in the way, the
directories above it can be made. Exactly those that are missing are made, and nothing else changes.
-/
namespace GitPublish

namespace FileSystem
variable {fs fs' fs'' : FileSystem} {root a b dir : Address} {steps : List Step} {mode : Nat}
  {p : Path} {name : String}

/-- The directories that are missing on the way to an address are made, and nothing else. -/
structure Made (mode : Nat) (a : Address) (fs fs' : FileSystem) : Prop where
  current : fs'.current = fs.current
  get? : ∀ b, fs'.get? b =
    if b <+: a then (fs.get? b).or (some (.directory mode)) else fs.get? b

theorem IsTree.made (ht : fs.IsTree) (hd : fs.isDirectoryAt a) : Made mode a fs fs where
  current := rfl
  get? b := by
    split
    next hb =>
      obtain ⟨mode',hmode⟩ := isDirectoryAt_iff.mp (ht.directory_above hd hb)
      rw [hmode, Option.some_or]
    next => rfl

theorem IsTree.made_put (ht : fs.IsTree) (hd : fs.isDirectoryAt dir)
    (hn : fs.get? (dir ++ [name]) = none) :
    Made mode (dir ++ [name]) fs (fs.put (dir ++ [name]) (.directory mode)) where
  current := rfl
  get? b := by
    rw [get?_put]
    by_cases hb : b = dir ++ [name]
    · rw [if_pos hb, if_pos (hb ▸ List.prefix_refl b), hb, hn, Option.none_or]
    · have hiff : b <+: dir ++ [name] ↔ b <+: dir := by
        rw [List.prefix_concat_iff]
        exact ⟨fun h => h.resolve_left hb,.inr⟩
      rw [if_neg hb]
      simp only [hiff]
      exact (ht.made hd).get? b

theorem Made.trans (h : Made mode a fs fs') (k : Made mode b fs' fs'') (hab : a <+: b) :
    Made mode b fs fs'' where
  current := k.current.trans h.current
  get? c := by
    rw [k.get? c, h.get? c]
    by_cases hb : c <+: b
    · rw [if_pos hb, if_pos hb]
      split
      next => rw [Option.or_assoc, Option.or_self]
      next => rfl
    · rw [if_neg hb, if_neg hb, if_neg fun hc => hb (hc.trans hab)]

theorem Made.get?_append (h : Made mode a fs fs') (name : String) :
    fs'.get? (a ++ [name]) = fs.get? (a ++ [name]) := by
  have hlong : ¬ a ++ [name] <+: a := fun hp => by
    have hle := hp.length_le
    rw [List.length_append, List.length_singleton] at hle
    omega
  rw [h.get?, if_neg hlong]

/-- In a tree, a way that is free behind a directory is free from the root on. -/
theorem IsFree.all (h : fs.IsFree root a) (ht : fs.IsTree) (hd : fs.isDirectoryAt root)
    (hra : root <+: a) (hb : b <+: a) : fs.get? b = none ∨ fs.isDirectoryAt b := by
  rcases List.prefix_or_prefix_of_prefix hra hb with hrb | hbr
  · exact h b hrb hb
  · exact .inr (ht.directory_above hd hbr)

theorem Made.directory (h : Made mode a fs fs')
    (hfree : fs.get? b = none ∨ fs.isDirectoryAt b) (hb : b <+: a) : fs'.isDirectoryAt b := by
  rw [isDirectoryAt, h.get? b, if_pos hb]
  rcases hfree with hn | hd
  · rw [hn]; rfl
  · obtain ⟨mode',hmode⟩ := isDirectoryAt_iff.mp hd
    rw [hmode]; rfl

theorem Made.grows (h : Made mode a fs fs') : fs.Grows fs' where
  current := h.current
  kept b e hb := by
    rw [h.get? b, hb]
    simp only [Option.some_or, ite_self]
    exact e.keptAs_self
  links b target hb := by
    rw [h.get? b] at hb
    split at hb
    · cases hn : fs.get? b with
      | none => rw [hn] at hb; cases hb
      | some e => rwa [hn, Option.some_or] at hb
    · exact hb

theorem Made.isTree (h : Made mode a fs fs') (ht : fs.IsTree)
    (hfree : ∀ b, b <+: a → fs.get? b = none ∨ fs.isDirectoryAt b) : fs'.IsTree where
  root := h.grows.isDirectoryAt ht.root
  parent dir name hn := by
    rw [h.get?] at hn
    by_cases hname : dir ++ [name] <+: a
    · have hdir := (List.prefix_append dir [name]).trans hname
      exact h.directory (hfree dir hdir) hdir
    · rw [if_neg hname] at hn
      exact h.grows.isDirectoryAt (ht.parent dir name hn)

end FileSystem

namespace FileAction
open FileSystem
variable {fs fs' : FileSystem} {root : Address} {steps : List Step} {mode : Nat} {p : Path}
  {name : String}

/-- An entry of a directory is made unless a directory is there. -/
theorem run_makeMissing_entry (h : fs.GoesOn p root (steps ++ [.enter name])) (ht : fs.IsTree)
    (hd : fs.isDirectoryAt (steps.foldl Step.follow root))
    (hfree : fs.get? (steps.foldl Step.follow root ++ [name]) = none ∨
      fs.isDirectoryAt (steps.foldl Step.follow root ++ [name])) (mode : Nat) :
    ∃ fs', (makeMissing mode p).run fs = (.ok (), fs') ∧
      Made (masked mode) (steps.foldl Step.follow root ++ [name]) fs fs' := by
  have hl (target : String) :
      fs.get? (steps.foldl Step.follow root ++ [name]) ≠ some (.link target) := by
    rcases hfree with h | h
    · simp [h]
    · exact ne_link_of_isDirectoryAt h target
  have hlocate := h.locate_entry ht hd hl
  rw [makeMissing, run_tryCatch, makeDirectory, run_bind, run_get]
  simp only [run_bind, run_liftExcept, h.locateName, hlocate]
  rcases hfree with hn | hdir
  · rw [hn]
    exact ⟨_,rfl,ht.made_put hd hn⟩
  · obtain ⟨mode',hmode⟩ := isDirectoryAt_iff.mp hdir
    refine ⟨fs,?_,ht.made hdir⟩
    simp [hmode, refuse, isDirectory_iff.mpr ⟨_,hlocate true,hdir⟩]

theorem run_makeMissing_missing (h : fs.GoesOn p root (steps ++ [.enter name]))
    (hfree : fs.IsFree root (steps.foldl Step.follow root))
    (hn : fs.get? (steps.foldl Step.follow root) = none) (mode : Nat) :
    (makeMissing mode p).run fs = (.error (.os .notFound), fs) := by
  rw [makeMissing, run_tryCatch, makeDirectory, run_bind, run_get]
  simp only [run_bind, run_liftExcept, h.locateName, h.locate_missing hfree hn]
  rfl

end FileAction

namespace FileSystem
variable {fs : FileSystem} {root a : Address} {steps : List Step} {p : Path} {name : String}

/-- The directories on a free way that goes on to a name are made where they are missing. -/
theorem GoesOn.run_makeDirectories (h : fs.GoesOn p root (steps ++ [.enter name])) (ht : fs.IsTree)
    (hfree : fs.IsFree root (steps.foldl Step.follow root ++ [name])) (mode : Nat) :
    ∃ fs', (FileAction.makeDirectories mode p).run fs = (.ok (), fs') ∧
      Made (FileAction.masked mode) (steps.foldl Step.follow root ++ [name]) fs fs' := by
  -- by induction on how far the path goes on; where its directory is missing, that is made first
  rw [FileAction.makeDirectories_eq]
  generalize hlen : steps.length = n
  induction n using Nat.strongRecOn generalizing p steps name with | _ n ih =>
  have hdir : steps.foldl Step.follow root <+: steps.foldl Step.follow root ++ [name] :=
    List.prefix_append _ _
  have hall (b : Address) := hfree.all (b := b) ht h.directory (h.prefix_foldl.trans hdir)
  rcases hall _ hdir with hn | hd
  · rcases h.above_cases with ⟨k,rfl⟩ | ⟨q,above,last,hq,hgoes,hlt,hfold⟩
    · rw [foldl_stay] at hn
      exact absurd hn (ne_none_of_isDirectoryAt h.directory)
    have hmissing := FileAction.run_makeMissing_missing h (hfree.mono hdir) hn mode
    obtain ⟨fs₁,hr,hmade⟩ := ih above.length (hlen ▸ hlt) hgoes (hfold ▸ hfree.mono hdir) rfl
    rw [← hfold] at hmade
    have hlast : fs₁.get? (steps.foldl Step.follow root ++ [name]) = none := by
      rw [hmade.get?_append]
      exact ht.below hn hdir
    obtain ⟨fs₂,hr',hmade'⟩ := FileAction.run_makeMissing_entry
      (h.of_keeps hmade.grows.toKeeps) (hmade.isTree ht fun b hb => hall b (hb.trans hdir))
      (hmade.directory (.inl hn) (List.prefix_refl _)) (.inl hlast) mode
    refine ⟨fs₂,?_,hmade.trans hmade' hdir⟩
    rw [hq, List.dropLast_cons_of_ne_nil q.ancestors_ne_nil, FileAction.run_makeAll_cons,
      hmissing]
    exact (run_bind_ok hr).trans hr'
  · obtain ⟨fs',hr,hmade⟩ :=
      FileAction.run_makeMissing_entry h ht hd (hall _ (List.prefix_refl _)) mode
    obtain ⟨front,hsteps,-⟩ := h.front
    rw [← List.append_assoc] at hsteps
    obtain ⟨rest,hrest⟩ := Path.dropLast_ancestors (by simp) hsteps
    rw [hrest]
    refine ⟨fs',?_,hmade⟩
    rw [FileAction.run_makeAll_cons, hr]

/-- A directory that is there is not made. -/
theorem run_makeMissing_present (h : fs.isDirectory p) (mode : Nat) :
    (FileAction.makeMissing mode p).run fs = (.ok (), fs) := by
  obtain ⟨a,hl,ha⟩ := isDirectory_iff.mp h
  obtain ⟨b,hb,hn⟩ := exists_locateName hl (ne_none_of_isDirectoryAt ha)
  obtain ⟨e,he⟩ := Option.ne_none_iff_exists'.mp hn
  rw [FileAction.makeMissing, run_tryCatch, FileAction.makeDirectory, run_bind, run_get]
  simp [run_bind, hb, he, FileAction.refuse, h]

theorem run_makeDirectories_present (h : fs.isDirectory p) (mode : Nat) :
    (FileAction.makeDirectories mode p).run fs = (.ok (), fs) := by
  rw [FileAction.makeDirectories_eq]
  rcases p.dropLast_ancestors_cases with hnil | ⟨rest,hrest⟩
  · rw [hnil]
    rfl
  · rw [hrest, FileAction.run_makeAll_cons, run_makeMissing_present h mode]

/-- The directories above a free way to a name can be made from the path above. If that path leads
to something, none is missing. -/
theorem GoesOn.run_parent (h : fs.GoesOn p root (steps ++ [.enter name])) (ht : fs.IsTree)
    (hfree : fs.IsFree root (steps.foldl Step.follow root)) (mode : Nat) :
    ∃ q, p.parent? = some q ∧
      (fs.isPresent q → fs.isDirectoryAt (steps.foldl Step.follow root)) ∧
      ∃ fs', (FileAction.makeDirectories mode q).run fs = (.ok (), fs') ∧
        Made (FileAction.masked mode) (steps.foldl Step.follow root) fs fs' := by
  rcases h.above_cases with ⟨k,rfl⟩ | ⟨q,above,last,hq,hgoes,-,hfold⟩
  · obtain ⟨q,hq,hcases⟩ := h.parent_of_idle ht
    rw [foldl_stay]
    refine ⟨q,hq,fun _ => h.directory,fs,?_,ht.made h.directory⟩
    rcases hcases with hnil | hl
    · rw [FileAction.makeDirectories_eq, hnil]
      rfl
    · exact run_makeDirectories_present (isDirectory_iff.mpr ⟨root,hl,h.directory⟩) mode
  have hparent : p.parent? = some q := by
    rw [Path.parent?, hq, Path.ancestors_eq q]
    rfl
  rw [hfold] at hfree ⊢
  have hdir : above.foldl Step.follow root <+: above.foldl Step.follow root ++ [last] :=
    List.prefix_append _ _
  refine ⟨q,hparent,fun hpresent => ?_,hgoes.run_makeDirectories ht hfree mode⟩
  -- nothing is found at the end of a way to something missing
  refine (hfree _ (hgoes.prefix_foldl.trans hdir) (List.prefix_refl _)).resolve_left fun hn => ?_
  obtain ⟨b,e,hf⟩ := isPresent_iff.mp hpresent
  obtain ⟨hb,he⟩ := find_eq_ok.mp hf
  rcases hfree _ hgoes.prefix_foldl hdir with hnone | hd
  · rw [hgoes.locate_missing (hfree.mono hdir) hnone] at hb
    cases hb
  · rw [hgoes.locate_entry ht hd (by simp [hn])] at hb
    cases hb
    cases hn.symm.trans he

theorem GoesOn.run_makeParents (h : fs.GoesOn p root (steps ++ [.enter name])) (ht : fs.IsTree)
    (hfree : fs.IsFree root (steps.foldl Step.follow root)) :
    ∃ fs', (FileAction.makeParents p).run fs = (.ok (), fs') ∧
      Made (FileAction.masked 0o777) (steps.foldl Step.follow root) fs fs' := by
  obtain ⟨q,hq,hpresent,fs',hr,hmade⟩ := h.run_parent ht hfree 0o777
  simp only [FileAction.makeParents, hq, run_bind, run_get]
  split
  next hp => exact ⟨fs,rfl,ht.made (hpresent hp)⟩
  next => exact ⟨fs',hr,hmade⟩

end FileSystem
end GitPublish
