import GitPublish.Proofs.FileSystem.Making

/-!
# Making directories a second time

Once a directory has been made the path leads to it, and it still does when there is more. Making it
again changes nothing then.
-/
namespace GitPublish

namespace FileSystem
variable {fs fs' : FileSystem} {a : Address} {p : Path}

theorem locate_followed (h : fs.locate false p = .ok a)
    (hn : ∀ target, fs.get? a ≠ some (.link target)) : fs.locate true p = .ok a := by
  obtain ⟨hnul,hne,hlength,hw⟩ := locate_eq_ok.mp h
  exact locate_eq_ok.mpr ⟨hnul,hne,hlength,hw.followed hn⟩

theorem locateName_of_keeps (h : fs.Keeps fs') (hp : fs.locateName p = .ok a) :
    fs'.locateName p = .ok a := by
  obtain ⟨hnul,hlength,hl⟩ := locateName_eq_ok.mp hp
  exact locateName_eq_ok.mpr ⟨hnul,hlength,locate_of_keeps h (.inl rfl) hl⟩

theorem Keeps.isDirectory (h : fs.Keeps fs') (hp : fs.isDirectory p) : fs'.isDirectory p := by
  obtain ⟨a,hl,hd⟩ := isDirectory_iff.mp hp
  have hd' := h.isDirectoryAt hd
  exact isDirectory_iff.mpr ⟨a,locate_of_keeps h (.inr (ne_link_of_isDirectoryAt hd')) hl,hd'⟩

/-- A path that names a directory leads to it, whatever slashes stand at its end. -/
theorem isDirectory_of_locateName (ht : fs.IsTree) (h : fs.locateName p = .ok a)
    (hd : fs.isDirectoryAt a) : fs.isDirectory p := by
  obtain ⟨hnul,hlength,hl⟩ := locateName_eq_ok.mp h
  have hlink := ne_link_of_isDirectoryAt hd
  refine isDirectory_iff.mpr ⟨a,?_,hd⟩
  split at hl
  next => exact locate_followed hl hlink
  next hne =>
    obtain ⟨-,-,-,hw⟩ := locate_eq_ok.mp (locate_followed hl hlink)
    obtain ⟨n,htext,hsteps⟩ := exists_unslashed p
    have hempty : p.text ≠ "" := by
      intro hp
      rw [hp] at htext
      exact hne (String.toList_eq_nil_iff.mp (List.append_eq_nil_iff.mp htext.symm).1)
    refine locate_eq_ok.mpr ⟨hnul,hempty,hlength,?_⟩
    rw [hsteps, startOf_append (mt String.toList_eq_nil_iff.mp hne) htext]
    exact hw.append_stay ht hd n

end FileSystem

namespace FileAction
open FileSystem
variable {fs fs' fs'' : FileSystem} {mode : Nat} {p : Path} {ps : List Path}

theorem makeMissing_ok (ht : fs.IsTree) (h : (makeMissing mode p).run fs = (.ok (), fs')) :
    fs'.isDirectory p := by
  rw [makeMissing, run_tryCatch] at h
  rcases run_makeDirectory mode p fs with ⟨e,hr⟩ | ⟨a,hl,hn,hr⟩ <;> rw [hr] at h
  · simp only [run_bind, run_get] at h
    split at h
    next hpresent =>
      obtain ⟨-,rfl⟩ := Prod.mk.inj h
      exact (Bool.and_eq_true_iff.mp hpresent).2
    next => cases (Prod.mk.inj h).1
  · obtain ⟨-,rfl⟩ := Prod.mk.inj h
    obtain ⟨ht',hg⟩ := growing_allowsDirectory mode p fs a hl hn ht
    exact isDirectory_of_locateName ht' (locateName_of_keeps hg.toKeeps hl) (isDirectoryAt_put ..)

/-- The first of the paths is a directory in the end: it is found or made at once, or made last. -/
theorem makeAll_ok (ht : fs.IsTree) (h : (makeAll mode (p :: ps)).run fs = (.ok (), fs')) :
    fs'.isDirectory p := by
  have hp := makeMissing_within (growing_allowsDirectory mode p) fs ht
  rw [run_makeAll_cons] at h
  rcases hm : (makeMissing mode p).run fs with ⟨e | ⟨⟩, fs₁⟩ <;> rw [hm] at h hp
  · dsimp only at h
    split at h
    next =>
      -- the directories above keep it a tree in which the last one is made
      obtain ⟨⟨⟩,fs₂,habove,hlast⟩ := ok_of_run_bind h
      have hgrow := fun q (_ : q ∈ ps) => growing_allowsDirectory mode q
      have hps := makeAll_within hgrow fs₁ hp.1
      rw [habove] at hps
      exact makeMissing_ok hps.1 hlast
    next => cases (Prod.mk.inj h).1
  · obtain ⟨-,rfl⟩ := Prod.mk.inj h
    exact makeMissing_ok ht hm

theorem makeDirectories_again (ht : fs.IsTree)
    (h : (makeDirectories mode p).run fs = (.ok (), fs')) (hk : fs'.Keeps fs'') :
    (makeDirectories mode p).run fs'' = (.ok (), fs'') := by
  rcases p.dropLast_ancestors_cases with hnil | ⟨rest,hrest⟩
  · rw [makeDirectories_eq, hnil]
    rfl
  · rw [makeDirectories_eq, hrest] at h
    exact run_makeDirectories_present (hk.isDirectory (makeAll_ok ht h)) mode

end FileAction
end GitPublish
