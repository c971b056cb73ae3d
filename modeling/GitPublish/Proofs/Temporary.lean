import GitPublish.FileSystem.Action
import GitPublish.Proofs.Client
import GitPublish.Proofs.FileSystem.Below
import GitPublish.Proofs.FileSystem.Removal

/-!
# Temporary directories are new

A temporary directory is made where nothing was found, or none is made and nothing is done. Its path
ends in a name, since its last characters are letters or digits; so the failures of cloning into it
lead back to it.
-/
namespace GitPublish

namespace FileAction

/-- The end of the name of a temporary directory: some letters and digits. -/
def IsEnding (ending : String) : Prop := ending ≠ "" ∧ ∀ c ∈ ending.toList, c.isAlphanum

-- the characters of the text are gone through, and not all that there are
instance (ending : String) : Decidable (IsEnding ending) :=
  decidable_of_iff (ending ≠ "" ∧ ending.toList.all Char.isAlphanum) (by simp [IsEnding])

theorem IsEnding.endsInName {ending : String} (h : IsEnding ending) (stem : String) :
    (⟨stem ++ ending⟩ : Path).EndsInName := by
  obtain ⟨hne,hall⟩ := h
  rcases List.eq_nil_or_concat ending.toList with hn | ⟨cs,c,hc⟩
  · exact absurd (String.toList_eq_nil_iff.mp hn) hne
  · rw [List.concat_eq_append] at hc
    have hc' := hall c (by rw [hc]; exact List.mem_append_right _ (List.mem_singleton_self c))
    refine ⟨stem.toList ++ cs,c,?_,?_,?_⟩
    · rw [String.toList_append, hc, List.append_assoc]
    · rintro rfl
      revert hc'
      decide
    · rintro rfl
      revert hc'
      decide

/-- Each name that is tried is taken, or the directory is made, or nothing is done. -/
theorem run_makeFresh (base : Path) (stem : String) (endings : List String) (fs : FileSystem) :
    (∃ e, (makeFresh base stem endings).run fs = (.error e, fs)) ∨
      ∃ ending ∈ endings, ∃ rest a, fs.locateName (base / ⟨stem ++ ending⟩) = .ok a ∧
        fs.get? a = none ∧ (makeFresh base stem endings).run fs =
          (.ok (base / ⟨stem ++ ending⟩, rest), fs.put a (.directory (masked 0o777))) := by
  induction endings with
  | nil => exact .inl ⟨_,rfl⟩
  | cons ending rest ih =>
    rw [makeFresh, run_tryCatch, run_bind]
    rcases run_makeDirectory 0o777 (base / ⟨stem ++ ending⟩) fs with ⟨e,hr⟩ | ⟨a,hl,hn,hr⟩ <;>
      rw [hr]
    · by_cases he : e.kind = .alreadyExists
      · simp only [he, if_true]
        rcases ih with ih | ⟨tried,ht,ih⟩
        · exact .inl ih
        · exact .inr ⟨tried,List.mem_cons_of_mem _ ht,ih⟩
      · simp only [he, if_false, run_throw]
        exact .inl ⟨_,rfl⟩
    · exact .inr ⟨ending,List.mem_cons_self ..,rest,a,hl,hn,rfl⟩

theorem isAbsolute_currentPath (fs : FileSystem) : fs.currentPath.isAbsolute :=
  Path.isAbsolute_iff.mpr ⟨_,by rw [FileSystem.currentPath, String.toList_append]; rfl⟩

theorem isAbsolute_base (base : Path) (fs : FileSystem) :
    (if base.isAbsolute then base else fs.currentPath / base).isAbsolute := by
  split
  · assumption
  · exact Path.isAbsolute_div (isAbsolute_currentPath fs) base

/-- The path of a temporary directory starts at the root. -/
theorem isAbsolute_of_makeTemporary {base dir : Path} {stem : String} {endings rest : List String}
    {fs fs' : FileSystem}
    (h : (makeTemporary base stem endings).run fs = (.ok (dir, rest), fs')) : dir.isAbsolute := by
  have habs := isAbsolute_base base fs
  rw [makeTemporary, run_bind, run_get] at h
  dsimp only at h
  rcases run_makeFresh (if base.isAbsolute then base else fs.currentPath / base) stem endings fs
    with ⟨e,hr⟩ | ⟨ending,-,rest',a,-,-,hr⟩ <;> rw [hr] at h
  · cases (Prod.mk.inj h).1
  · rw [← (Prod.mk.inj (Except.ok.inj (Prod.mk.inj h).1)).1]
    exact Path.isAbsolute_div habs _

/-- A temporary directory is made at the end of a path that led to nothing, or nothing is done. -/
theorem run_makeTemporary {endings : List String} (he : ∀ ending ∈ endings, IsEnding ending)
    (base : Path) (stem : String) (fs : FileSystem) :
    (∃ e, (makeTemporary base stem endings).run fs = (.error e, fs)) ∨
      ∃ dir rest a, fs.Vacant dir a ∧ (makeTemporary base stem endings).run fs =
        (.ok (dir, rest), fs.put a (.directory (masked 0o777))) := by
  have habs := isAbsolute_base base fs
  rw [makeTemporary, run_bind, run_get]
  dsimp only
  generalize (if base.isAbsolute then base else fs.currentPath / base) = base at habs
  rcases run_makeFresh base stem endings fs with h | ⟨ending,hmem,rest,a,hl,hn,h⟩
  · exact .inl h
  · have hname := ((he ending hmem).endsInName stem).join base
    rw [FileSystem.locateName_of_unslashed hname.unslashed] at hl
    exact .inr ⟨_,rest,a,⟨Path.isAbsolute_div habs _,hname,hl,hn⟩,h⟩

/-- Nothing was where a temporary directory is made. -/
theorem exists_vacant {base dir : Path} {stem : String} {endings rest : List String}
    {fs fs' : FileSystem} (he : ∀ ending ∈ endings, IsEnding ending)
    (h : (makeTemporary base stem endings).run fs = (.ok (dir, rest), fs')) :
    ∃ a, fs.Vacant dir a := by
  rcases run_makeTemporary he base stem fs with ⟨e,hn⟩ | ⟨dir',rest',a,hv,hn⟩
  · cases (Prod.mk.inj (h.symm.trans hn)).1
  · obtain ⟨hdir,-⟩ := Prod.mk.inj (h.symm.trans hn)
    rw [(Prod.mk.inj (Except.ok.inj hdir)).1]
    exact ⟨a,hv⟩

/-- Where no temporary directory is made, nothing is done. -/
theorem files_of_makeTemporary_error {base : Path} {stem : String} {endings : List String}
    {fs fs' : FileSystem} {cause : IoError}
    (h : (makeTemporary base stem endings).run fs = (.error cause, fs')) : fs' = fs := by
  rw [makeTemporary, run_bind, run_get] at h
  dsimp only at h
  rcases run_makeFresh (if base.isAbsolute then base else fs.currentPath / base) stem endings fs
    with ⟨e,hr⟩ | ⟨ending,-,rest,a,-,-,hr⟩ <;> rw [hr] at h
  · exact (Prod.mk.inj h).2.symm
  · cases (Prod.mk.inj h).1

/-- The first name is taken that leads from the root down to nothing. -/
theorem run_makeTemporary_of_free {base p : Path} {stem ending name : String} {steps : List Step}
    {fs : FileSystem} (ht : fs.IsTree) (hb : base.isAbsolute) (hp : base / ⟨stem ++ ending⟩ = p)
    (hs : Step.ofText p.text = steps ++ [.enter name]) (hup : .up ∉ Step.ofText p.text)
    (hfit : p.Fits) (hd : fs.isDirectoryAt (steps.foldl Step.follow []))
    (hn : fs.get? (steps.foldl Step.follow [] ++ [name]) = none) (rest : List String) :
    (makeTemporary base stem (ending :: rest)).run fs =
      (.ok (p, rest),
        fs.put (steps.foldl Step.follow [] ++ [name]) (.directory (masked 0o777))) := by
  have hgoes := FileSystem.goesOn_root ht (hp ▸ Path.isAbsolute_div hb _) hup hfit
  rw [hs] at hgoes
  have hlocate := hgoes.locate_entry ht hd (by simp [hn]) false
  have hmake : (makeDirectory 0o777 p).run fs =
      (.ok (), fs.put (steps.foldl Step.follow [] ++ [name]) (.directory (masked 0o777))) := by
    simp only [makeDirectory, run_bind, run_get, run_liftExcept, hgoes.locateName, hlocate, hn]
    rfl
  rw [makeTemporary, run_bind, run_get]
  dsimp only
  rw [if_pos hb, makeFresh, run_tryCatch, run_bind, hp, hmake]
  rfl

/-- The first name is taken in the directory `/tmp` if nothing has it. -/
theorem run_makeTemporary_tmp (name : String) {p : Path} {stem ending : String} {fs : FileSystem}
    (ht : fs.IsTree) (hp : ⟨"/tmp"⟩ / ⟨stem ++ ending⟩ = p)
    (hs : Step.ofText p.text = [.stay, .enter "tmp", .enter name]) (hfit : p.Fits)
    (hd : fs.isDirectoryAt ["tmp"]) (hn : fs.get? ["tmp", name] = none) (rest : List String) :
    (makeTemporary ⟨"/tmp"⟩ stem (ending :: rest)).run fs =
      (.ok (p, rest), fs.put ["tmp", name] (.directory (masked 0o777))) := by
  have hup : .up ∉ Step.ofText p.text := by simp [hs]
  have hsteps : Step.ofText p.text = [.stay, .enter "tmp"] ++ [.enter name] := hs
  exact run_makeTemporary_of_free ht (by decide) hp hsteps hup hfit hd hn rest

end FileAction

namespace Work

/-- The failure to list the branches of a clone leads back to the clone. -/
theorem cloneDir?_heads {dir : Path} (h : dir.EndsInName) (cause : IoError) :
    (RepoError.heads (headsOf dir) cause).cloneDir? = some dir := by
  have hgit : (⟨".git"⟩ : Path).EndsInName := ⟨".gi".toList,'t',by decide,by decide,by decide⟩
  have hrefs : (⟨"refs"⟩ : Path).EndsInName := ⟨"ref".toList,'s',by decide,by decide,by decide⟩
  refine h.ancestors_three (x := ".git".toList) (y := "refs".toList) (z := "heads".toList)
    (by decide) (by decide) (by decide) (by decide) (by decide) (by decide) ?_
  rw [headsOf, (hrefs.join _).div (by decide), (hgit.join dir).div (by decide), h.div (by decide)]
  simp [String.toList_append]

end Work
end GitPublish
