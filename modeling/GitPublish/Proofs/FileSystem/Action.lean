import GitPublish.FileSystem.Action
import GitPublish.Proofs.Effect
import GitPublish.Proofs.FileSystem.Kept

/-!
# What actions on files can do

Making directories and copying files put entries where nothing was, or where a file was, at the end
of a way. So trees stay trees, and they grow.
-/
namespace GitPublish

namespace FileSystem
variable {fs fs' : FileSystem} {p : Path} {a : Address}

theorem ofText_ne_nil (text : String) : Step.ofText text ≠ [] := by
  simp [Step.ofText]

theorem locate_eq_ok {follow : Bool} : fs.locate follow p = .ok a ↔
    p.hasNul = false ∧ p.text ≠ "" ∧ p.text.utf8ByteSize < pathLimit ∧
      fs.Leads follow linkLimit (startOf p.text fs.current) (Step.ofText p.text) a := by
  rw [← walk_eq_ok]
  unfold locate
  rcases hn : p.hasNul with - | -
  · by_cases ht : p.text = ""
    · simp [ht]
    · by_cases hl : pathLimit ≤ p.text.utf8ByteSize
      · simp [ht, hl, Nat.not_lt.mpr hl]
      · rw [if_neg (by simp), if_neg ht, if_neg hl]
        simp only [ht, Nat.lt_of_not_le hl, true_and, not_false_eq_true, ne_eq]
        rcases fs.walk follow linkLimit (startOf p.text fs.current) (Step.ofText p.text) with
          cause | b
        · exact ⟨fun h => (by cases h),fun h => (by cases h)⟩
        · exact ⟨fun h => (by cases h; rfl),fun h => (by cases h; rfl)⟩
  · simp

theorem locateName_eq_ok : fs.locateName p = .ok a ↔
    p.hasNul = false ∧ p.text.utf8ByteSize < pathLimit ∧
      fs.locate false (if p.unslashed.text = "" then p else p.unslashed) = .ok a := by
  unfold locateName
  cases p.hasNul with
  | true => exact ⟨nofun,nofun⟩
  | false =>
    by_cases hl : pathLimit ≤ p.text.utf8ByteSize
    · simp [hl, Nat.not_lt.mpr hl]
    · simp [hl, Nat.lt_of_not_le hl]

/-- A path that ends in no slash names the address that it leads to. -/
theorem locateName_of_unslashed (h : p.unslashed = p) : fs.locateName p = fs.locate false p := by
  unfold locateName locate
  rw [h, ite_self]
  split
  · rfl
  split
  next hl =>
    have hne : p.text ≠ "" := by
      rintro hempty
      rw [hempty] at hl
      exact absurd hl (by decide)
    rw [if_neg hne]
  · rfl

theorem find_eq_ok {follow : Bool} {e : Entry} :
    fs.find follow p = .ok (a, e) ↔ fs.locate follow p = .ok a ∧ fs.get? a = some e := by
  unfold find
  rcases fs.locate follow p with cause | b
  · exact ⟨fun h => (by cases h),fun h => (by cases h.1)⟩
  · simp only [bind, Except.bind]
    rcases hb : fs.get? b with - | e'
    · refine ⟨fun h => (by cases h),?_⟩
      rintro ⟨⟨⟩,he⟩
      cases hb.symm.trans he
    · constructor
      · rintro ⟨⟩
        exact ⟨rfl,hb⟩
      · rintro ⟨⟨⟩,he⟩
        cases hb.symm.trans he
        rfl

theorem find_of_none {follow : Bool} (hl : fs.locate follow p = .ok a) (hn : fs.get? a = none) :
    fs.find follow p = .error (.os .notFound) := by
  simp only [find, hl, bind, Except.bind, hn]
  rfl

/-- An entry that is placed twice, at first empty, is placed once. -/
theorem put_put (fs : FileSystem) (a : Address) (e e' : Entry) :
    (fs.put a e).put a e' = fs.put a e' := by
  simp [put]

/-- A path leads where it led, once nothing that was found is gone. -/
theorem locate_of_keeps (h : fs.Keeps fs') {follow : Bool}
    (hl : follow = false ∨ ∀ target, fs'.get? a ≠ some (.link target))
    (hp : fs.locate follow p = .ok a) : fs'.locate follow p = .ok a := by
  obtain ⟨hnul,hne,hlen,hw⟩ := locate_eq_ok.mp hp
  exact locate_eq_ok.mpr ⟨hnul,hne,hlen,h.current ▸ hw.of_keeps h hl⟩

theorem parent_of_locate (ht : fs.IsTree) {follow : Bool} (hp : fs.locate follow p = .ok a)
    (hn : fs.get? a = none) : ∃ dir name, a = dir ++ [name] ∧ fs.isDirectoryAt dir := by
  obtain ⟨-,-,-,hw⟩ := locate_eq_ok.mp hp
  exact hw.parent_of_none ht hn (.inr (ofText_ne_nil p.text))

theorem not_link_of_locate (ht : fs.IsTree) (hp : fs.locate true p = .ok a) (target : String) :
    fs.get? a ≠ some (.link target) := by
  obtain ⟨-,-,-,hw⟩ := locate_eq_ok.mp hp
  exact hw.not_link ht (.inr (ofText_ne_nil p.text)) target

def growing : Change FileSystem where
  allows fs fs' := fs.IsTree → fs'.IsTree ∧ fs.Grows fs'
  refl fs ht := ⟨ht,.refl fs⟩
  trans h k ht := by
    obtain ⟨ht',hg⟩ := h ht
    obtain ⟨ht'',hg'⟩ := k ht'
    exact ⟨ht'',hg.trans hg'⟩

/-- A directory is placed at the end of a way where nothing is. -/
theorem growing_putDirectory {follow : Bool} (hp : fs.locate follow p = .ok a)
    (hn : fs.get? a = none) (mode : Nat) : growing.allows fs (fs.put a (.directory mode)) := by
  intro ht
  have hg : fs.Grows (fs.put a (.directory mode)) :=
    grows_put (fun old h => by cases hn.symm.trans h) (by simp)
  obtain ⟨dir,name,rfl,hd⟩ := parent_of_locate ht hp hn
  refine ⟨hg.isTree_put ht fun dir' name' h => ?_,hg⟩
  obtain ⟨rfl,-⟩ := List.append_inj' h rfl
  exact hd

/-- A file is placed at the end of a way whose last link is followed, where no directory is. -/
theorem growing_putFile (hp : fs.locate true p = .ok a) (hd : ¬ fs.isDirectoryAt a) (mode : Nat)
    (content : ByteArray) : growing.allows fs (fs.put a (.file mode content)) := by
  intro ht
  have hold : fs.get? a = none ∨ ∃ mode content, fs.get? a = some (.file mode content) := by
    cases h : fs.get? a with
    | none => exact .inl rfl
    | some e =>
      cases e with
      | directory mode => exact absurd (isDirectoryAt_iff.mpr ⟨mode,h⟩) hd
      | file mode content => exact .inr ⟨mode,content,rfl⟩
      | link target => exact absurd h (not_link_of_locate ht hp target)
  have hg : fs.Grows (fs.put a (.file mode content)) := by
    refine grows_put (fun old h => ?_) (by simp)
    rcases hold with hn | ⟨mode',content',hf⟩
    · cases hn.symm.trans h
    · cases hf.symm.trans h
      exact ⟨mode,content,rfl⟩
  refine ⟨hg.isTree_put ht fun dir name h => ?_,hg⟩
  subst h
  rcases hold with hn | ⟨mode',content',hf⟩
  · obtain ⟨dir',name',h,hdir⟩ := parent_of_locate ht hp hn
    obtain ⟨rfl,-⟩ := List.append_inj' h rfl
    exact hdir
  · exact ht.parent dir name (by simp [hf])

/-- A path leads to a file. -/
def LeadsToFile (fs : FileSystem) (p : Path) (a : Address) : Prop :=
  fs.locate true p = .ok a ∧ ∃ mode content, fs.get? a = some (.file mode content)

/-- A path that leads to a file leads there while files grow. -/
theorem LeadsToFile.of_grows (h : fs.LeadsToFile p a) (hg : fs.Grows fs') :
    fs'.LeadsToFile p a := by
  obtain ⟨hl,mode,content,hf⟩ := h
  obtain ⟨mode',content',hf'⟩ := hg.kept a _ hf
  exact ⟨locate_of_keeps hg.toKeeps (.inr (by simp [hf'])) hl,mode',content',hf'⟩

end FileSystem

namespace FileAction
variable {R : Change FileSystem} {mode : Nat} {p : Path}

/-- A change that lets a directory be made at a path. -/
def AllowsDirectory (R : Change FileSystem) (mode : Nat) (p : Path) : Prop :=
  ∀ fs a, fs.locateName p = .ok a → fs.get? a = none →
    R.allows fs (fs.put a (.directory (masked mode)))

/-- A change that lets a file be written at a path. -/
def AllowsFile (R : Change FileSystem) (p : Path) : Prop :=
  ∀ fs a, fs.locate true p = .ok a → ¬ fs.isDirectoryAt a → ∀ mode content,
    R.allows fs (fs.put a (.file mode content))

theorem growing_allowsDirectory (mode : Nat) (p : Path) :
    AllowsDirectory FileSystem.growing mode p := fun _ _ hl hn =>
  FileSystem.growing_putDirectory (FileSystem.locateName_eq_ok.mp hl).2.2 hn _

theorem growing_allowsFile (p : Path) : AllowsFile FileSystem.growing p :=
  fun _ _ hl hd mode content => FileSystem.growing_putFile hl hd mode content

/-- A directory is made where nothing is, or nothing is done. -/
theorem run_makeDirectory (mode : Nat) (p : Path) (fs : FileSystem) :
    (∃ e, (makeDirectory mode p).run fs = (.error e, fs)) ∨
      ∃ a, fs.locateName p = .ok a ∧ fs.get? a = none ∧
        (makeDirectory mode p).run fs = (.ok (), fs.put a (.directory (masked mode))) := by
  rw [makeDirectory, run_bind, run_get]
  simp only [run_bind, run_liftExcept]
  rcases fs.locateName p with e | a
  · exact .inl ⟨e,rfl⟩
  · rcases hn : fs.get? a with - | e
    · exact .inr ⟨a,rfl,hn,by simp only [hn]; rfl⟩
    · exact .inl ⟨_,by simp only [hn]; rfl⟩

theorem makeDirectory_within (h : AllowsDirectory R mode p) : Within R (makeDirectory mode p) := by
  intro fs
  rcases run_makeDirectory mode p fs with ⟨e,hr⟩ | ⟨a,hl,hn,hr⟩ <;> rw [hr]
  · exact R.refl fs
  · exact h fs a hl hn

theorem makeMissing_within (h : AllowsDirectory R mode p) : Within R (makeMissing mode p) := by
  refine (makeDirectory_within h).tryCatch fun e => ?_
  refine within_get.bind fun fs => ?_
  split
  · exact within_pure ()
  · exact within_throw e

theorem makeFirst_within {ps : List Path} (h : ∀ p ∈ ps, AllowsDirectory R mode p) :
    Within R (makeFirst mode ps) := by
  induction ps with
  | nil => exact within_pure []
  | cons p ps ih =>
    have hp := makeMissing_within (h p (List.mem_cons_self ..))
    have hps := ih fun q hq => h q (List.mem_cons_of_mem p hq)
    refine (hp.bind fun _ => within_pure []).tryCatch fun e => ?_
    split
    · exact hps.bind fun missing => within_pure _
    · exact within_throw e

theorem run_makeFirst_cons (mode : Nat) (p : Path) (ps : List Path) (fs : FileSystem) :
    (makeFirst mode (p :: ps)).run fs = match (makeMissing mode p).run fs with
      | (.ok (), fs) => (.ok [], fs)
      | (.error e, fs) =>
        if e.kind = .notFound then match (makeFirst mode ps).run fs with
          | (.ok missing, fs) => (.ok (p :: missing), fs)
          | (.error e, fs) => (.error e, fs)
        else (.error e, fs) := by
  rw [makeFirst, run_tryCatch, run_bind]
  rcases (makeMissing mode p).run fs with ⟨e | ⟨⟩, fs₁⟩
  · by_cases he : e.kind = .notFound
    · simp only [he, if_true, run_bind]
      rcases (makeFirst mode ps).run fs₁ with ⟨e | rest, fs₂⟩ <;> rfl
    · simp only [he, if_false, run_throw]
  · rfl

/-- Only paths that were given can be missing. -/
theorem makeFirst_subset {ps missing : List Path} {fs fs' : FileSystem}
    (h : (makeFirst mode ps).run fs = (.ok missing, fs')) : missing ⊆ ps := by
  induction ps generalizing missing fs fs' with
  | nil =>
    rw [makeFirst, run_pure] at h
    obtain ⟨h,-⟩ := Prod.mk.inj h
    rw [← Except.ok.inj h]
    exact List.nil_subset _
  | cons p ps ih =>
    rw [run_makeFirst_cons] at h
    rcases hm : (makeMissing mode p).run fs with ⟨e | ⟨⟩, fs₁⟩ <;> rw [hm] at h
    · by_cases he : e.kind = .notFound
      · rcases hf : (makeFirst mode ps).run fs₁ with ⟨e | rest, fs₂⟩ <;>
          simp only [he, if_true, hf] at h
        · cases (Prod.mk.inj h).1
        · obtain ⟨h,-⟩ := Prod.mk.inj h
          rw [← Except.ok.inj h]
          exact List.cons_subset_cons p (ih hf)
      · simp only [he, if_false] at h
        cases (Prod.mk.inj h).1
    · obtain ⟨h,-⟩ := Prod.mk.inj h
      rw [← Except.ok.inj h]
      exact List.nil_subset _

/-- Makes the first of the paths that can be made, and from there back to the first of all. -/
def makeAll (mode : Nat) (ps : List Path) : FileAction Unit := do
  let missing ← makeFirst mode ps
  missing.reverse.forM (makeMissing mode)

theorem makeDirectories_eq (mode : Nat) (p : Path) :
    makeDirectories mode p = makeAll mode p.ancestors.dropLast := rfl

/-- A path that cannot be made at once is made behind those above it. -/
theorem run_makeAll_cons (mode : Nat) (p : Path) (ps : List Path) (fs : FileSystem) :
    (makeAll mode (p :: ps)).run fs = match (makeMissing mode p).run fs with
      | (.ok (), fs) => (.ok (), fs)
      | (.error e, fs) =>
        if e.kind = .notFound then (do makeAll mode ps; makeMissing mode p).run fs
        else (.error e, fs) := by
  rw [makeAll, run_bind, run_makeFirst_cons]
  rcases (makeMissing mode p).run fs with ⟨e | ⟨⟩, fs₁⟩
  case ok => rfl
  by_cases he : e.kind = .notFound
  case neg => simp only [he, if_false]
  simp only [he, if_true, run_bind, makeAll]
  rcases (makeFirst mode ps).run fs₁ with ⟨e | missing, fs₂⟩
  case error => rfl
  dsimp only
  rw [List.reverse_cons, List.forM_eq_forM, List.forM_append, run_bind, ← List.forM_eq_forM]
  rcases (missing.reverse.forM (makeMissing mode)).run fs₂ with ⟨e | ⟨⟩, fs₃⟩
  case error => rfl
  dsimp only
  rw [List.forM_eq_forM, List.forM_cons, run_bind]
  rcases (makeMissing mode p).run fs₃ with ⟨e | ⟨⟩, fs₄⟩ <;> rfl

theorem makeAll_within {ps : List Path} (h : ∀ q ∈ ps, AllowsDirectory R mode q) :
    Within R (makeAll mode ps) := by
  refine (makeFirst_within h).bind_of fun missing fs fs' hm => ?_
  refine .forM fun q hq => makeMissing_within (h q ?_)
  exact makeFirst_subset hm (List.mem_reverse.mp hq)

theorem makeDirectories_within (h : ∀ q ∈ p.ancestors.dropLast, AllowsDirectory R mode q) :
    Within R (makeDirectories mode p) := makeAll_within h

theorem makeParents_within (h : ∀ parent, p.parent? = some parent →
    ∀ q ∈ parent.ancestors.dropLast, AllowsDirectory R 0o777 q) : Within R (makeParents p) := by
  unfold makeParents
  split
  · exact within_pure ()
  next parent hp =>
    refine within_get.bind fun fs => ?_
    split
    · exact within_pure ()
    · exact makeDirectories_within (h parent hp)

theorem run_openTarget (p : Path) (fs : FileSystem) :
    (∃ e, (openTarget p).run fs = (.error e, fs)) ∨
      ∃ a, (openTarget p).run fs = (.ok a, fs) ∧ fs.locate true p = .ok a ∧
        ¬ fs.isDirectoryAt a := by
  rw [openTarget, run_bind, run_get]
  dsimp only
  split
  · rw [run_bind, run_liftExcept]
    rcases fs.locateName p with e | a
    · exact .inl ⟨e,rfl⟩
    · exact .inl ⟨_,rfl⟩
  · rw [run_bind, run_liftExcept]
    rcases fs.locate true p with e | a
    · exact .inl ⟨e,rfl⟩
    · dsimp only
      split
      · exact .inl ⟨_,rfl⟩
      next hd => exact .inr ⟨a,rfl,rfl,hd⟩

theorem run_openTarget_eq_ok {fs : FileSystem} : (openTarget p).run fs = (.ok a, fs) ↔
    p.isSlashedName = false ∧ fs.locate true p = .ok a ∧ ¬ fs.isDirectoryAt a := by
  rw [openTarget, run_bind, run_get]
  dsimp only
  cases p.isSlashedName with
  | true =>
    rw [if_pos rfl, run_bind, run_liftExcept]
    rcases fs.locateName p <;> exact ⟨nofun,nofun⟩
  | false =>
    rw [if_neg Bool.false_ne_true, run_bind, run_liftExcept]
    rcases fs.locate true p with e | b
    · exact ⟨nofun,nofun⟩
    · dsimp only
      split
      next hd =>
        refine ⟨nofun,?_⟩
        rintro ⟨-,⟨⟩,hn⟩
        exact absurd hd hn
      next hd =>
        constructor
        · rintro ⟨⟩
          exact ⟨rfl,rfl,hd⟩
        · rintro ⟨-,⟨⟩,-⟩
          rfl

/-- A copy fails and leaves everything, or it places the target. -/
theorem run_copy (source target : Path) (fs : FileSystem) :
    (∃ e, (copy source target).run fs = (.error e, fs)) ∨
      ∃ a mode content, fs.locate true target = .ok a ∧ ¬ fs.isDirectoryAt a ∧
        (copy source target).run fs =
          (.ok (), fs.put a (.file mode content)) := by
  rw [copy, run_bind, run_get]
  simp only [run_bind, run_liftExcept]
  rcases fs.find true source with e | ⟨origin, e⟩
  · exact .inl ⟨e,rfl⟩
  · cases e with
    | directory | link => exact .inl ⟨_,rfl⟩
    | file mode content =>
      dsimp only
      rw [run_bind]
      rcases run_openTarget target fs with ⟨e,h⟩ | ⟨a,h,ha,hd⟩ <;> rw [h]
      · exact .inl ⟨e,rfl⟩
      · refine .inr ⟨a,mode,?content,ha,hd,?placed⟩
        case placed =>
          rw [← FileSystem.put_put fs a (.file mode .empty)]
          rfl

/-- A copy that succeeds leaves a file where the target leads. -/
theorem copy_ok {source : Path} {fs fs' : FileSystem} (ht : fs.IsTree)
    (h : (copy source p).run fs = (.ok (), fs')) : ∃ a, fs'.LeadsToFile p a := by
  rcases run_copy source p fs with ⟨e,hr⟩ | ⟨a,mode,content,hl,hd,hr⟩
  · cases (Prod.mk.inj (h.symm.trans hr)).1
  obtain ⟨-,rfl⟩ := Prod.mk.inj (h.symm.trans hr)
  obtain ⟨-,hg⟩ := FileSystem.growing_putFile hl hd mode content ht
  have hf := FileSystem.get?_put_self fs a (.file mode content)
  exact ⟨a,FileSystem.locate_of_keeps hg.toKeeps (.inr (by simp)) hl,mode,content,hf⟩

theorem copy_within (source : Path) (h : AllowsFile R p) : Within R (copy source p) := by
  intro fs
  rcases run_copy source p fs with ⟨e,hr⟩ | ⟨a,mode,content,ha,hd,hr⟩ <;> rw [hr]
  · exact R.refl fs
  · exact h fs a ha hd mode content

end FileAction
end GitPublish
