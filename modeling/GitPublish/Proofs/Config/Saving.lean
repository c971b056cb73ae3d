import GitPublish.Proofs.Config.File

/-!
# Saving again and again

A configuration file is absent, or it holds what was saved last. To save fails for want of a place
for the file, and never for what the file holds.
-/
namespace GitPublish
variable {fs : FileSystem} {path : Path} {stored : Option Config} {c : Config}

namespace FileSystem

/-- There can be a file at a path: the directories above it can be made, and the path is not that of
a directory then. -/
def Admits (fs : FileSystem) (path : Path) : Prop :=
  ∃ made, (FileAction.makeAbove path).run fs = (.ok (), made) ∧ made.isDirectory path = false

theorem Writable.admits (h : fs.Writable path) : fs.Admits path := by
  obtain ⟨made,target,hmade,hopen⟩ := h
  obtain ⟨-,hl,hd⟩ := FileAction.run_openTarget_eq_ok.mp hopen
  refine ⟨made,hmade,?_⟩
  rw [← Bool.not_eq_true, isDirectory_iff]
  rintro ⟨target',hl',hd'⟩
  cases hl.symm.trans hl'
  exact hd hd'

/-- What cannot be opened for writing is a directory, or it is not there. -/
theorem isPresent_of_unopened {cause : IoError}
    (h : (FileAction.openTarget path).run fs = (.error cause, fs))
    (hd : fs.isDirectory path = false) : fs.isPresent path = false := by
  rw [← Bool.not_eq_true, isDirectory_iff] at hd
  rw [← Bool.not_eq_true, isPresent_iff]
  rintro ⟨a,e,hfind⟩
  obtain ⟨hl,-⟩ := find_eq_ok.mp hfind
  have hslashed : path.isSlashedName = false := by
    rw [← Bool.not_eq_true, Path.isSlashedName, Bool.and_eq_true, decide_eq_true_eq]
    exact fun hs => hd ⟨a,hl,isDirectoryAt_of_slash hs.1 hl⟩
  cases h.symm.trans (FileAction.run_openTarget_eq_ok.mpr ⟨hslashed,hl,fun ha => hd ⟨a,hl,ha⟩⟩)

/-- A path leads to a file that holds a configuration; if there is none, it leads to nothing. -/
def Stores (fs : FileSystem) (path : Path) : Option Config → Prop
  | none => fs.isPresent path = false
  | some c => ∃ target mode, fs.find true path = .ok (target, .file mode c.print.toUTF8)

theorem Stores.isPresent (h : fs.Stores path stored) : fs.isPresent path = stored.isSome := by
  cases stored with
  | none => exact h
  | some c =>
    obtain ⟨target,mode,hfind⟩ := h
    exact isPresent_iff.mpr ⟨_,_,hfind⟩

end FileSystem

namespace Config

structure Kept (fs : FileSystem) (path : Path) (stored : Option Config) : Prop where
  tree : fs.IsTree
  stores : fs.Stores path stored
  valid : ∀ c, stored = some c → c.isValid
  admits : fs.Admits path
  ready : stored.isSome → fs.Ready path

theorem Kept.isValid (h : Kept fs path stored) : (stored.getD {}).isValid := by
  cases stored with
  | none => decide
  | some c => exact h.valid c rfl

theorem Kept.load (h : Kept fs path stored) : load fs path = .ok (stored.getD {}) := by
  have hs := h.stores
  cases stored with
  | none => exact load_of_absent hs
  | some c =>
    obtain ⟨target,mode,hfind⟩ := hs
    exact load_of_find (h.valid c rfl) hfind

/-- Where a file can be written, saving stores the configuration. -/
theorem Kept.save (h : Kept fs path stored) (hc : c.isValid) (hw : fs.Writable path) :
    ∃ fs', (c.save path).run fs = (.ok (), fs') ∧ Kept fs' path (some c) := by
  obtain ⟨fs',target,mode,hsave,htree,hready,hfind⟩ := run_save c h.tree hw
  refine ⟨fs',hsave,htree,⟨target,mode,hfind⟩,?_,hready.writable.admits,fun _ => hready⟩
  rintro c' ⟨⟩
  exact hc

/-- Elsewhere it fails, which cannot happen once there is a file. The directories that were made
stay, and are found by those who try again. -/
theorem Kept.save_fails (h : Kept fs path stored) (hw : ¬ fs.Writable path) (c : Config) :
    stored = none ∧ ∃ cause fs', (c.save path).run fs = (.error cause, fs') ∧
      Kept fs' path none := by
  -- where there is a file, it can be written again
  have hnone : stored = none := by
    rw [← Option.not_isSome_iff_eq_none]
    exact fun hs => hw (h.ready hs).writable
  obtain ⟨made,hr,hd⟩ := h.admits
  have hgrow := FileAction.makeAbove_within_growing path fs h.tree
  rw [hr] at hgrow
  have hagain := FileAction.makeAbove_again h.tree hr (.refl made)
  rcases FileAction.run_openTarget path made with ⟨cause,hopen⟩ | ⟨target,hopen,-⟩
  · refine ⟨hnone,cause,made,?_,hgrow.1,?_,nofun,⟨made,hagain,hd⟩,nofun⟩
    · rw [save_eq, run_bind_ok hr, FileAction.write, run_bind_error hopen]
    · exact FileSystem.isPresent_of_unopened hopen hd
  · exact absurd ⟨made,target,hr,hopen⟩ hw

end Config
end GitPublish
