import GitPublish.Config.File
import GitPublish.Proofs.Config.Document
import GitPublish.Proofs.FileSystem.Again
import GitPublish.Proofs.FileSystem.Below

/-!
# Saved configurations are loaded back

A configuration that was made by changing settings and reading documents can be saved wherever a
file can be written. What is loaded from there is that configuration, whatever its values are.
-/
namespace GitPublish
variable {fs fs' made : FileSystem} {root target : Address} {steps : List Step} {path : Path}
  {name : String} {content : ByteArray} {text : String}

namespace FileAction

def makeAbove (p : Path) : FileAction Unit :=
  match p.parent? with
  | some parent => makeDirectories 0o777 parent
  | none => pure ()

theorem makeAbove_within_growing (p : Path) : Within FileSystem.growing (makeAbove p) := by
  unfold makeAbove
  split
  · exact makeDirectories_within fun q _ => growing_allowsDirectory 0o777 q
  · exact within_pure ()

/-- The directories above a path are there when they have been made. -/
theorem makeAbove_again (ht : fs.IsTree) (h : (makeAbove path).run fs = (.ok (), made))
    (hk : made.Keeps fs') : (makeAbove path).run fs' = (.ok (), fs') := by
  unfold makeAbove at h ⊢
  split at h
  · exact makeDirectories_again ht h hk
  · rfl

theorem run_write (h : (openTarget path).run fs = (.ok target, fs)) (content : ByteArray) :
    ∃ mode, (write path content).run fs = (.ok (), fs.put target (.file mode content)) := by
  simp only [write, run_bind, h, run_get, run_set]
  exact ⟨_,rfl⟩

theorem run_readText {mode : Nat} (h : fs.find true path = .ok (target, .file mode text.toUTF8)) :
    (readText path).run fs = (.ok text, fs) := by
  have hread : (read path).run fs = (.ok text.toUTF8, fs) := by
    simp only [read, run_bind, run_get, run_liftExcept, h]
    rfl
  have htext : String.fromUTF8? text.toUTF8 = some text := by
    simp [String.fromUTF8?]
    exact ⟨text.isValidUTF8,rfl⟩
  simp only [readText, run_bind, hread, htext]
  rfl

end FileAction

/-- A file that is placed where a path leads is found there. -/
theorem FileSystem.find_putFile (hl : fs.locate true path = .ok target)
    (hd : ¬ fs.isDirectoryAt target) (mode : Nat) (content : ByteArray) (ht : fs.IsTree) :
    (fs.put target (.file mode content)).IsTree ∧
      (fs.put target (.file mode content)).find true path = .ok (target, .file mode content) := by
  obtain ⟨ht',hg⟩ := growing_putFile hl hd mode content ht
  exact ⟨ht',find_eq_ok.mpr ⟨locate_of_keeps hg.toKeeps (.inr (by simp)) hl,by simp⟩⟩

/-- A file can be written at a path: the directories above it are there or can be made, and the path
leads to no directory then. -/
def FileSystem.Writable (fs : FileSystem) (path : Path) : Prop :=
  ∃ made target, (FileAction.makeAbove path).run fs = (.ok (), made) ∧
    (FileAction.openTarget path).run made = (.ok target, made)

/-- A file can be written at a path, and no directory has to be made for it. -/
def FileSystem.Ready (fs : FileSystem) (path : Path) : Prop :=
  (FileAction.makeAbove path).run fs = (.ok (), fs) ∧
    ∃ target, (FileAction.openTarget path).run fs = (.ok target, fs)

namespace FileSystem

theorem Ready.writable (h : fs.Ready path) : fs.Writable path := by
  obtain ⟨hmade,target,hopen⟩ := h
  exact ⟨fs,target,hmade,hopen⟩

/-- Where a path goes on from a directory to a name, with nothing but directories in the way and no
directory at the end, a file can be written. -/
theorem GoesOn.writable (h : fs.GoesOn path root (steps ++ [.enter name])) (ht : fs.IsTree)
    (hfree : fs.IsFree root (steps.foldl Step.follow root))
    (hend : ∀ e, fs.get? (steps.foldl Step.follow root ++ [name]) = some e → e.isFile) :
    fs.Writable path := by
  obtain ⟨q,hq,-,made,hr,hmade⟩ := h.run_parent ht hfree 0o777
  have hall (b : Address) := hfree.all (b := b) ht h.directory h.prefix_foldl
  refine ⟨made,steps.foldl Step.follow root ++ [name],?_,?_⟩
  · rw [FileAction.makeAbove, hq]
    exact hr
  · refine (h.of_keeps hmade.grows.toKeeps).run_openTarget (hmade.isTree ht hall)
      (hmade.directory (hall _ (List.prefix_refl _)) (List.prefix_refl _)) ?_
    rw [hmade.get?_append]
    exact hend

end FileSystem

namespace Config

theorem save_eq (c : Config) (path : Path) : c.save path = (do
    FileAction.makeAbove path
    FileAction.write path c.print.toUTF8) := by
  unfold save FileAction.makeAbove
  cases path.parent? <;> rfl

/-- A file that does not exist stands for the default. -/
theorem load_of_absent (h : fs.isPresent path = false) : load fs path = .ok {} := by
  rw [load, h, if_neg Bool.false_ne_true]

/-- Whatever is loaded satisfies the rules. -/
theorem isValid_of_load {c : Config} (h : load fs path = .ok c) : c.isValid := by
  unfold load at h
  split at h
  · split at h
    · cases h
    next text _ =>
      rcases hparse : parse text with e | c' <;> rw [hparse] at h
      · cases h
      · rw [← Except.ok.inj h]
        exact isValid_of_parse hparse
  · rw [← Except.ok.inj h]
    decide

/-- A configuration that satisfies the rules is loaded from the file that holds it. -/
theorem load_of_find {c : Config} {mode : Nat} (hc : c.isValid)
    (h : fs.find true path = .ok (target, .file mode c.print.toUTF8)) : load fs path = .ok c := by
  rw [load, if_pos (FileSystem.isPresent_iff.mpr ⟨_,_,h⟩), FileAction.run_readText h]
  dsimp only
  rw [parse_print hc]
  rfl

/-- What is saved where a file can be written is found there, and can be saved there again. -/
theorem run_save (c : Config) (ht : fs.IsTree) (hw : fs.Writable path) : ∃ fs' target mode,
    (c.save path).run fs = (.ok (), fs') ∧ fs'.IsTree ∧ fs'.Ready path ∧
      fs'.find true path = .ok (target, .file mode c.print.toUTF8) := by
  obtain ⟨made,target,hmade,hopen⟩ := hw
  have htree := (FileAction.makeAbove_within_growing path fs ht).1
  rw [hmade] at htree
  obtain ⟨hslashed,hl,hd⟩ := FileAction.run_openTarget_eq_ok.mp hopen
  obtain ⟨mode,hwrite⟩ := FileAction.run_write hopen c.print.toUTF8
  have hkeeps := (FileSystem.growing_putFile hl hd mode c.print.toUTF8 htree).2.toKeeps
  obtain ⟨htree',hfind⟩ := FileSystem.find_putFile hl hd mode c.print.toUTF8 htree
  obtain ⟨hl',hf⟩ := FileSystem.find_eq_ok.mp hfind
  have hopen' := FileAction.run_openTarget_eq_ok.mpr
    ⟨hslashed,hl',by simp [FileSystem.isDirectoryAt, Entry.isDirectory]⟩
  refine ⟨_,target,mode,?_,htree',⟨FileAction.makeAbove_again ht hmade hkeeps,_,hopen'⟩,hfind⟩
  rw [save_eq, run_bind_ok hmade, hwrite]

/-- A configuration that satisfies the rules is loaded from where it was saved. -/
theorem load_of_save {c : Config} (hc : c.isValid) (ht : fs.IsTree) (hw : fs.Writable path) :
    ∃ fs', (c.save path).run fs = (.ok (), fs') ∧ load fs' path = .ok c := by
  obtain ⟨fs',target,mode,hsave,-,-,hfind⟩ := run_save c ht hw
  exact ⟨fs',hsave,load_of_find hc hfind⟩

/-- What was made of the default satisfies the rules, can be saved wherever a file can be written,
and is loaded back from there. -/
theorem load_save_edits (edits : List Edit) (fs : FileSystem) (path : Path) (ht : fs.IsTree)
    (hw : fs.Writable path) :
    let c := edits.foldl Edit.apply {}
    (c.stem ≠ "" ∧ '/' ∉ c.stem.toList) ∧ (∀ email, c.email = some email → '@' ∈ email.toList) ∧
      ∃ fs', (c.save path).run fs = (.ok (), fs') ∧ load fs' path = .ok c := by
  intro c
  have hc : c.isValid := isValid_of_edits edits
  obtain ⟨hstem,hemail⟩ := isValid_iff.mp hc
  exact ⟨hstem,hemail,load_of_save hc ht hw⟩

/-- Files in which `/etc` holds nothing. -/
def bareFiles : FileSystem := ⟨[(["etc"], .directory 0o755)],[],by decide⟩

theorem goesOn_bareFiles : bareFiles.GoesOn ⟨"/etc/gitwrite/config.toml"⟩ []
    ([.stay, .enter "etc", .enter "gitwrite"] ++ [.enter "config.toml"]) := by
  have hsteps : Step.ofText "/etc/gitwrite/config.toml" =
      [.stay, .enter "etc", .enter "gitwrite"] ++ [.enter "config.toml"] := by decide
  rw [← hsteps]
  exact FileSystem.goesOn_root (by decide) (by decide) (by decide) (by decide)

theorem writable_bareFiles : bareFiles.Writable ⟨"/etc/gitwrite/config.toml"⟩ :=
  goesOn_bareFiles.writable (by decide) (by decide) fun e he => nomatch he

theorem load_save_edits_bareFiles : bareFiles.IsTree ∧
    bareFiles.Writable ⟨"/etc/gitwrite/config.toml"⟩ ∧
    let edits : List Edit := [.set "user.email" "\"\\\r\n\x01@", .set "user.email" "none"]
    let c := edits.foldl Edit.apply {}
    (c.stem ≠ "" ∧ '/' ∉ c.stem.toList) ∧ (∀ email, c.email = some email → '@' ∈ email.toList) ∧
      ∃ fs', (c.save ⟨"/etc/gitwrite/config.toml"⟩).run bareFiles = (.ok (), fs') ∧
        load fs' ⟨"/etc/gitwrite/config.toml"⟩ = .ok c := by
  have ht : bareFiles.IsTree := by decide
  exact ⟨ht,writable_bareFiles,load_save_edits _ _ _ ht writable_bareFiles⟩

end Config
end GitPublish
