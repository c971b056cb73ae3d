import GitPublish.Proofs.FileSystem.Below
import GitPublish.Proofs.FileSystem.Replicated
import GitPublish.Proofs.WorkTree

/-!
# What copying a tree comes to

Where a clone holds no links, is apart from the tree, and has no file where a directory is needed
and no directory where a file is, the whole tree is copied: each file is found in the clone as it is
found in the tree, the directories above it are made if they are missing, and everything else stays
as it was. The files that were copied are those that are staged and reported.
-/
namespace GitPublish
open FileSystem
variable {fs fs' : FileSystem} {source dir subdir p q : Path} {src root base way way' : Address}
  {a : Address} {mode : Nat} {content : ByteArray}

namespace FileSystem

/-- No file is found above an address. -/
def IsClear (fs : FileSystem) (a : Address) : Prop :=
  ∀ b, b <+: a → b ≠ a → ∀ mode content, fs.get? b ≠ some (.file mode content)

theorem isClear_iff : fs.IsClear a ↔
    ∀ n < a.length, (fs.get? (a.take n)).any Entry.isFile = false := by
  constructor
  · intro h n hn
    have hne : a.take n ≠ a := fun heq => by
      rw [← heq, List.length_take] at hn
      omega
    cases he : fs.get? (a.take n) with
    | none => rfl
    | some e =>
      cases e with
      | file mode content => exact absurd he (h _ (List.take_prefix n a) hne mode content)
      | directory | link => rfl
  · intro h b hb hne mode content he
    have htake := List.prefix_iff_eq_take.mp hb
    have hlt := h b.length (Nat.lt_of_le_of_ne hb.length_le fun hlen => hne (hb.eq_of_length hlen))
    rw [← htake, he] at hlt
    cases hlt

instance : Decidable (fs.IsClear a) := decidable_of_iff' _ isClear_iff

/-- No link is found below an address. -/
def HasNoLinks (fs : FileSystem) (root : Address) : Prop :=
  ∀ a link, root <+: a → fs.get? a ≠ some (.link link)

theorem mem_of_link {link : String} (h : fs.get? a = some (.link link)) :
    (a, .link link) ∈ fs.entries := by
  unfold get? at h
  cases hl : fs.entries.lookup a with
  | none =>
    rw [hl] at h
    dsimp only at h
    split at h <;> cases h
  | some e =>
    rw [hl] at h
    cases h
    obtain ⟨front,back,hentries,-⟩ := List.lookup_eq_some_iff.mp hl
    exact hentries ▸ List.mem_append_right front (List.mem_cons_self ..)

theorem hasNoLinks_iff : fs.HasNoLinks root ↔
    ∀ x ∈ fs.entries, root <+: x.1 → x.2.isDirectory ∨ x.2.isFile := by
  constructor
  · rintro h ⟨a,e⟩ hx ha
    cases e with
    | directory => exact .inl rfl
    | file => exact .inr rfl
    | link target => exact absurd (get?_of_mem hx) (h a target ha)
  · intro h a link ha hl
    rcases h _ (mem_of_link hl) ha with hd | hf
    · cases hd
    · cases hf

instance : Decidable (fs.HasNoLinks root) := decidable_of_iff' _ hasNoLinks_iff

/-- Without files and links in the way, only directories are. -/
theorem IsClear.free (h : fs.IsClear a) (hl : fs.HasNoLinks root) {b : Address}
    (hrb : root <+: b) (hb : b <+: a) (hne : b ≠ a) : fs.get? b = none ∨ fs.isDirectoryAt b := by
  cases he : fs.get? b with
  | none => exact .inl rfl
  | some e =>
    cases e with
    | directory mode => exact .inr (isDirectoryAt_iff.mpr ⟨mode,he⟩)
    | file mode content => exact absurd he (h b hb hne mode content)
    | link target => exact absurd he (hl b target hrb)

theorem HasNoLinks.isFile (h : fs.HasNoLinks root) (ha : root <+: a) (hd : ¬ fs.isDirectoryAt a)
    {e : Entry} (he : fs.get? a = some e) : e.isFile := by
  cases e with
  | file mode content => rfl
  | directory mode => exact absurd (isDirectoryAt_iff.mpr ⟨mode,he⟩) hd
  | link target => exact absurd he (h a target ha)

theorem Diverge.below (h : Diverge src root) (hb : root <+: base) : Diverge src base := by
  refine ⟨fun hp => ?_,fun hp => h.2 (hb.trans hp)⟩
  rcases List.prefix_or_prefix_of_prefix hp hb with hsr | hrs
  · exact h.1 hsr
  · exact h.2 hrs

theorem GoesOn.find_file (h : fs.GoesOn p root (Step.ofText (q / pathOf way).text))
    (ht : fs.IsTree) (hw : way ≠ [] ∧ ∀ name ∈ way, IsName name)
    (he : fs.get? (q.under root ++ way) = some (.file mode content)) :
    fs.find true p = .ok (q.under root ++ way, .file mode content) := by
  obtain ⟨hne,hn⟩ := hw
  obtain ⟨init,name,rfl⟩ : ∃ init name, way = init ++ [name] :=
    ⟨_,_,(List.dropLast_concat_getLast hne).symm⟩
  obtain ⟨steps,hsteps,hfold⟩ := q.exists_steps_div hn
  rw [hsteps] at h
  rw [← List.append_assoc, ← hfold] at he ⊢
  have hd := ht.parent (steps.foldl Step.follow root) name (by simp [he])
  exact find_eq_ok.mpr ⟨h.locate_entry ht hd (by simp [he]) true,he⟩

theorem GoesOn.find_listed (h : fs.GoesOn p root (Step.ofText (pathOf way).text))
    (ht : fs.IsTree) (hw : way ≠ [] ∧ ∀ name ∈ way, IsName name)
    (he : fs.get? (root ++ way) = some (.file mode content)) :
    fs.find true p = .ok (root ++ way, .file mode content) := by
  rw [← Path.empty_div (pathOf way)] at h
  exact h.find_file ht hw he

end FileSystem

/-- Another file can be copied to where it is opened for writing. -/
theorem FileAction.run_copy_of_find {a b : Address}
    (hs : fs.find true p = .ok (a, .file mode content))
    (ht : (openTarget q).run fs = (.ok b, fs)) (hne : a ≠ b) :
    (copy p q).run fs = (.ok (), fs.put b (.file mode content)) := by
  have hget : (fs.put b (.file mode .empty)).get? a = some (.file mode content) := by
    rw [get?_put_of_ne _ _ hne]
    exact (find_eq_ok.mp hs).2
  rw [← put_put fs b (.file mode .empty)]
  simp only [copy, run_bind, run_get, run_liftExcept, hs, ht, run_modify, hget]

namespace Work
variable {s : Session} {ways : List Address}

structure Ready (fs : FileSystem) (source dir subdir : Path) (src root way : Address) : Prop where
  named : way ≠ [] ∧ ∀ name ∈ way, IsName name
  origin : ∃ mode content, fs.get? (src ++ way) = some (.file mode content)
  source : fs.GoesOn (source / pathOf way) src (Step.ofText (pathOf way).text)
  target : fs.GoesOn (dir / (subdir / pathOf way)) root (Step.ofText (subdir / pathOf way).text)
  free : ∀ b, root <+: b → b <+: subdir.under root ++ way → b ≠ subdir.under root ++ way →
    fs.get? b = none ∨ fs.isDirectoryAt b
  replaced : ∀ e, fs.get? (subdir.under root ++ way) = some e → e.isFile

/-- The directories above a target can be made, and then it can be opened for writing. -/
theorem Ready.run_target (h : Ready fs source dir subdir src root way) (ht : fs.IsTree) :
    ∃ init name made, way = init ++ [name] ∧
      (FileAction.makeParents (dir / (subdir / pathOf way))).run fs = (.ok (), made) ∧
      Made 0o755 (subdir.under root ++ init) fs made ∧ made.IsTree ∧
      (FileAction.openTarget (dir / (subdir / pathOf way))).run made =
        (.ok (subdir.under root ++ way), made) := by
  obtain ⟨hne,hn⟩ := h.named
  obtain ⟨init,name,rfl⟩ : ∃ init name, way = init ++ [name] :=
    ⟨_,_,(List.dropLast_concat_getLast hne).symm⟩
  obtain ⟨steps,hsteps,hfold⟩ := subdir.exists_steps_div hn
  have htarget := h.target
  have hend := h.replaced
  rw [hsteps] at htarget
  rw [← List.append_assoc, ← hfold] at hend
  have hfree : fs.IsFree root (steps.foldl Step.follow root) := by
    intro b hrb hb
    rw [hfold] at hb
    have hlast : subdir.under root ++ init <+: subdir.under root ++ (init ++ [name]) :=
      ⟨[name],List.append_assoc ..⟩
    refine h.free b hrb (hb.trans hlast) ?_
    rintro rfl
    have hle := hb.length_le
    simp only [List.length_append, List.length_singleton] at hle
    omega
  obtain ⟨made,hr,hmade⟩ := htarget.run_makeParents ht hfree
  have hall (b : Address) := hfree.all (b := b) ht htarget.directory htarget.prefix_foldl
  have htree := hmade.isTree ht hall
  have hopen := (htarget.of_keeps hmade.grows.toKeeps).run_openTarget htree
    (hmade.directory (hall _ (List.prefix_refl _)) (List.prefix_refl _))
    (by rw [hmade.get?_append]; exact hend)
  rw [hfold] at hmade
  rw [hfold, List.append_assoc] at hopen
  exact ⟨init,name,made,rfl,hr,hmade,htree,hopen⟩

/-- A file is copied to another place, and all that is missing above it is made. -/
theorem Ready.run_copyFile_of_ne (h : Ready s.files source dir subdir src root way)
    (ht : s.files.IsTree) (hne : src ++ way ≠ subdir.under root ++ way) :
    ∃ init name made mode content, way = init ++ [name] ∧
      s.files.get? (src ++ way) = some (.file mode content) ∧
      Made 0o755 (subdir.under root ++ init) s.files made ∧
      (copyFile source dir subdir (pathOf way)).run s = (.ok (subdir / pathOf way),
        { s with files := made.put (subdir.under root ++ way) (.file mode content) }) := by
  obtain ⟨mode,content,horigin⟩ := h.origin
  obtain ⟨init,name,made,rfl,hr,hmade,htree,hopen⟩ := h.run_target ht
  have hkept : made.get? (src ++ (init ++ [name])) = some (.file mode content) := by
    rw [hmade.get?, horigin, Option.some_or, ite_self]
  have hfind := (h.source.of_keeps hmade.grows.toKeeps).find_listed htree h.named hkept
  have hcopy := FileAction.run_copy_of_find hfind hopen hne
  refine ⟨init,name,made,mode,content,rfl,horigin,hmade,?_⟩
  rw [copyFile, run_bind, run_onFiles, run_bind, hr]
  dsimp only
  rw [hcopy, Path.ofBytes_bytes]
  rfl

theorem Ready.run_copyFile (h : Ready s.files source dir subdir src root way)
    (ht : s.files.IsTree) (ha : Diverge src (subdir.under root)) :
    ∃ fs, (copyFile source dir subdir (pathOf way)).run s =
        (.ok (subdir / pathOf way), { s with files := fs }) ∧
      Replicated src (subdir.under root) [way] s.files fs := by
  have hne : src ++ way ≠ subdir.under root ++ way := fun heq =>
    not_prefix_of_apart ha way way (heq ▸ List.prefix_refl (src ++ way))
  obtain ⟨init,name,made,mode,content,rfl,horigin,hmade,hrun⟩ := h.run_copyFile_of_ne ht hne
  exact ⟨_,hrun,hmade.replicated horigin⟩

/-- A file can still be copied behind the copy of another. -/
theorem Ready.of_replicated (h : Ready fs source dir subdir src root way)
    (hr : Replicated src (subdir.under root) [way'] fs fs') (hg : fs.Grows fs')
    (ha : Diverge src (subdir.under root)) (hd : Diverge way' way) :
    Ready fs' source dir subdir src root way where
  named := h.named
  origin := by
    rw [hr.get?_source ha]
    exact h.origin
  source := h.source.of_keeps hg.toKeeps
  target := h.target.of_keeps hg.toKeeps
  free b hrb hb hne := by
    rcases h.free b hrb hb hne with hn | hdir
    · by_cases hb' : b <+: subdir.under root ++ way'
      · have hne' : b ≠ subdir.under root ++ way' := by
          rintro rfl
          exact hd.1 ((List.prefix_append_right_inj _).mp hb)
        have habove := hr.above way' (List.mem_singleton_self _) b hb' hne'
        rw [hn, Option.none_or] at habove
        exact .inr (isDirectoryAt_iff.mpr ⟨_,habove⟩)
      · rw [hr.elsewhere b fun other ho => List.mem_singleton.mp ho ▸ hb']
        exact .inl hn
    · exact .inr (hg.isDirectoryAt hdir)
  replaced e he := by
    rw [hr.elsewhere] at he
    · exact h.replaced e he
    · intro other ho hp
      rw [List.mem_singleton.mp ho] at hp
      exact hd.2 ((List.prefix_append_right_inj _).mp hp)

theorem run_mapM_copyFile (ha : Diverge src (subdir.under root)) (ht : s.files.IsTree)
    (hd : ways.Pairwise Diverge) (hr : ∀ way ∈ ways, Ready s.files source dir subdir src root way) :
    ∃ fs, ((ways.map pathOf).mapM (copyFile source dir subdir)).run s =
        (.ok ((ways.map pathOf).map (subdir / ·)), { s with files := fs }) ∧
      Replicated src (subdir.under root) ways s.files fs ∧ fs.IsTree ∧ s.files.Grows fs := by
  induction ways generalizing s with
  | nil => exact ⟨s.files,rfl,.nil ..,ht,.refl _⟩
  | cons way ways ih =>
    rw [List.pairwise_cons] at hd
    obtain ⟨fs,hrun,hfirst⟩ := (hr way (List.mem_cons_self ..)).run_copyFile ht ha
    obtain ⟨-,htree,hgrows,-⟩ := copyFile_ok ht hrun
    obtain ⟨fs',hrest,hothers,htree',hgrows'⟩ := ih (s := { s with files := fs }) htree hd.2
      fun other ho => (hr other (List.mem_cons_of_mem way ho)).of_replicated hfirst hgrows ha
        (hd.1 other ho)
    refine ⟨fs',?_,hfirst.cons hothers ha hd.1,htree',hgrows.trans hgrows'⟩
    rw [List.map_cons, List.mapM_cons, run_bind, hrun]
    dsimp only
    rw [run_bind, hrest]
    rfl

/-! ## Copying the whole tree -/

/-- Nothing is in the way of a tree that is copied into a clone: the clone holds no links and is
apart from the tree, no file is found where a directory is needed, and no directory where a file is
to be. -/
structure Unhindered (fs : FileSystem) (source dir subdir : Path) (src root : Address) : Prop where
  tree : fs.IsTree
  named : fs.IsNamed
  leadsSource : fs.locate true source = .ok src
  sourceDirectory : fs.isDirectoryAt src
  leadsClone : fs.locate true dir = .ok root
  cloneDirectory : fs.isDirectoryAt root
  apart : Diverge src root
  noLinks : fs.HasNoLinks root
  clear : ∀ files, fs.listFiles source = .ok files → ∀ file ∈ files,
    fs.IsClear ((subdir / file).under root) ∧ ¬ fs.isDirectoryAt ((subdir / file).under root)

/-- A tree can be copied into a clone: nothing is in the way, and all paths that are read from and
written to can be given to a system. -/
structure Copyable (fs : FileSystem) (source dir subdir : Path) (src root : Address) : Prop
    extends Unhindered fs source dir subdir src root where
  fits : ∀ files, fs.listFiles source = .ok files → ∀ file ∈ files,
    (source / file).Fits ∧ (dir / (subdir / file)).Fits

/-- The files of a tree are found in a clone, and nothing else has become of what was there. -/
structure TreeCopied (source dir subdir : Path) (src root : Address) (files : List Path)
    (fs fs' : FileSystem) : Prop where
  copied : ∀ file ∈ files, ∃ a mode content,
    fs.find true (source / file) = .ok (a, .file mode content) ∧
    fs'.find true (dir / (subdir / file)) = .ok ((subdir / file).under root, .file mode content)
  others : ∀ a e, fs.get? a = some e → (∀ file ∈ files, a ≠ (subdir / file).under root) →
    fs'.get? a = some e
  made : ∀ file ∈ files, ∀ a, a <+: (subdir / file).under root → a ≠ (subdir / file).under root →
    fs.get? a = none → fs'.get? a = some (.directory 0o755)
  nothingElse : ∀ a, fs.get? a = none → (∀ file ∈ files, ¬ a <+: (subdir / file).under root) →
    fs'.get? a = none
  unchanged : ∀ a, src <+: a → fs'.get? a = fs.get? a

theorem under_div_pathOf (hw : way ≠ [] ∧ ∀ name ∈ way, IsName name) (subdir : Path)
    (root : Address) : (subdir / pathOf way).under root = subdir.under root ++ way := by
  rw [Path.under_div (descends_pathOf hw.2).relative, Path.under_pathOf hw.1 hw.2]

theorem Copyable.named_of_mem (h : Copyable fs source dir subdir src root)
    (hw : way ∈ fs.filesBelow src) : way ≠ [] ∧ ∀ name ∈ way, IsName name :=
  ⟨(exists_of_mem_filesBelow hw).1,isName_of_mem_filesBelow h.named hw⟩

theorem Copyable.ready (h : Copyable fs source dir subdir src root) (hd : subdir.Descends)
    (hw : way ∈ fs.filesBelow src) : Ready fs source dir subdir src root way := by
  have hlist := listFiles_of_directory h.leadsSource h.sourceDirectory
  have hmem : pathOf way ∈ (fs.filesBelow src).map pathOf := List.mem_map_of_mem hw
  have hnamed := h.named_of_mem hw
  have hfile := descends_pathOf hnamed.2
  have hunder := under_div_pathOf hnamed subdir root
  obtain ⟨habove,htarget⟩ := h.clear _ hlist _ hmem
  obtain ⟨hsource,hdest⟩ := h.fits _ hlist _ hmem
  obtain ⟨-,mode,content,horigin⟩ := exists_of_mem_filesBelow hw
  rw [hunder] at habove htarget
  exact {
    named := hnamed
    origin := ⟨mode,content,get?_of_mem horigin⟩
    source := goesOn_div h.leadsSource h.sourceDirectory hfile hsource
    target := goesOn_div h.leadsClone h.cloneDirectory (hd.div hfile) hdest
    free _ := habove.free h.noLinks
    replaced _ := h.noLinks.isFile
      ((hd.prefix_under root).trans (List.prefix_append _ way)) htarget }

theorem pairwise_diverge (ht : fs.IsTree) (a : Address) : (fs.filesBelow a).Pairwise Diverge :=
  (nodup_filesBelow fs a).imp_of_mem fun hw hw' hne =>
    ⟨fun hp => hne (eq_of_above ht hw hw' hp),fun hp => hne (eq_of_above ht hw' hw hp).symm⟩

theorem Copyable.treeCopied (h : Copyable fs source dir subdir src root) (hd : subdir.Descends)
    (hr : Replicated src (subdir.under root) (fs.filesBelow src) fs fs') (ht : fs'.IsTree)
    (hg : fs.Grows fs') :
    TreeCopied source dir subdir src root ((fs.filesBelow src).map pathOf) fs fs' := by
  have hunder {way : Address} (hw : way ∈ fs.filesBelow src) :=
    under_div_pathOf (h.named_of_mem hw) subdir root
  exact {
    copied := by
      intro file hf
      obtain ⟨way,hw,rfl⟩ := List.mem_map.mp hf
      have hready := h.ready hd hw
      obtain ⟨mode,content,horigin⟩ := hready.origin
      have hcopy := (hr.files way hw).trans horigin
      rw [hunder hw]
      exact ⟨src ++ way,mode,content,hready.source.find_listed h.tree hready.named horigin,
        (hready.target.of_keeps hg.toKeeps).find_file ht hready.named hcopy⟩
    others := by
      intro a e ha hne
      by_cases hall : ∃ way ∈ fs.filesBelow src, a <+: subdir.under root ++ way
      · obtain ⟨way,hw,habove⟩ := hall
        have hbelow := hunder hw ▸ hne _ (List.mem_map_of_mem hw)
        rw [hr.above way hw a habove hbelow, ha, Option.some_or]
      · rw [hr.elsewhere a fun way hw hp => hall ⟨way,hw,hp⟩, ha]
    made := by
      intro file hf a ha hne hn
      obtain ⟨way,hw,rfl⟩ := List.mem_map.mp hf
      rw [hunder hw] at ha hne
      rw [hr.above way hw a ha hne, hn, Option.none_or]
    nothingElse := by
      intro a hn hout
      rw [hr.elsewhere a fun way hw => hunder hw ▸ hout _ (List.mem_map_of_mem hw), hn]
    unchanged := by
      rintro a ⟨way,rfl⟩
      exact hr.get?_source (h.apart.below (hd.prefix_under root)) way }

theorem Copyable.run_copyTree (h : Copyable s.files source dir subdir src root)
    (hd : subdir.Descends) :
    ∃ fs, (copyTree source dir subdir).run s =
        (.ok (((s.files.filesBelow src).map pathOf).map (subdir / ·)), { s with files := fs }) ∧
      TreeCopied source dir subdir src root ((s.files.filesBelow src).map pathOf) s.files fs := by
  obtain ⟨fs,hrun,hr,ht,hg⟩ := run_mapM_copyFile (h.apart.below (hd.prefix_under root)) h.tree
    (pairwise_diverge h.tree src) fun way hw => h.ready hd hw
  refine ⟨fs,?_,h.treeCopied hd hr ht hg⟩
  rw [copyTree, run_bind, run_get]
  dsimp only
  rw [listFiles_of_directory h.leadsSource h.sourceDirectory]
  exact hrun

end Work
end GitPublish
