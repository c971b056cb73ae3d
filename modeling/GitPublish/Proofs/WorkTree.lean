import GitPublish.Proofs.Cleanup
import GitPublish.Proofs.FileSystem.Below
import GitPublish.Proofs.FileSystem.Resolve

/-!
# Whether copying stays in the work tree

Copying checks the text of its target and then follows the links of the clone. So it stays in the
work tree exactly as far as the links of the clone lead there: where every target resolves into the
work tree, nothing else is changed, also by a copy that fails midway; and a copy that succeeds has
written each file to where its target resolves.
-/
namespace GitPublish

/-- The addresses of a work tree: all in its directory, except what the repository keeps there. -/
def InWorkTree (root a : Address) : Prop :=
  root <+: a ∧ ¬ (root ++ [FileSystem.gitName]) <+: a

structure FileSystem.Holds (fs : FileSystem) (dir : Path) (root : Address) : Prop where
  absolute : dir.isAbsolute
  endsInName : dir.EndsInName
  leads : fs.locate true dir = .ok root
  directory : fs.isDirectoryAt root

/-- Where a path resolves inside a directory, it is in the work tree. -/
def FileSystem.Stays (fs : FileSystem) (root : Address) (target : Path) : Prop :=
  ∀ a, fs.Resolves root (Step.ofText target.text) a → InWorkTree root a

namespace FileSystem
variable {fs₀ fs : FileSystem} {dir target : Path} {root a : Address}

/-- What may become of files if nothing outside the work tree is changed while links are as they
were. -/
def keepingOutside (fs₀ : FileSystem) (root : Address) : Change FileSystem where
  allows fs fs' := growing.allows fs fs' ∧ (fs.IsTree → fs₀.Grows fs →
    ∀ a, ¬ InWorkTree root a → fs'.get? a = fs.get? a)
  refl fs := ⟨growing.refl fs,fun _ _ _ _ => rfl⟩
  trans := by
    rintro fs fs' fs'' ⟨hg,h⟩ ⟨kg,k⟩
    refine ⟨growing.trans hg kg,fun ht hk a ha => ?_⟩
    obtain ⟨ht',hg'⟩ := hg ht
    rw [k ht' (hk.trans hg') a ha, h ht hk a ha]

theorem keepingOutside_put {e : Entry} (hg : growing.allows fs (fs.put a e))
    (h : fs.IsTree → fs₀.Grows fs → InWorkTree root a) :
    (keepingOutside fs₀ root).allows fs (fs.put a e) := by
  refine ⟨hg,fun ht hk b hb => get?_put_of_ne fs e ?_⟩
  rintro rfl
  exact hb (h ht hk)

theorem ofText_div (hd : dir.EndsInName) (ht : target.isAbsolute = false) :
    Step.ofText (dir / target).text = Step.ofText dir.text ++ Step.ofText target.text := by
  refine Path.ofText_append ?_
  rw [hd.div ht, String.toList_append, String.toList_append]
  simp

/-- A directory at the end of a path that led to nothing before. -/
theorem Vacant.holds (h : fs₀.Vacant dir root) (hk : fs₀.Keeps fs) (hd : fs.isDirectoryAt root) :
    fs.Holds dir root where
  absolute := h.absolute
  endsInName := h.endsInName
  leads := by
    obtain ⟨mode,hmode⟩ := isDirectoryAt_iff.mp hd
    obtain ⟨hnul,hne,hlen,hw⟩ := locate_eq_ok.mp (h.leads_of_keeps hk)
    exact locate_eq_ok.mpr ⟨hnul,hne,hlen,hw.followed (by simp [hmode])⟩
  directory := hd

/-- Where there are no links below the directory, what a target stays in is told by its text. -/
theorem stays_iff_of_noLinks (hl : ∀ b link, root <+: b → fs.get? b ≠ some (.link link))
    (hd : target.Descends) :
    fs.Stays root target ↔ InWorkTree root ((Step.ofText target.text).foldl Step.follow root) := by
  have hr := resolves_of_noLinks hl hd.up
  refine ⟨fun hs => hs _ hr,fun hin a ha => ?_⟩
  rwa [ha.unique hr]

theorem Holds.leads_of_grows (h : fs₀.Holds dir root) (hg : fs₀.Grows fs) :
    fs.Leads true linkLimit [] (Step.ofText dir.text) root := by
  obtain ⟨mode,hd⟩ := isDirectoryAt_iff.mp (hg.isDirectoryAt h.directory)
  have hl := locate_of_keeps hg.toKeeps (.inr (by simp [hd])) h.leads
  obtain ⟨-,-,-,hw⟩ := locate_eq_ok.mp hl
  rwa [startOf_absolute h.absolute] at hw

/-- A target that leads somewhere resolves to there, by the links that were there at first. -/
theorem Holds.resolves_of_locate (h : fs₀.Holds dir root) (hg : fs₀.Grows fs)
    (ht : target.isAbsolute = false) (hl : fs.locate true (dir / target) = .ok a) :
    fs₀.Resolves root (Step.ofText target.text) a := by
  obtain ⟨-,-,-,hw⟩ := locate_eq_ok.mp hl
  rw [startOf_absolute (Path.isAbsolute_div h.absolute target), ofText_div h.endsInName ht] at hw
  obtain ⟨between,left,hx,hy⟩ := hw.split (ofText_ne_nil _)
  rw [← (h.leads_of_grows hg).unique hx] at hy
  exact (hy.resolves (.inl rfl)).of_grows hg

/-- What is named by a path above another lies on the way of the other. -/
theorem leads_of_above {q p : Path} {c : Address} (h : q.Above p) (hp : p.isAbsolute)
    (hl : fs.locateName q = .ok c) (hn : fs.get? c = none) :
    ∃ xs zs, Step.ofText p.text = xs ++ zs ∧ fs.Leads false linkLimit [] xs c := by
  have apart {name : Path} (hl : fs.locate false name = .ok c)
      (hr : name.text = "/" ∨ ∃ rest, p.text.toList = name.text.toList ++ '/' :: rest) :
      ∃ xs zs, Step.ofText p.text = xs ++ zs ∧ fs.Leads false linkLimit [] xs c := by
    obtain ⟨-,hne,-,hw⟩ := locate_eq_ok.mp hl
    rcases hr with hr | ⟨rest,hr⟩
    · rw [hr] at hw
      cases hw with | stay _ hw => cases hw with | stay _ hw => cases hw with
        | nil => exact absurd rfl (ne_nil_of_none hn)
    · refine ⟨Step.ofText name.text,Step.ofText (String.ofList rest),?_,?_⟩
      · exact Path.ofText_append (by rw [hr, String.toList_ofList])
      · rwa [startOf_absolute] at hw
        obtain ⟨body,hbody⟩ := Path.isAbsolute_iff.mp hp
        refine Path.isAbsolute_iff.mpr ?_
        rcases hc : name.text.toList with - | ⟨d, cs⟩
        · exact absurd (String.toList_eq_nil_iff.mp hc) hne
        · rw [hc, hbody] at hr
          exact ⟨cs,by rw [(List.cons.inj hr).1]⟩
  obtain ⟨-,-,hl⟩ := locateName_eq_ok.mp hl
  split at hl
  · exact apart hl h.2
  next hne => exact apart hl (.inr (h.unslashed hne))

/-- The way to something missing goes beyond the directory, which is not missing. -/
theorem Holds.beyond_of_none (h : fs₀.Holds dir root) (hg : fs₀.Grows fs) {ts xs zs : List Step}
    {c : Address} (hx : Step.ofText dir.text ++ ts = xs ++ zs)
    (hw : fs.Leads false linkLimit [] xs c) (hn : fs.get? c = none) :
    ∃ cs, ts = cs ++ zs ∧ fs.Resolves root cs c := by
  have hdir := h.leads_of_grows hg
  have hroot : root ≠ c := by
    rintro rfl
    exact ne_none_of_isDirectoryAt (hg.isDirectoryAt h.directory) hn
  have hfollowed := hw.followed (by simp [hn])
  -- the way to what is missing goes on from the directory, or comes to an end before it
  rcases List.append_eq_append_iff.mp hx with ⟨cs,rfl,hts⟩ | ⟨cs,hus,-⟩
  · refine ⟨cs,hts,?_⟩
    by_cases hcs : cs = []
    · rw [hcs, List.append_nil] at hfollowed
      exact absurd (hdir.unique hfollowed) hroot
    · obtain ⟨between,left,hus,hrest⟩ := hw.split hcs
      rw [← hdir.unique hus] at hrest
      exact hrest.resolves (.inr hn)
  · rw [hus] at hdir
    by_cases hcs : cs = []
    · rw [hcs, List.append_nil] at hdir
      exact absurd (hdir.unique hfollowed) hroot
    · obtain ⟨between,left,hxs,hrest⟩ := hdir.split hcs
      rw [hxs.unique hfollowed] at hrest
      exact absurd (hrest.eq_of_none hn).1 hcs

/-- What is missing on the way to a target lies in the work tree if the target does. -/
theorem Holds.inWorkTree_of_none (h : fs₀.Holds dir root) (hg : fs₀.Grows fs) (ht : fs.IsTree)
    (hd : target.Descends) (hs : fs₀.Stays root target) {xs zs : List Step} {c : Address}
    (hx : Step.ofText (dir / target).text = xs ++ zs) (hw : fs.Leads false linkLimit [] xs c)
    (hn : fs.get? c = none) : InWorkTree root c := by
  rw [ofText_div h.endsInName hd.relative] at hx
  obtain ⟨cs,hts,hcs⟩ := h.beyond_of_none hg hx hw hn
  have hup : .up ∉ zs := fun hmem => hd.up (hts ▸ List.mem_append_right cs hmem)
  -- what is missing has no links below it, so that the rest of the way stays there
  have hlinks (b : Address) (link : String) (hb : c <+: b) : fs.get? b ≠ some (.link link) := by
    simp [ht.below hn hb]
  have hall := (hcs.trans (resolves_of_noLinks hlinks hup)).of_grows hg
  rw [← hts] at hall
  obtain ⟨hin,hgit⟩ := hs _ hall
  have hc := prefix_foldl_follow c hup
  refine ⟨?_,fun hgc => hgit (hgc.trans hc)⟩
  rcases List.prefix_or_prefix_of_prefix hin hc with hrc | hcr
  · exact hrc
  · have hroot := ne_none_of_isDirectoryAt (hg.isDirectoryAt h.directory)
    exact absurd hn (ht.above hroot hcr)

theorem Holds.allowsFile (h : fs₀.Holds dir root) (hd : target.Descends)
    (hs : fs₀.Stays root target) :
    FileAction.AllowsFile (keepingOutside fs₀ root) (dir / target) :=
  fun _ _ hl hdir mode content => keepingOutside_put (growing_putFile hl hdir mode content)
    fun _ hg => hs _ (h.resolves_of_locate hg hd.relative hl)

theorem Holds.allowsDirectory (h : fs₀.Holds dir root) (hd : target.Descends)
    (hs : fs₀.Stays root target) {q : Path} (hq : q.Above (dir / target)) (mode : Nat) :
    FileAction.AllowsDirectory (keepingOutside fs₀ root) mode q := by
  intro fs c hl hn
  have hlocate := (locateName_eq_ok.mp hl).2.2
  refine keepingOutside_put (growing_putDirectory hlocate hn _) fun ht hg => ?_
  obtain ⟨xs,zs,hx,hw⟩ :=
    leads_of_above hq (Path.isAbsolute_div h.absolute target) hl hn
  exact h.inWorkTree_of_none hg ht hd hs hx hw hn

end FileSystem

namespace Work
variable {source dir subdir file target : Path} {root : Address} {s t : Session}

/-- What is cloned into when something is published is such a directory, if the commands that clone
stay in it and leave it there. -/
theorem holds_of_cloned {stem : String} {fresh : List String} {files : FileSystem}
    {options : CloneOptions} (ht : s.files.IsTree)
    (he : ∀ ending ∈ s.fresh, FileAction.IsEnding ending)
    (hm : (FileAction.makeTemporary s.temporary stem s.fresh).run s.files =
      (.ok (dir, fresh), files))
    (hc : (cloneInto dir options).run { s with files := files, fresh := fresh } = (.ok (), t)) :
    ∃ a, s.files.Vacant dir a ∧ (s.runner.Confined a → s.runner.Spares a →
      t.files.IsTree ∧ t.files.Holds dir a) := by
  obtain ⟨a,hv,hfiles,htree,hclone⟩ := vacant_of_made ht he hm
  refine ⟨a,hv,fun hconfined hspares => ?_⟩
  have hclone := hclone options
  rw [hc] at hclone
  have hk : s.files.Keeps files := hfiles ▸ hv.keeps_put (.refl s.files) _
  have hmade : files.isDirectoryAt a := hfiles ▸ FileSystem.isDirectoryAt_put ..
  obtain ⟨ht',hk',hd⟩ := hclone.2 hconfined htree hk
  exact ⟨ht',hv.holds hk' (hd hspares hmade)⟩

theorem descends_of_checkedSubdir {subdir? : Option Path} (h : checkedSubdir subdir? = .ok subdir) :
    subdir.Descends := by
  unfold checkedSubdir at h
  split at h
  · rw [← Except.ok.inj h]
    exact FileSystem.descends_empty
  · split at h
    next hp =>
      rw [← Except.ok.inj h]
      exact Path.descends_of_staysBelow hp
    next => cases h

theorem copyFile_keepsOutside {fs₀ : FileSystem} (h : fs₀.Holds dir root)
    (hd : (subdir / file).Descends) (hs : fs₀.Stays root (subdir / file)) :
    Within (.ofFiles (FileSystem.keepingOutside fs₀ root)) (copyFile source dir subdir file) := by
  have hparents : Within (FileSystem.keepingOutside fs₀ root)
      (FileAction.makeParents (dir / (subdir / file))) := by
    refine FileAction.makeParents_within fun parent hp q hq => ?_
    have habove := Path.above_of_parent (Path.isAbsolute_div h.absolute (subdir / file)) hp
      (List.dropLast_subset _ hq)
    exact h.allowsDirectory hd hs habove 0o777
  have hcopy := FileAction.copy_within (source / file) (h.allowsFile hd hs)
  exact (onFiles_within (hparents.bind fun _ => hcopy) _).bind fun _ => within_pure _

theorem copyFile_ok (ht : s.files.IsTree)
    (h : (copyFile source dir subdir file).run s = (.ok target, t)) :
    target = subdir / file ∧ t.files.IsTree ∧ s.files.Grows t.files ∧
      ∃ a, t.files.LeadsToFile (dir / target) a := by
  obtain ⟨⟨⟩,u,hu,h⟩ := ok_of_run_bind h
  rw [Path.ofBytes_bytes] at h
  obtain ⟨htarget,rfl⟩ := Prod.mk.inj h
  obtain rfl := Except.ok.inj htarget
  obtain ⟨⟨⟩,files,hparents,hcopy⟩ := ok_of_run_bind (ok_of_run_onFiles hu)
  have hgrow := FileAction.makeParents_within (R := FileSystem.growing) (p := dir / (subdir / file))
    (fun parent _ q _ => FileAction.growing_allowsDirectory 0o777 q) s.files
  rw [hparents] at hgrow
  obtain ⟨ht',hg⟩ := hgrow ht
  have hgrow' := FileAction.copy_within (source / file)
    (FileAction.growing_allowsFile (dir / (subdir / file))) files
  rw [hcopy] at hgrow'
  obtain ⟨ht'',hg'⟩ := hgrow' ht'
  exact ⟨rfl,ht'',hg.trans hg',FileAction.copy_ok ht' hcopy⟩

/-- Copying a tree changes nothing outside the work tree if all targets stay in it, however it
ends. -/
theorem copyTree_keepsOutside (h : s.files.Holds dir root) (ht : s.files.IsTree)
    (hn : s.files.IsNamed) (hd : subdir.Descends)
    (hs : ∀ files, s.files.listFiles source = .ok files → ∀ file ∈ files,
      s.files.Stays root (subdir / file)) {a : Address} (ha : ¬ InWorkTree root a) :
    ((copyTree source dir subdir).run s).2.files.get? a = s.files.get? a := by
  rw [copyTree, run_bind, run_get]
  dsimp only
  split
  · rfl
  next files hl =>
    have hfile (file : Path) (hf : file ∈ files) :
        Within (.ofFiles (FileSystem.keepingOutside s.files root))
          (copyFile source dir subdir file) :=
      copyFile_keepsOutside h (hd.div (FileSystem.descends_of_mem_listFiles hn hl hf))
        (hs files hl file hf)
    exact (Within.mapM hfile s).2 ht (.refl s.files) a ha

/-- What is staged is what is listed before the first file is copied. -/
theorem copyTree_listed {staged : List Path}
    (h : (copyTree source dir subdir).run s = (.ok staged, t)) :
    ∃ files, s.files.listFiles source = .ok files ∧
      (files.mapM (copyFile source dir subdir)).run s = (.ok staged, t) ∧
      staged = files.map (subdir / ·) := by
  rw [copyTree, run_bind, run_get] at h
  dsimp only at h
  split at h
  · cases (Prod.mk.inj h).1
  next files hl =>
    refine ⟨files,hl,h,eq_map_of_run_mapM (fun file s target t hr => ?_) h⟩
    obtain ⟨⟨⟩,u,-,hr⟩ := ok_of_run_bind hr
    rw [Path.ofBytes_bytes] at hr
    exact (Except.ok.inj (Prod.mk.inj hr).1).symm

theorem copyTree_ok (ht : s.files.IsTree) {staged : List Path}
    (h : (copyTree source dir subdir).run s = (.ok staged, t)) :
    ∃ files, s.files.listFiles source = .ok files ∧ staged = files.map (subdir / ·) ∧
      s.files.Grows t.files ∧ ∀ target ∈ staged, ∃ a, t.files.LeadsToFile (dir / target) a := by
  have hgrow := copyTree_within (R := .ofFiles FileSystem.growing) (fun _ _ h => h)
    source dir subdir s
  rw [h] at hgrow
  obtain ⟨files,hl,hrun,hstaged⟩ := copyTree_listed h
  have hfiles := forall_of_run_mapM (I := fun t => t.files.IsTree)
    (P := fun target t => ∃ a, t.files.LeadsToFile (dir / target) a)
    (fun file _ s target t hs hr => by
      obtain ⟨-,ht',hg,hlead⟩ := copyFile_ok hs hr
      exact ⟨ht',hlead,fun _ hlead => hlead.imp fun a ha => ha.of_grows hg⟩) ht hrun
  exact ⟨files,hl,hstaged,(hgrow ht).2,hfiles.1⟩

/-- Copying succeeds only if all paths that are written to can be given to a system. -/
theorem fits_of_run_copyTree (ht : s.files.IsTree) {staged : List Path}
    (h : (copyTree source dir subdir).run s = (.ok staged, t)) :
    ∃ files, s.files.listFiles source = .ok files ∧
      ∀ file ∈ files, (dir / (subdir / file)).Fits := by
  obtain ⟨files,hl,rfl,-,hleads⟩ := copyTree_ok ht h
  refine ⟨files,hl,fun file hf => ?_⟩
  obtain ⟨a,ha,-⟩ := hleads _ (List.mem_map_of_mem hf)
  exact FileSystem.fits_of_locate ha

structure Copied (root : Address) (source dir subdir : Path) (s t : Session)
    (result : Except RepoError (List Path)) : Prop where
  outside : (∀ files, s.files.listFiles source = .ok files → ∀ file ∈ files,
      s.files.Stays root (subdir / file)) →
    ∀ a, ¬ InWorkTree root a → t.files.get? a = s.files.get? a
  -- If copying succeeds, a file has been written for each that was listed. It lies in the work tree
  -- only if the target stays there: the links of the clone are followed.
  written : ∀ staged, result = .ok staged → ∃ files, s.files.listFiles source = .ok files ∧
    staged = files.map (subdir / ·) ∧ ∀ file ∈ files, ∃ a,
      t.files.LeadsToFile (dir / (subdir / file)) a ∧
        (InWorkTree root a ↔ s.files.Stays root (subdir / file))

/-- Copying stays in the work tree exactly as far as the targets do that its subdirectory and the
links of the clone give. -/
theorem copyTree_copied (source : Path) {subdir? : Option Path} (s : Session) (ht : s.files.IsTree)
    (hn : s.files.IsNamed) (h : s.files.Holds dir root)
    (hc : checkedSubdir subdir? = .ok subdir) :
    Copied root source dir subdir s ((copyTree source dir subdir).run s).2
      ((copyTree source dir subdir).run s).1 := by
  have hd := descends_of_checkedSubdir hc
  refine ⟨fun hs a ha => copyTree_keepsOutside h ht hn hd hs ha,fun staged hr => ?_⟩
  obtain ⟨files,hl,hstaged,hg,hlead⟩ := copyTree_ok ht (Prod.ext hr rfl)
  refine ⟨files,hl,hstaged,fun file hf => ?_⟩
  obtain ⟨a,ha⟩ := hlead (subdir / file) (hstaged ▸ List.mem_map_of_mem hf)
  have hfile := hd.div (FileSystem.descends_of_mem_listFiles hn hl hf)
  have hresolves := h.resolves_of_locate hg hfile.relative ha.1
  refine ⟨a,ha,fun hin b hb => ?_,fun hs => hs a hresolves⟩
  rwa [hb.unique hresolves]

/-- A clone at `/site` in which `out` is a link to `/srv`, and one file to copy there. -/
def linkedSession : Session where
  runner := ⟨fun _ _ fs => (.succeeded, fs)⟩
  overrides := []
  temporary := ⟨"/"⟩
  fresh := []
  files := ⟨[(["site"], .directory 0o755), (["site", "out"], .link "/srv"),
    (["srv"], .directory 0o755), (["src"], .directory 0o755),
    (["src", "page"], .file 0o644 .empty)],[],by decide⟩
  calls := []
  workDir := none

namespace linkedSession
open FileSystem

theorem leads_out {rest : List Step} {a : Address}
    (h : linkedSession.files.Leads true 39 ["srv"] rest a) :
    linkedSession.files.Leads true linkLimit []
      (.stay :: .enter "site" :: .enter "out" :: rest) a := by
  have hlink : linkedSession.files.get? ["site", "out"] = some (.link "/srv") := by decide
  have hsteps : Step.ofText "/srv" = [.stay, .enter "srv"] := by decide
  refine .stay (by decide) (.into (by decide) (by decide) (by decide) ?_)
  refine .link (by decide) (by decide) hlink (.inr rfl) ?_
  rw [hsteps]
  exact .stay (by decide) (.into (by decide) (by decide) (by decide) h)

theorem locate_out : linkedSession.files.locate true ⟨"/site/out"⟩ = .ok ["srv"] := by
  have hs : Step.ofText "/site/out" = [.stay, .enter "site", .enter "out"] := by decide
  exact locate_eq_ok.mpr ⟨by decide,by decide,by decide,hs ▸ leads_out .nil⟩

theorem locate_target :
    linkedSession.files.locate true ⟨"/site/out/page"⟩ = .ok ["srv", "page"] := by
  have hs : Step.ofText "/site/out/page" = [.stay, .enter "site", .enter "out", .enter "page"] := by
    decide
  have hnone : linkedSession.files.get? ["srv", "page"] = none := by decide
  refine locate_eq_ok.mpr ⟨by decide,by decide,by decide,hs ▸ leads_out ?_⟩
  exact .enter (by decide) (by decide) (fun _ hl => nomatch hnone.symm.trans hl) .nil

theorem isTree : linkedSession.files.IsTree := by decide

theorem locate_source : linkedSession.files.locate true ⟨"/src/page"⟩ = .ok ["src", "page"] := by
  have hs : Step.ofText "/src/page" = [.stay, .enter "src"] ++ [.enter "page"] := by decide
  have hfile : linkedSession.files.get? ["src", "page"] = some (.file 0o644 .empty) := by decide
  exact locate_name isTree (by decide) (by decide) (by decide) hs (by decide)
    (fun _ hl => by cases hfile.symm.trans hl) true

theorem locate_site : linkedSession.files.locate true ⟨"/site"⟩ = .ok ["site"] :=
  locate_directory isTree (by decide) (by decide) (by decide) (by decide)

theorem listFiles : linkedSession.files.listFiles ⟨"/src"⟩ = .ok [⟨"page"⟩] := by
  have hlocate : linkedSession.files.locate true ⟨"/src"⟩ = .ok ["src"] :=
    locate_directory isTree (by decide) (by decide) (by decide) (by decide)
  have hbelow : linkedSession.files.unsortedFilesBelow ["src"] = [["page"]] := by decide
  have hpath : pathOf ["page"] = ⟨"page"⟩ := by decide
  rw [listFiles_of_directory hlocate (by decide), filesBelow, hbelow, List.mergeSort_singleton,
    List.map_singleton, hpath]

theorem holds : linkedSession.files.Holds ⟨"/site"⟩ ["site"] where
  absolute := by decide
  endsInName := ⟨"/sit".toList,'e',by decide,by decide,by decide⟩
  leads := locate_site
  directory := by decide

theorem isNamed : linkedSession.files.IsNamed := by
  unfold IsNamed IsName
  decide

theorem run_makeParents : (FileAction.makeParents ⟨"/site/out/page"⟩).run linkedSession.files =
    (.ok (), linkedSession.files) := by
  have hp : (⟨"/site/out/page"⟩ : Path).parent? = some ⟨"/site/out"⟩ := by decide
  have hpresent : linkedSession.files.isPresent ⟨"/site/out"⟩ = true := by
    rw [isPresent, find?, find, locate_out]
    rfl
  simp only [FileAction.makeParents, hp, run_bind, run_get, hpresent]
  rfl

theorem run_copy : ∃ e, (FileAction.copy ⟨"/src/page"⟩ ⟨"/site/out/page"⟩).run linkedSession.files =
    (.ok (), linkedSession.files.put ["srv", "page"] e) := by
  have hfind : linkedSession.files.find true ⟨"/src/page"⟩ =
      .ok (["src", "page"], .file 0o644 .empty) := by
    rw [find, locate_source]
    rfl
  have hopen : (FileAction.openTarget ⟨"/site/out/page"⟩).run linkedSession.files =
      (.ok ["srv", "page"], linkedSession.files) := by
    rw [FileAction.openTarget, run_bind, run_get]
    dsimp only
    rw [if_neg (by decide), run_bind, run_liftExcept, locate_target]
    rfl
  refine ⟨.file 0o644 .empty,?_⟩
  rw [← put_put _ _ (.file 0o644 .empty)]
  simp only [FileAction.copy, run_bind, run_get, run_liftExcept, hfind, hopen]
  rfl

end linkedSession

theorem copyTree_copied_linked : linkedSession.files.IsTree ∧ linkedSession.files.IsNamed ∧
    linkedSession.files.Holds ⟨"/site"⟩ ["site"] ∧ checkedSubdir (some ⟨"out"⟩) = .ok ⟨"out"⟩ ∧
    Copied ["site"] ⟨"/src"⟩ ⟨"/site"⟩ ⟨"out"⟩ linkedSession
      ((copyTree ⟨"/src"⟩ ⟨"/site"⟩ ⟨"out"⟩).run linkedSession).2
      ((copyTree ⟨"/src"⟩ ⟨"/site"⟩ ⟨"out"⟩).run linkedSession).1 := by
  have ht : linkedSession.files.IsTree := by decide
  have hc : checkedSubdir (some ⟨"out"⟩) = .ok ⟨"out"⟩ := by rfl
  exact ⟨ht,linkedSession.isNamed,linkedSession.holds,hc,
    copyTree_copied _ linkedSession ht linkedSession.isNamed linkedSession.holds hc⟩

/-- The text of a subdirectory may be accepted although a link of the clone leads out from there. -/
theorem copyTree_leaves_workTree : checkedSubdir (some ⟨"out"⟩) = .ok ⟨"out"⟩ ∧
    linkedSession.files.IsTree ∧ linkedSession.files.Holds ⟨"/site"⟩ ["site"] ∧
    ∃ a, ¬ InWorkTree ["site"] a ∧
      ((copyTree ⟨"/src"⟩ ⟨"/site"⟩ ⟨"out"⟩).run linkedSession).2.files.get? a ≠
        linkedSession.files.get? a := by
  refine ⟨rfl,by decide,linkedSession.holds,["srv", "page"],fun h => absurd h.1 (by decide),?_⟩
  have hsource : (⟨"/src"⟩ / ⟨"page"⟩ : Path) = ⟨"/src/page"⟩ := by decide
  have htarget : (⟨"/site"⟩ / (⟨"out"⟩ / ⟨"page"⟩) : Path) = ⟨"/site/out/page"⟩ := by decide
  obtain ⟨e,hcopy⟩ := linkedSession.run_copy
  rw [copyTree, run_bind, run_get]
  simp only [linkedSession.listFiles, List.mapM_cons, List.mapM_nil, run_bind, copyFile,
    run_onFiles, hsource, htarget, linkedSession.run_makeParents, hcopy]
  change (linkedSession.files.put ["srv", "page"] e).get? ["srv", "page"] ≠ none
  rw [FileSystem.get?_put_self]
  simp

end Work
end GitPublish
