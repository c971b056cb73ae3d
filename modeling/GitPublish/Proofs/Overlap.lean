import GitPublish.Proofs.FileSystem.Walking
import GitPublish.Proofs.Publication

/-!
# A clone inside the tree that is published

The files of the source are listed when the clone is there already. If the clone lies inside the
source, its own files are listed too, apart from those of the repository itself, and so they are
copied into the clone and staged. All else is staged as it was listed before.
-/
namespace GitPublish

namespace FileSystem
variable {fs fs' : FileSystem} {a src down rest way : Address}

theorem isListed_append (hr : rest ≠ []) : fs.IsListed src (down ++ rest) ↔
    fs.isReached src down ∧ gitName ∉ down ∧ fs.IsListed (src ++ down) rest := by
  induction down generalizing src with
  | nil => simp [isReached]
  | cons name down ih =>
    have hne : down ++ rest ≠ [] := by simp [hr]
    rw [List.cons_append, isListed_cons, ih, isReached, List.append_cons src name down,
      Bool.and_eq_true, List.mem_cons, not_or]
    constructor
    · rintro ⟨ha,hname,⟨hnil,-⟩ | ⟨hreached,hplain,hlisted⟩⟩
      · exact absurd hnil hne
      · exact ⟨⟨ha,hreached⟩,⟨Ne.symm hname,hplain⟩,hlisted⟩
    · rintro ⟨⟨ha,hreached⟩,⟨hname,hplain⟩,hlisted⟩
      exact ⟨ha,Ne.symm hname,.inr ⟨hreached,hplain,hlisted⟩⟩

/-- Everything that is found lies behind directories. -/
theorem IsTree.isReached (ht : fs.IsTree) (h : fs.get? (src ++ way) ≠ none) :
    fs.isReached src way := by
  apply isReached_iff.mpr
  rintro front name rest rfl
  apply ht.parent _ name
  apply ht.above h
  exact ⟨rest,by simp⟩

/-- A directory is found where nothing was, with whatever lies below it, and nothing else is
different. -/
structure Grafted (fs fs' : FileSystem) (a : Address) : Prop where
  tree : fs'.IsTree
  outside : ∀ b, ¬ a <+: b → fs'.get? b = fs.get? b
  vacant : ∀ b, a <+: b → fs.get? b = none
  directory : fs'.isDirectoryAt a

namespace Grafted
variable (h : Grafted fs fs' a)
include h

theorem isListed_iff (hout : ¬ a <+: src ++ way) :
    fs'.IsListed src way ↔ fs.IsListed src way := by
  have hget : fs'.get? (src ++ way) = fs.get? (src ++ way) := h.outside _ hout
  have hdir : ∀ front name rest, way = front ++ name :: rest →
      fs'.isDirectoryAt (src ++ front) = fs.isDirectoryAt (src ++ front) := by
    rintro front name rest rfl
    have hfront : ¬ a <+: src ++ front := fun hp =>
      hout (hp.trans ⟨name :: rest,List.append_assoc ..⟩)
    rw [isDirectoryAt, isDirectoryAt, h.outside _ hfront]
  constructor
  · rintro ⟨hne,hfile,hthrough,hplain⟩
    refine ⟨hne,hget ▸ hfile,fun front name rest hw => ?_,hplain⟩
    rw [← hdir front name rest hw]
    exact hthrough front name rest hw
  · rintro ⟨hne,hfile,hthrough,hplain⟩
    refine ⟨hne,hget ▸ hfile,fun front name rest hw => ?_,hplain⟩
    rw [hdir front name rest hw]
    exact hthrough front name rest hw

/-- Nothing was listed there. -/
theorem not_isListed (hin : a <+: src ++ way) : ¬ fs.IsListed src way := by
  intro hl
  obtain ⟨mode,content,hfile⟩ := hl.file
  cases hfile.symm.trans (h.vacant _ hin)

/-- What is listed below the new directory is listed from above by the way down to it. -/
theorem isListed_down_iff (ha : a = src ++ down) :
    fs'.IsListed src (down ++ rest) ↔ gitName ∉ down ∧ fs'.IsListed a rest := by
  subst ha
  have hfound := ne_none_of_isDirectoryAt h.directory
  cases rest with
  | nil =>
    refine iff_of_false (fun hl => ?_) fun hl => hl.2.ne_nil rfl
    obtain ⟨mode,content,hfile⟩ := hl.file
    obtain ⟨mode',hdir⟩ := isDirectoryAt_iff.mp h.directory
    rw [List.append_nil] at hfile
    cases hfile.symm.trans hdir
  | cons name rest =>
    rw [isListed_append (by simp)]
    exact and_iff_right (h.tree.isReached hfound)

theorem mem_filesBelow_iff (hsrc : fs.get? src ≠ none) : way ∈ fs'.filesBelow src ↔
    way ∈ fs.filesBelow src ∨ ∃ down rest, a = src ++ down ∧ gitName ∉ down ∧ way = down ++ rest ∧
      rest ∈ fs'.filesBelow a := by
  simp only [mem_filesBelow]
  constructor
  · intro hl
    by_cases hin : a <+: src ++ way
    · -- the source is not in the new directory, so the new directory is in the source
      have hsrc' : ¬ a <+: src := fun hp => hsrc (h.vacant src hp)
      rcases List.prefix_or_prefix_of_prefix hin (List.prefix_append src way) with hp | ⟨down,rfl⟩
      · exact absurd hp hsrc'
      obtain ⟨rest,rfl⟩ := (List.prefix_append_right_inj src).mp hin
      obtain ⟨hplain,hrest⟩ := (h.isListed_down_iff rfl).mp hl
      exact .inr ⟨down,rest,rfl,hplain,rfl,hrest⟩
    · exact .inl ((h.isListed_iff hin).mp hl)
  · rintro (hl | ⟨down,rest,ha,hplain,rfl,hrest⟩)
    · exact (h.isListed_iff fun hin => h.not_isListed hin hl).mpr hl
    · exact (h.isListed_down_iff ha).mpr ⟨hplain,hrest⟩

/-- The same files are listed if and only if nothing is listed of the new directory. -/
theorem filesBelow_eq_iff (hsrc : fs.get? src ≠ none) : fs'.filesBelow src = fs.filesBelow src ↔
    ∀ down, a = src ++ down → gitName ∉ down → fs'.filesBelow a = [] := by
  constructor
  · rintro heq down rfl hplain
    apply List.eq_nil_iff_forall_not_mem.mpr
    intro rest hrest
    have hnew := (h.mem_filesBelow_iff hsrc).mpr (.inr ⟨down,rest,rfl,hplain,rfl,hrest⟩)
    rw [heq, mem_filesBelow] at hnew
    exact h.not_isListed ⟨rest,List.append_assoc ..⟩ hnew
  · intro hnone
    apply filesBelow_congr
    intro way
    rw [← mem_filesBelow, ← mem_filesBelow, h.mem_filesBelow_iff hsrc, or_iff_left]
    rintro ⟨down,rest,ha,hplain,-,hrest⟩
    rw [hnone down ha hplain] at hrest
    cases hrest

end Grafted
end FileSystem

open FileSystem

/-! ## What is asked to be staged -/

theorem Stage.eq_add_of_args {g : Stage} (h : g.args.head? = some "add") :
    ∃ dir files, g = .add dir files := by
  cases g with
  | add dir files => exact ⟨dir,files,rfl⟩
  | clone | checkout | diff | config | commit | push =>
    exact absurd (Option.some.inj h) (by decide)

/-- A call that stages is that of a stage. -/
theorem Session.Makes.exists_add {s t : Session} {made : List Exchange} (h : s.Makes made t)
    {call : Call} (hc : call ∈ t.calls.drop s.calls.length) (ha : call.args.head? = some "add") :
    ∃ dir files, .add dir files ∈ made.map Prod.fst ∧ call.args = Git.add files := by
  rw [h.calls, List.drop_left, List.mem_map] at hc
  obtain ⟨exchange,hm,rfl⟩ := hc
  obtain ⟨dir,files,hadd⟩ := Stage.eq_add_of_args ha
  refine ⟨dir,files,List.mem_map.mpr ⟨exchange,hm,hadd⟩,?_⟩
  change exchange.1.args = _
  rw [hadd]
  rfl

theorem add_not_mem_cloneStages {options : CloneOptions} {dir dir' : Path} {create : Bool}
    {files : List Path} : .add dir' files ∉ cloneStages options dir create := by
  unfold cloneStages
  cases options.branch <;> simp

theorem eq_of_add_mem_publishStages {request : PublishRequest} {dir dir' : Path}
    {files files' : List Path} (h : .add dir' files' ∈ request.publishStages dir files) :
    files' = files := by
  unfold PublishRequest.publishStages at h
  simp only [List.cons_append, List.nil_append, List.mem_cons, List.mem_append, List.not_mem_nil,
    or_false, reduceCtorEq, false_or, Stage.add.injEq] at h
  rcases h with ⟨-,hfiles⟩ | hrecord
  · exact hfiles
  · rcases cases_of_mem_recordStages hrecord with h | h | h <;> cases h

structure Overlap (fs fs' : FileSystem) (src a : Address) : Prop where
  mem_iff : ∀ way, way ∈ fs'.filesBelow src ↔ way ∈ fs.filesBelow src ∨
    ∃ down rest, a = src ++ down ∧ gitName ∉ down ∧ way = down ++ rest ∧ rest ∈ fs'.filesBelow a
  same_iff : fs'.filesBelow src = fs.filesBelow src ↔
    ∀ down, a = src ++ down → gitName ∉ down → fs'.filesBelow a = []

/-- What a session leaves as it is: everything outside `a`, if its commands stay below `a`. -/
def enclosing (a : Address) : Change Session where
  allows s t := t.runner = s.runner ∧
    (s.runner.Confined a → ∀ b, ¬ a <+: b → t.files.get? b = s.files.get? b)
  refl _ := ⟨rfl,fun _ _ _ => rfl⟩
  trans := by
    rintro s t u ⟨hr,h⟩ ⟨kr,k⟩
    exact ⟨kr.trans hr,fun hc b hb => (k (hr ▸ hc) b hb).trans (h hc b hb)⟩

/-- A repository that is cloned is a tree of its own where nothing was. -/
theorem Cloned.grafted {request : PublishRequest} {s t : Session} {dir subdir : Path}
    (h : Cloned request s dir subdir t) (ht : s.files.IsTree)
    (he : ∀ ending ∈ s.fresh, FileAction.IsEnding ending) :
    ∃ a, s.files.Vacant dir a ∧ (s.runner.Confined a → s.runner.Spares a →
      s.files.Keeps t.files ∧ Grafted s.files t.files a) := by
  obtain ⟨fresh,files,hmade,hclone⟩ := h.cloned
  obtain ⟨a,hv,rfl,htree,hshelter⟩ := vacant_of_made ht he hmade
  refine ⟨a,hv,fun hc hs => ?_⟩
  let start : Session :=
    { s with files := s.files.put a (.directory (FileAction.masked 0o777)), fresh := fresh }
  have hput : start.files.isDirectoryAt a := isDirectoryAt_put ..
  have hshelter := hshelter request.cloneOptions
  have henclosed := Work.cloneInto_within (R := enclosing a)
    (fun s dir args => ⟨rfl,fun hc b hb => hc.outside _ _ _ b hb⟩)
    (fun _ _ => ⟨rfl,fun _ _ _ => rfl⟩) dir request.cloneOptions start
  rw [hclone] at hshelter henclosed
  obtain ⟨htree',hkeeps,hspared⟩ := hshelter.2 hc htree (hv.keeps_put (.refl s.files) _)
  refine ⟨hkeeps,htree',fun b hb => ?_,fun b hb => ht.below hv.free hb,hspared hs hput⟩
  have hne : b ≠ a := fun heq => hb (heq ▸ List.prefix_refl a)
  rw [henclosed.2 hc b hb, get?_put_of_ne _ _ hne]

namespace Work
variable {request : PublishRequest} {s : Session} {fs : FileSystem} {src a b : Address}
  {call : Call}

/-- From the clone on, the files that are asked to be staged are those that are listed there. -/
theorem publishClone_makes (request : PublishRequest) {dir : Path} (subdir : Path)
    (hw : s.workDir = some dir) :
    ∃ made, s.Makes made ((publishClone request dir subdir).run s).2 ∧
      ∀ dir' staged, .add dir' staged ∈ made.map Prod.fst → ∃ files,
        s.files.listFiles request.source = .ok files ∧ staged = files.map (subdir / ·) := by
  obtain ⟨fs,hfs⟩ := copyTree_within Change.files_set request.source dir subdir s
  rcases hc : (copyTree request.source dir subdir).run s with ⟨e | staged, t⟩ <;>
    obtain rfl : t = { s with files := fs } := by rw [← hfs, hc]
  · refine ⟨[],?_,nofun⟩
    rw [publishClone_eq, run_bind, hc]
    exact .nil rfl rfl rfl
  · obtain ⟨files,hl,-,hstaged⟩ := copyTree_listed hc
    obtain ⟨reply,made,hm,hscript⟩ := (publishClone_staged hw hc).staged
    refine ⟨_,hm,fun dir' staged' hadd => ⟨files,hl,?_⟩⟩
    rw [List.map_cons] at hadd
    rw [eq_of_add_mem_publishStages (hscript.subset hadd), hstaged]

/-- Whatever publishing asks to stage is listed once there is a clone. -/
theorem publish_staging (h : call ∈ ((publish request).run s).2.calls.drop s.calls.length)
    (ha : call.args.head? = some "add") :
    ∃ dir subdir t files, Cloned request s dir subdir t ∧
      t.files.listFiles request.source = .ok files ∧
      call.args = Git.add (files.map (subdir / ·)) := by
  have hp := publish_cases request s
  generalize ((publish request).run s).1 = result at hp
  generalize ((publish request).run s).2 = t at hp h
  cases hp with
  | refused | outside | homeless => simp at h
  | @uncloned subdir dir fresh files e t _ _ _ hc =>
    let start : Session := { s with files := files, fresh := fresh }
    obtain ⟨create,-,hf⟩ := cloneInto_follows dir request.cloneOptions start
    obtain ⟨made,hm,hstages⟩ := hf.makes
    rw [hc] at hm
    have hall := hm.files (cleanup_allows request.keep (discard_within_files e) t)
    obtain ⟨dir',files',hadd,-⟩ := hall.exists_add h ha
    exact absurd (hstages.subset hadd) add_not_mem_cloneStages
  | @cloned subdir dir fresh files t u result hl hs hm hc hr =>
    let start : Session := { s with files := files, fresh := fresh }
    obtain ⟨create,-,hf⟩ := cloneInto_follows dir request.cloneOptions start
    obtain ⟨made,hmade,hstages⟩ := hf.makes
    obtain ⟨made',hmade',hlisted⟩ := publishClone_makes request subdir (cloneInto_ok hc).2
    rw [hc] at hmade
    rw [hr] at hmade'
    have hall := (hmade.append hmade').files
      (cleanup_allows request.keep (attempt_within delete_within_files) u)
    obtain ⟨dir',staged,hadd,hargs⟩ := hall.exists_add h ha
    rw [List.map_append, List.mem_append] at hadd
    rcases hadd with hadd | hadd
    · exact absurd (hstages.subset hadd) add_not_mem_cloneStages
    · obtain ⟨files,hfiles,rfl⟩ := hlisted dir' staged hadd
      exact ⟨dir,subdir,t,files,⟨hl,hs,_,_,hm,hc⟩,hfiles,hargs⟩

/-- The call stages what is listed once the repository is cloned, and nothing else is different
about that than the clone itself. -/
def StagesListed (request : PublishRequest) (s : Session) (src : Address) (call : Call) : Prop :=
  ∃ dir subdir t files a, Cloned request s dir subdir t ∧
    t.files.listFiles request.source = .ok files ∧
    call.args = Git.add (files.map (subdir / ·)) ∧ s.files.Vacant dir a ∧
    (s.runner.Confined a → s.runner.Spares a →
      files = (t.files.filesBelow src).map pathOf ∧ Overlap s.files t.files src a)

/-- What is staged is what was listed before publishing, and the files of the clone if it lies in
the source. -/
theorem publish_adds (request : PublishRequest) (s : Session) (ht : s.files.IsTree)
    (he : ∀ ending ∈ s.fresh, FileAction.IsEnding ending)
    (hl : s.files.locate true request.source = .ok src) (hd : s.files.isDirectoryAt src) :
    s.files.listFiles request.source = .ok ((s.files.filesBelow src).map pathOf) ∧
    ∀ call ∈ ((publish request).run s).2.calls.drop s.calls.length,
      call.args.head? = some "add" → StagesListed request s src call := by
  refine ⟨listFiles_of_directory hl hd,fun call hcall hadd => ?_⟩
  obtain ⟨dir,subdir,t,files,hcloned,hfiles,hargs⟩ := publish_staging hcall hadd
  obtain ⟨a,hv,hgrafted⟩ := hcloned.grafted ht he
  refine ⟨dir,subdir,t,files,a,hcloned,hfiles,hargs,hv,fun hc hs => ?_⟩
  obtain ⟨hkeeps,hgraft⟩ := hgrafted hc hs
  have hd' := hkeeps.isDirectoryAt hd
  have hl' := locate_of_keeps hkeeps (.inr (ne_link_of_isDirectoryAt hd')) hl
  have hsrc := ne_none_of_isDirectoryAt hd
  refine ⟨?_,fun way => hgraft.mem_filesBelow_iff hsrc,hgraft.filesBelow_eq_iff hsrc⟩
  exact Except.ok.inj (hfiles.symm.trans (listFiles_of_directory hl' hd'))

/-- A session in which nothing is found but the directory for temporary ones. -/
def nestedSession : Session :=
  { idleSession with runner := siteRunner ["tmp", "site-a1b2c3"] }

/-- The directory for temporary ones is itself published. -/
def nestedRequest : PublishRequest :=
  ⟨"git@example.com:site", none, false, ⟨"/tmp"⟩, none, "update", "", "", "site-", false⟩

def nestedClone : Session :=
  { nestedSession with
    fresh := []
    files := checkedOut ["tmp", "site-a1b2c3"]
      (nestedSession.files.put ["tmp", "site-a1b2c3"] (.directory 0o755))
    calls := [⟨"git", Git.clone "git@example.com:site" ⟨"/tmp/site-a1b2c3"⟩, none, []⟩]
    workDir := some ⟨"/tmp/site-a1b2c3"⟩
    replies := [.succeeded] }

namespace nestedClone

theorem isTree : nestedClone.files.IsTree := by decide

theorem cloned : Cloned nestedRequest nestedSession ⟨"/tmp/site-a1b2c3"⟩ ⟨""⟩ nestedClone where
  location := by rfl
  subdir := by rfl
  cloned := ⟨_,_,FileAction.run_makeTemporary_tmp "site-a1b2c3" (by decide) (by decide) (by decide)
    (by decide) (by decide) (by decide) [],rfl⟩

theorem locate_source : nestedClone.files.locate true ⟨"/tmp"⟩ = .ok ["tmp"] :=
  locate_directory isTree (by decide) (by decide) (by decide) (by decide)

theorem locate_clone :
    nestedClone.files.locate true ⟨"/tmp/site-a1b2c3"⟩ = .ok ["tmp", "site-a1b2c3"] :=
  locate_directory isTree (by decide) (by decide) (by decide) (by decide)

theorem listFiles :
    nestedClone.files.listFiles ⟨"/tmp"⟩ = .ok [pathOf ["site-a1b2c3", "README"]] := by
  have hbelow : nestedClone.files.unsortedFilesBelow ["tmp"] = [["site-a1b2c3", "README"]] := by
    decide
  rw [listFiles_of_directory locate_source (by decide), filesBelow, hbelow,
    List.mergeSort_singleton, List.map_singleton]

theorem ready : Ready nestedClone.files ⟨"/tmp"⟩ ⟨"/tmp/site-a1b2c3"⟩ ⟨""⟩ ["tmp"]
    ["tmp", "site-a1b2c3"] ["site-a1b2c3", "README"] := by
  have hfile : (pathOf ["site-a1b2c3", "README"]).Descends := ⟨by decide,by decide⟩
  have hlinks : nestedClone.files.HasNoLinks ["tmp", "site-a1b2c3"] := by decide
  have hclear : nestedClone.files.IsClear
      ["tmp", "site-a1b2c3", "site-a1b2c3", "README"] := by decide
  exact {
    named := by
      unfold IsName
      decide
    origin := ⟨_,_,rfl⟩
    source := goesOn_div locate_source (by decide) hfile (by decide)
    target := goesOn_div locate_clone (by decide) (descends_empty.div hfile) (by decide)
    free _ := hclear.free hlinks
    replaced _ := hlinks.isFile (by decide) (by decide) }

theorem run_copyTree : ∃ fs, (copyTree ⟨"/tmp"⟩ ⟨"/tmp/site-a1b2c3"⟩ ⟨""⟩).run nestedClone =
    (.ok [⟨"site-a1b2c3/README"⟩], { nestedClone with files := fs }) := by
  have htarget : (⟨""⟩ / pathOf ["site-a1b2c3", "README"] : Path) = ⟨"site-a1b2c3/README"⟩ := by
    decide
  obtain ⟨-,-,made,mode,content,-,-,-,hrun⟩ := ready.run_copyFile_of_ne isTree (by decide)
  rw [htarget] at hrun
  rw [copyTree, run_bind, run_get]
  simp only [listFiles, List.mapM_cons, List.mapM_nil, run_bind, hrun]
  exact ⟨_,rfl⟩

/-- The call that stages the file of the clone. -/
theorem add_mem : ∃ call ∈ ((publish nestedRequest).run nestedSession).2.calls,
    call.args = Git.add [⟨"site-a1b2c3/README"⟩] := by
  obtain ⟨fs,hrun⟩ := run_copyTree
  obtain ⟨reply,made,hm,-⟩ := (publish_staged cloned hrun).staged
  let stage : Stage := .add ⟨"/tmp/site-a1b2c3"⟩ [⟨"site-a1b2c3/README"⟩]
  refine ⟨stage.call nestedClone.overrides,?_,rfl⟩
  rw [hm.calls]
  exact List.mem_append_right _ (List.mem_cons_self ..)

end nestedClone

theorem publish_adds_nested : nestedSession.files.IsTree ∧
    (∀ ending ∈ nestedSession.fresh, FileAction.IsEnding ending) ∧
    nestedSession.files.locate true nestedRequest.source = .ok ["tmp"] ∧
    nestedSession.files.isDirectoryAt ["tmp"] ∧
    nestedSession.runner.Confined ["tmp", "site-a1b2c3"] ∧
    nestedSession.runner.Spares ["tmp", "site-a1b2c3"] ∧
    ∃ call ∈ ((publish nestedRequest).run nestedSession).2.calls,
      StagesListed nestedRequest nestedSession ["tmp"] call := by
  have ht : nestedSession.files.IsTree := by decide
  have he : ∀ ending ∈ nestedSession.fresh, FileAction.IsEnding ending := by decide
  have hl : nestedSession.files.locate true ⟨"/tmp"⟩ = .ok ["tmp"] :=
    locate_directory ht (by decide) (by decide) (by decide) (by decide)
  have hd : nestedSession.files.isDirectoryAt ["tmp"] := by decide
  obtain ⟨call,hcall,hargs⟩ := nestedClone.add_mem
  refine ⟨ht,he,hl,hd,siteRunner.confined _,siteRunner.spares _,call,hcall,?_⟩
  exact (publish_adds nestedRequest nestedSession ht he hl hd).2 call hcall (by rw [hargs]; rfl)

/-- The file of a clone is staged that lies in the source, though nothing was in the source. -/
theorem publish_adds_clone : nestedSession.files.listFiles nestedRequest.source = .ok [] ∧
    ∃ call ∈ ((publish nestedRequest).run nestedSession).2.calls,
      call.args = Git.add [⟨"site-a1b2c3/README"⟩] := by
  have hl : nestedSession.files.locate true ⟨"/tmp"⟩ = .ok ["tmp"] :=
    locate_directory (by decide) (by decide) (by decide) (by decide) (by decide)
  have hnone : nestedSession.files.unsortedFilesBelow ["tmp"] = [] := by decide
  refine ⟨?_,nestedClone.add_mem⟩
  have hlisted := listFiles_of_directory hl (by decide)
  rwa [filesBelow, hnone, List.mergeSort_nil] at hlisted

end Work
end GitPublish
