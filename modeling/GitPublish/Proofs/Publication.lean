import GitPublish.Proofs.Copying
import GitPublish.Proofs.Path.Components

/-!
# What is published

A tree that can be copied into a clone is published as it is: its files are found in the clone, and
they are what is staged and what is reported.
-/
namespace GitPublish
open FileSystem

structure Cloned (request : PublishRequest) (start : Session) (dir subdir : Path) (s : Session) :
    Prop where
  location : Location.validate request.url = .ok ()
  subdir : Work.checkedSubdir request.subdir = .ok subdir
  cloned : ∃ fresh files,
    (FileAction.makeTemporary start.temporary request.stem start.fresh).run start.files =
      (.ok (dir, fresh), files) ∧
    (Work.cloneInto dir request.cloneOptions).run { start with files := files, fresh := fresh } =
      (.ok (), s)

/-- From a clone on, `git` is asked first to stage exactly these files, then for nothing but what
follows in the script, and a result reports these files. -/
structure Staged (request : PublishRequest) (dir : Path) (files : List Path) (s : Session)
    (result : Except RepoError PublishOutcome) (t : Session) : Prop where
  staged : ∃ reply made, s.Makes ((.add dir files, reply) :: made) t ∧
    .add dir files :: made.map Prod.fst <+: request.publishStages dir files
  reported : ∀ outcome, result = .ok outcome → outcome.files = files

namespace Work
variable {request : PublishRequest} {dir subdir source : Path} {files : List Path} {s : Session}
  {src root : Address}

theorem finish_ok {outcome : CommitOutcome} {value : List Path × CommitOutcome × Bool} {t : Session}
    (h : (finish files outcome).run s = (.ok value, t)) : value.1 = files := by
  cases outcome with
  | nothingToCommit => cases h; rfl
  | committed =>
    obtain ⟨⟨⟩,u,-,h⟩ := ok_of_run_bind h
    cases h
    rfl

theorem commit_finish_makes (hw : s.workDir = some dir) (message user email : String)
    (files : List Path) :
    ∃ made, s.Makes made ((commit message user email >>= finish files).run s).2 ∧
      made.map Prod.fst <+: .diff dir :: (recordStages dir message user email ++ [.push dir]) := by
  have hdiff := s.makes_afterGit (.diff dir)
  rw [run_bind, run_commit hw]
  cases s.gitReply (some dir) Git.diff with
  | succeeded => exact ⟨_,hdiff,_,rfl⟩
  | notStarted cause => exact ⟨_,hdiff,_,rfl⟩
  | exited code output =>
    dsimp only
    rw [← run_bind]
    have hf := record_finish_follows (fun _ _ => True) (s := s.afterGit (some dir) Git.diff) hw
      message user email files
    obtain ⟨made,hm,hs⟩ := hf.makes
    exact ⟨_,hdiff.append hm,(List.prefix_append_right_inj [Stage.diff dir]).mpr hs⟩

theorem run_add (hw : s.workDir = some dir) (files : List Path) :
    (add files).run s = (((s.gitReply (some dir) (Git.add files)).result
      (s.gitCall (some dir) (Git.add files))).mapError .add,
      s.afterGit (some dir) (Git.add files)) := by
  rw [add, run_bind_boundDirectory, hw]
  exact run_demand .add (some dir) (Git.add files) s

/-- Stages files, commits and pushes. -/
def publishFiles (request : PublishRequest) (files : List Path) :
    Work (List Path × CommitOutcome × Bool) := do
  add files
  let outcome ← commit request.message request.user request.email
  finish files outcome

theorem publishFiles_staged (request : PublishRequest) (hw : s.workDir = some dir)
    (files : List Path) :
    Staged request dir files s
      (((publishFiles request files).run s).1.map fun (files, commit, pushed) =>
        ⟨dir, files, commit, pushed⟩)
      ((publishFiles request files).run s).2 := by
  have hadd := s.makes_afterGit (.add dir files)
  rw [publishFiles, run_bind]
  rcases ha : (add files).run s with ⟨e | ⟨⟩, t⟩ <;>
    obtain rfl := (Prod.mk.inj (ha.symm.trans (run_add hw files))).2
  · exact ⟨⟨_,[],hadd,_,rfl⟩,fun outcome h => nomatch h⟩
  · obtain ⟨made,hm,hs⟩ := commit_finish_makes (s := s.afterGit (some dir) (Git.add files)) hw
      request.message request.user request.email files
    refine ⟨⟨_,made,hadd.append hm,(List.prefix_append_right_inj [Stage.add dir files]).mpr hs⟩,?_⟩
    intro outcome h
    dsimp only at h
    rcases hr : (commit request.message request.user request.email >>= finish files).run
      (s.afterGit (some dir) (Git.add files)) with ⟨e | value, t⟩ <;> rw [hr] at h
    · cases h
    · cases h
      obtain ⟨commit,u,-,hfinish⟩ := ok_of_run_bind hr
      exact finish_ok hfinish

theorem publishClone_staged {fs : FileSystem} (hw : s.workDir = some dir)
    (hc : (copyTree request.source dir subdir).run s = (.ok files, { s with files := fs })) :
    Staged request dir files s
      (((publishClone request dir subdir).run s).1.map fun (files, commit, pushed) =>
        ⟨dir, files, commit, pushed⟩)
      ((publishClone request dir subdir).run s).2 := by
  have hcopy : s.Makes [] { s with files := fs } := .nil rfl rfl rfl
  obtain ⟨⟨reply,made,hm,hs⟩,hreported⟩ :=
    publishFiles_staged request (s := { s with files := fs }) hw files
  rw [publishClone_eq, run_bind, hc]
  exact ⟨⟨reply,made,hcopy.append hm,hs⟩,hreported⟩

/-- From the clone on, a run of publishing stages and reports what was copied. -/
theorem publish_staged {start : Session} {fs : FileSystem}
    (h : Cloned request start dir subdir s)
    (hc : (copyTree request.source dir subdir).run s = (.ok files, { s with files := fs })) :
    Staged request dir files s ((publish request).run start).1 ((publish request).run start).2 := by
  obtain ⟨fresh,made,hmade,hclone⟩ := h.cloned
  have hp := publish_cases request start
  generalize ((publish request).run start).1 = result at hp ⊢
  generalize ((publish request).run start).2 = t at hp ⊢
  cases hp with
  | refused hl => cases h.location.symm.trans hl
  | outside _ hs => cases h.subdir.symm.trans hs
  | homeless _ _ hm => cases (Prod.mk.inj (hmade.symm.trans hm)).1
  | uncloned _ _ hm hu =>
    cases hmade.symm.trans hm
    cases (Prod.mk.inj (hclone.symm.trans hu)).1
  | @cloned _ _ _ _ _ u result _ hs hm hu hr =>
    cases h.subdir.symm.trans hs
    cases hmade.symm.trans hm
    cases hclone.symm.trans hu
    have hstaged := publishClone_staged (cloneInto_ok hclone).2 hc
    rw [hr] at hstaged
    obtain ⟨reply,made,hmakes,hscript⟩ := hstaged.staged
    have hkept := cleanup_allows request.keep (attempt_within delete_within_files) u
    exact ⟨⟨reply,made,hmakes.files hkept,hscript⟩,hstaged.reported⟩

/-- Where a tree can be copied into a clone, its files are copied, staged and reported, each once
and in the order in which they are listed; they are found in the clone with their permissions and
their bytes, and nothing else becomes of what is there. -/
theorem copyTree_replicates {subdir? : Option Path} (hc : checkedSubdir subdir? = .ok subdir)
    (h : Copyable s.files source dir subdir src root) :
    ∃ files fs, s.files.listFiles source = .ok files ∧
      (copyTree source dir subdir).run s = (.ok (files.map (subdir / ·)), { s with files := fs }) ∧
      (files.map (subdir / ·)).Nodup ∧
      TreeCopied source dir subdir src root files s.files fs ∧
      ∀ request start, request.source = source → Cloned request start dir subdir s →
        Staged request dir (files.map (subdir / ·)) s ((publish request).run start).1
          ((publish request).run start).2 := by
  have hd := descends_of_checkedSubdir hc
  obtain ⟨fs,hrun,hcopied⟩ := h.run_copyTree hd
  have hnodup := subdir.nodup_div (nodup_filesBelow s.files src) fun way hw => h.named_of_mem hw
  refine ⟨_,fs,listFiles_of_directory h.leadsSource h.sourceDirectory,hrun,?_,hcopied,?_⟩
  · rw [List.map_map]
    exact hnodup
  · rintro request start rfl hcloned
    exact publish_staged hcloned hrun

/-- What a clone of a site holds that has an old page. -/
def siteFiles (a : Address) (fs : FileSystem) : FileSystem :=
  ((fs.put (a ++ ["README"]) (.file 0o644 "a site".toUTF8)).put
    (a ++ ["out"]) (.directory 0o755)).put (a ++ ["out", "page"]) (.file 0o600 "old".toUTF8)

/-- A session with a new page and a tool to publish. -/
def siteSession : Session where
  runner := ⟨fun _ call fs =>
    if call.args.head? = some "clone" then (.succeeded, siteFiles ["tmp", "site-a1b2c3"] fs)
    else (.succeeded, fs)⟩
  overrides := []
  temporary := ⟨"/tmp"⟩
  fresh := ["a1b2c3"]
  files := ⟨[(["tmp"], .directory 0o755), (["src"], .directory 0o755),
    (["src", "bin"], .directory 0o755), (["src", "bin", "tool"], .file 0o755 "run".toUTF8),
    (["src", "page"], .file 0o644 "new".toUTF8)],[],by decide⟩
  calls := []
  workDir := none

def siteRequest : PublishRequest :=
  ⟨"git@example.com:site", none, false, ⟨"/src"⟩, some ⟨"out"⟩, "update", "", "", "site-", false⟩

def clonedSession : Session :=
  { siteSession with
    fresh := []
    files := siteFiles ["tmp", "site-a1b2c3"]
      (siteSession.files.put ["tmp", "site-a1b2c3"] (.directory 0o755))
    calls := [⟨"git", Git.clone "git@example.com:site" ⟨"/tmp/site-a1b2c3"⟩, none, []⟩]
    workDir := some ⟨"/tmp/site-a1b2c3"⟩
    replies := [.succeeded] }

namespace clonedSession

theorem isTree : clonedSession.files.IsTree := by decide

theorem cloned : Cloned siteRequest siteSession ⟨"/tmp/site-a1b2c3"⟩ ⟨"out"⟩ clonedSession where
  location := by rfl
  subdir := by rfl
  cloned := ⟨_,_,FileAction.run_makeTemporary_tmp "site-a1b2c3" (by decide) (by decide) (by decide)
    (by decide) (by decide) (by decide) [],rfl⟩

theorem locate_source : clonedSession.files.locate true ⟨"/src"⟩ = .ok ["src"] :=
  locate_directory isTree (by decide) (by decide) (by decide) (by decide)

theorem listFiles : clonedSession.files.listFiles ⟨"/src"⟩ = .ok [⟨"bin/tool"⟩, ⟨"page"⟩] := by
  have hbelow : clonedSession.files.unsortedFilesBelow ["src"] = [["bin", "tool"], ["page"]] := by
    decide
  have hsorted : [["bin", "tool"], ["page"]].Pairwise fun a b => isBefore a b := by decide
  have hpaths : [["bin", "tool"], ["page"]].map pathOf = [⟨"bin/tool"⟩, ⟨"page"⟩] := by decide
  rw [listFiles_of_directory locate_source (by decide), filesBelow, hbelow,
    List.mergeSort_of_pairwise hsorted, hpaths]

theorem copyable : Copyable clonedSession.files ⟨"/src"⟩ ⟨"/tmp/site-a1b2c3"⟩ ⟨"out"⟩ ["src"]
    ["tmp", "site-a1b2c3"] where
  tree := isTree
  named := by
    unfold IsNamed IsName
    decide
  leadsSource := locate_source
  sourceDirectory := by decide
  leadsClone := locate_directory isTree (by decide) (by decide) (by decide) (by decide)
  cloneDirectory := by decide
  apart := by decide
  noLinks := by decide
  clear files hl := by
    cases clonedSession.listFiles.symm.trans hl
    decide
  fits files hl := by
    cases clonedSession.listFiles.symm.trans hl
    decide

end clonedSession

theorem copyTree_replicates_site :
    checkedSubdir siteRequest.subdir = .ok ⟨"out"⟩ ∧
    Copyable clonedSession.files ⟨"/src"⟩ ⟨"/tmp/site-a1b2c3"⟩ ⟨"out"⟩ ["src"]
      ["tmp", "site-a1b2c3"] ∧
    Cloned siteRequest siteSession ⟨"/tmp/site-a1b2c3"⟩ ⟨"out"⟩ clonedSession ∧
    ∃ fs, (copyTree ⟨"/src"⟩ ⟨"/tmp/site-a1b2c3"⟩ ⟨"out"⟩).run clonedSession =
        (.ok [⟨"out/bin/tool"⟩, ⟨"out/page"⟩], { clonedSession with files := fs }) ∧
      TreeCopied ⟨"/src"⟩ ⟨"/tmp/site-a1b2c3"⟩ ⟨"out"⟩ ["src"] ["tmp", "site-a1b2c3"]
        [⟨"bin/tool"⟩, ⟨"page"⟩] clonedSession.files fs ∧
      Staged siteRequest ⟨"/tmp/site-a1b2c3"⟩ [⟨"out/bin/tool"⟩, ⟨"out/page"⟩] clonedSession
        ((publish siteRequest).run siteSession).1 ((publish siteRequest).run siteSession).2 := by
  have hc : checkedSubdir siteRequest.subdir = .ok ⟨"out"⟩ := by rfl
  obtain ⟨files,fs,hl,hrun,-,hcopied,hstaged⟩ := copyTree_replicates hc clonedSession.copyable
  cases clonedSession.listFiles.symm.trans hl
  have hmap : [⟨"bin/tool"⟩, ⟨"page"⟩].map ((⟨"out"⟩ : Path) / ·) =
      [⟨"out/bin/tool"⟩, ⟨"out/page"⟩] := by decide
  rw [hmap] at hrun hstaged
  exact ⟨hc,clonedSession.copyable,clonedSession.cloned,fs,hrun,hcopied,
    hstaged siteRequest siteSession rfl clonedSession.cloned⟩

/-! ## What cannot be copied or told -/

theorem checkedSubdir_slashed (n : Nat) :
    checkedSubdir (some (Path.slashed ⟨"out"⟩ n)) = .ok (Path.slashed ⟨"out"⟩ n) := by
  have hstays : (Path.slashed ⟨"out"⟩ n).staysBelow := by
    rw [Path.staysBelow, Path.components_slashed (by decide)]
    decide
  exact if_pos hstays

theorem under_slashed (p : Path) (n : Nat) (root : Address) :
    (p.slashed n).under root = p.under root := by
  rw [Path.under, Step.ofText, Path.toList_slashed, Text.splitOn_append_replicate, List.map_append,
    List.map_replicate, List.foldl_append]
  exact foldl_stay ..

theorem unhindered_slashed (n : Nat) : Unhindered clonedSession.files ⟨"/src"⟩ ⟨"/tmp/site-a1b2c3"⟩
    (Path.slashed ⟨"out"⟩ n) ["src"] ["tmp", "site-a1b2c3"] :=
  { clonedSession.copyable with
    clear := by
      intro files hl file hf
      have hfile := descends_of_mem_listFiles clonedSession.copyable.named hl hf
      have hunder : (Path.slashed ⟨"out"⟩ n / file).under ["tmp", "site-a1b2c3"] =
          (⟨"out"⟩ / file : Path).under ["tmp", "site-a1b2c3"] := by
        rw [Path.under_div hfile.relative, under_slashed, ← Path.under_div hfile.relative]
      rw [hunder]
      exact clonedSession.copyable.clear files hl file hf }

/-- The slashes make the paths too long that are written to. -/
theorem run_copyTree_slashed {n : Nat} (hn : pathLimit ≤ n) (staged : List Path) (t : Session) :
    (copyTree ⟨"/src"⟩ ⟨"/tmp/site-a1b2c3"⟩ (Path.slashed ⟨"out"⟩ n)).run clonedSession ≠
      (.ok staged, t) := by
  intro h
  obtain ⟨files,hl,hfits⟩ := fits_of_run_copyTree clonedSession.isTree h
  cases clonedSession.listFiles.symm.trans hl
  have hlength := (hfits ⟨"page"⟩ (by simp)).length
  have hends : (⟨"/tmp/site-a1b2c3"⟩ : Path).EndsInName :=
    ⟨"/tmp/site-a1b2c".toList,'3',by decide,by decide,by decide⟩
  have hfile : (⟨"page"⟩ : Path).Descends :=
    descends_of_mem_listFiles clonedSession.copyable.named hl (by simp)
  have hrelative := ((descends_of_checkedSubdir (checkedSubdir_slashed n)).div hfile).relative
  obtain ⟨-,-,rest,htext,-,-⟩ :=
    Path.exists_ofText_div hfile.relative (Path.slashed ⟨"out"⟩ n)
  rw [hends.div hrelative, htext, String.utf8ByteSize_append, String.utf8ByteSize_append,
    String.utf8ByteSize_append, Path.utf8ByteSize_slashed] at hlength
  omega

/-- Nothing is in the way where `out` is written with many slashes behind it, and yet the tree is
not copied. And files with names that are no text are told of by one name, which is that of
neither. -/
theorem copyTree_not_replicated :
    (checkedSubdir (some (Path.slashed ⟨"out"⟩ pathLimit)) = .ok (Path.slashed ⟨"out"⟩ pathLimit) ∧
      Unhindered clonedSession.files ⟨"/src"⟩ ⟨"/tmp/site-a1b2c3"⟩ (Path.slashed ⟨"out"⟩ pathLimit)
        ["src"] ["tmp", "site-a1b2c3"] ∧
      ∀ staged t, (copyTree ⟨"/src"⟩ ⟨"/tmp/site-a1b2c3"⟩ (Path.slashed ⟨"out"⟩ pathLimit)).run
        clonedSession ≠ (.ok staged, t)) ∧
    Path.toldIn ⟨"out"⟩ [0xFE] = Path.toldIn ⟨"out"⟩ [0xFF] ∧
    ∀ name ∈ [[0xFE], [0xFF]],
      (Path.toldIn ⟨"out"⟩ name).bytes ≠ (⟨"out"⟩ : Path).bytes ++ 0x2F :: name :=
  ⟨⟨checkedSubdir_slashed _,unhindered_slashed _,run_copyTree_slashed (Nat.le_refl _)⟩,by decide,
    by decide⟩

end Work
end GitPublish
