import GitPublish.Proofs.FileSystem.Kept
import GitPublish.Proofs.Path

/-!
# Where listed files lie

The files of a tree are listed by the names on their way. Where names are as a system has them, such
a path is relative and goes nowhere up.
-/
namespace GitPublish

/-- A name that an entry of a directory can have. -/
def IsName (name : String) : Prop :=
  name ≠ "" ∧ name ≠ "." ∧ name ≠ ".." ∧ '/' ∉ name.toList

namespace FileSystem
variable {fs : FileSystem} {root file : Path} {files : List Path}

def IsNamed (fs : FileSystem) : Prop := ∀ x ∈ fs.entries, ∀ name ∈ x.1, IsName name

theorem up_not_mem_join {pieces : List (List Char)} (hp : pieces ≠ [])
    (h : ∀ piece ∈ pieces, '/' ∉ piece ∧ piece ≠ ['.', '.']) :
    ['.', '.'] ∉ List.splitOn '/' (['/'].intercalate pieces) := by
  induction pieces with
  | nil => exact absurd rfl hp
  | cons piece rest ih =>
    obtain ⟨hslash,hup⟩ := h piece (List.mem_cons_self ..)
    have hpiece : ['.', '.'] ∉ List.splitOn '/' piece := by
      rw [List.splitOn_eq_singleton hslash, List.mem_singleton]
      exact hup.symm
    rcases rest with - | ⟨next, rest⟩
    · simp [hpiece]
    · have hjoin : ['/'].intercalate (piece :: next :: rest) =
          piece ++ '/' :: ['/'].intercalate (next :: rest) := by
        simp [List.intercalate_cons_cons]
      rw [hjoin, List.splitOn_append_cons_self, List.mem_append, not_or]
      exact ⟨hpiece,ih (by simp) fun p hp => h p (List.mem_cons_of_mem _ hp)⟩

theorem descends_empty : (⟨""⟩ : Path).Descends := ⟨by decide,by decide⟩

theorem descends_pathOf {way : Address} (h : ∀ name ∈ way, IsName name) :
    (pathOf way).Descends := by
  have htext : (pathOf way).text.toList = ['/'].intercalate (way.map String.toList) :=
    String.toList_intercalate
  cases way with
  | nil => exact descends_empty
  | cons name rest =>
    obtain ⟨hne,-,-,hslash⟩ := h name (List.mem_cons_self ..)
    refine ⟨?_,?_⟩
    · rw [← Bool.not_eq_true, Path.isAbsolute_iff, htext]
      rintro ⟨body,hb⟩
      rcases hc : name.toList with - | ⟨c, cs⟩
      · exact hne (String.toList_eq_nil_iff.mp hc)
      · rw [List.map_cons, hc, List.intercalate_cons_cons_left] at hb
        rw [hc, (List.cons.inj hb).1] at hslash
        exact hslash (List.mem_cons_self ..)
    · rw [Path.up_mem_ofText, htext]
      refine up_not_mem_join (by simp) fun piece hp => ?_
      obtain ⟨n,hn,rfl⟩ := List.mem_map.mp hp
      obtain ⟨-,-,hup,hs⟩ := h n hn
      exact ⟨hs,fun he => hup (String.toList_inj.mp he)⟩

theorem descends_of_mem_listFiles (hn : fs.IsNamed) (hl : fs.listFiles root = .ok files)
    (hf : file ∈ files) : file.Descends := by
  have below (a : Address) (h : file ∈ (fs.filesBelow a).map pathOf) : file.Descends := by
    obtain ⟨way,hway,rfl⟩ := List.mem_map.mp h
    refine descends_pathOf fun name hname => ?_
    obtain ⟨⟨b,e⟩,hb,hx⟩ := List.mem_filterMap.mp (List.mem_mergeSort.mp hway)
    refine hn ⟨b,e⟩ hb name ?_
    dsimp only [wayTo?] at hx
    by_cases hw : a.isPrefixOf b && a ≠ b
    · rw [if_pos hw] at hx
      dsimp only at hx
      split at hx
      · rw [← Option.some.inj hx] at hname
        exact List.mem_of_mem_drop hname
      · cases hx
    · rw [if_neg hw] at hx
      cases hx
  unfold listFiles at hl
  split at hl
  · cases hl
  · cases hl
    rw [List.mem_singleton.mp hf]
    exact descends_empty
  · cases hl
    exact below _ hf
  · split at hl
    · cases hl
    · cases hl
      exact below _ hf
    · cases hl
      cases hf

end FileSystem
end GitPublish
