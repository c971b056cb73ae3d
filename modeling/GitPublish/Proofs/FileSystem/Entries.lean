import GitPublish.Proofs.FileSystem.Action

/-!
# What a directory has in it

The names that are listed for a directory are those under which something is found there, of
whatever kind. Listing changes nothing, and fails exactly where there is no directory.
-/
namespace GitPublish

namespace FileSystem
variable {fs : FileSystem} {p : Path} {a : Address} {name : String}

/-- Something is found under a name in the directory that a path leads to. -/
def HasEntry (fs : FileSystem) (p : Path) (name : String) : Prop :=
  ∃ a, fs.locate true p = .ok a ∧ fs.get? (a ++ [name]) ≠ none

theorem eq_of_nameAt {x : Address × Entry}
    (h : (if x.1.dropLast = a && x.1 ≠ [] then x.1.getLast? else none) = some name) :
    x.1 = a ++ [name] := by
  split at h
  next hx =>
    simp only [Bool.and_eq_true, decide_eq_true_eq] at hx
    obtain ⟨before,hlast⟩ := List.getLast?_eq_some_iff.mp h
    have hdrop := hx.1
    rw [hlast, List.dropLast_concat] at hdrop
    rw [hlast, hdrop]
  · cases h

/-- What lies directly below an address is stored under that address and a name. -/
theorem mem_namesAt (fs : FileSystem) (a : Address) (name : String) :
    name ∈ fs.entries.filterMap (fun x =>
      if x.1.dropLast = a && x.1 ≠ [] then x.1.getLast? else none) ↔
      fs.get? (a ++ [name]) ≠ none := by
  rw [List.mem_filterMap, get?_ne_none_iff]
  constructor
  · rintro ⟨x,hx,hname⟩
    exact .inr ⟨x,hx,(eq_of_nameAt hname).symm⟩
  · rintro (hnil | ⟨x,hx,ha⟩)
    · simp at hnil
    · exact ⟨x,hx,by simp [← ha]⟩

end FileSystem

namespace FileAction
variable {fs : FileSystem} {p : Path}

/-- Listing leaves everything, and either there is no directory or the names in it are found. -/
theorem run_entriesOf (p : Path) (fs : FileSystem) :
    (fs.isDirectory p = false ∧ ∃ cause, (entriesOf p).run fs = (.error cause, fs)) ∨
      fs.isDirectory p ∧ ∃ names, (entriesOf p).run fs = (.ok names, fs) ∧
        ∀ name, name ∈ names ↔ fs.HasEntry p name := by
  rw [entriesOf, run_bind, run_get]
  simp only [run_bind, run_liftExcept]
  unfold FileSystem.isDirectory FileSystem.find?
  rcases hf : fs.find true p with cause | ⟨a,e⟩
  · exact .inl ⟨rfl,cause,rfl⟩
  cases e with
  | file => exact .inl ⟨rfl,_,rfl⟩
  | link => exact .inl ⟨rfl,_,rfl⟩
  | directory mode =>
    refine .inr ⟨rfl,_,rfl,fun name => ?_⟩
    have ha := (FileSystem.find_eq_ok.mp hf).1
    rw [FileSystem.mem_namesAt]
    constructor
    · intro h
      exact ⟨a,ha,h⟩
    · rintro ⟨b,hb,h⟩
      rwa [Except.ok.inj (ha.symm.trans hb)]

theorem names_eq_nil {names : List String} (h : ∀ name, name ∈ names ↔ fs.HasEntry p name) :
    names = [] ↔ ∀ name, ¬ fs.HasEntry p name := by
  rw [List.eq_nil_iff_forall_not_mem]
  exact forall_congr' fun name => not_congr (h name)

end FileAction
end GitPublish
