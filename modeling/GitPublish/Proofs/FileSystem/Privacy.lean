import GitPublish.Proofs.FileSystem.Again
import GitPublish.Proofs.Path.Components

/-!
# Private directories

What is made for the owner alone is new: directories are added, with no permissions for others, and
all that was there stays as it was. This holds of what is left behind by a failure as well, since
every step adds a single directory or nothing.
-/
namespace GitPublish

namespace FileSystem
variable {fs fs' fs'' : FileSystem} {a : Address} {mode : Nat} {p : Path}

/-- All that is new in a file system are directories with these permissions. -/
structure Adds (mode : Nat) (fs fs' : FileSystem) : Prop where
  current : fs'.current = fs.current
  kept : ∀ a e, fs.get? a = some e → fs'.get? a = some e
  added : ∀ a e, fs.get? a = none → fs'.get? a = some e → e = .directory mode

theorem Adds.refl (mode : Nat) (fs : FileSystem) : Adds mode fs fs where
  current := rfl
  kept _ _ h := h
  added _ _ hn h := nomatch hn.symm.trans h

theorem Adds.trans (h : Adds mode fs fs') (k : Adds mode fs' fs'') : Adds mode fs fs'' where
  current := k.current.trans h.current
  kept a e ha := k.kept a e (h.kept a e ha)
  added a e hn ha := by
    cases hb : fs'.get? a with
    | none => exact k.added a e hb ha
    | some e' =>
      obtain rfl : e' = e := Option.some.inj ((k.kept a e' hb).symm.trans ha)
      exact h.added a e' hn hb

theorem adds_put (hn : fs.get? a = none) (mode : Nat) :
    Adds mode fs (fs.put a (.directory mode)) where
  current := rfl
  kept b e hb := by
    rw [get?_put, if_neg, hb]
    rintro rfl
    exact nomatch hn.symm.trans hb
  added b e hb he := by
    rw [get?_put] at he
    split at he
    · exact (Option.some.inj he).symm
    · exact nomatch hb.symm.trans he

/-- Directories are added, with these permissions. -/
def adding (mode : Nat) : Change FileSystem where
  allows := Adds mode
  refl := Adds.refl mode
  trans := Adds.trans

/-- A path that is one of a directory. Slashes alone are the root, but too many of them cannot be
looked up. -/
def NamesDirectory (fs : FileSystem) (p : Path) : Prop :=
  fs.isDirectory p ∨ pathLimit ≤ p.text.utf8ByteSize ∧ p.components = [.root]

/-- The root is found by as many idle steps as it is written with. -/
theorem steps_of_root (h : p.components = [.root]) :
    ∃ k, Step.ofText p.text = List.replicate k .stay := by
  obtain ⟨body,htext,hidle⟩ := Path.eq_of_components_root h
  refine ⟨_,List.eq_replicate_iff.mpr ⟨List.length_map .., fun step hs => ?_⟩⟩
  obtain ⟨piece,hp,rfl⟩ := List.mem_map.mp hs
  rw [htext, Text.splitOn_cons, if_pos rfl] at hp
  rcases List.mem_cons.mp hp with rfl | hp
  · rfl
  · exact Path.ofPiece_eq_stay.mpr (hidle piece hp)

theorem hasNul_of_root (h : p.components = [.root]) : p.hasNul = false := by
  obtain ⟨body,htext,hidle⟩ := Path.eq_of_components_root h
  have hbody : '\x00' ∉ body := fun hmem => by
    have hjoin : ['/'].intercalate (body.splitOn '/') = body := List.intercalate_splitOn '/'
    rw [← hjoin] at hmem
    rcases Text.mem_intercalate hmem with h | ⟨piece,hp,hc⟩
    · cases h
    · have hpiece := hidle piece hp
      simp only [Path.isIdle, Bool.or_eq_true, beq_iff_eq] at hpiece
      rcases hpiece with rfl | rfl <;> simp at hc
  simp [Path.hasNul, htext, hbody]

theorem isDirectory_of_root (ht : fs.IsTree) (h : p.components = [.root])
    (hlength : p.text.utf8ByteSize < pathLimit) : fs.isDirectory p := by
  obtain ⟨body,htext,-⟩ := Path.eq_of_components_root h
  obtain ⟨k,hsteps⟩ := steps_of_root h
  have hne : p.text ≠ "" := fun h => by
    rw [h] at htext
    cases htext
  have hstart : startOf p.text fs.current = [] := by
    rw [startOf, htext]
    rfl
  refine isDirectory_iff.mpr ⟨[],locate_eq_ok.mpr ⟨hasNul_of_root h,hne,hlength,?_⟩,ht.root⟩
  rw [hsteps, hstart]
  exact Leads.nil.append_stay ht ht.root k

end FileSystem

namespace FileAction
open FileSystem
variable {fs fs' : FileSystem} {mode : Nat} {p : Path}

theorem adding_allowsDirectory (mode : Nat) (p : Path) :
    AllowsDirectory (adding (masked mode)) mode p := fun _ _ _ hn => adds_put hn _

/-- A directory that was made is there. A path above which there is none is the root. -/
theorem makeDirectories_ok (ht : fs.IsTree) (hp : p.text ≠ "")
    (h : (makeDirectories mode p).run fs = (.ok (), fs')) : fs'.NamesDirectory p := by
  have hw := makeDirectories_within (fun q _ => growing_allowsDirectory mode q) (p := p) fs ht
  rw [h] at hw
  rw [makeDirectories_eq] at h
  rcases p.dropLast_ancestors_cases with hnil | ⟨rest,hrest⟩
  · have hroot := Path.components_of_no_parent hp hnil
    by_cases hlength : p.text.utf8ByteSize < pathLimit
    · exact .inl (isDirectory_of_root hw.1 hroot hlength)
    · exact .inr ⟨Nat.le_of_not_lt hlength,hroot⟩
  · rw [hrest] at h
    exact .inl (makeAll_ok ht h)

structure MadePrivately (p : Path) (fs fs' : FileSystem) (result : Except IoError Unit) : Prop where
  tree : fs'.IsTree
  adds : Adds 0o700 fs fs'
  present : result = .ok () → fs'.NamesDirectory p
  again : result = .ok () → (makePrivateDirectories p).run fs' = (.ok (), fs')

theorem makePrivateDirectories_made (ht : fs.IsTree) (hp : p.text ≠ "") :
    MadePrivately p fs ((makePrivateDirectories p).run fs).2
      ((makePrivateDirectories p).run fs).1 where
  tree := (makeDirectories_within (fun q _ => growing_allowsDirectory 0o700 q) fs ht).1
  adds := makeDirectories_within (R := adding 0o700)
    (fun q _ => adding_allowsDirectory 0o700 q) fs
  present h := makeDirectories_ok ht hp (Prod.ext h rfl)
  again h := makeDirectories_again ht (Prod.ext h rfl) (.refl _)

def linkedFiles : FileSystem where
  entries := [(["srv"], .directory 0o755), (["link"], .link "srv")]
  current := []
  nodup := by decide

/-- A way over the link that goes up and down again. -/
def linkedPath : Path := ⟨"/link/../link/./a"⟩

theorem locateName_linked : linkedFiles.locateName linkedPath = .ok ["srv", "a"] := by
  have hstart : startOf linkedPath.text linkedFiles.current = [] := by decide
  have hsteps : Step.ofText linkedPath.text =
      [.stay, .enter "link", .up, .enter "link", .stay, .enter "a"] := by decide
  have htarget : Step.ofText "srv" = [.enter "srv"] := by decide
  rw [locateName_of_unslashed (by decide)]
  refine locate_eq_ok.mpr ⟨by decide,by decide,by decide,?_⟩
  rw [hstart, hsteps]
  refine .stay rfl (.link rfl (by decide) rfl (.inl (by simp)) ?_)
  rw [htarget]
  refine .into rfl (by decide) rfl (.up rfl (.link rfl (by decide) rfl (.inl (by simp)) ?_))
  rw [htarget]
  exact .into rfl (by decide) rfl (.stay rfl (.enter rfl (by decide) nofun .nil))

theorem run_linked : (makePrivateDirectories linkedPath).run linkedFiles =
    (.ok (), linkedFiles.put ["srv", "a"] (.directory 0o700)) := by
  have hn : linkedFiles.get? ["srv", "a"] = none := by decide
  have hmake : (makeMissing 0o700 linkedPath).run linkedFiles =
      (.ok (), linkedFiles.put ["srv", "a"] (.directory 0o700)) := by
    simp only [makeMissing, run_tryCatch, makeDirectory, run_bind, run_get, run_liftExcept,
      locateName_linked, hn]
    rfl
  obtain ⟨rest,hrest⟩ := linkedPath.dropLast_ancestors_cases.resolve_left (by decide)
  rw [makePrivateDirectories, makeDirectories_eq, hrest, run_makeAll_cons, hmake]

/-- The directory that the link leads to gets a private one. -/
theorem makePrivateDirectories_linked : linkedFiles.IsTree ∧ linkedPath.text ≠ "" ∧
    MadePrivately linkedPath linkedFiles
      (linkedFiles.put ["srv", "a"] (.directory 0o700)) (.ok ()) := by
  have ht : linkedFiles.IsTree := by decide
  have hp : linkedPath.text ≠ "" := by decide
  have hmade := makePrivateDirectories_made ht hp
  rw [run_linked] at hmade
  exact ⟨ht,hp,hmade⟩

end FileAction
end GitPublish
