import GitPublish.FileSystem.Listing
import GitPublish.Proofs.FileSystem.Listing
import GitPublish.Proofs.FileSystem.Onward

/-!
# Which files are listed

The files of a tree are listed once each, by the names that lead to them. None of them lies below
another.
-/
namespace GitPublish.FileSystem
variable {fs : FileSystem} {a b way way' : Address} {e : Entry} {root : Path} {files : List Path}

theorem get?_of_mem (h : (b, e) ∈ fs.entries) : fs.get? b = some e := by
  have hlookup {l : List (Address × Entry)} (hl : (l.map Prod.fst).Nodup) (h : (b, e) ∈ l) :
      l.lookup b = some e := by
    induction l with
    | nil => cases h
    | cons x l ih =>
      obtain ⟨c,f⟩ := x
      rw [List.map_cons, List.nodup_cons] at hl
      rcases List.mem_cons.mp h with heq | hmem
      · cases heq
        exact List.lookup_cons_self
      · have hne : (b == c) = false := by
          refine beq_false_of_ne ?_
          rintro rfl
          exact hl.1 (List.mem_map.mpr ⟨_,hmem,rfl⟩)
        rw [List.lookup_cons, hne]
        exact ih hl.2 hmem
  rw [get?, hlookup fs.nodup h]

theorem wayTo?_eq_some : wayTo? a b = some way ↔ b = a ++ way ∧ way ≠ [] := by
  unfold wayTo?
  constructor
  · intro h
    split at h
    next hbelow =>
      obtain ⟨⟨rest,rfl⟩,hne⟩ : a <+: b ∧ a ≠ b := by simpa using hbelow
      rw [List.drop_left] at h
      obtain rfl := Option.some.inj h
      exact ⟨rfl,fun hn => hne (by simp [hn])⟩
    next => cases h
  · rintro ⟨rfl,hne⟩
    simp [hne]

/-- What is listed of a stored entry is the way to it, if it is a file. -/
theorem of_listed (h : (match wayTo? a b with
    | some way =>
      if e.isFile && !way.contains gitName && fs.isReached a way then some way else none
    | none => none) = some way) : b = a ++ way ∧ way ≠ [] ∧ e.isFile := by
  split at h
  next found hway =>
    split at h
    next hfile =>
      obtain rfl := Option.some.inj h
      obtain ⟨hx,hne⟩ := wayTo?_eq_some.mp hway
      rw [Bool.and_eq_true, Bool.and_eq_true] at hfile
      exact ⟨hx,hne,hfile.1.1⟩
    next => cases h
  next => cases h

/-- A listed file is found at the end of its way. -/
theorem exists_of_mem_filesBelow (h : way ∈ fs.filesBelow a) :
    way ≠ [] ∧ ∃ mode content, (a ++ way, Entry.file mode content) ∈ fs.entries := by
  obtain ⟨⟨b,e⟩,hb,hx⟩ := List.mem_filterMap.mp (List.mem_mergeSort.mp h)
  obtain ⟨rfl,hne,hfile⟩ := of_listed (b := b) (e := e) hx
  cases e with
  | file mode content => exact ⟨hne,mode,content,hb⟩
  | directory | link => cases hfile

theorem nodup_filesBelow (fs : FileSystem) (a : Address) : (fs.filesBelow a).Nodup := by
  rw [filesBelow, (List.mergeSort_perm _ _).nodup_iff, unsortedFilesBelow, List.Nodup,
    List.pairwise_filterMap]
  refine (List.pairwise_map.mp fs.nodup).imp fun {x y} hne way hx way' hy => ?_
  rintro rfl
  have hxa := (of_listed (b := x.1) (e := x.2) hx).1
  have hya := (of_listed (b := y.1) (e := y.2) hy).1
  exact hne (hxa.trans hya.symm)

/-- No listed file lies below another. -/
theorem eq_of_above (ht : fs.IsTree) (h : way ∈ fs.filesBelow a) (h' : way' ∈ fs.filesBelow a)
    (hp : way <+: way') : way = way' := by
  obtain ⟨-,mode,content,hmem⟩ := exists_of_mem_filesBelow h
  obtain ⟨-,mode',content',hmem'⟩ := exists_of_mem_filesBelow h'
  obtain ⟨rest,rfl⟩ := hp
  cases rest with
  | nil => rw [List.append_nil]
  | cons name rest =>
    have hbelow : fs.get? (a ++ way ++ [name]) ≠ none := by
      refine ht.above (b := a ++ (way ++ name :: rest)) (by simp [get?_of_mem hmem']) ⟨rest,?_⟩
      simp
    obtain ⟨mode,hd⟩ := isDirectoryAt_iff.mp (ht.parent _ name hbelow)
    rw [get?_of_mem hmem] at hd
    cases hd

theorem isName_of_mem_filesBelow (hn : fs.IsNamed) (h : way ∈ fs.filesBelow a) :
    ∀ name ∈ way, IsName name := by
  obtain ⟨-,mode,content,hmem⟩ := exists_of_mem_filesBelow h
  exact fun name hname => hn _ hmem name (List.mem_append_right a hname)

/-! ## Ways as paths -/

theorem split_pathOf (hne : way ≠ []) (h : ∀ name ∈ way, IsName name) :
    List.splitOn '/' (pathOf way).text.toList = way.map String.toList := by
  have htext : (pathOf way).text.toList = ['/'].intercalate (way.map String.toList) :=
    String.toList_intercalate
  have hslash : ∀ piece ∈ way.map String.toList, '/' ∉ piece := by
    intro piece hp
    obtain ⟨name,hname,rfl⟩ := List.mem_map.mp hp
    exact (h name hname).2.2.2
  rw [htext, List.splitOn_intercalate '/' hslash (by simpa using hne)]

/-- The piece of a path that a name is stands for that name. -/
theorem isIdle_of_isName {name : String} (h : IsName name) :
    Path.isIdle name.toList = false ∧ name.toList ≠ ['.', '.'] := by
  obtain ⟨hempty,hdot,hup,-⟩ := h
  have hpiece {s : String} (hs : name ≠ s) : name.toList ≠ s.toList :=
    fun h => hs (String.toList_inj.mp h)
  have hnil : name.toList ≠ [] := hpiece (s := "") hempty
  have hone : name.toList ≠ ['.'] := hpiece (s := ".") hdot
  exact ⟨by simp [Path.isIdle, hnil, hone],hpiece (s := "..") hup⟩

theorem ofText_pathOf (hne : way ≠ []) (h : ∀ name ∈ way, IsName name) :
    Step.ofText (pathOf way).text = way.map Step.enter := by
  rw [Step.ofText, split_pathOf hne h, List.map_map]
  refine List.map_congr_left fun name hname => ?_
  obtain ⟨hidle,htwo⟩ := isIdle_of_isName (h name hname)
  rw [Function.comp_apply, Step.ofPiece, hidle, if_neg Bool.false_ne_true, if_neg htwo,
    String.ofList_toList]

theorem foldl_enter (here : Address) (way : Address) :
    (way.map Step.enter).foldl Step.follow here = here ++ way := by
  induction way generalizing here with
  | nil => simp
  | cons name way ih => rw [List.map_cons, List.foldl_cons, ih, Step.follow, List.append_assoc]; rfl

/-- A directory is listed by the files below it. -/
theorem listFiles_of_directory (hl : fs.locate true root = .ok a) (hd : fs.isDirectoryAt a) :
    fs.listFiles root = .ok ((fs.filesBelow a).map pathOf) := by
  obtain ⟨mode,hmode⟩ := isDirectoryAt_iff.mp hd
  have hfollowed : fs.find true root = .ok (a, .directory mode) := find_eq_ok.mpr ⟨hl,hmode⟩
  obtain ⟨b,hb,rfl | ⟨target,hlink⟩⟩ := locate_unfollowed hl
  · rw [listFiles, find_eq_ok.mpr ⟨hb,hmode⟩]
  · rw [listFiles, find_eq_ok.mpr ⟨hb,hlink⟩]
    dsimp only
    rw [hfollowed]

end GitPublish.FileSystem
