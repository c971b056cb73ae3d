import GitPublish.Proofs.FileSystem.Below
import GitPublish.Proofs.FileSystem.Entries
import GitPublish.Proofs.FileSystem.Listed

/-!
# Listing by reading directories

The files of a tree are found by reading one directory after the other, and the names in a directory
come in no particular order. Whatever the order, the files that are found and then sorted are those
that are listed: the files that are reached through directories alone and by no name of a
repository's own files, each once.
-/
namespace GitPublish.FileSystem
variable {fs fs' : FileSystem} {a way : Address} {name : String} {root : Path}

/-! ## The order of ways -/

theorem isBefore_trans (x y z : Address) (hxy : isBefore x y) (hyz : isBefore y z) :
    isBefore x z := by
  simp only [isBefore, Bool.not_eq_true', List.lex_eq_false_iff_ge] at hxy hyz ⊢
  exact List.le_trans hxy hyz

theorem isBefore_total (x y : Address) : isBefore x y || isBefore y x := by
  simp only [isBefore, Bool.or_eq_true, Bool.not_eq_true', List.lex_eq_false_iff_ge]
  exact List.le_total x y

theorem isBefore_antisymm {x y : Address} (hxy : isBefore x y) (hyx : isBefore y x) : x = y := by
  simp only [isBefore, Bool.not_eq_true', List.lex_eq_false_iff_ge] at hxy hyx
  exact List.le_antisymm hxy hyx

/-- Sorting leaves no trace of the order before. -/
theorem mergeSort_eq_of_perm {xs ys : List Address} (h : xs.Perm ys) :
    xs.mergeSort isBefore = ys.mergeSort isBefore := by
  have hsorted := List.pairwise_mergeSort isBefore_trans isBefore_total
  have hperm : (xs.mergeSort isBefore).Perm (ys.mergeSort isBefore) :=
    (List.mergeSort_perm xs _).trans (h.trans (List.mergeSort_perm ys _).symm)
  apply List.Perm.eq_of_pairwise _ (hsorted xs) (hsorted ys) hperm
  exact fun x y _ _ => isBefore_antisymm

/-- What is sorted and has nothing twice increases strictly. -/
theorem pairwise_lex_of_nodup {xs : List Address} (h : xs.Nodup) :
    (xs.mergeSort isBefore).Pairwise fun x y => List.lex x y := by
  have hnodup := (List.mergeSort_perm xs isBefore).nodup_iff.mpr h
  have hsorted := List.pairwise_mergeSort isBefore_trans isBefore_total xs
  apply hsorted.imp₂ _ hnodup
  intro x y hxy hne
  apply Decidable.byContradiction
  intro hlex
  have hyx : isBefore y x := by rwa [isBefore, Bool.not_eq_true', ← Bool.not_eq_true]
  exact hne (isBefore_antisymm hxy hyx)

/-! ## What is listed -/

/-- The way leads from `a` to a file, through directories alone and by no name of a repository's
own files. -/
structure IsListed (fs : FileSystem) (a way : Address) : Prop where
  ne_nil : way ≠ []
  file : ∃ mode content, fs.get? (a ++ way) = some (.file mode content)
  through : ∀ front name rest, way = front ++ name :: rest → fs.isDirectoryAt (a ++ front)
  plain : gitName ∉ way

theorem isReached_iff : fs.isReached a way ↔
    ∀ front name rest, way = front ++ name :: rest → fs.isDirectoryAt (a ++ front) := by
  induction way generalizing a with
  | nil => simp [isReached]
  | cons first way ih =>
    rw [isReached, Bool.and_eq_true, ih]
    constructor
    · rintro ⟨ha,hway⟩ front name rest h
      rcases List.cons_eq_append_iff.mp h with ⟨rfl,-⟩ | ⟨front,rfl,hrest⟩
      · rwa [List.append_nil]
      · rw [List.append_cons]
        exact hway front name rest hrest
    · intro h
      constructor
      · have ha := h [] first way rfl
        rwa [List.append_nil] at ha
      · intro front name rest hway
        rw [← List.append_cons]
        exact h (first :: front) name rest (by rw [hway, List.cons_append])

theorem mem_entries (ha : a ≠ []) {e : Entry} (h : fs.get? a = some e) : (a, e) ∈ fs.entries := by
  rcases (get?_ne_none_iff fs a).mp (by simp [h]) with hnil | ⟨⟨b,f⟩,hx,rfl⟩
  · exact absurd hnil ha
  · obtain rfl := Option.some.inj ((get?_of_mem hx).symm.trans h)
    exact hx

theorem mem_filesBelow : way ∈ fs.filesBelow a ↔ fs.IsListed a way := by
  rw [filesBelow, List.mem_mergeSort, unsortedFilesBelow, List.mem_filterMap]
  constructor
  · rintro ⟨⟨b,e⟩,hmem,h⟩
    obtain ⟨rfl,hne,hfile⟩ := of_listed (b := b) (e := e) h
    dsimp only at h
    rw [wayTo?_eq_some.mpr ⟨rfl,hne⟩] at h
    simp only [hfile, Bool.true_and, Bool.and_eq_true, Bool.not_eq_true', ite_eq_left_iff,
      reduceCtorEq, imp_false, Decidable.not_not] at h
    cases e with
    | file mode content =>
      refine ⟨hne,⟨mode,content,get?_of_mem hmem⟩,isReached_iff.mp h.2,?_⟩
      simpa using h.1
    | directory | link => cases hfile
  · rintro ⟨hne,⟨mode,content,hfile⟩,hthrough,hplain⟩
    refine ⟨(a ++ way, .file mode content),mem_entries (by simp [hne]) hfile,?_⟩
    dsimp only
    rw [wayTo?_eq_some.mpr ⟨rfl,hne⟩]
    simp [Entry.isFile, hplain, isReached_iff.mpr hthrough]

theorem isListed_cons : fs.IsListed a (name :: way) ↔ fs.isDirectoryAt a ∧ name ≠ gitName ∧
    ((way = [] ∧ ∃ mode content, fs.get? (a ++ [name]) = some (.file mode content)) ∨
      fs.IsListed (a ++ [name]) way) := by
  constructor
  · rintro ⟨-,hfile,hthrough,hplain⟩
    obtain ⟨ha,hway⟩ := Bool.and_eq_true .. ▸ isReached_iff.mpr hthrough
    obtain ⟨hname,hrest⟩ := not_or.mp (mt List.mem_cons.mpr hplain)
    refine ⟨ha,Ne.symm hname,?_⟩
    cases way with
    | nil => exact .inl ⟨rfl,hfile⟩
    | cons next way =>
      rw [List.append_cons] at hfile
      exact .inr ⟨by simp,hfile,isReached_iff.mp hway,hrest⟩
  · rintro ⟨ha,hname,⟨rfl,hfile⟩ | ⟨-,hfile,hthrough,hplain⟩⟩
    · refine ⟨by simp,hfile,isReached_iff.mp ?_,by simpa using hname.symm⟩
      rw [isReached, ha]
      rfl
    · rw [← List.append_cons] at hfile
      refine ⟨by simp,hfile,isReached_iff.mp ?_,by simp [hname.symm, hplain]⟩
      rw [isReached, ha, isReached_iff.mpr hthrough]
      rfl

theorem IsListed.isDirectoryAt (h : fs.IsListed a way) : fs.isDirectoryAt a := by
  obtain ⟨name,way,rfl⟩ := List.exists_cons_of_ne_nil h.ne_nil
  exact (isListed_cons.mp h).1

/-! ## Reading one directory after the other -/

/-- An order in which directories are read. Each name comes once. -/
structure ReadOrder (fs : FileSystem) where
  names : Address → List String
  mem_names : ∀ a name, name ∈ names a ↔ fs.get? (a ++ [name]) ≠ none
  nodup_names : ∀ a, (names a).Nodup

/-- The order in which entries are stored. -/
def stored (fs : FileSystem) : ReadOrder fs where
  names a := fs.entries.filterMap fun x =>
    if x.1.dropLast = a && x.1 ≠ [] then x.1.getLast? else none
  mem_names := fs.mem_namesAt
  nodup_names a := by
    rw [List.Nodup, List.pairwise_filterMap]
    refine (List.pairwise_map.mp fs.nodup).imp fun {x y} hne n hx m hy => ?_
    rintro rfl
    exact hne ((eq_of_nameAt hx).trans (eq_of_nameAt hy).symm)

/-- The length of the longest address that is stored. -/
def height (fs : FileSystem) : Nat := ((fs.entries.map (·.1.length)).max?).getD 0

theorem length_le_height (h : fs.get? a ≠ none) : a.length ≤ fs.height := by
  rcases (get?_ne_none_iff fs a).mp h with rfl | ⟨x,hx,rfl⟩
  · exact Nat.zero_le _
  · exact List.le_max?_getD_of_mem (List.mem_map.mpr ⟨x,hx,rfl⟩)

/-- The files that are found below an address, in the order in which directories are read. -/
def explore (r : ReadOrder fs) (a : Address) : List Address :=
  (r.names a).flatMap fun name =>
    if name = gitName then []
    else
      match _h : fs.get? (a ++ [name]) with
      | some (.file ..) => [[name]]
      | some (.directory _) => (explore r (a ++ [name])).map (name :: ·)
      | _ => []
termination_by fs.height - a.length
decreasing_by
  have hlength : (a ++ [name]).length ≤ fs.height := length_le_height (by simp [_h])
  rw [List.length_append, List.length_singleton] at hlength ⊢
  omega

variable {r : ReadOrder fs}

/-- What is found below an address starts with a name there. -/
theorem mem_explore_iff : way ∈ explore r a ↔ ∃ name rest, way = name :: rest ∧ name ≠ gitName ∧
    ((rest = [] ∧ ∃ mode content, fs.get? (a ++ [name]) = some (.file mode content)) ∨
      fs.isDirectoryAt (a ++ [name]) ∧ rest ∈ explore r (a ++ [name])) := by
  rw [explore, List.mem_flatMap]
  constructor
  · rintro ⟨name,-,h⟩
    split at h
    · cases h
    next hgit =>
      split at h
      next mode content hfile =>
        exact ⟨name,[],List.mem_singleton.mp h,hgit,.inl ⟨rfl,mode,content,hfile⟩⟩
      next mode hdir =>
        obtain ⟨rest,hrest,rfl⟩ := List.mem_map.mp h
        exact ⟨name,rest,rfl,hgit,.inr ⟨isDirectoryAt_iff.mpr ⟨mode,hdir⟩,hrest⟩⟩
      · cases h
  · rintro ⟨name,rest,rfl,hgit,⟨rfl,mode,content,hfile⟩ | ⟨hdir,hrest⟩⟩
    · refine ⟨name,(r.mem_names a name).mpr (by simp [hfile]),?_⟩
      rw [if_neg hgit]
      split <;> simp_all
    · obtain ⟨mode,hmode⟩ := isDirectoryAt_iff.mp hdir
      refine ⟨name,(r.mem_names a name).mpr (by simp [hmode]),?_⟩
      rw [if_neg hgit]
      split <;> simp_all

theorem mem_explore (hd : fs.isDirectoryAt a) : way ∈ explore r a ↔ fs.IsListed a way := by
  induction way generalizing a with
  | nil =>
    refine iff_of_false (fun h => ?_) fun h => h.ne_nil rfl
    obtain ⟨name,rest,hnil,-⟩ := mem_explore_iff.mp h
    cases hnil
  | cons name way ih =>
    rw [mem_explore_iff, isListed_cons]
    constructor
    · rintro ⟨_,_,heq,hgit,hcase⟩
      obtain ⟨rfl,rfl⟩ := List.cons.inj heq
      exact ⟨hd,hgit,hcase.imp_right fun ⟨hdir,hway⟩ => (ih hdir).mp hway⟩
    · rintro ⟨-,hgit,hcase⟩
      refine ⟨name,way,rfl,hgit,hcase.imp_right fun hway => ?_⟩
      have hdir := hway.isDirectoryAt
      exact ⟨hdir,(ih hdir).mpr hway⟩

/-- What is found under different names differs in its first name. -/
theorem pairwise_ne_of_head? {names : List String} {found : String → List Address}
    (hn : names.Nodup) (hfound : ∀ name, ∀ way ∈ found name, way.head? = some name) :
    names.Pairwise fun m n => ∀ x ∈ found m, ∀ y ∈ found n, x ≠ y := by
  refine hn.imp fun {m n} hne x hx y hy hxy => hne ?_
  rw [← Option.some_inj, ← hfound m x hx, ← hfound n y hy, hxy]

theorem nodup_explore (r : ReadOrder fs) (a : Address) : (explore r a).Nodup := by
  fun_induction explore r a with
  | case1 a ih =>
    rw [List.Nodup, List.pairwise_flatMap]
    constructor
    · intro name hname
      split
      · exact List.Pairwise.nil
      next hgit =>
        split
        · exact List.pairwise_singleton ..
        next mode hdir =>
          exact List.Pairwise.map _ (fun x y hne h => hne (List.cons.inj h).2) (ih name mode hdir)
        · exact List.Pairwise.nil
    · apply pairwise_ne_of_head? (r.nodup_names a)
      intro name way hway
      split at hway
      · cases hway
      · split at hway
        · rw [List.mem_singleton.mp hway]
          rfl
        · obtain ⟨rest,-,rfl⟩ := List.mem_map.mp hway
          rfl
        · cases hway

/-- Files that are listed are sorted in one way. -/
theorem mergeSort_eq_filesBelow {ways : List Address} (hn : ways.Nodup)
    (hmem : ∀ way, way ∈ ways ↔ fs.IsListed a way) :
    ways.mergeSort isBefore = fs.filesBelow a := by
  have hnodup := (List.mergeSort_perm _ isBefore).nodup_iff.mp (nodup_filesBelow fs a)
  apply mergeSort_eq_of_perm
  refine (List.perm_ext_iff_of_nodup hn hnodup).mpr fun way => ?_
  rw [hmem, ← mem_filesBelow, filesBelow, List.mem_mergeSort]

/-! ## The listing -/

theorem start_eq_plain {cs piece : List Char} {pieces : List (List Char)}
    (hs : List.splitOn '/' cs = piece :: pieces) (h : Path.isIdle piece = false) :
    Path.start cs = (.plain, cs) := by
  unfold Path.start
  split
  case h_4 => rfl
  -- the first piece is empty or a dot, and so idle
  all_goals
    rw [← (List.cons.inj hs).1] at h
    cases h

theorem filterMap_component? (h : ∀ name ∈ way, IsName name) :
    (way.map String.toList).filterMap Path.component? = way.map fun name => .name name.toList := by
  induction way with
  | nil => rfl
  | cons name rest ih =>
    obtain ⟨hidle,hup⟩ := isIdle_of_isName (h name (List.mem_cons_self ..))
    have hname : Path.component? name.toList = some (.name name.toList) := by
      rw [Path.component?, hidle, if_neg Bool.false_ne_true, if_neg hup]
    rw [List.map_cons, List.filterMap_cons_some hname, List.map_cons,
      ih fun name hn => h name (List.mem_cons_of_mem _ hn)]

theorem components_pathOf (hne : way ≠ []) (h : ∀ name ∈ way, IsName name) :
    (pathOf way).components = way.map fun name => .name name.toList := by
  have hsplit := split_pathOf hne h
  have hstart : Path.start (pathOf way).text.toList = (.plain, (pathOf way).text.toList) := by
    obtain ⟨name,rest,rfl⟩ := List.exists_cons_of_ne_nil hne
    exact start_eq_plain hsplit (isIdle_of_isName (h name (List.mem_cons_self ..))).1
  rw [Path.components, hstart]
  dsimp only [Path.Start.components]
  rw [List.nil_append, hsplit, filterMap_component? h]

theorem IsListed.ne_link (h : fs.IsListed a way) {front : Address} (hf : front <+: way)
    (target : String) : fs.get? (a ++ front) ≠ some (.link target) := by
  obtain ⟨rest,rfl⟩ := hf
  cases rest with
  | nil =>
    obtain ⟨mode,content,hfile⟩ := h.file
    rw [List.append_nil] at hfile
    simp [hfile]
  | cons name rest => exact ne_link_of_isDirectoryAt (h.through front name rest rfl) target

/-- What is found does not depend on the order in which entries are stored. -/
theorem get?_of_perm (h : fs'.entries.Perm fs.entries) (b : Address) : fs'.get? b = fs.get? b := by
  by_cases hb : ∃ e, (b, e) ∈ fs.entries
  · obtain ⟨e,he⟩ := hb
    rw [get?_of_mem he, get?_of_mem (h.mem_iff.mpr he)]
  · have hnone : fs.entries.lookup b = none :=
      List.lookup_eq_none_iff.mpr fun x hx => by
        rw [bne_iff_ne]
        rintro rfl
        exact hb ⟨x.2,hx⟩
    have hnone' : fs'.entries.lookup b = none :=
      List.lookup_eq_none_iff.mpr fun x hx =>
        List.lookup_eq_none_iff.mp hnone x (h.mem_iff.mp hx)
    rw [get?, get?, hnone, hnone']

theorem isListed_of_perm (h : fs'.entries.Perm fs.entries) :
    fs'.IsListed a way ↔ fs.IsListed a way := by
  have hget := get?_of_perm h
  have hdir : ∀ b, fs'.isDirectoryAt b = fs.isDirectoryAt b := fun b => by
    rw [isDirectoryAt, isDirectoryAt, hget]
  constructor
  · rintro ⟨hne,hfile,hthrough,hplain⟩
    simp only [hget] at hfile
    exact ⟨hne,hfile,fun front name rest h => hdir _ ▸ hthrough front name rest h,hplain⟩
  · rintro ⟨hne,hfile,hthrough,hplain⟩
    simp only [← hget] at hfile
    exact ⟨hne,hfile,fun front name rest h => hdir _ ▸ hthrough front name rest h,hplain⟩

theorem filesBelow_congr (h : ∀ way, fs'.IsListed a way ↔ fs.IsListed a way) :
    fs'.filesBelow a = fs.filesBelow a := by
  have hnodup := (List.mergeSort_perm _ isBefore).nodup_iff.mp (nodup_filesBelow fs' a)
  refine mergeSort_eq_filesBelow hnodup fun way => ?_
  rw [← h, ← mem_filesBelow, filesBelow, List.mem_mergeSort]

theorem listFiles_of_perm (h : fs'.entries.Perm fs.entries) (hc : fs'.current = fs.current)
    (hl : fs.locate true root = .ok a) (hd : fs.isDirectoryAt a) :
    fs'.listFiles root = .ok ((fs.filesBelow a).map pathOf) := by
  have hkeeps : fs.Keeps fs' := ⟨hc,fun b e hb => by
    rw [get?_of_perm h, hb]
    exact e.keptAs_self⟩
  have hd' := hkeeps.isDirectoryAt hd
  have hl' := locate_of_keeps hkeeps (.inr (ne_link_of_isDirectoryAt hd')) hl
  rw [listFiles_of_directory hl' hd', filesBelow_congr fun _ => isListed_of_perm h]

structure Lists (fs : FileSystem) (a : Address) (ways : List Address) : Prop where
  mem : ∀ way, way ∈ ways ↔ fs.IsListed a way
  increasing : ways.Pairwise fun x y => List.lex x y
  components : ∀ way ∈ ways, (pathOf way).components = way.map fun name => .name name.toList
  no_link : ∀ way ∈ ways, ∀ front, front <+: way →
    ∀ target, fs.get? (a ++ front) ≠ some (.link target)
  -- sorting makes up for the order in which directories are read
  explored : ∀ r : ReadOrder fs, (explore r a).mergeSort isBefore = ways

theorem lists_filesBelow (hn : fs.IsNamed) (hd : fs.isDirectoryAt a) :
    fs.Lists a (fs.filesBelow a) where
  mem _ := mem_filesBelow
  increasing :=
    pairwise_lex_of_nodup ((List.mergeSort_perm _ isBefore).nodup_iff.mp (nodup_filesBelow fs a))
  components _ hway :=
    components_pathOf (mem_filesBelow.mp hway).ne_nil (isName_of_mem_filesBelow hn hway)
  no_link _ hway _ hfront target := (mem_filesBelow.mp hway).ne_link hfront target
  explored r := mergeSort_eq_filesBelow (nodup_explore r a) fun _ => mem_explore hd

/-- The files of a directory are listed as they are found, in whatever order directories are read
and entries are stored. -/
theorem listFiles_lists (hn : fs.IsNamed) (hl : fs.locate true root = .ok a)
    (hd : fs.isDirectoryAt a) :
    ∃ ways, fs.listFiles root = .ok (ways.map pathOf) ∧ fs.Lists a ways ∧
      ∀ fs' : FileSystem, fs'.entries.Perm fs.entries → fs'.current = fs.current →
        fs'.listFiles root = .ok (ways.map pathOf) :=
  ⟨fs.filesBelow a,listFiles_of_directory hl hd,lists_filesBelow hn hd,
    fun _ h hc => listFiles_of_perm h hc hl hd⟩

/-- A tree that is itself called as a repository's own files are, with such names in it, links, and
names that sort otherwise as texts than as components. -/
def gitTree : FileSystem where
  entries := [(["srv"], .directory 0o755), (["srv", ".git"], .directory 0o755),
    (["srv", ".git", "a-b"], .file 0o644 .empty), (["srv", ".git", "up"], .link "/srv"),
    (["srv", ".git", "a"], .directory 0o755), (["srv", ".git", "a", ".git"], .file 0o644 .empty),
    (["srv", ".git", "a", "b"], .file 0o644 .empty), (["srv", ".git", "page"], .link "a-b"),
    (["srv", ".git", ".git"], .directory 0o755),
    (["srv", ".git", ".git", "HEAD"], .file 0o644 .empty)]
  current := []
  nodup := by decide

theorem gitTree_lists : gitTree.listFiles ⟨"/srv/.git"⟩ = .ok [⟨"a/b"⟩, ⟨"a-b"⟩] ∧
    ∃ ways, gitTree.listFiles ⟨"/srv/.git"⟩ = .ok (ways.map pathOf) ∧
      gitTree.Lists ["srv", ".git"] ways ∧
      (explore (stored gitTree) ["srv", ".git"]).mergeSort isBefore = ways := by
  have hn : gitTree.IsNamed := by
    unfold IsNamed IsName
    decide
  have hl : gitTree.locate true ⟨"/srv/.git"⟩ = .ok ["srv", ".git"] :=
    locate_directory (by decide) (by decide) (by decide) (by decide) (by decide)
  have hd : gitTree.isDirectoryAt ["srv", ".git"] := by decide
  constructor
  · have hbelow : gitTree.unsortedFilesBelow ["srv", ".git"] = [["a-b"], ["a", "b"]] := by decide
    have hsorted : [["a", "b"], ["a-b"]].Pairwise fun a b => isBefore a b := by decide
    have hpaths : [["a", "b"], ["a-b"]].map pathOf = [⟨"a/b"⟩, ⟨"a-b"⟩] := by decide
    rw [listFiles_of_directory hl hd, filesBelow, hbelow, mergeSort_eq_of_perm (.swap ..),
      List.mergeSort_of_pairwise hsorted, hpaths]
  · obtain ⟨ways,hways,hlists,-⟩ := listFiles_lists hn hl hd
    exact ⟨ways,hways,hlists,hlists.explored (stored gitTree)⟩

end GitPublish.FileSystem
