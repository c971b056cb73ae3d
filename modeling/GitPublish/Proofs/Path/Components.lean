import GitPublish.Proofs.Path.Ancestors
import Mathlib.Data.List.Induction

/-!
# Paths by their components

Two paths with the same components are the same path, however they are written. The path above a
path has all its components but the last, and a name behind a path is one component more. So what is
put behind a path by its names is taken off again by as many steps, whatever idle steps the path is
written with.
-/
namespace GitPublish.Path
variable {p q : Path} {cs : List Char} {front back pieces : List (List Char)}

def componentsOf (pieces : List (List Char)) : List Component := pieces.filterMap component?

theorem components_eq (p : Path) : p.components = (start p.text.toList).1.components ++
    componentsOf (List.splitOn '/' (start p.text.toList).2) := rfl

theorem componentsOf_append (xs ys : List (List Char)) :
    componentsOf (xs ++ ys) = componentsOf xs ++ componentsOf ys := List.filterMap_append

theorem component?_eq_none {piece : List Char} : component? piece = none ↔ isIdle piece := by
  unfold component?
  split
  next h => simp [h]
  next h => split <;> simp [h]

theorem component?_ne_root (piece : List Char) : component? piece ≠ some .root := by
  unfold component?
  split
  · simp
  · split <;> simp

theorem component?_ne_current (piece : List Char) : component? piece ≠ some .current := by
  unfold component?
  split
  · simp
  · split <;> simp

theorem componentsOf_idle (h : ∀ piece ∈ pieces, isIdle piece) : componentsOf pieces = [] :=
  List.filterMap_eq_nil_iff.mpr fun piece hp => component?_eq_none.mpr (h piece hp)

theorem componentsOf_step {piece : List Char} (h : isIdle piece = false) :
    ∃ c, componentsOf [piece] = [c] := by
  have hne : component? piece ≠ none := mt component?_eq_none.mp (by simp [h])
  obtain ⟨c,hc⟩ := Option.ne_none_iff_exists'.mp hne
  exact ⟨c,by rw [componentsOf, List.filterMap_cons_some hc, List.filterMap_nil]⟩

/-! ## Where a path can be parted -/

theorem start_text (s : Start) : start s.text = (s, []) := by
  cases s <;> rfl

/-- A path that ends between two pieces starts as the path does that goes on. -/
theorem start_front (h : List.splitOn '/' (start cs).2 = front ++ back) :
    start ((start cs).1.text ++ ['/'].intercalate front) =
      ((start cs).1, ['/'].intercalate front) := by
  rcases List.eq_nil_or_concat front with rfl | ⟨init,last,rfl⟩
  · rw [List.intercalate_nil, List.append_nil, start_text]
  have hcs := start_text_append cs
  have hpieces : ['/'].intercalate (init.concat last ++ back) = (start cs).2 :=
    h ▸ List.intercalate_splitOn '/'
  rw [← hpieces] at hcs
  by_cases hb : back = []
  · rw [hb, List.append_nil] at hcs hpieces
    rw [hcs, hpieces]
  rw [Text.intercalate_append '/' (by simp) hb, ← List.append_assoc] at hcs
  by_cases hne : (start cs).1.text ++ ['/'].intercalate (init.concat last) = []
  · obtain ⟨hstart,hjoin⟩ := List.append_eq_nil_iff.mp hne
    rw [hne, hjoin]
    cases hs : (start cs).1 with
    | plain => rfl
    | root | current => rw [hs] at hstart; cases hstart
  -- what follows the front is split off by the rule for a slash behind a path
  have happ := start_append hne (['/'].intercalate back)
  rw [hcs] at happ
  have hbody := congrArg Prod.snd happ
  dsimp only at hbody
  rw [← hpieces, Text.intercalate_append '/' (by simp) hb] at hbody
  exact Prod.ext (congrArg Prod.fst happ).symm (List.append_cancel_right hbody).symm

/-- Joined pieces are had back, unless there are none: then there is an empty one. -/
theorem split_join_cases (h : ∀ piece ∈ front, '/' ∉ piece) :
    List.splitOn '/' (['/'].intercalate front) = front ∨
      front = [] ∧ List.splitOn '/' (['/'].intercalate front) = [[]] := by
  by_cases hf : front = []
  · exact .inr ⟨hf,by rw [hf]; rfl⟩
  · exact .inl (List.splitOn_intercalate '/' h hf)

theorem not_mem_of_split (h : List.splitOn '/' (start cs).2 = front ++ back) :
    ∀ piece ∈ front, '/' ∉ piece := fun _ hp =>
  Text.not_mem_of_mem_splitOn (h ▸ List.mem_append_left back hp)

theorem components_front (h : List.splitOn '/' (start cs).2 = front ++ back) :
    (⟨String.ofList ((start cs).1.text ++ ['/'].intercalate front)⟩ : Path).components =
      (start cs).1.components ++ componentsOf front := by
  rw [components_eq, String.toList_ofList, start_front h]
  dsimp only
  rcases split_join_cases (not_mem_of_split h) with hs | ⟨rfl,hs⟩
  · rw [hs]
  · rw [hs]
    rfl

theorem ancestors_front (h : List.splitOn '/' (start cs).2 = front ++ back) :
    (⟨String.ofList ((start cs).1.text ++ ['/'].intercalate front)⟩ : Path).ancestors =
      ⟨String.ofList ((start cs).1.text ++ ['/'].intercalate front)⟩ ::
        ((innerTails front.reverse).map fun pieces =>
          ⟨String.ofList ((start cs).1.text ++ ['/'].intercalate pieces.reverse)⟩) ++
          if (start cs).1 = .current then [⟨""⟩] else [] := by
  rw [ancestors_eq, String.toList_ofList, start_front h]
  dsimp only
  rcases split_join_cases (not_mem_of_split h) with hs | ⟨rfl,hs⟩
  · rw [hs]
  · rw [hs]
    rfl

/-! ## The path above -/

/-- The path above a path has all its components but the last. There is none above a root, and none
above a path without components. -/
inductive Parent (p : Path) : Option Path → Prop
  | some {q : Path} {c : Component} : p.ancestors = p :: q.ancestors →
      p.components = q.components ++ [c] → Parent p (some q)
  | none : p.ancestors = [p] → p.components = [] ∨ p.components = [.root] → Parent p none

/-- The pieces of a path are idle, or the last one that is not has pieces before it. -/
theorem idle_or_piece (pieces : List (List Char)) : (∀ piece ∈ pieces, isIdle piece) ∨
    ∃ idle piece rest, pieces = idle ++ piece :: rest ∧ (∀ x ∈ idle, isIdle x) ∧
      isIdle piece = false := by
  induction pieces with
  | nil => exact .inl nofun
  | cons first pieces ih =>
    cases hf : isIdle first with
    | false => exact .inr ⟨[],first,pieces,rfl,nofun,hf⟩
    | true =>
      rcases ih with h | ⟨idle,piece,rest,rfl,hidle,hp⟩
      · exact .inl (List.forall_mem_cons.mpr ⟨hf,h⟩)
      · exact .inr ⟨first :: idle,piece,rest,rfl,List.forall_mem_cons.mpr ⟨hf,hidle⟩,hp⟩

theorem parent?_of_ancestors (h : p.ancestors = p :: q.ancestors) : p.parent? = some q := by
  rw [parent?, h, ancestors_eq q]
  rfl

theorem parent_of_idle
    (h : ∀ piece ∈ (List.splitOn '/' (start p.text.toList).2).reverse, isIdle piece) :
    Parent p p.parent? := by
  have htails := innerTails_idle h []
  rw [List.append_nil] at htails
  have hsteps := componentsOf_idle fun piece hp => h piece (List.mem_reverse.mpr hp)
  have hp := ancestors_eq p
  rw [htails] at hp
  have hc := components_eq p
  rw [hsteps, List.append_nil] at hc
  cases hs : (start p.text.toList).1 <;> rw [hs] at hp hc
  case current =>
    rw [parent?_of_ancestors (q := ⟨""⟩) hp]
    exact .some hp hc
  case root | plain =>
    rw [parent?, hp]
    exact .none hp (by simp [hc, Start.components])

theorem parent_cases (p : Path) : Parent p p.parent? := by
  rcases idle_or_piece (List.splitOn '/' (start p.text.toList).2).reverse with
    h | ⟨idle,piece,rest,h,hidle,hpiece⟩
  · exact parent_of_idle h
  have hrest := List.takeWhile_append_dropWhile (p := isIdle) (l := rest)
  have hbetween : ∀ x ∈ rest.takeWhile isIdle, isIdle x :=
    List.all_eq_true.mp List.all_takeWhile
  have hsplit : List.splitOn '/' (start p.text.toList).2 = (rest.dropWhile isIdle).reverse ++
      ((rest.takeWhile isIdle).reverse ++ ([piece] ++ idle.reverse)) := by
    rw [← List.reverse_reverse (List.splitOn _ _), h]
    conv_lhs => rw [← hrest]
    simp only [List.reverse_append, List.reverse_cons, List.append_assoc]
  have htails : innerTails (List.splitOn '/' (start p.text.toList).2).reverse =
      rest.dropWhile isIdle :: innerTails (rest.dropWhile isIdle) := by
    have hskip := innerTails_idle hbetween (rest.dropWhile isIdle)
    rw [hrest] at hskip
    rw [h, innerTails_idle hidle, innerTails_cons hpiece, hskip]
  have hp : p.ancestors = p :: (⟨String.ofList ((start p.text.toList).1.text ++
      ['/'].intercalate (rest.dropWhile isIdle).reverse)⟩ : Path).ancestors := by
    rw [ancestors_front hsplit, ancestors_eq, htails, List.reverse_reverse]
    rfl
  obtain ⟨c,hc⟩ := componentsOf_step hpiece
  have hidle' := componentsOf_idle fun x hx => hidle x (List.mem_reverse.mp hx)
  have hbetween' := componentsOf_idle fun x hx => hbetween x (List.mem_reverse.mp hx)
  rw [parent?_of_ancestors hp]
  refine .some (c := c) hp ?_
  rw [components_front hsplit, components_eq, hsplit, componentsOf_append, componentsOf_append,
    componentsOf_append, hbetween', hidle', hc]
  simp

/-- As many steps above a path as it has components behind a front, the path has this front. -/
theorem exists_ancestor {front back : List Component} (h : p.components = front ++ back)
    (hroot : .root ∉ back) : ∃ q, p.ancestors[back.length]? = some q ∧ q.components = front := by
  induction back using List.reverseRecOn generalizing p with
  | nil => exact ⟨p,rfl,by rw [h, List.append_nil]⟩
  | append_singleton back last ih =>
    rw [← List.append_assoc] at h
    have hp := parent_cases p
    generalize p.parent? = parent at hp
    cases hp with
    | @some q c ha hc =>
      obtain ⟨hq,-⟩ := List.append_inj' (hc.symm.trans h) rfl
      obtain ⟨r,hr,hfront⟩ := ih hq fun hmem => hroot (List.mem_append_left _ hmem)
      refine ⟨r,?_,hfront⟩
      rw [ha, List.length_append, List.length_singleton, List.getElem?_cons_succ, hr]
    | none _ hc =>
      rcases hc with hc | hc <;> rw [hc] at h
      · simp at h
      · have h : [] ++ [.root] = front ++ back ++ [last] := h
        obtain ⟨-,hlast⟩ := List.append_inj' h rfl
        exact absurd (by simp [List.singleton_inj.mp hlast]) hroot

/-! ## Behind a path -/

theorem components_slash (hne : cs ≠ []) (rest : List Char) :
    (⟨String.ofList (cs ++ '/' :: rest)⟩ : Path).components =
      (⟨String.ofList cs⟩ : Path).components ++ componentsOf (List.splitOn '/' rest) := by
  rw [components_eq, components_eq, String.toList_ofList, String.toList_ofList,
    start_append hne, List.splitOn_append_cons_self, componentsOf_append, List.append_assoc]

/-- A slash at the end of a path is no component, unless it is all there is. -/
theorem components_slash_end (hne : cs ≠ []) :
    (⟨String.ofList (cs ++ ['/'])⟩ : Path).components =
      (⟨String.ofList cs⟩ : Path).components := by
  rw [components_slash hne]
  exact List.append_nil _

def slashed (p : Path) (n : Nat) : Path := ⟨p.text ++ String.ofList (List.replicate n '/')⟩

theorem toList_slashed (p : Path) (n : Nat) :
    (p.slashed n).text.toList = p.text.toList ++ List.replicate n '/' := by
  rw [slashed, String.toList_append, String.toList_ofList]

theorem components_slashed (hp : p.text ≠ "") (n : Nat) :
    (p.slashed n).components = p.components := by
  have htext (n : Nat) : p.slashed n =
      ⟨String.ofList (p.text.toList ++ List.replicate n '/')⟩ := by
    rw [← toList_slashed, String.ofList_toList]
  induction n with
  | zero => rw [htext, List.replicate_zero, List.append_nil, String.ofList_toList]
  | succ n ih =>
    have hne : p.text.toList ++ List.replicate n '/' ≠ [] :=
      List.append_ne_nil_of_left_ne_nil (mt String.toList_eq_nil_iff.mp hp) _
    rw [htext, List.replicate_succ', ← List.append_assoc, components_slash_end hne, ← htext, ih]

theorem utf8ByteSize_slashed (p : Path) (n : Nat) :
    (p.slashed n).text.utf8ByteSize = p.text.utf8ByteSize + n := by
  have hslashes : (String.ofList (List.replicate n '/')).utf8ByteSize = n := by
    have hslash : '/'.utf8Size = 1 := by decide
    rw [← String.size_toByteArray]
    simp [List.utf8Encode, hslash]
  rw [slashed, String.utf8ByteSize_append, hslashes]

/-- The components of a path behind its start: the names and the steps up. -/
def inner (p : Path) : List Component := p.components.filter fun c => c ≠ .root ∧ c ≠ .current

/-- A start stands for pieces that are no steps. -/
theorem componentsOf_start (cs : List Char) :
    componentsOf (List.splitOn '/' (start cs).2) = componentsOf (List.splitOn '/' cs) := by
  unfold start
  split
  next rest => rw [Text.splitOn_cons, if_pos rfl]; rfl
  next => rfl
  next rest =>
    rw [Text.splitOn_cons, if_pos rfl, Text.splitOn_cons, if_neg (by decide), Text.splitOn_cons,
      if_pos rfl]
    rfl
  next => rfl

theorem inner_eq (p : Path) : p.inner = componentsOf (List.splitOn '/' p.text.toList) := by
  have hstart : (start p.text.toList).1.components.filter
      (fun c => c ≠ .root ∧ c ≠ .current) = [] := by
    cases (start p.text.toList).1 <;> rfl
  rw [inner, components_eq, List.filter_append, hstart, List.nil_append, componentsOf_start]
  refine List.filter_eq_self.mpr fun c hc => decide_eq_true ?_
  obtain ⟨piece,-,hpiece⟩ := List.mem_filterMap.mp hc
  refine ⟨?_,?_⟩ <;> rintro rfl
  · exact component?_ne_root piece hpiece
  · exact component?_ne_current piece hpiece

/-- What stands behind a path adds what it has behind its start, unless it starts at the root. -/
theorem components_div_of_relative (hp : p.text ≠ "") (hq : q.isAbsolute = false) :
    (p / q).components = p.components ++ q.inner := by
  have hne : p.text.toList ≠ [] := mt String.toList_eq_nil_iff.mp hp
  change (p.join q).components = _
  unfold join
  rw [hq, Bool.false_or, if_neg (mt String.isEmpty_iff.mp hp), inner_eq]
  split
  next hslash =>
    obtain ⟨init,hinit⟩ := List.getLast?_eq_some_iff.mp hslash
    have hp' : p = ⟨String.ofList (init ++ ['/'])⟩ := by rw [← hinit, String.ofList_toList]
    have htext : p.text ++ q.text = String.ofList (init ++ '/' :: q.text.toList) :=
      String.toList_inj.mp (by simp [String.toList_append, hinit])
    rw [htext, hp']
    by_cases hi : init = []
    · rw [hi, components_eq, components_eq]
      simp only [String.toList_ofList, List.nil_append, start]
      rfl
    · rw [components_slash hi, components_slash_end hi]
  next =>
    have htext : p.text ++ "/" ++ q.text =
        String.ofList (p.text.toList ++ '/' :: q.text.toList) :=
      String.toList_inj.mp (by simp [String.toList_append])
    rw [htext, components_slash hne, String.ofList_toList]

/-- What stands behind a path adds its components, unless it has a start of its own. -/
theorem components_div (p : Path) (hq : start q.text.toList = (.plain, q.text.toList)) :
    (p / q).components = p.components ++ q.components := by
  have hqc : q.components = q.inner := by
    rw [inner_eq, components_eq, hq]
    rfl
  have habs : q.isAbsolute = false := by
    have hroot := mt (start_eq_root_iff q.text.toList).mpr (by rw [hq]; simp)
    simpa [isAbsolute] using hroot
  by_cases hp : p.text = ""
  · obtain rfl : p = ⟨""⟩ := by rw [← hp]
    have hself : (⟨""⟩ / q : Path) = q := if_pos (Bool.or_true _)
    rw [hself]
    rfl
  · rw [components_div_of_relative hp habs, hqc]

/-- A path has no pieces but idle ones if it starts with such a piece, or with nothing. -/
theorem eq_nil_of_idle (hs : (start cs).1 = .plain)
    (h : ∀ piece ∈ List.splitOn '/' cs, isIdle piece) : cs = [] := by
  obtain ⟨first,pieces,hsplit⟩ := List.exists_cons_of_ne_nil (List.splitOn_ne_nil '/' cs)
  have hcs : ['/'].intercalate (cs.splitOn '/') = cs := List.intercalate_splitOn '/'
  rw [hsplit] at h hcs
  have hfirst : first = [] ∨ first = ['.'] := by
    simpa [isIdle] using h first (List.mem_cons_self ..)
  -- a slash or a dot in front is a start of its own
  rcases hfirst with rfl | rfl <;> cases pieces <;> rw [← hcs] at hs ⊢
  case inl.nil => rfl
  all_goals cases hs

/-- Only the empty path has no components. -/
theorem components_ne_nil (h : p.text ≠ "") : p.components ≠ [] := by
  intro hnil
  rw [components_eq] at hnil
  obtain ⟨hstart,hsteps⟩ := List.append_eq_nil_iff.mp hnil
  have hplain : (start p.text.toList).1 = .plain := by
    cases hs : (start p.text.toList).1 with
    | plain => rfl
    | root | current => rw [hs] at hstart; cases hstart
  have hbody := start_text_append p.text.toList
  rw [hplain] at hbody
  refine h (String.toList_eq_nil_iff.mp (eq_nil_of_idle hplain fun piece hp => ?_))
  have hp' : piece ∈ List.splitOn '/' (start p.text.toList).2 := by rwa [← hbody] at hp
  exact component?_eq_none.mp (List.filterMap_eq_nil_iff.mp hsteps piece hp')

/-- A path above which there is none is the root. -/
theorem components_of_no_parent (hp : p.text ≠ "") (h : p.ancestors.dropLast = []) :
    p.components = [.root] := by
  have hparent := parent_cases p
  generalize p.parent? = parent at hparent
  cases hparent with
  | @some q _ ha _ =>
    rw [ha, List.dropLast_cons_of_ne_nil q.ancestors_ne_nil] at h
    cases h
  | none _ hc => exact hc.resolve_left (components_ne_nil hp)

/-- The root is written with slashes, and idle steps between them. -/
theorem eq_of_components_root (h : p.components = [.root]) :
    ∃ body, p.text.toList = '/' :: body ∧ ∀ piece ∈ List.splitOn '/' body, isIdle piece := by
  have htext := start_text_append p.text.toList
  rw [components_eq] at h
  generalize (start p.text.toList).2 = body at h htext
  cases hs : (start p.text.toList).1 with
  | root =>
    rw [hs] at h htext
    refine ⟨body,htext.symm,fun piece hp => ?_⟩
    have hnone := List.filterMap_eq_nil_iff.mp (List.cons.inj h).2
    exact component?_eq_none.mp (hnone piece hp)
  | current => rw [hs] at h; cases (List.cons.inj h).1
  | plain =>
    rw [hs] at h
    have hroot : Component.root ∈ componentsOf (List.splitOn '/' body) := by
      rw [show componentsOf _ = _ from h]
      exact List.mem_singleton_self _
    obtain ⟨piece,-,hpiece⟩ := List.mem_filterMap.mp hroot
    exact absurd hpiece (component?_ne_root piece)

end GitPublish.Path
