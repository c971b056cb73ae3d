import GitPublish.Proofs.Path

/-!
# The paths above a path

A path that ends in a name has a path above it, which is found by taking steps away from its end:
the name itself, and the idle steps before it. The paths above that one are the others.
-/
namespace GitPublish

namespace Path
variable {p q : Path} {xs ys : List Step} {step last : Step} {k : Nat}

theorem ofPiece_eq_stay {piece : List Char} : Step.ofPiece piece = .stay ↔ isIdle piece := by
  unfold Step.ofPiece
  split
  next h => simp [h]
  next h => split <;> simp [h]

/-- The steps of a path can be parted wherever there is one on either side. -/
theorem exists_of_ofText_append {text : String} (h : Step.ofText text = xs ++ ys) (hx : xs ≠ [])
    (hy : ys ≠ []) : ∃ front back : String, text.toList = front.toList ++ '/' :: back.toList ∧
      Step.ofText front = xs ∧ Step.ofText back = ys := by
  obtain ⟨ps,qs,hs,rfl,rfl⟩ := List.map_eq_append_iff.mp h
  have hne {f : List Char → Step} {l : List (List Char)} (h : l.map f ≠ []) : l ≠ [] :=
    fun hn => h (by rw [hn]; rfl)
  have hmem (piece : List Char) (hp : piece ∈ ps ++ qs) : '/' ∉ piece :=
    Text.not_mem_of_mem_splitOn (hs ▸ hp)
  refine ⟨String.ofList (['/'].intercalate ps),String.ofList (['/'].intercalate qs),?_,?_,?_⟩
  · rw [String.toList_ofList, String.toList_ofList,
      ← Text.intercalate_append '/' (hne hx) (hne hy), ← hs, List.intercalate_splitOn]
  · rw [Step.ofText, String.toList_ofList, List.splitOn_intercalate '/'
      (fun piece hp => hmem piece (List.mem_append_left _ hp)) (hne hx)]
  · rw [Step.ofText, String.toList_ofList, List.splitOn_intercalate '/'
      (fun piece hp => hmem piece (List.mem_append_right _ hp)) (hne hy)]

/-- The step that a start adds to those of the text behind it. -/
def Start.steps : Start → List Step
  | root => [.stay]
  | current | plain => []

theorem ofText_start (text : String) : Step.ofText text =
    (start text.toList).1.steps ++
      (List.splitOn '/' (start text.toList).2).map Step.ofPiece := by
  unfold Step.ofText
  generalize text.toList = cs
  unfold start
  split
  next rest => rw [Text.splitOn_cons, if_pos rfl]; rfl
  next => rfl
  next rest =>
    rw [Text.splitOn_cons, if_neg (by decide), Text.splitOn_cons, if_pos rfl]
    rfl
  next => rfl

theorem start_eq_root_iff (cs : List Char) : (start cs).1 = .root ↔ cs.head? = some '/' := by
  unfold start
  split
  next => simp
  next => simp
  next => simp
  next hroot _ _ =>
    cases cs with
    | nil => simp
    | cons c cs =>
      have hc : c ≠ '/' := fun h => hroot cs (h ▸ rfl)
      simp [hc]

theorem innerTails_idle {pieces : List (List Char)} (h : ∀ piece ∈ pieces, isIdle piece)
    (rest : List (List Char)) : innerTails (pieces ++ rest) = innerTails rest := by
  induction pieces with
  | nil => rfl
  | cons piece pieces ih =>
    obtain ⟨hp,hps⟩ := List.forall_mem_cons.mp h
    rw [List.cons_append, innerTails, if_pos hp, ih hps]

theorem dropWhile_idle {pieces : List (List Char)} (h : ∀ piece ∈ pieces, isIdle piece)
    (rest : List (List Char)) :
    (pieces ++ rest).dropWhile isIdle = rest.dropWhile isIdle := by
  rw [List.dropWhile_append_of_pos h]

/-- The steps of a text end in a step that is none, and idle ones before it. -/
theorem pieces_of_steps {pieces : List (List Char)} (hs : step ≠ .stay)
    (h : pieces.map Step.ofPiece = List.replicate k .stay ++ [step]) :
    ∃ idle piece, pieces = idle ++ [piece] ∧ (∀ x ∈ idle, isIdle x) ∧ isIdle piece = false := by
  obtain ⟨idle,last,rfl,hidle,hlast⟩ := List.map_eq_append_iff.mp h
  obtain ⟨piece,rfl,rfl⟩ := List.map_eq_singleton_iff.mp hlast
  refine ⟨idle,piece,rfl,fun x hx => ofPiece_eq_stay.mp ?_,?_⟩
  · have hmem := List.mem_map_of_mem (f := Step.ofPiece) hx
    rw [hidle] at hmem
    exact List.eq_of_mem_replicate hmem
  · rw [← Bool.not_eq_true, ← ofPiece_eq_stay]
    exact hs

/-- The empty text has an idle step only. -/
theorem text_ne_of_step {text : String} (h : Step.ofText text = xs ++ [step]) (hs : step ≠ .stay) :
    text.toList ≠ [] := by
  intro hn
  have hstay : [] ++ [.stay] = xs ++ [step] := by rw [← h, Step.ofText, hn]; rfl
  obtain ⟨-,hlast⟩ := List.append_inj' hstay rfl
  exact hs (List.singleton_inj.mp hlast).symm

/-- The last piece of a text whose last step is no idle one. -/
theorem exists_last_piece {text : String} (h : Step.ofText text = xs ++ [step])
    (hs : step ≠ .stay) : ∃ init piece, List.splitOn '/' (start text.toList).2 = init ++ [piece] ∧
      isIdle piece = false := by
  rw [ofText_start] at h
  rcases List.eq_nil_or_concat (List.splitOn '/' (start text.toList).2) with hn | ⟨init,last,hl⟩
  · exact absurd hn (List.splitOn_ne_nil _ _)
  · rw [List.concat_eq_append] at hl
    rw [hl, List.map_append, List.map_singleton, ← List.append_assoc] at h
    obtain ⟨-,hlast⟩ := List.append_inj' h rfl
    refine ⟨init,last,hl,?_⟩
    rw [← Bool.not_eq_true, ← ofPiece_eq_stay, List.singleton_inj.mp hlast]
    exact hs

theorem ancestors_eq (p : Path) : p.ancestors =
    p :: ((innerTails (List.splitOn '/' (start p.text.toList).2).reverse).map fun pieces =>
      ⟨String.ofList ((start p.text.toList).1.text ++ ['/'].intercalate pieces.reverse)⟩) ++
      if (start p.text.toList).1 = .current then [⟨""⟩] else [] := rfl

/-- Where a path goes on from one above it by one step, what is above it is that path and what is
above that. -/
theorem ancestors_of_append {back : String}
    (ht : p.text.toList = q.text.toList ++ '/' :: back.toList)
    (hq : Step.ofText q.text = xs ++ [step]) (hstep : step ≠ .stay)
    (hb : Step.ofText back = List.replicate k .stay ++ [last]) (hlast : last ≠ .stay) :
    p.ancestors = p :: q.ancestors := by
  have hne := text_ne_of_step hq hstep
  obtain ⟨idle,piece,hsplit,hidle,hpiece⟩ := pieces_of_steps hlast hb
  obtain ⟨init,inner,hend,hl⟩ := exists_last_piece hq hstep
  have hrev : (List.splitOn '/' ((start q.text.toList).2 ++ '/' :: back.toList)).reverse =
      piece :: (idle.reverse ++ (inner :: init.reverse)) := by
    rw [List.splitOn_append_cons_self, hsplit, hend]
    simp
  have hidle : ∀ x ∈ idle.reverse, isIdle x := fun x hx => hidle x (List.mem_reverse.mp hx)
  have hself : (⟨String.ofList ((start q.text.toList).1.text ++
      ['/'].intercalate (inner :: init.reverse).reverse)⟩ : Path) = q := by
    rw [List.reverse_cons, List.reverse_reverse, ← hend, List.intercalate_splitOn,
      start_text_append, String.ofList_toList]
  have hrest : (List.splitOn '/' (start q.text.toList).2).reverse = inner :: init.reverse := by
    rw [hend]
    simp
  rw [ancestors_eq, ancestors_eq, hrest, ht, start_append hne]
  dsimp only
  rw [hrev, innerTails_cons hpiece, innerTails_idle hidle, dropWhile_idle hidle,
    List.dropWhile_cons_of_neg (by simp [hl]), List.map_cons, hself]
  rfl

/-- A path that comes to a name by way of another step has a path above it that ends there. -/
theorem exists_above {above : List Step} (hs : step ≠ .stay) (hlast : last ≠ .stay)
    (h : Step.ofText p.text = above ++ [step] ++ List.replicate k .stay ++ [last]) :
    ∃ q : Path, p.ancestors = p :: q.ancestors ∧ Step.ofText q.text = above ++ [step] ∧
      ∃ rest, p.text = q.text ++ rest := by
  rw [List.append_assoc] at h
  obtain ⟨front,back,ht,hf,hb⟩ := exists_of_ofText_append h (by simp) (by simp)
  refine ⟨⟨front⟩,ancestors_of_append ht hf hs hb hlast,hf,"/" ++ back,?_⟩
  exact String.toList_inj.mp (by simpa using ht)

/-- Above a path with a single step that is not idle is only where it starts. -/
theorem ancestors_of_idle (hlast : last ≠ .stay)
    (hp : Step.ofText p.text = List.replicate k .stay ++ [last]) :
    p.ancestors = p :: ⟨String.ofList (start p.text.toList).1.text⟩ ::
      if (start p.text.toList).1 = .current then [⟨""⟩] else [] := by
  have hpieces : ∃ k, (List.splitOn '/' (start p.text.toList).2).map Step.ofPiece =
      List.replicate k .stay ++ [last] := by
    rw [ofText_start] at hp
    cases hs : (start p.text.toList).1 <;> rw [hs] at hp
    case current | plain => exact ⟨k,hp⟩
    case root =>
      cases k with
      | zero => exact absurd (List.cons.inj hp).1.symm hlast
      | succ k => exact ⟨k,(List.cons.inj hp).2⟩
  obtain ⟨k,hk⟩ := hpieces
  obtain ⟨idle,piece,hsplit,hidle,hpiece⟩ := pieces_of_steps hlast hk
  have hidle : ∀ x ∈ idle.reverse, isIdle x := fun x hx => hidle x (List.mem_reverse.mp hx)
  have hnone : innerTails (idle.reverse ++ []) = [] := innerTails_idle hidle []
  have hdrop : (idle.reverse ++ []).dropWhile isIdle = [] := dropWhile_idle hidle []
  rw [List.append_nil] at hnone hdrop
  rw [ancestors_eq, hsplit, List.reverse_concat, innerTails_cons hpiece, hdrop, hnone]
  simp

/-- Steps are all idle, or a last one is not. -/
theorem idle_or_step (steps : List Step) : (∃ k, steps = List.replicate k .stay) ∨
    ∃ above step k, step ≠ .stay ∧ steps = above ++ [step] ++ List.replicate k .stay := by
  induction steps with
  | nil => exact .inl ⟨0,rfl⟩
  | cons first steps ih =>
    rcases ih with ⟨k,rfl⟩ | ⟨above,step,k,hs,rfl⟩
    · by_cases hf : first = .stay
      · exact .inl ⟨k + 1,by rw [hf]; rfl⟩
      · exact .inr ⟨[],first,k,hf,rfl⟩
    · exact .inr ⟨first :: above,step,k,hs,rfl⟩

theorem ancestors_ne_nil (p : Path) : p.ancestors ≠ [] := by
  rw [ancestors_eq]
  simp

theorem dropLast_ancestors_cases (p : Path) :
    p.ancestors.dropLast = [] ∨ ∃ rest, p.ancestors.dropLast = p :: rest := by
  rw [ancestors_eq, List.cons_append]
  generalize List.map _ _ ++ _ = rest
  cases rest with
  | nil => exact .inl rfl
  | cons q rest => exact .inr ⟨_,rfl⟩

/-- A path that does not end in an idle step is not the last of those above it. -/
theorem dropLast_ancestors (hlast : last ≠ .stay) (h : Step.ofText p.text = xs ++ [last]) :
    ∃ rest, p.ancestors.dropLast = p :: rest := by
  rcases idle_or_step xs with ⟨k,rfl⟩ | ⟨above,step,k,hs,rfl⟩
  · rw [ancestors_of_idle hlast h, List.dropLast_cons_of_ne_nil (by simp)]
    exact ⟨_,rfl⟩
  · obtain ⟨q,hq,-⟩ := exists_above hs hlast h
    rw [hq, List.dropLast_cons_of_ne_nil q.ancestors_ne_nil]
    exact ⟨_,rfl⟩

end Path
end GitPublish
