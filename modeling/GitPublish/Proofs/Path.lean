import GitPublish.Proofs.Text
import GitPublish.Publish

/-!
# Paths that end in a name

A path whose text ends neither in a slash nor in a dot ends in a name. It can be put in front of
other paths and be had back: the directory of a clone is found again from where the clone keeps its
branches.
-/
namespace GitPublish

namespace Path

/-- A path that is a text is told of as it is. -/
@[simp] theorem ofBytes_bytes (p : Path) : ofBytes p.bytes = p := by
  rw [ofBytes, bytes, Text.decode_encode, String.ofList_toList]

/-- The text of a path ends in a name. -/
def EndsInName (p : Path) : Prop :=
  ∃ cs c, p.text.toList = cs ++ [c] ∧ c ≠ '/' ∧ c ≠ '.'

variable {p q : Path}

theorem unslashed_of_getLast? (h : p.text.toList.getLast? ≠ some '/') : p.unslashed = p := by
  have hdrop : p.text.toList.reverse.dropWhile (· = '/') = p.text.toList.reverse := by
    rw [← List.head?_reverse] at h
    cases hr : p.text.toList.reverse with
    | nil => rfl
    | cons c cs =>
      rw [hr] at h
      exact List.dropWhile_cons_of_neg (by simpa using h)
  rw [Path.unslashed, hdrop, List.reverse_reverse, String.ofList_toList]

theorem EndsInName.getLast? (h : p.EndsInName) : p.text.toList.getLast? ≠ some '/' := by
  obtain ⟨cs,c,ht,hc,-⟩ := h
  rw [ht, List.getLast?_concat]
  exact fun h => hc (Option.some.inj h)

theorem EndsInName.unslashed (h : p.EndsInName) : p.unslashed = p :=
  unslashed_of_getLast? h.getLast?

/-- A piece that does not end in a dot is a name. -/
theorem not_dots (last : List Char) {c : Char} (hc : c ≠ '.') :
    isIdle (last ++ [c]) = false ∧ last ++ [c] ≠ ['.', '.'] := by
  have hl : (last ++ [c]).getLast? = some c := List.getLast?_concat
  have hdot : last ++ [c] ≠ ['.'] := by
    intro h
    rw [h] at hl
    exact hc (Option.some.inj hl).symm
  refine ⟨?_,?_⟩
  · simp [isIdle, hdot]
  · intro h
    rw [h] at hl
    exact hc (Option.some.inj hl).symm

theorem EndsInName.last_step (h : p.EndsInName) :
    ∃ name, (Step.ofText p.text).getLast? = some (.enter name) := by
  obtain ⟨cs,c,ht,hc,hdot⟩ := h
  obtain ⟨pieces,last,hs⟩ := Text.splitOn_concat hc cs
  obtain ⟨hidle,hup⟩ := not_dots last hdot
  refine ⟨String.ofList (last ++ [c]),?_⟩
  rw [Step.ofText, ht, hs, List.map_append, List.map_singleton, List.getLast?_concat, Step.ofPiece,
    hidle, if_neg Bool.false_ne_true, if_neg hup]

theorem EndsInName.text_ne (h : p.EndsInName) : p.text ≠ "" := by
  obtain ⟨cs,c,ht,-,-⟩ := h
  intro he
  rw [he] at ht
  simp at ht

theorem EndsInName.div (h : p.EndsInName) (hq : q.isAbsolute = false) :
    (p / q).text = p.text ++ "/" ++ q.text := by
  have hempty : p.text.isEmpty = false := by
    rw [← Bool.not_eq_true, String.isEmpty_iff]
    exact h.text_ne
  change (p.join q).text = _
  rw [join, hq, hempty, if_neg (by simp), if_neg h.getLast?]

/-- How a file of a directory is told of, by the bytes of its name. -/
def toldIn (dir : Path) (name : List UInt8) : Path := ofBytes (dir.bytes ++ 0x2F :: name)

/-- A file with a name that is a text is told of as it is. -/
theorem EndsInName.toldIn_bytes (h : p.EndsInName) (hq : q.isAbsolute = false) :
    p.toldIn q.bytes = p / q := by
  have hslash : Text.encode "/".toList = [0x2F] := by decide
  have hbytes : (p / q).bytes = p.bytes ++ 0x2F :: q.bytes := by
    rw [bytes, h.div hq, String.toList_append, String.toList_append, Text.encode_append,
      Text.encode_append, hslash, List.append_assoc]
    rfl
  rw [toldIn, ← hbytes, ofBytes_bytes]

/-- Whatever stands in front of such a path, it ends in the same name. -/
theorem EndsInName.join (hq : q.EndsInName) (p : Path) : (p / q).EndsInName := by
  obtain ⟨cs,c,ht,hc,hdot⟩ := id hq
  change (p.join q).EndsInName
  unfold Path.join
  split
  · exact hq
  · split
    · exact ⟨p.text.toList ++ cs,c,by rw [String.toList_append, ht, List.append_assoc],hc,hdot⟩
    · refine ⟨p.text.toList ++ '/' :: cs,c,?_,hc,hdot⟩
      rw [String.toList_append, String.toList_append, ht]
      simp

/-- How a path starts does not depend on what is put behind it. -/
theorem start_append {cs : List Char} (h : cs ≠ []) (rest : List Char) :
    start (cs ++ '/' :: rest) = ((start cs).1, (start cs).2 ++ '/' :: rest) := by
  rcases cs with - | ⟨c, - | ⟨d, cs⟩⟩
  · exact absurd rfl h
  · by_cases hs : c = '/'
    · subst hs; rfl
    by_cases hd : c = '.'
    · subst hd; rfl
    · simp [start, hs, hd]
  · by_cases hs : c = '/'
    · subst hs; rfl
    by_cases hd : c = '.'
    · subst hd
      by_cases hs : d = '/'
      · subst hs; rfl
      · simp [start, hs]
    · simp [start, hs, hd]

theorem innerTails_cons {piece : List Char} (h : isIdle piece = false) (rest : List (List Char)) :
    innerTails (piece :: rest) = rest.dropWhile isIdle :: innerTails rest := by
  rw [innerTails, h, if_neg Bool.false_ne_true]

theorem EndsInName.start_concat (h : p.EndsInName) :
    ∃ body c, (start p.text.toList).2 = body ++ [c] ∧ c ≠ '/' ∧ c ≠ '.' := by
  obtain ⟨cs,c,ht,hc,hdot⟩ := h
  have hs := start_text_append p.text.toList
  rw [ht] at hs ⊢
  rcases List.eq_nil_or_concat (start (cs ++ [c])).2 with hn | ⟨body,d,hb⟩
  · rw [hn, List.append_nil] at hs
    have hl := congrArg List.getLast? hs
    rw [List.getLast?_concat] at hl
    cases hstart : (start (cs ++ [c])).1 <;> rw [hstart] at hl
    · exact absurd (Option.some.inj hl).symm hc
    · exact absurd (Option.some.inj hl).symm hdot
    · cases hl
  · rw [List.concat_eq_append] at hb
    rw [hb, ← List.append_assoc] at hs
    obtain ⟨-,hd⟩ := List.append_inj' hs rfl
    obtain rfl : d = c := List.singleton_inj.mp hd
    exact ⟨body,d,hb,hc,hdot⟩

/-- A path is found again three steps above what is three names below it. -/
theorem EndsInName.ancestors_three (h : p.EndsInName) {x y z : List Char}
    (hx : List.splitOn '/' x = [x]) (hy : List.splitOn '/' y = [y]) (hz : List.splitOn '/' z = [z])
    (hix : isIdle x = false) (hiy : isIdle y = false) (hiz : isIdle z = false)
    (hq : q.text.toList = p.text.toList ++ '/' :: (x ++ '/' :: (y ++ '/' :: z))) :
    q.ancestors[3]? = some p := by
  obtain ⟨body,c,hb,hc,hdot⟩ := h.start_concat
  obtain ⟨pieces,last,hlast⟩ := Text.splitOn_concat hc body
  have hidle := (not_dots last hdot).1
  have hsplit : (List.splitOn '/' (body ++ [c] ++ '/' :: (x ++ '/' :: (y ++ '/' :: z)))).reverse =
      z :: y :: x :: (last ++ [c]) :: pieces.reverse := by
    rw [List.splitOn_append_cons_self, List.splitOn_append_cons_self,
      List.splitOn_append_cons_self, hx, hy, hz, hlast]
    simp
  have hjoin : (start p.text.toList).1.text ++ ['/'].intercalate (pieces ++ [last ++ [c]]) =
      p.text.toList := by
    rw [← hlast, List.intercalate_splitOn, ← hb, start_text_append]
  unfold ancestors
  rw [hq, start_append (mt String.toList_eq_nil_iff.mp h.text_ne), hb]
  dsimp only
  rw [hsplit, innerTails_cons hiz, innerTails_cons hiy, innerTails_cons hix]
  simp only [List.map_cons, List.cons_append, List.getElem?_cons_succ, List.getElem?_cons_zero]
  rw [List.dropWhile_cons_of_neg (by simp [hidle]), List.reverse_cons, List.reverse_reverse, hjoin,
    String.ofList_toList]

/-- What is left of the pieces of a path behind a step is what stands before some of them. -/
theorem suffix_of_mem_innerTails {pieces tails : List (List Char)} (h : tails ∈ innerTails pieces) :
    ∃ front, front ≠ [] ∧ pieces = front ++ tails := by
  induction pieces with
  | nil => cases h
  | cons piece rest ih =>
    have behind (ht : tails ∈ innerTails rest) :
        ∃ front, front ≠ [] ∧ piece :: rest = front ++ tails := by
      obtain ⟨front,-,hf⟩ := ih ht
      exact ⟨piece :: front,by simp,by rw [hf]; rfl⟩
    rw [innerTails] at h
    split at h
    · exact behind h
    · rcases List.mem_cons.mp h with rfl | h
      · exact ⟨piece :: rest.takeWhile isIdle,by simp,by simp⟩
      · exact behind h

/-- A path above another is the root, or the other goes on from it. -/
def Above (q p : Path) : Prop :=
  q.isAbsolute ∧ (q.text = "/" ∨ ∃ rest, p.text.toList = q.text.toList ++ '/' :: rest)

theorem isAbsolute_iff : p.isAbsolute ↔ ∃ body, p.text.toList = '/' :: body := by
  unfold isAbsolute
  cases p.text.toList with
  | nil => simp
  | cons c body => simp

theorem text_ne_of_isAbsolute (h : p.isAbsolute) : p.text ≠ "" := by
  intro hempty
  rw [isAbsolute, hempty] at h
  cases h

theorem isAbsolute_div (h : p.isAbsolute) (q : Path) : (p / q).isAbsolute := by
  obtain ⟨body,hb⟩ := isAbsolute_iff.mp h
  change (p.join q).isAbsolute
  unfold join
  split
  next hq =>
    rcases Bool.or_eq_true_iff.mp hq with hq | hp
    · exact hq
    · exact absurd (String.isEmpty_iff.mp hp) (text_ne_of_isAbsolute h)
  next =>
    split
    · exact isAbsolute_iff.mpr ⟨_,by rw [String.toList_append, hb]; rfl⟩
    · exact isAbsolute_iff.mpr ⟨_,by rw [String.toList_append, String.toList_append, hb]; rfl⟩

theorem Above.trans {r : Path} (h : r.Above q) (k : q.Above p) : r.Above p := by
  obtain ⟨hr,h⟩ := h
  refine ⟨hr,?_⟩
  rcases h with h | ⟨rest,h⟩
  · exact .inl h
  rcases k.2 with k | ⟨rest',k⟩
  · rw [k] at h
    obtain ⟨body,hbody⟩ := isAbsolute_iff.mp hr
    rw [hbody] at h
    simp at h
  · exact .inr ⟨rest ++ '/' :: rest',by rw [k, h, List.append_assoc, List.cons_append]⟩

theorem above_of_mem_ancestors (hp : p.isAbsolute) (h : q ∈ p.ancestors.tail) : q.Above p := by
  obtain ⟨body,hbody⟩ := isAbsolute_iff.mp hp
  unfold ancestors at h
  rw [hbody] at h
  simp only [start, List.tail_cons, reduceCtorEq, if_false, List.append_nil, List.mem_map] at h
  obtain ⟨tails,ht,rfl⟩ := h
  obtain ⟨front,hne,hf⟩ := suffix_of_mem_innerTails ht
  have hjoin : body = ['/'].intercalate (tails.reverse ++ front.reverse) := by
    rw [← List.reverse_append, ← hf, List.reverse_reverse, List.intercalate_splitOn]
  refine ⟨isAbsolute_iff.mpr ⟨['/'].intercalate tails.reverse,String.toList_ofList⟩,?_⟩
  rcases List.eq_nil_or_concat tails with rfl | ⟨init,last,rfl⟩
  · exact .inl rfl
  · refine .inr ⟨['/'].intercalate front.reverse,?_⟩
    rw [String.toList_ofList, hbody, hjoin,
      Text.intercalate_append '/' (by simp) (by simpa using hne)]
    rfl

theorem above_of_parent {parent : Path} (hp : p.isAbsolute) (h : p.parent? = some parent)
    (hq : q ∈ parent.ancestors) : q.Above p := by
  have hparent : parent.Above p := by
    refine above_of_mem_ancestors hp ?_
    rw [parent?, ← List.getElem?_tail] at h
    exact List.mem_of_getElem? h
  have hself : parent.ancestors = parent :: parent.ancestors.tail := rfl
  rw [hself] at hq
  rcases List.mem_cons.mp hq with rfl | hq
  · exact hparent
  · exact (above_of_mem_ancestors hparent.1 hq).trans hparent

theorem toList_unslashed (p : Path) :
    ∃ n, p.text.toList = p.unslashed.text.toList ++ List.replicate n '/' := by
  have hsplit := List.takeWhile_append_dropWhile (p := (· = '/')) (l := p.text.toList.reverse)
  refine ⟨(p.text.toList.reverse.takeWhile (· = '/')).length,?_⟩
  have hslashes : p.text.toList.reverse.takeWhile (· = '/') =
      List.replicate (p.text.toList.reverse.takeWhile (· = '/')).length '/' :=
    List.eq_replicate_iff.mpr ⟨rfl,fun c hc => by
      simpa using List.all_eq_true.mp List.all_takeWhile c hc⟩
  have hrev := congrArg List.reverse hsplit
  rw [List.reverse_append, List.reverse_reverse] at hrev
  rw [Path.unslashed, String.toList_ofList, ← List.reverse_replicate, ← hslashes, hrev]

theorem replicate_append_slash (n : Nat) (rest : List Char) :
    List.replicate n '/' ++ '/' :: rest = '/' :: (List.replicate n '/' ++ rest) := by
  induction n with
  | zero => rfl
  | succ n ih => rw [List.replicate_succ, List.cons_append, ih]; rfl

/-- A path that goes on from another goes on from it without the slashes at its end. -/
theorem Above.unslashed (h : q.Above p) (hne : q.unslashed.text ≠ "") :
    ∃ rest, p.text.toList = q.unslashed.text.toList ++ '/' :: rest := by
  obtain ⟨n,hn⟩ := q.toList_unslashed
  rcases h.2 with h | ⟨rest,h⟩
  · refine absurd ?_ hne
    have hq : q = ⟨"/"⟩ := by rw [← h]
    rw [hq]
    decide
  · exact ⟨List.replicate n '/' ++ rest,by rw [h, hn, List.append_assoc, replicate_append_slash]⟩

theorem ofText_append {p q r : String} (h : p.toList = q.toList ++ '/' :: r.toList) :
    Step.ofText p = Step.ofText q ++ Step.ofText r := by
  rw [Step.ofText, h, List.splitOn_append_cons_self, List.map_append]
  rfl

theorem ofPiece_eq_up {piece : List Char} : Step.ofPiece piece = .up ↔ piece = ['.', '.'] := by
  unfold Step.ofPiece
  split
  next h =>
    refine ⟨fun h => (nomatch h),?_⟩
    rintro rfl
    cases h
  next => split <;> simp [*]

theorem up_mem_ofText {text : String} :
    .up ∈ Step.ofText text ↔ ['.', '.'] ∈ List.splitOn '/' text.toList := by
  simp [Step.ofText, ofPiece_eq_up]

structure Descends (p : Path) : Prop where
  relative : p.isAbsolute = false
  up : .up ∉ Step.ofText p.text

theorem descends_of_staysBelow (h : p.staysBelow) : p.Descends where
  relative := by
    rw [← Bool.not_eq_true, isAbsolute_iff]
    rintro ⟨body,hb⟩
    have hroot : Component.root ∈ p.components := by
      rw [components, hb]
      exact List.mem_append_left _ (List.mem_singleton_self _)
    simpa using List.all_eq_true.mp h _ hroot
  up := by
    rw [up_mem_ofText]
    intro hup
    have hbody : ['.', '.'] ∈ List.splitOn '/' (start p.text.toList).2 := by
      generalize p.text.toList = text at hup
      unfold start
      split
      next rest =>
        rw [Text.splitOn_cons, if_pos rfl] at hup
        exact (List.mem_cons.mp hup).resolve_left (by simp)
      next => simp [Text.splitOn_cons] at hup
      next rest =>
        rw [Text.splitOn_cons, if_neg (by decide), Text.splitOn_cons, if_pos rfl] at hup
        rw [Text.splitOn_cons, if_pos rfl]
        exact List.mem_cons_of_mem _ ((List.mem_cons.mp hup).resolve_left (by simp))
      next => exact hup
    have hparent : Component.parent ∈ p.components :=
      List.mem_append_right _ (List.mem_filterMap.mpr ⟨_,hbody,rfl⟩)
    simpa using List.all_eq_true.mp h _ hparent

theorem Descends.div (hp : p.Descends) (hq : q.Descends) : (p / q).Descends := by
  have hpup := hp.up
  have hqup := hq.up
  rw [up_mem_ofText] at hpup hqup
  change (p.join q).Descends
  unfold Path.join
  rw [hq.relative, Bool.false_or]
  split
  · exact hq
  next hne =>
    have habs (text : String) (rest : List Char) (h : text.toList = p.text.toList ++ rest) :
        (⟨text⟩ : Path).isAbsolute = false := by
      have hr := hp.relative
      unfold isAbsolute at hr ⊢
      rw [h]
      cases ht : p.text.toList with
      | nil => exact absurd (by simpa using String.toList_eq_nil_iff.mp ht) hne
      | cons c cs => rwa [ht] at hr
    split
    next hslash =>
      obtain ⟨init,hinit⟩ := List.getLast?_eq_some_iff.mp hslash
      have htext : (p.text ++ q.text).toList = init ++ '/' :: q.text.toList := by
        rw [String.toList_append, hinit, List.append_assoc]
        rfl
      refine ⟨habs _ _ String.toList_append,?_⟩
      rw [up_mem_ofText, htext, List.splitOn_append_cons_self, List.mem_append]
      rw [hinit, List.splitOn_append_cons_self, List.mem_append] at hpup
      exact fun h => h.elim (fun h => hpup (.inl h)) hqup
    next =>
      have htext : (p.text ++ "/" ++ q.text).toList = p.text.toList ++ '/' :: q.text.toList := by
        simp [String.toList_append]
      refine ⟨habs _ _ htext,?_⟩
      rw [up_mem_ofText, htext, List.splitOn_append_cons_self, List.mem_append]
      exact fun h => h.elim hpup hqup

end Path
end GitPublish
