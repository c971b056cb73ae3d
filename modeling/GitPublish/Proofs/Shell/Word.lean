import GitPublish.Shell.Word
import Mathlib.Data.List.Basic

/-!
# Quoted words are read as they were

A shell reads a quoted text as one word, up to a blank or the end. The word is made of text only,
and every character of it that means something to the shell is quoted in it.
-/
namespace GitPublish.Shell
variable {c : Char} {cs rest text : List Char} {back : List Piece} {fuel : Nat}

theorem needsQuotes_eq_false : needsQuotes text = false ↔ text ≠ [] ∧ ∀ c ∈ text, c ∉ special := by
  simp [needsQuotes]

/-! ## Words without expansions -/

/-- The characters of a piece of text, each with whether it is quoted. -/
def Piece.chars : Piece → List (Bool × Char)
  | .text quoted cs => cs.map (quoted, ·)
  | .expansion .. => []

/-- A word that stands for a text whatever the shell holds: none of it is replaced, and what means
something to the shell is quoted. -/
structure Word.Spells (w : Word) (text : List Char) : Prop where
  pieces : ∀ piece ∈ w, ∃ quoted cs, piece = .text quoted cs
  chars : (w.flatMap Piece.chars).map Prod.snd = text
  quoted : ∀ c ∈ special, (false, c) ∉ w.flatMap Piece.chars
  -- an empty text has to be quoted
  present : text ≠ [] ∨ ∃ cs, .text true cs ∈ w
  bare : needsQuotes text = false → w = [.text false text]

/-- A word of quoted pieces only. -/
def Word.IsQuoted (w : Word) : Prop := ∀ piece ∈ w, ∃ cs, piece = .text true cs

theorem Word.IsQuoted.mem_chars {w : Word} (h : w.IsQuoted) {x : Bool × Char}
    (hx : x ∈ w.flatMap Piece.chars) : x.1 = true := by
  obtain ⟨piece,hp,hx⟩ := List.mem_flatMap.mp hx
  obtain ⟨cs,rfl⟩ := h piece hp
  obtain ⟨c,-,rfl⟩ := List.mem_map.mp hx
  rfl

theorem Word.IsQuoted.spells {w : Word} (h : w.IsQuoted) (hne : w ≠ [])
    (hc : (w.flatMap Piece.chars).map Prod.snd = text) (hneeds : needsQuotes text) :
    w.Spells text where
  pieces piece hp := ⟨true,h piece hp⟩
  chars := hc
  quoted c _ hmem := nomatch h.mem_chars hmem
  present := by
    obtain ⟨piece,rest,rfl⟩ := List.exists_cons_of_ne_nil hne
    obtain ⟨cs,rfl⟩ := h piece (List.mem_cons_self ..)
    exact .inr ⟨cs,List.mem_cons_self ..⟩
  bare hn := nomatch hn.symm.trans hneeds

theorem spells_plain (h : ∀ c ∈ text, c ∉ special) (hne : text ≠ []) :
    Word.Spells [.text false text] text where
  pieces piece hp := ⟨false,text,List.mem_singleton.mp hp⟩
  chars := by simp [Piece.chars, Function.comp_def]
  quoted c hc hmem := by
    have hmem : c ∈ text := by simpa [Piece.chars] using hmem
    exact h c hmem hc
  present := .inl hne
  bare _ := rfl

/-! ## Reading -/

/-- A word in a script goes up to here. -/
def IsEnd (rest : List Char) : Prop := rest = [] ∨ ∃ more, rest = ' ' :: more

theorem endsWord_eq_false (h : c ∉ special) : endsWord c = false := by
  have hsubset : " \t\n;&|<>()".toList.all special.contains := by decide
  rw [endsWord, ← Bool.not_eq_true]
  intro hc
  have hspecial := List.all_eq_true.mp hsubset c (List.contains_iff_mem.mp hc)
  exact h (List.contains_iff_mem.mp hspecial)

theorem readPieces_char (h : c ∉ special) (back : List Piece) (rest : List Char) :
    readPieces (fuel + 1) .script back (c :: rest) =
      readPieces fuel .script (pushChar false c back) rest := by
  have hquote : c ≠ '\'' := fun hc => h (hc ▸ by decide)
  rw [readPieces]
  case x | x_1 | x_2 | x_3 | x_4 => intros; subst_vars; exact h (by decide)
  simp [hquote, endsWord_eq_false h, Place.isQuoted]

theorem readPieces_end (h : IsEnd rest) (back : List Piece) :
    readPieces (fuel + 1) .script back rest = .ok (back, rest) := by
  rcases h with rfl | ⟨more,rfl⟩ <;> rfl

theorem readPieces_escaped (back : List Piece) (rest : List Char) :
    readPieces (fuel + 1) .script back ('\\' :: '\'' :: rest) =
      readPieces fuel .script (pushChar true '\'' back) rest := by
  rw [readPieces.eq_def]
  simp [Place.isQuoted]

theorem readPieces_quoted (h : '\'' ∉ cs) (back : List Piece) (rest : List Char) :
    readPieces (fuel + 1) .script back ('\'' :: (cs ++ '\'' :: rest)) =
      readPieces fuel .script (.text true cs.reverse :: back) rest := by
  have hcs : ∀ c ∈ cs, decide (c ≠ '\'') = true := fun c hc =>
    decide_eq_true fun he => h (he ▸ hc)
  rw [readPieces]
  case x | x_1 | x_2 | x_3 | x_4 => simp
  rw [List.takeWhile_append_of_pos hcs, List.dropWhile_append_of_pos hcs,
    List.takeWhile_cons_of_neg (by simp), List.dropWhile_cons_of_neg (by simp), List.append_nil]
  rfl

/-- What means nothing to a shell is read as it stands. -/
theorem readPieces_plain (h : ∀ c ∈ cs, c ∉ special) (hr : IsEnd rest) (hf : cs.length < fuel)
    (acc : List Char) : readPieces fuel .script [.text false acc] (cs ++ rest) =
      .ok ([.text false (cs.reverse ++ acc)], rest) := by
  induction cs generalizing fuel acc with
  | nil =>
    obtain ⟨fuel,rfl⟩ := Nat.exists_eq_succ_of_ne_zero (Nat.ne_zero_of_lt hf)
    exact readPieces_end hr _
  | cons c cs ih =>
    obtain ⟨fuel,rfl⟩ := Nat.exists_eq_succ_of_ne_zero (Nat.ne_zero_of_lt hf)
    obtain ⟨hc,hcs⟩ := List.forall_mem_cons.mp h
    rw [List.cons_append, readPieces_char hc]
    rw [pushChar, if_pos rfl, ih hcs (Nat.lt_of_succ_lt_succ hf), List.reverse_cons,
      List.append_assoc]
    rfl

/-- The word that pieces make, which are read with the last first. -/
def wordOf (back : List Piece) : Word := back.reverse.map Piece.turned

theorem wordOf_append (xs ys : List Piece) : wordOf (xs ++ ys) = wordOf ys ++ wordOf xs := by
  simp [wordOf]

theorem isQuoted_wordOf {pieces : List Piece} (h : Word.IsQuoted pieces) :
    (wordOf pieces).IsQuoted := by
  intro piece hp
  obtain ⟨read,hr,rfl⟩ := List.mem_map.mp hp
  obtain ⟨cs,rfl⟩ := h read (List.mem_reverse.mp hr)
  exact ⟨cs.reverse,rfl⟩

theorem flatMap_quoteChar (h : '\'' ∉ text) : text.flatMap quoteChar = text := by
  induction text with
  | nil => rfl
  | cons c text ih =>
    rw [List.mem_cons, not_or] at h
    rw [List.flatMap_cons, ih h.2, quoteChar, if_neg (Ne.symm h.1)]
    rfl

/-- Text between single quotes is read as it stands, and so is a single quote that is written in its
own way between two such texts. -/
theorem readPieces_quote (hr : IsEnd rest) (back : List Piece)
    (hf : (text.flatMap quoteChar).length + 2 < fuel) :
    ∃ pieces, readPieces fuel .script back ('\'' :: (text.flatMap quoteChar ++ '\'' :: rest)) =
        .ok (pieces ++ back, rest) ∧
      Word.IsQuoted pieces ∧ pieces ≠ [] ∧
      (wordOf pieces).flatMap Piece.chars = text.map (true, ·) := by
  -- by induction on the length of the text, which is cut at its first single quote
  induction hlen : text.length using Nat.strongRecOn generalizing text back fuel with | _ n ih =>
  by_cases hmem : '\'' ∈ text
  · obtain ⟨cs,more,rfl,hcs⟩ := List.eq_append_cons_of_mem hmem
    have hbody : (cs ++ '\'' :: more).flatMap quoteChar =
        cs ++ '\'' :: '\\' :: '\'' :: '\'' :: more.flatMap quoteChar := by
      rw [List.flatMap_append, flatMap_quoteChar hcs, List.flatMap_cons]
      rfl
    rw [hbody] at hf ⊢
    simp only [List.length_append, List.length_cons] at hf hlen
    obtain ⟨fuel,rfl⟩ := Nat.exists_eq_add_of_le' (show 2 ≤ fuel by omega)
    have hmore : (more.flatMap quoteChar).length + 2 < fuel := by omega
    obtain ⟨pieces,hp,hquoted,hne,hchars⟩ :=
      ih more.length (by omega) (.text true ('\'' :: cs.reverse) :: back) hmore rfl
    refine ⟨pieces ++ [.text true ('\'' :: cs.reverse)],?_,?_,by simp,?_⟩
    · simp only [List.append_assoc, List.cons_append]
      rw [readPieces_quoted hcs, readPieces_escaped, pushChar, if_pos rfl, hp]
      rfl
    · refine List.forall_mem_append.mpr ⟨hquoted,fun piece h => ⟨_,List.mem_singleton.mp h⟩⟩
    · rw [wordOf_append, List.flatMap_append, hchars]
      simp [wordOf, Piece.turned, Piece.chars]
  · rw [flatMap_quoteChar hmem] at hf ⊢
    obtain ⟨fuel,rfl⟩ := Nat.exists_eq_add_of_le' (show 2 ≤ fuel by omega)
    refine ⟨[.text true text.reverse],?_,?_,by simp,?_⟩
    · rw [readPieces_quoted hmem, readPieces_end hr]
      rfl
    · exact fun piece h => ⟨_,List.mem_singleton.mp h⟩
    · simp [wordOf, Piece.turned, Piece.chars]

theorem readWord_of_pieces {place : Place}
    (h : readPieces (cs.length + 1) place [] cs = .ok (back, rest)) :
    readWord place cs = .ok (wordOf back, rest) := by
  rw [readWord, h]
  rfl

/-- A quoted text is one word, which stands for the text. -/
theorem readWord_quote (text : List Char) (hr : IsEnd rest) :
    ∃ w : Word, readWord .script (quote text ++ rest) = .ok (w, rest) ∧ w.Spells text := by
  unfold quote
  split
  next h =>
    have hf : (text.flatMap quoteChar).length + 2 <
        ('\'' :: text.flatMap quoteChar ++ ['\''] ++ rest).length + 1 := by simp
    obtain ⟨pieces,hp,hquoted,hne,hchars⟩ := readPieces_quote hr [] hf
    refine ⟨wordOf pieces,readWord_of_pieces ?_,(isQuoted_wordOf hquoted).spells ?_ ?_ h⟩
    · rw [List.append_nil] at hp
      rw [← hp, List.append_assoc]
      rfl
    · simpa [wordOf] using hne
    · rw [hchars]
      simp [Function.comp_def]
  next h =>
    obtain ⟨hne,hplain⟩ := needsQuotes_eq_false.mp (Bool.eq_false_iff.mpr h)
    refine ⟨wordOf [.text false text.reverse],readWord_of_pieces ?_,?_⟩
    · obtain ⟨c,cs,rfl⟩ := List.exists_cons_of_ne_nil hne
      obtain ⟨hc,hcs⟩ := List.forall_mem_cons.mp hplain
      have hlength : cs.length < (c :: (cs ++ rest)).length := by
        rw [List.length_cons, List.length_append]
        omega
      have hpush : pushChar false c [] = [.text false [c]] := rfl
      rw [List.cons_append, readPieces_char hc, hpush, readPieces_plain hcs hr hlength,
        List.reverse_cons]
    · simpa [wordOf, Piece.turned] using spells_plain hplain hne

end GitPublish.Shell
