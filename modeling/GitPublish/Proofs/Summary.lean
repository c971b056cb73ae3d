import GitPublish.FailureKind
import GitPublish.Proofs.Text
import Mathlib.Data.List.DropRight

/-!
# An error output in one line

The summary of an error output is one line without blanks at its ends, and a summary of that line is
the line itself. It is made of the first three lines that are not blank, and nothing else counts:
neither blank lines, nor blanks around a line, nor how lines end, nor what stands behind the third.
-/
namespace GitPublish

namespace Text
variable {cs ds w : List Char} {c : Char}

def IsBlankText (cs : List Char) : Prop := ∀ c ∈ cs, isBlank c

instance : DecidablePred IsBlankText := fun _ => decidable_of_iff _ List.all_eq_true

structure Trimmed (cs : List Char) : Prop where
  head : ∀ c ∈ cs.head?, isBlank c = false
  last : ∀ c ∈ cs.getLast?, isBlank c = false

theorem trim_cons (hc : isBlank c) (cs : List Char) : trim (c :: cs) = trim cs := by
  rw [trim, trim, trimStart, List.dropWhile_cons_of_pos hc, trimStart]

theorem trim_concat (hc : isBlank c) (cs : List Char) : trim (cs ++ [c]) = trim cs := by
  have hend (ds : List Char) : trimEnd (ds ++ [c]) = trimEnd ds :=
    List.rdropWhile_concat_pos isBlank ds c hc
  rw [trim, trim, trimStart, trimStart, List.dropWhile_append]
  split
  next h =>
    rw [List.isEmpty_iff.mp h, List.dropWhile_cons_of_pos hc]
    rfl
  next => exact hend _

theorem trim_eq_nil_iff : trim cs = [] ↔ IsBlankText cs := by
  have hend : trim cs = [] ↔ ∀ c ∈ trimStart cs, isBlank c := List.rdropWhile_eq_nil_iff
  rw [hend]
  constructor
  · intro h c hc
    rw [← List.takeWhile_append_dropWhile (p := isBlank) (l := cs)] at hc
    exact (List.mem_append.mp hc).elim (List.all_eq_true.mp List.all_takeWhile c) (h c)
  · intro h c hc
    exact h c ((List.dropWhile_suffix isBlank).subset hc)

theorem trim_subset (cs : List Char) : trim cs ⊆ cs :=
  List.Subset.trans (List.rdropWhile_prefix isBlank (trimStart cs)).subset
    (List.dropWhile_suffix isBlank).subset

theorem trimmed_trim (cs : List Char) : Trimmed (trim cs) where
  head c hc := by
    -- what is left begins as the text does whose start is trimmed
    obtain ⟨rest,hrest⟩ : trim cs <+: trimStart cs := List.rdropWhile_prefix isBlank _
    have hhead : (trimStart cs).head? = some c := by
      rw [← hrest, List.head?_append, Option.mem_def.mp hc]
      rfl
    have hfind := List.find?_some ((cs.find?_not_eq_head?_dropWhile isBlank).trans hhead)
    simpa using hfind
  last c hc := by
    obtain ⟨hne,rfl⟩ := List.mem_getLast?_eq_getLast hc
    exact Bool.eq_false_iff.mpr (List.rdropWhile_last_not isBlank (trimStart cs) hne)

theorem Trimmed.trim_eq (h : Trimmed cs) : trim cs = cs := by
  have hstart : trimStart cs = cs := by
    cases cs with
    | nil => rfl
    | cons c cs => exact List.dropWhile_cons_of_neg (by simp [h.head c rfl])
  rw [trim, hstart]
  refine List.rdropWhile_eq_self_iff.mpr fun hne => ?_
  simp [h.last _ (List.getLast?_eq_getLast_of_ne_nil hne)]

@[simp] theorem telling_nil : telling [] = [] := rfl

theorem telling_append (cs ds : List Char) :
    telling (cs ++ '\n' :: ds) = telling cs ++ telling ds := by
  rw [telling, List.splitOn_append_cons_self, List.map_append, List.filter_append]
  rfl

/-- Blank characters around a line are no matter. -/
theorem telling_cons (hc : isBlank c) (cs : List Char) : telling (c :: cs) = telling cs := by
  by_cases hn : c = '\n'
  · rw [hn]
    exact telling_append [] cs
  · obtain ⟨piece,pieces,h⟩ := List.exists_cons_of_ne_nil (List.splitOn_ne_nil '\n' cs)
    rw [telling, telling, splitOn_cons, if_neg hn, h, List.modifyHead_cons, List.map_cons,
      trim_cons hc, List.map_cons]

theorem telling_concat (hc : isBlank c) (cs : List Char) : telling (cs ++ [c]) = telling cs := by
  by_cases hn : c = '\n'
  · rw [hn, telling_append, telling_nil, List.append_nil]
  · obtain ⟨pieces,last,hs,h⟩ := exists_splitOn_concat hn cs
    rw [telling, telling, h, hs, List.map_append, List.map_append, List.map_singleton,
      List.map_singleton, trim_concat hc]

theorem telling_blank_append (hw : IsBlankText w) (cs : List Char) :
    telling (w ++ cs) = telling cs := by
  induction w with
  | nil => rfl
  | cons c w ih =>
    obtain ⟨hc,hw⟩ := List.forall_mem_cons.mp hw
    rw [List.cons_append, telling_cons hc, ih hw]

theorem telling_append_blank (hw : IsBlankText w) (cs : List Char) :
    telling (cs ++ w) = telling cs := by
  induction w generalizing cs with
  | nil => rw [List.append_nil]
  | cons c w ih =>
    obtain ⟨hc,hw⟩ := List.forall_mem_cons.mp hw
    rw [List.append_cons, ih hw, telling_concat hc]

theorem telling_of_blank (hw : IsBlankText w) : telling w = [] := telling_append_blank hw []

structure TellingLine (cs : List Char) : Prop where
  nonempty : cs ≠ []
  unbroken : '\n' ∉ cs
  trimmed : Trimmed cs

theorem tellingLine_of_mem (h : ds ∈ telling cs) : TellingLine ds := by
  obtain ⟨hmem,hne⟩ := List.mem_filter.mp h
  obtain ⟨line,hline,rfl⟩ := List.mem_map.mp hmem
  exact ⟨of_decide_eq_true hne,fun hn => not_mem_of_mem_splitOn hline (trim_subset line hn),
    trimmed_trim line⟩

theorem TellingLine.telling_eq (h : TellingLine cs) : telling cs = [cs] := by
  rw [telling, List.splitOn_eq_singleton h.unbroken, List.map_singleton, h.trimmed.trim_eq]
  simp [h.nonempty]

theorem TellingLine.append (h : TellingLine cs) (k : TellingLine ds) {sep : List Char}
    (hs : '\n' ∉ sep) : TellingLine (cs ++ (sep ++ ds)) where
  nonempty := List.append_ne_nil_of_left_ne_nil h.nonempty _
  unbroken := by simp [h.unbroken, hs, k.unbroken]
  trimmed := by
    obtain ⟨c,cs,rfl⟩ := List.exists_cons_of_ne_nil h.nonempty
    refine ⟨h.trimmed.head,?_⟩
    rw [← List.append_assoc, List.getLast?_append_of_ne_nil _ k.nonempty]
    exact k.trimmed.last

theorem TellingLine.intercalate {sep : List Char} (hs : '\n' ∉ sep) {lines : List (List Char)}
    (hne : lines ≠ []) (h : ∀ line ∈ lines, TellingLine line) :
    TellingLine (sep.intercalate lines) := by
  induction lines with
  | nil => exact absurd rfl hne
  | cons line lines ih =>
    obtain ⟨hline,hrest⟩ := List.forall_mem_cons.mp h
    by_cases hl : lines = []
    · rwa [hl, List.intercalate_singleton]
    · rw [List.intercalate_cons_of_ne_nil hl, List.append_assoc]
      exact hline.append (ih hl hrest) hs

/-! ## Lines -/

/-- A line without the carriage return that belongs to its end. -/
def unreturned (line : List Char) : List Char :=
  if line.getLast? = some '\r' then line.dropLast else line

/-- The lines of a text. A line ends at a line feed, which may have a carriage return before it.
What stands behind the last line end is a line unless it is empty. -/
def readLines (cs : List Char) : List (List Char) :=
  let pieces := List.splitOn '\n' cs
  pieces.dropLast.map unreturned ++ (pieces.getLast?.filter (· ≠ [])).toList

def nonblankLines (cs : List Char) : List (List Char) :=
  (readLines cs).filter (¬ IsBlankText ·)

theorem trim_unreturned (line : List Char) : trim (unreturned line) = trim line := by
  unfold unreturned
  split
  next h =>
    obtain ⟨init,rfl⟩ := List.getLast?_eq_some_iff.mp h
    rw [List.dropLast_concat, trim_concat (by decide)]
  next => rfl

theorem map_trim_nonblankLines (cs : List Char) : (nonblankLines cs).map trim = telling cs := by
  have hfilter (lines : List (List Char)) : (lines.filter (¬ IsBlankText ·)).map trim =
      (lines.map trim).filter (· ≠ []) := by
    rw [List.filter_map]
    refine congrArg (List.map trim) (List.filter_congr fun line _ => ?_)
    simp [trim_eq_nil_iff]
  have hinit (lines : List (List Char)) : (lines.map unreturned).map trim = lines.map trim := by
    rw [List.map_map]
    exact List.map_congr_left fun line _ => trim_unreturned line
  rcases List.eq_nil_or_concat (List.splitOn '\n' cs) with hn | ⟨init,last,h⟩
  · exact absurd hn (List.splitOn_ne_nil _ _)
  rw [List.concat_eq_append] at h
  rw [nonblankLines, hfilter, readLines, telling, h, List.map_append, List.dropLast_concat, hinit,
    List.map_append, List.filter_append, List.filter_append, List.getLast?_concat]
  by_cases hl : last = []
  · rw [hl]
    rfl
  · have hsome : (some last).filter (fun x => decide (x ≠ [])) = some last := by
      simp [Option.filter, hl]
    rw [hsome]
    rfl

/-- The second text is the first with carriage returns before some of its line feeds. -/
inductive Reended : List Char → List Char → Prop
  | nil : Reended [] []
  | same {cs ds : List Char} (c : Char) : Reended cs ds → Reended (c :: cs) (c :: ds)
  | returned {cs ds : List Char} : Reended cs ds → Reended ('\n' :: cs) ('\r' :: '\n' :: ds)

theorem Reended.telling_eq (h : Reended cs ds) (before : List Char) :
    telling (before ++ ds) = telling (before ++ cs) := by
  -- a line is told only when its end is reached, so what stands before has to be kept
  induction h generalizing before with
  | nil => rfl
  | same c _ ih => simpa using ih (before ++ [c])
  | returned _ ih =>
    rw [List.append_cons, telling_append, telling_append, telling_concat (by decide)]
    exact congrArg (telling before ++ ·) (ih [])

end Text

section summary
variable {xs ys : List String}

example : summary "fatal: a\r\n\n\t b\n c\nd" = "fatal: a | b | c" := by decide

theorem tellingLine_barred {lines : List (List Char)}
    (h : ∀ line ∈ lines, Text.TellingLine line) : Text.TellingLine (barred lines).toList := by
  cases lines with
  | nil =>
    refine ⟨by decide,by decide,⟨fun c hc => ?_,fun c hc => ?_⟩⟩
    · cases hc
      decide
    · cases hc
      decide
  | cons line lines =>
    have hlist : (barred (line :: lines)).toList = " | ".toList.intercalate (line :: lines) := by
      simp [barred, Function.comp_def]
    rw [hlist]
    exact .intercalate (by decide) (by simp) h

theorem tellingLine_summary (s : String) : Text.TellingLine (summary s).toList := by
  rw [summary]
  exact tellingLine_barred fun line h => Text.tellingLine_of_mem (List.mem_of_mem_take h)

theorem summary_summary (s : String) : summary (summary s) = summary s := by
  rw [summary, (tellingLine_summary s).telling_eq]
  simp [barred]

theorem telling_lines (xs : List String) : Text.telling ("\n".intercalate xs).toList =
    xs.flatMap fun x => Text.telling x.toList := by
  induction xs with
  | nil => rfl
  | cons x xs ih =>
    by_cases hx : xs = []
    · simp [hx]
    · rw [String.intercalate_cons_of_ne_nil hx, String.append_assoc, String.toList_append,
        String.toList_append, List.flatMap_cons, ← ih]
      exact Text.telling_append _ _

/-- The second line is the first with blanks before it. -/
def Indents (x y : String) : Prop := ∃ w, Text.IsBlankText w ∧ y.toList = w ++ x.toList

theorem telling_indented (h : List.Forall₂ Indents xs ys) :
    Text.telling ("\n".intercalate ys).toList = Text.telling ("\n".intercalate xs).toList := by
  rw [telling_lines, telling_lines]
  induction h with
  | nil => rfl
  | cons hxy _ ih =>
    obtain ⟨w,hw,hy⟩ := hxy
    rw [List.flatMap_cons, List.flatMap_cons, hy, Text.telling_blank_append hw, ih]

/-- The summary of an error output is one line, trimmed and not empty, and its own summary. It is
made of the first three lines that are not blank, in order. So it does not change if blank lines are
added, lines are indented, line ends are written otherwise, or more lines follow behind three. -/
theorem summary_determined :
    (∀ s, Text.TellingLine (summary s).toList) ∧
    (∀ s, summary (summary s) = summary s) ∧
    (∀ s, summary s = barred (((Text.nonblankLines s.toList).take 3).map Text.trim)) ∧
    (∀ xs ys w, Text.IsBlankText w.toList →
      summary ("\n".intercalate (xs ++ w :: ys)) = summary ("\n".intercalate (xs ++ ys))) ∧
    (∀ xs ys, List.Forall₂ Indents xs ys →
      summary ("\n".intercalate ys) = summary ("\n".intercalate xs)) ∧
    (∀ s t : String, Text.Reended s.toList t.toList → summary t = summary s) ∧
    (∀ s more, 3 ≤ (Text.nonblankLines s.toList).length →
      summary (s ++ "\n" ++ more) = summary s) := by
  refine ⟨tellingLine_summary,summary_summary,fun s => ?_,fun xs ys w hw => ?_,fun xs ys h => ?_,
    fun s t h => ?_,fun s more h => ?_⟩
  · rw [summary, List.map_take, Text.map_trim_nonblankLines]
  · rw [summary, summary, telling_lines, telling_lines, List.flatMap_append,
      List.flatMap_append, List.flatMap_cons, Text.telling_of_blank hw, List.nil_append]
  · rw [summary, summary, telling_indented h]
  · have htell : Text.telling t.toList = Text.telling s.toList := h.telling_eq []
    rw [summary, summary, htell]
  · have hlist : (s ++ "\n" ++ more).toList = s.toList ++ '\n' :: more.toList := by
      simp [String.toList_append]
    have hlength : 3 ≤ (Text.telling s.toList).length := by
      rwa [← Text.map_trim_nonblankLines, List.length_map]
    rw [summary, summary, hlist, Text.telling_append, List.take_append_of_le_length hlength]

/-- An output that is written in other ways, and goes on. -/
theorem summary_determined_rewritten :
    Text.IsBlankText " \t".toList ∧ List.Forall₂ Indents ["a", "b"] ["a", "\t b"] ∧
    Text.Reended "a\nb".toList "a\r\nb".toList ∧
    3 ≤ (Text.nonblankLines "a\nb\nc".toList).length ∧
    summary ("\n".intercalate ["a", " \t", "b"]) = summary ("\n".intercalate ["a", "b"]) ∧
    summary ("\n".intercalate ["a", "\t b"]) = summary ("\n".intercalate ["a", "b"]) ∧
    summary "a\r\nb" = summary "a\nb" ∧
    summary ("a\nb\nc" ++ "\n" ++ "d") = summary "a\nb\nc" := by
  obtain ⟨-,-,-,hblank,hindented,hreended,hmore⟩ := summary_determined
  have hw : Text.IsBlankText " \t".toList := by decide
  have hi : List.Forall₂ Indents ["a", "b"] ["a", "\t b"] :=
    .cons ⟨[],by decide,rfl⟩ (.cons ⟨"\t ".toList,by decide,rfl⟩ .nil)
  have hr : Text.Reended "a\nb".toList "a\r\nb".toList := .same 'a' (.returned (.same 'b' .nil))
  have hl : 3 ≤ (Text.nonblankLines "a\nb\nc".toList).length := by decide
  exact ⟨hw,hi,hr,hl,hblank ["a"] ["b"] _ hw,hindented _ _ hi,hreended _ _ hr,hmore _ "d" hl⟩

end summary

end GitPublish
