import GitPublish.FailureKind
import Mathlib.Order.Bounds.Basic
import Mathlib.Order.MinMax

/-!
# What takes precedence in an error output

An error output has phrases of several kinds, and the kind of failure is the least of them in the
order of precedence. No phrase has a line break in it, so that an output of several lines is of the
least of the kinds of its lines, whatever their order; text around a phrase only adds to the phrases
that are there. Case is no matter for a phrase, and neither is what becomes of a character outside
ASCII when a text is lowered, unless ASCII comes of it.
-/
namespace GitPublish

namespace Text
variable {needle sep s t : List Char}

/-- A word does not reach across characters that it does not have. -/
theorem infix_across_iff (hne : sep ≠ []) (hout : ∀ c ∈ sep, c ∉ needle) :
    needle <:+: s ++ (sep ++ t) ↔ needle <:+: s ∨ needle <:+: t := by
  constructor
  · rw [List.infix_append_iff, List.infix_append_iff]
    rintro (hs | (hsep | ht | ⟨l,r,rfl,hl,hr⟩) | ⟨l,r,rfl,hl,hr⟩)
    · exact .inl hs
    · cases needle with
      | nil => exact .inl List.nil_infix
      | cons c _ => exact absurd List.mem_cons_self (hout c (hsep.subset List.mem_cons_self))
    · exact .inr ht
    · cases l with
      | nil => exact .inr hr.isInfix
      | cons c _ => exact absurd List.mem_cons_self (hout c (hl.subset List.mem_cons_self))
    · cases r with
      | nil => exact .inl (by simpa using hl.isInfix)
      | cons c r =>
        obtain ⟨d,sep,rfl⟩ := List.exists_cons_of_ne_nil hne
        obtain ⟨rfl,-⟩ := List.cons_prefix_cons.mp hr
        exact absurd (by simp) (hout c List.mem_cons_self)
  · rintro (h | h)
    · exact h.trans (List.infix_append [] s _)
    · exact h.trans ⟨s ++ sep,[],by simp⟩

theorem lowerChar_toLower (c : Char) : lowerChar c.toLower = lowerChar c := by
  have upper : ∀ n < 26,
      lowerChar (Char.ofNat (65 + n)).toLower = lowerChar (Char.ofNat (65 + n)) := by
    decide
  by_cases h : 'A'.val ≤ c.val ∧ c.val ≤ 'Z'.val
  · have hle : 65 ≤ c.toNat ∧ c.toNat ≤ 90 := h
    have hc := upper (c.toNat - 65) (by omega)
    rwa [Nat.add_sub_cancel' hle.1, Char.ofNat_toNat] at hc
  · have hc : c.toLower = c := dif_neg h
    rw [hc]

theorem lowered_map_toLower (cs : List Char) : lowered (cs.map Char.toLower) = lowered cs := by
  simp only [lowered, List.flatMap_map, lowerChar_toLower]

theorem lowerChar_ne_nil (c : Char) : lowerChar c ≠ [] := by
  unfold lowerChar
  split <;> [skip; split] <;> simp

/-- The second text is a lower case form of the first. A character is lowered as `lowerChar` says,
or, where no ASCII comes of it, to any characters outside ASCII: which they are, and how many, may
depend on where it stands. -/
inductive Lowers : List Char → List Char → Prop
  | nil : Lowers [] []
  | known {cs low : List Char} (c : Char) : Lowers cs low → Lowers (c :: cs) (lowerChar c ++ low)
  | foreign {c : Char} {cs run low : List Char} : (∀ d ∈ lowerChar c, ¬ d.isAscii) → run ≠ [] →
      (∀ d ∈ run, ¬ d.isAscii) → Lowers cs low → Lowers (c :: cs) (run ++ low)

/-- An ASCII word is found in every lower case form of a text or in none. -/
theorem Lowers.infix_iff {cs low : List Char} (h : Lowers cs low)
    (hword : ∀ c ∈ needle, c.isAscii) (before : List Char) :
    needle <:+: before ++ low ↔ needle <:+: before ++ lowered cs := by
  have hout {run : List Char} (hrun : ∀ d ∈ run, ¬ d.isAscii) : ∀ d ∈ run, d ∉ needle :=
    fun d hd hn => hrun d hd (hword d hn)
  induction h generalizing before with
  | nil => exact Iff.rfl
  | known c _ ih => simpa [lowered, List.append_assoc] using ih (before ++ lowerChar c)
  | @foreign c cs run low hc hne hrun _ ih =>
    have hrest : needle <:+: low ↔ needle <:+: lowered cs := ih []
    have hl : lowered (c :: cs) = lowerChar c ++ lowered cs := rfl
    rw [hl, infix_across_iff hne (hout hrun), infix_across_iff (lowerChar_ne_nil c) (hout hc),
      hrest]

end Text

namespace FailureKind

/-- How far behind a kind of failure stands in the order of precedence. -/
def rank : FailureKind → Nat
  | network => 0
  | permission => 1
  | authentication => 2
  | notFound => 3
  | conflict => 4
  | invalidRef => 5
  | unknown => 6

theorem rank_injective : Function.Injective rank := by
  intro j k h
  cases j <;> cases k <;> first | rfl | cases h

/-- The lesser of two kinds takes precedence. -/
instance : LinearOrder FailureKind := LinearOrder.lift' rank rank_injective

theorem precedence_pairwise : precedence.Pairwise (· < ·) := by
  decide

theorem le_unknown (k : FailureKind) : k ≤ unknown := by
  cases k <;> decide

section Told
variable {s t low : List Char} {k : FailureKind}

/-- An output of this lower case form is of this kind, if nothing takes precedence. -/
def Tells (low : List Char) (k : FailureKind) : Prop :=
  k = unknown ∨ ∃ phrase ∈ k.phrases, phrase.toList <:+: low

theorem isTold_iff : isTold low k = true ↔ ∃ phrase ∈ k.phrases, phrase.toList <:+: low := by
  simp [isTold, Text.contains_iff]

theorem mem_precedence (h : isTold low k = true) : k ∈ precedence := by
  cases k with
  | unknown => cases h
  | _ => decide

/-- The precedence increases, so that the kind that is found first is the least. -/
theorem isLeast_told (low : List Char) : IsLeast {k | Tells low k} (told low) := by
  rw [told]
  cases hfind : precedence.find? (isTold low) with
  | none =>
    refine ⟨.inl rfl,?_⟩
    rintro k (rfl | hk)
    · exact le_rfl
    · have hk := isTold_iff.mpr hk
      exact absurd hk (List.find?_eq_none.mp hfind k (mem_precedence hk))
  | some first =>
    obtain ⟨hfirst,before,after,hsplit,hbefore⟩ := List.find?_eq_some_iff_append.mp hfind
    refine ⟨.inr (isTold_iff.mp hfirst),?_⟩
    rintro k (rfl | hk)
    · exact le_unknown first
    · -- a kind before the first is not told, and one behind it is greater
      have hk := isTold_iff.mpr hk
      have hsorted := precedence_pairwise
      have hmem := mem_precedence hk
      rw [hsplit] at hsorted hmem
      rcases List.mem_append.mp hmem with hmem | hmem
      · simpa [hk] using hbefore k hmem
      · rcases List.mem_cons.mp hmem with rfl | hmem
        · exact le_rfl
        · exact (List.rel_of_pairwise_cons (List.pairwise_append.mp hsorted).2.1 hmem).le

theorem phrase_plain {phrase : String} (h : phrase ∈ k.phrases) :
    ∀ c ∈ phrase.toList, c.isAscii ∧ c ≠ '\n' := by
  have plain : k.phrases.all fun phrase =>
      phrase.toList.all fun c => c.isAscii && c != '\n' := by
    cases k <;> decide
  simpa using List.all_eq_true.mp plain phrase h

theorem tells_lines : Tells (s ++ '\n' :: t) k ↔ Tells s k ∨ Tells t k := by
  -- line by line, since no phrase has a line break
  unfold Tells
  rw [← or_or_distrib_left, ← exists_or]
  refine or_congr_right (exists_congr fun phrase => ?_)
  rw [← and_or_left]
  refine and_congr_right fun hp => ?_
  change _ <:+: s ++ (['\n'] ++ t) ↔ _
  exact Text.infix_across_iff (List.cons_ne_nil _ _) fun c hc hn =>
    (phrase_plain hp c hn).2 (List.mem_singleton.mp hc)

theorem Tells.mono (h : Tells s k) (hst : s <:+: t) : Tells t k :=
  h.imp id fun ⟨phrase,hp,hs⟩ => ⟨phrase,hp,hs.trans hst⟩

theorem told_lines (s t : List Char) : told (s ++ '\n' :: t) = min (told s) (told t) := by
  have hlines : {k | Tells (s ++ '\n' :: t) k} = {k | Tells s k} ∪ {k | Tells t k} :=
    Set.ext fun _ => tells_lines
  have hleast := isLeast_told (s ++ '\n' :: t)
  rw [hlines] at hleast
  exact hleast.unique ((isLeast_told s).union (isLeast_told t))

theorem told_le (h : s <:+: t) : told t ≤ told s :=
  (isLeast_told s).mono (isLeast_told t) fun _ hk => hk.mono h

theorem told_of_lowers {cs : List Char} (h : Text.Lowers cs low) :
    told low = told (Text.lowered cs) := by
  have hforms : {k | Tells low k} = {k | Tells (Text.lowered cs) k} := by
    refine Set.ext fun k => or_congr_right (exists_congr fun phrase => and_congr_right fun hp => ?_)
    exact h.infix_iff (fun c hc => (phrase_plain hp c hc).1) []
  have hleast := isLeast_told low
  rw [hforms] at hleast
  exact hleast.unique (isLeast_told _)

end Told

section Outputs
variable {s t : String} {xs ys : List String}

theorem ofOutput_line (s t : String) :
    ofOutput (s ++ "\n" ++ t) = min (ofOutput s) (ofOutput t) := by
  have hlow : Text.lowered (s ++ "\n" ++ t).toList =
      Text.lowered s.toList ++ '\n' :: Text.lowered t.toList := by
    rw [String.toList_append, String.toList_append, Text.lowered_append, Text.lowered_append,
      List.append_assoc]
    rfl
  rw [ofOutput, hlow, told_lines]
  rfl

example : ofOutput "error: REJECTED\nssh: Could not resolve host" = network := by decide

theorem ofOutput_append_le (s t : String) :
    ofOutput (s ++ t) ≤ ofOutput s ∧ ofOutput (s ++ t) ≤ ofOutput t := by
  simp only [ofOutput, String.toList_append, Text.lowered_append]
  exact ⟨told_le (List.prefix_append _ _).isInfix,
    told_le (List.suffix_append _ _).isInfix⟩

/-- Two texts that differ at most in the case of ASCII letters. -/
def SameLetters (s t : String) : Prop :=
  s.toList.map Char.toLower = t.toList.map Char.toLower

theorem ofOutput_of_sameLetters (h : SameLetters s t) : ofOutput s = ofOutput t := by
  rw [ofOutput, ofOutput, ← Text.lowered_map_toLower s.toList, h,
    Text.lowered_map_toLower]

/-- An output is of the least of the kinds of its lines. -/
theorem le_ofOutput_lines {k : FailureKind} (xs : List String) :
    k ≤ ofOutput ("\n".intercalate xs) ↔ ∀ x ∈ xs, k ≤ ofOutput x := by
  induction xs with
  | nil =>
    have hempty : ofOutput ("\n".intercalate []) = unknown := by decide
    rw [hempty]
    exact iff_of_true (le_unknown k) nofun
  | cons x xs ih =>
    cases xs with
    | nil => simp
    | cons y ys =>
      simp only [String.intercalate_cons_cons, ofOutput_line, le_min_iff, ih, List.forall_mem_cons]

def Covers (ys xs : List String) : Prop := ∀ x ∈ xs, ofOutput x ≠ unknown → x ∈ ys

theorem Covers.le (h : Covers ys xs) :
    ofOutput ("\n".intercalate ys) ≤ ofOutput ("\n".intercalate xs) := by
  rw [le_ofOutput_lines]
  intro x hx
  by_cases hk : ofOutput x = unknown
  · rw [hk]
    exact le_unknown _
  · exact (le_ofOutput_lines ys).mp le_rfl x (h x hx hk)

/-- An output is of the least kind of which it has a phrase, and so are several lines of the least
of their kinds: their order, repeated lines and lines of no known kind do not matter. More text
never takes a phrase away, the case of ASCII letters does not matter, and neither does how the
characters outside ASCII are lowered. -/
theorem ofOutput_precedence :
    [network, permission, authentication, notFound, conflict, invalidRef, unknown].Pairwise
      (· < ·) ∧
    (∀ s, IsLeast {k | Tells (Text.lowered s.toList) k} (ofOutput s)) ∧
    (∀ s t, ofOutput (s ++ "\n" ++ t) = min (ofOutput s) (ofOutput t)) ∧
    (∀ xs ys, Covers xs ys → Covers ys xs →
      ofOutput ("\n".intercalate xs) = ofOutput ("\n".intercalate ys)) ∧
    (∀ s t, ofOutput (s ++ t) ≤ ofOutput s ∧ ofOutput (s ++ t) ≤ ofOutput t) ∧
    (∀ s t, SameLetters s t → ofOutput s = ofOutput t) ∧
    (∀ s low, Text.Lowers s.toList low → told low = ofOutput s) :=
  ⟨by decide,fun s => isLeast_told _,ofOutput_line,fun _ _ hxy hyx => le_antisymm hxy.le hyx.le,
    ofOutput_append_le,fun _ _ => ofOutput_of_sameLetters,fun _ _ => told_of_lowers⟩

end Outputs

end FailureKind
end GitPublish
