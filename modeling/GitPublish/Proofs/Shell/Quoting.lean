import GitPublish.Proofs.Effect
import GitPublish.Proofs.Shell.Word
import GitPublish.Session
import GitPublish.Shell.Expand
import Mathlib.Data.List.Forall2

/-!
# Quoted words make a command

Quoted texts with blanks between them are a line that a shell reads as so many words, one for each
text. Nothing in these words is replaced, split or taken for a pattern, so each becomes the text
that was quoted. So the path of a private key is one argument, whatever characters it has.
-/
namespace GitPublish.Shell

/-! ## Words of a line -/

namespace Token
variable {c : Char} {rest behind : List Char} {texts : List (List Char)} {fuel line : Nat}
  {w : Word}

theorem operator?_eq_none (h : c ∉ "&|;<>()".toList) (rest : List Char) :
    operator? (c :: rest) = none := by
  have hstarts : ∀ o ∈ operators, o.toList.head?.any "&|;<>()".toList.contains := by decide
  refine List.find?_eq_none.mpr fun o ho => ?_
  obtain ⟨d,hhead,hd⟩ := (Option.any_eq_true _ _).mp (hstarts o ho)
  obtain ⟨tail,ht⟩ := List.head?_eq_some_iff.mp hhead
  have hne : d ≠ c := fun he => h (he ▸ List.contains_iff_mem.mp hd)
  simp [ht, List.isPrefixOf, hne]

theorem operator?_end (h : IsEnd rest) : operator? rest = none := by
  rcases h with rfl | ⟨more,rfl⟩
  · rfl
  · exact operator?_eq_none (by decide) more

theorem scanFrom_nil (fuel line : Nat) : scanFrom fuel line [] = [] := by
  cases fuel <;> rfl

theorem scanFrom_blank (rest : List Char) :
    scanFrom (fuel + 1) line (' ' :: rest) = scanFrom fuel line rest := by
  rw [scanFrom]
  all_goals simp

/-- A quoted text starts with a quote, or with what means nothing to a shell. -/
theorem quote_cons (text : List Char) :
    ∃ c cs, quote text = c :: cs ∧ (c = '\'' ∨ c ∉ special) := by
  unfold quote
  split
  · exact ⟨_,_,rfl,.inl rfl⟩
  next h =>
    obtain ⟨hne,hplain⟩ := needsQuotes_eq_false.mp (Bool.eq_false_iff.mpr h)
    obtain ⟨c,cs,rfl⟩ := List.exists_cons_of_ne_nil hne
    exact ⟨c,cs,rfl,.inr (hplain c (List.mem_cons_self ..))⟩

theorem scanFrom_word (hc : c = '\'' ∨ c ∉ special)
    (h : readWord .script (c :: rest) = .ok (w, behind)) (hb : IsEnd behind) :
    ∃ next, scanFrom (fuel + 1) line (c :: rest) =
      ⟨line, .word w⟩ :: scanFrom fuel next behind := by
  have hne (d : Char) (hd : d ∈ special) (hq : d ≠ '\'') : c ≠ d := by
    rintro rfl
    exact hc.elim hq fun h => h hd
  have ho : operator? (c :: rest) = none := by
    have hspecial : "&|;<>()".toList.all fun d => special.contains d && d != '\'' := by decide
    refine operator?_eq_none (fun hm => ?_) rest
    obtain ⟨hs,hq⟩ := Bool.and_eq_true_iff.mp (List.all_eq_true.mp hspecial c hm)
    exact hne c (List.contains_iff_mem.mp hs) (bne_iff_ne.mp hq) rfl
  have hblank : ¬ (decide (c = ' ') || decide (c = '\t')) = true := by
    simp [hne ' ' (by decide) (by decide), hne '\t' (by decide) (by decide)]
  refine ⟨line + lineCount (c :: rest) - lineCount behind,?_⟩
  rw [scanFrom]
  case x => exact fun _ he => absurd he (hne _ (by decide) (by decide))
  case x_1 => exact fun he => absurd he (hne _ (by decide) (by decide))
  rw [if_neg hblank, if_neg (hne '#' (by decide) (by decide)), ho]
  dsimp only
  rw [h]
  dsimp only
  rw [operator?_end hb]
  split
  next hredirects => cases hredirects
  next => rfl

theorem scanFrom_quote (fuel line : Nat) (text : List Char) (hr : IsEnd rest) :
    ∃ w next, w.Spells text ∧ scanFrom (fuel + 1) line (quote text ++ rest) =
      ⟨line, .word w⟩ :: scanFrom fuel next rest := by
  obtain ⟨w,hw,hspells⟩ := readWord_quote text hr
  obtain ⟨c,cs,hq,hc⟩ := quote_cons text
  rw [hq, List.cons_append] at hw ⊢
  obtain ⟨next,hscan⟩ := scanFrom_word hc hw hr
  exact ⟨w,next,hspells,hscan⟩

/-- Quoted texts with blanks between them are read as one word each. -/
theorem scanFrom_quoted (texts : List (List Char)) (line : Nat)
    (hf : ([' '].intercalate (texts.map quote)).length < fuel) :
    ∃ ws, List.Forall₂ Word.Spells ws texts ∧
      (scanFrom fuel line ([' '].intercalate (texts.map quote))).map Located.token =
        ws.map .word := by
  induction texts generalizing fuel line with
  | nil => exact ⟨[],.nil,by rw [List.map_nil, List.intercalate_nil, scanFrom_nil]; rfl⟩
  | cons text texts ih =>
    obtain ⟨fuel,rfl⟩ := Nat.exists_eq_succ_of_ne_zero (Nat.ne_zero_of_lt hf)
    by_cases ht : texts = []
    · rw [ht, List.map_cons, List.map_nil, List.intercalate_singleton]
      obtain ⟨w,next,hw,hscan⟩ := scanFrom_quote fuel line text (.inl rfl)
      rw [List.append_nil] at hscan
      rw [hscan, scanFrom_nil]
      exact ⟨[w],.cons hw .nil,rfl⟩
    have hjoin : [' '].intercalate ((text :: texts).map quote) =
        quote text ++ ' ' :: [' '].intercalate (texts.map quote) := by
      rw [List.map_cons, List.intercalate_cons_of_ne_nil (by simpa using ht),
        List.append_assoc]
      rfl
    rw [hjoin] at hf ⊢
    rw [List.length_append, List.length_cons] at hf
    obtain ⟨w,next,hw,hscan⟩ := scanFrom_quote fuel line text (.inr ⟨_,rfl⟩)
    obtain ⟨c,cs,hq,-⟩ := quote_cons text
    rw [hq, List.length_cons] at hf
    obtain ⟨fuel,rfl⟩ := Nat.exists_eq_succ_of_ne_zero (n := fuel) (by omega)
    have hlength : ([' '].intercalate (texts.map quote)).length < fuel := by omega
    obtain ⟨ws,hws,hrest⟩ := ih next hlength
    refine ⟨w :: ws,.cons hw hws,?_⟩
    rw [hscan, scanFrom_blank, List.map_cons, hrest]
    rfl

end Token

/-! ## What becomes of a word -/

def Piece.glyphs : Piece → List Glyph
  | .text true cs => Glyph.ofQuoted cs
  | .text false cs => cs.map (Glyph.char false)
  | .expansion .. => []

theorem Piece.chars_of_glyphs {piece : Piece} (h : piece.glyphs = []) : piece.chars = [] := by
  match piece with
  | .text true cs => cases h
  | .text false cs =>
    rw [List.map_eq_nil_iff.mp h]
    rfl
  | .expansion quoted e => rfl

namespace Glyph
variable {gs rest : List Glyph} {back : List (Bool × Char)} {w : Word} {text : List Char}

theorem fields_chars (quoted : Bool) (cs : List Char) (back : List (Bool × Char))
    (rest : List Glyph) : fields (some back) (cs.map (char quoted) ++ rest) =
      fields (some ((cs.map (quoted, ·)).reverse ++ back)) rest := by
  induction cs generalizing back with
  | nil => rfl
  | cons c cs ih =>
    rw [List.map_cons, List.cons_append, fields, Option.getD_some, ih]
    simp

theorem fields_piece (piece : Piece) (back : List (Bool × Char)) (rest : List Glyph) :
    fields (some back) (piece.glyphs ++ rest) =
      fields (some (piece.chars.reverse ++ back)) rest := by
  match piece with
  | .text false cs => exact fields_chars false cs back rest
  | .text true cs => exact fields_chars true cs back rest
  | .expansion quoted e => rfl

/-- Text is never divided. -/
theorem fields_word (w : Word) (back : List (Bool × Char)) :
    fields (some back) (w.flatMap Piece.glyphs) = [back.reverse ++ w.flatMap Piece.chars] := by
  induction w generalizing back with
  | nil => simp [fields]
  | cons piece w ih => simp [fields_piece, ih]

theorem fields_none (hg : gap ∉ gs) (hne : gs ≠ []) : fields none gs = fields (some []) gs := by
  obtain ⟨g,rest,rfl⟩ := List.exists_cons_of_ne_nil hne
  cases g with
  | gap => exact absurd (List.mem_cons_self ..) hg
  | mark | char => rfl

theorem gap_not_mem (w : Word) : gap ∉ w.flatMap Piece.glyphs := by
  intro h
  obtain ⟨piece,-,hp⟩ := List.mem_flatMap.mp h
  match piece with
  | .text false cs => simp [Piece.glyphs] at hp
  | .text true cs => simp [Piece.glyphs, ofQuoted] at hp
  | .expansion quoted e => cases hp

/-- A word that stands for a text is one field, even if the text is empty. -/
theorem fields_spells (h : w.Spells text) :
    fields none (w.flatMap Piece.glyphs) = [w.flatMap Piece.chars] := by
  have hne : w.flatMap Piece.glyphs ≠ [] := by
    rw [Ne, List.flatMap_eq_nil_iff]
    intro hnil
    rcases h.present with hne | ⟨cs,hcs⟩
    · refine hne ?_
      rw [← h.chars, List.map_eq_nil_iff, List.flatMap_eq_nil_iff]
      exact fun piece hp => Piece.chars_of_glyphs (hnil piece hp)
    · cases hnil _ hcs
  rw [fields_none (gap_not_mem w) hne, fields_word]
  rfl

end Glyph

theorem PatternItem.isProper_ofChars {cs : List (Bool × Char)}
    (h : ∀ c ∈ special, (false, c) ∉ cs) : isProper (ofChars 0 cs) = false := by
  induction cs with
  | nil => rfl
  | cons x cs ih =>
    obtain ⟨quoted,c⟩ := x
    have hcs := ih fun d hd hm => h d hd (List.mem_cons_of_mem _ hm)
    have hchar : ofChars 0 ((quoted, c) :: cs) = char c :: ofChars 0 cs := by
      cases quoted with
      | true => rfl
      | false =>
        have hne (d : Char) (hd : d ∈ special) : c ≠ d := fun he =>
          h d hd (he ▸ List.mem_cons_self ..)
        rw [ofChars]
        case x_1 | x_2 | x_3 => exact hne _ (by decide)
        rfl
    rw [hchar]
    exact hcs

namespace Action
variable {w : Word} {text : List Char}

theorem run_atHome (h : w.Spells text) (s : State) : ExceptT.run (atHome w) s = (.ok w, s) := by
  unfold atHome
  split
  next cs rest => 
    refine absurd ?_ (h.quoted '~' (by decide))
    simp [Piece.chars]
  next => rfl

/-- Text is expanded to itself. -/
theorem run_expand (h : ∀ piece ∈ w, ∃ quoted cs, piece = .text quoted cs)
    (output : List Char → Action (List UInt8)) (fuel : Nat) (splits : Bool) (s : State) :
    ExceptT.run (expand output (fuel + 1) splits w) s = (.ok (w.flatMap Piece.glyphs), s) := by
  rw [expand]
  refine (run_bind_ok (run_mapM_of_leaves (g := Piece.glyphs) fun piece hp => ?_)).trans ?_
  · obtain ⟨quoted,cs,rfl⟩ := h piece hp
    cases quoted <;> rfl
  · rw [run_pure, List.flatMap_def]

/-- Such a word becomes the text that it stands for, whatever the shell holds. -/
theorem run_fields (h : w.Spells text) (output : List Char → Action (List UInt8)) (fuel : Nat)
    (s : State) : ExceptT.run (fields output (fuel + 1) w) s = (.ok [String.ofList text], s) := by
  rw [fields, run_bind, run_atHome h]
  dsimp only
  rw [run_bind, run_expand h.pieces]
  dsimp only
  rw [run_bind, run_get]
  dsimp only
  rw [run_pure, Glyph.fields_spells h]
  simp [PatternItem.isProper_ofChars h.quoted, h.chars]

end Action

/-! ## Command lines -/

/-- A text that a shell reads as a single command of these words: nothing else is on its lines, and
whatever the shell holds, each word becomes the text that is given for it. -/
structure IsCommand (line : String) (ws : List Word) (texts : List String) : Prop where
  tokens : (Token.scan line.toList).map Located.token = ws.map .word
  command : ∃ n, Reader.line.run (Token.scan line.toList) = .ok (some (.simple n [] ws []), [])
  spelled : List.Forall₂ (fun w text => w.Spells text.toList) ws texts
  fields : List.Forall₂ (fun w text => ∀ output fuel s,
    ExceptT.run (Action.fields output (fuel + 1) w) s = (.ok [text], s)) ws texts

/-- Letters, digits and these few need no quotes. -/
theorem needsQuotes_of_common {text : List Char} (hne : text ≠ [])
    (h : ∀ c ∈ text, c.isAlphanum ∨ c ∈ "/._-".toList) : needsQuotes text = false := by
  have hspecial : special.all fun d => !(d.isAlphanum || "/._-".toList.contains d) := by decide
  refine needsQuotes_eq_false.mpr ⟨hne,fun c hc hs => ?_⟩
  have hother := List.all_eq_true.mp hspecial c hs
  rw [Bool.not_eq_true', Bool.or_eq_false_iff] at hother
  rcases h c hc with ha | hm
  · exact nomatch ha.symm.trans hother.1
  · exact nomatch (List.contains_iff_mem.mpr hm).symm.trans hother.2

/-- A word between `ssh -i` and the end of the line is the last of a command. -/
theorem Reader.line_ssh {tokens : List Located} {w : Word}
    (h : tokens.map Located.token =
      [[.text false "ssh".toList], [.text false "-i".toList], w].map .word) :
    ∃ n, Reader.line.run tokens = .ok (some (.simple n []
      [[.text false "ssh".toList], [.text false "-i".toList], w] []), []) := by
  obtain ⟨⟨n,_⟩,behind,rfl,rfl,hi⟩ := List.map_eq_cons_iff.mp h
  obtain ⟨⟨_,_⟩,last,rfl,rfl,hw⟩ := List.map_eq_cons_iff.mp hi
  obtain ⟨⟨_,_⟩,none,rfl,rfl,hend⟩ := List.map_eq_cons_iff.mp hw
  obtain rfl := List.map_eq_nil_iff.mp hend
  exact ⟨n,rfl⟩

end GitPublish.Shell

namespace GitPublish
open Shell

/-- The line that makes `git` use a private key is one command that calls `ssh` with the path of the
key. The path is quoted unless it is made of letters, digits and what is common in paths. -/
theorem keyOverrides_command (key : Path) : ∃ line w,
    keyOverrides (some key) = [("GIT_SSH_COMMAND", line)] ∧
    IsCommand line [[.text false "ssh".toList], [.text false "-i".toList], w]
      ["ssh", "-i", key.text] ∧
    (key.text ≠ "" → (∀ c ∈ key.text.toList, c.isAlphanum ∨ c ∈ "/._-".toList) →
      line = "ssh -i " ++ key.text ∧ w = [.text false key.text.toList]) := by
  have htext : [' '].intercalate (["ssh".toList, "-i".toList, key.text.toList].map quote) =
      ("ssh -i " ++ String.ofList (quote key.text.toList)).toList := by
    have hssh : quote ['s', 's', 'h'] = ['s', 's', 'h'] := by decide
    have hi : quote ['-', 'i'] = ['-', 'i'] := by decide
    simp [List.intercalate_cons_cons, hssh, hi, String.toList_append]
  obtain ⟨ws,hws,hscan⟩ := Token.scanFrom_quoted
    ["ssh".toList, "-i".toList, key.text.toList] 1 (Nat.lt_succ_self _)
  rw [htext] at hscan
  obtain _ | ⟨hssh, _ | ⟨hi, _ | ⟨hkey, - | -⟩⟩⟩ := hws
  obtain rfl := hssh.bare (by decide)
  obtain rfl := hi.bare (by decide)
  have hspelled : List.Forall₂ (fun (w : Word) (text : String) => w.Spells text.toList)
      [[.text false "ssh".toList], [.text false "-i".toList], _] ["ssh", "-i", key.text] :=
    .cons hssh (.cons hi (.cons hkey .nil))
  refine ⟨_,_,rfl,⟨hscan,Reader.line_ssh hscan,hspelled,?_⟩,fun hne hplain => ?_⟩
  · refine hspelled.imp fun w text h output fuel s => ?_
    rw [Action.run_fields h, String.ofList_toList]
  · have hbare := needsQuotes_of_common (mt String.toList_eq_nil_iff.mp hne) hplain
    rw [quote, hbare, if_neg Bool.false_ne_true, String.ofList_toList]
    exact ⟨rfl,hkey.bare hbare⟩

/-- The path of a key as it usually is. -/
theorem keyOverrides_command_usual : "/home/me/.ssh/id_ed25519" ≠ "" ∧
    (∀ c ∈ "/home/me/.ssh/id_ed25519".toList, c.isAlphanum ∨ c ∈ "/._-".toList) ∧ ∃ line w,
      keyOverrides (some ⟨"/home/me/.ssh/id_ed25519"⟩) = [("GIT_SSH_COMMAND", line)] ∧
      IsCommand line [[.text false "ssh".toList], [.text false "-i".toList], w]
        ["ssh", "-i", "/home/me/.ssh/id_ed25519"] ∧
      line = "ssh -i /home/me/.ssh/id_ed25519" := by
  have hne : "/home/me/.ssh/id_ed25519" ≠ "" := by decide
  have hplain : "/home/me/.ssh/id_ed25519".toList.all fun c =>
    c.isAlphanum || "/._-".toList.contains c := by decide
  have hcommon : ∀ c ∈ "/home/me/.ssh/id_ed25519".toList, c.isAlphanum ∨ c ∈ "/._-".toList :=
    fun c hc => (Bool.or_eq_true_iff.mp (List.all_eq_true.mp hplain c hc)).imp_right
      List.contains_iff_mem.mp
  obtain ⟨line,w,hentry,hcommand,hbare⟩ := keyOverrides_command ⟨"/home/me/.ssh/id_ed25519"⟩
  exact ⟨hne,hcommon,line,w,hentry,hcommand,(hbare hne hcommon).1⟩

example : keyOverrides (some ⟨"it's; a key"⟩) =
    [("GIT_SSH_COMMAND", "ssh -i 'it'\\''s; a key'")] := by decide

end GitPublish
