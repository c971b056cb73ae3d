import GitPublish.Toml.Print
import GitPublish.Toml.Scan

/-!
# Texts in quotes are read back

Whatever quotes a text is written in, reading takes it back and stops right behind it. A written
text is a row of codes, each of which a reader takes for one character; between three quotes, one or
two quotes in a row may stand for themselves.
-/
namespace GitPublish.Toml

/-- A reader of the rest of a text: it has so much fuel, and has read so much, in reverse order. -/
abbrev TextReader := Nat → List Char → List Char → Option (List Char × List Char)

/-- A reader takes a code for a character. The code does not start with a quote, and with the end of
a line only if it stands for that. -/
structure Codes (read : TextReader) (quote c : Char) (code : List Char) : Prop where
  head : ∃ d more, code = d :: more ∧ d ≠ quote ∧ d ≠ '\r' ∧ (d = '\n' → c = '\n')
  taken : ∀ fuel back rest, read (fuel + 1) back (code ++ rest) = read fuel (c :: back) rest

/-- A text as codes and quotes, behind a run of quotes. No run is longer than the limit. -/
inductive Written (read : TextReader) (quote : Char) (limit : Nat) :
    Nat → List Char → List Char → Prop
  | nil {run : Nat} : Written read quote limit run [] []
  | quote {run : Nat} {cs ws : List Char} : run < limit →
      Written read quote limit (run + 1) cs ws →
      Written read quote limit run (quote :: cs) (quote :: ws)
  | code {run : Nat} {c : Char} {code cs ws : List Char} : Codes read quote c code →
      Written read quote limit 0 cs ws → Written read quote limit run (c :: cs) (code ++ ws)

variable {read : TextReader} {quote c : Char} {limit run fuel : Nat}
  {cs ws code back rest : List Char}

/-- A written text consists of quotes that the run may be followed by, or has something else behind
these. -/
theorem Written.quotes (h : Written read quote limit run cs ws) (hr : run ≤ limit) :
    (∃ k, k + run ≤ limit ∧ cs = List.replicate k quote ∧ ws = List.replicate k quote) ∨
      ∃ k d more, k + run ≤ limit ∧ d ≠ quote ∧ ws = List.replicate k quote ++ d :: more := by
  induction h with
  | nil => exact .inl ⟨0,by omega,rfl,rfl⟩
  | quote hlt _ ih =>
    rcases ih hlt with ⟨k,hk,rfl,rfl⟩ | ⟨k,d,more,hk,hd,rfl⟩
    · exact .inl ⟨k + 1,by omega,rfl,rfl⟩
    · exact .inr ⟨k + 1,d,more,by omega,hd,rfl⟩
  | code hc _ _ =>
    obtain ⟨d,more,rfl,hd,-⟩ := hc.head
    exact .inr ⟨0,d,more ++ _,by omega,hd,rfl⟩

/-- A text on one line starts with no quote, unless it is empty. -/
theorem Written.head (h : Written read quote 0 0 cs ws) :
    (cs = [] ∧ ws = []) ∨ ∃ d more, d ≠ quote ∧ ws = d :: more := by
  rcases h.quotes (Nat.le_refl 0) with ⟨k,hk,rfl,rfl⟩ | ⟨k,d,more,hk,hd,rfl⟩
  · obtain rfl : k = 0 := by omega
    exact .inl ⟨rfl,rfl⟩
  · obtain rfl : k = 0 := by omega
    exact .inr ⟨d,more,hd,rfl⟩

theorem Written.length_le (h : Written read quote limit run cs ws) : cs.length ≤ ws.length := by
  induction h with
  | nil => exact Nat.le_refl 0
  | quote _ _ ih => exact Nat.succ_le_succ ih
  | code hc _ ih =>
    obtain ⟨d,more,rfl,-⟩ := hc.head
    rw [List.length_append, List.length_cons, List.length_cons]
    omega

/-! ## Readers -/

theorem readLineText?_quote : readLineText? quote (fuel + 1) back (quote :: rest) =
    some (back.reverse, rest) := by
  rw [readLineText?, if_pos rfl]

/-- A text on one line is read up to its quote. -/
theorem Written.read_line (h : Written (readLineText? quote) quote 0 run cs ws)
    (hf : cs.length < fuel) : readLineText? quote fuel back (ws ++ quote :: rest) =
      some (back.reverse ++ cs, rest) := by
  induction h generalizing fuel back with
  | nil =>
    obtain ⟨fuel,rfl⟩ := Nat.exists_eq_add_one_of_ne_zero (Nat.ne_zero_of_lt hf)
    rw [List.nil_append, readLineText?_quote, List.append_nil]
  | quote hlt => exact absurd hlt (Nat.not_lt_zero _)
  | code hc _ ih =>
    obtain ⟨fuel,rfl⟩ := Nat.exists_eq_add_one_of_ne_zero (Nat.ne_zero_of_lt hf)
    rw [List.append_assoc, hc.taken, ih (Nat.lt_of_succ_lt_succ hf), List.reverse_cons,
      List.append_assoc, List.singleton_append]

theorem takeWhile_quotes (k : Nat) (hrest : rest.head? ≠ some quote) :
    (List.replicate k quote ++ rest).takeWhile (· = quote) = List.replicate k quote := by
  have htail : rest.takeWhile (· = quote) = [] := by
    cases rest with
    | nil => rfl
    | cons d rest =>
      exact List.takeWhile_cons_of_neg (by simpa using hrest)
  rw [List.takeWhile_append_of_pos (by simp [List.mem_replicate]), htail, List.append_nil]

/-- What is read at a quote depends on how many there are in a row. -/
theorem readLinesText?_run (hn : quote ≠ '\n') (hr : quote ≠ '\r') :
    readLinesText? quote (fuel + 1) back (quote :: rest) =
      let count := min 5 ((quote :: rest).takeWhile (· = quote)).length
      if 3 ≤ count then
        some ((List.replicate (count - 3) quote ++ back).reverse, (quote :: rest).drop count)
      else readLinesText? quote fuel (quote :: back) rest := by
  rw [readLinesText?, if_pos rfl]
  · exact fun h => hn h
  · exact fun _ h => absurd h hr

/-- A quote in a run that ends too soon stands for itself. -/
theorem readLinesText?_inner (hn : quote ≠ '\n') (hr : quote ≠ '\r') {k : Nat} (hk : k ≤ 1)
    {d : Char} (hd : d ≠ quote) (hrest : rest = List.replicate k quote ++ d :: ws) :
    readLinesText? quote (fuel + 1) back (quote :: rest) =
      readLinesText? quote fuel (quote :: back) rest := by
  have hcount : ((quote :: rest).takeWhile (· = quote)).length = k + 1 := by
    rw [hrest, ← List.cons_append, ← List.replicate_succ, takeWhile_quotes _ (by simpa using hd),
      List.length_replicate]
  rw [readLinesText?_run hn hr, hcount]
  exact if_neg (by omega)

/-- Three quotes end a text; up to two more in front of them belong to it. -/
theorem readLinesText?_end (hn : quote ≠ '\n') (hr : quote ≠ '\r') {k : Nat} (hk : k ≤ 2)
    (hrest : rest.head? ≠ some quote) :
    readLinesText? quote (fuel + 1) back (List.replicate (k + 3) quote ++ rest) =
      some (back.reverse ++ List.replicate k quote, rest) := by
  have hcount : ((quote :: (List.replicate (k + 2) quote ++ rest)).takeWhile (· = quote)).length =
      k + 3 := by
    rw [← List.cons_append, ← List.replicate_succ, takeWhile_quotes _ hrest, List.length_replicate]
  have hmin : min 5 (k + 3) = k + 3 := by omega
  have hdrop : (List.replicate (k + 3) quote ++ rest).drop (k + 3) = rest :=
    List.drop_left' List.length_replicate
  rw [List.replicate_succ, List.cons_append, readLinesText?_run hn hr, hcount]
  dsimp only
  rw [hmin, if_pos (by omega), ← List.cons_append, ← List.replicate_succ, hdrop, Nat.add_sub_cancel,
    List.reverse_append, List.reverse_replicate]

/-- A text of several lines is read up to its three quotes. -/
theorem Written.read_lines (h : Written (readLinesText? quote) quote 2 run cs ws)
    (hn : quote ≠ '\n') (hr : quote ≠ '\r') (hrun : run ≤ 2) (hrest : rest.head? ≠ some quote)
    (hf : cs.length < fuel) :
    readLinesText? quote fuel back (ws ++ (List.replicate 3 quote ++ rest)) =
      some (back.reverse ++ cs, rest) := by
  induction h generalizing fuel back with
  | nil =>
    obtain ⟨fuel,rfl⟩ := Nat.exists_eq_add_one_of_ne_zero (Nat.ne_zero_of_lt hf)
    exact readLinesText?_end hn hr (Nat.zero_le 2) hrest
  | @quote run cs ws hlt hw ih =>
    obtain ⟨fuel,rfl⟩ := Nat.exists_eq_add_one_of_ne_zero (Nat.ne_zero_of_lt hf)
    -- the quotes at the end of the text are read together with those behind it
    rcases hw.quotes hlt with ⟨k,hk,rfl,rfl⟩ | ⟨k,d,more,hk,hd,rfl⟩
    · rw [← List.replicate_succ, ← List.append_assoc, List.replicate_append_replicate,
        readLinesText?_end hn hr (by omega) hrest]
    · rw [List.cons_append, readLinesText?_inner hn hr (k := k) (by omega) hd
        (List.append_assoc ..), ih hlt (Nat.lt_of_succ_lt_succ hf)]
      simp
  | code hc _ ih =>
    obtain ⟨fuel,rfl⟩ := Nat.exists_eq_add_one_of_ne_zero (Nat.ne_zero_of_lt hf)
    rw [List.append_assoc, hc.taken, ih (Nat.zero_le 2) (Nat.lt_of_succ_lt_succ hf)]
    simp

/-! ## Codes -/

theorem hexValue?_hexDigit {n : Nat} (h : n < 16) : Url.hexValue? (Url.hexDigit n) = some n := by
  have hall : ∀ n : Fin 16, Url.hexValue? (Url.hexDigit n) = some n.val := by decide
  exact hall ⟨n,h⟩

theorem toNat_lt_of_isCode (h : isCode c) : c.toNat < 128 := by
  unfold isCode at h
  rcases Bool.or_eq_true_iff.mp h with h | h
  · obtain ⟨⟨h,-⟩,-⟩ : (c < ' ' ∧ c ≠ '\t') ∧ c ≠ '\n' := by simpa using h
    have hlt : c.toNat < ' '.toNat := h
    have : ' '.toNat = 32 := rfl
    omega
  · obtain rfl : c = '\x7f' := by simpa using h
    decide

/-- Two hexadecimal digits behind two zeros are read as the character that they give. -/
theorem hexChar?_code (h : c.toNat < 128) (rest : List Char) :
    hexChar? 4 ('0' :: '0' :: Url.hexDigit (c.toNat / 16) :: Url.hexDigit (c.toNat % 16) :: rest) =
      some (c, rest) := by
  have hhigh := hexValue?_hexDigit (n := c.toNat / 16) (by omega)
  have hlow := hexValue?_hexDigit (n := c.toNat % 16) (by omega)
  have hzero : Url.hexValue? '0' = some 0 := by decide
  have hvalue : c.toNat / 16 * 16 + c.toNat % 16 = c.toNat := Nat.div_add_mod' c.toNat 16
  have hvalid : c.toNat < 55296 := by omega
  simp [hexChar?, hhigh, hlow, hzero, hvalue, hvalid, Char.ofNat_toNat]

/-- What stands behind a backslash for a character, on one line and on several. -/
def Escapes (c : Char) (code : List Char) : Prop :=
  ∀ rest, escape? (code ++ rest) = some (c, rest) ∧ continueLine? (code ++ rest) = none

/-- Behind a backslash, a line goes on only with a blank or at its end. -/
theorem Escapes.of_head {d : Char} (hd : isSpace d = false ∧ d ≠ '\n' ∧ d ≠ '\r')
    (h : ∀ rest, escape? (d :: (code ++ rest)) = some (c, rest)) : Escapes c (d :: code) := by
  obtain ⟨hs,hn,hr⟩ := hd
  exact fun rest => ⟨h rest,by simp [continueLine?, skipSpace, hs, lineEnd?, hn, hr]⟩

theorem isText_of_not_isCode (h : isCode c = false) (hn : c ≠ '\n') : isText c := by
  have hlt : ¬ c < ' ' ∨ c = '\t' := by
    by_cases ht : c = '\t'
    · exact .inr ht
    · simp_all [isCode]
  have hdel : c ≠ '\x7f' := by
    rintro rfl
    cases h
  rcases hlt with hlt | rfl
  · simp [isText, hdel, Char.not_lt.mp hlt]
  · rfl

/-- A character is escaped, or it stands for itself. -/
theorem escapeCode_cases (lines : Bool) (c : Char) :
    (∃ code, escapeCode lines c = '\\' :: code ∧ Escapes c code) ∨
      (escapeCode lines c = [c] ∧ c ≠ '\\' ∧ c ≠ '\r' ∧
        (isText c ∧ c ≠ '\n' ∨ lines ∧ c = '\n')) := by
  unfold escapeCode
  split
  next h => exact .inl ⟨['b'],rfl,h ▸ .of_head (by decide) fun _ => rfl⟩
  split
  next h => exact .inl ⟨['t'],rfl,h ▸ .of_head (by decide) fun _ => rfl⟩
  split
  next h =>
    split
    next hl => exact .inr ⟨h ▸ rfl,h ▸ by decide,h ▸ by decide,.inr ⟨hl,h⟩⟩
    next => exact .inl ⟨['n'],rfl,h ▸ .of_head (by decide) fun _ => rfl⟩
  next hn =>
  split
  next h => exact .inl ⟨['f'],rfl,h ▸ .of_head (by decide) fun _ => rfl⟩
  split
  next h => exact .inl ⟨['r'],rfl,h ▸ .of_head (by decide) fun _ => rfl⟩
  next hr =>
  split
  next h =>
    subst h
    exact .inl ⟨['\\'],rfl,.of_head (by decide) fun _ => rfl⟩
  next hb =>
  split
  next h =>
    exact .inl ⟨_,rfl,.of_head (by decide) fun rest => hexChar?_code (toNat_lt_of_isCode h) rest⟩
  next h => exact .inr ⟨rfl,hb,hr,.inl ⟨isText_of_not_isCode (by simpa using h) hn,hn⟩⟩

theorem codes_line (ht : isText c) (hq : c ≠ quote) (hb : c = '\\' → quote ≠ '"') :
    Codes (readLineText? quote) quote c [c] where
  head := ⟨c,[],rfl,hq,(by rintro rfl; cases ht),id⟩
  taken fuel back rest := by
    rw [List.singleton_append, readLineText?, if_neg hq, if_neg (by simpa using hb), if_pos ht]

theorem codes_lines (ht : isText c ∧ c ≠ '\n' ∨ c = '\n') (hr : c ≠ '\r') (hq : c ≠ quote)
    (hb : c = '\\' → quote ≠ '"') : Codes (readLinesText? quote) quote c [c] where
  head := ⟨c,[],rfl,hq,hr,id⟩
  taken fuel back rest := by
    rcases ht with ⟨ht,hn⟩ | rfl
    · rw [List.singleton_append, readLinesText?, if_neg hq, if_neg (by simpa using hb), if_pos ht]
      · exact hn
      · exact fun _ h => absurd h hr
    · rw [List.singleton_append, readLinesText?]

theorem codes_line_escape (h : Escapes c code) :
    Codes (readLineText? '"') '"' c ('\\' :: code) where
  head := ⟨'\\',code,rfl,by decide,by decide,fun h => absurd h (by decide)⟩
  taken fuel back rest := by
    rw [List.cons_append, readLineText?, if_neg (by decide), if_pos (by decide), (h rest).1]

theorem codes_lines_escape (h : Escapes c code) :
    Codes (readLinesText? '"') '"' c ('\\' :: code) where
  head := ⟨'\\',code,rfl,by decide,by decide,fun h => absurd h (by decide)⟩
  taken fuel back rest := by
    rw [List.cons_append, readLinesText?, if_neg (by decide), if_pos (by decide), (h rest).1,
      (h rest).2]
    · decide
    · intro _ h
      cases h

/-! ## Texts -/

/-- Between double quotes, every text is written. -/
theorem written_escapeFrom (lines : Bool) {read : TextReader} {limit : Nat}
    (hplain : ∀ c, c ≠ '"' → c ≠ '\\' → c ≠ '\r' → (isText c ∧ c ≠ '\n' ∨ lines ∧ c = '\n') →
      Codes read '"' c [c])
    (hescape : ∀ c code, Escapes c code → Codes read '"' c ('\\' :: code)) (run : Nat)
    (cs : List Char) : Written read '"' limit run cs (escapeFrom lines limit run cs) := by
  induction cs generalizing run with
  | nil => exact .nil
  | cons c cs ih =>
    rw [escapeFrom]
    split
    next hq =>
      subst hq
      split
      next hlt => exact .quote hlt (ih (run + 1))
      next => exact .code (hescape '"' ['"'] (.of_head (by decide) fun _ => rfl)) (ih 0)
    next hq =>
      rcases escapeCode_cases lines c with ⟨code,he,hcode⟩ | ⟨he,hb,hr,ht⟩ <;> rw [he]
      · exact .code (hescape c code hcode) (ih 0)
      · exact .code (hplain c hq hb hr ht) (ih 0)

theorem written_basic (cs : List Char) :
    Written (readLineText? '"') '"' 0 0 cs (escapeFrom false 0 0 cs) := by
  refine written_escapeFrom false (fun c hq hb _ ht => ?_) (fun _ _ => codes_line_escape) 0 cs
  have ht : isText c := by simpa using ht.elim And.left (by simp)
  exact codes_line ht hq fun h => absurd h hb

theorem written_basicLines (cs : List Char) :
    Written (readLinesText? '"') '"' 2 0 cs (escapeFrom true 2 0 cs) := by
  refine written_escapeFrom true (fun c hq hb hr ht => ?_) (fun _ _ => codes_lines_escape) 0 cs
  exact codes_lines (ht.imp_right And.right) hr hq fun h => absurd h hb

/-- Between single quotes, a text without them and without codes is written as it is. -/
theorem written_literal (h : ∀ c ∈ cs, isText c ∧ c ≠ '\'') :
    Written (readLineText? '\'') '\'' 0 0 cs cs := by
  induction cs with
  | nil => exact .nil
  | cons c cs ih =>
    obtain ⟨⟨ht,hq⟩,hcs⟩ := List.forall_mem_cons.mp h
    exact .code (codes_line ht hq fun _ => by decide) (ih hcs)

theorem le_longestRun (c : Char) (run : Nat) (cs : List Char) : run ≤ longestRun c run cs := by
  induction cs generalizing run with
  | nil => exact Nat.le_refl run
  | cons d cs ih =>
    rw [longestRun]
    split
    · exact Nat.le_trans (Nat.le_succ run) (ih (run + 1))
    · exact Nat.le_max_left ..

theorem written_literalLines (h : ∀ c ∈ cs, isCode c = false)
    (hl : longestRun '\'' run cs ≤ 2) : Written (readLinesText? '\'') '\'' 2 run cs cs := by
  induction cs generalizing run with
  | nil => exact .nil
  | cons c cs ih =>
    obtain ⟨hc,hcs⟩ := List.forall_mem_cons.mp h
    rw [longestRun] at hl
    split at hl
    next hq =>
      subst hq
      exact .quote (Nat.lt_of_succ_le (Nat.le_trans (le_longestRun _ _ cs) hl)) (ih hcs hl)
    next hq =>
      have hr : c ≠ '\r' := by
        rintro rfl
        cases hc
      have ht : isText c ∧ c ≠ '\n' ∨ c = '\n' := by
        by_cases hn : c = '\n'
        · exact .inr hn
        · exact .inl ⟨isText_of_not_isCode hc hn,hn⟩
      exact .code (codes_lines ht hr hq fun _ => by decide) (ih hcs (by omega))

/-- A style can hold a text: what is between its quotes is read as the text. -/
def QuoteStyle.Holds (cs : List Char) : QuoteStyle → Prop
  | literal => ∀ c ∈ cs, isText c ∧ c ≠ '\''
  | literalLines => (∀ c ∈ cs, isCode c = false) ∧ longestRun '\'' 0 cs ≤ 2
  | basic | basicLines => True

theorem holds_quoteStyle (cs : List Char) : (quoteStyle cs).Holds cs := by
  unfold quoteStyle
  dsimp only
  split
  · trivial
  split
  next h =>
    obtain ⟨⟨hcode,hn⟩,hq⟩ : ((∀ c ∈ cs, isCode c = false) ∧ '\n' ∉ cs) ∧ '\'' ∉ cs := by
      simpa using h
    intro c hc
    refine ⟨isText_of_not_isCode (hcode c hc) ?_,?_⟩
    · rintro rfl
      exact hn hc
    · rintro rfl
      exact hq hc
  split
  · trivial
  split
  next h => simpa [QuoteStyle.Holds] using h
  split <;> trivial

theorem text?_one (hq : quote = '"' ∨ quote = '\'') (h : ∀ ys, rest ≠ quote :: quote :: ys) :
    text? fuel (quote :: rest) = readLineText? quote fuel [] rest := by
  have hthree (q : Char) (ys : List Char) : quote :: rest ≠ q :: q :: q :: ys := by
    intro heq
    obtain ⟨rfl,hrest⟩ := List.cons.inj heq
    exact h ys hrest
  rw [text?]
  · rcases hq with rfl | rfl <;> rfl
  · exact fun ys => hthree '"' ys
  · exact fun ys => hthree '\'' ys

theorem Written.text?_line (h : Written (readLineText? quote) quote 0 0 cs ws)
    (hq : quote = '"' ∨ quote = '\'') (hrest : rest.head? ≠ some quote) (hf : cs.length < fuel) :
    text? fuel (quote :: (ws ++ quote :: rest)) = some (cs, rest) := by
  rw [text?_one hq]
  · exact h.read_line hf
  intro ys
  rcases h.head with ⟨-,rfl⟩ | ⟨d,more,hd,rfl⟩
  · rintro heq
    rw [(List.cons.inj heq).2] at hrest
    exact hrest rfl
  · rintro heq
    exact hd (List.cons.inj heq).1

theorem text?_three (hq : quote = '"' ∨ quote = '\'') :
    text? fuel (List.replicate 3 quote ++ rest) =
      readLinesText? quote fuel [] ((lineEnd? rest).getD rest) := by
  rcases hq with rfl | rfl <;> rfl

/-- Without an end of a line in it, a text does not start with one. -/
theorem Written.lineEnd? (h : Written read quote limit run cs ws) (hn : '\n' ∉ cs)
    (hq : quote ≠ '\n' ∧ quote ≠ '\r') : lineEnd? (ws ++ quote :: rest) = none := by
  have hhead {d : Char} (hdn : d ≠ '\n') (hdr : d ≠ '\r') (more : List Char) :
      Toml.lineEnd? (d :: more) = none := by
    simp [Toml.lineEnd?, hdn, hdr]
  cases h with
  | nil => exact hhead hq.1 hq.2 rest
  | quote => exact hhead hq.1 hq.2 _
  | code hc =>
    obtain ⟨d,more,rfl,-,hr,hd⟩ := hc.head
    exact hhead (fun h => hn (hd h ▸ List.mem_cons_self ..)) hr _

theorem Written.text?_lines (h : Written (readLinesText? quote) quote 2 0 cs ws)
    (hq : quote = '"' ∨ quote = '\'') (hrest : rest.head? ≠ some quote) (hf : cs.length < fuel) :
    text? fuel (List.replicate 3 quote ++ ((if cs.contains '\n' then ['\n'] else []) ++
      (ws ++ (List.replicate 3 quote ++ rest)))) = some (cs, rest) := by
  have hend : quote ≠ '\n' ∧ quote ≠ '\r' := by rcases hq with rfl | rfl <;> decide
  rw [text?_three hq]
  split
  next => exact h.read_lines hend.1 hend.2 (Nat.zero_le 2) hrest hf
  next hn =>
    have hnone : Toml.lineEnd? (ws ++ quote :: (List.replicate 2 quote ++ rest)) = none :=
      h.lineEnd? (by simpa using hn) hend
    rw [List.nil_append, List.replicate_succ, List.cons_append, hnone]
    exact h.read_lines hend.1 hend.2 (Nat.zero_le 2) hrest hf

/-- A text in quotes is read back, whatever the quotes. -/
theorem text?_quoteIn {style : QuoteStyle} (h : style.Holds cs)
    (hrest : rest.head? ≠ some '"' ∧ rest.head? ≠ some '\'') (hf : cs.length < fuel) :
    text? fuel (quoteIn style cs ++ rest) = some (cs, rest) := by
  cases style with
  | basic =>
    have ht := (written_basic cs).text?_line (.inl rfl) hrest.1 hf
    delta quoteIn
    simpa using ht
  | literal =>
    have ht := (written_literal h).text?_line (.inr rfl) hrest.2 hf
    delta quoteIn
    simpa using ht
  | basicLines =>
    have ht := (written_basicLines cs).text?_lines (.inl rfl) hrest.1 hf
    delta quoteIn
    simp only [List.append_assoc]
    exact ht
  | literalLines =>
    have ht := (written_literalLines h.1 h.2).text?_lines (.inr rfl) hrest.2 hf
    delta quoteIn
    simp only [List.append_assoc]
    exact ht

theorem exists_quoteIn (style : QuoteStyle) (cs : List Char) :
    ∃ quote more, quoteIn style cs = quote :: more ∧ (quote = '"' ∨ quote = '\'') ∧
      cs.length ≤ more.length := by
  have hbasic := (written_basic cs).length_le
  have hlines := (written_basicLines cs).length_le
  cases style with
  | basic => exact ⟨_,_,rfl,.inl rfl,by simp; omega⟩
  | literal => exact ⟨_,_,rfl,.inr rfl,by simp⟩
  | basicLines => exact ⟨_,_,rfl,.inl rfl,by simp; omega⟩
  | literalLines => exact ⟨_,_,rfl,.inr rfl,by simp; omega⟩

theorem text?_quote (text : String) (hrest : rest.head? ≠ some '"' ∧ rest.head? ≠ some '\'')
    (hf : text.toList.length < fuel) :
    text? fuel ((Toml.quote text).toList ++ rest) = some (text.toList, rest) := by
  rw [Toml.quote, String.toList_ofList]
  exact text?_quoteIn (holds_quoteStyle text.toList) hrest hf

end GitPublish.Toml
