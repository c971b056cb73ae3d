import GitPublish.Proofs.Toml.Text
import GitPublish.Toml.Read

/-!
# Lines are read one by one

A document whose lines are headers and pairs of a plain key and a value is read line by line, and
what each line adds does not depend on what follows. A table that is written this way, header first,
is read with its entries in order.
-/
namespace GitPublish.Toml
variable {fuel : Nat} {rest : List Char} {d d' d'' : Draft} {text text' name key : String}
  {value : Value} {before entries : Entries}

/-- Reading a text takes a document from one state to another, whatever follows. -/
def Reads (d : Draft) (text : String) (d' : Draft) : Prop :=
  ∀ fuel rest, text.toList.length + rest.length < fuel → ∃ fuel', rest.length < fuel' ∧
    lines? fuel d (text.toList ++ rest) = lines? fuel' d' rest

theorem Reads.append (h : Reads d text d') (k : Reads d' text' d'') :
    Reads d (text ++ text') d'' := by
  intro fuel rest hf
  rw [String.toList_append, List.length_append] at hf
  obtain ⟨fuel₁,hf₁,h⟩ := h fuel (text'.toList ++ rest) (by rw [List.length_append]; omega)
  obtain ⟨fuel₂,hf₂,k⟩ := k fuel₁ rest (by rwa [List.length_append] at hf₁)
  exact ⟨fuel₂,hf₂,by rw [String.toList_append, List.append_assoc, h, k]⟩

theorem reads_empty (d : Draft) : Reads d "" d := fun fuel _ hf => ⟨fuel,by simpa using hf,rfl⟩

/-- A document that starts with no byte order mark is read to its end. -/
theorem Reads.read? (h : Reads ⟨[],[]⟩ text d) (hbom : text.toList.head? ≠ some '\ufeff') :
    read? text = some d.entries := by
  obtain ⟨fuel,hf,h⟩ := h (text.toList.length + 1) [] (Nat.lt_succ_self _)
  have hend : lines? fuel d [] = some d := by cases fuel <;> rfl
  rw [List.append_nil, hend] at h
  unfold Toml.read?
  split
  next heq =>
    rw [heq] at hbom
    exact absurd rfl hbom
  next => dsimp only; rw [h, Option.map_some]

/-- A line is read if all of it is, up to its end. -/
theorem reads_line (body : List Char) (line : Line) (ht : text.toList = body ++ ['\n'])
    (hl : ∀ fuel rest, body.length ≤ fuel →
      line? fuel (body ++ '\n' :: rest) = some (line, '\n' :: rest))
    (hd : d.add? line = some d') : Reads d text d' := by
  intro fuel rest hf
  rw [ht, List.length_append] at hf
  obtain ⟨fuel,rfl⟩ := Nat.exists_eq_add_one_of_ne_zero (Nat.ne_zero_of_lt hf)
  refine ⟨fuel,by simp at hf; omega,?_⟩
  have hfinish : finishLine? ('\n' :: rest) = some rest := rfl
  rw [ht, List.append_assoc, List.singleton_append, lines?]
  · simp [hl fuel rest (by simp at hf; omega), hd, hfinish]
  · simp

/-! ## Keys -/

def IsBareKey (name : String) : Prop := name.toList ≠ [] ∧ ∀ c ∈ name.toList, isBare c

instance (name : String) : Decidable (IsBareKey name) :=
  @instDecidableAnd _ _ inferInstance (List.decidableBAll _ name.toList)

theorem ne_of_isBare {c d : Char} (h : isBare c) (hd : isBare d = false) : c ≠ d := by
  rintro rfl
  rw [h] at hd
  cases hd

theorem IsBareKey.cons (h : IsBareKey name) : ∃ c cs, name.toList = c :: cs ∧ isBare c := by
  obtain ⟨c,cs,hc⟩ := List.exists_cons_of_ne_nil h.1
  exact ⟨c,cs,hc,h.2 c (hc ▸ List.mem_cons_self ..)⟩

theorem IsBareKey.skipSpace (h : IsBareKey name) (rest : List Char) :
    skipSpace (name.toList ++ rest) = name.toList ++ rest := by
  obtain ⟨c,cs,hc,hb⟩ := h.cons
  have hspace : isSpace c = false := by
    simp [isSpace, ne_of_isBare hb (d := ' ') (by decide), ne_of_isBare hb (d := '\t') (by decide)]
  rw [hc, List.cons_append, Toml.skipSpace, List.dropWhile_cons_of_neg (by simp [hspace])]

theorem simpleKey?_bare (h : IsBareKey name) (hrest : ∀ c ∈ rest.head?, isBare c = false) :
    simpleKey? fuel (name.toList ++ rest) = some (name, rest) := by
  have htake : (name.toList ++ rest).takeWhile isBare = name.toList := by
    rw [List.takeWhile_append_of_pos h.2]
    cases rest with
    | nil => simp
    | cons c rest => rw [List.takeWhile_cons_of_neg (by simpa using hrest), List.append_nil]
  have htext : lineText? fuel (name.toList ++ rest) = none := by
    obtain ⟨c,cs,hc,hb⟩ := h.cons
    have hd := ne_of_isBare hb (d := '"') (by decide)
    have hs := ne_of_isBare hb (d := '\'') (by decide)
    simp [hc, lineText?, hd, hs]
  rw [simpleKey?, htext]
  simp [htake, h.1]

/-- A key without quotes is read up to what stands behind the blanks that follow. -/
theorem key?_bare (h : IsBareKey name) (hrest : ∀ c ∈ rest.head?, isBare c = false)
    (hdot : (Toml.skipSpace rest).head? ≠ some '.') :
    key? fuel (name.toList ++ rest) = some ([name], Toml.skipSpace rest) := by
  have hsimple (fuel : Nat) :
      simpleKey? fuel (Toml.skipSpace (name.toList ++ rest)) = some (name, rest) := by
    rw [h.skipSpace, simpleKey?_bare h hrest]
  cases fuel with
  | zero => rw [key?, hsimple]; rfl
  | succ fuel =>
    rw [key?, hsimple]
    dsimp only [Option.bind_eq_bind, Option.bind_some]
    generalize Toml.skipSpace rest = behind at hdot
    split
    next => exact absurd rfl hdot
    next => rfl

/-! ## Lines -/

theorem line?_header (h : IsBareKey name) :
    line? fuel ('[' :: (name.toList ++ ']' :: '\n' :: rest)) =
      some (.table [name], '\n' :: rest) := by
  obtain ⟨c,cs,hc,hb⟩ := h.cons
  have hbracket : c ≠ '[' := ne_of_isBare hb (by decide)
  have hskip : skipSpace (']' :: '\n' :: rest) = ']' :: '\n' :: rest := rfl
  have hkey : key? fuel (name.toList ++ ']' :: '\n' :: rest) =
      some ([name], ']' :: '\n' :: rest) := by
    rw [key?_bare h, hskip]
    · simpa using (by decide : isBare ']' = false)
    · simp [hskip]
  have hheader : line? fuel ('[' :: (name.toList ++ ']' :: '\n' :: rest)) =
      header? fuel ('[' :: (name.toList ++ ']' :: '\n' :: rest)) := rfl
  rw [hheader, header?]
  · rw [hkey]
    rfl
  · intro rest' heq
    rw [hc] at heq
    exact hbracket (List.cons.inj heq).1

structure ReadsValue (text : String) (value : Value) : Prop where
  head : ∃ c cs, text.toList = c :: cs ∧ isSpace c = false
  read : ∀ fuel rest, text.toList.length ≤ fuel →
    value? fuel depthLimit (text.toList ++ '\n' :: rest) = some (value, '\n' :: rest)

theorem line?_pair (h : IsBareKey name) (hv : ReadsValue text value)
    (hf : text.toList.length ≤ fuel) :
    line? fuel (name.toList ++ ' ' :: '=' :: ' ' :: (text.toList ++ '\n' :: rest)) =
      some (.pair [name] value, '\n' :: rest) := by
  obtain ⟨c,cs,hc,hb⟩ := h.cons
  obtain ⟨d,ds,hd,hspace⟩ := hv.head
  have hskip : skipSpace (' ' :: (text.toList ++ '\n' :: rest)) = text.toList ++ '\n' :: rest := by
    rw [hd, skipSpace, List.dropWhile_cons_of_pos (by decide), List.cons_append,
      List.dropWhile_cons_of_neg (by simp [hspace])]
  have hkey : key? fuel (name.toList ++ ' ' :: '=' :: ' ' :: (text.toList ++ '\n' :: rest)) =
      some ([name], '=' :: ' ' :: (text.toList ++ '\n' :: rest)) := by
    rw [key?_bare h]
    · rfl
    · simpa using (by decide : isBare ' ' = false)
    · exact (by decide : '=' ≠ '.') ∘ Option.some.inj
  have hpair : pair? (value? fuel depthLimit) fuel
      (name.toList ++ ' ' :: '=' :: ' ' :: (text.toList ++ '\n' :: rest)) =
        some (([name], value), '\n' :: rest) := by
    rw [pair?, hkey]
    change (value? fuel depthLimit (skipSpace (' ' :: (text.toList ++ '\n' :: rest)))).bind _ = _
    rw [hskip, hv.read fuel rest hf, Option.bind_some]
  rw [line?, h.skipSpace]
  rw [hc] at hpair ⊢
  dsimp only [List.cons_append] at hpair ⊢
  rw [if_neg (ne_of_isBare hb (by decide)), if_neg, hpair]
  · rfl
  · simp [ne_of_isBare hb (d := '#') (by decide), ne_of_isBare hb (d := '\n') (by decide),
      ne_of_isBare hb (d := '\r') (by decide)]

theorem readsValue_quote (text : String) : ReadsValue (quote text) (.string text) := by
  obtain ⟨q,more,hquote,hq,hlen⟩ := exists_quoteIn (quoteStyle text.toList) text.toList
  have hlist : (quote text).toList = q :: more := by rw [quote, String.toList_ofList, hquote]
  refine ⟨⟨q,more,hlist,by rcases hq with rfl | rfl <;> decide⟩,fun fuel rest hf => ?_⟩
  rw [hlist, List.length_cons] at hf
  have hrest : ('\n' :: rest).head? ≠ some '"' ∧ ('\n' :: rest).head? ≠ some '\'' := by simp
  have ht := text?_quote text hrest (show text.toList.length < fuel by omega)
  have hvalue : value? fuel depthLimit ((quote text).toList ++ '\n' :: rest) =
      (text? fuel ((quote text).toList ++ '\n' :: rest)).map fun x =>
        (.string (String.ofList x.1), x.2) := by
    rw [hlist, depthLimit]
    rcases hq with rfl | rfl <;> rfl
  rw [hvalue, ht, Option.map_some]
  dsimp only
  rw [String.ofList_toList]

theorem readsValue_boolean (b : Bool) :
    ReadsValue (if b then "true" else "false") (.boolean b) := by
  cases b
  · exact ⟨⟨'f',_,rfl,by decide⟩,fun _ _ _ => rfl⟩
  · exact ⟨⟨'t',_,rfl,by decide⟩,fun _ _ _ => rfl⟩

/-! ## Tables -/

theorem reads_line_end (d : Draft) : Reads d "\n" d :=
  reads_line [] .blank rfl (fun _ _ _ => rfl) rfl

/-- A document whose last table was opened by its header and has these entries. -/
def Draft.atTable (before : Entries) (name : String) (entries : Entries) : Draft where
  entries := before ++ [(name,.table .header entries)]
  opened := [name]

theorem reads_header (h : IsBareKey name) (hn : before.lookup name = none) (opened : List String) :
    Reads ⟨before,opened⟩ ("[" ++ name ++ "]\n") (.atTable before name []) := by
  refine reads_line ('[' :: (name.toList ++ [']'])) (.table [name]) ?_ ?_ ?_
  · simp
  · intro fuel rest _
    have hline : line? fuel ('[' :: (name.toList ++ ']' :: '\n' :: rest)) =
        some (.table [name], '\n' :: rest) := line?_header h
    simpa using hline
  · simp [Draft.add?, descend, openTable, hn, Draft.atTable]

theorem lookup_append {l : Entries} (hn : before.lookup name = none) :
    (before ++ l).lookup name = l.lookup name := by
  rw [List.lookup_append, hn, Option.none_or]

theorem replace_last (hn : before.lookup name = none) (old new : Value) :
    Entries.replace name new (before ++ [(name,old)]) = before ++ [(name,new)] := by
  induction before with
  | nil => simp [Entries.replace]
  | cons x before ih =>
    obtain ⟨key,value⟩ := x
    rw [List.lookup_cons] at hn
    split at hn
    · cases hn
    next hne =>
      have hkey : key ≠ name := by
        rintro rfl
        simp at hne
      rw [List.cons_append, List.cons_append, ← ih hn]
      simp [Entries.replace, hkey]

theorem reads_pair (h : IsBareKey key) (hv : ReadsValue text value)
    (hn : before.lookup name = none) (hk : entries.lookup key = none) :
    Reads (.atTable before name entries) (key ++ " = " ++ text ++ "\n")
      (.atTable before name (entries ++ [(key,value)])) := by
  refine reads_line (key.toList ++ ' ' :: '=' :: ' ' :: text.toList) (.pair [key] value) ?_ ?_ ?_
  · simp
  · intro fuel rest hf
    have hlen : text.toList.length ≤ fuel := by
      rw [List.length_append, List.length_cons, List.length_cons, List.length_cons] at hf
      omega
    have hline : line? fuel (key.toList ++ ' ' :: '=' :: ' ' :: (text.toList ++ '\n' :: rest)) =
        some (.pair [key] value, '\n' :: rest) := line?_pair h hv hlen
    simpa using hline
  · have hlookup : (before ++ [(name,Value.table .header entries)]).lookup name =
        some (.table .header entries) := by
      simp [lookup_append hn]
    simp [Draft.add?, Draft.atTable, descend, hlookup, addPair, addEntry, hk, replace_last hn]

end GitPublish.Toml
