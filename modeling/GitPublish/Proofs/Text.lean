import GitPublish.Text

/-!
# Texts in pieces and in bytes

A text that is divided at a separator has at least one piece, and no piece has the separator in it.
What is put together from pieces has no characters but theirs and the separator. A text is had back
from its bytes, so that two texts with the same bytes are the same.
-/
namespace GitPublish.Text
variable {sep c : Char} {cs piece : List Char} {pieces xs ys : List (List Char)}

/-! ## Pieces -/

theorem splitOn_cons (sep c : Char) (cs : List Char) : (c :: cs).splitOn sep =
    if c = sep then [] :: cs.splitOn sep else (cs.splitOn sep).modifyHead (c :: ·) := by
  simp only [List.splitOn_cons_eq_if_modifyHead, beq_iff_eq]

/-- What is added at the end of a text, and is no separator, is added to its last piece. -/
theorem exists_splitOn_concat (hc : c ≠ sep) (cs : List Char) : ∃ pieces last,
    cs.splitOn sep = pieces ++ [last] ∧ (cs ++ [c]).splitOn sep = pieces ++ [last ++ [c]] := by
  induction cs with
  | nil => exact ⟨[],[],rfl,by rw [List.nil_append, splitOn_cons, if_neg hc]; rfl⟩
  | cons d cs ih =>
    obtain ⟨pieces,last,h,hadd⟩ := ih
    rw [List.cons_append, splitOn_cons, splitOn_cons, h, hadd]
    split
    · exact ⟨[] :: pieces,last,rfl,rfl⟩
    · cases pieces with
      | nil => exact ⟨[],d :: last,rfl,rfl⟩
      | cons piece pieces => exact ⟨(d :: piece) :: pieces,last,rfl,rfl⟩

theorem splitOn_concat (hc : c ≠ sep) (cs : List Char) :
    ∃ pieces last, (cs ++ [c]).splitOn sep = pieces ++ [last ++ [c]] := by
  obtain ⟨pieces,last,-,h⟩ := exists_splitOn_concat hc cs
  exact ⟨pieces,last,h⟩

theorem splitOn_append_replicate (sep : Char) (cs : List Char) (n : Nat) :
    (cs ++ List.replicate n sep).splitOn sep = cs.splitOn sep ++ List.replicate n [] := by
  induction n with
  | zero => rw [List.replicate_zero, List.append_nil, List.replicate_zero, List.append_nil]
  | succ n ih =>
    rw [List.replicate_succ', ← List.append_assoc, List.splitOn_append_cons_self, ih,
      List.replicate_succ', List.append_assoc, List.splitOn_nil]

theorem not_mem_of_mem_splitOn (h : piece ∈ cs.splitOn sep) : sep ∉ piece := by
  induction cs generalizing piece with
  | nil =>
    rw [List.splitOn_nil, List.mem_singleton] at h
    rw [h]
    exact List.not_mem_nil
  | cons c cs ih =>
    rw [splitOn_cons] at h
    split at h
    · rcases List.mem_cons.mp h with rfl | h
      · exact List.not_mem_nil
      · exact ih h
    next hc =>
      obtain ⟨first,rest,hs⟩ := List.exists_cons_of_ne_nil (List.splitOn_ne_nil sep cs)
      rw [hs] at h ih
      rcases List.mem_cons.mp h with rfl | h
      · rw [List.mem_cons, not_or]
        exact ⟨Ne.symm hc,ih (List.mem_cons_self ..)⟩
      · exact ih (List.mem_cons_of_mem _ h)

theorem splitOn_eq_nils : (∀ piece ∈ cs.splitOn sep, piece = []) ↔ ∀ c ∈ cs, c = sep := by
  induction cs with
  | nil => simp
  | cons c cs ih =>
    rw [splitOn_cons]
    split
    next hc => simp [hc, ih]
    next hc =>
      obtain ⟨piece,pieces,hs⟩ := List.exists_cons_of_ne_nil (List.splitOn_ne_nil sep cs)
      simp [hs, hc]

theorem intercalate_append (sep : Char) (hx : xs ≠ []) (hy : ys ≠ []) :
    [sep].intercalate (xs ++ ys) = [sep].intercalate xs ++ sep :: [sep].intercalate ys := by
  induction xs with
  | nil => exact absurd rfl hx
  | cons x xs ih =>
    cases xs with
    | nil =>
      obtain ⟨y,ys,rfl⟩ := List.exists_cons_of_ne_nil hy
      simp [List.intercalate_cons_cons]
    | cons x' xs =>
      have h := ih (by simp)
      simp only [List.cons_append, List.intercalate_cons_cons, List.append_assoc] at h ⊢
      rw [h]

theorem intercalate_nils (hp : pieces ≠ []) (sep : Char) (n : Nat) :
    [sep].intercalate (pieces ++ List.replicate n []) =
      [sep].intercalate pieces ++ List.replicate n sep := by
  induction n with
  | zero => simp
  | succ n ih =>
    have hne : pieces ++ List.replicate n [] ≠ [] := by simp [hp]
    rw [List.replicate_succ', ← List.append_assoc, intercalate_append sep hne (by simp), ih,
      List.replicate_succ']
    simp

/-- What stands in joined pieces stands in one of them, or between them. -/
theorem mem_intercalate (h : c ∈ [sep].intercalate pieces) :
    c = sep ∨ ∃ piece ∈ pieces, c ∈ piece := by
  induction pieces with
  | nil => cases h
  | cons piece pieces ih =>
    by_cases hp : pieces = []
    · rw [hp, List.intercalate_singleton] at h
      exact .inr ⟨piece,List.mem_cons_self ..,h⟩
    rw [List.intercalate_cons_of_ne_nil hp, List.mem_append, List.mem_append,
      List.mem_singleton] at h
    rcases h with (h | h) | h
    · exact .inr ⟨piece,List.mem_cons_self ..,h⟩
    · exact .inl h
    · refine (ih h).imp_right ?_
      rintro ⟨q,hq,hc⟩
      exact ⟨q,List.mem_cons_of_mem _ hq,hc⟩

/-! ## Bytes -/

namespace Decoding
variable {back : List Char} {b missing least greatest bits : Nat}

theorem push_lead (hb : b < 256)
    (h : Begun.ofByte? b = some ⟨missing + 1, least, greatest, bits⟩) :
    push ⟨back, none⟩ (UInt8.ofNat b) = ⟨back, some ⟨missing + 1, least, greatest, bits⟩⟩ := by
  have hbyte : (UInt8.ofNat b).toNat = b := UInt8.toNat_ofNat_of_lt' hb
  simp only [push, start, hbyte, h, Nat.succ_ne_zero, if_false]

theorem push_more (hb : b < 256) (hl : least ≤ b) (hg : b ≤ greatest) :
    push ⟨back, some ⟨missing + 2, least, greatest, bits⟩⟩ (UInt8.ofNat b) =
      ⟨back, some ⟨missing + 1, 0x80, 0xBF, bits * 64 + (b - 0x80)⟩⟩ := by
  have hbyte : (UInt8.ofNat b).toNat = b := UInt8.toNat_ofNat_of_lt' hb
  have hmore : ¬ missing + 2 ≤ 1 := by omega
  simp [push, hbyte, hl, hg, hmore]

theorem push_last (hb : b < 256) (hl : least ≤ b) (hg : b ≤ greatest) :
    push ⟨back, some ⟨1, least, greatest, bits⟩⟩ (UInt8.ofNat b) =
      ⟨Char.ofNat (bits * 64 + (b - 0x80)) :: back, none⟩ := by
  have hbyte : (UInt8.ofNat b).toNat = b := UInt8.toNat_ofNat_of_lt' hb
  simp [push, hbyte, hl, hg]

theorem foldl_push_char (c : Char) (back : List Char) :
    (String.utf8EncodeChar c).foldl push ⟨back, none⟩ = ⟨c :: back, none⟩ := by
  have hvalid : c.val.toNat < 0xD800 ∨ 0xDFFF < c.val.toNat ∧ c.val.toNat < 0x110000 := c.valid
  have hc {n : Nat} (hn : n = c.val.toNat) : Char.ofNat n = c := hn ▸ Char.ofNat_toNat c
  unfold String.utf8EncodeChar
  generalize c.val.toNat = v at hvalid hc ⊢
  dsimp only
  split
  · have hone : Begun.ofByte? v = some ⟨0, 0x80, 0xBF, v⟩ := if_pos (by omega)
    have hsmall : v < 256 := by omega
    have hbyte : (UInt8.ofNat v).toNat = v := UInt8.toNat_ofNat_of_lt' hsmall
    simp [push, start, hbyte, hone, hc rfl]
  split
  · have hlead : Begun.ofByte? (v / 64 % 0x20 + 0xc0) = some ⟨0 + 1, 0x80, 0xBF, v / 64⟩ := by
      grind [Begun.ofByte?]
    rw [List.foldl_cons, push_lead (by omega) hlead, List.foldl_cons,
      push_last (by omega) (by omega) (by omega), List.foldl_nil, hc (by omega)]
  split
  · -- the least bound keeps out long forms, the greatest surrogates
    obtain ⟨least,greatest,hlead,hl,hg⟩ : ∃ least greatest,
        Begun.ofByte? (v / 4096 % 0x10 + 0xe0) = some ⟨1 + 1, least, greatest, v / 4096⟩ ∧
          least ≤ v / 64 % 0x40 + 0x80 ∧ v / 64 % 0x40 + 0x80 ≤ greatest := by
      refine ⟨if v / 4096 = 0 then 0xA0 else 0x80,if v / 4096 = 13 then 0x9F else 0xBF,?_,?_,?_⟩
      · grind [Begun.ofByte?]
      · split <;> omega
      · split <;> omega
    rw [List.foldl_cons, push_lead (by omega) hlead, List.foldl_cons,
      push_more (by omega) hl hg, List.foldl_cons,
      push_last (by omega) (by omega) (by omega), List.foldl_nil, hc (by omega)]
  · obtain ⟨least,greatest,hlead,hl,hg⟩ : ∃ least greatest,
        Begun.ofByte? (v / 262144 % 0x08 + 0xf0) = some ⟨2 + 1, least, greatest, v / 262144⟩ ∧
          least ≤ v / 4096 % 0x40 + 0x80 ∧ v / 4096 % 0x40 + 0x80 ≤ greatest := by
      refine ⟨if v / 262144 = 0 then 0x90 else 0x80,if v / 262144 = 4 then 0x8F else 0xBF,?_,?_,?_⟩
      · grind [Begun.ofByte?]
      · split <;> omega
      · split <;> omega
    rw [List.foldl_cons, push_lead (by omega) hlead, List.foldl_cons,
      push_more (by omega) hl hg, List.foldl_cons,
      push_more (by omega) (by omega) (by omega), List.foldl_cons,
      push_last (by omega) (by omega) (by omega), List.foldl_nil, hc (by omega)]

end Decoding

theorem encode_append (xs ys : List Char) : encode (xs ++ ys) = encode xs ++ encode ys :=
  List.flatMap_append

theorem decode_encode (cs : List Char) : decode (encode cs) = cs := by
  have h (back : List Char) : (encode cs).foldl Decoding.push ⟨back, none⟩ =
      ⟨cs.reverse ++ back, none⟩ := by
    induction cs generalizing back with
    | nil => rfl
    | cons c cs ih =>
      rw [encode, List.flatMap_cons, List.foldl_append, Decoding.foldl_push_char]
      rw [List.reverse_cons, List.append_assoc]
      exact ih (c :: back)
  rw [decode, h, List.append_nil]
  exact List.reverse_reverse cs

end GitPublish.Text
