import GitPublish.Proofs.Location
import GitPublish.Proofs.Text

/-!
# How plain URLs are read

Letters, digits and four marks mean nothing but themselves in every part of a URL. A URL whose parts
are made of them is read as these parts: nothing is skipped, divided or escaped in them.
-/
namespace GitPublish.Url
variable {c d : Char} {cs rest text user host place path : List Char} {segments : List (List Char)}

/-- The characters that mean only themselves. -/
def isUnreserved (c : Char) : Bool := c.isAlphanum || ['-', '.', '_', '~'].contains c

theorem toNat_of_isUnreserved (h : isUnreserved c) : 45 ≤ c.toNat ∧ c.toNat ≤ 126 := by
  dsimp only [isUnreserved, Char.isAlphanum, Char.isAlpha, Char.isUpper, Char.isLower,
    Char.isDigit] at h
  simp only [Bool.or_eq_true, Bool.and_eq_true, decide_eq_true_eq, List.contains_eq_mem,
    List.mem_cons, List.not_mem_nil, or_false, UInt32.le_iff_toNat_le, ge_iff_le] at h
  have hval : c.val.toNat = c.toNat := rfl
  rcases h with ((⟨hl,hu⟩ | ⟨hl,hu⟩) | ⟨hl,hu⟩) | rfl | rfl | rfl | rfl
  · simp at hl hu; omega
  · simp at hl hu; omega
  · simp at hl hu; omega
  all_goals decide

theorem not_mem_of_isUnreserved (h : isUnreserved c) {special : List Char}
    (hs : special.all (!isUnreserved ·)) : special.contains c = false := by
  rw [List.contains_eq_mem, decide_eq_false_iff_not]
  intro hc
  have hn := List.all_eq_true.mp hs c hc
  rw [h] at hn
  cases hn

theorem ne_of_isUnreserved (h : isUnreserved c) (hd : isUnreserved d = false) : c ≠ d := by
  rintro rfl
  cases h.symm.trans hd

/-- Where all characters but one kind mean only themselves, there is no other special one. -/
theorem not_mem_of_special {e : Char} (h : ∀ c ∈ cs, isUnreserved c ∨ c = e)
    (hd : isUnreserved d = false) (hne : d ≠ e) : d ∉ cs := by
  intro hmem
  rcases h d hmem with hplain | he
  · cases hplain.symm.trans hd
  · exact hne he

theorem blank_lt_of_isUnreserved (h : isUnreserved c) : ' ' < c := by
  obtain ⟨hl,-⟩ := toNat_of_isUnreserved h
  change 32 < c.toNat
  omega

theorem isBlank_of_isUnreserved (h : isUnreserved c) : Text.isBlank c = false := by
  obtain ⟨hl,hu⟩ := toNat_of_isUnreserved h
  rw [← Bool.not_eq_true, Text.isBlank]
  simp only [Bool.or_eq_true, Bool.and_eq_true, decide_eq_true_eq, beq_iff_eq]
  omega

theorem isUser_of_isUnreserved {user : List Char} (hne : user ≠ [])
    (h : ∀ c ∈ user, isUnreserved c) : ShortForm.IsUser user :=
  ⟨hne,fun c hc => ⟨ne_of_isUnreserved (h c hc) (by decide),
    ne_of_isUnreserved (h c hc) (by decide)⟩⟩

theorem isHost_of_isUnreserved {host : List Char} (hne : host ≠ [])
    (h : ∀ c ∈ host, isUnreserved c) : ShortForm.IsHost host :=
  ⟨hne,fun c hc => ⟨ne_of_isUnreserved (h c hc) (by decide),
    ne_of_isUnreserved (h c hc) (by decide),isBlank_of_isUnreserved (h c hc)⟩⟩

theorem takeWhile_of_isUnreserved (hd : isUnreserved d = false) (h : ∀ c ∈ cs, isUnreserved c) :
    cs.takeWhile (· ≠ d) = cs := by
  have hne : ∀ c ∈ cs, (c ≠ d : Bool) := fun c hc =>
    decide_eq_true (ne_of_isUnreserved (h c hc) hd)
  have htake : (cs ++ []).takeWhile (· ≠ d) = cs ++ [].takeWhile (· ≠ d) :=
    List.takeWhile_append_of_pos hne
  rwa [List.takeWhile_nil, List.append_nil] at htake

theorem controlSet_of_isUnreserved (h : isUnreserved c) : controlSet c = false := by
  obtain ⟨hl,-⟩ := toNat_of_isUnreserved h
  have hlt : ¬ c < ' ' := by
    change ¬ c.toNat < 32
    omega
  have hne : c ≠ '\x7f' := ne_of_isUnreserved h (by decide)
  simp [controlSet, hlt, hne]

theorem pathSet_of_isUnreserved (h : isUnreserved c) : pathSet c = false := by
  rw [pathSet, controlSet_of_isUnreserved h, not_mem_of_isUnreserved h (by decide), Bool.or_self]

theorem userSet_of_isUnreserved (h : isUnreserved c) : userSet c = false := by
  rw [userSet, pathSet_of_isUnreserved h, not_mem_of_isUnreserved h (by decide), Bool.or_self]

/-- Nothing that means only itself is escaped. -/
theorem escape_of_isUnreserved {escapes : EscapeSet}
    (hs : ∀ c, isUnreserved c → escapes c = false) (h : ∀ c ∈ cs, isUnreserved c) :
    escape escapes cs = cs := by
  refine escape_eq_self escapes cs fun c hc => ⟨?_,hs c (h c hc)⟩
  obtain ⟨-,hu⟩ := toNat_of_isUnreserved (h c hc)
  omega

/-! ## The parts in front of the path -/

theorem forall_ne_of_not_mem (h : d ∉ cs) : ∀ c ∈ cs.reverse, (c ≠ d : Bool) := by
  intro c hc
  rw [decide_eq_true_eq]
  rintro rfl
  exact h (List.mem_reverse.mp hc)

theorem cutUser_append (h : '@' ∉ place) (user : List Char) :
    cutUser (user ++ '@' :: place) = (some user, place) := by
  have hplace := forall_ne_of_not_mem h
  have hback : (user ++ '@' :: place).reverse = place.reverse ++ '@' :: user.reverse := by simp
  unfold cutUser
  dsimp only
  rw [hback, List.dropWhile_append_of_pos hplace, List.takeWhile_append_of_pos hplace]
  simp

theorem cutUser_of_not_mem (h : '@' ∉ place) : cutUser place = (none, place) := by
  have hback : (place.reverse ++ []).dropWhile (· ≠ '@') = [] :=
    List.dropWhile_append_of_pos (forall_ne_of_not_mem h)
  rw [List.append_nil] at hback
  unfold cutUser
  dsimp only
  rw [hback]

/-- A host without brackets ends at the first colon. -/
theorem cutHost_of_plain (h : ∀ c ∈ host, c ≠ ':' ∧ c ≠ '[') (hrest : ∀ c ∈ rest.head?, c = ':') :
    cutHost false (host ++ rest) = (host, rest) := by
  induction host with
  | nil =>
    cases rest with
    | nil => rfl
    | cons c rest =>
      rw [hrest c rfl]
      rfl
  | cons c host ih =>
    obtain ⟨⟨hcolon,hbracket⟩,hhost⟩ := List.forall_mem_cons.mp h
    rw [List.cons_append, cutHost]
    simp [hcolon, hbracket, ih hhost]

theorem host?_plain (hne : host ≠ []) (h : ∀ c ∈ host, isUnreserved c) :
    host? .plain host = .ok (some (.name host)) := by
  have hforbidden : host.any Host.isForbidden = false := by
    rw [List.any_eq_false]
    intro c hc
    rw [Host.isForbidden, not_mem_of_isUnreserved (h c hc) (by decide)]
    exact Bool.false_ne_true
  have hescape : escape controlSet host = host :=
    escape_of_isUnreserved (fun _ => controlSet_of_isUnreserved) h
  have hopaque : Host.ofOpaque host = .ok (.name host) := by
    unfold Host.ofOpaque
    split
    next rest => exact absurd (h '[' (List.mem_cons_self ..)) (by decide)
    next => rw [hforbidden, if_neg Bool.false_ne_true, hescape]
  simp [host?, hopaque, bind, Except.bind, pure, Except.pure, hne]

theorem value_toDigits (n : Nat) :
    (Nat.toDigits 10 n).foldl (fun n d => n * 10 + (d.toNat - 48)) 0 = n := by
  have hdigits := Nat.ofDigitChars_ten_toDigits (n := n)
  rw [Nat.ofDigitChars_eq_foldl] at hdigits
  simp only [Nat.mul_comm 10] at hdigits
  exact hdigits

theorem isDigit_of_mem_toDigits {n : Nat} (h : c ∈ Nat.toDigits 10 n) : c.isDigit :=
  Nat.isDigit_of_mem_toDigits (by decide) (by decide) h

theorem port?_toDigits {n : Nat} (h : n < 65536) : port? (Nat.toDigits 10 n) = .ok (some n) := by
  have hdigits : (Nat.toDigits 10 n).all Char.isDigit :=
    List.all_eq_true.mpr fun c hc => isDigit_of_mem_toDigits hc
  unfold port?
  rw [value_toDigits]
  simp [Nat.toDigits_ne_nil, hdigits, h]

/-! ## The path -/

namespace Path

/-- Characters that mean only themselves belong to the segment that is being read. -/
theorem read_append {p : Progress} (h : ∀ c ∈ cs, isUnreserved c) (segment rest : List Char) :
    p.read .plain segment (cs ++ rest) = p.read .plain (cs.reverse ++ segment) rest := by
  induction cs generalizing segment with
  | nil => rfl
  | cons c cs ih =>
    obtain ⟨hc,hcs⟩ := List.forall_mem_cons.mp h
    have hslash : c ≠ '/' := ne_of_isUnreserved hc (by decide)
    have hquery : c ≠ '?' := ne_of_isUnreserved hc (by decide)
    have hfragment : c ≠ '#' := ne_of_isUnreserved hc (by decide)
    rw [List.cons_append, Progress.read]
    simp [SchemeKind.isSlash, SchemeKind.isSpecial, isEnd, hslash, hquery, hfragment, ih hcs]

/-- Only letters come of making letters small. -/
theorem eq_of_toLower (hd : d.isAlpha = false) (h : c.toLower = d) : c = d := by
  unfold Char.toLower at h
  split at h
  next hupper =>
    subst h
    obtain ⟨hlow,hhigh⟩ := hupper
    have hlow : 65 ≤ c.val.toNat := UInt32.le_iff_toNat_le.mp hlow
    have hhigh : c.val.toNat ≤ 90 := UInt32.le_iff_toNat_le.mp hhigh
    have hval : (c.val + ('a'.val - 'A'.val)).toNat = c.val.toNat + 32 := by
      rw [UInt32.toNat_add]
      change (c.val.toNat + 32) % 2 ^ 32 = _
      omega
    dsimp only [Char.isAlpha, Char.isLower] at hd
    simp only [Bool.or_eq_false_iff, UInt32.le_iff_toNat_le, hval, ge_iff_le,
      Bool.and_eq_false_iff, decide_eq_false_iff_not] at hd
    have ha : 'a'.val.toNat = 97 := rfl
    have hz : 'z'.val.toNat = 122 := rfl
    omega
  next => exact h

theorem eq_of_map_toLower {special : List Char} (hs : special.all (!Char.isAlpha ·))
    (h : cs.map Char.toLower = special) : cs = special := by
  subst h
  refine ((List.map_congr_left fun c hc => ?_).trans (List.map_id _)).symm
  have hlower := List.all_eq_true.mp hs _ (List.mem_map_of_mem hc)
  rw [Bool.not_eq_true'] at hlower
  exact (eq_of_toLower hlower rfl).symm

/-- What has no `%` can be a dot segment only if it is written with dots alone. -/
theorem not_dots {segment : List Char} {dots : String} {escaped : List String}
    (h : ∀ c ∈ segment, isUnreserved c) (hdots : dots.toList.all (!Char.isAlpha ·))
    (hescaped : escaped.all (·.toList.contains '%')) (hne : segment ≠ dots.toList) :
    (dots :: escaped).contains (String.ofList (segment.map Char.toLower)) = false := by
  rw [List.contains_eq_mem, decide_eq_false_iff_not, List.mem_cons, not_or]
  constructor
  · intro ht
    refine hne (eq_of_map_toLower hdots ?_)
    rw [← ht, String.toList_ofList]
  · intro ht
    have hpercent := List.all_eq_true.mp hescaped _ ht
    rw [String.toList_ofList, List.contains_iff_mem] at hpercent
    obtain ⟨c,hc,hlower⟩ := List.mem_map.mp hpercent
    rw [eq_of_toLower (by decide) hlower] at hc
    exact absurd (h _ hc) (by decide)

/-- A segment that is no dot segment is added as it is. -/
theorem push_plain {p : Progress} {segment : List Char} (h : ∀ c ∈ segment, isUnreserved c)
    (hcurrent : segment ≠ ['.']) (hparent : segment ≠ ['.', '.']) (slash : Bool) :
    p.push .plain segment slash =
      { p with back := (if slash then ['/'] else []) ++ segment.reverse ++ p.back } := by
  have hescape : escape pathSet segment = segment :=
    escape_of_isUnreserved (fun _ => pathSet_of_isUnreserved) h
  have hc : isCurrent segment = false := not_dots h (by decide) (by decide) hcurrent
  have hp : isParent segment = false := not_dots h (by decide) (by decide) hparent
  unfold Progress.push
  simp [hescape, hc, hp]

structure IsPlain (segment : List Char) : Prop where
  unreserved : ∀ c ∈ segment, isUnreserved c
  not_current : segment ≠ ['.']
  not_parent : segment ≠ ['.', '.']

/-- Plain segments are read one by one and kept. -/
theorem read_join {p : Progress} (hne : segments ≠ []) (h : ∀ s ∈ segments, IsPlain s) :
    p.read .plain [] (['/'].intercalate segments) =
      { p with back := (['/'].intercalate segments).reverse ++ p.back } := by
  -- on the segments; the slash behind a segment adds it to those that have been read
  induction segments generalizing p with
  | nil => exact absurd rfl hne
  | cons s segments ih =>
    obtain ⟨hs,hrest⟩ := List.forall_mem_cons.mp h
    have hpush := push_plain (p := p) hs.unreserved hs.not_current hs.not_parent
    have hread := read_append (p := p) hs.unreserved []
    by_cases hlast : segments = []
    · have hjoin : ['/'].intercalate (s :: segments) = s ++ [] := by simp [hlast]
      rw [hjoin, hread, Progress.read]
      simp [hpush]
    · have hjoin : ['/'].intercalate (s :: segments) = s ++ '/' :: ['/'].intercalate segments := by
        rw [List.intercalate_cons_of_ne_nil hlast, List.append_assoc]
        rfl
      rw [hjoin, hread, Progress.read]
      simp [SchemeKind.isSlash, hpush, ih hlast hrest]

/-- A path of plain segments is kept. -/
theorem parse_join (h : ∀ s ∈ segments, IsPlain s) (hne : segments ≠ []) :
    parse .plain [] ('/' :: ['/'].intercalate segments) =
      ('/' :: ['/'].intercalate segments, true) := by
  have hjoin : ['/'].intercalate ([] :: segments) = '/' :: ['/'].intercalate segments := by
    rw [List.intercalate_cons_of_ne_nil hne]
    rfl
  have hall : ∀ s ∈ [] :: segments, IsPlain s :=
    List.forall_mem_cons.mpr ⟨⟨by simp,by simp,by simp⟩,h⟩
  rw [parse, ← hjoin, read_join (by simp) hall]
  simp

end Path

end GitPublish.Url
