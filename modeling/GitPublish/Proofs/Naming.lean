import GitPublish.Proofs.Reading
import GitPublish.Proofs.Url

/-!
# The name of a repository

A repository is named after the last segment of its path that is not empty, without the characters
of `.git` at its end, whatever their order and number. So the slashes at the end of the path, a
`.git` there and the segments before the last one make no difference to the name.
-/
namespace GitPublish

namespace Location
variable {text : String} {l : Location} {path last segment ending name : List Char}

/-- The last segment of a path that is not empty. -/
def IsLastSegment (path last : List Char) : Prop :=
  last ≠ [] ∧ '/' ∉ last ∧ ∃ front n, path = front ++ last ++ List.replicate n '/' ∧
    (front = [] ∨ front.getLast? = some '/')

theorem IsLastSegment.pieces (h : IsLastSegment path last) :
    ((List.splitOn '/' path).filter (· ≠ [])).getLast? = some last := by
  obtain ⟨hne,hslash,front,n,rfl,hfront⟩ := h
  have hlast : ((List.splitOn '/' last ++ List.replicate n []).filter (· ≠ [])) = [last] := by
    simp [List.splitOn_eq_singleton hslash, hne]
  rw [Text.splitOn_append_replicate]
  rcases hfront with rfl | hfront
  · rw [List.nil_append, hlast]
    rfl
  · obtain ⟨init,rfl⟩ := List.getLast?_eq_some_iff.mp hfront
    rw [List.append_assoc, List.singleton_append, List.splitOn_append_cons_self, List.append_assoc,
      List.filter_append, hlast, List.getLast?_concat]

/-- The pieces behind the last one that is not empty are slashes, and those before it the front. -/
theorem isLastSegment_of_pieces
    (h : ((List.splitOn '/' path).filter (· ≠ [])).getLast? = some last) :
    IsLastSegment path last := by
  obtain ⟨init,hinit⟩ := List.getLast?_eq_some_iff.mp h
  obtain ⟨before,behind,hsplit,-,hbehind⟩ := List.filter_eq_append_iff.mp hinit
  obtain ⟨idle,rest,rfl,-,hne,hrest⟩ := List.filter_eq_cons_iff.mp hbehind
  have hmem : last ∈ List.splitOn '/' path := by simp [hsplit]
  have hnils : rest = List.replicate rest.length [] := by
    apply List.eq_replicate_iff.mpr
    simpa using hrest
  have hpath : ['/'].intercalate ((before ++ idle) ++ ([last] ++ List.replicate rest.length [])) =
      path := by
    rw [← hnils, List.append_assoc, List.singleton_append, ← hsplit, List.intercalate_splitOn]
  refine ⟨by simpa using hne,Text.not_mem_of_mem_splitOn hmem,?_⟩
  have hback := Text.intercalate_nils (List.cons_ne_nil last []) '/' rest.length
  rw [List.intercalate_singleton] at hback
  by_cases hfront : before ++ idle = []
  · rw [hfront, List.nil_append, hback] at hpath
    exact ⟨[],rest.length,hpath.symm,.inl rfl⟩
  · rw [Text.intercalate_append '/' hfront (by simp), hback] at hpath
    refine ⟨['/'].intercalate (before ++ idle) ++ ['/'],rest.length,?_,.inr List.getLast?_concat⟩
    rw [← hpath]
    simp

theorem pieces_eq_none :
    ((List.splitOn '/' path).filter (· ≠ [])).getLast? = none ↔ ∀ c ∈ path, c = '/' := by
  rw [List.getLast?_eq_none_iff, List.filter_eq_nil_iff, ← Text.splitOn_eq_nils]
  simp

/-- What is left of a segment without the characters of `.git` at its end. -/
def IsShortened (segment name : List Char) : Prop :=
  (∃ ending, segment = name ++ ending ∧ ∀ c ∈ ending, c ∈ ['.', 'g', 'i', 't']) ∧
    ∀ c, name.getLast? = some c → c ∉ ['.', 'g', 'i', 't']

theorem isEnding_iff {c : Char} : isEnding c ↔ c ∈ ['.', 'g', 'i', 't'] := by
  simp [isEnding]

theorem isShortened_iff :
    IsShortened segment name ↔ (segment.reverse.dropWhile isEnding).reverse = name := by
  constructor
  · rintro ⟨⟨ending,rfl,hending⟩,hname⟩
    have hall : ∀ c ∈ ending.reverse, isEnding c := fun c hc =>
      isEnding_iff.mpr (hending c (List.mem_reverse.mp hc))
    have hstop : name.reverse.dropWhile isEnding = name.reverse := by
      cases hr : name.reverse with
      | nil => rfl
      | cons c rest =>
        have hc : name.getLast? = some c := by rw [← List.head?_reverse, hr]; rfl
        exact List.dropWhile_cons_of_neg (mt isEnding_iff.mp (hname c hc))
    rw [List.reverse_append, List.dropWhile_append_of_pos hall, hstop, List.reverse_reverse]
  · rintro rfl
    constructor
    · refine ⟨(segment.reverse.takeWhile isEnding).reverse,?_,fun c hc => ?_⟩
      · rw [← List.reverse_append, List.takeWhile_append_dropWhile, List.reverse_reverse]
      · exact isEnding_iff.mp (List.all_eq_true.mp List.all_takeWhile c (List.mem_reverse.mp hc))
    · intro c hc
      rw [List.getLast?_reverse] at hc
      have hstop := List.head?_dropWhile_not isEnding segment.reverse
      rw [hc] at hstop
      exact fun hmem => absurd (isEnding_iff.mpr hmem) (by simpa using hstop)

structure Named (text : String) (l : Location) : Prop where
  nameless : repoName text = .error (.nameless text) ↔ ∀ c ∈ l.path.toList, c = '/'
  named : ∀ name, repoName text = .ok name ↔
    ∃ last, IsLastSegment l.path.toList last ∧ IsShortened last name.toList
  answers : repoName text = .error (.nameless text) ∨ ∃ name, repoName text = .ok name

theorem repoName_of_last (h : parse text = .ok l) (hl : IsLastSegment l.path.toList last)
    {name : String} (hn : IsShortened last name.toList) : repoName text = .ok name := by
  unfold repoName
  rw [h]
  dsimp only
  rw [hl.pieces]
  dsimp only
  rw [isShortened_iff.mp hn, String.ofList_toList]

theorem exists_shortened (segment : List Char) : ∃ name : String, IsShortened segment name.toList :=
  ⟨_,isShortened_iff.mpr String.toList_ofList.symm⟩

theorem named_of_parse (h : parse text = .ok l) : Named text l := by
  rcases hp : ((List.splitOn '/' l.path.toList).filter (· ≠ [])).getLast? with - | last
  · have hnone : repoName text = .error (.nameless text) := by
      unfold repoName
      rw [h]
      dsimp only
      rw [hp]
    refine ⟨iff_of_true hnone (pieces_eq_none.mp hp),fun name => ?_,.inl hnone⟩
    refine iff_of_false (fun hn => nomatch hnone.symm.trans hn) ?_
    rintro ⟨last,hl,-⟩
    cases hp.symm.trans hl.pieces
  · have hlast := isLastSegment_of_pieces hp
    obtain ⟨name,hname⟩ := exists_shortened last
    have hsome := repoName_of_last h hlast hname
    constructor
    · refine iff_of_false (fun hn => nomatch hsome.symm.trans hn) fun hall => ?_
      cases hp.symm.trans (pieces_eq_none.mpr hall)
    · intro other
      constructor
      · intro hother
        rw [← Except.ok.inj (hsome.symm.trans hother)]
        exact ⟨last,hlast,hname⟩
      · rintro ⟨last',hl,hs⟩
        exact repoName_of_last h hl hs
    · exact .inr ⟨name,hsome⟩

/-! ## Segments in the short form -/

/-- Segments that the path of the short form can have: none is empty, or ends the path or the text,
and the first is not taken for a port. -/
structure Segmented (segments : List (List Char)) : Prop where
  ne_nil : segments ≠ []
  plain : ∀ s ∈ segments, s ≠ [] ∧ ∀ c ∈ s, c ≠ '/' ∧ c ≠ ':' ∧ c ≠ '\n'
  first : ∀ s rest, segments = s :: rest → s.head? ≠ some '\\' ∧ ¬ ShortForm.IsPort s

def segmentsText (user host : List Char) (segments : List (List Char)) : List Char :=
  user ++ '@' :: (host ++ ':' :: ['/'].intercalate segments)

section segments
variable {user host : List Char} {segments front : List (List Char)} {n : Nat}

theorem Segmented.split (h : Segmented segments) (n : Nat) :
    List.splitOn '/' (['/'].intercalate segments ++ List.replicate n '/') =
      segments ++ List.replicate n [] := by
  have hslash : ∀ s ∈ segments, '/' ∉ s := fun s hs hm => ((h.plain s hs).2 _ hm).1 rfl
  rw [Text.splitOn_append_replicate, List.splitOn_intercalate '/' hslash h.ne_nil]

theorem Segmented.head (h : Segmented segments) (n : Nat) : ∃ c rest,
    ['/'].intercalate segments ++ List.replicate n '/' = c :: rest ∧ c ≠ '/' ∧ c ≠ '\\' := by
  obtain ⟨s,others,rfl⟩ := List.exists_cons_of_ne_nil h.ne_nil
  obtain ⟨hne,hs⟩ := h.plain s (List.mem_cons_self ..)
  obtain ⟨c,s,rfl⟩ := List.exists_cons_of_ne_nil hne
  have hbackslash : c ≠ '\\' := fun hc => (h.first _ others rfl).1 (congrArg some hc)
  have hslash : c ≠ '/' := (hs c (List.mem_cons_self ..)).1
  cases others with
  | nil =>
    rw [List.intercalate_singleton]
    exact ⟨c,_,rfl,hslash,hbackslash⟩
  | cons t others =>
    rw [List.intercalate_cons_cons]
    exact ⟨c,_,rfl,hslash,hbackslash⟩

theorem Segmented.not_mem (h : Segmented segments) (n : Nat) :
    ':' ∉ ['/'].intercalate segments ++ List.replicate n '/' ∧
      '\n' ∉ ['/'].intercalate segments ++ List.replicate n '/' := by
  have hmem : ∀ c ∈ ['/'].intercalate segments ++ List.replicate n '/',
      c = '/' ∨ c ≠ ':' ∧ c ≠ '\n' := by
    intro c hc
    rcases List.mem_append.mp hc with hc | hc
    · apply (Text.mem_intercalate hc).imp_right
      rintro ⟨s,hs,hc⟩
      exact ((h.plain s hs).2 c hc).2
    · exact .inl (List.eq_of_mem_replicate hc)
  exact ⟨fun hc => (hmem _ hc).elim nofun fun h => h.1 rfl,
    fun hc => (hmem _ hc).elim nofun fun h => h.2 rfl⟩

/-- No part of the path is taken for a port, however many slashes end it. -/
theorem Segmented.cutPort? (h : Segmented segments) (n : Nat) :
    ShortForm.cutPort? (['/'].intercalate segments ++ List.replicate n '/') = none := by
  refine Option.eq_none_iff_forall_ne_some.mpr fun (digits, path) hcut => ?_
  obtain ⟨hport,-,hpath⟩ := ShortForm.cutPort?_eq_some.mp hcut
  have hslash : '/' ∉ digits := fun hs => absurd (hport.2.2 _ hs) (by decide)
  obtain ⟨s,rest,rfl⟩ := List.exists_cons_of_ne_nil h.ne_nil
  have hsplit := h.split n
  rw [hpath, List.splitOn_append_cons_self, List.splitOn_eq_singleton hslash] at hsplit
  obtain rfl : digits = s := (List.cons.inj hsplit).1
  exact (h.first digits rest rfl).2 hport

/-- The text is read as its parts, with the slashes that end it as part of the path. -/
theorem Segmented.parse (h : Segmented segments) (huser : ShortForm.IsUser user)
    (hhost : ShortForm.IsHost host) (n : Nat) :
    parse (String.ofList (segmentsText user host segments ++ List.replicate n '/')) = .ok
      { scheme := "ssh", user := some (String.ofList user), host := String.ofList host,
        port := none
        path := String.ofList (['/'].intercalate segments ++ List.replicate n '/') } := by
  obtain ⟨c,rest,hpath,hslash,hbackslash⟩ := h.head n
  obtain ⟨hcolon,hline⟩ := h.not_mem n
  have htext : segmentsText user host segments ++ List.replicate n '/' =
      user ++ '@' :: (host ++ ':' :: (['/'].intercalate segments ++ List.replicate n '/')) := by
    simp [segmentsText]
  have hmark : ¬ Text.contains "://".toList
      (segmentsText user host segments ++ List.replicate n '/') := by
    rw [Text.contains_iff, htext, ← List.cons_append, ← List.append_assoc]
    refine Text.not_mark ?_ hcolon (by simpa [hpath] using hslash)
    simp only [List.mem_append, List.mem_cons, not_or]
    exact ⟨fun hu => (huser.2 _ hu).2 rfl,by decide,fun hh => (hhost.2 _ hh).2.1 rfl⟩
  have hread : ShortForm.parse? (segmentsText user host segments ++ List.replicate n '/') = some
      { user := some user, host, port := none,
        path := ['/'].intercalate segments ++ List.replicate n '/' } := by
    rw [htext]
    refine Option.or_eq_some_iff.mpr (.inl (Option.bind_eq_some_iff.mpr
      ⟨_,ShortForm.cutUser?_eq_some.mpr ⟨huser,rfl⟩,ShortForm.ofHost?_eq_some.mpr ?_⟩))
    refine ⟨rfl,hhost,nofun,?_,rfl,fun _ => h.cutPort? n⟩
    exact ShortForm.isPath_iff.mpr ⟨c,rest,hpath,hbackslash,fun hn =>
      hline (hpath ▸ List.mem_cons_of_mem c hn)⟩
  rw [Location.parse, String.toList_ofList (l := _ ++ _), if_neg hmark, hread, Option.bind_some]
  rfl

theorem Segmented.isLastSegment (h : Segmented (front ++ [last])) (n : Nat) :
    IsLastSegment (['/'].intercalate (front ++ [last]) ++ List.replicate n '/') last := by
  apply isLastSegment_of_pieces
  have hne : ∀ s ∈ front ++ [last], decide (s ≠ []) := fun s hs => decide_eq_true (h.plain s hs).1
  have hnil : ∀ s ∈ List.replicate n ([] : List Char), ¬ decide (s ≠ []) := by simp
  rw [h.split, List.filter_append, List.filter_eq_self.mpr hne, List.filter_eq_nil_iff.mpr hnil,
    List.append_nil, List.getLast?_concat]

/-- The name of the last segment is the name of the repository. -/
theorem Segmented.repoName (h : Segmented (front ++ [last])) (huser : ShortForm.IsUser user)
    (hhost : ShortForm.IsHost host) {name : String} (hname : IsShortened last name.toList)
    (n : Nat) :
    repoName (String.ofList (segmentsText user host (front ++ [last]) ++ List.replicate n '/')) =
      .ok name := by
  refine repoName_of_last (h.parse huser hhost n) ?_ hname
  rw [String.toList_ofList]
  exact h.isLastSegment n

theorem Segmented.append_git (h : Segmented (front ++ [last])) :
    Segmented (front ++ [last ++ ".git".toList]) := by
  have hgit : ∀ c ∈ ".git".toList, c ≠ '/' ∧ c ≠ ':' ∧ c ≠ '\n' := by simp
  have hlast := h.plain last (List.mem_append_right _ (List.mem_singleton_self _))
  constructor
  · simp
  · intro s hs
    rcases List.mem_append.mp hs with hs | hs
    · exact h.plain s (List.mem_append_left _ hs)
    obtain rfl := List.mem_singleton.mp hs
    refine ⟨by simp [hlast.1],fun c hc => ?_⟩
    exact (List.mem_append.mp hc).elim (hlast.2 c) (hgit c)
  · intro s rest hs
    cases front with
    | nil =>
      -- the only segment: the dot in it keeps it from being a port
      obtain ⟨rfl,-⟩ := List.cons.inj hs
      constructor
      · rw [List.head?_append, Option.or_of_isSome (List.isSome_head?.mpr hlast.1)]
        exact (h.first last [] rfl).1
      · exact fun hport => absurd (hport.2.2 '.' (List.mem_append_right _ (by decide))) (by decide)
    | cons t front =>
      obtain ⟨rfl,-⟩ := List.cons.inj hs
      exact h.first _ _ rfl

theorem IsShortened.append (h : IsShortened segment name)
    (hending : ∀ c ∈ ending, c ∈ ['.', 'g', 'i', 't']) : IsShortened (segment ++ ending) name := by
  obtain ⟨⟨ending',rfl,hending'⟩,hname⟩ := h
  refine ⟨⟨ending' ++ ending,List.append_assoc ..,fun c hc => ?_⟩,hname⟩
  rcases List.mem_append.mp hc with hc | hc
  · exact hending' c hc
  · exact hending c hc

theorem segmentsText_append :
    segmentsText user host (front ++ [last ++ ending]) =
      segmentsText user host (front ++ [last]) ++ ending := by
  have hjoin : ['/'].intercalate (front ++ [last ++ ending]) =
      ['/'].intercalate (front ++ [last]) ++ ending := by
    by_cases hf : front = []
    · simp [hf]
    · rw [Text.intercalate_append '/' hf (by simp), Text.intercalate_append '/' hf (by simp)]
      simp
  simp [segmentsText, hjoin]

end segments

/-- A repository is called what is left of the last segment of its path, so in the short form the
slashes at the end, a `.git` there and the segments before the last make no difference. -/
theorem repoName_last_segment :
    (∀ text l, parse text = .ok l → Named text l) ∧
    ∀ user host front last, ShortForm.IsUser user → ShortForm.IsHost host →
      Segmented (front ++ [last]) →
      ∃ name : String, IsShortened last name.toList ∧
        repoName (String.ofList (segmentsText user host (front ++ [last]))) = .ok name ∧
        (∀ n, repoName (String.ofList (segmentsText user host (front ++ [last]) ++
          List.replicate n '/')) = .ok name) ∧
        repoName (String.ofList (segmentsText user host (front ++ [last]) ++ ".git".toList)) =
          .ok name ∧
        ∀ others, Segmented (others ++ [last]) →
          repoName (String.ofList (segmentsText user host (others ++ [last]))) = .ok name := by
  refine ⟨fun _ _ => named_of_parse,fun user host front last huser hhost h => ?_⟩
  have hgit : ∀ c ∈ ".git".toList, c ∈ ['.', 'g', 'i', 't'] := by simp
  obtain ⟨name,hname⟩ := exists_shortened last
  have hall : ∀ {front : List (List Char)} {last}, Segmented (front ++ [last]) →
      IsShortened last name.toList →
      repoName (String.ofList (segmentsText user host (front ++ [last]))) = .ok name := by
    intro front last h hname
    have h0 := h.repoName huser hhost hname 0
    rwa [List.replicate_zero, List.append_nil] at h0
  refine ⟨name,hname,hall h hname,h.repoName huser hhost hname,?_,fun others ho => hall ho hname⟩
  rw [← segmentsText_append]
  exact hall h.append_git (hname.append hgit)

theorem repoName_digit :
    Named "git@example.com:org/digit"
      { scheme := "ssh", user := some "git", host := "example.com", port := none,
        path := "org/digit" } ∧
    repoName "git@example.com:org/digit" = .ok "d" ∧
    repoName "git@example.com:org/digit///" = .ok "d" ∧
    repoName "git@example.com:org/digit.git" = .ok "d" ∧
    repoName "git@example.com:srv/www/digit" = .ok "d" := by
  have horg : Segmented (["org".toList] ++ ["digit".toList]) := by
    refine ⟨by decide,by simp,fun s rest hs => ?_⟩
    obtain ⟨rfl,-⟩ := List.cons.inj hs
    exact ⟨by decide,fun hport => absurd (hport.2.2 'o' (by decide)) (by decide)⟩
  have hsrv : Segmented (["srv".toList, "www".toList] ++ ["digit".toList]) := by
    refine ⟨by decide,by simp,fun s rest hs => ?_⟩
    obtain ⟨rfl,-⟩ := List.cons.inj hs
    exact ⟨by decide,fun hport => absurd (hport.2.2 's' (by decide)) (by decide)⟩
  have huser : ShortForm.IsUser "git".toList :=
    Url.isUser_of_isUnreserved (by decide) (List.all_eq_true.mp (by decide))
  have hhost : ShortForm.IsHost "example.com".toList :=
    Url.isHost_of_isUnreserved (by decide) (List.all_eq_true.mp (by decide))
  obtain ⟨name,hname,hplain,hslashes,hgit,hothers⟩ := repoName_last_segment.2 "git".toList
    "example.com".toList ["org".toList] "digit".toList huser hhost horg
  obtain rfl : name = "d" := String.toList_inj.mp (isShortened_iff.mp hname).symm
  exact ⟨repoName_last_segment.1 _ _ rfl,hplain,hslashes 3,hgit,hothers _ hsrv⟩

end Location
end GitPublish
