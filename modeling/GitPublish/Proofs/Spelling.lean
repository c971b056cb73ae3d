import GitPublish.Proofs.Url

/-!
# Two ways to write a location

A repository that SSH reaches is written in the short form or as a URL. Both are read as the same
user, host and port, and as the same path but for the slash that a URL has in front of it; so both
are accepted, and the repository has one name.
-/
namespace GitPublish

/-- A place that SSH reaches, in parts that can be written in both ways. -/
structure SshPlace where
  user : Option (List Char)
  host : List Char
  port : Option Nat
  segments : List (List Char)
  user_plain : ∀ u ∈ user, u ≠ [] ∧ ∀ c ∈ u, Url.isUnreserved c
  host_ne : host ≠ []
  host_plain : ∀ c ∈ host, Url.isUnreserved c
  port_lt : ∀ n ∈ port, n < 65536
  segments_ne : segments ≠ []
  segments_plain : ∀ s ∈ segments, s ≠ [] ∧ Url.Path.IsPlain s
  -- where no port is written, nothing is taken for one
  first : port = none → ∀ s rest, segments = s :: rest → rest ≠ [] → ¬ ShortForm.IsPort s

namespace SshPlace
variable (p : SshPlace)

def path : List Char := ['/'].intercalate p.segments

def form : ShortForm where
  user := p.user
  host := p.host
  port := p.port.map (Nat.toDigits 10)
  path := p.path

def portText : List Char :=
  match p.port with
  | some n => ':' :: Nat.toDigits 10 n
  | none => []

def authority : List Char :=
  match p.user with
  | some user => user ++ '@' :: (p.host ++ p.portText)
  | none => p.host ++ p.portText

def url : List Char := "ssh".toList ++ ':' :: '/' :: '/' :: (p.authority ++ '/' :: p.path)

/-- The location at the place, with its path as it is written. -/
def location (path : List Char) : Location where
  scheme := "ssh"
  user := p.user.map String.ofList
  host := String.ofList p.host
  port := p.port
  path := String.ofList path

variable {p}

theorem isUnreserved_of_mem_toDigits {c : Char} {n : Nat} (h : c ∈ Nat.toDigits 10 n) :
    Url.isUnreserved c := by
  have hdigit := Url.isDigit_of_mem_toDigits h
  simp [Url.isUnreserved, Char.isAlphanum, hdigit]

theorem mem_path {c : Char} (h : c ∈ p.path) : Url.isUnreserved c ∨ c = '/' := by
  rcases Text.mem_intercalate h with h | ⟨s,hs,hc⟩
  · exact .inr h
  · exact .inl ((p.segments_plain s hs).2.unreserved c hc)

/-! ## As a URL -/

theorem mem_place {c : Char} (h : c ∈ p.host ++ p.portText) : Url.isUnreserved c ∨ c = ':' := by
  rcases List.mem_append.mp h with h | h
  · exact .inl (p.host_plain c h)
  unfold portText at h
  split at h
  · rcases List.mem_cons.mp h with rfl | h
    · exact .inr rfl
    · exact .inl (isUnreserved_of_mem_toDigits h)
  · cases h

theorem mem_authority {c : Char} (h : c ∈ p.authority) :
    Url.isUnreserved c ∨ c = ':' ∨ c = '@' := by
  unfold authority at h
  split at h
  next user hu =>
    rcases List.mem_append.mp h with h | h
    · exact .inl ((p.user_plain user hu).2 c h)
    rcases List.mem_cons.mp h with rfl | h
    · exact .inr (.inr rfl)
    · exact (mem_place h).imp_right .inl
  next => exact (mem_place h).imp_right .inl

theorem cutUser_authority : Url.cutUser p.authority = (p.user, p.host ++ p.portText) := by
  have hplace : '@' ∉ p.host ++ p.portText :=
    Url.not_mem_of_special (fun _ => mem_place) (by decide) (by decide)
  unfold authority
  cases p.user with
  | none => exact Url.cutUser_of_not_mem hplace
  | some user => exact Url.cutUser_append hplace user

theorem cutHost_place : Url.cutHost false (p.host ++ p.portText) = (p.host, p.portText) := by
  refine Url.cutHost_of_plain (fun c hc => ?_) ?_
  · have h := p.host_plain c hc
    exact ⟨Url.ne_of_isUnreserved h (by decide),Url.ne_of_isUnreserved h (by decide)⟩
  · unfold portText
    cases p.port <;> simp

/-- The port is read, and nothing ends it before the path. -/
theorem port?_portText (p : SshPlace) :
    p.portText.tail.takeWhile (· ≠ '\\') = p.portText.tail ∧
      Url.port? p.portText.tail = .ok p.port := by
  unfold portText
  cases hport : p.port with
  | none => exact ⟨rfl,rfl⟩
  | some n =>
    exact ⟨Url.takeWhile_of_isUnreserved (by decide) fun c => isUnreserved_of_mem_toDigits,
      Url.port?_toDigits (p.port_lt n hport)⟩

theorem escape_user (p : SshPlace) : Url.escape Url.userSet
    ((p.user.getD []).takeWhile (· ≠ ':')) = p.user.getD [] := by
  have hplain : ∀ c ∈ p.user.getD [], Url.isUnreserved c := by
    cases hu : p.user with
    | none => exact nofun
    | some user => exact (p.user_plain user hu).2
  rw [Url.takeWhile_of_isUnreserved (by decide) hplain,
    Url.escape_of_isUnreserved (fun _ => Url.userSet_of_isUnreserved) hplain]

theorem afterSlashes_authority : Url.afterSlashes "ssh".toList (p.authority ++ '/' :: p.path) =
    .ok { scheme := "ssh", username := String.ofList (p.user.getD []), host := some (.name p.host),
          port := p.port, path := String.ofList ('/' :: p.path) } := by
  have hauthority : ∀ c ∈ p.authority, !Url.endsAuthority .plain c := by
    intro c hc
    rcases mem_authority hc with h | rfl | rfl
    · have hslash : c ≠ '/' := Url.ne_of_isUnreserved h (by decide)
      have hquery : c ≠ '?' := Url.ne_of_isUnreserved h (by decide)
      have hfragment : c ≠ '#' := Url.ne_of_isUnreserved h (by decide)
      simp [Url.endsAuthority, Url.SchemeKind.isSlash, Url.SchemeKind.isSpecial, Url.Path.isEnd,
        hslash, hquery, hfragment]
    · decide
    · decide
  obtain ⟨htake,hdrop⟩ := (Text.takeWhile_drop_iff (!Url.endsAuthority .plain ·) '/' (by decide)
    (p.authority ++ '/' :: p.path) p.authority p.path).mpr ⟨rfl,hauthority⟩
  have hkind : Url.SchemeKind.ofScheme "ssh".toList = .plain := by decide
  obtain ⟨hdigits,hvalue⟩ := p.port?_portText
  have hpath : Url.Path.parse .plain [] ('/' :: p.path) = ('/' :: p.path, true) :=
    Url.Path.parse_join (fun s hs => (p.segments_plain s hs).2) p.segments_ne
  have husual : Url.usualPort? "ssh".toList = none := by decide
  have hport : (if p.port = none then none else p.port) = p.port := by cases p.port <;> rfl
  have hend : Url.Path.isEnd '/' = false := by decide
  unfold Url.afterSlashes
  simp only [hkind, htake, hdrop, cutUser_authority, cutHost_place, hdigits, hvalue,
    Url.host?_plain p.host_ne p.host_plain, bind, Except.bind, List.append_eq_nil_iff, p.host_ne,
    false_and, decide_false, Bool.and_false, Bool.false_and, Bool.false_eq_true, if_false,
    reduceCtorEq, List.drop_length, List.nil_append, hend, hpath, husual, hport, p.escape_user,
    if_true, pure, Except.pure, String.ofList_toList]

theorem parse_url (p : SshPlace) : Url.parse (String.ofList p.url) =
    .ok { scheme := "ssh", username := String.ofList (p.user.getD []), host := some (.name p.host),
          port := p.port, path := String.ofList ('/' :: p.path) } := by
  have hclean : ∀ c ∈ p.url, ' ' < c := by
    intro c hc
    have hssh : "ssh".toList.all Url.isUnreserved := by decide
    simp only [url, List.mem_append, List.mem_cons] at hc
    rcases hc with hc | rfl | rfl | rfl | hc | rfl | hc
    · exact Url.blank_lt_of_isUnreserved (List.all_eq_true.mp hssh c hc)
    · decide
    · decide
    · decide
    · rcases mem_authority hc with h | rfl | rfl
      · exact Url.blank_lt_of_isUnreserved h
      · decide
      · decide
    · decide
    · rcases mem_path hc with h | rfl
      · exact Url.blank_lt_of_isUnreserved h
      · decide
  have hscheme : Url.scheme? p.url =
      some ("ssh".toList, '/' :: '/' :: (p.authority ++ '/' :: p.path)) :=
    Url.scheme?_append (List.all_eq_true.mp (by decide)) (by decide) _
  rw [Url.parse, String.toList_ofList, Url.cleaned_eq_self hclean, hscheme]
  exact afterSlashes_authority

theorem parse_ofUrl (p : SshPlace) :
    Location.parse (String.ofList p.url) = .ok (p.location ('/' :: p.path)) := by
  have hmark : Text.contains "://".toList (String.ofList p.url).toList := by
    rw [Text.contains_iff, String.toList_ofList]
    exact ⟨"ssh".toList,p.authority ++ '/' :: p.path,by simp [url]⟩
  have huser : (if String.ofList (p.user.getD []) = "" then none
      else some (String.ofList (p.user.getD []))) = p.user.map String.ofList := by
    cases hu : p.user with
    | none => rfl
    | some user => simp [(p.user_plain user hu).1]
  rw [Location.parse, if_pos hmark, Location.ofUrl, parse_url]
  dsimp only
  rw [if_pos (by decide), huser]
  rfl

/-! ## In the short form -/

theorem exists_path (p : SshPlace) : ∃ c rest, p.path = c :: rest ∧ Url.isUnreserved c := by
  obtain ⟨s,segments,hs⟩ := List.exists_cons_of_ne_nil p.segments_ne
  obtain ⟨hne,hplain⟩ := p.segments_plain s (hs ▸ List.mem_cons_self ..)
  obtain ⟨c,cs,rfl⟩ := List.exists_cons_of_ne_nil hne
  have hc := hplain.unreserved c (List.mem_cons_self ..)
  rw [path, hs]
  cases segments with
  | nil =>
    rw [List.intercalate_singleton]
    exact ⟨c,cs,rfl,hc⟩
  | cons t segments =>
    rw [List.intercalate_cons_cons, List.append_assoc]
    exact ⟨c,_,rfl,hc⟩

theorem split_path (p : SshPlace) : List.splitOn '/' p.path = p.segments := by
  refine List.splitOn_intercalate '/' (fun s hs hslash => ?_) p.segments_ne
  exact absurd ((p.segments_plain s hs).2.unreserved _ hslash) (by decide)

theorem isUser (p : SshPlace) {user : List Char} (h : p.user = some user) :
    ShortForm.IsUser user :=
  Url.isUser_of_isUnreserved (p.user_plain user h).1 (p.user_plain user h).2

theorem isHost (p : SshPlace) : ShortForm.IsHost p.host :=
  Url.isHost_of_isUnreserved p.host_ne p.host_plain

theorem isPort (p : SshPlace) {n : Nat} (h : p.port = some n) :
    ShortForm.IsPort (Nat.toDigits 10 n) := by
  have hlt := p.port_lt n h
  refine ⟨Nat.toDigits_ne_nil,?_,fun c => Url.isDigit_of_mem_toDigits⟩
  rw [Nat.length_toDigits_le_iff (by decide) (by decide)]
  omega

theorem isPath (p : SshPlace) : ShortForm.isPath p.path := by
  obtain ⟨c,rest,hpath,hc⟩ := p.exists_path
  have hline : '\n' ∉ p.path := Url.not_mem_of_special (fun _ => mem_path) (by decide) (by decide)
  refine ShortForm.isPath_iff.mpr ⟨c,rest,hpath,Url.ne_of_isUnreserved hc (by decide),fun hn => ?_⟩
  exact hline (hpath ▸ List.mem_cons_of_mem c hn)

/-- Where no port is written, no part of the path is taken for one. -/
theorem cutPort?_path (p : SshPlace) (h : p.port = none) : ShortForm.cutPort? p.path = none := by
  refine Option.eq_none_iff_forall_ne_some.mpr fun (digits, rest) hcut => ?_
  obtain ⟨hport,-,hpath⟩ := ShortForm.cutPort?_eq_some.mp hcut
  have hslash : '/' ∉ digits := fun hs => absurd (hport.2.2 _ hs) (by decide)
  have hsplit := p.split_path
  rw [hpath, List.splitOn_append_cons_self, List.splitOn_eq_singleton hslash] at hsplit
  exact p.first h digits _ hsplit.symm (List.splitOn_ne_nil _ _) hport

/-- What follows the first colon of the short form has no other, and does not start with a slash. -/
theorem tailText_form (p : SshPlace) :
    (∀ c ∈ p.form.tailText, Url.isUnreserved c ∨ c = '/') ∧
      p.form.tailText.head? ≠ some '/' := by
  unfold ShortForm.tailText form
  cases p.port with
  | none =>
    obtain ⟨c,rest,hpath,hc⟩ := p.exists_path
    refine ⟨fun c => mem_path,?_⟩
    rw [hpath]
    exact fun h => Url.ne_of_isUnreserved hc (by decide) (Option.some.inj h)
  | some n =>
    constructor
    · intro c hc
      rcases List.mem_append.mp hc with hc | hc
      · exact .inl (isUnreserved_of_mem_toDigits hc)
      rcases List.mem_cons.mp hc with rfl | hc
      · exact .inr rfl
      · exact mem_path hc
    · have hne : Nat.toDigits 10 n ≠ [] := Nat.toDigits_ne_nil
      obtain ⟨d,digits,hdigits⟩ := List.exists_cons_of_ne_nil hne
      have hd : d ∈ Nat.toDigits 10 n := hdigits ▸ List.mem_cons_self ..
      dsimp only [Option.map_some]
      rw [hdigits]
      exact fun h => Url.ne_of_isUnreserved (isUnreserved_of_mem_toDigits hd) (by decide)
        (Option.some.inj h)

/-- The short form is read as its parts. -/
theorem parse?_form (p : SshPlace) : ShortForm.parse? p.form.text = some p.form := by
  have hhost : ShortForm.ofHost? p.user (p.host ++ ':' :: p.form.tailText) = some p.form := by
    refine ShortForm.ofHost?_eq_some.mpr ⟨rfl,p.isHost,?_,p.isPath,rfl,?_⟩
    · rintro _ hd
      obtain ⟨n,hn,rfl⟩ := Option.map_eq_some_iff.mp hd
      exact p.isPort hn
    · intro hd
      exact p.cutPort?_path (Option.map_eq_none_iff.mp hd)
  cases hu : p.user with
  | some user =>
    have huser : p.form.user = some user := hu
    rw [hu] at hhost
    rw [ShortForm.text_of_user huser]
    exact Option.or_eq_some_iff.mpr (.inl (Option.bind_eq_some_iff.mpr
      ⟨_,ShortForm.cutUser?_eq_some.mpr ⟨p.isUser hu,rfl⟩,hhost⟩))
  | none =>
    have huser : p.form.user = none := hu
    rw [hu] at hhost
    rw [ShortForm.text_of_no_user huser]
    have hnone : ShortForm.cutUser? (p.form.host ++ ':' :: p.form.tailText) = none := by
      refine Option.eq_none_iff_forall_ne_some.mpr fun (user, rest) hcut => ?_
      obtain ⟨-,htext⟩ := ShortForm.cutUser?_eq_some.mp hcut
      have hat : '@' ∈ p.host ++ ':' :: p.form.tailText := htext ▸ by simp
      rcases List.mem_append.mp hat with h | h
      · exact absurd (p.host_plain _ h) (by decide)
      rcases List.mem_cons.mp h with h | h
      · cases h
      · exact Url.not_mem_of_special p.tailText_form.1 (by decide) (by decide) h
    rw [ShortForm.parse?, hnone]
    exact hhost

theorem not_mark_form (p : SshPlace) : ¬ "://".toList <:+: p.form.text := by
  obtain ⟨htail,hslash⟩ := p.tailText_form
  have hcolon : ':' ∉ p.form.tailText := Url.not_mem_of_special htail (by decide) (by decide)
  have hhost : '/' ∉ p.host := fun h => absurd (p.host_plain _ h) (by decide)
  cases hu : p.user with
  | none =>
    have huser : p.form.user = none := hu
    rw [ShortForm.text_of_no_user huser]
    exact Text.not_mark hhost hcolon hslash
  | some user =>
    have huser : p.form.user = some user := hu
    have hname : '/' ∉ user := fun h => absurd ((p.user_plain user hu).2 _ h) (by decide)
    rw [ShortForm.text_of_user huser, ← List.cons_append, ← List.append_assoc]
    exact Text.not_mark (by simp [hname, hhost, form]) hcolon hslash

theorem location?_form (p : SshPlace) : p.form.location? = some (p.location p.path) := by
  unfold ShortForm.location? form location
  cases hport : p.port with
  | none => rfl
  | some n =>
    have hvalue : ShortForm.value (Nat.toDigits 10 n) = n := Url.value_toDigits n
    dsimp only [Option.map_some]
    rw [hvalue, if_pos (p.port_lt n hport)]

theorem parse_ofForm (p : SshPlace) :
    Location.parse (String.ofList p.form.text) = .ok (p.location p.path) := by
  have hmark : ¬ Text.contains "://".toList (String.ofList p.form.text).toList := by
    rw [Text.contains_iff, String.toList_ofList (l := p.form.text)]
    exact p.not_mark_form
  rw [Location.parse, if_neg hmark, String.toList_ofList, parse?_form, Option.bind_some,
    location?_form]
  rfl

/-! ## Both -/

theorem validate_of_parse {text : String} {path : List Char}
    (h : Location.parse text = .ok (p.location path)) : Location.validate text = .ok () := by
  have hhost : String.ofList p.host ≠ "" := by simp [p.host_ne]
  refine Location.validate_eq_ok.mpr ⟨"ssh",by decide,_,h,?_,rfl⟩
  simp [Location.isRemote, location, hhost]

theorem repoName_of_parse {text : String} {path : List Char}
    (h : Location.parse text = .ok (p.location path))
    (hpath : (List.splitOn '/' path).filter (· ≠ []) = p.segments) :
    Location.repoName text = .ok (String.ofList
      ((p.segments.getLast p.segments_ne).reverse.dropWhile Location.isEnding).reverse) := by
  have hsplit : (List.splitOn '/' (p.location path).path.toList).filter (· ≠ []) = p.segments := by
    rw [location, String.toList_ofList, hpath]
  rw [Location.repoName, h]
  dsimp only
  rw [hsplit, List.getLast?_eq_some_getLast p.segments_ne]

/-- The short form and the URL name the same place. -/
theorem spellings_agree (p : SshPlace) :
    Location.parse (String.ofList p.form.text) = .ok (p.location p.path) ∧
      Location.parse (String.ofList p.url) = .ok (p.location ('/' :: p.path)) ∧
      Location.validate (String.ofList p.form.text) = .ok () ∧
      Location.validate (String.ofList p.url) = .ok () ∧
      ∃ name, Location.repoName (String.ofList p.form.text) = .ok name ∧
        Location.repoName (String.ofList p.url) = .ok name := by
  have hshort : (List.splitOn '/' p.path).filter (· ≠ []) = p.segments := by
    rw [p.split_path, List.filter_eq_self]
    exact fun s hs => decide_eq_true (p.segments_plain s hs).1
  have hlong : (List.splitOn '/' ('/' :: p.path)).filter (· ≠ []) = p.segments := by
    rw [Text.splitOn_cons, if_pos rfl, List.filter_cons_of_neg (by simp), hshort]
  exact ⟨p.parse_ofForm,p.parse_ofUrl,validate_of_parse p.parse_ofForm,
    validate_of_parse p.parse_ofUrl,_,repoName_of_parse p.parse_ofForm hshort,
    repoName_of_parse p.parse_ofUrl hlong⟩

def site : SshPlace where
  user := some "git".toList
  host := "example.org".toList
  port := some 65535
  segments := ["srv".toList, "8080".toList, "site.git".toList]
  user_plain u hu := by
    rw [← Option.some.inj hu]
    exact ⟨by decide,List.all_eq_true.mp (by decide)⟩
  host_ne := by decide
  host_plain := List.all_eq_true.mp (by decide)
  port_lt := by decide
  segments_ne := by decide
  segments_plain s hs := by
    simp only [List.mem_cons, List.not_mem_nil, or_false] at hs
    rcases hs with rfl | rfl | rfl <;>
      exact ⟨by decide,List.all_eq_true.mp (by decide),by decide,by decide⟩
  first := nofun

theorem spellings_agree_site :
    let short := "git@example.org:65535/srv/8080/site.git"
    let long := "ssh://git@example.org:65535/srv/8080/site.git"
    Location.parse short = .ok (site.location "srv/8080/site.git".toList) ∧
      Location.parse long = .ok (site.location "/srv/8080/site.git".toList) ∧
      Location.validate short = .ok () ∧ Location.validate long = .ok () ∧
      ∃ name, Location.repoName short = .ok name ∧ Location.repoName long = .ok name :=
  spellings_agree site

end SshPlace
end GitPublish
