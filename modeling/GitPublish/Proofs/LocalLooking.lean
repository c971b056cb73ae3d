import GitPublish.Proofs.Reading
import GitPublish.Proofs.Url

/-!
# Texts that look local

Behind the colon of a host a path may start with a slash, and a text may start like the path of a
drive. Neither makes the text a local path. A slash behind the colon becomes a part of the path, and
the letter of the drive becomes the host, or a part of the user where a backslash is behind it.
-/
namespace GitPublish

namespace Text
variable {xs ys before behind : List Char}

/-- A colon with no slash before it is the one in front of the first slash, or an earlier one. -/
theorem colon_cases (h : xs ++ ':' :: ys = before ++ ':' :: '/' :: behind) (hx : '/' ∉ xs) :
    xs = before ∧ ys = '/' :: behind ∨
      ∃ more, before = xs ++ ':' :: more ∧ ys = more ++ ':' :: '/' :: behind := by
  rcases List.append_eq_append_iff.mp h with ⟨as,hbefore,hys⟩ | ⟨bs,hxs,hslash⟩
  · cases as with
    | nil =>
      rw [List.append_nil] at hbefore
      exact .inl ⟨hbefore.symm,(List.cons.inj hys).2⟩
    | cons c as =>
      rw [List.cons_append, List.cons.injEq] at hys
      obtain ⟨rfl,hys⟩ := hys
      exact .inr ⟨as,hbefore,hys⟩
  · cases bs with
    | nil =>
      rw [List.append_nil] at hxs
      exact .inl ⟨hxs,(List.cons.inj hslash).2.symm⟩
    | cons c bs =>
      have hbehind := (List.cons.inj hslash).2
      cases bs with
      | nil => cases hbehind
      | cons d bs =>
        apply absurd _ hx
        rw [hxs, ← (List.cons.inj hbehind).1]
        simp

end Text

namespace ShortForm
variable {cs host tail rest : List Char} {user : Option (List Char)} {f g : ShortForm}

/-- What stands in front of the colon behind the host. -/
def frontText (user : Option (List Char)) (host : List Char) : List Char :=
  (match user with | some name => name ++ ['@'] | none => []) ++ host

/-- The text is a host, with a user or not, and `tail` behind its colon. -/
structure Hosts (user : Option (List Char)) (host cs tail : List Char) : Prop where
  isUser : ∀ name, user = some name → IsUser name
  isHost : IsHost host
  text : cs = frontText user host ++ ':' :: tail

theorem Splits.hosts (h : f.Splits cs) : Hosts f.user f.host cs f.tailText where
  isUser := h.user
  isHost := h.host
  text := by
    rw [← h.text]
    unfold frontText
    cases hu : f.user with
    | none => rw [text_of_no_user hu, List.nil_append]
    | some name => rw [text_of_user hu, List.append_assoc, List.append_assoc]; rfl

theorem Hosts.slash_not_mem (h : Hosts user host cs tail) : '/' ∉ frontText user host := by
  have hhost := h.isHost.slash_not_mem
  cases user with
  | none => exact hhost
  | some name =>
    have hname : '/' ∉ name := fun hm => ((h.isUser name rfl).2 _ hm).2 rfl
    simp [frontText, hname, hhost]

/-- Where a slash is behind the colon of the host, no split has another colon in its place but one
in the user. -/
theorem Splits.tail_cases (hf : f.Splits cs) (h : Hosts user host cs ('/' :: rest)) :
    frontText f.user f.host = frontText user host ∧ f.tailText = '/' :: rest ∨
      ∃ more, frontText user host = frontText f.user f.host ++ ':' :: more ∧
        f.tailText = more ++ ':' :: '/' :: rest :=
  Text.colon_cases (hf.hosts.text.symm.trans h.text) hf.hosts.slash_not_mem

/-- A port does not start with a slash. -/
theorem Splits.portless (hf : f.Splits cs) (ht : f.tailText = '/' :: rest) :
    f.port = none ∧ f.path = '/' :: rest := by
  cases hp : f.port with
  | none => exact ⟨rfl,(tailText_of_portless hp).symm.trans ht⟩
  | some digits =>
    have hport := (hf.hasPort hp).2.1
    have htext := (hf.hasPort hp).1.symm.trans ht
    cases digits with
    | nil => exact absurd rfl hport.1
    | cons c digits =>
      rw [(List.cons.inj htext).1] at hport
      exact absurd (List.mem_cons_self ..) hport.slash_not_mem

theorem IsPath.line_not_mem {path front : List Char} (h : IsPath path) (hf : front ≠ [])
    (hp : path = front ++ rest) : '\n' ∉ rest := by
  obtain ⟨c,behind,rfl,-,hline⟩ := h
  cases front with
  | nil => exact absurd rfl hf
  | cons d front =>
    rw [List.cons_append, List.cons.injEq] at hp
    rw [hp.2, List.mem_append, not_or] at hline
    exact hline.2

/-- A text that can be split has no line ending behind the slash. -/
theorem Splits.line_not_mem (hf : f.Splits cs) (h : Hosts user host cs ('/' :: rest)) :
    '\n' ∉ rest := by
  rcases hf.tail_cases h with ⟨-,ht⟩ | ⟨more,hfront,ht⟩
  · exact IsPath.line_not_mem hf.path (List.cons_ne_nil '/' []) (hf.portless ht).2
  cases hp : f.port with
  | none =>
    rw [tailText_of_portless hp] at ht
    have hsplit : f.path = (more ++ [':', '/']) ++ rest := by simp [ht]
    exact IsPath.line_not_mem hf.path (by simp) hsplit
  | some digits =>
    -- the slash behind the port would be the first one, but that one is behind a colon
    have hport := hf.hasPort hp
    have hmore : '/' ∉ more := fun hm => h.slash_not_mem (by rw [hfront]; simp [hm])
    have hfirst : Text.FirstAt '/' f.tailText (more ++ [':']) rest :=
      ⟨by rw [ht]; simp,by simp [hmore]⟩
    obtain ⟨hdigits,-⟩ := hfirst.unique ⟨hport.1,hport.2.1.slash_not_mem⟩
    have hcolon : ':' ∈ digits := by simp [← hdigits]
    exact absurd (hport.2.1.2.2 _ hcolon) (by decide)

theorem Splits.exists_preferred (h : g.Splits cs) : ∃ f : ShortForm, f.Preferred cs := by
  by_cases hu : HasUser cs
  · obtain ⟨g',hg,hne⟩ := hu
    obtain ⟨f,hf,-⟩ := hg.exists_parse? fun hn => absurd hn hne
    exact ⟨f,parse?_eq_some.mp hf⟩
  · obtain ⟨f,hf,-⟩ := h.exists_parse? fun _ g' hg =>
      Decidable.byContradiction fun hne => hu ⟨g',hg,hne⟩
    exact ⟨f,parse?_eq_some.mp hf⟩

theorem Hosts.splits (h : Hosts user host cs ('/' :: rest)) (hline : '\n' ∉ rest) :
    Splits ⟨user,host,none,'/' :: rest⟩ cs := by
  refine ⟨h.isUser,h.isHost,nofun,⟨'/',rest,rfl,by decide,hline⟩,?_⟩
  rw [h.text]
  unfold ShortForm.text frontText
  cases user <;> simp

/-- Whatever host a slash is behind, the split that is read has the slash behind its own. -/
theorem Hosts.tailText_of_preferred (h : Hosts user host cs ('/' :: rest)) (hf : f.Preferred cs) :
    f.tailText = '/' :: rest := by
  rcases hf.splits.tail_cases h with ⟨-,ht⟩ | ⟨more,hfront,-⟩
  · exact ht
  -- the colon of another split would be in the user, but then that split is not preferred
  have hg := h.splits (hf.splits.line_not_mem h)
  have hcolon := h.isHost.colon_not_mem
  cases user with
  | none =>
    rw [show host = _ from hfront] at hcolon
    exact absurd (by simp) hcolon
  | some name =>
    obtain ⟨name',hname'⟩ := Option.ne_none_iff_exists'.mp fun hn => nomatch hf.user hn _ hg
    have hname : '@' ∉ name := fun hm => ((h.isUser name rfl).2 _ hm).1 rfl
    have hnone : '@' ∉ name' := fun hm => ((hf.splits.user name' hname').2 _ hm).1 rfl
    rw [hname'] at hfront
    simp only [frontText, List.append_assoc, List.cons_append, List.nil_append] at hfront
    have hsame : Text.FirstAt '@' (name ++ '@' :: host) name host := ⟨rfl,hname⟩
    obtain ⟨-,hhost⟩ := hsame.unique ⟨hfront,hnone⟩
    rw [hhost] at hcolon
    exact absurd (by simp) hcolon

/-- A slash behind the colon of the host becomes the start of the path. -/
theorem Hosts.exists_preferred (h : Hosts user host cs ('/' :: rest)) (hline : '\n' ∉ rest) :
    ∃ f : ShortForm, f.Preferred cs ∧ f.port = none ∧ f.path = '/' :: rest := by
  obtain ⟨f,hf⟩ := (h.splits hline).exists_preferred
  exact ⟨f,hf,hf.splits.portless (h.tailText_of_preferred hf)⟩

/-- Behind a single letter and a colon no path starts with a backslash, so all that is left for the
letter is to start a user. -/
theorem Splits.drive_user {letter : Char} (hf : f.Splits (letter :: ':' :: '\\' :: rest))
    (hl : letter ≠ ':') : ∃ name, f.user = some (letter :: ':' :: '\\' :: name) := by
  have htext := hf.hosts.text
  cases hu : f.user with
  | none =>
    have hcolon : Text.FirstAt ':' (letter :: ':' :: '\\' :: rest) [letter] ('\\' :: rest) :=
      ⟨rfl,by simpa using hl.symm⟩
    rw [hu] at htext
    obtain ⟨-,htail⟩ := hcolon.unique ⟨htext,hf.host.colon_not_mem⟩
    exfalso
    obtain ⟨c,path,hpath,hc,-⟩ := hf.path
    cases hp : f.port with
    | none =>
      rw [tailText_of_portless hp, hpath] at htail
      exact hc (List.cons.inj htail).1.symm
    | some digits =>
      obtain ⟨htail',hport,-⟩ := hf.hasPort hp
      rw [htail'] at htail
      cases digits with
      | nil => exact hport.1 rfl
      | cons d digits =>
        have hdigit := hport.2.2 d (List.mem_cons_self ..)
        rw [← (List.cons.inj htail).1] at hdigit
        exact absurd hdigit (by decide)
  | some name =>
    obtain ⟨hne,hname⟩ := hf.user name hu
    rw [hu] at htext
    simp only [frontText, List.append_assoc, List.cons_append, List.nil_append] at htext
    -- the three characters come before the at sign one by one
    rcases name with - | ⟨a, - | ⟨b, - | ⟨c, name⟩⟩⟩
    · exact absurd rfl hne
    · simp at htext
    · simp at htext
    · simp only [List.cons_append, List.cons.injEq] at htext
      obtain ⟨rfl,rfl,rfl,-⟩ := htext
      exact ⟨name,rfl⟩

end ShortForm

namespace Location
variable {text : String} {l : Location}

/-- A slash is behind the colon of the host. -/
def IsRooted (text : String) : Prop :=
  ∃ user host rest, ShortForm.Hosts user host text.toList ('/' :: rest)

/-- The text starts like the path of a drive: a single letter, a colon, and a slash of either
kind. -/
def IsDrive (text : String) : Prop := ∃ letter slash rest,
  text.toList = letter :: ':' :: slash :: rest ∧ letter.isAlpha ∧ (slash = '/' ∨ slash = '\\')

structure LocalLooking (text : String) (l : Location) : Prop where
  rooted : ∀ f, ShortForm.Preferred f text.toList → (f.tailText.head? = some '/' ↔ IsRooted text)
  -- these texts are taken over SSH all the same: those with a slash behind the colon of the host
  -- and no line ending behind it, and those with a user that starts like the path of a drive
  taken : l.scheme = "ssh" ∧ (IsRooted text ∨ IsDrive text) ↔
    (∃ user host rest, ShortForm.Hosts user host text.toList ('/' :: rest) ∧ '\n' ∉ rest) ∨
    ∃ f letter name, ShortForm.Preferred f text.toList ∧ f.PortFits ∧ letter.isAlpha ∧
      f.user = some (letter :: ':' :: '\\' :: name)
  path : ∀ user host rest, ShortForm.Hosts user host text.toList ('/' :: rest) → '\n' ∉ rest →
    l.port = none ∧ l.path = String.ofList ('/' :: rest)
  accepted : l.scheme = "ssh" → validate text = .ok () ∧ isRemoteText text = true
  refused : l.scheme ≠ "ssh" → l = ofPath text ∧ isRemoteText text = false ∧
    validate text = .error (if text = "" then .empty else .invalid text)

theorem isHost_letter {letter : Char} (h : letter.isAlpha) : ShortForm.IsHost [letter] := by
  apply Url.isHost_of_isUnreserved (List.cons_ne_nil letter [])
  intro c hc
  rw [List.mem_singleton.mp hc]
  simp [Url.isUnreserved, Char.isAlphanum, h]

theorem isDrive_of_user {f : ShortForm} {letter : Char} {name : List Char}
    (hf : f.Splits text.toList) (hu : f.user = some (letter :: ':' :: '\\' :: name))
    (hl : letter.isAlpha) : IsDrive text := by
  have htext := hf.hosts.text
  rw [hu] at htext
  exact ⟨letter,'\\',_,htext,hl,.inr rfl⟩

/-- A text that is read in the short form, and looks local, is one of those that are taken. -/
theorem looks_local {f : ShortForm} (hf : f.Preferred text.toList) (hport : f.PortFits)
    (h : IsRooted text ∨ IsDrive text) :
    (∃ user host rest, ShortForm.Hosts user host text.toList ('/' :: rest) ∧ '\n' ∉ rest) ∨
    ∃ f letter name, ShortForm.Preferred f text.toList ∧ f.PortFits ∧ letter.isAlpha ∧
      f.user = some (letter :: ':' :: '\\' :: name) := by
  rcases h with ⟨user,host,rest,hr⟩ | ⟨letter,slash,rest,htext,hl,rfl | rfl⟩
  · exact .inl ⟨user,host,rest,hr,hf.splits.line_not_mem hr⟩
  · have hr : ShortForm.Hosts none [letter] text.toList ('/' :: rest) :=
      ⟨nofun,isHost_letter hl,htext⟩
    exact .inl ⟨none,[letter],rest,hr,hf.splits.line_not_mem hr⟩
  · have hcolon : letter ≠ ':' := ((isHost_letter hl).2 letter (List.mem_singleton_self _)).1
    obtain ⟨name,hu⟩ := (htext ▸ hf.splits).drive_user hcolon
    exact .inr ⟨f,letter,name,hf,hport,hl,hu⟩

theorem isRooted_iff {f : ShortForm} (hf : f.Preferred text.toList) :
    f.tailText.head? = some '/' ↔ IsRooted text := by
  constructor
  · intro hslash
    obtain ⟨rest,ht⟩ := List.head?_eq_some_iff.mp hslash
    exact ⟨f.user,f.host,rest,ht ▸ hf.splits.hosts⟩
  · rintro ⟨user,host,rest,hr⟩
    rw [hr.tailText_of_preferred hf]
    rfl

theorem localLooking_of_short (h : ¬ "://".toList <:+: text.toList) {f : ShortForm}
    (hf : f.Preferred text.toList) (hport : f.PortFits) : LocalLooking text f.location where
  rooted := fun _ => isRooted_iff
  taken := by
    constructor
    · exact fun hlocal => looks_local hf hport hlocal.2
    · rintro (⟨user,host,rest,hr,-⟩ | ⟨g,letter,name,hg,-,halpha,hu⟩)
      · exact ⟨rfl,.inl ⟨user,host,rest,hr⟩⟩
      · exact ⟨rfl,.inr (isDrive_of_user hg.splits hu halpha)⟩
  path := by
    intro user host rest hr hline
    obtain ⟨g,hg,hgport,hpath⟩ := hr.exists_preferred hline
    have hsame : f = g := Option.some.inj
      ((ShortForm.parse?_eq_some.mpr hf).symm.trans (ShortForm.parse?_eq_some.mpr hg))
    rw [hsame, ShortForm.location, hgport, hpath]
    exact ⟨rfl,rfl⟩
  accepted := by
    intro _
    have hv : validate text = .ok () := accepted_iff.mpr (.inr (.inr ⟨h,f,hf,hport⟩))
    exact ⟨hv,isRemoteText_iff_validate.mpr (.inl hv)⟩
  refused := fun hne => absurd rfl hne

theorem localLooking_of_path (hl : parse text = .ok (ofPath text))
    (hnone : ∀ f : ShortForm, f.Preferred text.toList → ¬ f.PortFits) :
    LocalLooking text (ofPath text) := by
  have hfile : (ofPath text).scheme ≠ "ssh" := by
    change "file" ≠ "ssh"
    decide
  have hlines {user : Option (List Char)} {host rest : List Char}
      (hr : ShortForm.Hosts user host text.toList ('/' :: rest)) : ¬ '\n' ∉ rest := by
    intro hline
    obtain ⟨f,hf,hport,-⟩ := hr.exists_preferred hline
    exact hnone f hf fun digits hd => nomatch hport.symm.trans hd
  constructor
  · exact fun _ => isRooted_iff
  · constructor
    · exact fun hssh => absurd hssh.1 hfile
    · rintro (⟨user,host,rest,hr,hline⟩ | ⟨f,letter,name,hf,hport,-⟩)
      · exact absurd hline (hlines hr)
      · exact absurd hport (hnone f hf)
  · exact fun user host rest hr hline => absurd hline (hlines hr)
  · exact fun hssh => absurd hssh hfile
  · intro _
    have hremote : (ofPath text).isRemote = false := rfl
    unfold isRemoteText validate
    rw [hl]
    dsimp only
    rw [hremote]
    split
    · exact ⟨rfl,rfl,rfl⟩
    · exact ⟨rfl,rfl,rfl⟩

/-- What looks local, in a text without `://`, is taken for a local path unless it has a host. -/
theorem parse_localLooking (text : String) (h : ¬ "://".toList <:+: text.toList) :
    ∃ l, parse text = .ok l ∧ LocalLooking text l := by
  obtain ⟨l,hl,⟨f,hf,hport,rfl⟩ | ⟨hnone,rfl⟩⟩ := unmarked_cases h
  · exact ⟨_,hl,localLooking_of_short h hf hport⟩
  · exact ⟨_,hl,localLooking_of_path hl hnone⟩

/-- The path of a drive, with slashes. -/
theorem parse_localLooking_drive : ¬ "://".toList <:+: "C:/work/site".toList ∧
    parse "C:/work/site" = .ok ⟨"ssh",none,"C",none,"/work/site"⟩ ∧
    LocalLooking "C:/work/site" ⟨"ssh",none,"C",none,"/work/site"⟩ := by
  have hmark : ¬ "://".toList <:+: "C:/work/site".toList := by
    rw [← Text.contains_iff]
    decide
  have hparse : parse "C:/work/site" = .ok ⟨"ssh",none,"C",none,"/work/site"⟩ := by rfl
  obtain ⟨l,hl,hlooks⟩ := parse_localLooking "C:/work/site" hmark
  obtain rfl := Except.ok.inj (hparse.symm.trans hl)
  exact ⟨hmark,hparse,hlooks⟩

/-- What is taken for a location over SSH may have a slash behind the colon of its host, and may
start like the path of a drive, with a slash or with a backslash. -/
theorem parse_takes_local :
    (IsRooted "git@host:/srv/site" ∧ ¬ "://".toList <:+: "git@host:/srv/site".toList ∧
      parse "git@host:/srv/site" = .ok ⟨"ssh",some "git","host",none,"/srv/site"⟩ ∧
      validate "git@host:/srv/site" = .ok () ∧ isRemoteText "git@host:/srv/site" = true) ∧
    (IsDrive "C:/work/site" ∧ ¬ "://".toList <:+: "C:/work/site".toList ∧
      parse "C:/work/site" = .ok ⟨"ssh",none,"C",none,"/work/site"⟩ ∧
      validate "C:/work/site" = .ok () ∧ isRemoteText "C:/work/site" = true) ∧
    (IsDrive "C:\\work@host:site" ∧ ¬ "://".toList <:+: "C:\\work@host:site".toList ∧
      parse "C:\\work@host:site" = .ok ⟨"ssh",some "C:\\work","host",none,"site"⟩ ∧
      validate "C:\\work@host:site" = .ok () ∧ isRemoteText "C:\\work@host:site" = true) := by
  have hmark {text : String} (h : Text.contains "://".toList text.toList = false) :
      ¬ "://".toList <:+: text.toList := by
    rw [← Text.contains_iff, h]
    decide
  refine ⟨⟨?_,hmark (by decide),by rfl,by rfl,by rfl⟩,⟨?_,hmark (by decide),by rfl,by rfl,by rfl⟩,
    ?_,hmark (by decide),by rfl,by rfl,by rfl⟩
  · have hhost : ShortForm.IsHost "host".toList :=
      Url.isHost_of_isUnreserved (by decide) (List.all_eq_true.mp (by decide))
    refine ⟨some "git".toList,"host".toList,"srv/site".toList,fun name hname => ?_,hhost,by decide⟩
    rw [← Option.some.inj hname]
    exact Url.isUser_of_isUnreserved (by decide) (List.all_eq_true.mp (by decide))
  · exact ⟨'C','/',"work/site".toList,by decide,by decide,.inl rfl⟩
  · exact ⟨'C','\\',"work@host:site".toList,by decide,by decide,.inr rfl⟩

end Location
end GitPublish
