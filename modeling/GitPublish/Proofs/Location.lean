import GitPublish.Proofs.ShortForm

/-!
# Which texts name a location

Whether a text is accepted, refused for how its location is reached, or taken for no location is
told by the text alone: by the scheme and the host of the URL that it writes, or by how it can be
split into the parts of the short form. A text is never accepted for a scheme of the web.
-/
namespace GitPublish

namespace Url
variable {scheme cs rest : List Char} {text : String} {url : Url}

theorem scheme_of_afterSlashes (h : afterSlashes scheme cs = .ok url) :
    url.scheme = String.ofList scheme := by
  unfold afterSlashes at h
  simp only [bind, Except.bind] at h
  repeat' split at h
  all_goals cases h
  all_goals rfl

theorem scheme_of_ofFile (h : ofFile cs = .ok url) : url.scheme = "file" := by
  unfold ofFile at h
  simp only [bind, Except.bind] at h
  repeat' split at h
  all_goals cases h
  all_goals rfl

/-- A URL has the scheme that its text starts with. -/
theorem scheme_of_parse (hs : scheme? (cleaned text.toList) = some (scheme, rest))
    (h : parse text = .ok url) : url.scheme = String.ofList scheme := by
  rw [parse, hs] at h
  dsimp only at h
  split at h
  next hk =>
    have hfile : String.ofList scheme = "file" := by
      refine Decidable.byContradiction fun hne => ?_
      rw [SchemeKind.ofScheme, if_neg hne] at hk
      split at hk <;> cases hk
    rw [scheme_of_ofFile h, hfile]
  next => exact scheme_of_afterSlashes h
  next =>
    split at h
    · exact scheme_of_afterSlashes h
    · cases h
      rfl

/-- What is no blank and no control stays at the start of a text that is cleaned. -/
theorem cleaned_append {cs : List Char} (hne : cs ≠ []) (hcs : ∀ c ∈ cs, ' ' < c)
    (rest : List Char) : ∃ rest', cleaned (cs ++ rest) = cs ++ rest' ∧
      (rest = [] → rest' = []) := by
  have hstart : (cs ++ rest).dropWhile (· ≤ ' ') = cs ++ rest := by
    obtain ⟨c,cs',rfl⟩ := List.exists_cons_of_ne_nil hne
    have hc := hcs c (List.mem_cons_self ..)
    exact List.dropWhile_cons_of_neg (by simpa using hc)
  have hend : (rest.reverse ++ cs.reverse).dropWhile (· ≤ ' ') =
      rest.reverse.dropWhile (· ≤ ' ') ++ cs.reverse := by
    rw [List.dropWhile_append]
    split
    next he =>
      obtain ⟨c,cs',hc⟩ := List.exists_cons_of_ne_nil (List.reverse_ne_nil_iff.mpr hne)
      have hmem := hcs c (List.mem_reverse.mp (hc ▸ List.mem_cons_self ..))
      rw [List.isEmpty_iff.mp he, hc, List.dropWhile_cons_of_neg (by simpa using hmem)]
      rfl
    next => rfl
  have hfilter : cs.filter (fun c => !(c = '\t' || c = '\n' || c = '\r')) = cs := by
    refine List.filter_eq_self.mpr fun c hc => ?_
    have hlt := hcs c hc
    have apart (d : Char) (hd : ¬ ' ' < d) : c ≠ d := fun h => hd (h ▸ hlt)
    simp [apart '\t' (by decide), apart '\n' (by decide), apart '\r' (by decide)]
  rw [cleaned, hstart, List.reverse_append, hend, List.reverse_append, List.reverse_reverse,
    List.filter_append, hfilter]
  refine ⟨_,rfl,?_⟩
  rintro rfl
  rfl

/-- Where there are no blanks and no controls, nothing is skipped. -/
theorem cleaned_eq_self {cs : List Char} (h : ∀ c ∈ cs, ' ' < c) : cleaned cs = cs := by
  by_cases hne : cs = []
  · rw [hne]
    rfl
  · obtain ⟨rest,hrest,hnil⟩ := cleaned_append hne h []
    rwa [hnil rfl, List.append_nil] at hrest

/-- The scheme is what stands before the first colon. -/
theorem scheme?_append (hs : ∀ c ∈ scheme, isSchemeChar c) (hhead : scheme.head?.any Char.isAlpha)
    (rest : List Char) :
    scheme? (scheme ++ ':' :: rest) = some (scheme.map Char.toLower, rest) := by
  obtain ⟨htake,hdrop⟩ := (Text.takeWhile_drop_iff isSchemeChar ':' (by decide)
    (scheme ++ ':' :: rest) scheme rest).mpr ⟨rfl,hs⟩
  have hfirst : (scheme ++ ':' :: rest).head?.any Char.isAlpha := by
    cases scheme with
    | nil => cases hhead
    | cons c scheme => exact hhead
  unfold scheme?
  simp only [htake, hdrop, hfirst, if_true]

/-- What is written before the first colon, if it is made of letters, is the scheme. -/
theorem scheme?_written {name : String} (hne : name.toList ≠ [])
    (hname : ∀ c ∈ name.toList, c.isAlpha ∧ c.toLower = c ∧ ' ' < c)
    (h : (name ++ "://").toList <+: text.toList) :
    ∃ rest, scheme? (cleaned text.toList) = some (name.toList, rest) := by
  obtain ⟨rest,ht⟩ := h
  have hclean : ∀ c ∈ (name ++ "://").toList, ' ' < c := by
    intro c hc
    rw [String.toList_append, List.mem_append] at hc
    rcases hc with hc | hc
    · exact (hname c hc).2.2
    · revert c
      simp
  obtain ⟨rest',hrest,-⟩ := cleaned_append (by simp [hne]) hclean rest
  have hcs : cleaned text.toList = name.toList ++ ':' :: ('/' :: '/' :: rest') := by
    rw [← ht, hrest, String.toList_append, List.append_assoc]
    rfl
  have hscheme : ∀ c ∈ name.toList, isSchemeChar c := fun c hc => by
    simp [isSchemeChar, Char.isAlphanum, (hname c hc).1]
  have hhead : name.toList.head?.any Char.isAlpha := by
    obtain ⟨c,cs,hc⟩ := List.exists_cons_of_ne_nil hne
    rw [hc]
    exact (hname c (hc ▸ List.mem_cons_self ..)).1
  have hlower : name.toList.map Char.toLower = name.toList :=
    (List.map_congr_left fun c hc => (hname c hc).2.1).trans (List.map_id _)
  exact ⟨_,by rw [hcs, scheme?_append hscheme hhead, hlower]⟩

/-- No URL starts with a dash. -/
theorem parse_of_dash (h : text.toList.head? = some '-') : parse text = .error .noScheme := by
  obtain ⟨rest,ht⟩ := List.head?_eq_some_iff.mp h
  have hdash : ∀ c ∈ ['-'], ' ' < c := List.forall_mem_singleton.mpr (by decide)
  obtain ⟨rest',hc,-⟩ := cleaned_append (by simp) hdash rest
  have hscheme : scheme? (cleaned text.toList) = none := by
    rw [ht, ← List.singleton_append, hc, List.singleton_append]
    unfold scheme?
    dsimp only
    split
    · rw [if_neg (by simp)]
    · rfl
  rw [parse, hscheme]

end Url

namespace Location
variable {text scheme : String} {l : Location}

/-- The text is a URL that names a host, to be reached in a way. -/
def IsUrl (text scheme : String) : Prop :=
  "://".toList <:+: text.toList ∧ ∃ url host, Url.parse text = .ok url ∧ url.scheme = scheme ∧
    url.host = some host ∧ host.text ≠ ""

/-- The text is in the short form: it can be split, and the preferred split has no port or one that
is not too large. -/
def IsShort (text : String) : Prop :=
  ¬ "://".toList <:+: text.toList ∧ ∃ f : ShortForm, f.Preferred text.toList ∧
    ∀ digits, f.port = some digits → ShortForm.value digits ≤ 65535

/-- The text names a location on another host, to be reached in a way. -/
def IsRemoteBy (text scheme : String) : Prop :=
  ∃ l, parse text = .ok l ∧ l.isRemote ∧ l.scheme = scheme

theorem isRemote_iff : l.isRemote ↔ l.scheme ≠ "" ∧ l.host ≠ "" := by simp [isRemote]

/-- A URL of a known scheme names a location by its scheme and its host. -/
theorem ofUrl_of_known {url : Url} (hp : Url.parse text = .ok url)
    (hk : url.scheme ∈ knownSchemes) : ∃ l, ofUrl text = .ok l ∧ l.scheme = url.scheme ∧
      l.host = (url.host.map Url.Host.text).getD "" := by
  rw [ofUrl, hp]
  dsimp only
  rw [if_pos (by simpa using hk)]
  exact ⟨_,rfl,rfl,by cases url.host <;> rfl⟩

theorem exists_of_ofUrl (h : ofUrl text = .ok l) :
    ∃ url, Url.parse text = .ok url ∧ url.scheme ∈ knownSchemes := by
  unfold ofUrl at h
  split at h
  · cases h
  next url hp =>
    split at h
    next hk => exact ⟨url,hp,by simpa using hk⟩
    next => cases h

theorem ofUrl_remote : (∃ l, ofUrl text = .ok l ∧ l.isRemote ∧ l.scheme = scheme) ↔
    scheme ∈ knownSchemes ∧ ∃ url host, Url.parse text = .ok url ∧ url.scheme = scheme ∧
      url.host = some host ∧ host.text ≠ "" := by
  constructor
  · rintro ⟨l,hl,hremote,rfl⟩
    obtain ⟨url,hp,hk⟩ := exists_of_ofUrl hl
    obtain ⟨l',hl',hscheme,hhost⟩ := ofUrl_of_known hp hk
    obtain rfl := Except.ok.inj (hl.symm.trans hl')
    rw [isRemote_iff, hhost] at hremote
    refine ⟨hscheme ▸ hk,url,?_⟩
    rcases hh : url.host with - | host <;> rw [hh] at hremote
    · exact absurd rfl hremote.2
    · exact ⟨host,hp,hscheme.symm,rfl,hremote.2⟩
  · rintro ⟨hk,url,host,hp,rfl,hh,hne⟩
    obtain ⟨l,hl,hscheme,hhost⟩ := ofUrl_of_known hp hk
    rw [hh] at hhost
    refine ⟨l,hl,isRemote_iff.mpr ⟨?_,hhost ▸ hne⟩,hscheme⟩
    rw [hscheme]
    rintro hempty
    rw [hempty] at hk
    exact absurd hk (by decide)

/-- A short form names a location over SSH, unless its port is too large. -/
theorem location?_eq {f : ShortForm} :
    f.location? = none ∧ (∃ digits, f.port = some digits ∧ 65535 < ShortForm.value digits) ∨
      ∃ l, f.location? = some l ∧ l.scheme = "ssh" ∧ l.host = String.ofList f.host ∧
        ∀ digits, f.port = some digits → ShortForm.value digits ≤ 65535 := by
  unfold ShortForm.location?
  rcases f.port with - | digits
  · exact .inr ⟨_,rfl,rfl,rfl,nofun⟩
  · dsimp only
    split
    next hlt =>
      refine .inr ⟨_,rfl,rfl,rfl,fun digits' h => ?_⟩
      rw [← Option.some.inj h]
      exact Nat.le_of_lt_succ hlt
    next hlt => exact .inl ⟨rfl,digits,rfl,Nat.lt_of_succ_le (Nat.le_of_not_lt hlt)⟩

/-- What is no URL names a location on another host only in the short form. -/
theorem short_remote {l : Location}
    (hl : ((ShortForm.parse? text.toList).bind ShortForm.location?).getD (ofPath text) = l) :
    l.isRemote ∧ l.scheme = scheme ↔ scheme = "ssh" ∧ ∃ f : ShortForm, f.Preferred text.toList ∧
      ∀ digits, f.port = some digits → ShortForm.value digits ≤ 65535 := by
  have hpath : ¬ (ofPath text).isRemote := by simp [isRemote, ofPath]
  rcases hp : ShortForm.parse? text.toList with - | f
  · rw [hp] at hl
    obtain rfl : ofPath text = l := hl
    refine ⟨fun h => absurd h.1 hpath,fun ⟨_,f,hf,_⟩ => ?_⟩
    cases hp.symm.trans (ShortForm.parse?_eq_some.mpr hf)
  rw [hp] at hl
  have hf := ShortForm.parse?_eq_some.mp hp
  have huniq (g : ShortForm) (hg : g.Preferred text.toList) : g = f :=
    Option.some.inj ((ShortForm.parse?_eq_some.mpr hg).symm.trans hp)
  rcases location?_eq (f := f) with ⟨hloc,digits,hd,hlarge⟩ | ⟨l',hloc,hscheme,hhost,hsmall⟩
  · rw [Option.bind_some, hloc] at hl
    obtain rfl : ofPath text = l := hl
    refine ⟨fun h => absurd h.1 hpath,fun ⟨_,g,hg,hsmall⟩ => ?_⟩
    have hle := hsmall digits (by rw [huniq g hg]; exact hd)
    exact absurd hlarge (Nat.not_lt.mpr hle)
  · rw [Option.bind_some, hloc] at hl
    obtain rfl : l' = l := hl
    have hne : l'.host ≠ "" := by
      rw [hhost]
      intro he
      have hnil := congrArg String.toList he
      rw [String.toList_ofList] at hnil
      exact hf.splits.host.1 hnil
    refine ⟨fun h => ⟨h.2.symm.trans hscheme,f,hf,hsmall⟩,fun ⟨h,_⟩ => ⟨?_,hscheme.trans h.symm⟩⟩
    exact isRemote_iff.mpr ⟨by rw [hscheme]; decide,hne⟩

theorem isRemoteBy_iff :
    IsRemoteBy text scheme ↔ scheme ∈ knownSchemes ∧ IsUrl text scheme ∨
      scheme = "ssh" ∧ IsShort text := by
  unfold IsRemoteBy IsUrl IsShort parse
  by_cases hmark : "://".toList <:+: text.toList
  · simp only [if_pos ((Text.contains_iff _ _).mpr hmark), hmark, true_and, not_true_eq_false,
      false_and, and_false, or_false]
    exact ofUrl_remote
  · simp only [if_neg (mt (Text.contains_iff _ _).mp hmark), hmark, false_and, and_false, false_or,
      not_false_eq_true, true_and]
    rw [← short_remote rfl]
    constructor
    · rintro ⟨l,hl,h⟩
      rwa [Except.ok.inj hl]
    · exact fun h => ⟨_,rfl,h⟩

/-- What checking a text comes to: the only errors are these three. -/
theorem validate_cases (text : String) :
    text = "" ∧ validate text = .error .empty ∨
      text ≠ "" ∧ (∀ scheme, ¬ IsRemoteBy text scheme) ∧ validate text = .error (.invalid text) ∨
      ∃ scheme, IsRemoteBy text scheme ∧ (∀ other, IsRemoteBy text other → other = scheme) ∧
        validate text = if scheme ∈ acceptedSchemes then .ok () else
          .error (.unsupportedTransport text scheme) := by
  unfold validate
  by_cases hempty : text = ""
  · exact .inl ⟨hempty,if_pos hempty⟩
  rw [if_neg hempty]
  rcases hp : parse text with e | l
  · refine .inr (.inl ⟨hempty,fun scheme ⟨l,hl,_⟩ => ?_,rfl⟩)
    cases hp.symm.trans hl
  by_cases hr : l.isRemote
  · refine .inr (.inr ⟨l.scheme,⟨l,hp,hr,rfl⟩,fun other ⟨l',hl',_,ho⟩ => ?_,?_⟩)
    · rw [← ho, Except.ok.inj (hp.symm.trans hl')]
    · simp [hr, isAccepted]
  · refine .inr (.inl ⟨hempty,fun scheme ⟨l',hl',hr',_⟩ => ?_,?_⟩)
    · rw [Except.ok.inj (hp.symm.trans hl')] at hr
      exact hr hr'
    · simp [hr]

theorem not_isRemoteBy_empty : ¬ IsRemoteBy "" scheme := by
  rintro ⟨l,hl,hr,-⟩
  have hempty : parse "" = .ok (ofPath "") := by rfl
  rw [← Except.ok.inj (hempty.symm.trans hl)] at hr
  exact absurd hr (by decide)

theorem validate_eq_ok :
    validate text = .ok () ↔ ∃ scheme ∈ acceptedSchemes, IsRemoteBy text scheme := by
  rcases validate_cases text with ⟨rfl,h⟩ | ⟨-,hno,h⟩ | ⟨scheme,hs,huniq,h⟩ <;> rw [h]
  · exact ⟨nofun,fun ⟨_,_,hr⟩ => absurd hr not_isRemoteBy_empty⟩
  · exact ⟨nofun,fun ⟨scheme,_,hr⟩ => absurd hr (hno scheme)⟩
  · split
    next ha => exact ⟨fun _ => ⟨scheme,ha,hs⟩,fun _ => rfl⟩
    next ha => exact ⟨nofun,fun ⟨other,ho,hr⟩ => absurd (huniq other hr ▸ ho) ha⟩

theorem validate_eq_unsupported {t : String} :
    validate text = .error (.unsupportedTransport t scheme) ↔
      t = text ∧ scheme ∉ acceptedSchemes ∧ IsRemoteBy text scheme := by
  rcases validate_cases text with ⟨rfl,h⟩ | ⟨-,hno,h⟩ | ⟨scheme',hs,huniq,h⟩ <;> rw [h]
  · exact ⟨nofun,fun ⟨_,_,hr⟩ => absurd hr not_isRemoteBy_empty⟩
  · exact ⟨nofun,fun ⟨_,_,hr⟩ => absurd hr (hno scheme)⟩
  · split
    next ha => exact ⟨nofun,fun ⟨_,hn,hr⟩ => absurd (huniq scheme hr ▸ ha) hn⟩
    next ha =>
      constructor
      · intro he
        obtain ⟨rfl,rfl⟩ := LocationError.unsupportedTransport.inj (Except.error.inj he)
        exact ⟨rfl,ha,hs⟩
      · rintro ⟨rfl,-,hr⟩
        rw [huniq scheme hr]

theorem isRemoteText_iff : isRemoteText text ↔ ∃ scheme, IsRemoteBy text scheme := by
  unfold isRemoteText IsRemoteBy
  rcases parse text with e | l
  · simp
  · simp

def refusedSchemes : List String := ["git+ssh", "http", "https", "ftp", "ftps", "rsync", "file"]

structure Classified (text : String) : Prop where
  empty : validate text = .error .empty ↔ text = ""
  accepted : validate text = .ok () ↔ IsUrl text "ssh" ∨ IsUrl text "git" ∨ IsShort text
  unsupported : ∀ t scheme, validate text = .error (.unsupportedTransport t scheme) ↔
    t = text ∧ scheme ∈ refusedSchemes ∧ IsUrl text scheme
  invalid : ∀ t, validate text = .error (.invalid t) ↔ t = text ∧ text ≠ "" ∧
    ¬ (IsUrl text "ssh" ∨ IsUrl text "git" ∨ IsShort text) ∧
      ∀ scheme ∈ refusedSchemes, ¬ IsUrl text scheme
  answers : validate text = .ok () ∨ validate text = .error .empty ∨
    validate text = .error (.invalid text) ∨
      ∃ scheme, validate text = .error (.unsupportedTransport text scheme)
  remote : isRemoteText text ↔ validate text = .ok () ∨
    ∃ t scheme, validate text = .error (.unsupportedTransport t scheme)
  unreadable : ∀ e, parse text = .error e →
    "://".toList <:+: text.toList ∧ ∃ reason, e = .unreadable text reason
  -- a URL of the web is never accepted, whether told by its scheme or by how it is written
  web : ∀ scheme ∈ ["http", "https"],
    ("://".toList <:+: text.toList ∧ ∃ url, Url.parse text = .ok url ∧ url.scheme = scheme) ∨
      (scheme ++ "://").toList <+: text.toList → validate text ≠ .ok ()

theorem accepted_iff :
    validate text = .ok () ↔ IsUrl text "ssh" ∨ IsUrl text "git" ∨ IsShort text := by
  rw [validate_eq_ok]
  simp only [isRemoteBy_iff]
  constructor
  · rintro ⟨scheme,ha,⟨-,hu⟩ | ⟨-,hs⟩⟩
    · have hscheme : scheme = "ssh" ∨ scheme = "git" := by simpa [acceptedSchemes] using ha
      rcases hscheme with rfl | rfl
      · exact .inl hu
      · exact .inr (.inl hu)
    · exact .inr (.inr hs)
  · rintro (hu | hu | hs)
    · exact ⟨"ssh",by decide,.inl ⟨by decide,hu⟩⟩
    · exact ⟨"git",by decide,.inl ⟨by decide,hu⟩⟩
    · exact ⟨"ssh",by decide,.inr ⟨rfl,hs⟩⟩

/-- A text that starts with a dash is accepted only in the short form. -/
theorem isShort_of_dash (h : validate text = .ok ()) (hd : text.toList.head? = some '-') :
    IsShort text := by
  have hno (scheme : String) : ¬ IsUrl text scheme := by
    rintro ⟨-,url,_,hp,-⟩
    cases hp.symm.trans (Url.parse_of_dash hd)
  rcases accepted_iff.mp h with hu | hu | hs
  · exact absurd hu (hno _)
  · exact absurd hu (hno _)
  · exact hs

theorem mem_refusedSchemes :
    scheme ∈ refusedSchemes ↔ scheme ∉ acceptedSchemes ∧ scheme ∈ knownSchemes := by
  simp only [refusedSchemes, acceptedSchemes, knownSchemes, List.mem_cons, List.not_mem_nil,
    or_false]
  constructor
  · rintro (rfl | rfl | rfl | rfl | rfl | rfl | rfl) <;> decide
  · rintro ⟨ha,hk⟩
    rcases hk with rfl | rfl | h
    · exact absurd (.inl rfl) ha
    · exact absurd (.inr rfl) ha
    · exact h

theorem unsupported_iff {t : String} :
    validate text = .error (.unsupportedTransport t scheme) ↔
      t = text ∧ scheme ∈ refusedSchemes ∧ IsUrl text scheme := by
  rw [validate_eq_unsupported, isRemoteBy_iff, mem_refusedSchemes]
  constructor
  · rintro ⟨rfl,ha,⟨hk,hu⟩ | ⟨rfl,-⟩⟩
    · exact ⟨rfl,⟨ha,hk⟩,hu⟩
    · exact absurd (by decide) ha
  · rintro ⟨rfl,⟨ha,hk⟩,hu⟩
    exact ⟨rfl,ha,.inl ⟨hk,hu⟩⟩

/-- A text with `://` is accepted only for the scheme of its URL. -/
theorem scheme_of_accepted (h : validate text = .ok ()) (hmark : "://".toList <:+: text.toList) :
    ∃ url, Url.parse text = .ok url ∧ url.scheme ∈ acceptedSchemes := by
  rcases accepted_iff.mp h with ⟨-,url,_,hp,hs,-⟩ | ⟨-,url,_,hp,hs,-⟩ | ⟨hn,-⟩
  · exact ⟨url,hp,by rw [hs]; decide⟩
  · exact ⟨url,hp,by rw [hs]; decide⟩
  · exact absurd hmark hn

theorem not_accepted_of_scheme (hs : scheme ∉ acceptedSchemes) {url : Url}
    (hmark : "://".toList <:+: text.toList) (hp : Url.parse text = .ok url)
    (hu : url.scheme = scheme) : validate text ≠ .ok () := by
  intro h
  obtain ⟨url',hp',ha⟩ := scheme_of_accepted h hmark
  rw [← Except.ok.inj (hp.symm.trans hp'), hu] at ha
  exact hs ha

/-- A text that starts with letters and `://` is accepted only if they are an accepted scheme. -/
theorem not_accepted_of_written (hs : scheme ∉ acceptedSchemes) (hne : scheme.toList ≠ [])
    (hletters : ∀ c ∈ scheme.toList, c.isAlpha ∧ c.toLower = c ∧ ' ' < c)
    (h : (scheme ++ "://").toList <+: text.toList) : validate text ≠ .ok () := by
  intro hok
  have hmark : "://".toList <:+: text.toList := by
    rw [String.toList_append] at h
    exact (List.suffix_append _ _).isInfix.trans h.isInfix
  obtain ⟨url,hp,ha⟩ := scheme_of_accepted hok hmark
  obtain ⟨rest,hscheme⟩ := Url.scheme?_written hne hletters h
  rw [Url.scheme_of_parse hscheme hp, String.ofList_toList] at ha
  exact hs ha

theorem empty_iff : validate text = .error .empty ↔ text = "" := by
  rcases validate_cases text with ⟨ht,h⟩ | ⟨ht,-,h⟩ | ⟨scheme,hs,-,h⟩ <;> rw [h]
  · exact ⟨fun _ => ht,fun _ => rfl⟩
  · exact ⟨nofun,fun he => absurd he ht⟩
  · refine ⟨fun he => ?_,fun he => absurd (he ▸ hs) not_isRemoteBy_empty⟩
    split at he <;> cases he

theorem invalid_iff {t : String} : validate text = .error (.invalid t) ↔
    t = text ∧ text ≠ "" ∧ ¬ (IsUrl text "ssh" ∨ IsUrl text "git" ∨ IsShort text) ∧
      ∀ scheme ∈ refusedSchemes, ¬ IsUrl text scheme := by
  have hno : (¬ (IsUrl text "ssh" ∨ IsUrl text "git" ∨ IsShort text) ∧
      ∀ scheme ∈ refusedSchemes, ¬ IsUrl text scheme) ↔ validate text ≠ .ok () ∧
        ∀ scheme, validate text ≠ .error (.unsupportedTransport text scheme) := by
    rw [Ne, accepted_iff]
    simp only [Ne, unsupported_iff, true_and, not_and]
  rw [hno]
  rcases validate_cases text with ⟨rfl,h⟩ | ⟨ht,-,h⟩ | ⟨scheme,-,-,h⟩ <;> rw [h]
  · simp
  · constructor
    · intro he
      exact ⟨(LocationError.invalid.inj (Except.error.inj he)).symm,ht,nofun,nofun⟩
    · rintro ⟨rfl,-⟩
      rfl
  · split
    · simp
    · simp

theorem validate_answers (text : String) :
    validate text = .ok () ∨ validate text = .error .empty ∨
      validate text = .error (.invalid text) ∨
        ∃ scheme, validate text = .error (.unsupportedTransport text scheme) := by
  rcases validate_cases text with ⟨-,h⟩ | ⟨-,-,h⟩ | ⟨scheme,-,-,h⟩ <;> rw [h]
  · exact .inr (.inl rfl)
  · exact .inr (.inr (.inl rfl))
  · split
    · exact .inl rfl
    · exact .inr (.inr (.inr ⟨scheme,rfl⟩))

theorem isRemoteText_iff_validate : isRemoteText text ↔ validate text = .ok () ∨
    ∃ t scheme, validate text = .error (.unsupportedTransport t scheme) := by
  rw [isRemoteText_iff, validate_eq_ok]
  simp only [validate_eq_unsupported]
  constructor
  · rintro ⟨scheme,hr⟩
    by_cases ha : scheme ∈ acceptedSchemes
    · exact .inl ⟨scheme,ha,hr⟩
    · exact .inr ⟨text,scheme,rfl,ha,hr⟩
  · rintro (⟨scheme,-,hr⟩ | ⟨-,scheme,-,-,hr⟩)
    · exact ⟨scheme,hr⟩
    · exact ⟨scheme,hr⟩

/-- Only a text with `://` can fail to be read. -/
theorem unreadable_of_parse {e : LocationError} (h : parse text = .error e) :
    "://".toList <:+: text.toList ∧ ∃ reason, e = .unreadable text reason := by
  unfold parse at h
  split at h
  next hmark =>
    refine ⟨(Text.contains_iff _ _).mp hmark,?_⟩
    unfold ofUrl at h
    repeat' split at h
    all_goals cases h
    all_goals exact ⟨_,rfl⟩
  next => cases h

theorem not_accepted_of_web (hweb : scheme ∈ ["http", "https"])
    (h : ("://".toList <:+: text.toList ∧ ∃ url, Url.parse text = .ok url ∧ url.scheme = scheme) ∨
      (scheme ++ "://").toList <+: text.toList) : validate text ≠ .ok () := by
  have hname : scheme = "http" ∨ scheme = "https" := by simpa using hweb
  have hs : scheme ∉ acceptedSchemes := by rcases hname with rfl | rfl <;> decide
  rcases h with ⟨hmark,url,hp,hu⟩ | h
  · exact not_accepted_of_scheme hs hmark hp hu
  · refine not_accepted_of_written hs ?_ ?_ h
    · rcases hname with rfl | rfl <;> decide
    · rcases hname with rfl | rfl <;> simp

/-- Every text is classified by what it is. -/
theorem classified (text : String) : Classified text where
  empty := empty_iff
  accepted := accepted_iff
  unsupported _ _ := unsupported_iff
  invalid _ := invalid_iff
  answers := validate_answers text
  remote := isRemoteText_iff_validate
  unreadable _ := unreadable_of_parse
  web _ := not_accepted_of_web

end Location
end GitPublish
