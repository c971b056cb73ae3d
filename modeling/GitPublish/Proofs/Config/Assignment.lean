import GitPublish.Proofs.Config.Document
import GitPublish.Proofs.Config.Store

/-!
# What is written and what is set

Values for settings can be written into a document, or they can be set one by one. The document may
have its entries in any order and may hold more, and the settings may come in any order. Both ways
accept the same values and lead to the same configuration.
-/
namespace GitPublish

/-- Values for some of the settings, each of the kind that its setting takes. -/
structure Assignment where
  privateKey : Option String := none
  stem : Option String := none
  branch : Option String := none
  bootstrap : Option Bool := none
  name : Option String := none
  email : Option String := none

namespace Assignment
variable {a : Assignment} {s : Setting} {key v : String}

/-- The value for a setting as a text; truth values are spelled out. -/
def text? (a : Assignment) : Setting → Option String
  | .privateKey => a.privateKey
  | .stem => a.stem
  | .branch => a.branch
  | .bootstrap => a.bootstrap.map fun b => if b then "true" else "false"
  | .name => a.name
  | .email => a.email

def value? (a : Assignment) : Setting → Option Toml.Value
  | .bootstrap => a.bootstrap.map .boolean
  | s => (a.text? s).map .string

/-- The keys of the settings that have a value, each with it. -/
def pairs (a : Assignment) : List (String × String) :=
  Setting.all.filterMap fun s => (a.text? s).map fun v => (s.key, v)

/-- The configuration with these values, and with the defaults for the rest. -/
def config (a : Assignment) : Config where
  privateKey := a.privateKey.map fun text => ⟨text⟩
  stem := a.stem.getD defaultStem
  branch := a.branch
  bootstrap := a.bootstrap.getD false
  name := a.name
  email := a.email

theorem mem_pairs : (key, v) ∈ a.pairs ↔ ∃ s : Setting, key = s.key ∧ a.text? s = some v := by
  simp only [pairs, List.mem_filterMap, Option.map_eq_some_iff, Prod.mk.injEq]
  constructor
  · rintro ⟨s,-,w,hw,rfl,rfl⟩
    exact ⟨s,rfl,hw⟩
  · rintro ⟨s,rfl,hv⟩
    exact ⟨s,s.mem_all,v,hv,rfl,rfl⟩

theorem nodup_pairs (a : Assignment) : (a.pairs.map Prod.fst).Nodup := by
  have hall : Setting.all.Nodup := by decide
  refine List.Pairwise.map _ (fun _ _ => id) (List.Pairwise.filterMap _ ?_ hall)
  intro s s' hne p hp p' hp' hkey
  obtain ⟨v,-,rfl⟩ := Option.map_eq_some_iff.mp hp
  obtain ⟨v',-,rfl⟩ := Option.map_eq_some_iff.mp hp'
  exact hne (Setting.key_inj hkey)

theorem value_config (a : Assignment) (s : Setting) :
    a.config.value s = (a.text? s).or (({} : Config).value s) := by
  obtain ⟨privateKey,stem,branch,bootstrap,name,email⟩ := a
  cases s with
  | privateKey => cases privateKey <;> rfl
  | stem => cases stem <;> rfl
  | branch => cases branch <;> rfl
  | bootstrap => cases bootstrap <;> rfl
  | name => cases name <;> rfl
  | email => cases email <;> rfl

theorem isValid_config : a.config.isValid ↔ ∀ s v, a.text? s = some v → s.Admits v := by
  rw [Config.isValid_iff]
  constructor
  · rintro ⟨hstem,hemail⟩ s v hv
    cases s with
    | privateKey | branch | name => trivial
    | stem =>
      have hset : a.config.stem = v := congrArg (Option.getD · defaultStem) hv
      exact hset ▸ hstem
    | email => exact hemail v hv
    | bootstrap =>
      obtain ⟨b,-,rfl⟩ := Option.map_eq_some_iff.mp hv
      cases b
      · exact .inr rfl
      · exact .inl rfl
  · intro h
    refine ⟨?_,fun email => h .email email⟩
    have hstem : a.config.stem = a.stem.getD defaultStem := rfl
    rw [hstem]
    cases hs : a.stem with
    | none => decide
    | some v => exact h .stem v hs

end Assignment

/-! ## Setting values one by one -/

namespace Config
variable {c c' : Config} {sets : List (String × String)} {a : Assignment}

def updateAll (sets : List (String × String)) : Update Unit := sets.forM fun p => update p.1 p.2

theorem run_updateAll_cons {p : String × String} : (updateAll (p :: sets)).run c = (.ok (), c') ↔
    ∃ s : Setting, p.1 = s.key ∧ s.Admits p.2 ∧
      (updateAll sets).run (c.put s p.2) = (.ok (), c') := by
  rw [updateAll, List.forM_eq_forM, List.forM_cons]
  constructor
  · intro h
    obtain ⟨_,d,hfirst,hrest⟩ := ok_of_run_bind h
    obtain ⟨s,hkey,hv,rfl⟩ := run_update_ok.mp hfirst
    exact ⟨s,hkey,hv,hrest⟩
  · rintro ⟨s,hkey,hv,h⟩
    rw [run_bind_ok (run_update_ok.mpr ⟨s,hkey,hv,rfl⟩)]
    exact h

theorem run_updateAll_ok : (∃ c', (updateAll sets).run c = (.ok (), c')) ↔
    ∀ p ∈ sets, ∃ s : Setting, p.1 = s.key ∧ s.Admits p.2 := by
  induction sets generalizing c with
  | nil => exact iff_of_true ⟨c,rfl⟩ fun p hp => nomatch hp
  | cons p sets ih =>
    simp only [run_updateAll_cons, List.forall_mem_cons]
    constructor
    · rintro ⟨c',s,hkey,hv,h⟩
      exact ⟨⟨s,hkey,hv⟩,ih.mp ⟨c',h⟩⟩
    · rintro ⟨⟨s,hkey,hv⟩,h⟩
      obtain ⟨c',hrun⟩ := ih.mpr h
      exact ⟨c',s,hkey,hv,hrun⟩

/-- Each value is found where it was put, and the rest is what it was. -/
theorem value_updateAll (hn : (sets.map Prod.fst).Nodup)
    (h : (updateAll sets).run c = (.ok (), c')) (s : Setting) :
    (∀ v, (s.key, v) ∈ sets → c'.value s = some v) ∧
      ((∀ v, (s.key, v) ∉ sets) → c'.value s = c.value s) := by
  induction sets generalizing c with
  | nil =>
    cases h
    exact ⟨fun v hv => (nomatch hv),fun _ => rfl⟩
  | cons p sets ih =>
    obtain ⟨key,w⟩ := p
    rw [List.map_cons, List.nodup_cons] at hn
    obtain ⟨hnew,hn⟩ := hn
    obtain ⟨t,rfl,hw,h⟩ := run_updateAll_cons.mp h
    obtain ⟨hset,hkept⟩ := ih hn h
    rw [value_put hw] at hkept
    by_cases hs : s = t
    · -- what follows does not come back to this setting
      subst hs
      have hlater (v : String) : (s.key, v) ∉ sets := fun hv =>
        hnew (List.mem_map.mpr ⟨_,hv,rfl⟩)
      rw [if_pos rfl] at hkept
      refine ⟨fun v hv => ?_,fun hno => absurd (List.mem_cons_self ..) (hno w)⟩
      rcases List.mem_cons.mp hv with hv | hv
      · rw [hkept hlater, (Prod.mk.inj hv).2]
      · exact absurd hv (hlater v)
    · have hother (v : String) : (s.key, v) ∈ (t.key, w) :: sets ↔ (s.key, v) ∈ sets := by
        simp [mt Setting.key_inj hs]
      rw [if_neg hs] at hkept
      simp only [hother]
      exact ⟨hset,hkept⟩

/-- In whatever order the values of an assignment are set, they are taken if they satisfy the rules,
and lead to the same configuration. -/
theorem run_updateAll (hs : sets.Perm a.pairs) :
    (updateAll sets).run {} = (.ok (), c) ↔ a.config.isValid ∧ c = a.config := by
  have hmem (s : Setting) (v : String) : (s.key, v) ∈ sets ↔ a.text? s = some v := by
    rw [hs.mem_iff, Assignment.mem_pairs]
    refine ⟨?_,fun hv => ⟨s,rfl,hv⟩⟩
    rintro ⟨s',hkey,hv⟩
    rwa [Setting.key_inj hkey]
  have hvalid : a.config.isValid ↔ ∃ c', (updateAll sets).run {} = (.ok (), c') := by
    rw [run_updateAll_ok, Assignment.isValid_config]
    constructor
    · rintro h ⟨key,v⟩ hp
      obtain ⟨s,rfl,hv⟩ := Assignment.mem_pairs.mp (hs.mem_iff.mp hp)
      exact ⟨s,rfl,h s v hv⟩
    · intro h s v hv
      obtain ⟨s',hkey,hv'⟩ := h _ ((hmem s v).mpr hv)
      rwa [Setting.key_inj hkey]
  have heq {c' : Config} (h : (updateAll sets).run {} = (.ok (), c')) : c' = a.config := by
    refine ext_value fun s => ?_
    have hn := ((hs.map Prod.fst).nodup_iff).mpr a.nodup_pairs
    obtain ⟨hset,hkept⟩ := value_updateAll hn h s
    rw [Assignment.value_config]
    cases hv : a.text? s with
    | none => exact hkept fun v hmem' => by cases hv.symm.trans ((hmem s v).mp hmem')
    | some v => exact hset v ((hmem s v).mpr hv)
  constructor
  · exact fun h => ⟨hvalid.mpr ⟨c,h⟩,heq h⟩
  · rintro ⟨h,rfl⟩
    obtain ⟨c',hrun⟩ := hvalid.mp h
    rw [hrun, heq hrun]

/-! ## Documents -/

/-- Looking up a key finds the one value that it is paired with. -/
theorem lookup_eq_of_mem_iff {α : Type} {l : List (String × α)} {key : String} {found : Option α}
    (h : ∀ v, (key, v) ∈ l ↔ found = some v) : l.lookup key = found := by
  cases hl : l.lookup key with
  | some v =>
    obtain ⟨l₁,l₂,hsplit,-⟩ := List.lookup_eq_some_iff.mp hl
    exact ((h v).mp (by simp [hsplit])).symm
  | none =>
    refine (Option.eq_none_iff_forall_ne_some.mpr fun v hv => ?_).symm
    exact absurd (List.lookup_eq_none_iff.mp hl _ ((h v).mpr hv)) (by simp)

theorem entriesInRange_iff {entries : Toml.Entries} :
    Toml.Value.entriesInRange entries ↔ ∀ e ∈ entries, e.2.inRange := by
  induction entries with
  | nil => simp [Toml.Value.entriesInRange]
  | cons e entries ih =>
    obtain ⟨key,v⟩ := e
    rw [Toml.Value.entriesInRange, Bool.and_eq_true, ih, List.forall_mem_cons]

theorem entriesInRange_filter {entries : Toml.Entries} (h : Toml.Value.entriesInRange entries)
    (keep : String × Toml.Value → Bool) : Toml.Value.entriesInRange (entries.filter keep) :=
  entriesInRange_iff.mpr fun e he => entriesInRange_iff.mp h e ((List.mem_filter.mp he).1)

/-- A table holds, of the settings in a section, just those that have a value. -/
def Holds (entries : Toml.Entries) (place : String) (a : Assignment) : Prop :=
  ∀ s : Setting, s.sectionAndName.1 = place →
    ∀ v, (s.sectionAndName.2, v) ∈ entries ↔ a.value? s = some v

section Holds
variable {names : List String} {name place : String} {entries : Toml.Entries}
  (h : Holds entries place a)
include h

/-- The value of a setting is read, whatever else the table holds. -/
theorem read?_given {α : Type} {read : Toml.Value → Option α} {write : α → Toml.Value}
    {given : Option α} (hread : ∀ x, read (write x) = some x) (s : Setting)
    (hs : s.sectionAndName = (place, name)) (hv : a.value? s = given.map write)
    (hname : names.contains name) :
    read? (entries.filter fun e => names.contains e.1) name read = some given := by
  have hlookup : (entries.filter fun e => names.contains e.1).lookup name = given.map write := by
    refine lookup_eq_of_mem_iff fun v => ?_
    have hmem := h s (congrArg Prod.fst hs) v
    rw [congrArg Prod.snd hs, hv] at hmem
    rw [List.mem_filter, hmem]
    exact and_iff_left hname
  rw [read?, hlookup]
  cases given with
  | none => rfl
  | some x => exact congrArg (Option.map some) (hread x)

variable (hr : Toml.Value.entriesInRange entries) (o : Toml.Origin)
include hr

theorem readGit?_table (hplace : place = "git") :
    readGit? {} (.table o entries) = some { a.config with name := none, email := none } := by
  subst hplace
  have htext (x : String) : Toml.Value.text? (.string x) = some x := rfl
  have hboolean (b : Bool) : Toml.Value.boolean? (.boolean b) = some b := rfl
  simp only [readGit?, given?, entriesInRange_filter hr, if_true, Option.bind_eq_bind,
    Option.bind_some]
  rw [read?_given h htext .privateKey rfl rfl, read?_given h htext .stem rfl rfl,
    read?_given h htext .branch rfl rfl, read?_given h hboolean .bootstrap rfl rfl]
  · rfl
  all_goals decide

theorem readUser?_table (hplace : place = "user") :
    readUser? { a.config with name := none, email := none } (.table o entries) =
      some a.config := by
  subst hplace
  have htext (x : String) : Toml.Value.text? (.string x) = some x := rfl
  simp only [readUser?, given?, entriesInRange_filter hr, if_true, Option.bind_eq_bind,
    Option.bind_some]
  rw [read?_given h htext .name rfl rfl, read?_given h htext .email rfl rfl]
  · rfl
  all_goals decide

end Holds

/-- A document gives an assignment its values. Its sections are tables; they hold these values
under their names, and nothing else under a name of a setting. A section without a value may be
missing. -/
structure Gives (doc : Toml.Entries) (a : Assignment) : Prop where
  tables : ∀ place ∈ ["git", "user"], ∀ v, (place, v) ∈ doc →
    ∃ origin entries, v = .table origin entries ∧ Holds entries place a
  present : ∀ s, (a.value? s).isSome → ∃ v, (s.sectionAndName.1, v) ∈ doc

/-- A text is a TOML document: it is read, and every number in it can be represented. A text with
any other number is an error in TOML. -/
def IsDocument (text : String) (doc : Toml.Entries) : Prop :=
  Toml.read? text = some doc ∧ Toml.Value.entriesInRange doc

theorem ofEntries?_eq (doc : Toml.Entries) : ofEntries? doc =
    (match doc.lookup "git" with
      | some v => readGit? {} v
      | none => some {}).bind fun c =>
    (match doc.lookup "user" with
      | some v => readUser? c v
      | none => some c).bind fun c =>
    if Toml.Value.entriesInRange (doc.filter fun e => e.1 ≠ "git" && e.1 ≠ "user") then some c
    else none := by
  unfold ofEntries?
  cases doc.lookup "git" <;> cases doc.lookup "user" <;> rfl

section Gives
variable {doc : Toml.Entries} (h : Gives doc a) (hr : Toml.Value.entriesInRange doc)
include h hr

/-- A section is read as a table that holds its values; one that is missing, as an empty one. -/
theorem Gives.exists_table {place : String} (hplace : place ∈ ["git", "user"]) :
    ∃ origin entries, Holds entries place a ∧ Toml.Value.entriesInRange entries ∧
      (doc.lookup place = some (.table origin entries) ∨
        doc.lookup place = none ∧ entries = []) := by
  cases hl : doc.lookup place with
  | some v =>
    have hmem : (place, v) ∈ doc := by
      obtain ⟨l₁,l₂,hsplit,-⟩ := List.lookup_eq_some_iff.mp hl
      simp [hsplit]
    obtain ⟨origin,entries,rfl,hholds⟩ := h.tables place hplace v hmem
    have hrange := entriesInRange_iff.mp hr _ hmem
    rw [Toml.Value.inRange] at hrange
    exact ⟨origin,entries,hholds,hrange,.inl rfl⟩
  | none =>
    refine ⟨.header,[],?_,rfl,.inr ⟨rfl,rfl⟩⟩
    rintro s rfl v
    refine iff_of_false List.not_mem_nil fun hv => ?_
    obtain ⟨w,hw⟩ := h.present s (by rw [hv]; rfl)
    exact absurd (List.lookup_eq_none_iff.mp hl _ hw) (by simp)

theorem Gives.ofEntries? : ofEntries? doc = some a.config := by
  obtain ⟨o,git,hgit,hgitRange,hgitTable⟩ := h.exists_table hr (List.mem_cons_self ..)
  obtain ⟨o',user,huser,huserRange,huserTable⟩ :=
    h.exists_table hr (List.mem_cons_of_mem _ (List.mem_cons_self ..))
  have hreadGit := readGit?_table hgit hgitRange o rfl
  have hreadUser := readUser?_table huser huserRange o' rfl
  rw [ofEntries?_eq]
  have hfirst : (match doc.lookup "git" with
      | some v => readGit? {} v
      | none => some {}) = some { a.config with name := none, email := none } := by
    rcases hgitTable with ht | ⟨ht,rfl⟩ <;> rw [ht] <;> exact hreadGit
  have hsecond : (match doc.lookup "user" with
      | some v => readUser? { a.config with name := none, email := none } v
      | none => some { a.config with name := none, email := none }) = some a.config := by
    rcases huserTable with ht | ⟨ht,rfl⟩ <;> rw [ht] <;> exact hreadUser
  rw [hfirst, Option.bind_some, hsecond, Option.bind_some, if_pos (entriesInRange_filter hr _)]

end Gives

/-- What is written and what is set agree. -/
theorem parse_assigned {text : String} {doc : Toml.Entries} (hdoc : IsDocument text doc)
    (hgives : Gives doc a) (hsets : sets.Perm a.pairs) (c : Config) :
    parse text = .ok c ↔ (updateAll sets).run {} = (.ok (), c) := by
  rw [run_updateAll hsets, parse, hdoc.1, Option.bind_some, hgives.ofEntries? hdoc.2]
  exact check_eq_ok

/-- A document whose sections stand in another order, with entries that are no settings. -/
def mixedText : String :=
  "size = 7\n[user]\nemail = 'bot@host'\ncolour = 'red'\n[git]\nbootstrap = true\nbranch = 'main'\n"

def mixedEntries : Toml.Entries :=
  [("size",.integer 7),
    ("user",.table .header [("email",.string "bot@host"), ("colour",.string "red")]),
    ("git",.table .header [("bootstrap",.boolean true), ("branch",.string "main")])]

def mixedAssignment : Assignment :=
  { branch := some "main", bootstrap := some true, email := some "bot@host" }

theorem gives_mixed : Gives mixedEntries mixedAssignment where
  tables place hplace v hv := by
    rcases (by simpa [mixedEntries] using hv : _ ∨ _ ∨ _) with h | ⟨rfl,rfl⟩ | ⟨rfl,rfl⟩
    · rw [h.1] at hplace
      exact absurd hplace (by decide)
    all_goals
      refine ⟨_,_,rfl,fun s hs w => ?_⟩
      cases s <;> first
        | exact absurd hs (by decide)
        | simp [Setting.sectionAndName, Assignment.value?, Assignment.text?, mixedAssignment,
            eq_comm]
  present s hs := by
    cases s with
    | privateKey | stem | name => cases hs
    | email => exact ⟨_,List.mem_cons_of_mem _ (List.mem_cons_self ..)⟩
    | branch | bootstrap =>
      exact ⟨_,List.mem_cons_of_mem _ (List.mem_cons_of_mem _ (List.mem_cons_self ..))⟩

theorem parse_assigned_mixed : IsDocument mixedText mixedEntries ∧
    Gives mixedEntries mixedAssignment ∧
    let sets := [("git.bootstrap", "true"), ("user.email", "bot@host"), ("git.branch", "main")]
    sets.Perm mixedAssignment.pairs ∧ (updateAll sets).run {} = (.ok (), mixedAssignment.config) ∧
      parse mixedText = .ok mixedAssignment.config := by
  have hdoc : IsDocument mixedText mixedEntries := ⟨rfl,by decide⟩
  refine ⟨hdoc,gives_mixed,?_⟩
  intro sets
  have hsets : sets.Perm mixedAssignment.pairs := by decide
  have hrun : (updateAll sets).run {} = (.ok (), mixedAssignment.config) := rfl
  exact ⟨hsets,hrun,(parse_assigned hdoc gives_mixed hsets _).mpr hrun⟩

end Config
end GitPublish
