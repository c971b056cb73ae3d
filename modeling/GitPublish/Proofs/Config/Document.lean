import GitPublish.Config.Document
import GitPublish.Proofs.Config.Settings
import GitPublish.Proofs.Toml.Document

/-!
# Configurations are read back

A configuration that satisfies the rules is read back from the document it is printed as. Changing
settings and reading documents lead from the default to such configurations only.
-/
namespace GitPublish.Config
variable {before entries : Toml.Entries} {table name : String}

/-- The entry for a setting with a text; there is none if it is missing. -/
def textEntry (name : String) (value : Option String) : Toml.Entries :=
  (value.map fun text => (name,Toml.Value.string text)).toList

theorem lookup_textEntry (name key : String) (value : Option String) :
    (textEntry name value).lookup key =
      if key = name then value.map Toml.Value.string else none := by
  cases value with
  | none => simp [textEntry]
  | some text =>
    by_cases h : key = name
    · simp [textEntry, h]
    · have hb : (key == name) = false := beq_false_of_ne h
      simp [textEntry, List.lookup_cons, hb, h]

theorem reads_textLine (hname : Toml.IsBareKey name) (hb : before.lookup table = none)
    (he : entries.lookup name = none) (value : Option String) :
    Toml.Reads (.atTable before table entries) (textLine name value)
      (.atTable before table (entries ++ textEntry name value)) := by
  cases value with
  | none =>
    rw [textEntry, Option.map_none, Option.toList_none, List.append_nil]
    exact Toml.reads_empty _
  | some text => exact Toml.reads_pair hname (Toml.readsValue_quote text) hb he

def gitEntries (c : Config) : Toml.Entries :=
  textEntry "private_ssh_key_path" (c.privateKey.map Path.text) ++
    textEntry "clone_prefix" (some c.stem) ++ textEntry "branch" c.branch ++
    [("bootstrap",.boolean c.bootstrap)]

def userEntries (c : Config) : Toml.Entries :=
  textEntry "name" c.name ++ textEntry "email" c.email

def gitText (c : Config) : String :=
  "[" ++ "git" ++ "]\n" ++ textLine "private_ssh_key_path" (c.privateKey.map Path.text) ++
    textLine "clone_prefix" (some c.stem) ++ textLine "branch" c.branch ++
    ("bootstrap" ++ " = " ++ (if c.bootstrap then "true" else "false") ++ "\n")

def userText (c : Config) : String :=
  "[" ++ "user" ++ "]\n" ++ textLine "name" c.name ++ textLine "email" c.email

theorem print_eq (c : Config) : c.print = c.gitText ++ ("\n" ++ c.userText) := by
  have hgit : "[git]\n" = "[" ++ "git" ++ "]\n" := by decide
  have hbootstrap : "bootstrap = " = "bootstrap" ++ " = " := by decide
  have huser : "\n[user]\n" = "\n" ++ ("[" ++ "user" ++ "]\n") := by decide
  delta print gitText userText
  simp only [hgit, hbootstrap, huser, String.append_assoc]

theorem reads_gitText (c : Config) :
    Toml.Reads ⟨[],[]⟩ c.gitText (.atTable [] "git" c.gitEntries) := by
  refine .append (.append (.append (.append (Toml.reads_header ?_ rfl [])
    (reads_textLine ?_ rfl rfl _)) (reads_textLine ?_ rfl ?_ _)) (reads_textLine ?_ rfl ?_ _))
    (Toml.reads_pair ?_ (Toml.readsValue_boolean c.bootstrap) rfl ?_)
  all_goals first | decide | simp [lookup_textEntry, List.lookup_append]

theorem reads_userText (c : Config) (hb : before.lookup "user" = none) (opened : List String) :
    Toml.Reads ⟨before,opened⟩ c.userText (.atTable before "user" c.userEntries) := by
  refine .append (.append (Toml.reads_header ?_ hb opened) (reads_textLine ?_ hb rfl _))
    (reads_textLine ?_ hb ?_ _)
  all_goals first | decide | simp [lookup_textEntry]

/-- A printed configuration is read as its two sections. -/
theorem read?_print (c : Config) : Toml.read? c.print =
    some [("git",.table .header c.gitEntries), ("user",.table .header c.userEntries)] := by
  have h := (reads_gitText c).append ((Toml.reads_line_end _).append (reads_userText c rfl ["git"]))
  rw [← print_eq] at h
  have hhead : ∃ rest, c.print = "[" ++ rest :=
    ⟨_,by rw [print_eq]; delta gitText; simp only [String.append_assoc]; rfl⟩
  obtain ⟨rest,hrest⟩ := hhead
  refine h.read? ?_
  rw [hrest, String.toList_append]
  exact (by decide : '[' ≠ '\ufeff') ∘ Option.some.inj

theorem ofEntries?_sections (c : Config) : ofEntries? [("git",.table .header c.gitEntries),
    ("user",.table .header c.userEntries)] = some c := by
  obtain ⟨privateKey,stem,branch,bootstrap,name,email⟩ := c
  cases privateKey <;> cases branch <;> cases name <;> cases email <;> rfl

theorem check_eq_ok {c c' : Config} : c.check = .ok c' ↔ c.isValid ∧ c' = c := by
  unfold check isValid
  cases isStem c.stem with
  | false => simp
  | true =>
    cases c.email with
    | none => simp [eq_comm]
    | some email => cases h : isEmail email <;> simp [h, eq_comm]

theorem parse_print {c : Config} (h : c.isValid) : parse c.print = .ok c := by
  rw [parse, read?_print, Option.bind_some, ofEntries?_sections]
  exact check_eq_ok.mpr ⟨h,rfl⟩

/-! ## Histories -/

inductive Edit where
  -- a document is read; what it says takes the place of everything
  | parse (text : String)
  | set (key value : String)

/-- The configuration after a step. A step that fails leaves it as it was. -/
def Edit.apply (c : Config) : Edit → Config
  | parse text => (Config.parse text).toOption.getD c
  | set key value => (c.set key value).toOption.getD c

theorem isValid_of_parse {text : String} {c : Config} (h : parse text = .ok c) : c.isValid := by
  unfold parse at h
  split at h
  next c' _ =>
    obtain ⟨hvalid,rfl⟩ := check_eq_ok.mp h
    exact hvalid
  next => cases h

theorem isValid_of_set {c c' : Config} {key value : String} (hc : c.isValid)
    (h : c.set key value = .ok c') : c'.isValid := by
  obtain ⟨s,-,hv,rfl⟩ := set_eq_ok.mp h
  exact isValid_put hc hv

theorem Edit.isValid_apply {c : Config} (hc : c.isValid) (e : Edit) : (e.apply c).isValid := by
  cases e with
  | parse text =>
    rw [apply]
    cases h : Config.parse text with
    | error => exact hc
    | ok c' => exact isValid_of_parse h
  | set key value =>
    rw [apply]
    cases h : c.set key value with
    | error => exact hc
    | ok c' => exact isValid_of_set hc h

/-- Whatever is done to the default, the rules hold. -/
theorem isValid_of_edits (edits : List Edit) : (edits.foldl Edit.apply {}).isValid := by
  have hall (c : Config) (hc : c.isValid) : (edits.foldl Edit.apply c).isValid := by
    induction edits generalizing c with
    | nil => exact hc
    | cons e edits ih => exact ih _ (e.isValid_apply hc)
  exact hall {} (by decide)

end GitPublish.Config
