import GitPublish.Proofs.Config.Saving
import GitPublish.Proofs.Config.Settings
import GitPublish.Proofs.Program

/-!
# Work with the configuration

An action shows what the configuration says and changes nothing, or it is refused and changes
nothing, or it makes one attempt to save. All that is shown is what the keys of the settings have.
-/
namespace GitPublish

open CommandLine (ConfigAction)

variable {path : Path} {stored : Option Config} {c : Config} {action : ConfigAction}
  {key v : String}

namespace CommandLine.ConfigAction

/-- The configuration that an action saves if it is not refused. -/
def written (stored : Option Config) : ConfigAction → Option Config
  | init force => if stored.isSome && !force then none else some {}
  | list | get _ => none
  | set key value => ((stored.getD {}).set key value).toOption

/-- What is stored after an action that succeeds. -/
def effect (stored : Option Config) (action : ConfigAction) : Option Config :=
  (action.written stored).or stored

/-- What speaks against an action: that a configuration is stored, or the key and the value that
are given. What the configuration says does not. -/
inductive Refused (stored : Option Config) : ConfigAction → Prop
  | present : stored.isSome → Refused stored (init false)
  | setting {key value : String} {cause : SettingError} :
      ({} : Config).set key value = .error cause → Refused stored (set key value)

theorem Refused.written (h : action.Refused stored) : action.written stored = none := by
  cases h with
  | present h => simp [ConfigAction.written, h]
  | setting h => rw [ConfigAction.written, Config.set_eq_error h, Except.toOption]

/-- An action only reads, or it is refused, or it saves. -/
theorem written_cases (stored : Option Config) (action : ConfigAction) :
    (action = list ∨ ∃ key, action = get key) ∨ action.Refused stored ∨
      ∃ c, action.written stored = some c := by
  cases action with
  | list => exact .inl (.inl rfl)
  | get key => exact .inl (.inr ⟨key,rfl⟩)
  | init force =>
    cases hs : stored.isSome with
    | false => exact .inr (.inr ⟨{},by simp [ConfigAction.written, hs]⟩)
    | true =>
      cases force with
      | false => exact .inr (.inl (.present hs))
      | true => exact .inr (.inr ⟨{},by simp [ConfigAction.written]⟩)
  | set key value =>
    rcases h : (stored.getD {}).set key value with cause | c
    · exact .inr (.inl (.setting (Config.set_eq_error h {})))
    · exact .inr (.inr ⟨c,by rw [ConfigAction.written, h, Except.toOption]⟩)

theorem isValid_of_written (hv : (stored.getD {}).isValid) (h : action.written stored = some c) :
    c.isValid := by
  cases action with
  | init force =>
    rw [ConfigAction.written] at h
    split at h <;> cases h
    decide
  | list | get key => cases h
  | set key value =>
    rw [ConfigAction.written] at h
    rcases hset : (stored.getD {}).set key value with cause | c' <;> rw [hset] at h <;> cases h
    exact Config.isValid_of_set hv hset

end CommandLine.ConfigAction

namespace Job

theorem run_openConfig_ok {s : Running} (h : s.machine.config? = .ok (path, c)) :
    openConfig.run s = (.ok (path, c), s) := by
  rw [run_openConfig, h]
  rfl

/-- The default is written, unless there is a file already and it is not to be replaced. -/
theorem run_config_init {s : Running} (h : s.machine.config? = .ok (path, c)) (force : Bool) :
    (config (.init force)).run s =
      if s.machine.files.isPresent path && !force then (.error (.configExists path), s)
      else (do
        saveConfig path {}
        report (.success ("Wrote default configuration to " ++ path.text)) : Job Unit).run s := by
  rw [config, run_bind_ok (run_openConfig_ok h)]
  dsimp only
  rw [run_bind, run_get]
  dsimp only
  split <;> rfl

section action
variable {s : Running} (hk : Config.Kept s.machine.files path stored)
  (hp : Config.path? s.machine.environment s.machine.account = .ok path)
include hk hp

theorem config?_of_kept : s.machine.config? = .ok (path, stored.getD {}) :=
  Machine.config?_eq_ok.mpr ⟨hp,hk.load⟩

theorem run_openConfig_of_kept : openConfig.run s = (.ok (path, stored.getD {}), s) :=
  run_openConfig_ok (config?_of_kept hk hp)

theorem run_config_list : (config .list).run s =
    (.ok (), { s with reports := s.reports ++ listing (stored.getD {}) }) := by
  rw [config, run_bind_ok (run_openConfig_of_kept hk hp)]
  exact run_reports _ _

theorem run_config_get (key : String) : (config (.get key)).run s =
    (.ok (), { s with reports := s.reports ++ [match (stored.getD {}).get? key with
      | some v => .answer v
      | none => .warning ("Configuration key '" ++ key ++ "' is not set")] }) := by
  rw [config, run_bind_ok (run_openConfig_of_kept hk hp)]
  dsimp only
  cases (stored.getD {}).get? key <;> rfl

theorem run_config_refused (h : action.Refused stored) :
    ∃ failure, (config action).run s = (.error failure, s) := by
  cases h with
  | present h =>
    have hpresent : s.machine.files.isPresent path = true := hk.stores.isPresent.trans h
    refine ⟨.configExists path,?_⟩
    rw [run_config_init (config?_of_kept hk hp), hpresent]
    rfl
  | setting h =>
    rw [config, run_bind_ok (run_openConfig_of_kept hk hp)]
    dsimp only
    rw [run_bind, run_ofResult, Config.set_eq_error h]
    exact ⟨_,rfl⟩

theorem run_config_written (h : action.written stored = some c) : ∃ text,
    (config action).run s = (do saveConfig path c; report (.success text) : Job Unit).run s := by
  cases action with
  | init force =>
    have hpresent := hk.stores.isPresent
    rw [ConfigAction.written] at h
    split at h
    next => cases h
    next hfree =>
    cases h
    refine ⟨"Wrote default configuration to " ++ path.text,?_⟩
    rw [run_config_init (config?_of_kept hk hp), hpresent, if_neg hfree]
  | list | get key => cases h
  | set key value =>
    rw [ConfigAction.written] at h
    rcases hset : (stored.getD {}).set key value with cause | c' <;> rw [hset] at h <;> cases h
    refine ⟨"Set " ++ key ++ " = " ++ value,?_⟩
    rw [config, run_bind_ok (run_openConfig_of_kept hk hp)]
    dsimp only
    rw [run_bind, run_ofResult, hset]
    rfl

end action

inductive Done (m : Machine) (path : Path) (stored : Option Config) (action : ConfigAction) :
    Nat → FileSystem → Prop
  | shown : ¬ action.Refused stored → action.written stored = none →
      Done m path stored action 0 m.files
  | refused : action.Refused stored → Done m path stored action 1 m.files
  | saved {c : Config} {files : FileSystem} : action.written stored = some c →
      m.files.Writable path → Config.Kept files path (some c) →
      Done m path stored action 0 files
  | unsaved {c : Config} {files : FileSystem} : action.written stored = some c →
      ¬ m.files.Writable path → stored = none → Config.Kept files path none →
      Done m path stored action 1 files

theorem done_config {m : Machine} (hk : Config.Kept m.files path stored)
    (hp : Config.path? m.environment m.account = .ok path) (action : ConfigAction) :
    let done := m.perform (config action)
    Done m path stored action done.2.1 done.2.2.machine.files := by
  intro done
  have hdone : done = m.perform (config action) := rfl
  rw [Machine.perform] at hdone
  rcases action.written_cases stored with (rfl | ⟨key,rfl⟩) | hrefused | ⟨c,hc⟩
  · rw [hdone, run_config_list hk hp]
    exact .shown (fun h => by cases h) rfl
  · rw [hdone, run_config_get hk hp]
    exact .shown (fun h => by cases h) rfl
  · obtain ⟨failure,hrun⟩ := run_config_refused (s := { machine := m }) hk hp hrefused
    rw [hdone, hrun]
    exact .refused hrefused
  · obtain ⟨text,hrun⟩ := run_config_written (s := { machine := m }) hk hp hc
    rw [hdone, hrun, run_bind, run_saveConfig]
    by_cases hw : m.files.Writable path
    · obtain ⟨files,hsave,hkept⟩ := hk.save (ConfigAction.isValid_of_written hk.isValid hc) hw
      rw [hsave]
      exact .saved hc hw hkept
    · obtain ⟨hnone,cause,files,hsave,hkept⟩ := hk.save_fails hw c
      rw [hsave]
      exact .unsaved hc hw hnone hkept

namespace Done
variable {m : Machine} {code : Nat} {files : FileSystem}
  (h : Done m path stored action code files)
include h

/-- An action fails if it is refused, or if there is no place for a file, and none there. -/
theorem failing : code ≠ 0 ↔ action.Refused stored ∨
    stored = none ∧ ¬ m.files.Writable path ∧ ∃ c, action.written stored = some c := by
  cases h with
  | shown hrefused hc =>
    refine iff_of_false (absurd rfl) (not_or.mpr ⟨hrefused,?_⟩)
    rintro ⟨-,-,c,hc'⟩
    cases hc.symm.trans hc'
  | refused hrefused => exact iff_of_true Nat.one_ne_zero (.inl hrefused)
  | saved hc hw =>
    refine iff_of_false (absurd rfl) (not_or.mpr ⟨?_,fun h => h.2.1 hw⟩)
    intro hrefused
    cases hc.symm.trans hrefused.written
  | unsaved hc hw hnone => exact iff_of_true Nat.one_ne_zero (.inr ⟨hnone,hw,_,hc⟩)

variable (hk : Config.Kept m.files path stored)
include hk

theorem kept : Config.Kept files path (if code = 0 then action.effect stored else stored) := by
  cases h with
  | shown hrefused hc =>
    rw [if_pos rfl, ConfigAction.effect, hc]
    exact hk
  | refused => exact hk
  | saved hc hw hkept =>
    rw [if_pos rfl, ConfigAction.effect, hc]
    exact hkept
  | unsaved hc hw hnone hkept =>
    rw [if_neg Nat.one_ne_zero, hnone]
    exact hkept

/-- The file outlasts a failure. -/
theorem failed (hcode : code ≠ 0) : files.find? path = m.files.find? path := by
  cases h with
  | shown | saved => exact absurd rfl hcode
  | refused => rfl
  | unsaved hc hw hnone hkept =>
    subst hnone
    rw [FileSystem.isPresent_eq_false.mp hkept.stores, FileSystem.isPresent_eq_false.mp hk.stores]

end Done
end Job

/-! ## What is shown -/

/-- Answers are made however little is to be said. -/
theorem shown_answers {reports : List Report} (h : ∀ r ∈ reports, r.isAnswer) (v : Verbosity)
    (colour : Bool) :
    shown v colour true reports = String.join (reports.map (Report.line colour)) := by
  rw [shown, List.filter_eq_self.mpr]
  intro r hr
  have ha := h r hr
  cases r <;> first | rfl | cases ha

namespace Config

/-- The names in a section that have a value, with their values. -/
def listed (c : Config) (place : String) : List (String × String) :=
  (Setting.all.filter fun s => s.sectionAndName.1 = place).filterMap fun s =>
    (c.get? s.key).map fun v => (s.sectionAndName.2, v)

/-- What is listed of a section, under its title. -/
def sectionText (c : Config) (colour : Bool) (place : String) : String :=
  styled colour [.bold] ("[" ++ place ++ "]") ++ "\n" ++
    String.join ((c.listed place).map fun (name, v) => "  " ++ name ++ " = " ++ v ++ "\n")

/-- What has a value is listed with it, and nothing else is. -/
theorem get?_eq_some_iff_listed : c.get? key = some v ↔
    ∃ place ∈ ["git", "user"], ∃ name, key = place ++ "." ++ name ∧ (name, v) ∈ c.listed place := by
  constructor
  · intro h
    obtain ⟨s,rfl,hv⟩ := get?_eq_some.mp h
    refine ⟨s.sectionAndName.1,by cases s <;> decide,s.sectionAndName.2,rfl,?_⟩
    refine List.mem_filterMap.mpr ⟨s,List.mem_filter.mpr ⟨s.mem_all,decide_eq_true rfl⟩,?_⟩
    rw [h, Option.map_some]
  · rintro ⟨place,-,name,rfl,hlisted⟩
    obtain ⟨s,hs,hv⟩ := List.mem_filterMap.mp hlisted
    have hplace := of_decide_eq_true (List.mem_filter.mp hs).2
    obtain ⟨v',hget,heq⟩ := Option.map_eq_some_iff.mp hv
    cases heq
    rw [← hplace, ← hget]
    rfl

def lines (c : Config) (ss : List Setting) : List Report :=
  ss.flatMap fun s =>
    ((c.value s).map fun v => Report.answer ("  " ++ s.sectionAndName.2 ++ " = " ++ v)).toList

theorem map_line_lines (c : Config) (colour : Bool) (ss : List Setting) :
    (c.lines ss).map (Report.line colour) =
      (ss.filterMap fun s => (c.get? s.key).map fun v => (s.sectionAndName.2, v)).map
        fun (name, v) => "  " ++ name ++ " = " ++ v ++ "\n" := by
  induction ss with
  | nil => rfl
  | cons s ss ih =>
    rw [lines, List.flatMap_cons, List.map_append, List.filterMap_cons, get?_key, ← lines, ih]
    cases c.value s <;> rfl

theorem isAnswer_of_mem_lines {ss : List Setting} {r : Report} (h : r ∈ c.lines ss) :
    r.isAnswer := by
  obtain ⟨s,-,hr⟩ := List.mem_flatMap.mp h
  obtain ⟨v,-,rfl⟩ := Option.map_eq_some_iff.mp (Option.mem_toList.mp hr)
  rfl

theorem listing_eq (c : Config) : Job.listing c =
    .title "[git]" :: c.lines [.privateKey, .stem, .branch, .bootstrap] ++
      .answer "" :: .title "[user]" :: c.lines [.name, .email] := by
  simp only [Job.listing, lines, List.cons_append, List.nil_append, List.append_assoc]

theorem shown_listing (c : Config) (v : Verbosity) (colour : Bool) :
    shown v colour true (Job.listing c) =
      c.sectionText colour "git" ++ "\n" ++ c.sectionText colour "user" := by
  have hanswers : ∀ r ∈ Job.listing c, r.isAnswer := by
    simp only [listing_eq, List.forall_mem_append, List.forall_mem_cons]
    exact ⟨⟨rfl,fun _ => isAnswer_of_mem_lines⟩,rfl,rfl,fun _ => isAnswer_of_mem_lines⟩
  have hgit : Setting.all.filter (fun s => s.sectionAndName.1 = "git") =
      [.privateKey, .stem, .branch, .bootstrap] := by decide
  have huser : Setting.all.filter (fun s => s.sectionAndName.1 = "user") = [.name, .email] := by
    decide
  rw [shown_answers hanswers, listing_eq, sectionText, sectionText, listed, listed, hgit, huser]
  simp only [List.map_append, List.map_cons, map_line_lines, String.join_append, String.join_cons,
    Report.line, String.append_assoc]
  rfl

end Config
end GitPublish
