import GitPublish.Config
import GitPublish.Proofs.Effect

/-!
# Settings and their keys

Every setting has one key, and a key that is no setting's has no value. What a configuration has is
therefore told by its settings alone. Whether a value can be given to a key does not depend on the
configuration.
-/
namespace GitPublish
variable {key v : String} {c : Config} {s : Setting}

theorem Text.eq_of_cut {sep : Char} {cs xs ys : List Char} (h : Text.cut sep cs = (xs, some ys)) :
    cs = xs ++ sep :: ys := by
  obtain ⟨hx,hy⟩ := Prod.mk.inj h
  split at hy
  · cases hy
  next d rest hdrop =>
    have hd : d = sep := by
      have hhead := List.head?_dropWhile_not (· ≠ sep) cs
      rw [hdrop] at hhead
      simpa using hhead
    rw [hd] at hdrop
    rw [← hx, ← Option.some.inj hy, ← hdrop, List.takeWhile_append_dropWhile]

/-- A key is made of what it is divided into. -/
theorem eq_of_splitKey {place : String × String} (h : splitKey key = some place) :
    key = place.1 ++ "." ++ place.2 := by
  unfold splitKey at h
  split at h
  next first rest hcut =>
    rw [← Option.some.inj h, ← String.toList_inj, Text.eq_of_cut hcut]
    simp
  next => cases h

namespace Setting

theorem mem_all (s : Setting) : s ∈ all := by cases s <;> decide

theorem key_inj {s s' : Setting} (h : s.key = s'.key) : s = s' := by
  revert h
  cases s <;> cases s' <;> decide

theorem splitKey_key (s : Setting) : splitKey s.key = some s.sectionAndName := by
  cases s <;> decide

/-- A text can be a value of a setting. -/
def Admits : Setting → String → Prop
  | stem, v => v ≠ "" ∧ '/' ∉ v.toList
  | email, v => '@' ∈ v.toList
  | bootstrap, v => v = "true" ∨ v = "false"
  | _, _ => True

theorem find?_eq_some {place : String × String} :
    find? place = some s ↔ place = s.sectionAndName := by
  constructor
  · intro h
    exact (of_decide_eq_true (List.find?_some h :)).symm
  · rintro rfl
    cases s <;> decide

end Setting

theorem isStem_iff : isStem v ↔ v ≠ "" ∧ '/' ∉ v.toList := by simp [isStem]

theorem isEmail_iff : isEmail v ↔ '@' ∈ v.toList := by simp [isEmail]

namespace Config

theorem get?_key (c : Config) (s : Setting) : c.get? s.key = c.value s := by
  rw [get?, s.splitKey_key, Option.bind_some, Setting.find?_eq_some.mpr rfl, Option.bind_some]

/-- What has a value is the key of a setting that has it. -/
theorem get?_eq_some : c.get? key = some v ↔ ∃ s : Setting, key = s.key ∧ c.value s = some v := by
  constructor
  · intro h
    obtain ⟨s,hs,hv⟩ := Option.bind_eq_some_iff.mp h
    obtain ⟨place,hplace,hfind⟩ := Option.bind_eq_some_iff.mp hs
    refine ⟨s,?_,hv⟩
    rw [eq_of_splitKey hplace, Setting.find?_eq_some.mp hfind]
    rfl
  · rintro ⟨s,rfl,hv⟩
    rw [get?_key, hv]

/-- The rules of configurations. -/
theorem isValid_iff : c.isValid ↔ (c.stem ≠ "" ∧ '/' ∉ c.stem.toList) ∧
    ∀ email, c.email = some email → '@' ∈ email.toList := by
  simp only [isValid, Bool.and_eq_true, Option.all_eq_true, isStem_iff, isEmail_iff]

def put (c : Config) (s : Setting) (v : String) : Config :=
  match s with
  | .privateKey => { c with privateKey := some ⟨v⟩ }
  | .stem => { c with stem := v }
  | .branch => { c with branch := some v }
  | .bootstrap => { c with bootstrap := v = "true" }
  | .name => { c with name := some v }
  | .email => { c with email := some v }

/-- The rules are those of what settings admit. -/
theorem isValid_put (hc : c.isValid) (hv : s.Admits v) : (c.put s v).isValid := by
  rw [isValid_iff] at hc ⊢
  obtain ⟨hstem,hemail⟩ := hc
  cases s with
  | privateKey | branch | bootstrap | name => exact ⟨hstem,hemail⟩
  | stem => exact ⟨hv,hemail⟩
  | email =>
    refine ⟨hstem,?_⟩
    rintro email ⟨⟩
    exact hv

/-- A value that a setting admits is taken, whatever the configuration says. -/
theorem run_assign (h : s.Admits v) (c : Config) : (assign s v).run c = (.ok (), c.put s v) := by
  cases s with
  | privateKey | branch | name => rfl
  | stem =>
    have hstem : isStem v := isStem_iff.mpr h
    simp [assign, hstem, put]
  | email =>
    have hemail : isEmail v := isEmail_iff.mpr h
    simp [assign, hemail, put]
  | bootstrap => rcases h with rfl | rfl <;> rfl

/-- Any other value is refused, and nothing is changed. -/
theorem run_assign_refused (h : ¬ s.Admits v) :
    ∃ cause, ∀ c, (assign s v).run c = (.error cause, c) := by
  cases s with
  | privateKey | branch | name => exact absurd trivial h
  | stem =>
    have hstem : ¬ isStem v := mt isStem_iff.mp h
    exact ⟨.invalidStem v,fun c => by simp [assign, hstem]⟩
  | email =>
    have hemail : ¬ isEmail v := mt isEmail_iff.mp h
    exact ⟨.invalidEmail v,fun c => by simp [assign, hemail]⟩
  | bootstrap =>
    obtain ⟨htrue,hfalse⟩ := not_or.mp h
    exact ⟨.invalidBoolean v,fun c => by simp [assign, htrue, hfalse]⟩

/-- A change by a key is the same whatever the configuration says: it gives the setting with the key
an admitted value, or it is refused. -/
theorem run_update (key v : String) :
    (∃ s : Setting, key = s.key ∧ s.Admits v ∧
      ∀ c, (update key v).run c = (.ok (), c.put s v)) ∨
    ((¬ ∃ s : Setting, key = s.key ∧ s.Admits v) ∧
      ∃ cause, ∀ c, (update key v).run c = (.error cause, c)) := by
  unfold update
  split
  next hsplit =>
    refine .inr ⟨?_,.invalidKey key,fun c => rfl⟩
    rintro ⟨s,rfl,-⟩
    cases s.splitKey_key.symm.trans hsplit
  next place hsplit =>
  split
  next hfind =>
    refine .inr ⟨?_,.unknownKey key,fun c => rfl⟩
    rintro ⟨s,rfl,-⟩
    cases s.splitKey_key.symm.trans hsplit
    cases hfind.symm.trans (Setting.find?_eq_some.mpr rfl)
  next s hfind =>
  have hkey : key = s.key := by
    rw [eq_of_splitKey hsplit, Setting.find?_eq_some.mp hfind]
    rfl
  by_cases hv : s.Admits v
  · exact .inl ⟨s,hkey,hv,run_assign hv⟩
  · refine .inr ⟨?_,run_assign_refused hv⟩
    rintro ⟨s',hkey',hv'⟩
    rw [Setting.key_inj (hkey.symm.trans hkey')] at hv
    exact hv hv'

theorem run_update_ok {c' : Config} : (update key v).run c = (.ok (), c') ↔
    ∃ s : Setting, key = s.key ∧ s.Admits v ∧ c' = c.put s v := by
  rcases run_update key v with ⟨s,hkey,hv,hrun⟩ | ⟨hno,cause,hrun⟩ <;> rw [hrun]
  · constructor
    · rintro ⟨⟩
      exact ⟨s,hkey,hv,rfl⟩
    · rintro ⟨s',hkey',-,rfl⟩
      rw [Setting.key_inj (hkey.symm.trans hkey')]
  · refine ⟨nofun,?_⟩
    rintro ⟨s,hkey,hv,-⟩
    exact absurd ⟨s,hkey,hv⟩ hno

theorem set_eq_ok {c' : Config} : c.set key v = .ok c' ↔
    ∃ s : Setting, key = s.key ∧ s.Admits v ∧ c' = c.put s v := by
  rw [← run_update_ok, set]
  rcases (update key v).run c with ⟨cause | ⟨⟩, d⟩
  · exact iff_of_false nofun nofun
  · constructor <;> rintro ⟨⟩ <;> rfl

theorem set_eq_error {cause : SettingError} (h : c.set key v = .error cause) (c' : Config) :
    c'.set key v = .error cause := by
  rcases run_update key v with ⟨s,-,-,hrun⟩ | ⟨-,cause',hrun⟩
  · rw [set, hrun] at h
    cases h
  · rw [set, hrun] at h ⊢
    exact h

end Config
end GitPublish
