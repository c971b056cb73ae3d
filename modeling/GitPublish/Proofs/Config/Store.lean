import GitPublish.Proofs.Config.Settings

/-!
# Settings as a store

A configuration is a store with one place for each setting: a value that is put there is found there
again, and no other place sees it. Since configurations with the same values are equal, what is
known of the values tells how changes follow on each other.
-/
namespace GitPublish.Config
variable {c c' : Config} {s s' : Setting} {key v w : String}

/-- The values of its settings are all there is to a configuration. -/
theorem ext_value (h : ∀ s, c.value s = c'.value s) : c = c' := by
  have hkey : c.privateKey = c'.privateKey := by
    have htext : ∀ p q : Path, p.text = q.text → p = q := by
      rintro ⟨p⟩ ⟨q⟩ rfl
      rfl
    exact Option.map_injective (fun p q => htext p q) (h .privateKey)
  have hstem : c.stem = c'.stem := Option.some.inj (h .stem)
  have hboot : c.bootstrap = c'.bootstrap := by
    have hspelled := Option.some.inj (h .bootstrap)
    revert hspelled
    cases c.bootstrap <;> cases c'.bootstrap <;> decide
  obtain ⟨_,_,_,_,_,_⟩ := c
  obtain ⟨_,_,_,_,_,_⟩ := c'
  exact congr (congr (congr (congr (congr (congrArg mk hkey) hstem) (h .branch)) hboot) (h .name))
    (h .email)

theorem value_put (hv : s.Admits v) (c : Config) (s' : Setting) :
    (c.put s v).value s' = if s' = s then some v else c.value s' := by
  cases s with
  | privateKey | stem | branch | name | email => cases s' <;> rfl
  | bootstrap => rcases hv with rfl | rfl <;> cases s' <;> rfl

theorem put_put (hv : s.Admits v) (hw : s.Admits w) : (c.put s v).put s w = c.put s w := by
  refine ext_value fun s' => ?_
  rw [value_put hw, value_put hw, value_put hv]
  split <;> rfl

theorem put_comm (h : s' ≠ s) (hv : s.Admits v) (hw : s'.Admits w) :
    (c.put s v).put s' w = (c.put s' w).put s v := by
  refine ext_value fun t => ?_
  rw [value_put hw, value_put hv, value_put hv, value_put hw]
  by_cases hs : t = s
  · rw [if_pos hs, if_pos hs, if_neg (hs ▸ h.symm)]
  · rw [if_neg hs, if_neg hs]

theorem get?_eq_none (h : ∀ s : Setting, key ≠ s.key) : c.get? key = none := by
  refine Option.eq_none_iff_forall_ne_some.mpr fun v hv => ?_
  obtain ⟨s,hkey,-⟩ := get?_eq_some.mp hv
  exact h s hkey

theorem get?_put (hv : s.Admits v) (h : key ≠ s.key) : (c.put s v).get? key = c.get? key := by
  by_cases hkey : ∃ s' : Setting, key = s'.key
  · obtain ⟨s',rfl⟩ := hkey
    rw [get?_key, get?_key, value_put hv, if_neg (mt (congrArg Setting.key) h)]
  · rw [get?_eq_none (not_exists.mp hkey), get?_eq_none (not_exists.mp hkey)]

/-- Of two changes by one key that succeed, the second is what remains. -/
theorem run_update_again (c : Config)
    (h : ((update key w).run ((update key v).run c).2).1 = .ok ()) :
    (update key w).run ((update key v).run c).2 = (update key w).run c := by
  rcases run_update key w with ⟨s,rfl,hw,hagain⟩ | ⟨-,cause,hagain⟩
  · rcases run_update s.key v with ⟨s',hkey,hv,hrun⟩ | ⟨-,cause,hrun⟩
    · obtain rfl := Setting.key_inj hkey
      rw [hrun, hagain, hagain, put_put hv hw]
    · rw [hrun]
  · rw [hagain] at h
    cases h

theorem run_update_comm {other : String} (h : other ≠ key) (c : Config) :
    (update other w).run ((update key v).run c).2 = (((update other w).run c).1,
      ((update key v).run ((update other w).run c).2).2) := by
  rcases run_update key v with ⟨s,rfl,hv,hkey⟩ | ⟨-,cause,hkey⟩ <;>
    rcases run_update other w with ⟨s',rfl,hw,hother⟩ | ⟨-,cause',hother⟩ <;>
    simp only [hkey, hother]
  rw [put_comm (mt (congrArg Setting.key) h) hv hw]

/-- What a change by a key does. It succeeds for the key of a setting with a value that the setting
admits, whatever the configuration says. Then the value is what is found by that key; a further
change by it leaves nothing of the first. A change that fails has changed nothing. No other key sees
a change, and changes by different keys do not see each other. By a key that is no setting's, no
value is found. -/
theorem update_lawful (c : Config) (key value : String) :
    let done := (update key value).run c
    (done.1 = .ok () ↔ ∃ s : Setting, key = s.key ∧ s.Admits value) ∧
    (done.1 = .ok () → done.2.get? key = some value ∧
      ∀ v, ((update key v).run done.2).1 = .ok () →
        (update key v).run done.2 = (update key v).run c) ∧
    (done.1 ≠ .ok () → done.2 = c) ∧
    (∀ other, other ≠ key → done.2.get? other = c.get? other ∧
      ∀ v, (update other v).run done.2 = (((update other v).run c).1,
        ((update key value).run ((update other v).run c).2).2)) ∧
    ((∀ s : Setting, key ≠ s.key) → c.get? key = none) := by
  intro done
  have hdone : done = (update key value).run c := rfl
  have hcomm (other v) (h : other ≠ key) : (update other v).run done.2 = _ := run_update_comm h c
  rcases run_update key value with ⟨s,rfl,hv,hrun⟩ | ⟨hno,cause,hrun⟩ <;> rw [hrun c] at hdone
  · refine ⟨iff_of_true (by rw [hdone]) ⟨s,rfl,hv⟩,fun _ => ⟨?_,fun v => run_update_again c⟩,?_,?_,
      get?_eq_none⟩
    · rw [hdone, get?_key, value_put hv, if_pos rfl]
    · exact fun h => absurd (by rw [hdone]) h
    · exact fun other hother => ⟨by rw [hdone, get?_put hv hother],fun v => hcomm other v hother⟩
  · have hfails : done.1 ≠ .ok () := by simp [hdone]
    exact ⟨iff_of_false hfails hno,fun h => absurd h hfails,fun _ => by rw [hdone],
      fun other hother => ⟨by rw [hdone],fun v => hcomm other v hother⟩,get?_eq_none⟩

/-- The keys of all settings. -/
example : Setting.all.map Setting.key = ["git.private_ssh_key_path", "git.clone_prefix",
    "git.branch", "git.bootstrap", "user.name", "user.email"] := by decide

end GitPublish.Config
