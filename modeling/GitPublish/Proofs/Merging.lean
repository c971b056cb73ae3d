import GitPublish.Proofs.Config.File
import GitPublish.Proofs.Program

/-!
# Settings from two places

What the command line leaves open for publishing is taken from the configuration. So publishing with
a configuration is publishing with the default one, once the command line has been completed. A
setting that the command line gives is not looked up anywhere else.
-/
namespace GitPublish

open CommandLine (PushArguments)

namespace Config

/-- Two configurations differ in one setting at most. -/
def DiffersOnlyIn (s : Setting) (c c' : Config) : Prop := ∀ t, t ≠ s → c.value t = c'.value t

theorem privateKey_eq {c c' : Config} (h : c.value .privateKey = c'.value .privateKey) :
    c.privateKey = c'.privateKey := by
  refine Option.map_injective (fun p q hpq => ?_) h
  cases p
  cases q
  exact congrArg Path.mk hpq

theorem bootstrap_eq {c c' : Config} (h : c.value .bootstrap = c'.value .bootstrap) :
    c.bootstrap = c'.bootstrap := by
  unfold value at h
  cases hc : c.bootstrap <;> cases hc' : c'.bootstrap <;> simp [hc, hc'] at h ⊢

end Config

namespace CommandLine.PushArguments
variable {args : PushArguments} {c c' : Config}

/-- The arguments with what they leave open taken from a configuration. -/
def filled (args : PushArguments) (c : Config) : PushArguments :=
  { args with
    branch := args.branch.or c.branch
    bootstrap := args.bootstrap || c.bootstrap
    user := args.user.or c.name
    email := args.email.or c.email
    sshKey := args.sshKey.or c.privateKey
    stem := some (args.stem.getD c.stem) }

/-- Whether the arguments give a setting; an empty text is given like any other. -/
def gives (args : PushArguments) : Setting → Bool
  | .privateKey => args.sshKey.isSome
  | .stem => args.stem.isSome
  | .branch => args.branch.isSome
  | .bootstrap => args.bootstrap
  | .name => args.user.isSome
  | .email => args.email.isSome

theorem or_congr {α : Type} {given x y : Option α} (h : given.isSome = false → x = y) :
    given.or x = given.or y := by
  cases given with
  | none => exact h rfl
  | some a => rfl

/-- Only what is left open is looked up. -/
theorem filled_congr (h : ∀ t, args.gives t = false → c.value t = c'.value t) :
    args.filled c = args.filled c' := by
  have hbranch : args.branch.or c.branch = args.branch.or c'.branch := or_congr (h .branch)
  have huser : args.user.or c.name = args.user.or c'.name := or_congr (h .name)
  have hemail : args.email.or c.email = args.email.or c'.email := or_congr (h .email)
  have hkey : args.sshKey.or c.privateKey = args.sshKey.or c'.privateKey :=
    or_congr fun hk => Config.privateKey_eq (h .privateKey hk)
  have hbootstrap : (args.bootstrap || c.bootstrap) = (args.bootstrap || c'.bootstrap) := by
    cases hb : args.bootstrap with
    | true => rfl
    | false => exact Config.bootstrap_eq (h .bootstrap hb)
  have hstem : args.stem.getD c.stem = args.stem.getD c'.stem := by
    cases hs : args.stem with
    | some stem => rfl
    | none => exact Option.some.inj (h .stem (by rw [gives, hs]; rfl))
  unfold filled
  rw [hbranch, huser, hemail, hkey, hbootstrap, hstem]

end CommandLine.PushArguments

namespace Job
variable (c : Config) (args : PushArguments)

theorem request_filled (source : Path) :
    request {} (args.filled c) source = request c args source := by
  unfold request PushArguments.filled
  simp only [Option.or_none, Bool.or_false, Option.getD_some]

theorem pushWith_eq_filled : pushWith c args = pushWith {} (args.filled c) := by
  unfold pushWith
  simp only [request_filled]
  -- of the configuration, the path of the key depends on the key alone
  simp only [Config.keyPath?, PushArguments.filled, Option.or_none]

/-- To publish with a configuration is to publish with the default and completed arguments. -/
theorem push_merges :
    pushWith c args = pushWith {} (args.filled c) ∧
    (∀ (m : Machine) (path : Path), m.config? = .ok (path, c) →
      execute m (.push args) = m.perform (pushWith {} (args.filled c))) ∧
    ∀ (s : Setting) (c' : Config), args.gives s → c.DiffersOnlyIn s c' →
      pushWith c args = pushWith c' args := by
  refine ⟨pushWith_eq_filled c args,fun m path h => ?_,fun s c' hs hc => ?_⟩
  · rw [execute_eq, follow, Machine.perform, run_push, h, ← pushWith_eq_filled]
    rfl
  · have hfilled : args.filled c = args.filled c' := by
      refine PushArguments.filled_congr fun t ht => hc t ?_
      rintro rfl
      exact Bool.false_ne_true (ht.symm.trans hs)
    rw [pushWith_eq_filled, hfilled, ← pushWith_eq_filled]

/-- An empty name on the command line takes the place of the one in the configuration. -/
theorem push_merges_empty_name :
    let path : Path := ⟨"/etc/gitwrite/config.toml"⟩
    let c : Config := { name := some "bot", email := some "bot@example.org" }
    let c' : Config := { email := some "bot@example.org" }
    let args : PushArguments :=
      { url := "git@example.org:site", branch := none, bootstrap := false, source := ⟨"."⟩,
        subdir := none, message := "update", user := some "", email := none, sshKey := none,
        stem := none, keep := false }
    args.gives .name ∧ c.DiffersOnlyIn .name c' ∧ pushWith c args = pushWith c' args ∧
      ∃ files, let m := idleMachine [(Config.pathVariable, path.text)] files
        m.config? = .ok (path, c) ∧
          execute m (.push args) = m.perform (pushWith {} (args.filled c)) := by
  intro path c c' args
  have hgives : args.gives .name := rfl
  have hc : c.DiffersOnlyIn .name c' := by
    intro t ht
    cases t with
    | name => exact absurd rfl ht
    | privateKey | stem | branch | bootstrap | email => rfl
  obtain ⟨files,-,hload⟩ := Config.load_of_save (c := c) (by decide) (by decide)
    Config.writable_bareFiles
  obtain ⟨-,hrun,hsame⟩ := push_merges c args
  have hconfig : (idleMachine [(Config.pathVariable, path.text)] files).config? =
      .ok (path, c) := Machine.config?_eq_ok.mpr ⟨rfl,hload⟩
  exact ⟨hgives,hc,hsame .name c' hgives hc,files,hconfig,hrun _ path hconfig⟩

end Job
end GitPublish
