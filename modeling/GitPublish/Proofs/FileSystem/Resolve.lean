import GitPublish.Proofs.FileSystem.Action

/-!
# Where links lead

A path resolves by its links alone: whatever is missing on the way is taken to be made. This is
where a path leads if it leads anywhere, and it does not change while files grow.
-/
namespace GitPublish.FileSystem
variable {fs fs' : FileSystem} {here a b c : Address} {steps xs ys : List Step} {budget : Nat}
  {follow : Bool}

/-- Where steps lead if nothing but links is looked at. -/
inductive Resolves (fs : FileSystem) : Address → List Step → Address → Prop
  | nil {here : Address} : Resolves fs here [] here
  | stay {here a : Address} {rest : List Step} :
      Resolves fs here rest a → Resolves fs here (.stay :: rest) a
  | up {here a : Address} {rest : List Step} :
      Resolves fs here.dropLast rest a → Resolves fs here (.up :: rest) a
  | enter {here a : Address} {name : String} {rest : List Step} :
      (∀ target, fs.get? (here ++ [name]) ≠ some (.link target)) →
      Resolves fs (here ++ [name]) rest a → Resolves fs here (.enter name :: rest) a
  | link {here a : Address} {name target : String} {rest : List Step} :
      fs.get? (here ++ [name]) = some (.link target) →
      Resolves fs (startOf target here) (Step.ofText target ++ rest) a →
      Resolves fs here (.enter name :: rest) a

theorem Resolves.unique (h : fs.Resolves here steps a) (k : fs.Resolves here steps b) : a = b := by
  induction h with
  | nil => cases k; rfl
  | stay _ ih => cases k with | stay k => exact ih k
  | up _ ih => cases k with | up k => exact ih k
  | enter hn _ ih =>
    cases k with
    | enter _ k => exact ih k
    | link hl => exact absurd hl (hn _)
  | link hl _ ih =>
    cases k with
    | enter hn => exact absurd hl (hn _)
    | link hl' k =>
      cases hl.symm.trans hl'
      exact ih k

theorem Resolves.trans (h : fs.Resolves here xs a) (k : fs.Resolves a ys b) :
    fs.Resolves here (xs ++ ys) b := by
  induction h with
  | nil => exact k
  | stay _ ih => exact .stay (ih k)
  | up _ ih => exact .up (ih k)
  | enter hn _ ih => exact .enter hn (ih k)
  | link hl _ ih =>
    have h := ih k
    rw [List.append_assoc] at h
    exact .link hl h

/-- While files grow, paths resolve as they did. -/
theorem Resolves.of_grows (hg : fs.Grows fs') (h : fs'.Resolves here steps a) :
    fs.Resolves here steps a := by
  induction h with
  | nil => exact .nil
  | stay _ ih => exact .stay ih
  | up _ ih => exact .up ih
  | enter hn _ ih => exact .enter (fun target hl => hn target (hg.link hl)) ih
  | link hl _ ih => exact .link (hg.links _ _ hl) ih

/-- Steps that go nowhere up stay below where they start. -/
theorem prefix_foldl_follow (here : Address) (hup : .up ∉ steps) :
    here <+: steps.foldl Step.follow here := by
  induction steps generalizing here with
  | nil => exact List.prefix_refl here
  | cons step steps ih =>
    obtain ⟨hstep,hrest⟩ := not_or.mp (mt List.mem_cons.mpr hup)
    cases step with
    | stay => exact ih _ hrest
    | up => exact absurd rfl hstep
    | enter name => exact (List.prefix_append here [name]).trans (ih _ hrest)

/-- Where there are no links, steps that go nowhere up lead where they say. -/
theorem resolves_of_noLinks (hl : ∀ b link, here <+: b → fs.get? b ≠ some (.link link))
    (hup : .up ∉ steps) : fs.Resolves here steps (steps.foldl Step.follow here) := by
  induction steps generalizing here with
  | nil => exact .nil
  | cons step steps ih =>
    obtain ⟨hstep,hrest⟩ := not_or.mp (mt List.mem_cons.mpr hup)
    cases step with
    | stay => exact .stay (ih hl hrest)
    | up => exact absurd rfl hstep
    | enter name =>
      have hname : here <+: here ++ [name] := List.prefix_append here [name]
      exact .enter (fun link => hl _ link hname)
        (ih (fun b link hb => hl b link (hname.trans hb)) hrest)

/-- A path that leads somewhere resolves to where it leads, unless it ends at a link. -/
theorem Leads.resolves (h : fs.Leads follow budget here steps a)
    (hf : follow = true ∨ fs.get? a = none) : fs.Resolves here steps a := by
  induction h with
  | nil => exact .nil
  | stay _ _ ih => exact .stay (ih hf)
  | up _ _ ih => exact .up (ih hf)
  | enter _ _ hn _ ih => exact .enter hn (ih hf)
  | last _ _ hl hfalse =>
    rcases hf with hf | hf
    · cases hf.symm.trans hfalse
    · cases hf.symm.trans hl
  | link _ _ hl _ _ ih => exact .link hl (ih hf)

theorem Leads.unique (h : fs.Leads follow budget here steps a)
    (k : fs.Leads follow budget here steps b) : a = b :=
  Except.ok.inj ((walk_of_leads h).symm.trans (walk_of_leads k))

/-- A way that does not end at a link is the same if links at its end are followed. -/
theorem Leads.followed (h : fs.Leads follow budget here steps a)
    (hn : ∀ target, fs.get? a ≠ some (.link target)) : fs.Leads true budget here steps a := by
  induction h with
  | nil => exact .nil
  | stay hd _ ih => exact .stay hd (ih hn)
  | up hd _ ih => exact .up hd (ih hn)
  | enter hd hs hl _ ih => exact .enter hd hs hl (ih hn)
  | last _ _ hl => exact absurd hl (hn _)
  | link hd hs hl _ _ ih => exact .link hd hs hl (.inr rfl) (ih hn)

/-- A way in two parts, the second of which has a step, leads through a place between them. -/
theorem Leads.split (h : fs.Leads follow budget here (xs ++ ys) a) (hy : ys ≠ []) :
    ∃ between left, fs.Leads true budget here xs between ∧ fs.Leads follow left between ys a := by
  -- by induction on the way: a link puts its own steps before the first part, which may get longer
  generalize hs : xs ++ ys = steps at h
  induction h generalizing xs with
  | nil => exact absurd (List.append_eq_nil_iff.mp hs).2 hy
  | @stay budget here a rest hd h ih =>
    cases xs with
    | nil => exact ⟨here,budget,.nil,by rw [List.nil_append] at hs; exact hs ▸ .stay hd h⟩
    | cons step xs =>
      obtain ⟨rfl,htail⟩ := List.cons.inj hs
      obtain ⟨between,left,hx,hy⟩ := ih htail
      exact ⟨between,left,.stay hd hx,hy⟩
  | @up budget here a rest hd h ih =>
    cases xs with
    | nil => exact ⟨here,budget,.nil,by rw [List.nil_append] at hs; exact hs ▸ .up hd h⟩
    | cons step xs =>
      obtain ⟨rfl,htail⟩ := List.cons.inj hs
      obtain ⟨between,left,hx,hy⟩ := ih htail
      exact ⟨between,left,.up hd hx,hy⟩
  | @enter budget here a name rest hd hn hl h ih =>
    cases xs with
    | nil => exact ⟨here,budget,.nil,by rw [List.nil_append] at hs; exact hs ▸ .enter hd hn hl h⟩
    | cons step xs =>
      obtain ⟨rfl,htail⟩ := List.cons.inj hs
      obtain ⟨between,left,hx,hy⟩ := ih htail
      exact ⟨between,left,.enter hd hn hl hx,hy⟩
  | @last budget here name target hd hn hl hf =>
    cases xs with
    | nil => exact ⟨here,budget,.nil,by rw [List.nil_append] at hs; exact hs ▸ .last hd hn hl hf⟩
    | cons step xs =>
      obtain ⟨-,hs⟩ := List.cons.inj hs
      exact absurd (List.append_eq_nil_iff.mp hs).2 hy
  | @link budget here a name target rest hd hn hl hr h ih =>
    cases xs with
    | nil =>
      exact ⟨here,budget + 1,.nil,by rw [List.nil_append] at hs; exact hs ▸ .link hd hn hl hr h⟩
    | cons step xs =>
      obtain ⟨rfl,htail⟩ := List.cons.inj hs
      have hall : (Step.ofText target ++ xs) ++ ys = Step.ofText target ++ rest := by
        rw [List.append_assoc]
        exact congrArg (Step.ofText target ++ ·) htail
      obtain ⟨between,left,hx,hy⟩ := ih hall
      exact ⟨between,left,.link hd hn hl (.inr rfl) hx,hy⟩

end GitPublish.FileSystem
