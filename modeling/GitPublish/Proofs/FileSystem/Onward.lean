import GitPublish.Proofs.FileSystem.Resolve
import GitPublish.Proofs.Path.Ancestors

/-!
# Ways that go on

A path may go on from a directory by names alone. It then leads to an entry below that directory, or
fails for what is missing on the way. The paths above it go on from the same directory, until only
the directory is left.
-/
namespace GitPublish

namespace FileSystem
variable {fs fs' : FileSystem} {here root a b : Address} {steps xs ys above : List Step}
  {step : Step} {budget k : Nat} {follow : Bool} {p : Path} {name : String}

theorem IsTree.directory_above (ht : fs.IsTree) (hb : fs.isDirectoryAt b) (ha : a <+: b) :
    fs.isDirectoryAt a := by
  obtain ⟨rest,rfl⟩ := ha
  cases rest with
  | nil => rwa [List.append_nil] at hb
  | cons name rest =>
    refine ht.parent a name (ht.above (ne_none_of_isDirectoryAt hb) ?_)
    exact ⟨rest,by rw [List.append_assoc]; rfl⟩

/-! ## Ways that go on -/

theorem isPresent_iff : fs.isPresent p ↔ ∃ a e, fs.find true p = .ok (a, e) := by
  unfold isPresent find?
  rcases fs.find true p with cause | ⟨a,e⟩ <;> simp [Except.toOption]

theorem isPresent_eq_false : fs.isPresent p = false ↔ fs.find? p = none := by simp [isPresent]

theorem isPresent_of_none (hl : fs.locate true p = .ok a) (hn : fs.get? a = none) :
    fs.isPresent p = false := by
  rw [isPresent, find?, find_of_none hl hn]
  rfl

theorem isDirectory_iff :
    fs.isDirectory p ↔ ∃ a, fs.locate true p = .ok a ∧ fs.isDirectoryAt a := by
  have hfind : fs.isDirectory p ↔ ∃ a e, fs.find true p = .ok (a, e) ∧ e.isDirectory := by
    unfold isDirectory find?
    rcases fs.find true p with cause | ⟨a,e⟩
    · exact ⟨nofun,nofun⟩
    · refine ⟨fun h => ⟨a,e,rfl,h⟩,?_⟩
      rintro ⟨_,_,⟨⟩,h⟩
      exact h
  rw [hfind]
  constructor
  · rintro ⟨a,e,hf,hd⟩
    obtain ⟨hl,he⟩ := find_eq_ok.mp hf
    exact ⟨a,hl,by rw [isDirectoryAt, he]; exact hd⟩
  · rintro ⟨a,hl,hd⟩
    obtain ⟨mode,hmode⟩ := isDirectoryAt_iff.mp hd
    exact ⟨a,_,find_eq_ok.mpr ⟨hl,hmode⟩,rfl⟩

theorem walk_cons_stay (hd : fs.isDirectoryAt here) :
    fs.walk follow budget here (.stay :: steps) = fs.walk follow budget here steps := by
  obtain ⟨mode,hd⟩ := isDirectoryAt_iff.mp hd
  rw [walk.eq_def]
  simp only [hd]

theorem walk_cons_enter (hd : fs.isDirectoryAt here) (hn : name.utf8ByteSize ≤ nameLimit)
    (hl : ∀ target, fs.get? (here ++ [name]) ≠ some (.link target)) :
    fs.walk follow budget here (.enter name :: steps) =
      fs.walk follow budget (here ++ [name]) steps := by
  obtain ⟨mode,hd⟩ := isDirectoryAt_iff.mp hd
  rw [walk.eq_def]
  simp only [hd, if_neg (Nat.not_lt.mpr hn)]

theorem walk_of_none (hn : fs.get? here = none) (hs : steps ≠ []) :
    fs.walk follow budget here steps = .error .notFound := by
  obtain ⟨step,rest,rfl⟩ := List.exists_cons_of_ne_nil hs
  rw [walk.eq_def]
  simp only [hn]

/-- A way that goes on from where another ends. -/
theorem Leads.walk_append (h : fs.Leads true budget here xs a) :
    ∃ left, ∀ follow ys, ys ≠ [] →
      fs.walk follow budget here (xs ++ ys) = fs.walk follow left a ys := by
  generalize hf : true = links at h
  induction h with
  | nil => exact ⟨_,fun _ _ _ => rfl⟩
  | stay hd _ ih =>
    obtain ⟨left,ih⟩ := ih
    exact ⟨left,fun follow ys hy => by rw [List.cons_append, walk_cons_stay hd, ih follow ys hy]⟩
  | up hd _ ih =>
    obtain ⟨left,ih⟩ := ih
    obtain ⟨mode,hd⟩ := isDirectoryAt_iff.mp hd
    refine ⟨left,fun follow ys hy => ?_⟩
    rw [List.cons_append, walk.eq_def]
    simpa only [hd] using ih follow ys hy
  | enter hd hn hl _ ih =>
    obtain ⟨left,ih⟩ := ih
    refine ⟨left,fun follow ys hy => ?_⟩
    rw [List.cons_append, walk_cons_enter hd hn hl, ih follow ys hy]
  | last _ _ _ hfalse => cases hf.trans hfalse
  | link hd hn hl _ _ ih =>
    obtain ⟨left,ih⟩ := ih
    obtain ⟨mode,hd⟩ := isDirectoryAt_iff.mp hd
    refine ⟨left,fun follow ys hy => ?_⟩
    have hne : ∀ rest : List Step, rest ++ ys ≠ [] := fun rest h =>
      hy (List.append_eq_nil_iff.mp h).2
    rw [List.cons_append, walk.eq_def]
    simp only [hd, if_neg (Nat.not_lt.mpr hn), hl]
    rw [if_neg (by simp [hne]), ← List.append_assoc]
    exact ih follow ys hy

structure GoesDown (steps : List Step) : Prop where
  up : .up ∉ steps
  names : ∀ name, .enter name ∈ steps → name.utf8ByteSize ≤ nameLimit

theorem GoesDown.tail {step : Step} (h : GoesDown (step :: steps)) : GoesDown steps where
  up hm := h.up (List.mem_cons_of_mem _ hm)
  names name hm := h.names name (List.mem_cons_of_mem _ hm)

theorem GoesDown.append_left (h : GoesDown (xs ++ ys)) : GoesDown xs where
  up hm := h.up (List.mem_append_left _ hm)
  names name hm := h.names name (List.mem_append_left _ hm)

/-- Down to a directory, there are directories all the way. -/
theorem walk_down (ht : fs.IsTree) (hs : GoesDown steps)
    (hd : fs.isDirectoryAt (steps.foldl Step.follow here)) (ys : List Step) :
    fs.walk follow budget here (steps ++ ys) =
      fs.walk follow budget (steps.foldl Step.follow here) ys := by
  induction steps generalizing here with
  | nil => rfl
  | cons step steps ih =>
    have hhere := ht.directory_above hd (prefix_foldl_follow here hs.up)
    cases step with
    | stay =>
      rw [List.cons_append, walk_cons_stay hhere]
      exact ih hs.tail hd
    | up => exact absurd (List.mem_cons_self ..) hs.up
    | enter name =>
      have hin := ht.directory_above hd (prefix_foldl_follow (here ++ [name]) hs.tail.up)
      rw [List.cons_append, walk_cons_enter hhere (hs.names name (List.mem_cons_self ..))
        (ne_link_of_isDirectoryAt hin)]
      exact ih hs.tail hd

/-- Nothing but directories is in the way from one place to another. -/
def IsFree (fs : FileSystem) (here a : Address) : Prop :=
  ∀ b, here <+: b → b <+: a → fs.get? b = none ∨ fs.isDirectoryAt b

theorem isFree_iff : fs.IsFree here a ↔ ∀ n < a.length + 1, here <+: a.take n →
    fs.get? (a.take n) = none ∨ fs.isDirectoryAt (a.take n) := by
  refine ⟨fun h n _ hn => h _ hn (List.take_prefix n a),fun h b hb hba => ?_⟩
  have hlen := Nat.lt_succ_of_le hba.length_le
  have htake := h b.length hlen
  rw [← List.prefix_iff_eq_take.mp hba] at htake
  exact htake hb

instance : Decidable (fs.IsFree here a) := decidable_of_iff' _ isFree_iff

theorem IsFree.mono (h : fs.IsFree here a) (hb : b <+: a) : fs.IsFree here b :=
  fun c hc hcb => h c hc (hcb.trans hb)

/-- Down to where nothing is, something is found to be missing. -/
theorem walk_down_missing (hs : GoesDown steps)
    (hfree : fs.IsFree here (steps.foldl Step.follow here))
    (hn : fs.get? (steps.foldl Step.follow here) = none) (hy : ys ≠ []) :
    fs.walk follow budget here (steps ++ ys) = .error .notFound := by
  induction steps generalizing here with
  | nil => exact walk_of_none hn hy
  | cons step steps ih =>
    rcases hfree here (List.prefix_refl here) (prefix_foldl_follow here hs.up) with hnone | hhere
    · exact walk_of_none hnone (by simp)
    cases step with
    | stay => rw [List.cons_append, walk_cons_stay hhere, ih hs.tail hfree hn]
    | up => exact absurd (List.mem_cons_self ..) hs.up
    | enter name =>
      have hname : here <+: here ++ [name] := List.prefix_append here [name]
      have hfree' : fs.IsFree (here ++ [name]) (steps.foldl Step.follow (here ++ [name])) :=
        fun b hb => hfree b (hname.trans hb)
      have hl (target : String) : fs.get? (here ++ [name]) ≠ some (.link target) := by
        rcases hfree' _ (List.prefix_refl _) (prefix_foldl_follow _ hs.tail.up) with h | h
        · simp [h]
        · exact ne_link_of_isDirectoryAt h target
      rw [List.cons_append, walk_cons_enter hhere (hs.names name (List.mem_cons_self ..)) hl,
        ih hs.tail hfree' hn]

/-! ## Paths that go on -/

structure GoesOn (fs : FileSystem) (p : Path) (root : Address) (steps : List Step) : Prop where
  hasNul : p.hasNul = false
  length : p.text.utf8ByteSize < pathLimit
  directory : fs.isDirectoryAt root
  down : GoesDown steps
  front : ∃ front, Step.ofText p.text = front ++ steps ∧
    fs.Leads true linkLimit (startOf p.text fs.current) front root

theorem GoesOn.of_keeps (h : fs.GoesOn p root steps) (hk : fs.Keeps fs') :
    fs'.GoesOn p root steps where
  hasNul := h.hasNul
  length := h.length
  directory := hk.isDirectoryAt h.directory
  down := h.down
  front := by
    obtain ⟨front,hsteps,hw⟩ := h.front
    have hd := ne_link_of_isDirectoryAt (hk.isDirectoryAt h.directory)
    exact ⟨front,hsteps,hk.current ▸ hw.of_keeps hk (.inr hd)⟩

theorem GoesOn.locate (h : fs.GoesOn p root (steps ++ [.enter name])) (follow : Bool) :
    ∃ left, fs.locate follow p =
      (fs.walk follow left root (steps ++ [.enter name])).mapError .os := by
  obtain ⟨front,hsteps,hw⟩ := h.front
  obtain ⟨left,hwalk⟩ := hw.walk_append
  have hne : p.text ≠ "" := by
    rw [← List.append_assoc] at hsteps
    exact mt String.toList_eq_nil_iff.mpr (Path.text_ne_of_step hsteps (by simp))
  unfold FileSystem.locate
  rw [if_neg (by simp [h.hasNul]), if_neg hne, if_neg (Nat.not_le.mpr h.length), hsteps,
    hwalk follow _ (by simp)]
  exact ⟨left,rfl⟩

/-- Where a path goes on to an entry of a directory, it leads to that entry. -/
theorem GoesOn.locate_entry (h : fs.GoesOn p root (steps ++ [.enter name])) (ht : fs.IsTree)
    (hd : fs.isDirectoryAt (steps.foldl Step.follow root))
    (hl : ∀ target, fs.get? (steps.foldl Step.follow root ++ [name]) ≠ some (.link target))
    (follow : Bool) :
    fs.locate follow p = .ok (steps.foldl Step.follow root ++ [name]) := by
  obtain ⟨left,hlocate⟩ := h.locate follow
  rw [hlocate, walk_down ht h.down.append_left hd,
    walk_cons_enter hd (h.down.names name (by simp)) hl, walk]
  rfl

theorem GoesOn.locate_missing (h : fs.GoesOn p root (steps ++ [.enter name]))
    (hfree : fs.IsFree root (steps.foldl Step.follow root))
    (hn : fs.get? (steps.foldl Step.follow root) = none) (follow : Bool) :
    fs.locate follow p = .error (.os .notFound) := by
  obtain ⟨left,hlocate⟩ := h.locate follow
  rw [hlocate, walk_down_missing h.down.append_left hfree hn (by simp)]
  rfl

/-- A path that ends in a name ends in no slash. -/
theorem getLast?_of_enter (h : Step.ofText p.text = xs ++ [.enter name]) :
    p.text.toList.getLast? ≠ some '/' := by
  intro hslash
  obtain ⟨init,hinit⟩ := List.getLast?_eq_some_iff.mp hslash
  rw [Step.ofText, hinit, List.splitOn_append_cons_self, List.map_append] at h
  obtain ⟨-,hlast⟩ := List.append_inj' h rfl
  cases hlast

theorem GoesOn.locateName (h : fs.GoesOn p root (steps ++ [.enter name])) :
    fs.locateName p = fs.locate false p := by
  obtain ⟨front,hsteps,-⟩ := h.front
  rw [← List.append_assoc] at hsteps
  exact locateName_of_unslashed (Path.unslashed_of_getLast? (getLast?_of_enter hsteps))

/-- Where a path goes on to a name that no directory has, it can be opened for writing. -/
theorem GoesOn.run_openTarget (h : fs.GoesOn p root (steps ++ [.enter name])) (ht : fs.IsTree)
    (hd : fs.isDirectoryAt (steps.foldl Step.follow root))
    (hend : ∀ e, fs.get? (steps.foldl Step.follow root ++ [name]) = some e → e.isFile) :
    (FileAction.openTarget p).run fs = (.ok (steps.foldl Step.follow root ++ [name]), fs) := by
  have hl (target : String) :
      fs.get? (steps.foldl Step.follow root ++ [name]) ≠ some (.link target) :=
    fun hlink => nomatch hend _ hlink
  have hdir : fs.isDirectoryAt (steps.foldl Step.follow root ++ [name]) = false := by
    rw [← Bool.not_eq_true, isDirectoryAt_iff]
    rintro ⟨mode,hmode⟩
    cases hend _ hmode
  obtain ⟨front,hsteps,-⟩ := h.front
  rw [← List.append_assoc] at hsteps
  have hslashed : p.isSlashedName = false := by
    simp [Path.isSlashedName, getLast?_of_enter hsteps]
  rw [FileAction.openTarget, run_bind, run_get]
  dsimp only
  rw [hslashed, if_neg Bool.false_ne_true, run_bind, run_liftExcept, h.locate_entry ht hd hl]
  dsimp only
  rw [hdir, if_neg Bool.false_ne_true, run_pure]

/-! ## The paths above -/

theorem foldl_stay (here : Address) (k : Nat) :
    (List.replicate k Step.stay).foldl Step.follow here = here := by
  induction k with
  | zero => rfl
  | succ k ih => exact ih

/-- What a path is put behind is no worse for being given to a system than the path. -/
theorem fits_of_append {q : Path} {rest : String} (ht : p.text = q.text ++ rest)
    (hnul : p.hasNul = false) (hlength : p.text.utf8ByteSize < pathLimit) :
    q.hasNul = false ∧ q.text.utf8ByteSize < pathLimit := by
  constructor
  · rw [Path.hasNul, ht, String.toList_append] at hnul
    rw [Path.hasNul]
    simp only [List.contains_eq_mem, List.mem_append, decide_eq_false_iff_not, not_or] at hnul ⊢
    exact hnul.1
  · rw [ht, String.utf8ByteSize_append] at hlength
    exact Nat.lt_of_le_of_lt (Nat.le_add_right _ _) hlength

theorem startOf_append {text front : String} {rest : List Char} (hne : front.toList ≠ [])
    (ht : text.toList = front.toList ++ rest) (here : Address) :
    startOf text here = startOf front here := by
  obtain ⟨c,cs,hc⟩ := List.exists_cons_of_ne_nil hne
  rw [startOf, startOf, ht, hc]
  rfl

/-- A path that goes on by more than a name has another path above it. -/
theorem GoesOn.exists_above
    (h : fs.GoesOn p root (above ++ [step] ++ List.replicate k .stay ++ [.enter name]))
    (hs : step ≠ .stay) :
    ∃ q, p.ancestors = p :: q.ancestors ∧ fs.GoesOn q root (above ++ [step]) := by
  obtain ⟨front,hsteps,hw⟩ := h.front
  have hparts : Step.ofText p.text =
      front ++ above ++ [step] ++ List.replicate k .stay ++ [.enter name] := by
    rw [hsteps]
    simp
  obtain ⟨q,hanc,hq,rest,ht⟩ := Path.exists_above hs (by simp) hparts
  have hne := Path.text_ne_of_step hq hs
  obtain ⟨hnul,hlength⟩ := fits_of_append ht h.hasNul h.length
  refine ⟨q,hanc,hnul,hlength,h.directory,h.down.append_left.append_left,front,?_,?_⟩
  · rw [hq, List.append_assoc]
  · have htext : p.text.toList = q.text.toList ++ rest.toList := by rw [ht, String.toList_append]
    exact startOf_append hne htext fs.current ▸ hw

/-- A path that goes on to a name comes there straight from the directory, or from another name
with a path above. -/
theorem GoesOn.above_cases (h : fs.GoesOn p root (steps ++ [.enter name])) :
    (∃ k, steps = List.replicate k .stay) ∨ ∃ q above last, p.ancestors = p :: q.ancestors ∧
      fs.GoesOn q root (above ++ [.enter last]) ∧ above.length < steps.length ∧
      steps.foldl Step.follow root = above.foldl Step.follow root ++ [last] := by
  rcases Path.idle_or_step steps with hk | ⟨above,step,k,hs,rfl⟩
  · exact .inl hk
  obtain ⟨q,hq,hgoes⟩ := h.exists_above hs
  cases step with
  | stay => exact absurd rfl hs
  | up => exact absurd (by simp) h.down.up
  | enter last =>
    refine .inr ⟨q,above,last,hq,hgoes,by simp,?_⟩
    rw [List.foldl_append, foldl_stay, List.foldl_append]
    rfl

theorem GoesOn.prefix_foldl (h : fs.GoesOn p root (steps ++ [.enter name])) :
    root <+: steps.foldl Step.follow root := prefix_foldl_follow root h.down.append_left.up

/-- A way whose last link is not followed comes to the same end, or to that link. -/
theorem Leads.unfollowed (h : fs.Leads true budget here steps a) :
    ∃ b, fs.Leads false budget here steps b ∧
      (b = a ∨ ∃ target, fs.get? b = some (.link target)) := by
  generalize hf : true = links at h
  induction h with
  | nil => exact ⟨_,.nil,.inl rfl⟩
  | stay hd _ ih =>
    obtain ⟨b,hb,hend⟩ := ih
    exact ⟨b,.stay hd hb,hend⟩
  | up hd _ ih =>
    obtain ⟨b,hb,hend⟩ := ih
    exact ⟨b,.up hd hb,hend⟩
  | enter hd hs hl _ ih =>
    obtain ⟨b,hb,hend⟩ := ih
    exact ⟨b,.enter hd hs hl hb,hend⟩
  | last _ _ _ hfalse => cases hf.trans hfalse
  | @link budget here a name target rest hd hs hl _ _ ih =>
    by_cases hr : rest = []
    · subst hr
      exact ⟨_,.last hd hs hl rfl,.inr ⟨target,hl⟩⟩
    · obtain ⟨b,hb,hend⟩ := ih
      exact ⟨b,.link hd hs hl (.inl hr) hb,hend⟩

theorem locate_unfollowed (h : fs.locate true p = .ok a) :
    ∃ b, fs.locate false p = .ok b ∧ (b = a ∨ ∃ target, fs.get? b = some (.link target)) := by
  obtain ⟨hnul,hne,hlength,hw⟩ := locate_eq_ok.mp h
  obtain ⟨b,hb,hend⟩ := hw.unfollowed
  exact ⟨b,locate_eq_ok.mpr ⟨hnul,hne,hlength,hb⟩,hend⟩

theorem Leads.eq_of_stay
    (h : fs.Leads follow budget here (List.replicate k .stay) a) : a = here := by
  induction k with
  | zero => cases h; rfl
  | succ k ih => cases h with | stay _ h => exact ih h

theorem Leads.of_append_stay
    (h : fs.Leads true budget here (steps ++ List.replicate k .stay) a) :
    fs.Leads true budget here steps a := by
  cases k with
  | zero => rwa [List.replicate_zero, List.append_nil] at h
  | succ k =>
    obtain ⟨between,left,hfront,hback⟩ := h.split (by simp)
    rwa [hback.eq_of_stay]

/-- What a path with a slash at its end leads to is a directory. -/
theorem isDirectoryAt_of_slash (hslash : p.text.toList.getLast? = some '/')
    (h : fs.locate true p = .ok a) : fs.isDirectoryAt a := by
  obtain ⟨init,hinit⟩ := List.getLast?_eq_some_iff.mp hslash
  have hsteps : Step.ofText p.text = (List.splitOn '/' init).map Step.ofPiece ++ [.stay] := by
    rw [Step.ofText, hinit, List.splitOn_append_cons_self, List.map_append]
    rfl
  obtain ⟨-,-,-,hw⟩ := locate_eq_ok.mp h
  rw [hsteps] at hw
  obtain ⟨between,left,-,hlast⟩ := hw.split (by simp)
  cases hlast with
  | stay hd hw =>
    cases hw
    exact hd

/-- The slashes at the end of a path are steps that stay. -/
theorem exists_unslashed (p : Path) :
    ∃ n, p.text.toList = p.unslashed.text.toList ++ List.replicate n '/' ∧
      Step.ofText p.text = Step.ofText p.unslashed.text ++ List.replicate n .stay := by
  obtain ⟨n,hn⟩ := p.toList_unslashed
  refine ⟨n,hn,?_⟩
  rw [Step.ofText, hn, Text.splitOn_append_replicate, List.map_append, List.map_replicate]
  rfl

/-- The slashes at the end of a path make no difference to where it leads. -/
theorem locate_unslashed (h : fs.locate true p = .ok a)
    (hne : p.unslashed.text ≠ "") : fs.locate true p.unslashed = .ok a := by
  obtain ⟨hnul,-,hlength,hw⟩ := locate_eq_ok.mp h
  obtain ⟨n,hn,hsteps⟩ := exists_unslashed p
  have htext : p.text = p.unslashed.text ++ String.ofList (List.replicate n '/') :=
    String.toList_inj.mp (by rw [hn, String.toList_append, String.toList_ofList])
  obtain ⟨hnul,hlength⟩ := fits_of_append htext hnul hlength
  refine locate_eq_ok.mpr ⟨hnul,hne,hlength,?_⟩
  rw [hsteps, startOf_append (mt String.toList_eq_nil_iff.mp hne) hn] at hw
  exact hw.of_append_stay

theorem exists_locateName (h : fs.locate true p = .ok a) (ha : fs.get? a ≠ none) :
    ∃ b, fs.locateName p = .ok b ∧ fs.get? b ≠ none := by
  have hall {q : Path} (h : fs.locate true q = .ok a) :
      ∃ b, fs.locate false q = .ok b ∧ fs.get? b ≠ none := by
    obtain ⟨b,hb,rfl | ⟨target,hl⟩⟩ := locate_unfollowed h
    · exact ⟨b,hb,ha⟩
    · exact ⟨b,hb,by simp [hl]⟩
  obtain ⟨hnul,-,hlength,-⟩ := locate_eq_ok.mp h
  obtain ⟨b,hb,hn⟩ : ∃ b, fs.locate false (if p.unslashed.text = "" then p else p.unslashed) =
      .ok b ∧ fs.get? b ≠ none := by
    split
    next => exact hall h
    next hne => exact hall (locate_unslashed h hne)
  exact ⟨b,locateName_eq_ok.mpr ⟨hnul,hlength,hb⟩,hn⟩

theorem Leads.append_stay (h : fs.Leads true budget here steps a)
    (ht : fs.IsTree) (hd : fs.isDirectoryAt a) (k : Nat) :
    fs.Leads true budget here (steps ++ List.replicate k .stay) a := by
  obtain ⟨left,hwalk⟩ := h.walk_append
  cases k with
  | zero => rwa [List.replicate_zero, List.append_nil]
  | succ k =>
    have hstay : GoesDown (List.replicate (k + 1) .stay) :=
      ⟨by simp,fun name hm => (nomatch List.eq_of_mem_replicate hm)⟩
    have hend : fs.walk true left a (List.replicate (k + 1) .stay ++ []) =
        fs.walk true left ((List.replicate (k + 1) .stay).foldl Step.follow a) [] :=
      walk_down ht hstay (by rwa [foldl_stay]) []
    rw [List.append_nil, foldl_stay, walk] at hend
    exact leads_of_walk (by rw [hwalk true _ (by simp), hend])

theorem startOf_eq (text : String) (here : Address) :
    startOf text here = if (Path.start text.toList).1 = .root then [] else here := by
  simp only [startOf, Path.start_eq_root_iff]

/-- Where a path goes on from a directory by nothing but a name, the path above it leads to that
directory, unless there is none to speak of. -/
theorem GoesOn.parent_of_idle (h : fs.GoesOn p root (List.replicate k .stay ++ [.enter name]))
    (ht : fs.IsTree) : ∃ q, p.parent? = some q ∧
      (q.ancestors.dropLast = [] ∨ fs.locate true q = .ok root) := by
  obtain ⟨front,hsteps,hw⟩ := h.front
  have hall := hw.append_stay ht h.directory k
  have hname : Step.enter name ≠ .stay := by simp
  rw [← List.append_assoc] at hsteps
  rcases Path.idle_or_step (front ++ List.replicate k .stay) with ⟨j,hj⟩ | ⟨above,step,j,hs,hj⟩
  · -- the path has no other step: what is above it is where it starts
    rw [hj] at hsteps hall
    have hanc := Path.ancestors_of_idle hname hsteps
    refine ⟨⟨String.ofList (Path.start p.text.toList).1.text⟩,by rw [Path.parent?, hanc]; rfl,?_⟩
    have hroot := hall.eq_of_stay
    rw [startOf_eq] at hroot
    cases hstart : (Path.start p.text.toList).1 <;> rw [hstart] at hroot
    case root => exact .inl (by decide)
    case plain => exact .inl (by decide)
    case current =>
      refine .inr (locate_eq_ok.mpr ⟨by decide,by decide,by decide,?_⟩)
      have hdot : Step.ofText "." = [.stay] := by decide
      have hd := h.directory
      rw [if_neg (by simp)] at hroot
      rw [hroot] at hd ⊢
      exact hdot ▸ .stay hd .nil
  · rw [hj] at hsteps hall
    obtain ⟨q,hq,hqsteps,rest,htext⟩ := Path.exists_above hs hname hsteps
    obtain ⟨hnul,hlength⟩ := fits_of_append htext h.hasNul h.length
    have hne := Path.text_ne_of_step hqsteps hs
    have hstart : startOf p.text fs.current = startOf q.text fs.current :=
      startOf_append hne (by rw [htext, String.toList_append]) fs.current
    refine ⟨q,?_,.inr (locate_eq_ok.mpr ⟨hnul,mt String.toList_eq_nil_iff.mpr hne,hlength,?_⟩)⟩
    · rw [Path.parent?, hq, Path.ancestors_eq q]
      rfl
    · rw [hqsteps, ← hstart]
      exact hall.of_append_stay

end FileSystem
end GitPublish
