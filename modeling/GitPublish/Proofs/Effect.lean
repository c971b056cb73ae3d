/-!
# How effects run

An effect takes a state to a result, which may be a failure, and to the state it leaves. The rules
below say what each way of building effects does to a state, so that no proof opens the monad again.
What all parts of an effect may do to a state at most, the whole does at most as well; and what no
part of it sees, the whole does not see.
-/
namespace GitPublish
variable {ε σ α β : Type}

@[simp] theorem mapError_ok {ε' : Type} (f : ε → ε') (a : α) :
    (Except.ok a).mapError f = .ok a := rfl

theorem mapError_error {ε' : Type} (f : ε → ε') (e : ε) :
    (Except.error e : Except ε α).mapError f = .error (f e) := rfl

@[simp] theorem run_pure (a : α) (s : σ) :
    (pure a : ExceptT ε (StateM σ) α).run s = (.ok a, s) := rfl

@[simp] theorem run_throw (e : ε) (s : σ) :
    (throw e : ExceptT ε (StateM σ) α).run s = (.error e, s) := rfl

@[simp] theorem run_get (s : σ) : (get : ExceptT ε (StateM σ) σ).run s = (.ok s, s) := rfl

@[simp] theorem run_set (s t : σ) :
    (set t : ExceptT ε (StateM σ) PUnit).run s = (.ok ⟨⟩, t) := rfl

@[simp] theorem run_modify (f : σ → σ) (s : σ) :
    (modify f : ExceptT ε (StateM σ) PUnit).run s = (.ok ⟨⟩, f s) := rfl

@[simp] theorem run_liftExcept (result : Except ε α) (s : σ) :
    (liftM result : ExceptT ε (StateM σ) α).run s = (result, s) := by
  cases result <;> rfl

theorem run_bind (w : ExceptT ε (StateM σ) α) (f : α → ExceptT ε (StateM σ) β) (s : σ) :
    (w >>= f).run s = match w.run s with
      | (.ok a, t) => (f a).run t
      | (.error e, t) => (.error e, t) := by
  change (ExceptT.bindCont f (w.run s).1) (w.run s).2 = _
  rcases w.run s with ⟨_ | _, _⟩ <;> rfl

theorem run_bind_ok {w : ExceptT ε (StateM σ) α} {f : α → ExceptT ε (StateM σ) β} {s t : σ} {a : α}
    (h : w.run s = (.ok a, t)) : (w >>= f).run s = (f a).run t := by
  rw [run_bind, h]

theorem run_bind_error {w : ExceptT ε (StateM σ) α} {f : α → ExceptT ε (StateM σ) β} {s t : σ}
    {e : ε} (h : w.run s = (.error e, t)) : (w >>= f).run s = (.error e, t) := by
  rw [run_bind, h]

theorem run_tryCatch (w : ExceptT ε (StateM σ) α) (handler : ε → ExceptT ε (StateM σ) α) (s : σ) :
    (tryCatch w handler).run s = match w.run s with
      | (.ok a, t) => (.ok a, t)
      | (.error e, t) => (handler e).run t := by
  unfold ExceptT.run tryCatch instMonadExceptOfMonadExceptOf
  simp only [tryCatchThe, MonadExceptOf.tryCatch, ExceptT.tryCatch, ExceptT.mk, bind, StateT.bind]
  cases w s with
  | mk result t => cases result <;> rfl

/-- An effect of two parts succeeds only if both do. -/
theorem ok_of_run_bind {w : ExceptT ε (StateM σ) α} {f : α → ExceptT ε (StateM σ) β} {s t : σ}
    {b : β} (h : (w >>= f).run s = (.ok b, t)) :
    ∃ a u, w.run s = (.ok a, u) ∧ (f a).run u = (.ok b, t) := by
  rw [run_bind] at h
  rcases hw : w.run s with ⟨e | a, u⟩ <;> rw [hw] at h
  · cases (Prod.mk.inj h).1
  · exact ⟨a,u,rfl,h⟩

theorem ok_of_run_mapM_cons {f : α → ExceptT ε (StateM σ) β} {a : α} {l : List α} {s t : σ}
    {bs : List β} (h : ((a :: l).mapM f).run s = (.ok bs, t)) :
    ∃ b u rest, (f a).run s = (.ok b, u) ∧ (l.mapM f).run u = (.ok rest, t) ∧ bs = b :: rest := by
  rw [List.mapM_cons] at h
  obtain ⟨b,u,ha,h⟩ := ok_of_run_bind h
  obtain ⟨rest,v,hl,h⟩ := ok_of_run_bind h
  obtain ⟨hbs,rfl⟩ := Prod.mk.inj h
  exact ⟨b,u,rest,ha,hl,(Except.ok.inj hbs).symm⟩

/-- Effects that each leave the state leave it all together. -/
theorem run_mapM_of_leaves {f : α → ExceptT ε (StateM σ) β} {g : α → β} {l : List α} {s : σ}
    (hf : ∀ a ∈ l, (f a).run s = (.ok (g a), s)) : (l.mapM f).run s = (.ok (l.map g), s) := by
  induction l with
  | nil => rfl
  | cons a l ih =>
    obtain ⟨ha,hl⟩ := List.forall_mem_cons.mp hf
    rw [List.mapM_cons, run_bind_ok ha, run_bind_ok (ih hl)]
    rfl

/-- Results that each follow from what they are made of. -/
theorem eq_map_of_run_mapM {f : α → ExceptT ε (StateM σ) β} {g : α → β} {l : List α}
    (hf : ∀ a s b t, (f a).run s = (.ok b, t) → b = g a) {s t : σ} {bs : List β}
    (h : (l.mapM f).run s = (.ok bs, t)) : bs = l.map g := by
  induction l generalizing s bs with
  | nil => exact (Except.ok.inj (Prod.mk.inj h).1).symm
  | cons a l ih =>
    obtain ⟨b,u,rest,ha,hl,rfl⟩ := ok_of_run_mapM_cons h
    rw [hf a s b u ha, ih hl, List.map_cons]

/-- What holds of each result at the end of a row of effects, if each effect brings it about for its
own result and leaves it to the others. -/
theorem forall_of_run_mapM {f : α → ExceptT ε (StateM σ) β} {I : σ → Prop} {P : β → σ → Prop}
    {l : List α} (hf : ∀ a ∈ l, ∀ s b t, I s → (f a).run s = (.ok b, t) →
      I t ∧ P b t ∧ ∀ b', P b' s → P b' t) {s t : σ} {bs : List β} (hs : I s)
    (h : (l.mapM f).run s = (.ok bs, t)) : (∀ b ∈ bs, P b t) ∧ ∀ b, P b s → P b t := by
  -- what an effect brings about has to outlast all that follow it
  induction l generalizing s bs with
  | nil =>
    obtain ⟨hbs,rfl⟩ := Prod.mk.inj h
    rw [← Except.ok.inj hbs]
    exact ⟨fun b hb => (nomatch hb),fun _ hb => hb⟩
  | cons a l ih =>
    obtain ⟨b,u,rest,ha,hl,rfl⟩ := ok_of_run_mapM_cons h
    obtain ⟨hu,hb,hkeep⟩ := hf a (List.mem_cons_self ..) s b u hs ha
    obtain ⟨hrest,hkeeps⟩ := ih (fun a' ha' => hf a' (List.mem_cons_of_mem a ha')) hu hl
    refine ⟨fun b' hb' => ?_,fun b' hb' => hkeeps b' (hkeep b' hb')⟩
    rcases List.mem_cons.mp hb' with rfl | hb'
    · exact hkeeps b' hb
    · exact hrest b' hb'

/-- What may become of a state: nothing, or one such change behind another. -/
structure Change (σ : Type) where
  allows : σ → σ → Prop
  refl (s : σ) : allows s s
  trans {s t u : σ} : allows s t → allows t u → allows s u

variable {R : Change σ}

/-- An effect that changes a state in no other way, whatever its result. -/
def Within (R : Change σ) (w : ExceptT ε (StateM σ) α) : Prop := ∀ s, R.allows s (w.run s).2

theorem within_pure (a : α) : Within R (pure a : ExceptT ε (StateM σ) α) := R.refl

theorem within_throw (e : ε) : Within R (throw e : ExceptT ε (StateM σ) α) := R.refl

theorem within_get : Within R (get : ExceptT ε (StateM σ) σ) := R.refl

/-- The second effect has to be within bounds only for what the first can result in. -/
theorem Within.bind_of {w : ExceptT ε (StateM σ) α} {f : α → ExceptT ε (StateM σ) β}
    (hw : Within R w) (hf : ∀ a s t, w.run s = (.ok a, t) → Within R (f a)) :
    Within R (w >>= f) := by
  intro s
  have h := hw s
  rw [run_bind]
  rcases hr : w.run s with ⟨e | a, t⟩ <;> rw [hr] at h
  · exact h
  · exact R.trans h (hf a s t hr t)

theorem Within.bind {w : ExceptT ε (StateM σ) α} {f : α → ExceptT ε (StateM σ) β}
    (hw : Within R w) (hf : ∀ a, Within R (f a)) : Within R (w >>= f) :=
  hw.bind_of fun a _ _ _ => hf a

theorem Within.tryCatch {w : ExceptT ε (StateM σ) α} {handler : ε → ExceptT ε (StateM σ) α}
    (hw : Within R w) (hh : ∀ e, Within R (handler e)) : Within R (tryCatch w handler) := by
  intro s
  have h := hw s
  rw [run_tryCatch]
  rcases hr : w.run s with ⟨e | a, t⟩ <;> rw [hr] at h
  · exact R.trans h (hh e t)
  · exact h

theorem Within.mapM {f : α → ExceptT ε (StateM σ) β} {l : List α}
    (hf : ∀ a ∈ l, Within R (f a)) : Within R (l.mapM f) := by
  induction l with
  | nil => simpa only [List.mapM_nil] using within_pure []
  | cons a l ih =>
    rw [List.mapM_cons]
    have ha := hf a (List.mem_cons_self ..)
    have hl := ih fun b hb => hf b (List.mem_cons_of_mem a hb)
    exact ha.bind fun b => hl.bind fun bs => within_pure _

theorem Within.forM {f : α → ExceptT ε (StateM σ) PUnit} {l : List α}
    (hf : ∀ a ∈ l, Within R (f a)) : Within R (l.forM f) := by
  induction l with
  | nil => exact within_pure _
  | cons a l ih =>
    have hl := ih fun b hb => hf b (List.mem_cons_of_mem a hb)
    exact (hf a (List.mem_cons_self ..)).bind fun _ => hl

/-! ## Effects that do not see a change of the state -/

variable {f : σ → σ} {I : σ → Prop}

/-- An effect that comes to the same from a changed state, as long as states are what they have to
be. The state that it leaves is the one it would leave, with the same change. -/
def Unaware (f : σ → σ) (I : σ → Prop) (w : ExceptT ε (StateM σ) α) : Prop :=
  ∀ s, I s → w.run (f s) = ((w.run s).1, f (w.run s).2) ∧ I (w.run s).2

theorem unaware_pure (a : α) : Unaware f I (pure a : ExceptT ε (StateM σ) α) :=
  fun _ hs => ⟨rfl,hs⟩

theorem unaware_throw (e : ε) : Unaware f I (throw e : ExceptT ε (StateM σ) α) :=
  fun _ hs => ⟨rfl,hs⟩

theorem Unaware.run_eq {w : ExceptT ε (StateM σ) α} {s t : σ} {result : Except ε α}
    (hw : Unaware f I w) (hs : I s) (h : w.run s = (result, t)) : w.run (f s) = (result, f t) := by
  rw [(hw s hs).1, h]

theorem Unaware.holds {w : ExceptT ε (StateM σ) α} {s t : σ} {result : Except ε α}
    (hw : Unaware f I w) (hs : I s) (h : w.run s = (result, t)) : I t := by
  have hi := (hw s hs).2
  rwa [h] at hi

theorem Unaware.bind {w : ExceptT ε (StateM σ) α} {g : α → ExceptT ε (StateM σ) β}
    (hw : Unaware f I w) (hg : ∀ a, Unaware f I (g a)) : Unaware f I (w >>= g) := by
  intro s hs
  rcases hr : w.run s with ⟨e | a, t⟩
  · rw [run_bind_error hr, run_bind_error (hw.run_eq hs hr)]
    exact ⟨rfl,hw.holds hs hr⟩
  · rw [run_bind_ok hr, run_bind_ok (hw.run_eq hs hr)]
    exact hg a t (hw.holds hs hr)

theorem Unaware.mapM {g : α → ExceptT ε (StateM σ) β} {l : List α}
    (hg : ∀ a ∈ l, Unaware f I (g a)) : Unaware f I (l.mapM g) := by
  induction l with
  | nil => simpa only [List.mapM_nil] using unaware_pure []
  | cons a l ih =>
    rw [List.mapM_cons]
    have ha := hg a (List.mem_cons_self ..)
    have hl := ih fun b hb => hg b (List.mem_cons_of_mem a hb)
    exact ha.bind fun b => hl.bind fun bs => unaware_pure _

end GitPublish
