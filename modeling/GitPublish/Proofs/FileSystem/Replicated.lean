import GitPublish.Proofs.FileSystem.Making

/-!
# Copies of files

Files that are found below one directory are copied to below another one by one. A copy changes the
address of its target and makes directories where they are missing above it. So copies do not
disturb each other if none of their targets lies above another, and they leave the files that they
are copies of alone if those lie elsewhere.
-/
namespace GitPublish

namespace FileSystem
variable {fs fs' fs'' : FileSystem} {src base a b way way' init : Address} {ways : List Address}
  {name : String} {e : Entry}

/-- Files are copied from below `src` to below `base`, by the ways on which they are found there,
and nothing else is done but that directories are made where they are missing above the copies. -/
structure Replicated (src base : Address) (ways : List Address) (fs fs' : FileSystem) : Prop where
  current : fs'.current = fs.current
  files : ∀ way ∈ ways, fs'.get? (base ++ way) = fs.get? (src ++ way)
  above : ∀ way ∈ ways, ∀ b, b <+: base ++ way → b ≠ base ++ way →
    fs'.get? b = (fs.get? b).or (some (.directory 0o755))
  elsewhere : ∀ b, (∀ way ∈ ways, ¬ b <+: base ++ way) → fs'.get? b = fs.get? b

theorem Replicated.nil (src base : Address) (fs : FileSystem) : Replicated src base [] fs fs where
  current := rfl
  files _ h := nomatch h
  above _ h := nomatch h
  elsewhere _ _ := rfl

/-- Neither of two ways goes on from the other. -/
def Diverge (way way' : Address) : Prop := ¬ way <+: way' ∧ ¬ way' <+: way

instance : Decidable (Diverge way way') := inferInstanceAs (Decidable (_ ∧ _))

/-- Nothing below the one directory is above anything below the other. -/
theorem not_prefix_of_apart (ha : Diverge src base) (way way' : Address) :
    ¬ src ++ way <+: base ++ way' := by
  intro h
  rcases List.prefix_or_prefix_of_prefix ((List.prefix_append src way).trans h)
    (List.prefix_append base way') with hsb | hbs
  · exact ha.1 hsb
  · exact ha.2 hbs

/-- Where the directories above are made first, the copy of a file is found afterwards. -/
theorem Made.replicated (h : Made 0o755 (base ++ init) fs fs')
    (he : fs.get? (src ++ (init ++ [name])) = some e) :
    Replicated src base [init ++ [name]] fs (fs'.put (base ++ (init ++ [name])) e) where
  current := h.current
  files way hway := by
    rw [List.mem_singleton.mp hway, get?_put_self, he]
  above way hway b hb hne := by
    rw [List.mem_singleton.mp hway] at hb hne
    have habove : b <+: base ++ init := by
      rw [← List.append_assoc, List.prefix_concat_iff, List.append_assoc] at hb
      exact hb.resolve_left hne
    rw [get?_put_of_ne _ _ hne, h.get?, if_pos habove]
  elsewhere b hb := by
    have hout := hb _ (List.mem_singleton_self _)
    have hne : b ≠ base ++ (init ++ [name]) := fun heq => hout (heq ▸ List.prefix_refl b)
    have habove : ¬ b <+: base ++ init := by
      rw [← List.append_assoc, List.prefix_concat_iff] at hout
      exact fun hp => hout (.inr hp)
    rw [get?_put_of_ne _ _ hne, h.get?, if_neg habove]

theorem Replicated.get?_source (h : Replicated src base ways fs fs') (ha : Diverge src base)
    (way : Address) : fs'.get? (src ++ way) = fs.get? (src ++ way) :=
  h.elsewhere _ fun way' _ => not_prefix_of_apart ha way way'

/-- Behind the copy of one file, the others are copied as if it had not been. -/
theorem Replicated.cons (h : Replicated src base [way] fs fs')
    (k : Replicated src base ways fs' fs'') (ha : Diverge src base)
    (hd : ∀ way' ∈ ways, Diverge way way') : Replicated src base (way :: ways) fs fs'' where
  current := k.current.trans h.current
  files way' hway := by
    rcases List.mem_cons.mp hway with rfl | hway
    · have hkept := k.elsewhere (base ++ way') fun other ho =>
        fun hp => (hd other ho).1 ((List.prefix_append_right_inj base).mp hp)
      rw [hkept, h.files way' (List.mem_singleton_self _)]
    · rw [k.files way' hway, h.get?_source ha]
  above way' hway b hb hne := by
    have hfirst : b <+: base ++ way →
        fs'.get? b = (fs.get? b).or (some (.directory 0o755)) := by
      refine fun hb' => h.above way (List.mem_singleton_self _) b hb' ?_
      rintro rfl
      rcases List.mem_cons.mp hway with rfl | hway
      · exact hne rfl
      · exact (hd way' hway).1 ((List.prefix_append_right_inj base).mp hb)
    rcases List.mem_cons.mp hway with rfl | hway
    · by_cases hall : ∀ other ∈ ways, ¬ b <+: base ++ other
      · rw [k.elsewhere b hall, hfirst hb]
      · -- what is above two targets is made for the first of them
        obtain ⟨other,ho,hbo⟩ : ∃ other ∈ ways, b <+: base ++ other := by simpa using hall
        have hne' : b ≠ base ++ other := by
          rintro rfl
          exact (hd other ho).2 ((List.prefix_append_right_inj base).mp hb)
        rw [k.above other ho b hbo hne', hfirst hb, Option.or_assoc, Option.or_self]
    · rw [k.above way' hway b hb hne]
      by_cases hb' : b <+: base ++ way
      · rw [hfirst hb', Option.or_assoc, Option.or_self]
      · rw [h.elsewhere b fun other ho => List.mem_singleton.mp ho ▸ hb']
  elsewhere b hb := by
    have hway := hb way (List.mem_cons_self ..)
    rw [k.elsewhere b fun other ho => hb other (List.mem_cons_of_mem way ho)]
    exact h.elsewhere b fun other ho => List.mem_singleton.mp ho ▸ hway

end FileSystem
end GitPublish
