import GitPublish.Proofs.FileSystem.Listed

/-!
# Paths below a directory

A relative path that is put behind the path of a directory goes on from there by its own steps.
-/
namespace GitPublish
open FileSystem

/-- Where a path leads from a directory when no link is on the way. -/
def Path.under (p : Path) (root : Address) : Address :=
  (Step.ofText p.text).foldl Step.follow root

/-- A path that a system can be given: it has no NUL, and neither it nor its names are too long. -/
structure Path.Fits (p : Path) : Prop where
  noNul : p.hasNul = false
  length : p.text.utf8ByteSize < pathLimit
  names : ∀ name, .enter name ∈ Step.ofText p.text → name.utf8ByteSize ≤ nameLimit

namespace Path
variable {p q : Path} {root way init : Address} {name : String}

theorem fits_iff : p.Fits ↔ p.hasNul = false ∧ p.text.utf8ByteSize < pathLimit ∧
    (Step.ofText p.text).all fun
      | .enter name => name.utf8ByteSize ≤ nameLimit
      | _ => true := by
  rw [List.all_eq_true]
  refine ⟨fun ⟨hnul,hlength,hnames⟩ => ⟨hnul,hlength,fun step hs => ?_⟩,
    fun ⟨hnul,hlength,hsteps⟩ => ⟨hnul,hlength,fun name hname => ?_⟩⟩
  · cases step with
    | enter name => exact decide_eq_true (hnames name hs)
    | stay | up => rfl
  · exact of_decide_eq_true (hsteps _ hname)

instance : DecidablePred Fits := fun p => decidable_of_iff' _ p.fits_iff

theorem empty_div (p : Path) : (⟨""⟩ / p : Path) = p := by
  change join ⟨""⟩ p = p
  simp [join]

theorem ofText_of_slash {text front : String} (h : text.toList = front.toList ++ ['/']) :
    Step.ofText text = Step.ofText front ++ [.stay] :=
  ofText_append (r := "") h

theorem exists_ofText_div (hq : q.isAbsolute = false) (p : Path) :
    ∃ front k rest, (p / q).text = p.text ++ rest ∧
      Step.ofText (p / q).text = front ++ Step.ofText q.text ∧
      Step.ofText p.text = front ++ List.replicate k .stay := by
  have hstay : Step.ofText "" = [.stay] := by decide
  change ∃ front k rest, (p.join q).text = p.text ++ rest ∧
    Step.ofText (p.join q).text = front ++ Step.ofText q.text ∧ _
  unfold join
  rw [hq, Bool.false_or]
  split
  next hempty =>
    rw [String.isEmpty_iff] at hempty
    rw [hempty]
    exact ⟨[],1,q.text,String.empty_append.symm,rfl,hstay⟩
  next =>
    split
    next hslash =>
      obtain ⟨init,hinit⟩ := List.getLast?_eq_some_iff.mp hslash
      rw [← String.toList_ofList (l := init)] at hinit
      refine ⟨Step.ofText (String.ofList init),1,q.text,rfl,?_,ofText_of_slash hinit⟩
      refine ofText_append ?_
      rw [String.toList_append, hinit, List.append_assoc]
      rfl
    next =>
      refine ⟨Step.ofText p.text,0,"/" ++ q.text,String.append_assoc,?_,(List.append_nil _).symm⟩
      refine ofText_append ?_
      rw [String.toList_append, String.toList_append, List.append_assoc]
      rfl

theorem under_div (hq : q.isAbsolute = false) (p : Path) (root : Address) :
    (p / q).under root = q.under (p.under root) := by
  obtain ⟨front,k,-,-,hsteps,hp⟩ := exists_ofText_div hq p
  rw [under, under, under, hsteps, hp, List.foldl_append, List.foldl_append, foldl_stay]

theorem under_pathOf (hne : way ≠ []) (hn : ∀ name ∈ way, IsName name) (root : Address) :
    (pathOf way).under root = root ++ way := by
  rw [under, ofText_pathOf hne hn, foldl_enter]

theorem Descends.prefix_under (h : p.Descends) (root : Address) : root <+: p.under root :=
  prefix_foldl_follow root h.up

/-- A way behind a path ends in its last name, below where the path and the other names lead. -/
theorem exists_steps_div (hn : ∀ n ∈ init ++ [name], IsName n) (p : Path) :
    ∃ steps, Step.ofText (p / pathOf (init ++ [name])).text = steps ++ [.enter name] ∧
      ∀ root, steps.foldl Step.follow root = p.under root ++ init := by
  obtain ⟨front,k,-,-,hsteps,hp⟩ := exists_ofText_div (descends_pathOf hn).relative p
  rw [ofText_pathOf (by simp) hn, List.map_append, ← List.append_assoc] at hsteps
  refine ⟨front ++ init.map .enter,hsteps,fun root => ?_⟩
  rw [List.foldl_append, foldl_enter, under, hp, List.foldl_append, foldl_stay]

/-- Ways behind a path are told apart by what they make of it. -/
theorem nodup_div (p : Path) {ways : List Address} (hw : ways.Nodup)
    (hn : ∀ way ∈ ways, way ≠ [] ∧ ∀ name ∈ way, IsName name) :
    (ways.map fun way => p / pathOf way).Nodup := by
  have hunder {way : Address} (hway : way ∈ ways) :
      (p / pathOf way).under [] = p.under [] ++ way := by
    obtain ⟨hne,hnames⟩ := hn way hway
    rw [under_div (descends_pathOf hnames).relative, under_pathOf hne hnames]
  refine List.pairwise_map.mpr (hw.imp_of_mem fun {way way'} hway hway' hne heq => hne ?_)
  have h := congrArg (fun q => under q []) heq
  simp only [hunder hway, hunder hway'] at h
  exact List.append_cancel_left h

end Path

namespace FileSystem
variable {fs : FileSystem} {p q : Path} {root : Address}

/-- A path that leads somewhere can be given to a system. -/
theorem fits_of_locate {a : Address} {follow : Bool} (h : fs.locate follow p = .ok a) :
    p.Fits := by
  obtain ⟨hnul,-,hlength,hleads⟩ := locate_eq_ok.mp h
  exact ⟨hnul,hlength,fun _ => hleads.name_le⟩

/-- A path that goes nowhere up goes on from a directory when it is put behind the path of the
directory. -/
theorem goesOn_div (hl : fs.locate true p = .ok root) (hd : fs.isDirectoryAt root)
    (hq : q.Descends) (hfit : (p / q).Fits) : fs.GoesOn (p / q) root (Step.ofText q.text) := by
  obtain ⟨-,hne,-,hw⟩ := locate_eq_ok.mp hl
  obtain ⟨front,k,rest,htext,hsteps,hp⟩ := Path.exists_ofText_div hq.relative p
  have hdown : GoesDown (Step.ofText q.text) :=
    ⟨hq.up,fun name hname => hfit.names name (hsteps ▸ List.mem_append_right front hname)⟩
  refine ⟨hfit.noNul,hfit.length,hd,hdown,front,hsteps,?_⟩
  rw [hp] at hw
  rw [startOf_append (mt String.toList_eq_nil_iff.mp hne) (by rw [htext, String.toList_append])]
  exact hw.of_append_stay

theorem startOf_absolute (h : p.isAbsolute) (here : Address) : startOf p.text here = [] :=
  if_pos (eq_of_beq h)

theorem goesOn_root (ht : fs.IsTree) (ha : p.isAbsolute) (hup : .up ∉ Step.ofText p.text)
    (hfit : p.Fits) : fs.GoesOn p [] (Step.ofText p.text) :=
  ⟨hfit.noNul,hfit.length,ht.root,⟨hup,hfit.names⟩,[],rfl,startOf_absolute ha _ ▸ .nil⟩

/-- A path that starts at the root and goes down to a name leads there, whatever has that name but a
link. -/
theorem locate_name {steps : List Step} {name : String} (ht : fs.IsTree) (ha : p.isAbsolute)
    (hup : .up ∉ Step.ofText p.text) (hfit : p.Fits)
    (hs : Step.ofText p.text = steps ++ [.enter name])
    (hd : fs.isDirectoryAt (steps.foldl Step.follow []))
    (hl : ∀ target, fs.get? (steps.foldl Step.follow [] ++ [name]) ≠ some (.link target))
    (follow : Bool) : fs.locate follow p = .ok (steps.foldl Step.follow [] ++ [name]) := by
  have hgoes := goesOn_root ht ha hup hfit
  rw [hs] at hgoes
  exact hgoes.locate_entry ht hd hl follow

/-- A path that starts at the root and goes nowhere up leads down to a directory. -/
theorem locate_directory (ht : fs.IsTree) (ha : p.isAbsolute) (hup : .up ∉ Step.ofText p.text)
    (hfit : p.Fits) (hd : fs.isDirectoryAt (p.under [])) : fs.locate true p = .ok (p.under []) := by
  have hwalk : fs.walk true linkLimit [] (Step.ofText p.text ++ []) = _ :=
    walk_down ht ⟨hup,hfit.names⟩ hd []
  rw [List.append_nil, walk] at hwalk
  refine locate_eq_ok.mpr ⟨hfit.noNul,Path.text_ne_of_isAbsolute ha,hfit.length,?_⟩
  rw [startOf_absolute ha]
  exact leads_of_walk hwalk

end FileSystem
end GitPublish
