import GitPublish.Proofs.Program

/-!
# How much is said

The flags for more and for fewer messages change what is written on the error output, and nothing
else. The lines that are written under one level are found among those of the next, in their order,
and warnings, errors and hints are among them all.
-/
namespace GitPublish

namespace Text

/-- The lines of a text, and what stands behind the last of them. -/
def lines (text : String) : List (List Char) := List.splitOn '\n' text.toList

theorem lines_append (line rest : String) :
    lines (line ++ "\n" ++ rest) = lines line ++ lines rest := by
  simpa [lines] using List.splitOn_append_cons_self line.toList rest.toList

end Text

namespace Report
variable {colour : Bool} {xs ys : List Report}

theorem exists_line (colour : Bool) (r : Report) : ∃ text, r.line colour = text ++ "\n" := by
  cases r <;> exact ⟨_,rfl⟩

/-- Fewer reports make fewer lines, in the same order. -/
theorem lines_sublist (h : xs.Sublist ys) :
    (Text.lines (String.join (xs.map (line colour)))).Sublist
      (Text.lines (String.join (ys.map (line colour)))) := by
  induction h with
  | slnil => exact List.Sublist.refl _
  | @cons xs ys r _ ih =>
    obtain ⟨text,hr⟩ := exists_line colour r
    rw [List.map_cons, String.join_cons, hr, Text.lines_append]
    exact ih.trans (List.sublist_append_right _ _)
  | @cons_cons xs ys r _ ih =>
    obtain ⟨text,hr⟩ := exists_line colour r
    rw [List.map_cons, List.map_cons, String.join_cons, String.join_cons, hr, Text.lines_append,
      Text.lines_append]
    exact ih.append_left _

/-- Whether a report is a warning, the reason of a failure or a hint. -/
def isAlert : Report → Bool
  | warning _ | failure _ | hint _ => true
  | _ => false

theorem isAlert_eq (r : Report) : r.isAlert = (r.isAnswer == false && r.isMade .quiet) := by
  cases r <;> rfl

end Report

namespace Verbosity

@[simp] theorem ofFlags_quiet (verbose : Bool) : ofFlags verbose true = .quiet := rfl

/-- What is said under one level is said under another. -/
def Within (v w : Verbosity) : Prop := ∀ r : Report, r.isMade v → r.isMade w

theorem quiet_within (v : Verbosity) : quiet.Within v := by
  intro r h
  cases r <;> simp_all [Report.isMade]

theorem within_verbose (v : Verbosity) : v.Within verbose := by
  intro r h
  cases r <;> simp [Report.isMade]

theorem Within.shown_sublist {v w : Verbosity} (h : v.Within w) (colour answers : Bool)
    (reports : List Report) :
    (Text.lines (shown v colour answers reports)).Sublist
      (Text.lines (shown w colour answers reports)) := by
  refine Report.lines_sublist ?_
  have hfilter : (reports.filter fun r => r.isAnswer == answers && r.isMade v) =
      (reports.filter fun r => r.isAnswer == answers && r.isMade w).filter (·.isMade v) := by
    rw [List.filter_filter]
    refine List.filter_congr fun r _ => ?_
    have hr := h r
    grind
  rw [hfilter]
  exact List.filter_sublist

end Verbosity

/-- Answers are given whatever the level. -/
theorem shown_answers_eq (v w : Verbosity) (colour : Bool) (reports : List Report) :
    shown v colour true reports = shown w colour true reports := by
  have hfilter : (reports.filter fun r => r.isAnswer == true && r.isMade v) =
      reports.filter fun r => r.isAnswer == true && r.isMade w :=
    List.filter_congr fun r _ => by cases r <;> rfl
  rw [shown, shown, hfilter]

theorem shown_quiet (colour : Bool) (reports : List Report) :
    shown .quiet colour false reports =
      String.join ((reports.filter Report.isAlert).map (Report.line colour)) := by
  rw [shown, List.filter_congr fun r _ => r.isAlert_eq.symm]

namespace CommandLine
variable {env : Environment} {name : String} {place : Place} {args : List String}

def levelWords (verbose quiet : Bool) : List String :=
  (if verbose then ["--verbose"] else []) ++ (if quiet then ["--quiet"] else [])

def levelGiven (verbose quiet : Bool) : Given :=
  (if verbose then [(.verbose, "")] else []) ++ (if quiet then [(.quiet, "")] else [])

theorem readWords_level (verbose quiet : Bool) (words : List String) :
    readWords env .root {} (levelWords verbose quiet ++ words) =
      readWords env .root { given := levelGiven verbose quiet } words := by
  cases verbose <;> cases quiet <;> rfl

/-- What is given before a command is told beside what the command reads. -/
theorem readWords_command (h : Place.root.commands.lookup name = some place) (given : Given) :
    readWords env .root { given } (name :: args) =
      if place.isHelp then .error (helpPlace .root args)
      else (readWords env place {} args).map ((.root, given) :: ·) := by
  have hcommand : Reading.command? .root { given } name = some place := h
  rw [readWords, hcommand]
  dsimp only
  split
  · rfl
  · cases readWords env place {} args <;> rfl

theorem has_levelGiven (verbose quiet : Bool) :
    Given.has (levelGiven verbose quiet) .verbose = verbose ∧
      Given.has (levelGiven verbose quiet) .quiet = quiet := by
  cases verbose <;> cases quiet <;> exact ⟨rfl,rfl⟩

/-- The place behind the name of the program has no command of its own. -/
theorem command?_cons_root (given : Given) (inner : List (Place × Given)) :
    (((.root, given) :: inner).getLast?.bind fun (p, g) => Given.command? g p) =
      inner.getLast?.bind fun (p, g) => Given.command? g p := by
  cases inner with
  | nil => rfl
  | cons x inner => rw [List.getLast?_cons_cons]

/-- Flags in front of a command change the level, and not what is asked for. -/
theorem parse_level (h : Place.root.commands.lookup name = some place) (verbose quiet : Bool) :
    parse env (levelWords verbose quiet ++ name :: args) =
      (parse env (name :: args)).map fun i =>
        { i with verbose := verbose || i.verbose, quiet := quiet || i.quiet } := by
  unfold parse
  rw [readWords_level, readWords_command h, readWords_command h]
  split
  · rfl
  rcases readWords env place {} args with e | inner
  · rfl
  simp only [Except.map, bind, Except.bind]
  rw [command?_cons_root, command?_cons_root]
  have hnone (f : Field) : Given.has [] f = false := rfl
  obtain ⟨hverbose,hquiet⟩ := has_levelGiven verbose quiet
  cases inner.getLast?.bind fun (p, g) => Given.command? g p with
  | none => rfl
  | some command => simp [hverbose, hquiet, hnone, pure, Except.pure]

end CommandLine

open CommandLine (Invocation levelWords)

/-- A run with flags for the level in front of a command line. -/
def runAt (m : Machine) (colour : Bool) (words : List String) (verbose quiet : Bool) : Finished :=
  runProgram m colour (levelWords verbose quiet ++ words)

/-- What a command has to be told about, whatever the level. -/
def alerts (m : Machine) (colour : Bool) (command : CommandLine.Command) : String :=
  String.join (((execute m command).1.filter Report.isAlert).map (Report.line colour))

/-- The level of a command line changes the status messages, and nothing else. -/
structure Discreet (m : Machine) (colour : Bool) (words : List String) : Prop where
  effect : ∀ verbose quiet,
    let run := runAt m colour words verbose quiet
    let plain := runAt m colour words false false
    run.exitCode = plain.exitCode ∧ run.output = plain.output ∧ run.calls = plain.calls ∧
      run.files = plain.files
  both : runAt m colour words true true = runAt m colour words false true
  quiet : (Text.lines (runAt m colour words false true).errors).Sublist
    (Text.lines (runAt m colour words false false).errors)
  verbose : (Text.lines (runAt m colour words false false).errors).Sublist
    (Text.lines (runAt m colour words true false).errors)
  -- warnings, errors and hints are always written, and nothing else is under the lowest level
  alerts : ∀ i, CommandLine.parse m.environment words = .ok i → ∀ verbose quiet,
    (Text.lines (alerts m colour i.command)).Sublist
        (Text.lines (runAt m colour words verbose quiet).errors) ∧
      (quiet = true → (runAt m colour words verbose quiet).errors = alerts m colour i.command)
  -- flags may stand elsewhere, as long as the same is asked for
  elsewhere : ∀ words' i i' verbose quiet, CommandLine.parse m.environment words = .ok i →
    CommandLine.parse m.environment words' = .ok i' → i'.command = i.command →
    i'.verbosity = .ofFlags (verbose || i.verbose) (quiet || i.quiet) →
    runProgram m colour words' = runAt m colour words verbose quiet

section command
variable {m : Machine} {colour : Bool} {name : String} {place : CommandLine.Place}
  {args : List String} (h : CommandLine.Place.root.commands.lookup name = some place)
include h

theorem runAt_of_ok {i : Invocation}
    (hi : CommandLine.parse m.environment (name :: args) = .ok i) (verbose quiet : Bool) :
    runAt m colour (name :: args) verbose quiet =
      let v := Verbosity.ofFlags (verbose || i.verbose) (quiet || i.quiet)
      let done := execute m i.command
      { output := shown v colour true done.1, errors := shown v colour false done.1,
        exitCode := done.2.1, calls := done.2.2.calls, files := done.2.2.machine.files } := by
  have hparse : CommandLine.parse m.environment (levelWords verbose quiet ++ name :: args) = _ :=
    CommandLine.parse_level h verbose quiet
  rw [hi] at hparse
  exact runProgram_of_parse hparse colour

theorem runAt_of_error {e : CommandLine.UsageError}
    (he : CommandLine.parse m.environment (name :: args) = .error e) (verbose quiet : Bool) :
    runAt m colour (name :: args) verbose quiet = runProgram m colour (name :: args) := by
  have hparse : CommandLine.parse m.environment (levelWords verbose quiet ++ name :: args) = _ :=
    CommandLine.parse_level h verbose quiet
  rw [he] at hparse
  rw [runAt, runProgram, runProgram, hparse, he]
  rfl

end command

/-- Whatever a command is asked for, and whether it can be followed or not, the level changes what
is said about it on the way, and nothing else. -/
theorem level_discreet (m : Machine) (colour : Bool) (name : String) (place : CommandLine.Place)
    (args : List String) (h : CommandLine.Place.root.commands.lookup name = some place) :
    Discreet m colour (name :: args) := by
  rcases hparse : CommandLine.parse m.environment (name :: args) with e | i
  · have hsame : ∀ v q, runAt m colour (name :: args) v q = _ := runAt_of_error h hparse
    refine ⟨fun v q => by simp [hsame],by simp [hsame],by simp [hsame],by simp [hsame],?_,?_⟩
    · rintro i hi
      cases hparse.symm.trans hi
    · rintro _ i _ _ _ hi
      cases hparse.symm.trans hi
  have hrun : ∀ v q, runAt m colour (name :: args) v q = _ := runAt_of_ok h hparse
  have hlevel : (Verbosity.ofFlags i.verbose i.quiet).Within (.ofFlags true i.quiet) := by
    cases i.quiet with
    | true => exact Verbosity.quiet_within _
    | false => exact Verbosity.within_verbose _
  refine ⟨fun v q => ?_,?_,?_,?_,?_,?_⟩
  · simp only [hrun, true_and]
    exact ⟨shown_answers_eq _ _ colour _,trivial⟩
  · simp only [hrun, Bool.true_or, Verbosity.ofFlags_quiet]
  · simp only [hrun, Bool.true_or, Verbosity.ofFlags_quiet]
    exact (Verbosity.quiet_within _).shown_sublist colour false _
  · simp only [hrun, Bool.true_or, Bool.false_or]
    exact hlevel.shown_sublist colour false _
  · intro i' hi v q
    cases hparse.symm.trans hi
    simp only [hrun]
    rw [alerts, ← shown_quiet]
    refine ⟨(Verbosity.quiet_within _).shown_sublist colour false _,?_⟩
    rintro rfl
    rw [Bool.true_or, Verbosity.ofFlags_quiet]
  · intro words' i' j v q hi hj hcommand hverbosity
    cases hparse.symm.trans hi
    rw [runProgram_of_parse hj, hcommand, hverbosity, hrun]
    rfl

theorem level_discreet_validate :
    CommandLine.Place.root.commands.lookup "validate" = some .validate ∧
      Discreet (idleMachine [] .empty) false ["validate", "git@example.org:site"] :=
  ⟨rfl,level_discreet _ _ _ _ _ rfl⟩

end GitPublish
