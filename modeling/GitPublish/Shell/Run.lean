import GitPublish.Shell.Builtin
import GitPublish.Shell.Expand

/-!
# Running commands

A shell runs the commands of a script line by line. A line that cannot be read ends the shell, but
only after the lines before it have been run.
-/
namespace GitPublish.Shell

inductive Task where
  | command (c : Command)
  | script (tokens : List Located)
  | loop (success : Bool) (condition body : Command) (last : Nat)
  | each (name : String) (words : List String) (body : Command)
  | call (name : String) (args : List String)
  | program (name : String) (args : List String)
  | executable (path name : String) (e : Executable) (args : List String)
  | shell (name : String) (args : List String)

namespace Action

def openFailure (creates : Bool) (e : IoError) : String :=
  match e with
  | .os .notFound => if creates then "Directory nonexistent" else "No such file"
  | .os reason => reason.text
  | e => e.message

/-- Lets an output lead somewhere. -/
def connect (number : Nat) (sink : Sink) : Action Unit := modify fun s =>
  { s with sinks := (number, sink) :: s.sinks.filter (·.1 ≠ number) }

/-- Lets an output lead where another one leads; returns whether that could be done. -/
def connectTo (number other : Nat) : Action Bool := do
  match (← get).sinks.lookup other with
  | some sink =>
    connect number sink
    pure true
  | none => pure (other = 0)

/-- Lets an output lead to a file; returns whether that could be done. -/
def connectFile (number : Nat) (empties : Bool) (path : String) : Action Bool := do
  match path with
  | "/dev/null" =>
    connect number .nowhere
    pure true
  | "/dev/stdout" | "/dev/fd/1" => connectTo number 1
  | "/dev/stderr" | "/dev/fd/2" => connectTo number 2
  | _ =>
    let s ← get
    let target : FileAction Address := do
      let a ← FileAction.openTarget ⟨path⟩
      if empties || (s.files.get? a).isNone then FileAction.write ⟨path⟩ .empty
      pure a
    match target.run s.files with
    | (.ok a, files) =>
      set { s with files }
      connect number (.file a)
      pure true
    | (.error e, _) =>
      complain ("cannot create " ++ path ++ ": " ++ openFailure true e)
      pure false

/-- Follows a redirection to a text; returns whether that could be done. -/
def redirect (r : Redirection) (target : String) : Action Bool := do
  match r with
  | .write number _ => connectFile number true target
  | .append number _ => connectFile number false target
  | .read _ _ =>
    let s ← get
    if target = "/dev/null" then
      set { s with input := [] }
      pure true
    else
      match ((FileAction.read ⟨target⟩).run s.files).1 with
      | .ok content =>
        set { s with input := Text.decode content.toList }
        pure true
      | .error e =>
        complain ("cannot open " ++ target ++ ": " ++ openFailure false e)
        pure false
  | .duplicate number _ =>
    if target = "-" then
      connect number .nowhere
      pure true
    else
      let done ← (match target.toNat? with
        | some other => connectTo number other
        | none => pure false)
      if !done then complain (target ++ ": Bad file descriptor")
      pure done

def targetOf : Redirection → Word
  | .write _ w | .append _ w | .read _ w | .duplicate _ w => w

def changesInput : Redirection → Bool
  | .read .. => true
  | _ => false

/-- Follows redirections, one after another; returns whether that could be done. -/
def redirectAll (text : Word → Action String) : List Redirection → Action Bool
  | [] => pure true
  | r :: rest => do
    let target ← text (targetOf r)
    if ← redirect r target then redirectAll text rest
    else
      setStatus 2
      pure false

/-- Does something with redirections, which are taken back at its end. -/
def withRedirections (text : Word → Action String) (rs : List Redirection) (action : Action Unit) :
    Action Unit :=
  restoring
    (fun before after =>
      { after with
        sinks := before.sinks, input := if rs.any changesInput then before.input else after.input })
    (do if ← redirectAll text rs then action)

def withArgs (args : List String) (action : Action Unit) : Action Unit :=
  restoring (fun before after => { after with args := before.args }) (do
    modify fun s => { s with args }
    tryCatch action fun stop => if stop = .leaveFunction then pure () else throw stop)

/-- Does something with assignments that are taken back at its end. -/
def withAssignments (assignments : List (String × String)) (action : Action Unit) : Action Unit :=
  if assignments = [] then action
  else
    restoring
      (fun before after =>
        let changed := assignments.map (·.1)
        { after with
          exported := before.exported,
          values := before.values.filter (fun v => changed.contains v.1) ++
            after.values.filter fun v => !changed.contains v.1 })
      (do
        assignments.forM fun (name, value) => assign name value
        modify fun s => { s with exported := assignments.map (·.1) ++ s.exported }
        action)

/-- Ends the shell if a command has failed and nothing tests its status. -/
def checkFailure : Action Unit := do
  let s ← get
  if s.endsOnFailure && s.status ≠ 0 && !s.tested then throw .exit

def refuseProgram (name : String) (e : IoError) : Action Unit := do
  match e with
  | .os .notFound | .os .notADirectory =>
    complain (name ++ ": not found")
    setStatus 127
  | .os reason =>
    complain (name ++ ": " ++ reason.text)
    setStatus 126
  | e =>
    complain (name ++ ": " ++ e.message)
    setStatus 126

/-- Whether a word has the output of a script in it. -/
def hasOutput (w : Word) : Bool :=
  w.any fun p => match p with
    | .expansion _ (.output _) => true
    | _ => false

/-- Prepares a new shell by the options at the start of its arguments, and returns its script. -/
def startShell (name : String) (args : List String) : Action (List Char) := do
  let isOption (arg : String) : Bool := arg.toList.head? = some '-' && arg.length ≠ 1
  let letters := (args.takeWhile isOption).flatMap fun o => o.toList.drop 1
  let rest := args.dropWhile isOption
  modify fun s =>
    { files := s.files, values := environment s, exported := (environment s).map (·.1), name,
      sinks := s.sinks, input := s.input, written := s.written, buffers := s.buffers,
      endsOnFailure := letters.contains 'e', demandsValues := letters.contains 'u' }
  if letters.contains 'c' then
    match rest with
    | [] =>
      modify fun s => { s with line := 0 }
      giveUp "-c requires an argument"
    | script :: names =>
      modify fun s => { s with name := names.head?.getD name, args := names.tail }
      pure script.toList
  else
    match rest with
    | [] =>
      let s ← get
      set { s with input := [] }
      pure s.input
    | path :: args =>
      match ((FileAction.read ⟨path⟩).run (← get).files).1 with
      | .ok content =>
        modify fun s => { s with name := path, args }
        pure (Text.decode content.toList)
      | .error e =>
        modify fun s => { s with line := 0 }
        giveUp ("cannot open " ++ path ++ ": " ++ openFailure false e)

/-- Runs something. `fuel` bounds the number of steps on the way to each command; where it does not
suffice, the process is ended. -/
def run (fuel : Nat) (task : Task) : Action Unit :=
  match fuel with
  | 0 => throw .killed
  | fuel + 1 =>
    let output (script : List Char) : Action (List UInt8) :=
      capture (run fuel (.script (Token.scan script)))
    let text (w : Word) : Action String := wordText output fuel w
    match task with
    | .script tokens =>
      match Reader.line.run tokens with
      | .error (line, e) => do
        modify fun s => { s with line }
        giveUp e.message
      | .ok (none, _) => pure ()
      | .ok (some c, rest) => do
        run fuel (.command c)
        run fuel (.script rest)
    | .loop success condition body last => do
      tested (run fuel (.command condition))
      if ((← get).status = 0 : Bool) = success then
        if ← turn (run fuel (.command body)) then
          run fuel (.loop success condition body (← get).status)
      else setStatus last
    | .each _ [] _ => pure ()
    | .each name (w :: rest) body => do
      assign name w
      if ← turn (run fuel (.command body)) then run fuel (.each name rest body)
    | .call name args => do
      let s ← get
      match s.functions.lookup name with
      | some body => withArgs args (run fuel (.command body))
      | none =>
        if name = "eval" then run fuel (.script (Token.scan (" ".intercalate args).toList))
        else if name = "command" then
          match args with
          | [] => setStatus 0
          | "-v" :: name :: _ =>
            let found := if (builtin? name []).isSome then .ok name
              else (Executable.find s.files ((s.values.lookup "PATH").getD "") name).map (·.1)
            match found with
            | .ok path => do writeLine 1 path; setStatus 0
            | .error _ => setStatus 127
          | name :: args => run fuel (.call name args)
        else if name = "exec" then
          match args with
          | [] => setStatus 0
          | program :: args =>
            match Executable.find s.files ((s.values.lookup "PATH").getD "") program with
            | .error e => refuseProgram (name ++ ": " ++ program) e
            | .ok (path, e) => inner (run fuel (.executable path program e args))
            throw .exit
        else
          match builtin? name args with
          | some action => setStatus (← action)
          | none => run fuel (.program name args)
    | .program name args => do
      let s ← get
      match Executable.find s.files ((s.values.lookup "PATH").getD "") name with
      | .error e => refuseProgram name e
      | .ok (path, e) => inner (run fuel (.executable path name e args))
    | .executable path name e args =>
      match e with
      | .utility "sh" => run fuel (.shell name args)
      | .utility utility => do
        match utility? utility args with
        | some action => setStatus (← action)
        | none => setStatus 126
      | .unknown => run fuel (.shell name (path :: args))
      | .interpreted interpreter argument => do
        match Executable.at? (← get).files interpreter with
        | .ok e =>
          run fuel (.executable interpreter interpreter e (argument.toList ++ path :: args))
        | .error e => refuseProgram name e
    | .shell name args => do
      let script ← startShell name args
      run fuel (.script (Token.scan script))
    | .command c =>
      match c with
      | .skip => setStatus 0
      | .sequence first second => do
        run fuel (.command first)
        run fuel (.command second)
      | .conjunction first second => do
        tested (run fuel (.command first))
        if (← get).status = 0 then run fuel (.command second)
      | .disjunction first second => do
        tested (run fuel (.command first))
        if (← get).status ≠ 0 then run fuel (.command second)
      | .negation c => do
        tested (run fuel (.command c))
        setStatus (if (← get).status = 0 then 1 else 0)
      | .pipe first second => do
        let bytes ← capture (run fuel (.command first))
        inner (do
          modify fun s => { s with input := Text.decode bytes }
          run fuel (.command second))
        checkFailure
      | .choice condition yes no => do
        tested (run fuel (.command condition))
        if (← get).status = 0 then run fuel (.command yes) else run fuel (.command no)
      | .loop success condition body => run fuel (.loop success condition body 0)
      | .each name words body => do
        let items ← (match words with
          | some ws => do pure (← ws.mapM fun w => fields output fuel w).flatten
          | none => do pure (← get).args)
        setStatus 0
        run fuel (.each name items body)
      | .select w patterns yes no => do
        let value ← text w
        let fits ← patterns.mapM fun p => do
          let chars := Glyph.chars (← expand output fuel false p)
          pure (PatternItem.fits (PatternItem.ofChars 0 chars) value.toList)
        if fits.contains true then run fuel (.command yes) else run fuel (.command no)
      | .inner c => do
        inner (run fuel (.command c))
        checkFailure
      | .redirected c rs => withRedirections text rs (run fuel (.command c))
      | .define name body => do
        modify fun s => { s with functions := (name, body) :: s.functions }
        setStatus 0
      | .simple line assignments words rs => do
        modify fun s => { s with line }
        let items := (← words.mapM fun w => fields output fuel w).flatten
        match items with
        | [] => withRedirections text rs (do
            let values ← assignments.mapM fun (name, w) => do pure (name, ← text w)
            values.forM fun (name, value) => assign name value
            if !assignments.any fun a => hasOutput a.2 then setStatus 0)
        | ["exec"] => if !(← redirectAll text rs) then throw .exit
        | name :: args => withRedirections text rs (do
            let values ← assignments.mapM fun (name, w) => do pure (name, ← text w)
            withAssignments values (run fuel (.call name args)))
        checkFailure

end Action
end GitPublish.Shell
