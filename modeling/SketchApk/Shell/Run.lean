import SketchApk.Shell.Builtin.Search
import SketchApk.Shell.Redirection

/-!
# Carrying scripts out

A statement is carried out in some *manner*. Where its status is tested, a failure does not end the
shell; where nothing follows it, a program takes the place of the shell instead of running beside it.

Statements contain others, so everything that is said here about a statement refers to an
*interpreter* for what it contains. Interpreters are built one upon the other, each good for one more
level of nesting.

## Main definitions

* `Shell.Manner` : the manner in which a statement is carried out.
* `Shell.Interpreter` : how statements and scripts are carried out.
* `Shell.interpreter` : the interpreter for a number of levels.
-/

namespace SketchApk.Shell

/-- The manner in which a statement is carried out. -/
structure Manner where
  /-- The status is tested. -/
  isTested : Bool := false
  /-- Nothing follows. -/
  isLast : Bool := false

/-- How statements and scripts are carried out. -/
structure Interpreter where
  statement : Manner → Statement → Exec Unit
  /-- Carry out a script, and answer with its status. -/
  script : Manner → Reader → Exec Nat
  /-- The end of a shell. -/
  finish : State → Process

/-- A trap is set that does something. -/
def State.hasTraps (state : State) : Bool :=
  state.traps.any (!·.2.isEmpty)

/-- The state with which a shell within a shell begins. -/
def State.enterSubshell (state : State) : State :=
  { state with traps := state.traps.filter (·.2.isEmpty), jobs := [], pending := [] }

/-- Give up the traps that do something. -/
def dropTraps : Exec Unit := do
  let state ← get
  for (signal?, action) in state.traps do
    if let some signal := signal? then
      unless action.isEmpty do Steps.call (.handle signal .default)
  set state.enterSubshell

/-- Wait until some processes have ended, and answer with the status of one of them. At most `fuel`
processes end. -/
def awaitFrom (last : Nat) : (fuel status : Nat) → List Nat → Exec Nat
  | 0, status, _ | _, status, [] => return status
  | fuel + 1, status, pending => do
    match ← Steps.call (.wait none .blocking) with
    | .ended number ending =>
      if number ∈ pending then
        announce ending
        awaitFrom last fuel (if number = last then ending.status else status) (pending.erase number)
      else
        modify (·.noteEnd number ending)
        awaitFrom last fuel status pending
    | _ => return status

/-- Wait until some processes have ended, and answer with the status of the last of them. -/
def await (children : List Nat) : Exec Nat :=
  awaitFrom (children.getLastD 0) Steps.manyTimes 0 children

/-- The status after a file could not be executed. -/
def launchStatus (error : FileError) : Nat :=
  if error ∈ [.notFound, .notADirectory, .tooManyLinks, .nameTooLong] then 127 else 126

section

variable (inner : Interpreter)

/-- The process of a shell within a shell. -/
def subshell (steps : Exec Unit) (state : State) : Process :=
  (do dropTraps; steps : Exec Unit) (fun _ state => inner.finish state)
    (fun _ state => inner.finish state) state

/-- The output of a statement. -/
def substitute (body : Option Statement) : Exec String := do
  match body with
  | none => return ""
  | some body =>
    let (source, drain) : Nat × Nat ← Steps.call .pipe
    let child ← Steps.fork (subshell inner do
      Steps.call (.close source)
      discard (moveTo false drain 1)
      inner.statement { isLast := true } body)
    Steps.call (.close drain)
    let output ← Steps.readAll source
    Steps.call (.close source)
    let status ← await [child]
    modify fun state => { state with substitutionStatus := status }
    return output.toOption.getD ""

/-- Carry out the traps of the signals that were caught. -/
def runTraps : Exec Unit := do
  let state ← get
  unless state.traps.isEmpty do
    let signals : List Signal ← Steps.call .takeSignals
    let due := state.pending ++ signals
    set { state with pending := [] }
    for signal in due do
      match (← get).traps.lookup (some signal) with
      | none => pure ()
      | some action =>
        let before ← get
        set { before with savedStatus := some (before.savedStatus.getD before.status) }
        discard (inner.script {} { rest := action.toList })
        modify fun state =>
          { state with status := before.status, savedStatus := before.savedStatus }

/-- Do something with descriptors redirected. When this is impossible the status tells so, unless the
failure is `fatal`. The descriptors may stay as they are afterwards. -/
def redirecting (redirections : List Redirection) (fatal : Bool) (stays : State → Bool)
    (body : Exec Unit) : Exec Unit := do
  if redirections.isEmpty then body
  else
    let connections ← redirections.mapM (·.connection (substitute inner))
    let saved? ← tryCatch (do return some (← redirect true connections)) fun exit =>
      if exit = .failing && !fatal then pure none else throw exit
    match saved? with
    | none => return ()
    | some saved =>
      ensuring body do
        if stays (← get) then forget saved else restore saved

/-- What a name in front of a command means. -/
inductive Callee where
  | nothing
  | function (body : Statement)
  | builtin (name : String) (isSpecial : Bool)
  | program (path : Option String)

/-- What a command means, and its words without those that say how it is searched. At most `fuel` words
are dropped. -/
def resolveCommand (state : State) : (fuel : Nat) → (isPlain : Bool) → Option String →
    List String → Callee × List String
  | _, _, _, [] => (.nothing, [])
  | 0, _, path, words => (.program path, words)
  | fuel + 1, isPlain, path, name :: rest =>
    match if isPlain then state.functions.lookup name else none with
    | some body => (.function body, name :: rest)
    | none =>
      if name = "command" then
        let options := rest.takeWhile fun word => word = "-p" || word = "--"
        let others := rest.drop options.length
        let describes := others.head?.any fun word => word.toList.head? = some '-'
        if others.isEmpty || describes then (.builtin name false, name :: rest)
        else
          let path := if "-p" ∈ options then some usualPath else path
          resolveCommand state fuel false path others
      else if name ∈ specialCommands then (.builtin name isPlain, name :: rest)
      else if name ∈ ordinaryCommands then (.builtin name false, name :: rest)
      else (.program path, name :: rest)

/-- The arguments of a command may be assignments, which are not cut into fields. -/
def takesAssignments (state : State) (words : List String) : Bool :=
  match words with
  | name :: _ =>
    name ∈ ["export", "readonly", "local", "alias"] && (state.functions.lookup name).isNone
  | [] => false

/-- The fields of the first of some words that has any, and the words behind it. -/
def firstFields : List Word → Exec (List String × List Word)
  | [] => return ([], [])
  | word :: rest => do
    let fields ← expandFields (substitute inner) word
    if fields.isEmpty then firstFields rest else return (fields, rest)

/-- The words of a command. -/
def expandWords (words : List Word) : Exec (List String) := do
  let (first, rest) ← firstFields inner words
  let takes := takesAssignments (← get) first
  let more ← rest.mapM fun word => do
    match if takes then assignment? word else none with
    | some (name, value) =>
      return [String.ofList name ++ "=" ++ (← expandText (substitute inner) true value)]
    | none => expandFields (substitute inner) word
  return first ++ more.flatten

/-- Assign variables, in the environment alone or as variables of the shell. The texts of the
assignments are the answer. -/
def assignAll (isLocal exports : Bool) : List (List Char × Word) → Exec (List String)
  | [] => return []
  | (name, word) :: rest => do
    let value ← expandText (substitute inner) true word
    let name := String.ofList name
    if isLocal then modify (·.hide name)
    assignVariable name value
    if isLocal || exports then
      modify fun state =>
        state.putVariable name { state.variableOf name with isExported := true }
    return (name ++ "=" ++ value) :: (← assignAll isLocal exports rest)

/-- Show a command that is about to be carried out, if this is wanted. -/
def trace (words : List String) : Exec Unit := do
  let state ← get
  if state.has 'x' then
    printError ((state.lookup? "PS4").getD "+ " ++ " ".intercalate words ++ "\n")

/-- Let a program run. -/
def runProgram (manner : Manner) (words paths : List String) : Exec Unit := do
  let state ← get
  let report (state : State) (error : FileError) : Process :=
    (warn (words.headD "" ++ ": " ++ programError error) : Exec Unit)
      (fun _ _ => .exit (launchStatus error)) (fun _ _ => .exit (launchStatus error)) state
  let launch (state : State) : Process :=
    state.launcher.first words state.environment (report state) .notFound paths
  if manner.isLast && !state.hasTraps then Steps.become (launch state)
  else
    let child ← Steps.fork launch
    setStatus (← await [child])

/-- Call a function. -/
def callFunction (manner : Manner) (body : Statement) (arguments : List String) : Exec Unit := do
  let before ← get
  set { before with arguments, loops := 0, depth := before.depth + 1, lettersTaken := 0 }
  let call := tryCatch (inner.statement { isTested := manner.isTested } body) fun exit =>
    if exit = .returning then pure () else throw exit
  ensuring call do
    modify fun state =>
      { state with
        arguments := before.arguments
        loops := before.loops
        depth := before.depth
        lettersTaken := before.lettersTaken }

/-- Leave loops, as many as an argument says. -/
def leaveLoops (exit : Nat → Exit) (arguments : List String) : Exec Nat := do
  let levels ←
    match arguments with
    | [] => pure 1
    | text :: _ => do
      let number ← naturalOf text
      if number = 0 then failNumber text
      pure number
  let loops := (← get).loops
  setStatus 0
  if loops = 0 then return 0 else throw (exit (min levels loops))

/-- Set the status from an argument. -/
def takeStatus (arguments : List String) : Exec Unit := do
  match arguments with
  | [] => modify fun state => { state with status := state.savedStatus.getD state.status }
  | text :: _ =>
    let status ← naturalOf text
    setStatus status

/-- Carry out a script that is read from a file. -/
def runFile (arguments : List String) : Exec Nat := do
  let (_, words) ← takeOptions "" arguments
  match words with
  | [] => return 0
  | name :: _ =>
    let path ←
      if '/' ∈ name.toList then pure name
      else do
        match ← searchProgram (← get).path name with
        | .ok (path :: _) => pure path
        | _ => fail (name ++ ": not found")
    match ← Steps.call (.openFile (Octets.toPath path) .read) with
    | .error error => fail (openingError .read path error)
    | .ok descriptor =>
      let text ← Steps.readAll descriptor
      Steps.call (.close descriptor)
      modify fun state => { state with caller := some path }
      tryCatch (inner.script {} { rest := (text.toOption.getD "").toList }) fun exit => do
        if exit = .returning then return (← get).status else throw exit

/-- Let a program take the place of the shell. -/
def replaceShell (arguments : List String) : Exec Nat := do
  let (_, words) ← takeOptions "" arguments
  match words with
  | [] => return 0
  | name :: _ =>
    let state ← get
    let paths :=
      if '/' ∈ name.toList then [name] else (splitPath state.path).map (inDirectory · name)
    let report (error : FileError) : Process :=
      (warn (name ++ ": " ++ programError error) : Exec Unit)
        (fun _ state => inner.finish { state with status := launchStatus error })
        (fun _ state => inner.finish state) state
    Steps.become (state.launcher.first words state.environment report .notFound paths)

/-- Tell what a command means, or nothing. -/
def describeCommand (arguments : List String) : Exec Nat := do
  let (options, words) ← takeOptions "pvV" arguments
  match words with
  | [] => return 0
  | name :: _ =>
    let state ← get
    let path := if options.any (·.1 = 'p') then usualPath else state.path
    describe path name (options.any (·.1 = 'V'))

/-- Call a command of the shell, and answer with its status. -/
def callBuiltin (manner : Manner) (name : String) (arguments : List String) : Exec Nat := do
  match name with
  | ":" | "true" => return 0
  | "false" => return 1
  | "." => runFile inner arguments
  | "[" => testCondition true arguments
  | "break" => leaveLoops .breaking arguments
  | "cd" => changeDirectory arguments
  | "command" => describeCommand arguments
  | "continue" => leaveLoops .continuing arguments
  | "echo" => echo arguments
  | "eval" =>
    inner.script { isTested := manner.isTested } { rest := (" ".intercalate arguments).toList }
  | "exec" => replaceShell inner arguments
  | "exit" =>
    takeStatus arguments
    throw .exiting
  | "export" => mark false arguments
  | "getopts" => getOption arguments
  | "hash" => hash arguments
  | "kill" => sendSignal arguments
  | "local" => makeLocal ((← get).depth ≠ 0) arguments
  | "printf" => printFormat arguments
  | "pwd" => printDirectory arguments
  | "read" => readLine arguments
  | "readonly" => mark true arguments
  | "return" =>
    takeStatus arguments
    throw .returning
  | "set" => setOptions arguments
  | "shift" => shift arguments
  | "test" => testCondition false arguments
  | "times" => printTimes
  | "trap" => setTrap arguments
  | "type" => describeAll arguments
  | "umask" => setMask arguments
  | "unset" => unset arguments
  | "wait" => waitForJobs arguments
  | _ => return 0

/-- Call a command of the shell. Its failure ends the shell only if it is special. -/
def runBuiltin (manner : Manner) (name : String) (isSpecial : Bool) (arguments : List String) :
    Exec Unit := do
  let caller := (← get).caller
  modify fun state => { state with caller := some name, hasLostOutput := false }
  let call : Exec Unit := do
    let status ← callBuiltin inner manner name arguments
    if (← get).hasLostOutput then
      warn (name ++ ": I/O error")
      setStatus (status ||| 1)
    else setStatus status
  let restoring := ensuring call (modify fun state => { state with caller })
  tryCatch restoring fun exit => do
    unless exit = .failing && !isSpecial do throw exit

/-- Carry out a command behind its redirections. -/
def runCallee (manner : Manner) (assignments : List (List Char × Word)) (callee : Callee)
    (words : List String) : Exec Unit := do
  let withLocals (body : Exec Unit) : Exec Unit := do
    modify fun state => { state with hidden := [] :: state.hidden }
    ensuring (do
      let texts ← assignAll inner true true assignments
      trace (texts ++ words)
      body) (modify (·.reveal))
  match callee with
  | .nothing =>
    let texts ← assignAll inner false false assignments
    unless texts.isEmpty do trace texts
    modify fun state => { state with status := state.substitutionStatus }
  | .builtin name true =>
    let texts ← assignAll inner false (name = "exec" && 1 < words.length) assignments
    trace (texts ++ words)
    runBuiltin inner manner name true words.tail
  | .builtin name false => withLocals (runBuiltin inner manner name false words.tail)
  | .function body => withLocals (callFunction inner manner body words.tail)
  | .program path =>
    withLocals do
      let name := words.headD ""
      match ← searchProgram (path.getD (← get).path) name with
      | .error error =>
        warn (name ++ ": " ++ programError error)
        setStatus 127
      | .ok paths => runProgram manner words paths

/-- Carry out a command with its assignments and redirections. -/
def runSimple (manner : Manner) (line : Nat) (assignments : List (List Char × Word))
    (words : List Word) (redirections : List Redirection) : Exec Unit := do
  Steps.call .pass
  modify fun state => { state with line, substitutionStatus := 0 }
  let expanded ← expandWords inner words
  let (callee, words) := resolveCommand (← get) (expanded.length + 1) true none expanded
  let isSpecial := callee matches .builtin _ true
  let isExec := callee matches .builtin "exec" _
  redirecting inner redirections isSpecial (fun _ => isExec)
    (runCallee inner manner assignments callee words)

/-- Start the stages of a pipeline, each reading what the one before writes, and answer with their
numbers. -/
def startStages (manner : Manner) (inBackground : Bool) (input : Option Nat) :
    List Statement → Exec (List Nat)
  | [] => return []
  | stage :: rest => do
    let ends? : Option (Nat × Nat) ←
      if rest.isEmpty then pure none else do pure (some (← Steps.call .pipe))
    let child ← Steps.fork (subshell inner do
      if inBackground then leaveForeground input.isNone
      if let some (source, _) := ends? then Steps.call (.close source)
      if let some input := input then discard (moveTo false input 0)
      if let some (_, drain) := ends? then discard (moveTo false drain 1)
      inner.statement { manner with isLast := true } stage)
    if let some input := input then Steps.call (.close input)
    if let some (_, drain) := ends? then Steps.call (.close drain)
    return child :: (← startStages manner inBackground (ends?.map (·.1)) rest)
where
  /-- Go on in the background: signals from a terminal are ignored, and there is nothing to read. -/
  leaveForeground (readsNothing : Bool) : Exec Unit := do
    Steps.call (.handle .int .ignore)
    Steps.call (.handle .quit .ignore)
    if readsNothing then
      Steps.call (.close 0)
      discard (Steps.call (.openFile ⟨"/dev/null"⟩ .read))

/-- Start a statement without waiting for it. -/
def runInBackground (body : Statement) : Exec Unit := do
  let stages :=
    match body with
    | .pipeline stages => stages
    | other => [other]
  let children ← startStages inner {} true none stages
  modify fun state =>
    { state with
      status := 0
      lastBackground := children.getLast?
      jobs := state.jobs ++ [{ members := children.map fun number => (number, none) }] }

/-- Carry out a statement in a shell of its own. -/
def runSubshell (manner : Manner) (line : Nat) (body : Statement) : Exec Unit := do
  modify fun state => { state with line }
  if manner.isLast && !(← get).hasTraps then
    dropTraps
    inner.statement manner body
  else
    let child ← Steps.fork (subshell inner (inner.statement { manner with isLast := true } body))
    setStatus (← await [child])

/-- One round of a loop: do something, and tell whether the loop goes on. -/
def runRound (body : Exec Bool) : Exec Bool :=
  tryCatch body fun exit =>
    match exit with
    | .breaking levels => if levels ≤ 1 then return false else throw (.breaking (levels - 1))
    | .continuing levels => if levels ≤ 1 then return true else throw (.continuing (levels - 1))
    | _ => throw exit

/-- Repeat a statement at most `fuel` times. The status is that of the last round. -/
def runLoop (manner : Manner) (untilTrue : Bool) (condition body : Statement) :
    (fuel status : Nat) → Exec Unit
  | 0, _ => return ()
  | fuel + 1, status => do
    Steps.call .pass
    let goesOn ← runRound do
      inner.statement { isTested := true } condition
      if ((← get).status = 0) = untilTrue then
        setStatus status
        return false
      else
        inner.statement { isTested := manner.isTested } body
        return true
    if goesOn then runLoop manner untilTrue condition body fuel (← get).status

/-- Repeat a statement for each of some values of a variable. -/
def runEach (manner : Manner) (name : String) (body : Statement) : List String → Exec Unit
  | [] => return ()
  | value :: rest => do
    assignVariable name value
    let goesOn ← runRound do
      inner.statement { isTested := manner.isTested } body
      return true
    if goesOn then runEach manner name body rest

/-- Do something that counts as a loop. -/
def insideLoop (body : Exec Unit) : Exec Unit := do
  let loops := (← get).loops
  modify fun state => { state with loops := loops + 1 }
  ensuring body (modify fun state => { state with loops })

/-- The body of the first choice with a pattern that a text matches. -/
def chooseBody (subject : String) :
    List (List Word × Option Statement) → Exec (Option Statement)
  | [] => return none
  | (patterns, body) :: rest => do
    if ← matchesAny patterns then return body else chooseBody subject rest
where
  /-- The text matches one of some patterns. -/
  matchesAny : List Word → Exec Bool
    | [] => return false
    | word :: rest => do
      let pattern ← expandPattern (substitute inner) word
      if pattern.accepts subject.toList then return true else matchesAny rest

/-- Carry out a statement, and tell whether its failure counts by itself. -/
def runStatement (manner : Manner) : Statement → Exec Bool
  | .simple line assignments words redirections => do
    runSimple inner manner line assignments words redirections
    return true
  | .pipeline stages => do
    let children ← startStages inner manner false none stages
    setStatus (← await children)
    return true
  | .negated body => do
    inner.statement { isTested := true } body
    modify fun state => { state with status := if state.status = 0 then 1 else 0 }
    return false
  | .both first second => do
    inner.statement { isTested := true } first
    if (← get).status = 0 then inner.statement manner second
    return false
  | .either first second => do
    inner.statement { isTested := true } first
    if (← get).status ≠ 0 then inner.statement manner second
    return false
  | .sequence first second => do
    inner.statement { isTested := manner.isTested } first
    inner.statement manner second
    return false
  | .background body => do
    runInBackground inner body
    return true
  | .branch condition body otherwise => do
    inner.statement { isTested := true } condition
    if (← get).status = 0 then inner.statement manner body
    else
      match otherwise with
      | some other => inner.statement manner other
      | none => setStatus 0
    return false
  | .loop untilTrue condition body => do
    insideLoop (runLoop inner manner untilTrue condition body Steps.manyTimes 0)
    return false
  | .each line name items body => do
    modify fun state => { state with line }
    let values ←
      match items with
      | some words => do
        let fields ← words.mapM fun word => expandFields (substitute inner) word
        pure fields.flatten
      | none => do pure (← get).arguments
    if values.isEmpty then setStatus 0
    insideLoop (runEach inner manner (String.ofList name) body values)
    return false
  | .choose line subject choices => do
    modify fun state => { state with line }
    let text ← expandText (substitute inner) false subject
    match ← chooseBody inner text choices with
    | some body => inner.statement manner body
    | none => setStatus 0
    return false
  | .subshell line body => do
    runSubshell inner manner line body
    return true
  | .redirected line body redirections => do
    modify fun state => { state with line }
    redirecting inner redirections false (fun _ => false)
      (inner.statement { isTested := manner.isTested } body)
    return false
  | .define name body => do
    let name := String.ofList name
    modify fun state =>
      { state with
        status := 0
        functions := (name, body) :: state.functions.filter (·.1 ≠ name) }
    return false

/-- Carry out a statement and what its end gives rise to. -/
def evaluate (manner : Manner) (statement : Statement) : Exec Unit := do
  unless (← get).has 'n' do
    runTraps inner
    let counts ← runStatement inner manner statement
    runTraps inner
    let state ← get
    if counts && state.has 'e' && !manner.isTested && state.status ≠ 0 then throw .exiting
  if manner.isLast then throw .exiting

/-- Carry out the lines of a script, of which there are at most `fuel`. The status is that of the last
statement. -/
def runLines (manner : Manner) : (fuel status : Nat) → Reader → Exec Nat
  | 0, status, _ => return status
  | fuel + 1, status, reader => do
    match reader.nextLine with
    | .ending => return status
    | .failure error =>
      modify fun state => { state with line := error.line }
      fail ("Syntax error: " ++ error.message)
    | .statements none rest => runLines manner fuel status rest
    | .statements (some statement) rest =>
      inner.statement { manner with isLast := manner.isLast && rest.isAtEnd } statement
      runLines manner fuel (← get).status rest

/-- Carry out a script, and answer with its status. -/
def runScript (manner : Manner) (reader : Reader) : Exec Nat :=
  runLines inner manner (reader.rest.length + 2) 0 reader

/-- The end of a shell, before which a trap may be carried out. -/
def endShell (state : State) : Process :=
  match state.traps.lookup none with
  | some action =>
    let begun : State :=
      { state with
        traps := state.traps.filter (·.1 ≠ none)
        savedStatus := some state.status }
    let left : Exit → State → Process
      | .exiting, after | .failing, after => .exit after.status
      | _, _ => .exit state.status
    (inner.script {} { rest := action.toList }) (fun _ _ => .exit state.status) left begun
  | none => .exit state.status

end

/-- The interpreter for statements that are nested in at most as many levels as `fuel` says. -/
def interpreter : (fuel : Nat) → Interpreter
  | 0 =>
    { statement := fun _ _ => Steps.halt failureStatus
      script := fun _ _ => Steps.halt failureStatus
      finish := fun state => .exit state.status }
  | fuel + 1 =>
    { statement := fun manner statement => evaluate (interpreter fuel) manner statement
      script := fun manner reader => runScript (interpreter fuel) manner reader
      finish := fun state => endShell (interpreter fuel) state }

end SketchApk.Shell
