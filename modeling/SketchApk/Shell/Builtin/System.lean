import SketchApk.Shell.Builtin.Variables
import SketchApk.Utility.Condition
import SketchApk.Utility.Format
import SketchApk.Utility.Permission

/-!
# Commands on processes and files

The commands of a shell that print texts, test conditions, change the working directory, and deal with
processes and signals. Each is given its arguments and answers with a status.

## Main definitions

* `Shell.echo`, `Shell.printFormat`, `Shell.testCondition` : printing and testing.
* `Shell.changeDirectory`, `Shell.printDirectory` : the working directory.
* `Shell.sendSignal`, `Shell.setTrap`, `Shell.waitForJobs` : processes and signals.
-/

namespace SketchApk.Shell

/-- Print arguments with blanks between them. -/
def echo (arguments : List String) : Exec Nat := do
  let (ends, words) : Bool × List String :=
    match arguments with
    | "-n" :: rest => (false, rest)
    | words => (true, words)
  let (text, isOver) := Format.unescape .command (" ".intercalate words).toList
  printText (String.ofList text ++ if ends && !isOver then "\n" else "")
  return 0

/-- Print arguments in a format. -/
def printFormat (arguments : List String) : Exec Nat := do
  let (_, words) ← takeOptions "" arguments
  match words with
  | [] => fail "usage: printf format [arg ...]"
  | format :: values =>
    let result := Format.print .command format values
    for complaint in result.complaints do warn complaint
    printText result.printed
    if let some failure := result.failure then fail failure
    return if result.complaints.isEmpty then 0 else 1

/-- Test a condition. Any word that begins with a bracket closes one that began with a bracket. -/
def testCondition (bracketed : Bool) (arguments : List String) : Exec Nat := do
  let isClosing (word : String) : Bool := word.toList.head? = some ']'
  let words :=
    if bracketed && arguments.getLast?.any isClosing then arguments.dropLast ++ ["]"] else arguments
  let (status, complaint?) ← Condition.test bracketed words
  if let some complaint := complaint? then fail complaint
  return status

/-- The path from the root to a location. -/
def pathTo (place : Location) : String :=
  Octets.ofText ("/" ++ "/".intercalate place)

/-- The directory to which a path leads, by the names that lead there. -/
def nameDirectory (directory path : String) : String :=
  let start := if path.toList.head? = some '/' then [] else names directory
  let reached := (names path).foldl (fun before name =>
    if name = ".." then before.dropLast else if name = "." then before else before ++ [name]) start
  "/" ++ "/".intercalate reached
where
  /-- The names in a path. -/
  names (path : String) : List String :=
    (Octets.toPath path).names.map Octets.ofText

/-- Change the working directory, unless that is impossible. -/
def enter (physical : Bool) (path : String) : Exec Bool := do
  let state ← get
  let wanted := if physical then path else nameDirectory state.directory path
  match ← Steps.call (.changeDirectory (Octets.toPath wanted)) with
  | .error _ => return false
  | .ok () =>
    let directory ← if physical then do pure (pathTo (← Steps.call .directory)) else pure wanted
    let setPath (name value : String) : Exec Unit := do
      assignVariable name value
      modify fun state =>
        state.putVariable name { state.variableOf name with isExported := true }
    setPath "OLDPWD" state.directory
    setPath "PWD" directory
    modify fun state => { state with directory }
    return true

/-- The path leads to a directory. -/
def isDirectory (path : String) : Exec Bool :=
  Condition.holdsOf "-d" path

/-- The pieces of a list of directories between colons. -/
def splitPath (text : String) : List String :=
  (text.splitOn ":")

/-- A name in a directory, where a directory without a name is the working directory. -/
def inDirectory (directory name : String) : String :=
  if directory.isEmpty then name else directory ++ "/" ++ name

/-- The first of some directories in which a path leads to a directory. -/
def searchDirectory (path : String) : List String → Exec (Option (String × Bool))
  | [] => return none
  | directory :: rest => do
    let full := inDirectory directory path
    if ← isDirectory full then return some (full, !directory.isEmpty)
    else searchDirectory path rest

/-- Change the working directory. -/
def changeDirectory (arguments : List String) : Exec Nat := do
  let (options, words) ← takeOptions "LP" arguments
  let physical := (options.getLast?.map (·.1)) = some 'P'
  let state ← get
  let (given, prints) : String × Bool :=
    match words with
    | [] => ((state.lookup? "HOME").getD "", false)
    | "-" :: _ => ((state.lookup? "OLDPWD").getD "", true)
    | word :: _ => (word, false)
  let first := (given.splitOn "/").headD ""
  let (path, alsoPrints) ←
    if first ∈ [".", ".."] || given.toList.head? = some '/' then pure (given, false)
    else do
      let wanted := if given.isEmpty then "." else given
      let found ← searchDirectory wanted (splitPath ((state.lookup? "CDPATH").getD ""))
      pure (found.getD (given, false))
  unless ← enter physical path do fail ("can't cd to " ++ given)
  if prints || alsoPrints then printText ((← get).directory ++ "\n")
  return 0

/-- Print the working directory. -/
def printDirectory (arguments : List String) : Exec Nat := do
  let (options, _) ← takeOptions "LP" arguments
  let directory ←
    if (options.getLast?.map (·.1)) = some 'P' then do pure (pathTo (← Steps.call .directory))
    else do pure (← get).directory
  printText (directory ++ "\n")
  return 0

/-- The signal that a text names by its number or its name. The end of the shell has the number
zero. -/
def signalOf? (text : String) : Option (Option Signal) :=
  if !text.isEmpty && text.toList.all Char.isDigit then
    match (Text.readDigits? 10 0 text.toList).getD 0 with
    | 0 => some none
    | number => (Signal.ofNumber? number).map some
  else
    let name := String.ofList (text.toList.map Char.toUpper)
    if name = "EXIT" then some none else (Signal.ofName? name).map some

/-- The name of a signal or of the end of the shell. -/
def signalName (signal : Option Signal) : String :=
  (signal.map Signal.name).getD "EXIT"

/-- How signals are sent. -/
def killUsage : String :=
  "Usage: kill [-s sigspec | -signum | -sigspec] [pid | job]... or\nkill -l [exitstatus]"

/-- Print the signals, or the one by which a process was ended. -/
def listSignals (arguments : List String) : Exec Nat := do
  match arguments with
  | [] =>
    printText (String.join ("0\n" :: Signal.all.map (·.name ++ "\n")))
    return 0
  | text :: _ =>
    let number ← naturalOf text
    let wanted := if 128 < number then number - 128 else number
    match Signal.ofNumber? wanted with
    | some signal => printText (signal.name ++ "\n")
    | none => fail ("invalid signal number or exit status: " ++ text)
    return 0

/-- The number of the process that a text means. -/
def targetOf (text : String) : Exec Int := do
  match text.toList with
  | '-' :: rest => return -((← naturalOf (String.ofList rest)) : Int)
  | '%' :: _ => return ((← get).lastBackground.getD 0 : Nat)
  | _ => return ((← naturalOf text) : Nat)

/-- Send a signal to processes. -/
def sendTo (signal : Option Signal) (targets : List String) : Exec Nat := do
  let mut status := 0
  for text in targets do
    let target ← targetOf text
    let isSent : Bool ← Steps.call (.kill target signal)
    unless isSent do
      warn "No such process\n"
      status := 1
  return status

/-- Send a signal, which is given by a name or a number, to processes. -/
def sendSignal (arguments : List String) : Exec Nat := do
  let send (signal : Option Signal) (targets : List String) : Exec Nat := do
    if targets.isEmpty then fail killUsage else sendTo signal targets
  match arguments with
  | [] => fail killUsage
  | first :: rest =>
    match first.toList with
    | '-' :: text =>
      match signalOf? (String.ofList text) with
      | some signal =>
        if String.ofList text = "EXIT" then fail ("Illegal option -E") else send signal rest
      | none =>
        let (options, targets) ← takeOptions "ls:" arguments
        if options.any (·.1 = 'l') then listSignals targets
        else
          match options.getLast? with
          | some (_, name) =>
            match signalOf? name with
            | some signal => send signal targets
            | none => fail ("invalid signal number or name: " ++ name)
          | none => send (some .term) targets
    | _ => send (some .term) arguments

/-- What a process does about a signal for which there is a trap. -/
def actionFor (trap : Option String) : SignalAction :=
  match trap with
  | none => .default
  | some action => if action.isEmpty then .ignore else .notice

/-- Set what is done about a signal or at the end of the shell. A signal that was ignored from the
beginning stays so. -/
def setTrapFor (signal : Option Signal) (action : Option String) : Exec Unit := do
  let state ← get
  let others := state.traps.filter (·.1 ≠ signal)
  set { state with traps := others ++ (action.map fun action => (signal, action)).toList }
  if let some signal := signal then
    let isKnown := (state.traps.lookup (some signal)).isSome
    let present : SignalAction ← Steps.call (.actionOf signal)
    unless present = .ignore && !isKnown do
      Steps.call (.handle signal (actionFor action))

/-- Set what is done about some signals, up to a text that names none. -/
def setTraps (action : Option String) : List String → Exec Nat
  | [] => return 0
  | text :: rest => do
    match signalOf? text with
    | none =>
      printError ("trap: " ++ text ++ ": bad trap\n")
      return 1
    | some signal =>
      setTrapFor signal action
      setTraps action rest

/-- Set what is done about signals, or print that. -/
def setTrap (arguments : List String) : Exec Nat := do
  let (_, words) ← takeOptions "" arguments
  match words with
  | [] =>
    let state ← get
    for signal in none :: Signal.all.map some do
      if let some action := state.traps.lookup signal then
        printText ("trap -- " ++ singleQuoted action ++ " " ++ signalName signal ++ "\n")
    return 0
  | first :: rest =>
    let isNumber := !first.isEmpty && first.toList.all Char.isDigit
    if rest.isEmpty || isNumber then setTraps none words
    else setTraps (if first = "-" then none else some first) rest

/-- The jobs after a process is known to have ended. -/
def State.noteEnd (state : State) (number : Nat) (ending : ProcessEnd) : State :=
  { state with
    jobs := state.jobs.map fun job =>
      { members := job.members.map fun member =>
          if member.1 = number then (number, some ending) else member } }

/-- A process of the job is running. -/
def Job.isRunning (job : Job) : Bool :=
  job.members.any (·.2.isNone)

/-- The status of a job, which is that of its last process. -/
def Job.status (job : Job) : Nat :=
  match job.members.getLast? with
  | some (_, some ending) => ending.status
  | _ => 127

/-- Tell that a signal has ended a process. -/
def announce (ending : ProcessEnd) : Exec Unit := do
  match ending with
  | .killed signal =>
    unless signal = .int || signal = .pipe do printError (signal.description ++ "\n")
  | .exited _ => return ()

/-- Wait until jobs that satisfy a test have ended, or until a signal has been caught, which is the
answer. At most `fuel` processes end. -/
def waitWhile (test : State → Bool) (announces : Nat → Bool) : (fuel : Nat) → Exec (Option Signal)
  | 0 => return none
  | fuel + 1 => do
    if !test (← get) then return none
    else
      match ← Steps.call (.wait none .interruptible) with
      | .ended number ending =>
        modify (·.noteEnd number ending)
        if announces number then announce ending
        waitWhile test announces fuel
      | .interrupted =>
        let signals : List Signal ← Steps.call .takeSignals
        modify fun state => { state with pending := state.pending ++ signals }
        return signals.head?
      | _ => return none

/-- Wait for jobs that are given by numbers of processes. -/
def waitForEach (status : Nat) : List String → Exec Nat
  | [] => return status
  | text :: rest => do
    let state ← get
    let number ← match text.toList with
      | '%' :: _ => pure (state.lastBackground.getD 0)
      | _ => naturalOf text
    let isMeant (job : Job) : Bool := (job.members.getLast?.map (·.1)) = some number
    if (state.jobs.find? isMeant).isNone then waitForEach 127 rest
    else
      let members :=
        ((state.jobs.find? isMeant).map fun job => job.members.map (·.1)).getD []
      let isRunning (state : State) : Bool := (state.jobs.find? isMeant).any Job.isRunning
      match ← waitWhile isRunning (· ∈ members) Steps.manyTimes with
      | some signal => return 128 + signal.number
      | none => waitForEach (((← get).jobs.find? isMeant).map Job.status |>.getD 127) rest

/-- Wait for jobs. -/
def waitForJobs (arguments : List String) : Exec Nat := do
  let (_, words) ← takeOptions "" arguments
  if words.isEmpty then
    match ← waitWhile (·.jobs.any Job.isRunning) (fun _ => false) Steps.manyTimes with
    | some signal => return 128 + signal.number
    | none =>
      modify fun state => { state with jobs := [] }
      return 0
  else waitForEach 0 words

/-- The permissions that a mask leaves, in symbols. -/
def symbolicMask (mask : Mode) : String :=
  let letters (shift : Nat) : String :=
    let bits := ~~~mask >>> shift
    (if bits &&& 4 != 0 then "r" else "") ++ (if bits &&& 2 != 0 then "w" else "") ++
      (if bits &&& 1 != 0 then "x" else "")
  "u=" ++ letters 6 ++ ",g=" ++ letters 3 ++ ",o=" ++ letters 0

/-- Set or print the permissions that new files do not get. -/
def setMask (arguments : List String) : Exec Nat := do
  let (options, words) ← takeOptions "S" arguments
  let mask : Mode ← Steps.call (.mask none)
  match words with
  | [] =>
    let text :=
      if options.isEmpty then String.ofList (Text.padStart '0' 4 (Nat.toDigits 8 mask.toNat))
      else symbolicMask mask
    printText (text ++ "\n")
  | text :: _ =>
    if text.toList.head?.any Char.isDigit then
      match Text.readUnsigned? 8 0o7777 text.toList with
      | some bits => discard (Steps.call (.mask (some (BitVec.ofNat 12 bits &&& 0o777))))
      | none => failNumber text
    else
      match Mode.change? 0 false (~~~mask &&& 0o777) text with
      | some bits => discard (Steps.call (.mask (some (~~~bits &&& 0o777))))
      | none => fail ("Illegal mode: " ++ text)
  return 0

/-- Print the times that were used. -/
def printTimes : Exec Nat := do
  printText "0m0.000000s 0m0.000000s\n0m0.000000s 0m0.000000s\n"
  return 0

end SketchApk.Shell
