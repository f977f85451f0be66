import SketchApk.Utility.Expression
import SketchApk.Utility.Finding

/-!
# Utilities for sessions

Printing words, testing conditions, letting time pass, sending signals, and telling what is known about the
user and the system.

## Main definitions

* `Utility.printWords`, `Utility.printInFormat`, `Utility.testWords` : printing and testing.
* `Utility.letTimePass`, `Utility.repeatWords` : passing time.
* `Utility.signalProcesses` : sending signals.
-/

namespace SketchApk.Utility

/-- A utility that does nothing and ends with a status. -/
def ending (status : Nat) : Utility := fun _ => return status

/-- A utility that prints a line. -/
def printing (line : String) : Utility := fun _ => do
  emitLine line
  return 0

/-- The options in front of words to be printed: whether an end of line follows, and whether escapes are
replaced. -/
def wordOptions : (ends escapes : Bool) → List String → Bool × Bool × List String
  | ends, escapes, [] => (ends, escapes, [])
  | ends, escapes, word :: rest =>
    match word.toList with
    | '-' :: c :: letters =>
      if (c :: letters).all (· ∈ ['n', 'e', 'E']) then
        let last := ((c :: letters).reverse.find? (· ≠ 'n'))
        wordOptions (ends && 'n' ∉ (c :: letters)) ((last.map fun c => decide (c = 'e')).getD escapes) rest
      else (ends, escapes, word :: rest)
    | _ => (ends, escapes, word :: rest)

/-- Print words with blanks between them. -/
def printWords : Utility := fun arguments => do
  let (ends, escapes, words) := wordOptions true false arguments
  let text := (" ".intercalate words).toList
  let (shown, isOver) := if escapes then Format.unescape .program text else (text, false)
  emit (String.ofList shown ++ if ends && !isOver then "\n" else "")
  return 0

/-- Print arguments in a format. -/
def printInFormat : Utility := fun arguments => do
  match if arguments.head? = some "--" then arguments.tail else arguments with
  | [] => giveUpUsage 1 "missing operand"
  | format :: values =>
    let result := Format.print .program format values
    emit result.printed
    for complaint in result.complaints do complain complaint
    match result.failure, result.excess with
    | some failure, _ => giveUp 1 failure
    | none, word :: _ =>
      complain ("warning: ignoring excess arguments, starting with " ++ cited word)
    | none, [] => pure ()
    return if result.complaints.isEmpty then 0 else 1

/-- Test the condition that words spell. -/
def testWords (bracketed : Bool) : Utility := fun arguments => do
  let (status, complaint?) ← Condition.test bracketed arguments
  if let some complaint := complaint? then complain complaint
  return status

/-- Let time pass. -/
def letTimePass : Utility := fun arguments => do
  let table : OptionTable := { letters := "" }
  let words := (← table.parse arguments).operands
  if words.isEmpty then giveUpUsage 1 "missing operand"
  let times := words.map fun word => (word, duration? word)
  let wrong := times.filter fun entry => entry.2.isNone
  for (word, _) in wrong do complain ("invalid time interval " ++ cited word)
  if wrong.isEmpty then
    let total := times.foldl (fun total entry => total + entry.2.getD 0) 0
    Steps.call (.sleep total)
    return 0
  else
    suggestHelp 1

/-- Print words again and again. -/
def repeatWords : Utility := fun arguments => do
  let words := if arguments.head? = some "--" then arguments.tail else arguments
  let line := (if words.isEmpty then "y" else " ".intercalate words) ++ "\n"
  let portion := String.join (List.replicate (max 1 (8192 / line.length)) line)
  let rec go : (fuel : Nat) → Work Unit
    | 0 => return ()
    | fuel + 1 => do
      match ← Steps.write 1 portion with
      | .ok () => go fuel
      | .error error => giveUp 1 ("standard output: " ++ error.reason)
  go Steps.manyTimes
  return 0

/-- The signal that a text names. -/
def signalNamed? (text : String) : Option (Option Signal) :=
  let upper := text.toUpper
  let bare :=
    if "SIG".toList.isPrefixOf upper.toList then String.ofList (upper.toList.drop 3) else upper
  if bare = "0" || bare = "EXIT" then some none
  else ((bare.toNat?.bind Signal.ofNumber?).orElse fun _ => Signal.ofName? bare).map some

/-- Send a signal to processes. -/
def signalProcesses : Utility := fun arguments => do
  let send (signal : Option Signal) (targets : List String) : Work Nat :=
    forEach (fun text => do
      match text.toInt? with
      | none =>
        complain ("failed to parse argument: " ++ cited text)
        return false
      | some target =>
        let isSent : Bool ← Steps.call (.kill target signal)
        unless isSent do complain ("(" ++ text ++ "): No such process")
        return isSent) targets
  match arguments with
  | "-l" :: _ | "-L" :: _ =>
    emitLine (" ".intercalate (Signal.all.map Signal.name))
    return 0
  | "-s" :: name :: targets =>
    match signalNamed? name with
    | some signal => send signal targets
    | none => giveUp 1 ("unknown signal name " ++ name)
  | "--" :: targets => send (some .term) targets
  | first :: targets =>
    match first.toList with
    | '-' :: name =>
      match signalNamed? (String.ofList name) with
      | some signal => send signal targets
      | none => giveUp 1 ("unknown signal name " ++ String.ofList name)
    | _ => send (some .term) arguments
  | [] => giveUp 1 "no process ID specified"

/-- The paths at which a program is found. -/
def findPrograms : List String → Work (List String)
  | [] => return []
  | path :: rest => do
    let more ← findPrograms rest
    match ← nodeAt? path true with
    | .ok (_, .file mode _) => return if mode.isExecutable then path :: more else more
    | _ => return more

/-- Print the paths of programs. -/
def locatePrograms : Utility := fun arguments => do
  let environment := (← get).environment
  let words := arguments.filter (· ≠ "-a")
  if words.isEmpty then return 1
  else
    forEach (fun name => do
      let found ← findPrograms (programPaths environment name)
      for path in if words.length < arguments.length then found else found.take 1 do emitLine path
      return !found.isEmpty) words

/-- Tell who the user is. -/
def identifyUser : Utility := fun arguments => do
  let table : OptionTable :=
    { letters := "agGnruz"
      long := [⟨"user", 'u', false, false⟩, ⟨"group", 'g', false, false⟩,
        ⟨"groups", 'G', false, false⟩, ⟨"name", 'n', false, false⟩] }
  let given ← table.parse arguments
  let number := toString userNumber
  let isShort := given.has 'u' || given.has 'g' || given.has 'G'
  if isShort then emitLine (if given.has 'n' then userName else number)
  else
    let entry (kind : String) : String := kind ++ "=" ++ number ++ "(" ++ userName ++ ")"
    emitLine (entry "uid" ++ " " ++ entry "gid" ++ " " ++ entry "groups")
  return 0

/-- Tell what the system is. -/
def describeSystem : Utility := fun arguments => do
  let table : OptionTable :=
    { letters := "asnrvmpio"
      long := [⟨"all", 'a', false, false⟩, ⟨"kernel-name", 's', false, false⟩,
        ⟨"nodename", 'n', false, false⟩, ⟨"machine", 'm', false, false⟩,
        ⟨"operating-system", 'o', false, false⟩] }
  let given ← table.parse arguments
  match given.operands with
  | extra :: _ => giveUpUsage 1 ("extra operand " ++ cited extra)
  | [] =>
    let parts : List (Char × String) :=
      [('s', "Linux"), ('n', "localhost"), ('r', "6.1.0"), ('v', "#1 SMP"), ('m', "x86_64"),
        ('o', "GNU/Linux")]
    let isWanted (letter : Char) : Bool :=
      given.has letter || given.has 'a' || (given.options.isEmpty && letter = 's')
    emitLine (" ".intercalate ((parts.filter fun part => isWanted part.1).map (·.2)))
    return 0

/-- Copy a number of blocks. -/
def copyBlocks : Utility := fun arguments => do
  let settings := arguments.map fun argument =>
    let name := argument.toList.takeWhile (· ≠ '=')
    (String.ofList name, String.ofList (argument.toList.drop (name.length + 1)))
  let known := ["if", "of", "bs", "ibs", "obs", "count", "skip", "seek", "conv", "status", "iflag",
    "oflag", "cbs"]
  for (argument, name, _) in arguments.zip settings do
    unless name ∈ known && '=' ∈ argument.toList do
      giveUpUsage 1 ("unrecognized operand " ++ cited argument)
  let value? (name : String) : Option String := settings.reverse.lookup name
  let number (name : String) (usual : Nat) : Work Nat := do
    match value? name with
    | none => return usual
    | some text =>
      match scaledNumber? text with
      | some number => return number
      | none => giveUp 1 ("invalid number: " ++ cited text)
  let size ← number "bs" (← number "ibs" 512)
  if size = 0 then giveUp 1 ("invalid number: " ++ cited ((value? "bs").getD "0"))
  let count? ←
    match value? "count" with
    | none => pure none
    | some _ => pure (some (← number "count" 0))
  let skip ← number "skip" 0
  let seek ← number "seek" 0
  let source : Nat ←
    match value? "if" with
    | none => pure 0
    | some path =>
      match ← openInput path with
      | .ok descriptor => pure descriptor
      | .error error => giveUp 1 ("failed to open " ++ quoted path ++ ": " ++ error.reason)
  let keeps := (((value? "conv").getD "").splitOn ",").contains "notrunc"
  let target : Nat ←
    match value? "of" with
    | none => pure 1
    | some path =>
      match ← Steps.call (.openFile (Octets.toPath path) (if keeps then .update else .write)) with
      | .ok descriptor => pure descriptor
      | .error error => giveUp 1 ("failed to open " ++ quoted path ++ ": " ++ error.reason)
  let rec discardBytes : (fuel : Nat) → (left : Nat) → Work Unit
    | 0, _ => return ()
    | fuel + 1, left => do
      if left = 0 then return ()
      else
        match ← Steps.call (.read source (min left 65536)) with
        | .ok data => if data.isEmpty then return () else discardBytes fuel (left - data.size)
        | .error _ => return ()
  discardBytes Steps.manyTimes (skip * size)
  if 0 < seek then
    discard (Steps.write target (String.ofList (List.replicate (seek * size) (Char.ofNat 0))))
  let rec copy : (fuel full parts bytes : Nat) → Work (Nat × Nat × Nat)
    | 0, full, parts, bytes => return (full, parts, bytes)
    | fuel + 1, full, parts, bytes => do
      if count? = some (full + parts) then return (full, parts, bytes)
      else
        match ← Steps.call (.read source size) with
        | .error error => giveUp 1 ("error reading " ++ quoted ((value? "if").getD "standard input") ++
            ": " ++ error.reason)
        | .ok data =>
          if data.isEmpty then return (full, parts, bytes)
          else
            match ← Steps.call (.write target data) with
            | .error error => giveUp 1 ("error writing " ++ quoted ((value? "of").getD "standard output") ++
                ": " ++ error.reason)
            | .ok () =>
              if data.size = size then copy fuel (full + 1) parts (bytes + data.size)
              else copy fuel full (parts + 1) (bytes + data.size)
  let (full, parts, bytes) ← copy Steps.manyTimes 0 0 0
  let status := (value? "status").getD ""
  unless status = "none" do
    let records := toString full ++ "+" ++ toString parts
    printError (records ++ " records in\n" ++ records ++ " records out\n")
    unless status = "noxfer" do
      printError (toString bytes ++ " bytes copied, 0.001 s, 1.0 MB/s\n")
  return 0

end SketchApk.Utility
