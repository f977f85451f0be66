import SketchApk.Shell.State

/-!
# Commands on variables and arguments

The commands with which a shell changes its variables, its options and its arguments. Each is given its
arguments and answers with a status.

## Main definitions

* `Shell.mark` : mark variables as exported or read-only.
* `Shell.setOptions` : set options and arguments.
* `Shell.readLine` : read a line into variables.
* `Shell.getOption` : take an option from arguments.
-/

namespace SketchApk.Shell

/-- A text between single quotes. A single quote in it is put between double quotes. -/
def singleQuoted (text : String) : String :=
  let piece (c : Char) : String := if c = '\'' then "'\"'\"'" else c.toString
  "'" ++ String.join (text.toList.map piece) ++ "'"

/-- The variables in the order of their names. -/
def State.sortedVariables (state : State) : List (String × Variable) :=
  state.bindings.mergeSort fun a b => a.1 ≤ b.1

/-- Print variables that satisfy a test, behind a text. -/
def printVariables (front : String) (test : Variable → Bool) : Exec Nat := do
  for (name, entry) in (← get).sortedVariables do
    if test entry then
      let value := (entry.value.map ("=" ++ singleQuoted ·)).getD ""
      printText (front ++ name ++ value ++ "\n")
  return 0

/-- The name and the value of an assignment, whose value may be missing. -/
def splitAssignment (text : String) : String × Option String :=
  let characters := text.toList
  let name := characters.takeWhile (· ≠ '=')
  (String.ofList name, (characters.drop name.length).tail? |>.map String.ofList)

/-- Mark variables as exported or read-only, after giving them values. -/
def mark (isReadOnly : Bool) (arguments : List String) : Exec Nat := do
  let (options, names) ← takeOptions "p" arguments
  if !options.isEmpty || names.isEmpty then
    printVariables (if isReadOnly then "readonly " else "export ") fun entry =>
      if isReadOnly then entry.isReadOnly else entry.isExported
  else
    for argument in names do
      let (name, value?) := splitAssignment argument
      unless isName name.toList do fail (name ++ ": bad variable name")
      if let some value := value? then assignVariable name value
      modify fun state =>
        let old := state.variableOf name
        state.putVariable name
          { old with
            isReadOnly := old.isReadOnly || isReadOnly
            isExported := old.isExported || !isReadOnly }
    return 0

/-- Remove variables or functions. -/
def unset (arguments : List String) : Exec Nat := do
  let (options, names) ← takeOptions "vf" arguments
  let isFunction := (options.getLast?.map (·.1)) = some 'f'
  for name in names do
    if isFunction then
      modify fun state => { state with functions := state.functions.filter (·.1 ≠ name) }
    else
      unless isName name.toList do fail (name ++ ": bad variable name")
      if ((← get).variableOf name).isReadOnly then fail (name ++ ": is read only")
      modify (·.dropVariable name)
  return 0

/-- The state after an option has been set or cleared. -/
def State.setOption (state : State) (letter : Char) (value : Bool) : State :=
  let others := state.options.filter (· ≠ letter)
  { state with options := if value then letter :: others else others }

/-- Set or clear an option that has a name. -/
def setNamedOption (name : String) (value : Bool) : Exec Unit := do
  match optionNames.find? (·.2 = name) with
  | some (letter, _) => modify (·.setOption letter value)
  | none => fail ("Illegal option -o " ++ name)

/-- Print the options. -/
def printOptions (asCommands : Bool) : Exec Unit := do
  let state ← get
  unless asCommands do printText "Current option settings\n"
  for (letter, name) in optionNames do
    if asCommands then
      printText ("set " ++ (if state.has letter then "-" else "+") ++ "o " ++ name ++ "\n")
    else
      let column := String.ofList (Text.padEnd 16 name.toList)
      printText (column ++ (if state.has letter then "on" else "off") ++ "\n")

/-- Set or clear options that are given by letters. The flag tells that an option is given by the name
that follows. -/
def setLetters (value : Bool) : List Char → Exec Bool
  | [] => return false
  | 'o' :: rest => do
    discard (setLetters value rest)
    return true
  | letter :: rest => do
    unless (optionNames.lookup letter).isSome do fail ("Illegal option -" ++ letter.toString)
    modify (·.setOption letter value)
    setLetters value rest

/-- Set options, and answer with the arguments that follow them, if they are to be set. At most `fuel`
arguments are dealt with. -/
def takeSettings : (fuel : Nat) → List String → Exec (Option (List String))
  | 0, arguments => return some arguments
  | _ + 1, [] => return none
  | fuel + 1, argument :: rest => do
    match argument.toList with
    | ['-'] =>
      modify fun state => (state.setOption 'x' false).setOption 'v' false
      return if rest.isEmpty then none else some rest
    | ['-', '-'] => return some rest
    | sign :: letters =>
      if sign ≠ '-' && sign ≠ '+' then return some (argument :: rest)
      else if ← setLetters (sign = '-') letters then
        match rest with
        | [] =>
          printOptions (sign = '+')
          return none
        | name :: after =>
          setNamedOption name (sign = '-')
          takeSettings fuel after
      else takeSettings fuel rest
    | [] => return some (argument :: rest)

/-- Set options and arguments. -/
def setOptions (arguments : List String) : Exec Nat := do
  if arguments.isEmpty then printVariables "" fun entry => entry.value.isSome
  else
    if let some values ← takeSettings (arguments.length + 1) arguments then
      modify fun state => { state with arguments := values }
    return 0

/-- Drop arguments from the front. -/
def shift (arguments : List String) : Exec Nat := do
  let count ←
    match arguments with
    | [] => pure 1
    | text :: _ => naturalOf text
  let state ← get
  if state.arguments.length < count then fail "can't shift that many"
  set { state with arguments := state.arguments.drop count }
  return 0

/-- The state after a variable has been hidden for the time of a function. -/
def State.hide (state : State) (name : String) : State :=
  match state.hidden with
  | frame :: rest =>
    if (frame.lookup name).isSome then state
    else { state with hidden := (frame ++ [(name, state.bindings.lookup name)]) :: rest }
  | [] => state

/-- The state after the variables of the innermost function are no longer hidden. -/
def State.reveal (state : State) : State :=
  match state.hidden with
  | frame :: rest =>
    frame.foldl (fun state (name, old) =>
      match old with
      | some old => state.putVariable name old
      | none => state.dropVariable name) { state with hidden := rest }
  | [] => state

/-- Hide variables for the time of a function, and give them values. -/
def makeLocal (isFunction : Bool) (arguments : List String) : Exec Nat := do
  unless isFunction do fail "not in a function"
  for argument in arguments do
    let (name, value?) := splitAssignment argument
    unless isName name.toList || name = "-" do fail (name ++ ": bad variable name")
    modify (·.hide name)
    if let some value := value? then assignVariable name value
  return 0

/-- The text in front of the blanks at the end of a line that was read. A character that was quoted is
no blank. -/
def dropBlanksBehind (blanks : List Char) (line : List (Char × Bool)) : List (Char × Bool) :=
  (line.reverse.dropWhile fun (c, quoted) => !quoted && c ∈ blanks).reverse

/-- The texts into which a line is cut for some variables. The last one takes what is left. A separator
behind it does not count if there is only one. -/
def cutLine (separators : List Char) : (count : Nat) → List (Char × Bool) → List String
  | 0, _ => []
  | count + 1, line =>
    let blanks := separators.filter (· ∈ usualSeparators.toList)
    let separates : Char × Bool → Bool := fun (c, quoted) => !quoted && c ∈ separators
    let isBlank : Char × Bool → Bool := fun (c, quoted) => !quoted && c ∈ blanks
    let text (part : List (Char × Bool)) : String := String.ofList (part.map (·.1))
    let line := line.dropWhile isBlank
    let field := line.takeWhile (!separates ·)
    let behind := line.dropWhile (!separates ·)
    if count = 0 then
      let isSingle := behind.all separates && (behind.filter (!isBlank ·)).length ≤ 1
      [text (if isSingle then field else dropBlanksBehind blanks line)]
    else
      let rest := behind.dropWhile isBlank
      let after :=
        match rest with
        | c :: more => if separates c then more else rest
        | [] => []
      text field :: cutLine separators count after

/-- The characters of a line of the standard input, each with the flag that it was quoted. Another flag
tells that the line is complete. At most `fuel` bytes are read. -/
def readCharacters (raw : Bool) : (fuel : Nat) → Exec (List (Char × Bool) × Bool)
  | 0 => return ([], false)
  | fuel + 1 => do
    match ← Steps.call (.read 0 1) with
    | .error _ => return ([], false)
    | .ok data =>
      match (Octets.ofBytes data).toList with
      | [] => return ([], false)
      | c :: _ =>
        if c = '\x00' then readCharacters raw fuel
        else if c = '\n' then return ([], true)
        else if c = '\\' && !raw then
          match ← Steps.call (.read 0 1) with
          | .error _ => return ([], false)
          | .ok data =>
            match (Octets.ofBytes data).toList with
            | [] => return ([], false)
            | next :: _ =>
              let (rest, isComplete) ← readCharacters raw fuel
              return (if next = '\n' then rest else (next, true) :: rest, isComplete)
        else
          let (rest, isComplete) ← readCharacters raw fuel
          return ((c, false) :: rest, isComplete)

/-- Read a line into variables. -/
def readLine (arguments : List String) : Exec Nat := do
  let (options, names) ← takeOptions "p:r" arguments
  if names.isEmpty then fail "arg count"
  let (line, isComplete) ← readCharacters (options.any (·.1 = 'r')) Steps.manyTimes
  let texts := cutLine (← get).separators names.length line
  for (name, text) in names.zip texts do assignNamed name text
  return if isComplete then 0 else 1

/-- Take an option from arguments: its letter is put into a variable, and its value into another. -/
def getOption (arguments : List String) : Exec Nat := do
  match arguments with
  | known :: name :: given =>
    let state ← get
    let words := if given.isEmpty then state.arguments else given
    let next := ((state.lookup? "OPTIND").bind (·.toNat?)).getD 1
    let isQuiet := known.toList.head? = some ':'
    let letters := if isQuiet then known.toList.tail else known.toList
    let pending :=
      if state.lettersTaken = 0 then []
      else ((words[next - 2]?).getD "").toList.drop (state.lettersTaken + 1)
    let settle (index taken : Nat) (option : String) (status : Nat) : Exec Nat := do
      assignVariable "OPTIND" (toString index)
      modify fun state => { state with lettersTaken := taken }
      assignNamed name option
      return status
    let finish (index : Nat) : Exec Nat := settle index 0 "?" 1
    let (current, index, taken) : List Char × Nat × Nat :=
      if pending.isEmpty then
        match ((words[next - 1]?).getD "").toList with
        | '-' :: first :: rest => (first :: rest, next + 1, 0)
        | _ => ([], next, 0)
      else (pending, next, state.lettersTaken)
    match current with
    | [] => finish index
    | letter :: rest =>
      if pending.isEmpty && current = ['-'] then finish index
      else
        let after := if rest.isEmpty then 0 else taken + 1
        match letters.dropWhile (· ≠ letter) with
        | [] =>
          if isQuiet then assignVariable "OPTARG" letter.toString
          else
            printError ("Illegal option -" ++ letter.toString ++ "\n")
            modify (·.dropVariable "OPTARG")
          settle index after "?" 0
        | _ :: ':' :: _ =>
          if !rest.isEmpty then
            assignVariable "OPTARG" (String.ofList rest)
            settle index 0 letter.toString 0
          else
            match words[index - 1]? with
            | some value =>
              assignVariable "OPTARG" value
              settle (index + 1) 0 letter.toString 0
            | none =>
              if isQuiet then
                assignVariable "OPTARG" letter.toString
                settle index 0 ":" 0
              else
                printError ("No arg for -" ++ letter.toString ++ " option\n")
                modify (·.dropVariable "OPTARG")
                settle index 0 "?" 0
        | _ =>
          assignVariable "OPTARG" ""
          settle index after letter.toString 0
  | _ => fail "Usage: getopts optstring var [arg]"

end SketchApk.Shell
