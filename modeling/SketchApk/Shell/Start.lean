import SketchApk.Shell.Run

/-!
# Starting shells

A shell is told by its arguments what it carries out: a script in an argument, a file, or what it reads
from the standard input. Options may precede that. The variables of its environment become variables
of the shell.

## Main definitions

* `Shell.start` : the process of a shell.
-/

namespace SketchApk.Shell

/-- What a shell carries out. -/
inductive ScriptSource where
  | argument (text : String)
  | file (path : String)
  | input
  deriving DecidableEq, Repr

/-- The number of levels in which statements may be nested. -/
def nestingLimit : Nat := 1000000

/-- The state of a shell before it knows its arguments. -/
def initialState (launcher : Launcher) (launch : Launch) : State :=
  let imported := launch.environment.filter fun entry => isName entry.1.toList
  let start : State := { launcher, name := launch.arguments.headD "sh" }
  let known := imported.foldl (fun state entry =>
    state.putVariable entry.1 { value := some entry.2, isExported := true }) start
  let usual (state : State) (name value : String) : State :=
    if (state.lookup? name).isSome then state else state.putVariable name { value := some value }
  let named := usual (usual (usual (usual known "PATH" usualPath) "PS1" "$ ") "PS2" "> ") "PS4" "+ "
  (named.putVariable "IFS" { value := some usualSeparators }).putVariable "OPTIND"
    { value := some "1" }

/-- Set options that are given by letters in front of a script. The flags tell that the script is an
argument, and that an option is given by the name that follows. -/
def startLetters (value : Bool) : List Char → Exec (Bool × Bool)
  | [] => return (false, false)
  | 'c' :: rest => do
    let (_, named) ← startLetters value rest
    return (true, named)
  | 'o' :: rest => do
    let (isArgument, _) ← startLetters value rest
    return (isArgument, true)
  | 'l' :: rest => startLetters value rest
  | letter :: rest => do
    discard (setLetters value [letter])
    startLetters value rest

/-- Set options in front of a script, and answer with the flag that the script is an argument, and with
the arguments that follow. At most `fuel` arguments are dealt with. -/
def startOptions : (fuel : Nat) → (isArgument : Bool) → List String → Exec (Bool × List String)
  | 0, isArgument, arguments => return (isArgument, arguments)
  | _ + 1, isArgument, [] => return (isArgument, [])
  | fuel + 1, isArgument, argument :: rest => do
    match argument.toList with
    | ['-'] | ['-', '-'] => return (isArgument, rest)
    | sign :: letters =>
      if sign ≠ '-' && sign ≠ '+' then return (isArgument, argument :: rest)
      else
        let (found, named) ← startLetters (sign = '-') letters
        match named, rest with
        | true, name :: after =>
          setNamedOption name (sign = '-')
          startOptions fuel (isArgument || found) after
        | true, [] =>
          printOptions (sign = '+')
          return (isArgument || found, [])
        | false, _ => startOptions fuel (isArgument || found) rest
    | [] => return (isArgument, argument :: rest)

/-- Learn from the arguments what is to be carried out. -/
def readArguments (arguments : List String) : Exec ScriptSource := do
  let (isArgument, words) ← startOptions (arguments.length + 1) false arguments
  let readsInput := (← get).has 's'
  match isArgument, words with
  | true, [] => fail "-c requires an argument"
  | true, text :: rest =>
    modify fun state =>
      { state with name := rest.headD state.name, arguments := rest.tail }
    return .argument text
  | false, [] =>
    modify (·.setOption 's' true)
    return .input
  | false, path :: rest =>
    if readsInput then
      modify fun state => { state with arguments := words }
      return .input
    else
      modify fun state => { state with arguments := rest }
      return .file path

/-- Learn about the process and its working directory. A name for the working directory is taken over
if it is right. -/
def learnSurroundings : Exec Unit := do
  let (number, parent) : Nat × Nat ← Steps.call .identify
  let place : Location ← Steps.call .directory
  let known := ((← get).lookup? "PWD").getD ""
  let leads : Bool ←
    if known.toList.head? = some '/' then do
      match ← Steps.call (.findNode (Octets.toPath known) true) with
      | .ok (found, _) => pure (decide (found = place))
      | .error _ => pure false
    else pure false
  let directory := if leads then known else pathTo place
  modify fun state =>
    let state := state.putVariable "PWD" { value := some directory, isExported := true }
    { state.putVariable "PPID" { value := some (toString parent) } with
      number, parent, directory }

/-- Carry out what the arguments say, and answer with the status. -/
def runSource (levels : Interpreter) (arguments : List String) : Exec Unit := do
  learnSurroundings
  let status ←
    match ← readArguments arguments with
    | .argument text =>
      let isLast := !(← get).has 's'
      levels.script { isLast } { rest := text.toList }
    | .input =>
      let text ← Steps.readAll 0
      levels.script {} { rest := (text.toOption.getD "").toList }
    | .file path =>
      match ← Steps.call (.openFile (Octets.toPath path) .read) with
      | .error error => fail (openingError .read path error)
      | .ok descriptor =>
        let text ← Steps.readAll descriptor
        Steps.call (.close descriptor)
        modify fun state => { state with name := path }
        levels.script {} { rest := (text.toOption.getD "").toList }
  setStatus status

/-- The process of a shell. -/
def start (launcher : Launcher) (launch : Launch) : Process :=
  let levels := interpreter nestingLimit
  (runSource levels launch.arguments.tail) (fun _ state => levels.finish state)
    (fun _ state => levels.finish state) (initialState launcher launch)

end SketchApk.Shell
