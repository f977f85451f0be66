import SketchApk.Process.Launch
import SketchApk.Shell.Arithmetic
import SketchApk.Text.Number

/-!
# The state of a shell

A shell has arguments, variables, functions and options, and the status of the last command. Some of
its variables are exported to the programs that it starts. Traps tell what is done when a signal has
been caught or the shell ends. All texts are octet texts.

A statement may be left early: by leaving a loop or a function, because of a failure, or because the
shell ends.

## Main definitions

* `Shell.State`, `Shell.Variable` : the state of a shell.
* `Shell.Exit` : the ways in which a statement is left early.
* `Shell.Exec` : the monad in which statements are carried out.
-/

namespace SketchApk.Shell

/-- A variable, which may have attributes before it has a value. -/
structure Variable where
  value : Option String := none
  isExported : Bool := false
  isReadOnly : Bool := false

/-- Processes that were started together in the background, with the ends of those that are known to
have ended. -/
structure Job where
  members : List (Nat × Option ProcessEnd)

/-- The state of a shell. -/
structure State where
  launcher : Launcher
  /-- The name by which the shell calls itself. -/
  name : String
  arguments : List String := []
  bindings : List (String × Variable) := []
  functions : List (String × Statement) := []
  /-- The letters of the options that are set. -/
  options : List Char := []
  /-- The line of the current statement. -/
  line : Nat := 0
  /-- The status of the last command. -/
  status : Nat := 0
  /-- The status of the last command whose output was used in the current statement. -/
  substitutionStatus : Nat := 0
  /-- The command that complains. -/
  caller : Option String := none
  /-- What is done when a signal has been caught, or when the shell ends. -/
  traps : List (Option Signal × String) := []
  /-- The status with which the shell ends while a trap is carried out. -/
  savedStatus : Option Nat := none
  lastBackground : Option Nat := none
  jobs : List Job := []
  /-- The number of loops around the current statement, inside of a function. -/
  loops : Nat := 0
  /-- The number of functions around the current statement. -/
  depth : Nat := 0
  /-- Signals that were caught and not dealt with. -/
  pending : List Signal := []
  /-- The current command could not print. -/
  hasLostOutput : Bool := false
  /-- The variables that the functions around the current statement hide, the innermost first. -/
  hidden : List (List (String × Option Variable)) := []
  number : Nat := 1
  parent : Nat := 0
  /-- The working directory by the names that led to it. -/
  directory : String := "/"
  /-- How far the letters of an argument with options have been taken. -/
  lettersTaken : Nat := 0

/-- The ways in which a statement is left early. -/
inductive Exit where
  /-- Leave some loops. -/
  | breaking (levels : Nat)
  /-- Leave some loops but the outermost of them, which goes on with its next round. -/
  | continuing (levels : Nat)
  /-- Leave a function. -/
  | returning
  /-- Something cannot be done. The shell ends unless this is permitted. -/
  | failing
  /-- The shell ends. -/
  | exiting
  deriving DecidableEq, Repr

/-- Something that a shell does. -/
abbrev Exec := Steps State Exit

/-- The separators of fields unless they are set. -/
def usualSeparators : String := " \t\n"

/-- The directories in which programs are searched unless they are set. -/
def usualPath : String := "/usr/local/sbin:/usr/local/bin:/usr/sbin:/usr/bin:/sbin:/bin"

/-- The letters and the names of the options, in order. -/
def optionNames : List (Char × String) :=
  [('e', "errexit"), ('f', "noglob"), ('I', "ignoreeof"), ('i', "interactive"), ('m', "monitor"),
    ('n', "noexec"), ('s', "stdin"), ('x', "xtrace"), ('v', "verbose"), ('V', "vi"),
    ('E', "emacs"), ('C', "noclobber"), ('a', "allexport"), ('b', "notify"), ('u', "nounset"),
    ('p', "privileged"), (Char.ofNat 0, "nolog"), (Char.ofNat 1, "debug")]

namespace State

variable (state : State)

/-- The variable of a name. -/
def variableOf (name : String) : Variable :=
  (state.bindings.lookup name).getD {}

/-- The value of a variable. -/
def lookup? (name : String) : Option String :=
  (state.bindings.lookup name).bind (·.value)

/-- An option is set. -/
def has (letter : Char) : Bool :=
  letter ∈ state.options

/-- The state after a variable has been put in place of one of that name. -/
def putVariable (name : String) (value : Variable) : State :=
  let isKnown := (state.bindings.lookup name).isSome
  { state with
    bindings :=
      if isKnown then
        state.bindings.map fun entry => if entry.1 = name then (name, value) else entry
      else state.bindings ++ [(name, value)] }

/-- The state after a variable has been removed. -/
def dropVariable (name : String) : State :=
  { state with bindings := state.bindings.filter (·.1 ≠ name) }

/-- The state after a variable has been given a value. -/
def assign (name value : String) : State :=
  let old := state.variableOf name
  let isExported := old.isExported || state.has 'a'
  let changed := state.putVariable name { old with value := some value, isExported }
  if name = "OPTIND" then { changed with lettersTaken := 0 } else changed

/-- The characters that separate fields. -/
def separators : List Char :=
  ((state.lookup? "IFS").getD usualSeparators).toList

/-- What stands between the arguments when they are put together. -/
def joint : String :=
  match state.lookup? "IFS" with
  | some separators => String.ofList (separators.toList.take 1)
  | none => " "

/-- The group of a variable in an environment. Variables of an environment are ordered by group. -/
def groupOf (name : String) : Nat :=
  let characters := name.toList
  (characters.foldl (fun total c => total + c.toNat) (16 * (characters.headD ' ').toNat)) % 39

/-- The environment of the programs that are started. -/
def environment : List (String × String) :=
  let exported := state.bindings.filterMap fun entry =>
    if entry.2.isExported then entry.2.value.map fun value => (entry.1, value) else none
  (List.range 39).flatMap fun group => exported.filter fun entry => groupOf entry.1 = group

/-- The letters of the options that are set. -/
def optionLetters : String :=
  String.ofList ((optionNames.map (·.1)).reverse.filter (· ∈ state.options))

/-- The value of a parameter other than the list of all arguments. -/
def parameter? (name : List Char) : Option String :=
  match name with
  | ['?'] => some (toString state.status)
  | ['$'] => some (toString state.number)
  | ['!'] => state.lastBackground.map toString
  | ['#'] => some (toString state.arguments.length)
  | ['-'] => some state.optionLetters
  | _ =>
    if name.all Char.isDigit then
      match (Text.readDigits? 10 0 name).getD 0 with
      | 0 => some state.name
      | n + 1 => state.arguments[n]?
    else state.lookup? (String.ofList name)

end State

/-- The status of a command that fails in the usual way. -/
def failureStatus : Nat := 2

/-- Print to the standard error. -/
def printError (text : String) : Exec Unit :=
  discard (Steps.write 2 text)

/-- Print to the standard output. -/
def printText (text : String) : Exec Unit := do
  match ← Steps.write 1 text with
  | .ok () => return ()
  | .error _ => modify fun state => { state with hasLostOutput := true }

/-- Complain about something. -/
def warn (message : String) : Exec Unit := do
  let state ← get
  let caller := (state.caller.map (· ++ ": ")).getD ""
  printError (state.name ++ ": " ++ toString state.line ++ ": " ++ caller ++ message ++ "\n")

/-- Complain about something that cannot be done, and leave a status. -/
def failWith {α : Type} (status : Nat) (message : String) : Exec α := do
  warn message
  modify fun state => { state with status }
  throw .failing

/-- Complain about something that cannot be done. -/
def fail {α : Type} (message : String) : Exec α :=
  failWith failureStatus message

/-- Fail because of a text that spells no number. -/
def failNumber {α : Type} (text : String) : Exec α :=
  fail ("Illegal number: " ++ text)

/-- The whole number that a text spells, which is not negative. -/
def naturalOf (text : String) : Exec Nat := do
  match Arithmetic.readNumber? false true text.toList with
  | some (.ofNat number) => if number ≤ 2147483647 then return number else failNumber text
  | _ => failNumber text

/-- Set the status of the last command. -/
def setStatus (status : Nat) : Exec Unit :=
  modify fun state => { state with status }

/-- Give a variable a value, unless it is read-only. -/
def assignVariable (name value : String) : Exec Unit := do
  if ((← get).variableOf name).isReadOnly then fail (name ++ ": is read only")
  modify (·.assign name value)

/-- Give a variable a value, if the text in front names a variable. -/
def assignNamed (name value : String) : Exec Unit := do
  unless isName name.toList do fail (name ++ ": bad variable name")
  assignVariable name value

/-- The options that some letters of an argument stand for, and the last one apart if its value is
missing. The options that take a value are followed by a colon among those that are known. -/
def optionsOf (known : List Char) : List Char → Except Char (List (Char × String) × Option Char)
  | [] => .ok ([], none)
  | letter :: more =>
    if letter = ':' || letter ∉ known then .error letter
    else if ((known.dropWhile (· ≠ letter)).drop 1).head? = some ':' then
      if more.isEmpty then .ok ([], some letter) else .ok ([(letter, String.ofList more)], none)
    else (optionsOf known more).map fun (options, last) => ((letter, "") :: options, last)

/-- The options in front of some arguments, each with its value if it has one, and the other arguments.
At most `fuel` arguments are dealt with. -/
def takeOptionsFrom (known : List Char) : (fuel : Nat) → List String →
    Exec (List (Char × String) × List String)
  | 0, arguments => return ([], arguments)
  | _ + 1, [] => return ([], [])
  | fuel + 1, argument :: rest => do
    match argument.toList with
    | ['-', '-'] => return ([], rest)
    | '-' :: first :: letters =>
      match optionsOf known (first :: letters), rest with
      | .error letter, _ => fail ("Illegal option -" ++ letter.toString)
      | .ok (options, none), _ =>
        let (more, others) ← takeOptionsFrom known fuel rest
        return (options ++ more, others)
      | .ok (options, some letter), value :: after =>
        let (more, others) ← takeOptionsFrom known fuel after
        return (options ++ (letter, value) :: more, others)
      | .ok (_, some letter), [] => fail ("No arg for -" ++ letter.toString ++ " option")
    | _ => return ([], argument :: rest)

/-- The options in front of some arguments, each with its value if it has one, and the other
arguments. -/
def takeOptions (known : String) (arguments : List String) :
    Exec (List (Char × String) × List String) :=
  takeOptionsFrom known.toList arguments.length arguments

/-- Do something, and something else afterwards even if the first is left early. -/
def ensuring {α : Type} (body : Exec α) (afterwards : Exec Unit) : Exec α := do
  let value ← tryCatch body fun exit => do
    afterwards
    throw exit
  afterwards
  return value

end SketchApk.Shell
