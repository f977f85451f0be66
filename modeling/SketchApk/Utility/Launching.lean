import SketchApk.Utility.Format
import SketchApk.Utility.Input

/-!
# Utilities that run programs

A program is run with other variables, for a limited time, or with arguments that are read from the standard
input. Some of these utilities turn into the program, others wait for it.

## Main definitions

* `Utility.execute` : turning into another program.
* `Utility.runInEnvironment`, `Utility.runForTime`, `Utility.runWithInput` : the utilities.
-/

namespace SketchApk.Utility

/-- The directories in which programs are searched if no others are named. -/
def defaultPath : String := "/bin:/usr/bin"

/-- The paths at which a program may be found. -/
def programPaths (environment : List (String × String)) (name : String) : List String :=
  if '/' ∈ name.toList then [name]
  else
    let directories := ((environment.lookup "PATH").getD defaultPath).splitOn ":"
    directories.map fun directory =>
      if directory.isEmpty then name else inDirectory directory name

/-- Turn into the program that words name, which is given the words as arguments. When that is impossible,
go on in another way. -/
def execute {α : Type} (environment : List (String × String)) (words : List String)
    (report : FileError → Work α) : Work α :=
  fun next left state =>
    let name := words.headD ""
    let paths := if name.isEmpty then [] else programPaths environment name
    state.launcher.first words environment (fun error => report error next left state) .notFound paths

/-- The status after a program could not be launched. -/
def launchFailure (error : FileError) : Nat :=
  if error = .notFound then 127 else 126

/-- Start a child that turns into a program. -/
def startChild (environment : List (String × String)) (words : List String)
    (prepare : Work Unit) (report : FileError → Work Unit) : Work Nat :=
  let child : Work Unit := do
    prepare
    execute environment words fun error => do
      report error
      Steps.halt (launchFailure error)
  Steps.fork fun state => child.toProcess (fun _ => .exit 0) (fun status _ => .exit status) state

/-- An environment with a variable. -/
def setVariable (environment : List (String × String)) (name value : String) :
    List (String × String) :=
  if environment.any (·.1 = name) then
    environment.map fun entry => if entry.1 = name then (name, value) else entry
  else environment ++ [(name, value)]

/-- The environment after assignments at the front of some words, and the other words. -/
def takeAssignments (environment : List (String × String)) :
    List String → List (String × String) × List String
  | [] => (environment, [])
  | word :: rest =>
    let name := word.toList.takeWhile (· ≠ '=')
    match word.toList.drop name.length with
    | _ :: value =>
      takeAssignments (setVariable environment (String.ofList name) (String.ofList value)) rest
    | [] => (environment, word :: rest)

/-- The words of a text that is split at blanks, where quotes hold words together. -/
def splitWords : (fuel : Nat) → (word : Option (List Char)) → List Char → List String
  | 0, word, _ => (word.map fun c => String.ofList c.reverse).toList
  | _ + 1, word, [] => (word.map fun c => String.ofList c.reverse).toList
  | fuel + 1, word, c :: rest =>
    if Text.isSpacing c then
      (word.map fun c => String.ofList c.reverse).toList ++ splitWords fuel none rest
    else if c = '\'' || c = '"' then
      let inner := rest.takeWhile (· ≠ c)
      splitWords fuel (some (inner.reverse ++ word.getD [])) ((rest.dropWhile (· ≠ c)).drop 1)
    else if c = '\\' then
      match rest with
      | d :: after => splitWords fuel (some (d :: word.getD [])) after
      | [] => splitWords fuel word rest
    else splitWords fuel (some (c :: word.getD [])) rest

/-- Arguments in which a text that is to be split is replaced by its words. -/
def withSplitWords (arguments : List String) : List String :=
  match arguments with
  | [] => []
  | first :: rest =>
    match first.toList with
    | '-' :: 'S' :: text =>
      if text.isEmpty then
        match rest with
        | [] => arguments
        | next :: after => splitWords (next.length + 1) none next.toList ++ after
      else splitWords (text.length + 1) none text ++ rest
    | _ => arguments

/-- Run a program with other variables, or print the environment. -/
def runInEnvironment : Utility := fun arguments => do
  let table : OptionTable :=
    { letters := "iu:C:v0"
      long := [⟨"ignore-environment", 'i', false, false⟩, ⟨"unset", 'u', true, false⟩,
        ⟨"chdir", 'C', true, false⟩, ⟨"null", '0', false, false⟩]
      failure := 125, stopsAtOperand := true }
  let given ← table.parse (withSplitWords arguments)
  let operands := if given.operands.head? = some "-" then given.operands.tail else given.operands
  let isEmpty := given.has 'i' || given.operands.head? = some "-"
  let known := (← get).environment
  let start := if isEmpty then [] else known
  let kept := start.filter fun entry => entry.1 ∉ given.values 'u'
  let (environment, words) := takeAssignments kept operands
  match given.value? 'C' with
  | none => pure ()
  | some directory =>
    match ← Steps.call (.changeDirectory (Octets.toPath directory)) with
    | .ok () => pure ()
    | .error error => giveUp 125 ("cannot change directory to " ++ quoted directory ++ ": " ++ error.reason)
  match words with
  | [] =>
    let ending := if given.has '0' then (Char.ofNat 0).toString else "\n"
    emit (String.join (environment.map fun entry => entry.1 ++ "=" ++ entry.2 ++ ending))
    return 0
  | name :: _ =>
    execute environment words fun error => do
      complain (quoted name ++ ": " ++ error.reason)
      if ' ' ∈ name.toList && error = .notFound then
        complain "use -[v]S to pass options in shebang lines"
      return launchFailure error

/-- Print variables of the environment. -/
def printVariables : Utility := fun arguments => do
  let table : OptionTable :=
    { letters := "0", long := [⟨"null", '0', false, false⟩], failure := 2 }
  let given ← table.parse arguments
  let environment := (← get).environment
  let ending := if given.has '0' then (Char.ofNat 0).toString else "\n"
  if given.operands.isEmpty then
    emit (String.join (environment.map fun entry => entry.1 ++ "=" ++ entry.2 ++ ending))
    return 0
  else
    forEach (fun name => do
      match environment.lookup name with
      | some value =>
        emit (value ++ ending)
        return true
      | none => return false) given.operands

/-- Run a program with a lower priority. -/
def runNicely : Utility := fun arguments => do
  let isNumber (text : String) : Bool :=
    match text.toList with
    | '-' :: c :: rest => (c :: rest).all Char.isDigit
    | _ => false
  let settled :=
    match arguments with
    | first :: rest => if isNumber first then ("-n" ++ String.ofList (first.toList.drop 1)) :: rest
      else arguments
    | [] => []
  let table : OptionTable :=
    { letters := "n:", long := [⟨"adjustment", 'n', true, false⟩], failure := 125
      stopsAtOperand := true }
  let given ← table.parse settled
  match given.operands with
  | [] =>
    emitLine "0"
    return 0
  | name :: _ =>
    execute (← get).environment given.operands fun error => do
      complain (quoted name ++ ": " ++ error.reason)
      return launchFailure error

/-- Run a program that ignores the end of a session. -/
def runImmune : Utility := fun arguments => do
  let words := if arguments.head? = some "--" then arguments.tail else arguments
  match words with
  | [] => giveUpUsage 125 "missing operand"
  | name :: _ =>
    Steps.call (.handle .hup .ignore)
    execute (← get).environment words fun error => do
      complain ("failed to run command " ++ quoted name ++ ": " ++ error.reason)
      return launchFailure error

/-- The number of microseconds that a text with a unit spells. -/
def duration? (text : String) : Option Nat :=
  let chars := text.toList
  let (number, factor) : List Char × Nat :=
    match chars.getLast? with
    | some 's' => (chars.dropLast, 1)
    | some 'm' => (chars.dropLast, 60)
    | some 'h' => (chars.dropLast, 3600)
    | some 'd' => (chars.dropLast, 86400)
    | _ => (chars, 1)
  let whole := number.takeWhile Char.isDigit
  let rest := number.dropWhile Char.isDigit
  if String.ofList chars = "infinity" || String.ofList chars = "inf" then some 1000000000000000
  else
    match rest with
    | [] => if whole.isEmpty then none else (Text.readDigits? 10 0 whole).map (· * factor * 1000000)
    | '.' :: places =>
      if whole.isEmpty && places.isEmpty then none
      else do
        let value ← Text.readDigits? 10 0 (whole ++ places)
        return value * factor * 1000000 / Nat.pow 10 places.length
    | _ => none

/-- A child that lets time pass and then sends a signal to some targets. -/
def startTimer (time : Nat) (targets : List Int) (signal : Signal) : Work Nat :=
  let sending (signal : Signal) (after : Process) : Process :=
    targets.foldr (fun target rest => .step (.kill target (some signal)) fun _ => rest) after
  Steps.fork fun _ =>
    .step (.handle signal .ignore) fun _ =>
      .step (.sleep time) fun _ => sending signal (sending .cont (.exit 0))

/-- Stop a timer, and tell whether its time had passed. -/
def stopTimer (timer : Nat) : Work Bool := do
  let _ ← Steps.call (.kill timer (some .kill))
  return (← Steps.waitFor timer) matches .exited _

/-- Run a program for a limited time. -/
def runForTime : Utility := fun arguments => do
  let table : OptionTable :=
    { letters := "k:s:v"
      long := [⟨"kill-after", 'k', true, false⟩, ⟨"signal", 's', true, false⟩,
        ⟨"preserve-status", 'p', false, false⟩, ⟨"foreground", 'f', false, false⟩,
        ⟨"verbose", 'v', false, false⟩]
      failure := 125, stopsAtOperand := true }
  let given ← table.parse arguments
  let readTime (text : String) : Work Nat := do
    match duration? text with
    | some time => return time
    | none => giveUpUsage 125 ("invalid time interval " ++ cited text)
  let signal ←
    match given.value? 's' with
    | none => pure Signal.term
    | some text =>
      let upper := text.toUpper
      let bare := if "SIG".toList.isPrefixOf upper.toList then String.ofList (upper.toList.drop 3) else upper
      match (bare.toNat?.bind Signal.ofNumber?).orElse fun _ => Signal.ofName? bare with
      | some signal => pure signal
      | none => giveUpUsage 125 (cited text ++ ": invalid signal")
  match given.operands with
  | [] | [_] => suggestHelp 125
  | limit :: words =>
    let time ← readTime limit
    let further ←
      match given.value? 'k' with
      | some text => pure (some (← readTime text))
      | none => pure none
    let isAlone := given.has 'f'
    unless isAlone do
      Steps.call .leadFamily
      Steps.call (.handle signal .notice)
    let child ← startChild (← get).environment words (pure ()) fun error =>
      complain ("failed to run command " ++ quoted (words.headD "") ++ ": " ++ error.reason)
    if time = 0 then
      return (← Steps.waitFor child).status
    else
      let targets : List Int := if isAlone then [child] else [child, 0]
      let timer ← startTimer time targets signal
      let second? ←
        match further with
        | some more => pure (some (← startTimer (time + more) targets .kill))
        | none => pure none
      let ending ← Steps.waitFor child
      let isOver ← stopTimer timer
      let isKilled ←
        match second? with
        | some second => stopTimer second
        | none => pure false
      let isLate := isOver || isKilled
      match ending with
      | .killed signal =>
        unless isLate do
          Steps.call (.handle signal .default)
          let own : Nat := (← Steps.call .identify : Nat × Nat).1
          let _ ← Steps.call (.kill own (some signal))
        return if isLate && signal ≠ .kill && !given.has 'p' then 124 else 128 + signal.number
      | .exited status => return if isLate && !given.has 'p' then 124 else status

/-- How the standard input is split into arguments. -/
inductive InputForm where
  /-- At blanks and ends of lines, where quotes and backslashes hold words together. -/
  | words
  /-- At ends of lines. -/
  | lines
  | separated (mark : Char)

/-- What is wrong with the quotes in some input. -/
inductive QuoteError where
  | single
  | double

/-- The name of a quote. -/
def QuoteError.name : QuoteError → String
  | single => "single"
  | double => "double"

/-- The words of a text, each with the flag that it is the last one of its line, up to the first one whose
quotes are wrong. At most `fuel` characters are dealt with. -/
def quotedWords : (fuel : Nat) → (word : Option (List Char)) → List Char →
    List (String × Bool) × Option QuoteError
  | 0, word, _ | _ + 1, word, [] =>
    ((word.map fun c => (String.ofList c.reverse, true)).toList, none)
  | fuel + 1, word, c :: rest =>
    if c = '\'' || c = '"' then
      let inner := rest.takeWhile fun d => d ≠ c && d ≠ '\n'
      match rest.drop inner.length with
      | d :: after =>
        if d = c then quotedWords fuel (some (inner.reverse ++ word.getD [])) after
        else ([], some (if c = '"' then .double else .single))
      | [] => ([], some (if c = '"' then .double else .single))
    else if c = '\\' then
      match rest with
      | d :: after => quotedWords fuel (some (d :: word.getD [])) after
      | [] => quotedWords fuel word []
    else if c = ' ' || c = '\t' || c = '\n' then
      let (more, error?) := quotedWords fuel none rest
      ((word.map fun chars => (String.ofList chars.reverse, decide (c = '\n'))).toList ++ more, error?)
    else quotedWords fuel (some (c :: word.getD [])) rest

/-- The arguments in an input. -/
def inputArguments (form : InputForm) (text : List Char) :
    List (String × Bool) × Option QuoteError :=
  match form with
  | .words => quotedWords (text.length + 1) none text
  | .lines =>
    let lines := (linesOf '\n' text).map fun line => line.text.dropWhile fun c => c = ' ' || c = '\t'
    ((lines.filter (!·.isEmpty)).map fun line => (String.ofList line, true), none)
  | .separated mark => ((linesOf mark text).map fun line => (String.ofList line.text, true), none)

/-- Arguments in groups of limited size. At most `fuel` groups are made. -/
def groupsOf (size : Nat) : (fuel : Nat) → List String → List (List String)
  | 0, _ => []
  | fuel + 1, arguments =>
    if arguments.isEmpty then [] else arguments.take size :: groupsOf size fuel (arguments.drop size)

/-- Arguments in groups from a limited number of lines. -/
def groupsOfLines (size : Nat) : (count : Nat) → (group : List String) → List (String × Bool) →
    List (List String)
  | _, group, [] => if group.isEmpty then [] else [group.reverse]
  | count, group, (argument, isLast) :: rest =>
    if isLast && size ≤ count + 1 then (argument :: group).reverse :: groupsOfLines size 0 [] rest
    else groupsOfLines size (if isLast then count + 1 else count) (argument :: group) rest

/-- A text with every occurrence of a mark replaced. At most `fuel` characters are dealt with. -/
def replaceMark (mark replacement : List Char) : (fuel : Nat) → List Char → List Char
  | 0, text => text
  | _ + 1, [] => []
  | fuel + 1, c :: rest =>
    if !mark.isEmpty && mark.isPrefixOf (c :: rest) then
      replacement ++ replaceMark mark replacement fuel ((c :: rest).drop mark.length)
    else c :: replaceMark mark replacement fuel rest

/-- Run programs one after the other, and answer with the status. A program that cannot be run, or that asks
for it, ends the series. -/
def runSeries (isTraced : Bool) : (status : Nat) → List (List String) → Work Nat
  | status, [] => return status
  | status, words :: rest => do
    let name := words.headD ""
    if isTraced then printError (" ".intercalate (words.map shown) ++ "\n")
    let child ← startChild (← get).environment words
      (do
        match ← Steps.call (.openFile ⟨"/dev/null"⟩ .read) with
        | .ok descriptor =>
          let _ ← Steps.call (.duplicate descriptor 0)
          unless descriptor = 0 do Steps.call (.close descriptor)
        | .error _ => pure ())
      fun error => complain (nameAndReason name error)
    match ← Steps.waitFor child with
    | .killed signal => giveUp 125 (shown name ++ ": terminated by signal " ++ toString signal.number)
    | .exited 255 => giveUp 124 (shown name ++ ": exited with status 255; aborting")
    | .exited 126 => return 126
    | .exited 127 => return 127
    | .exited 0 => runSeries isTraced status rest
    | .exited _ => runSeries isTraced 123 rest

/-- Run a program with arguments that are read from the standard input. -/
def runWithInput : Utility := fun arguments => do
  let table : OptionTable :=
    { letters := "0a:d:E:I:L:n:oP:prs:tx"
      long := [⟨"null", '0', false, false⟩, ⟨"arg-file", 'a', true, false⟩,
        ⟨"delimiter", 'd', true, false⟩, ⟨"max-args", 'n', true, false⟩,
        ⟨"max-lines", 'L', true, true⟩, ⟨"max-procs", 'P', true, false⟩,
        ⟨"no-run-if-empty", 'r', false, false⟩, ⟨"replace", 'I', true, true⟩,
        ⟨"verbose", 't', false, false⟩]
      stopsAtOperand := true }
  let given ← table.parse arguments
  let mark? : Option Char :=
    match given.last? ['0', 'd'] with
    | some '0' => some (Char.ofNat 0)
    | some _ => (Format.unescape .program ((given.value? 'd').getD "").toList).1.head?
    | none => none
  let template? := if given.has 'I' then some ((given.value? 'I').getD "\x7b\x7d") else none
  let form : InputForm :=
    match mark?, template? with
    | some mark, _ => .separated mark
    | none, some _ => .lines
    | none, none => .words
  let text ←
    match ← readFile ((given.value? 'a').getD "-") with
    | .ok text => pure text
    | .error error => giveUp 1 (nameAndReason ((given.value? 'a').getD "-") error)
  let command := if given.operands.isEmpty then ["echo"] else given.operands
  let number? (letter : Char) : Option Nat := (given.value? letter).bind String.toNat?
  if template?.isSome && given.has 'n' then
    complain ("warning: options --max-args and --replace/-I/-i are mutually exclusive, " ++
      "ignoring previous --max-args value")
  let (found, error?) := inputArguments form text.toList
  if let some error := error? then
    complain ("unmatched " ++ error.name ++ " quote; by default quotes are special to xargs unless " ++
      "you use the -0 option")
  let texts := found.map (·.1)
  let series : List (List String) :=
    match template? with
    | some template =>
      texts.map fun text => command.map fun word =>
        String.ofList (replaceMark template.toList text.toList (word.length + 1) word.toList)
    | none =>
      let groups :=
        match given.last? ['n', 'L'] with
        | some 'n' => groupsOf (max ((number? 'n').getD 1) 1) (texts.length + 1) texts
        | some _ => groupsOfLines ((number? 'L').getD 1) 0 [] found
        | none => groupsOf 5000 (texts.length + 1) texts
      if groups.isEmpty && !given.has 'r' && error?.isNone then [command]
      else groups.map (command ++ ·)
  let status ← runSeries (given.has 't') 0 series
  return if error?.isSome then 1 else status

end SketchApk.Utility
