import SketchApk.Regex.Match
import SketchApk.Utility.Editing.Command
import SketchApk.Utility.Input

/-!
# Carrying editing scripts out

In each cycle a line is read, the commands are carried out for it, and it is printed. A command may read
further lines, begin the next cycle, or end the run. Texts that are appended are printed at the end of the
cycle, or before another line is read.

## Main definitions

* `Editing.State` : how far a run has come.
* `Editing.runCycles` : a run.
-/

namespace SketchApk.Editing

open Utility (Line)

/-- What is printed at the end of a cycle. -/
inductive Appended where
  | text (text : List Char)
  | file (name : String)

/-- How far a range of lines has come. -/
inductive RangeState where
  /-- The range ends with the line of a number. -/
  | upTo (line : Nat)
  /-- The range ends with a line that its last address describes. -/
  | unlimited
  /-- The range has ended and does not begin again. -/
  | over
  deriving DecidableEq

/-- How files are edited. -/
structure Style where
  isQuiet : Bool := false
  /-- The text behind the names under which old files are kept, if files are changed. -/
  suffix : Option String := none
  changesFiles : Bool := false
  /-- Files are dealt with one by one. -/
  isSeparate : Bool := false
  ending : Char := '\n'
  /-- The number of bytes that are read at a time. -/
  portion : Nat := 65536

/-- How far a run has come. -/
structure State where
  /-- The files that have not been opened. -/
  files : List String
  /-- The file that is being read, with its descriptor. -/
  current : Option (String × Nat) := none
  /-- Lines that have been read and not been dealt with. -/
  lines : List Line := []
  /-- The beginning of a line whose end has not been read. -/
  partialLine : List Char := []
  /-- The present file has been read up to its end. -/
  isExhausted : Bool := false
  number : Nat := 0
  pattern : List Char := []
  /-- An end of line belongs to the present line. -/
  isEnded : Bool := true
  held : List Char := []
  hasReplaced : Bool := false
  appended : List Appended := []
  /-- The ranges that have begun, by the numbers of their commands. -/
  ranges : List (Nat × RangeState) := []
  /-- The expression that was used last. -/
  lastRegex : Option Regex := none
  /-- Files that are written, with their descriptors. -/
  outputs : List (String × Nat) := []
  /-- Files of which single lines are read, with the lines that are left. -/
  sources : List (String × List Line) := []
  /-- What has been printed for a file that is changed. -/
  changed : List (List Char) := []
  /-- The last line that was printed lacks its end. -/
  lacksEnd : Bool := false
  status : Nat := 0

/-- Something that is done in a run. -/
abbrev Edit := StateT State Work

/-- How a cycle goes on after a command. -/
inductive Outcome where
  /-- Go on with the command of a number. -/
  | goOn (command : Nat)
  /-- The cycle ends, and the line may be printed. -/
  | finish (prints : Bool)
  /-- The commands are carried out again for what is left of the line. -/
  | restart
  | quit (status : Nat) (prints : Bool)

variable (style : Style)

/-- Print characters. -/
def put (text : List Char) : Edit Unit := do
  let state ← get
  let whole := if state.lacksEnd && !text.isEmpty then style.ending :: text else text
  if !text.isEmpty then modify fun state => { state with lacksEnd := false }
  if style.changesFiles then
    modify fun state => { state with changed := whole :: state.changed }
  else liftM (Utility.emit (String.ofList whole) : Work Unit)

/-- Print a line, with its end unless it has none. -/
def putLine (text : List Char) (isEnded : Bool) : Edit Unit := do
  put style (if isEnded then text ++ [style.ending] else text)
  unless isEnded do modify fun state => { state with lacksEnd := true }

/-- Write a line to a file. -/
def writeTo (name : String) (text : List Char) : Edit Unit := do
  let state ← get
  if name = "/dev/stdout" then putLine style text true
  else if name = "/dev/stderr" then
    liftM (Utility.printError (String.ofList (text ++ ['\n'])) : Work Unit)
  else
    match List.lookup name state.outputs with
    | some descriptor =>
      discard (liftM (Steps.write descriptor (String.ofList (text ++ [style.ending])) :
        Work (Except FileError Unit)))
    | none => pure ()

/-- Put the new content of a file in place of the old one. -/
def replaceFile (name : String) : Edit Unit := do
  let state ← get
  let content := Content.bytes (Octets.toBytes (String.ofList state.changed.reverse.flatten))
  set { state with changed := [], lacksEnd := false }
  let path := Octets.toPath name
  let work : Work Unit := do
    let mode := (← Utility.modeAt? name).getD Mode.newFile
    match style.suffix with
    | some suffix =>
      let kept :=
        if '*' ∈ suffix.toList then
          String.ofList (suffix.toList.flatMap fun c => if c = '*' then name.toList else [c])
        else name ++ suffix
      discard (Utility.perform (.rename path (Octets.toPath kept)))
    | none => discard (Utility.perform (.removeFile path))
    discard (Utility.perform (.write path content))
    discard (Utility.setMode name mode)
  liftM work

/-- Leave the file that is being read. -/
def closeCurrent : Edit Unit := do
  match (← get).current with
  | none => pure ()
  | some (name, descriptor) =>
    liftM (Utility.closeInput descriptor : Work Unit)
    if style.changesFiles then replaceFile style name
    modify fun state => { state with current := none, isExhausted := false }

/-- Open the next file that can be opened. At most `fuel` files are tried. -/
def openNext : (fuel : Nat) → Edit Unit
  | 0 => pure ()
  | fuel + 1 => do
    match (← get).files with
    | [] => pure ()
    | name :: rest =>
      modify fun state => { state with files := rest }
      let failed (message : String) (status : Nat) : Edit Unit := do
        liftM (Utility.complain message : Work Unit)
        modify fun state => { state with status := max state.status status }
        openNext fuel
      let isRegular ← liftM (do
        match ← Utility.nodeAt? name true with
        | .ok (_, .directory _) => return false
        | _ => return true : Work Bool)
      if style.changesFiles && !isRegular then
        failed ("couldn't edit " ++ name ++ ": not a regular file") 4
      else
        match ← liftM (Utility.openInput name : Work (Except FileError Nat)) with
        | .error error => failed ("can't read " ++ name ++ ": " ++ error.reason) 2
        | .ok descriptor =>
          modify fun state =>
            { state with
              current := some (name, descriptor)
              isExhausted := false
              number := if style.isSeparate then 0 else state.number }

/-- Read more of the file that is being read. -/
def readMore (name : String) (descriptor : Nat) : Edit Unit := do
  match ← liftM (Steps.call (.read descriptor style.portion) : Work (Except FileError ByteArray)) with
  | .error error =>
    liftM (Utility.complain ("read error on " ++ name ++ ": " ++ error.reason) : Work Unit)
    liftM (throw 4 : Work Unit)
  | .ok data =>
    modify fun state =>
      if data.isEmpty then
        let last : List Line :=
          if state.partialLine.isEmpty then []
          else [{ text := state.partialLine, isEnded := false }]
        { state with lines := state.lines ++ last, partialLine := [], isExhausted := true }
      else
        let all := Utility.linesOf style.ending (state.partialLine ++ (Octets.ofBytes data).toList)
        let (complete, rest) := all.partition (·.isEnded)
        { state with
          lines := state.lines ++ complete
          partialLine := (rest.map (·.text)).flatten }

/-- Provide for a line that follows, and tell whether there is one. In separate files, only the present file
counts unless `crosses` is set. At most `fuel` parts are read. -/
def hasLine (crosses : Bool) : (fuel : Nat) → Edit Bool
  | 0 => return false
  | fuel + 1 => do
    let state ← get
    if !state.lines.isEmpty then return true
    else
      match state.current with
      | some (name, descriptor) =>
        if !state.isExhausted then
          readMore style name descriptor
          hasLine crosses fuel
        else if style.isSeparate && !crosses then return false
        else
          closeCurrent style
          hasLine crosses fuel
      | none =>
        if state.files.isEmpty || (style.isSeparate && !crosses) then return false
        else
          openNext style (state.files.length + 1)
          hasLine crosses fuel

/-- The present line is the last one. -/
def isLast : Edit Bool := do
  return !(← hasLine style false Steps.manyTimes)

/-- Take the next line, and tell whether there is one. -/
def takeLine : Edit (Option Line) := do
  if ← hasLine style true Steps.manyTimes then
    let state ← get
    match state.lines with
    | line :: rest =>
      set { state with lines := rest, number := state.number + 1 }
      return some line
    | [] => return none
  else return none

/-- Print what was appended. -/
def flushAppended : Edit Unit := do
  let state ← get
  set { state with appended := [] }
  for item in state.appended do
    match item with
    | .text text => put style text
    | .file name =>
      match ← liftM (Utility.readFile (if name = "/dev/stdin" then "-" else name) :
          Work (Except FileError String)) with
      | .ok text => put style text.toList
      | .error _ => pure ()

/-- The regular expression of a pattern. -/
def regexOf (pattern : Pattern) : Edit Regex := do
  match pattern.regex with
  | some regex =>
    modify fun state => { state with lastRegex := some regex }
    return regex
  | none =>
    match (← get).lastRegex with
    | some regex => return regex
    | none =>
      liftM (Utility.giveUp 1 "-e expression #1, char 0: no previous regular expression" : Work Unit)
      return .empty

/-- The way in which a pattern is matched. -/
def Pattern.mode (pattern : Pattern) : Regex.Mode :=
  { ignoresCase := pattern.ignoresCase, isMultiline := pattern.isMultiline }

/-- An address describes the present line. -/
def isAddressed : Address → Edit Bool
  | .line number => return (← get).number = number
  | .step first distance => do
    let number := (← get).number
    return first ≤ number && (number - first) % distance = 0
  | .last => isLast style
  | .pattern pattern => do
    let regex ← regexOf pattern
    return (regex.find? pattern.mode (← get).pattern.toArray 0).isSome

/-- The number of the last line of a range that begins with a line, if it is given by a number. -/
def rangeLimit? (number : Nat) : RangeEnd → Option Nat
  | .address (.line last) => some last
  | .lines count => some (number + count)
  | .multiple factor => some (if factor = 0 then number else (number / factor + 1) * factor)
  | .address _ => none

/-- The range of a command is in a state, or has not begun. -/
def setRange (command : Nat) (range : Option RangeState) : Edit Unit :=
  modify fun state =>
    let others := state.ranges.filter (·.1 ≠ command)
    { state with ranges := (range.map fun range => (command, range)).toList ++ others }

/-- The present line is selected for a command with a number. -/
def isSelected (command : Nat) (selection : Selection) : Edit Bool := do
  match selection.first, selection.last with
  | none, _ => return true
  | some first, none => isAddressed style first
  | some first, some last =>
    let state ← get
    let number := state.number
    let isFromStart := first matches .line 0
    let range := (List.lookup command state.ranges).orElse fun _ =>
      if isFromStart then some .unlimited else none
    match range with
    | some .over => return false
    | some (.upTo limit) =>
      if limit ≤ number then setRange command none
      return number ≤ limit || !(last matches .address _)
    | some .unlimited =>
      let isEnd ←
        match last with
        | .address address => isAddressed style address
        | _ => pure true
      if isEnd then setRange command (if isFromStart then some .over else none)
      return true
    | none =>
      if ← isAddressed style first then
        match rangeLimit? number last with
        | some limit => if number < limit then setRange command (some (.upTo limit))
        | none => setRange command (some .unlimited)
        return true
      else return false

/-- The case of a character after a change. -/
def CaseChange.apply (change : CaseChange) (c : Char) : Char :=
  match change with
  | .none => c
  | .upper => c.toUpper
  | .lower => c.toLower

/-- A text after changes of case: one for its first character, if there is one, and one for the others. -/
def changeCase (next : Option CaseChange) (change : CaseChange) : List Char → List Char
  | [] => []
  | c :: rest => (next.getD change).apply c :: rest.map change.apply

/-- The text by which a match is replaced. -/
def replacementText (text : Array Char) (found : Regex.Found) :
    (next : Option CaseChange) → CaseChange → List ReplacementPart → List Char
  | _, _, [] => []
  | next, change, part :: rest =>
    let add (piece : List Char) : List Char :=
      if piece.isEmpty then replacementText text found next change rest
      else changeCase next change piece ++ replacementText text found none change rest
    match part with
    | .text piece => add piece
    | .group 0 => add (Regex.slice text found.start found.stop)
    | .group number =>
      match List.lookup number found.groups with
      | some (start, stop) => add (Regex.slice text start stop)
      | none => replacementText text found next change rest
    | .change changed => replacementText text found none changed rest
    | .changeNext changed => replacementText text found (some changed) change rest

/-- A text with matches replaced from a position on, and the flag that one was replaced. At most `fuel`
matches are dealt with. The position behind the last match is given. -/
def replaceMatches (substitution : Substitution) (regex : Regex) (text : Array Char) :
    (fuel count position : Nat) → (last : Option Nat) → List Char × Bool
  | 0, _, position, _ => (Regex.slice text position text.size, false)
  | fuel + 1, count, position, last =>
    match regex.find? substitution.pattern.mode text position with
    | none => (Regex.slice text position text.size, false)
    | some found =>
      let isEmpty := found.start = found.stop
      let between := Regex.slice text position found.start
      let step := (text[found.stop]?).toList
      if isEmpty && last = some found.start then
        if text.size ≤ found.stop then (between, false)
        else
          let (rest, hasReplaced) :=
            replaceMatches substitution regex text fuel count (found.stop + 1) none
          (between ++ step ++ rest, hasReplaced)
      else
        let isReplaced := substitution.number ≤ count + 1
        let shown :=
          if isReplaced then replacementText text found none .none substitution.parts
          else Regex.slice text found.start found.stop
        if isReplaced && !substitution.isGlobal then
          (between ++ shown ++ Regex.slice text found.stop text.size, true)
        else if isEmpty then
          if text.size ≤ found.stop then (between ++ shown, isReplaced)
          else
            let (rest, hasReplaced) :=
              replaceMatches substitution regex text fuel (count + 1) (found.stop + 1) none
            (between ++ shown ++ step ++ rest, isReplaced || hasReplaced)
        else
          let (rest, hasReplaced) :=
            replaceMatches substitution regex text fuel (count + 1) found.stop (some found.stop)
          (between ++ shown ++ rest, isReplaced || hasReplaced)

/-- A character in the listing of a line. -/
def listedCharacter (c : Char) : List Char :=
  if c = '\\' then ['\\', '\\']
  else
    match Text.octetEscape? c with
    | some escape => escape
    | none => [c]

/-- The lines of a listing with a limited width. -/
def foldListing (width : Nat) : (column : Nat) → List (List Char) → List Char
  | _, [] => ['$', '\n']
  | column, item :: rest =>
    if 1 < width && width ≤ column + item.length then
      '\\' :: '\n' :: item ++ foldListing width item.length rest
    else item ++ foldListing width (column + item.length) rest

/-- The first line of a text, and whether more lines follow. -/
def firstLine (text : List Char) : List Char × Option (List Char) :=
  match text.dropWhile (· ≠ '\n') with
  | [] => (text, none)
  | _ :: rest => (text.takeWhile (· ≠ '\n'), some rest)

/-- Go on at a label, or at the end of the script. -/
def branchTo (script : Script) (label : List Char) : Outcome :=
  if label.isEmpty then .finish true
  else
    match script.label? label with
    | some command => .goOn command
    | none => .finish true

/-- Carry a command out that has a number. -/
def perform (script : Script) (number : Nat) (command : Command) : Edit Outcome := do
  let state ← get
  let goOn : Edit Outcome := return .goOn (number + 1)
  let setPattern (text : List Char) : Edit Outcome := do
    modify fun state => { state with pattern := text }
    goOn
  match command.action with
  | .nothing | .opening _ | .label _ => goOn
  | .append text =>
    modify fun state => { state with appended := state.appended ++ [.text text] }
    goOn
  | .readFile name =>
    modify fun state => { state with appended := state.appended ++ [.file name] }
    goOn
  | .readLine name =>
    let left ←
      match List.lookup name state.sources with
      | some left => pure left
      | none =>
        let text ← liftM (Utility.readFile name : Work (Except FileError String))
        pure (Utility.linesOf '\n' (text.toOption.getD "").toList)
    modify fun state =>
      { state with
        sources := (name, left.tail) :: state.sources.filter (·.1 ≠ name)
        appended := state.appended ++
          (left.head?.map fun line => Appended.text (line.text ++ ['\n'])).toList }
    goOn
  | .insert text =>
    put style text
    goOn
  | .change text =>
    let isInside := command.selection.last.isSome && !command.selection.isInverted &&
      (List.lookup number state.ranges).any (· ≠ .over)
    unless isInside do put style text
    return .finish false
  | .branch label => return branchTo script label
  | .branchIfReplaced label =>
    if state.hasReplaced then
      modify fun state => { state with hasReplaced := false }
      return branchTo script label
    else goOn
  | .branchUnlessReplaced label =>
    if state.hasReplaced then
      modify fun state => { state with hasReplaced := false }
      goOn
    else return branchTo script label
  | .delete => return .finish false
  | .deleteFirstLine =>
    match (firstLine state.pattern).2 with
    | none => return .finish false
    | some rest =>
      modify fun state => { state with pattern := rest }
      return .restart
  | .fileName =>
    put style ((state.current.map (·.1)).getD "-" ++ "\n").toList
    goOn
  | .takeHeld => setPattern state.held
  | .appendHeld => setPattern (state.pattern ++ '\n' :: state.held)
  | .hold =>
    modify fun state => { state with held := state.pattern }
    goOn
  | .appendToHeld =>
    modify fun state => { state with held := state.held ++ '\n' :: state.pattern }
    goOn
  | .exchange =>
    modify fun state => { state with held := state.pattern, pattern := state.held }
    goOn
  | .list width =>
    put style (foldListing (width.getD 70) 0 (state.pattern.map listedCharacter))
    goOn
  | .next =>
    if ← isLast style then
      if !(← hasLine style true Steps.manyTimes) then return .quit 0 true
    unless style.isQuiet do putLine style (← get).pattern (← get).isEnded
    flushAppended style
    match ← takeLine style with
    | none => return .quit 0 false
    | some line =>
      modify fun state => { state with pattern := line.text, isEnded := line.isEnded }
      goOn
  | .appendNext =>
    if !(← hasLine style true Steps.manyTimes) then return .quit 0 true
    flushAppended style
    match ← takeLine style with
    | none => return .quit 0 true
    | some line =>
      modify fun state =>
        { state with pattern := state.pattern ++ '\n' :: line.text, isEnded := line.isEnded }
      goOn
  | .print =>
    putLine style state.pattern state.isEnded
    goOn
  | .printFirstLine =>
    putLine style (firstLine state.pattern).1 true
    goOn
  | .quit status prints => return .quit status prints
  | .writeLine name =>
    writeTo style name state.pattern
    goOn
  | .writeFirstLine name =>
    writeTo style name (firstLine state.pattern).1
    goOn
  | .empty => setPattern []
  | .number =>
    put style (Text.decimal state.number ++ ['\n'])
    goOn
  | .translate pairs =>
    setPattern (state.pattern.map fun c => (List.lookup c pairs).getD c)
  | .substitute substitution =>
    let regex ← regexOf substitution.pattern
    let text := state.pattern.toArray
    let (replaced, hasReplaced) :=
      replaceMatches substitution regex text (text.size + 2) 0 0 none
    if hasReplaced then
      modify fun state => { state with pattern := replaced, hasReplaced := true }
      if substitution.prints then putLine style replaced state.isEnded
      match substitution.file with
      | some name => writeTo style name replaced
      | none => pure ()
    goOn

/-- Carry commands out from one with a number on. At most `fuel` commands are carried out. -/
def runCommands (script : Script) : (fuel number : Nat) → Edit Outcome
  | 0, _ => return .finish true
  | fuel + 1, number => do
    match script.commands[number]? with
    | none => return .finish true
    | some command =>
      let isChosen := (← isSelected style number command.selection) != command.selection.isInverted
      match command.action, isChosen with
      | .opening closing, false => runCommands script fuel (closing + 1)
      | _, false => runCommands script fuel (number + 1)
      | _, true =>
        match ← perform style script number command with
        | .goOn next => runCommands script fuel next
        | outcome => return outcome

/-- Carry cycles out up to the end of the input. In a cycle that is begun again no line is read. At most
`fuel` cycles are carried out. -/
def runCycles (script : Script) : (fuel : Nat) → (isRestarted : Bool) → Edit Unit
  | 0, _ => pure ()
  | fuel + 1, isRestarted => do
    let isBegun ←
      if isRestarted then pure true
      else
        match ← takeLine style with
        | none => pure false
        | some line =>
          modify fun state =>
            { state with pattern := line.text, isEnded := line.isEnded, hasReplaced := false }
          pure true
    if isBegun then
      let outcome ← runCommands style script Steps.manyTimes 0
      let prints :=
        match outcome with
        | .finish prints | .quit _ prints => prints
        | _ => false
      if prints && !style.isQuiet then putLine style (← get).pattern (← get).isEnded
      flushAppended style
      match outcome with
      | .quit status _ =>
        if style.changesFiles then closeCurrent style
        else
          match (← get).current with
          | some (_, descriptor) =>
            let left := (← get).lines.foldl (fun count line => count + line.text.length + 1)
              (← get).partialLine.length
            liftM (Steps.call (.rewind descriptor left) : Work Unit)
          | none => pure ()
        modify fun state => { state with status := if status = 0 then state.status else status }
      | .restart => runCycles script fuel true
      | _ => runCycles script fuel false
    else pure ()

end SketchApk.Editing
