import SketchApk.Regex.Match
import SketchApk.Regex.Parser
import SketchApk.Shell.Pattern
import SketchApk.Utility.Names
import SketchApk.Utility.Printing

/-!
# Searching files

Lines are searched for a regular expression, and those that have a match are printed, counted or only
noticed.

## Main definitions

* `Utility.SearchStyle` : what is searched for, and what is printed.
* `Utility.searchFiles` : searching files.
-/

namespace SketchApk.Utility

/-- What is searched for, and what is printed. -/
structure SearchStyle where
  regex : Regex
  mode : Regex.Mode
  given : Arguments
  /-- Names are printed in front of lines. -/
  isNamed : Bool
  /-- The numbers of lines around matches that are printed. -/
  before : Nat
  after : Nat
  /-- The number of lines with a match after which a search ends. -/
  limit : Option Nat
  ending : Char

/-- How far a file has been searched. -/
structure SearchState where
  number : Nat := 0
  matched : Nat := 0
  /-- Lines in front of the present one, with their numbers, the last first. -/
  held : List (Nat × List Char) := []
  /-- The number of lines that are still printed after a match. -/
  trailing : Nat := 0
  /-- The number of the line that was printed last. -/
  last : Option Nat := none
  offset : Nat := 0
  /-- The lines contain what is not text. -/
  isBinary : Bool := false

namespace SearchStyle

variable (style : SearchStyle)

/-- An option is given. -/
def has (letter : Char) : Bool :=
  style.given.has letter

/-- The parts of a line from a position on that match and are no part of a longer word, if that is
wanted. -/
def findWord? (text : Array Char) : (count position : Nat) → Option Regex.Found
  | 0, _ => none
  | count + 1, position =>
    let isFree (stop : Nat) : Bool :=
      !(position ≠ 0 && Regex.isWordCharacter text[position - 1]?) &&
        !Regex.isWordCharacter text[stop]?
    let stops := ((style.regex.ends style.mode text { position }).map (·.position)).filter isFree
    match stops.max? with
    | some stop => some { start := position, stop, groups := [] }
    | none => findWord? text count (position + 1)

/-- The part of a line from a position on that matches. -/
def find? (text : Array Char) (position : Nat) : Option Regex.Found :=
  if style.has 'x' then
    let stops := (style.regex.ends style.mode text { position := 0 }).map (·.position)
    if position = 0 && text.size ∈ stops then some { start := 0, stop := text.size, groups := [] }
    else none
  else if style.has 'w' then style.findWord? text (text.size + 1 - position) position
  else style.regex.find? style.mode text position

/-- The parts of a line that match, of which none is empty. At most `fuel` parts are looked for. -/
def findAll (text : Array Char) : (fuel position : Nat) → List Regex.Found
  | 0, _ => []
  | fuel + 1, position =>
    match style.find? text position with
    | none => []
    | some found =>
      if found.stop = found.start then
        if text.size ≤ found.stop then [] else findAll text fuel (found.stop + 1)
      else found :: findAll text fuel found.stop

/-- What is printed in front of a line. -/
def front (name : String) (mark : Char) (number offset : Nat) : List Char :=
  (if style.isNamed then name.toList ++ [mark] else []) ++
    (if style.has 'n' then Text.decimal number ++ [mark] else []) ++
    (if style.has 'b' then Text.decimal offset ++ [mark] else [])

/-- Whatever is searched counts as text. -/
def isText : Bool :=
  style.has 'a' || style.has 'z'

/-- Lines are printed. -/
def printsLines : Bool :=
  !(style.has 'c' || style.has 'l' || style.has 'L' || style.has 'q')

/-- A line is searched. -/
def step (name : String) (state : SearchState) (line : Line) : Dealt SearchState :=
  let text := line.text.toArray
  let number := state.number + 1
  let isMatch := (style.find? text 0).isSome != style.has 'v'
  let isBinary := state.isBinary || (!style.isText && line.text.contains (Char.ofNat 0))
  let passed : SearchState :=
    { state with number, isBinary, offset := state.offset + line.text.length + 1 }
  if style.limit = some 0 then { value := state, isDone := true }
  else if isMatch then
    let matched := { passed with matched := state.matched + 1, held := [], last := some number }
    let isEnough := style.limit = some matched.matched
    if !style.printsLines then
      { value := matched, isDone := isEnough || style.has 'q' || style.has 'l' || style.has 'L' }
    else if isBinary then { value := matched, isDone := true }
    else
      let context := state.held.reverse
      let firstShown := (context.head?.map (·.1)).getD number
      let isApart := (0 < style.before || 0 < style.after) &&
        state.last.any (· + 1 < firstShown)
      let shown :=
        if style.has 'o' then
          if style.has 'v' then []
          else
            (style.findAll text (text.size + 1) 0).flatMap fun found =>
              style.front name ':' number (state.offset + found.start) ++
                Regex.slice text found.start found.stop ++ [style.ending]
        else style.front name ':' number state.offset ++ line.text ++ [style.ending]
      let before := context.flatMap fun (number, text) =>
        style.front name '-' number 0 ++ text ++ [style.ending]
      { value := { matched with trailing := style.after }
        printed := (if isApart then ['-', '-', '\n'] else []) ++ before ++ shown
        isDone := isEnough && style.after = 0 }
  else if style.limit.any (· ≤ state.matched) && state.trailing = 0 then
    { value := passed, isDone := true }
  else if 0 < state.trailing && style.printsLines then
    { value := { passed with trailing := state.trailing - 1, last := some number }
      printed := style.front name '-' number state.offset ++ line.text ++ [style.ending] }
  else
    { value := { passed with held := ((number, line.text) :: state.held).take style.before } }

end SearchStyle

/-- The regular expression for patterns, one in each line. -/
def patternRegex (given : Arguments) (patterns : List String) : Except RegexError Regex := do
  let lines := patterns.flatMap fun pattern => Text.split '\n' pattern.toList
  let read (line : List Char) : Except RegexError Regex :=
    match given.last? ['E', 'F', 'G', 'P'] with
    | some 'F' => .ok (Regex.ofText line)
    | some 'E' | some 'P' => (Regex.read .lenient line).map (·.1)
    | _ => (Regex.read .basic line).map (·.1)
  let all ← lines.mapM read
  match all.reverse with
  | [] => return .oneOf {}
  | last :: others => return others.foldl (fun rest regex => .either regex rest) last

/-- The arguments in which a number behind a dash is turned into an option for context. -/
def withContextOption (arguments : List String) : List String :=
  arguments.map fun argument =>
    match argument.toList with
    | '-' :: c :: rest =>
      if (c :: rest).all Char.isDigit then "-C" ++ String.ofList (c :: rest) else argument
    | _ => argument

/-- The regular files that are searched for an operand. The flag tells that links are followed. At most
`fuel` levels of directories are entered. -/
def filesBelow : (fuel : Nat) → (isTop : Bool) → String → Work (List String)
  | 0, _, _ => return []
  | fuel + 1, isTop, path => do
    match ← nodeAt? path isTop with
    | .ok (_, .directory _) =>
      match ← perform (.list (Octets.toPath path)) with
      | .error error =>
        complain (nameAndReason path error)
        return []
      | .ok names =>
        gather (fun name => filesBelow fuel false (inDirectory path (Octets.ofText name))) names
    | .ok (_, .link _) => return []
    | _ => return [path]

/-- A file name matches one of some patterns. -/
def matchesName (patterns : List String) (path : String) : Bool :=
  patterns.any fun pattern =>
    Shell.Pattern.accepts (pattern.toList.map fun c => ⟨c, false⟩) (lastPart path.toList)

/-- Search files one after the other, possibly only up to the first match. The answer is the number of files
with a match, and the flag that all files could be read. -/
def searchEach (stops : Bool) (search : String → Work (Nat × Bool)) : List String →
    Work (Nat × Bool)
  | [] => return (0, true)
  | path :: rest => do
    let (found, isFine) ← search path
    if stops && 0 < found then return (found, isFine)
    else
      let (more, areFine) ← searchEach stops search rest
      return (found + more, isFine && areFine)

/-- Search files. -/
def searchFiles : Utility := fun arguments => do
  let table : OptionTable :=
    { letters := "A:aB:bC:ce:EFf:GhHiIlLm:noPqrRsUvwxyzZ"
      long := [⟨"after-context", 'A', true, false⟩, ⟨"before-context", 'B', true, false⟩,
        ⟨"context", 'C', true, false⟩, ⟨"count", 'c', false, false⟩, ⟨"regexp", 'e', true, false⟩,
        ⟨"extended-regexp", 'E', false, false⟩, ⟨"fixed-strings", 'F', false, false⟩,
        ⟨"basic-regexp", 'G', false, false⟩, ⟨"file", 'f', true, false⟩,
        ⟨"no-filename", 'h', false, false⟩, ⟨"with-filename", 'H', false, false⟩,
        ⟨"ignore-case", 'i', false, false⟩, ⟨"files-with-matches", 'l', false, false⟩,
        ⟨"files-without-match", 'L', false, false⟩, ⟨"max-count", 'm', true, false⟩,
        ⟨"line-number", 'n', false, false⟩, ⟨"only-matching", 'o', false, false⟩,
        ⟨"quiet", 'q', false, false⟩, ⟨"silent", 'q', false, false⟩,
        ⟨"recursive", 'r', false, false⟩, ⟨"no-messages", 's', false, false⟩,
        ⟨"text", 'a', false, false⟩, ⟨"invert-match", 'v', false, false⟩,
        ⟨"word-regexp", 'w', false, false⟩, ⟨"line-regexp", 'x', false, false⟩,
        ⟨"color", 'K', true, true⟩, ⟨"colour", 'K', true, true⟩, ⟨"include", 'N', true, false⟩,
        ⟨"exclude", 'X', true, false⟩, ⟨"exclude-dir", 'D', true, false⟩,
        ⟨"line-buffered", 'u', false, false⟩, ⟨"null", 'Z', false, false⟩,
        ⟨"null-data", 'z', false, false⟩]
      failure := 2 }
  let usage : Work Unit := do
    printError "Usage: grep [OPTION]... PATTERNS [FILE]...\nTry 'grep --help' for more information.\n"
    throw 2
  let given ←
    match table.parseFrom arguments.length (withContextOption arguments) with
    | .ok given => pure given
    | .error message =>
      complain message
      usage
      pure {}
  let read (path : String) : Work String := do
    match ← readFile path with
    | .ok text => return text
    | .error error => giveUp 2 (nameAndReason path error)
  let hasPatterns := given.has 'e' || given.has 'f'
  let listed ← (given.values 'f').foldlM (fun (lines : List String) path => do
    let text ← read path
    return lines ++ (linesOf '\n' text.toList).map fun line => String.ofList line.text) []
  let (patterns, operands) ←
    if hasPatterns then pure (given.values 'e' ++ listed, given.operands)
    else
      match given.operands with
      | [] =>
        usage
        pure ([], [])
      | pattern :: rest => pure ([pattern], rest)
  let regex ←
    match patternRegex given patterns with
    | .ok regex => pure regex
    | .error .unmatchedBracket => giveUp 2 "Invalid regular expression"
    | .error error => giveUp 2 error.message
  let isRecursive := given.has 'r' || given.has 'R'
  let named := if operands.isEmpty then (if isRecursive then ["."] else ["-"]) else operands
  let count (letter : Char) : Option Nat := (given.value? letter).bind String.toNat?
  let style : SearchStyle :=
    { regex
      mode := { ignoresCase := given.has 'i' || given.has 'y' }
      given
      isNamed :=
        match given.last? ['h', 'H'] with
        | some 'h' => false
        | some _ => true
        | none => 1 < named.length || isRecursive
      before := ((count 'B').orElse fun _ => count 'C').getD 0
      after := ((count 'A').orElse fun _ => count 'C').getD 0
      limit := count 'm'
      ending := if given.has 'z' then Char.ofNat 0 else '\n' }
  let excluded (path : String) : Bool :=
    matchesName (given.values 'X') path ||
      (given.has 'N' && !matchesName (given.values 'N') path)
  let search (path : String) : Work (Nat × Bool) := do
    let name := if path = "-" then "(standard input)" else path
    match ← openInput path with
    | .error error =>
      unless given.has 's' do complain (path ++ ": " ++ error.reason)
      return (0, false)
    | .ok descriptor =>
      let isBinary ←
        if path = "-" || style.isText then pure false
        else
          match ← perform (.read (Octets.toPath path)) with
          | .ok content => pure (content.toBytes.data.contains 0)
          | .error _ => pure false
      let result ← forLines descriptor style.ending (style.step name) { isBinary }
      closeInput descriptor
      match result with
      | .error error =>
        unless given.has 's' do complain (path ++ ": " ++ error.reason)
        return (0, false)
      | .ok (state, _) =>
        let mark := if given.has 'Z' then (Char.ofNat 0).toString else "\n"
        if given.has 'q' then pure ()
        else if given.has 'l' then
          if 0 < state.matched then emit (name ++ mark)
        else if given.has 'L' then
          if state.matched = 0 then emit (name ++ mark)
        else if given.has 'c' then
          emitLine ((if style.isNamed then name ++ ":" else "") ++ toString state.matched)
        else if state.isBinary && 0 < state.matched then
          complain (name ++ ": binary file matches")
        let isFound := if given.has 'L' then state.matched = 0 else 0 < state.matched
        return (if isFound then 1 else 0, true)
  let paths ← gather (fun path => do
    if isRecursive && path ≠ "-" then
      return (← filesBelow depthLimit true path).filter (!excluded ·)
    else return [path]) named
  let (found, isFine) ← searchEach (given.has 'q') search paths
  return if !isFine && !(given.has 'q' && 0 < found) then 2 else if 0 < found then 0 else 1

/-- Search files for extended regular expressions. -/
def searchExtended : Utility := fun arguments => searchFiles ("-E" :: arguments)

/-- Search files for texts. -/
def searchTexts : Utility := fun arguments => searchFiles ("-F" :: arguments)

end SketchApk.Utility
