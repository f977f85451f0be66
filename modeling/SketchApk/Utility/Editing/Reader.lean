import SketchApk.Regex.Parser
import SketchApk.Utility.Editing.Command
import SketchApk.Utility.Format

/-!
# Reading editing scripts

Commands are letters with arguments of different kinds; semicolons and ends of lines separate them. What is
wrong with a script is reported with the number of characters that have been read by then.

## Main definitions

* `Editing.ReadError` : what is wrong with a script, and where.
* `Editing.readScript` : the commands that texts spell.
-/

namespace SketchApk.Editing

/-- What is wrong with a script. The rest of the text has not been read. -/
structure ReadError where
  /-- What has not been read, or nothing if that does not matter. -/
  rest : Option (List Char)
  message : String

/-- Reading fails in front of some text. -/
def fail {α : Type} (rest : List Char) (message : String) : Except ReadError α :=
  .error { rest := some rest, message }

/-- A blank within a line. -/
def isBlank (c : Char) : Bool :=
  c = ' ' || c = '\t'

/-- A text without blanks at its front. -/
def skipBlanks (text : List Char) : List Char :=
  text.dropWhile isBlank

/-- A number at the front of a text. -/
def readNumber (text : List Char) : Nat × List Char :=
  ((Text.readDigits? 10 0 (text.takeWhile Char.isDigit)).getD 0, text.dropWhile Char.isDigit)

/-- The items of a set in an expression up to its closing bracket, backwards, and what follows. -/
def readBrackets : (isFirst : Bool) → (soFar : List Char) → List Char →
    Option (List Char × List Char)
  | _, _, [] => none
  | isFirst, soFar, c :: rest =>
    if c = ']' && !isFirst then some (c :: soFar, rest)
    else if c = '[' && (rest.head? = some ':' || rest.head? = some '.' || rest.head? = some '=') then
      readBracketName (rest.headD ':') (c :: soFar) rest
    else if c = '\n' then none
    else readBrackets (isFirst && c = '^') (c :: soFar) rest
where
  /-- A name within brackets, and the items that follow. -/
  readBracketName (mark : Char) : (soFar : List Char) → List Char → Option (List Char × List Char)
    | _, [] => none
    | soFar, c :: rest =>
      if c = ']' && soFar.head? = some mark && 3 < soFar.length then
        readBrackets false (c :: soFar) rest
      else readBracketName mark (c :: soFar) rest

/-- A text up to a delimiter, and what follows it. A delimiter behind a backslash belongs to the text; in an
expression, so does one between brackets, and the letter for an end of line is replaced. -/
def readDelimited (delimiter : Char) (isRegex : Bool) : (fuel : Nat) → (soFar : List Char) →
    List Char → Option (List Char × List Char)
  | 0, _, _ => none
  | _ + 1, _, [] => none
  | fuel + 1, soFar, c :: rest =>
    if c = delimiter then some (soFar.reverse, rest)
    else if c = '\\' then
      match rest with
      | [] => none
      | d :: after =>
        if d = delimiter then readDelimited delimiter isRegex fuel (d :: soFar) after
        else if d = 'n' && isRegex then readDelimited delimiter isRegex fuel ('\n' :: soFar) after
        else readDelimited delimiter isRegex fuel (d :: '\\' :: soFar) after
    else if c = '\n' && isRegex then none
    else if c = '[' && isRegex then
      match readBrackets true (c :: soFar) rest with
      | some (soFar, after) => readDelimited delimiter isRegex fuel soFar after
      | none => none
    else readDelimited delimiter isRegex fuel (c :: soFar) rest

/-- A text between two delimiters, of which the first one is at the front. -/
def readPart (delimiter : Char) (isRegex : Bool) (text : List Char) : Option (List Char × List Char) :=
  readDelimited delimiter isRegex (text.length + 1) [] text

/-- The character that an escape with a number or a letter stands for, behind its backslash, and what
follows. -/
def escapeAt? (text : List Char) : Option (Char × List Char) :=
  match text with
  | 'a' :: rest => some (Char.ofNat 7, rest)
  | 'f' :: rest => some (Char.ofNat 12, rest)
  | 'r' :: rest => some ('\r', rest)
  | 't' :: rest => some ('\t', rest)
  | 'v' :: rest => some (Char.ofNat 11, rest)
  | 'c' :: c :: rest => some (Char.ofNat (c.toUpper.toNat ^^^ 64), rest)
  | 'd' :: rest => number 10 3 rest
  | 'o' :: rest => number 8 3 rest
  | 'x' :: rest => number 16 2 rest
  | _ => none
where
  /-- The character with the number that digits spell. -/
  number (base count : Nat) (text : List Char) : Option (Char × List Char) :=
    let (value, after) := Format.takeNumber base count 0 text
    if after.length = text.length then none else some (Format.character value, after)

/-- An expression in which escapes that stand for characters are replaced. At most `fuel` characters are
dealt with. -/
def replaceEscapes : (fuel : Nat) → List Char → List Char
  | 0, text => text
  | _ + 1, [] => []
  | fuel + 1, '\\' :: rest =>
    match escapeAt? rest with
    | some (c, after) =>
      let isSpecial := c ∈ ['*', '.', '[', ']', '^', '$', '\\', '/', '+', '?', '(', ')', '|']
      (if isSpecial then ['\\', c] else [c]) ++ replaceEscapes fuel after
    | none =>
      match rest with
      | c :: after => '\\' :: c :: replaceEscapes fuel after
      | [] => ['\\']
  | fuel + 1, c :: rest => c :: replaceEscapes fuel rest

/-- The pattern that the text of an expression stands for. -/
def readPattern (dialect : Regex.Dialect) (ignoresCase isMultiline : Bool) (text rest : List Char) :
    Except ReadError (Pattern × Nat) :=
  if text.isEmpty then .ok ({ regex := none, ignoresCase, isMultiline }, 9)
  else
    match Regex.read dialect (replaceEscapes text.length text) with
    | .ok (regex, groups) => .ok ({ regex := some regex, ignoresCase, isMultiline }, groups)
    | .error error => fail rest error.message

/-- The flags of an expression in an address. -/
def readPatternFlags : (ignoresCase isMultiline : Bool) → List Char → (Bool × Bool) × List Char
  | ignoresCase, isMultiline, c :: rest =>
    if isBlank c then readPatternFlags ignoresCase isMultiline rest
    else if c = 'I' then readPatternFlags true isMultiline rest
    else if c = 'M' then readPatternFlags ignoresCase true rest
    else ((ignoresCase, isMultiline), c :: rest)
  | ignoresCase, isMultiline, [] => ((ignoresCase, isMultiline), [])

/-- The expression of an address, behind its first delimiter. -/
def readPatternAddress (dialect : Regex.Dialect) (delimiter : Char) (text : List Char) :
    Except ReadError (Option Address × List Char) :=
  match readPart delimiter true text with
  | none => fail [] "unterminated address regex"
  | some (spelled, after) => do
    let ((ignoresCase, isMultiline), rest) := readPatternFlags false false after
    let (pattern, _) ← readPattern dialect ignoresCase isMultiline spelled rest
    return (some (.pattern pattern), rest)

/-- An address at the front of a text, if there is one. -/
def readAddress (dialect : Regex.Dialect) (text : List Char) :
    Except ReadError (Option Address × List Char) :=
  match text with
  | '/' :: rest => readPatternAddress dialect '/' rest
  | '\\' :: delimiter :: rest => readPatternAddress dialect delimiter rest
  | '$' :: rest => .ok (some .last, rest)
  | c :: _ =>
    if c.isDigit then
      let (number, after) := readNumber text
      match skipBlanks after with
      | '~' :: more =>
        let (distance, rest) := readNumber (skipBlanks more)
        .ok (some (if distance = 0 then .line number else .step number distance), rest)
      | rest => .ok (some (.line number), rest)
    else .ok (none, text)
  | [] => .ok (none, text)

/-- The end of a range at the front of a text. -/
def readRangeEnd (dialect : Regex.Dialect) (text : List Char) :
    Except ReadError (RangeEnd × List Char) := do
  match text with
  | '+' :: rest =>
    let (count, after) := readNumber (skipBlanks rest)
    return (.lines count, after)
  | '~' :: rest =>
    let (number, after) := readNumber (skipBlanks rest)
    return (.multiple number, after)
  | _ =>
    match ← readAddress dialect text with
    | (some address, rest) => return (.address address, rest)
    | (none, rest) => fail (rest.drop 1) "unexpected `,'"

/-- The lines that a command is limited to. -/
def readSelection (dialect : Regex.Dialect) (text : List Char) :
    Except ReadError (Selection × List Char) := do
  if text.head? = some '+' || text.head? = some '~' then
    let (_, after) := readNumber (text.drop 1)
    fail after "invalid usage of +N or ~N as first address"
  else
    let (first, afterFirst) ← readAddress dialect text
    let (last, afterLast) ←
      if first.isNone then pure (none, afterFirst)
      else
        match skipBlanks afterFirst with
        | ',' :: rest =>
          let (last, after) ← readRangeEnd dialect (skipBlanks rest)
          pure (some last, skipBlanks after)
        | rest => pure (none, rest)
    if first matches some (.line 0) then
      unless last matches some (.address (.pattern _)) do
        fail (afterLast.drop 1) "invalid usage of line address 0"
    match afterLast with
    | '!' :: rest =>
      match skipBlanks rest with
      | '!' :: more => fail more "multiple `!'s"
      | more => return ({ first, last, isInverted := true }, more)
    | _ => return ({ first, last }, afterLast)

/-- The text behind a command, when the command ends there. -/
def readCommandEnd (text : List Char) : Except ReadError (List Char) :=
  match skipBlanks text with
  | [] => .ok []
  | c :: rest =>
    if c = '\x7d' || c = '#' then .ok (c :: rest)
    else if c = '\n' || c = ';' then .ok rest
    else fail rest "extra characters after command"

/-- A text that is printed, up to the end of its last line. -/
def readTextLines : (fuel : Nat) → List Char → List Char × List Char
  | 0, text => ([], text)
  | _ + 1, [] => (['\n'], [])
  | fuel + 1, c :: rest =>
    if c = '\n' then (['\n'], rest)
    else if c = '\\' then
      match rest with
      | [] => (['\n'], [])
      | 'n' :: after => let (text, left) := readTextLines fuel after; ('\n' :: text, left)
      | _ =>
        match escapeAt? rest with
        | some (d, after) => let (text, left) := readTextLines fuel after; (d :: text, left)
        | none => let (text, left) := readTextLines fuel rest.tail; (rest.headD '\\' :: text, left)
    else let (text, left) := readTextLines fuel rest; (c :: text, left)

/-- The text that a command prints. -/
def readText (text : List Char) : Except ReadError (List Char × List Char) :=
  match skipBlanks text with
  | [] => fail [] "expected \\ after `a', `c' or `i'"
  | '\\' :: rest =>
    match skipBlanks rest with
    | '\n' :: [] => .ok (['\n'], [])
    | '\n' :: after => .ok (readTextLines (after.length + 1) after)
    | [] => .ok ([], [])
    | _ => .ok (readTextLines (rest.length + 1) rest)
  | '\n' :: after => fail after "expected \\ after `a', `c' or `i'"
  | bare => .ok (readTextLines (bare.length + 1) bare)

/-- A name up to the end of a line. -/
def readFileName (text : List Char) : Except ReadError (String × List Char) :=
  let bare := skipBlanks text
  let name := bare.takeWhile (· ≠ '\n')
  let rest := (bare.dropWhile (· ≠ '\n')).drop 1
  if name.isEmpty then fail rest "missing filename in r/R/w/W commands"
  else .ok (String.ofList name, rest)

/-- A label up to a blank or the end of a command. -/
def readLabel (text : List Char) : List Char × List Char :=
  let bare := skipBlanks text
  let isPart (c : Char) : Bool := !(c = ';' || c = '\x7d' || Text.isSpacing c)
  (bare.takeWhile isPart, bare.dropWhile isPart)

/-- The parts of a replacement. At most `fuel` characters are dealt with. -/
def readReplacement : (fuel : Nat) → List Char → List ReplacementPart
  | 0, _ | _ + 1, [] => []
  | fuel + 1, '&' :: rest => .group 0 :: readReplacement fuel rest
  | fuel + 1, '\\' :: rest =>
    match rest with
    | [] => [.text ['\\']]
    | c :: after =>
      if c.isDigit then .group (c.toNat - 0x30) :: readReplacement fuel after
      else
        match c with
        | 'n' => .text ['\n'] :: readReplacement fuel after
        | 'L' => .change .lower :: readReplacement fuel after
        | 'U' => .change .upper :: readReplacement fuel after
        | 'E' => .change .none :: readReplacement fuel after
        | 'l' => .changeNext .lower :: readReplacement fuel after
        | 'u' => .changeNext .upper :: readReplacement fuel after
        | _ =>
          match escapeAt? rest with
          | some (d, behind) => .text [d] :: readReplacement fuel behind
          | none => .text [c] :: readReplacement fuel after
  | fuel + 1, c :: rest => .text [c] :: readReplacement fuel rest

/-- The highest number of a group in a replacement. -/
def highestGroup (parts : List ReplacementPart) : Nat :=
  parts.foldl (fun highest part =>
    match part with
    | .group number => max highest number
    | _ => highest) 0

/-- The flags of a substitution. -/
structure SubstitutionFlags where
  isGlobal : Bool := false
  prints : Bool := false
  ignoresCase : Bool := false
  isMultiline : Bool := false
  number : Option Nat := none
  file : Option String := none

/-- The flags of a substitution up to the end of the command. At most `fuel` flags are read. -/
def readFlags : (fuel : Nat) → SubstitutionFlags → List Char →
    Except ReadError (SubstitutionFlags × List Char)
  | 0, flags, text => .ok (flags, text)
  | _ + 1, flags, [] => .ok (flags, [])
  | fuel + 1, flags, c :: rest => do
    match c with
    | 'i' | 'I' => readFlags fuel { flags with ignoresCase := true } rest
    | 'm' | 'M' => readFlags fuel { flags with isMultiline := true } rest
    | 'p' =>
      if flags.prints then fail rest "multiple `p' options to `s' command"
      else readFlags fuel { flags with prints := true } rest
    | 'g' =>
      if flags.isGlobal then fail rest "multiple `g' options to `s' command"
      else readFlags fuel { flags with isGlobal := true } rest
    | 'w' =>
      let (name, after) ← readFileName rest
      return ({ flags with file := some name }, after)
    | '#' => return (flags, c :: rest)
    | ';' | '\n' => return (flags, rest)
    | '\r' => readFlags fuel flags rest
    | _ =>
      if c = '\x7d' then return (flags, c :: rest)
      else if c.isDigit then
        if flags.number.isSome then fail rest "multiple number options to `s' command"
        else
          let (number, after) := readNumber (c :: rest)
          if number = 0 then fail after "number option to `s' command may not be zero"
          else readFlags fuel { flags with number := some number } after
      else if isBlank c then readFlags fuel flags rest
      else fail rest "unknown option to `s'"

/-- The arguments of a substitution. -/
def readSubstitution (dialect : Regex.Dialect) (text : List Char) :
    Except ReadError (Action × List Char) := do
  let unterminated : ReadError := { rest := some [], message := "unterminated `s' command" }
  match text with
  | [] => throw unterminated
  | delimiter :: rest =>
    match readPart delimiter true rest with
    | none => throw unterminated
    | some (spelled, afterPattern) =>
      match readPart delimiter false afterPattern with
      | none => throw unterminated
      | some (replacement, afterParts) =>
        let parts := readReplacement (replacement.length + 1) replacement
        let (flags, after) ← readFlags (afterParts.length + 1) {} afterParts
        let (pattern, groups) ←
          readPattern dialect flags.ignoresCase flags.isMultiline spelled after
        if groups < highestGroup parts then
          fail after
            ("invalid reference \\" ++ toString (highestGroup parts) ++ " on `s' command's RHS")
        let substitution : Substitution :=
          { pattern, parts
            isGlobal := flags.isGlobal
            number := flags.number.getD 1
            prints := flags.prints
            file := flags.file }
        return (.substitute substitution, after)

/-- The characters that a part of a translation stands for. -/
def readTranslationPart : List Char → List Char
  | '\\' :: '\\' :: rest => '\\' :: readTranslationPart rest
  | '\\' :: 'n' :: rest => '\n' :: readTranslationPart rest
  | '\\' :: 't' :: rest => '\t' :: readTranslationPart rest
  | c :: rest => c :: readTranslationPart rest
  | [] => []

/-- The arguments of a translation. -/
def readTranslation (text : List Char) : Except ReadError (Action × List Char) := do
  let unterminated : ReadError := { rest := some [], message := "unterminated `y' command" }
  match text with
  | [] => throw unterminated
  | delimiter :: rest =>
    match readPart delimiter false rest with
    | none => throw unterminated
    | some (first, afterFirst) =>
      match readPart delimiter false afterFirst with
      | none => throw unterminated
      | some (second, after) =>
        let sources := readTranslationPart first
        let targets := readTranslationPart second
        if sources.length ≠ targets.length then
          fail after "strings for `y' command are different lengths"
        let left ← readCommandEnd after
        return (.translate (sources.zip targets), left)

/-- A number that may follow a command, up to its end. -/
def readCount (text : List Char) : Except ReadError (Option Nat × List Char) := do
  let bare := skipBlanks text
  if bare.head?.any Char.isDigit then
    let (number, after) := readNumber bare
    return (some number, ← readCommandEnd after)
  else return (none, ← readCommandEnd bare)

/-- The action for a letter without arguments. -/
def plainAction? (letter : Char) : Option Action :=
  match letter with
  | '=' => some .number
  | 'd' => some .delete
  | 'D' => some .deleteFirstLine
  | 'F' => some .fileName
  | 'g' => some .takeHeld
  | 'G' => some .appendHeld
  | 'h' => some .hold
  | 'H' => some .appendToHeld
  | 'n' => some .next
  | 'N' => some .appendNext
  | 'p' => some .print
  | 'P' => some .printFirstLine
  | 'x' => some .exchange
  | 'z' => some .empty
  | _ => none

/-- The action of a command with a selection, from its letter on. -/
def readAction (dialect : Regex.Dialect) (selection : Selection) (letter : Char) (rest : List Char) :
    Except ReadError (Action × List Char) := do
  let label (make : List Char → Action) : Except ReadError (Action × List Char) := do
    let (name, after) := readLabel rest
    return (make name, ← readCommandEnd after)
  let file (make : String → Action) : Except ReadError (Action × List Char) := do
    let (name, after) ← readFileName rest
    return (make name, after)
  let text (make : List Char → Action) : Except ReadError (Action × List Char) := do
    let (text, after) ← readText rest
    return (make text, after)
  match plainAction? letter with
  | some action => return (action, ← readCommandEnd rest)
  | none =>
    match letter with
    | 'a' => text .append
    | 'i' => text .insert
    | 'c' => text .change
    | ':' =>
      if selection.first.isSome then fail rest ": doesn't want any addresses"
      let bare := skipBlanks rest
      let isPart (c : Char) : Bool := !(c = ';' || Text.isSpacing c)
      let name := bare.takeWhile isPart
      if name.isEmpty then fail bare "\":\" lacks a label"
      return (.label name, bare.dropWhile isPart)
    | 'b' => label .branch
    | 't' => label .branchIfReplaced
    | 'T' => label .branchUnlessReplaced
    | 'q' | 'Q' =>
      if selection.last.isSome then fail rest "command only uses one address"
      let (status, after) ← readCount rest
      return (.quit (status.getD 0) (letter = 'q'), after)
    | 'l' =>
      let (width, after) ← readCount rest
      return (.list width, after)
    | 'v' => label fun _ => .nothing
    | 'r' => file .readFile
    | 'R' => file .readLine
    | 'w' => file .writeLine
    | 'W' => file .writeFirstLine
    | 's' => readSubstitution dialect rest
    | 'y' => readTranslation rest
    | _ => fail rest ("unknown command: `" ++ letter.toString ++ "'")

/-- How far a script has been read. -/
structure Progress where
  commands : Array Command := #[]
  /-- The numbers of the commands that have opened blocks, the last one first. -/
  blocks : List Nat := []
  isQuiet : Bool := false

/-- The script with one more command. -/
def Progress.add (progress : Progress) (selection : Selection) (action : Action) : Progress :=
  { progress with commands := progress.commands.push { selection, action } }

/-- Read commands up to the end of a text. At most `fuel` commands are read. -/
def readCommands (dialect : Regex.Dialect) : (fuel : Nat) → List Char → Progress →
    Except ReadError Progress
  | 0, _, progress => .ok progress
  | fuel + 1, text, progress => do
    let bare := text.dropWhile fun c => c = ';' || Text.isSpacing c
    if bare.isEmpty then return progress
    else
      let (selection, afterSelection) ← readSelection dialect bare
      match skipBlanks afterSelection with
      | [] => fail [] "missing command"
      | letter :: rest =>
        if letter = '#' then
          if selection.first.isSome then fail rest "comments don't accept any addresses"
          readCommands dialect fuel ((rest.dropWhile (· ≠ '\n')).drop 1) progress
        else if letter = '\x7b' then
          let opened := progress.add selection (.opening 0)
          readCommands dialect fuel rest
            { opened with blocks := progress.commands.size :: progress.blocks }
        else if letter = '\x7d' then
          match progress.blocks with
          | [] => fail rest "unexpected `\x7d'"
          | start :: blocks =>
            if selection.first.isSome then fail rest "\x7d doesn't want any addresses"
            let after ← readCommandEnd rest
            let closed := progress.commands.modify start fun command =>
              { command with action := .opening progress.commands.size }
            readCommands dialect fuel after
              ({ progress with commands := closed, blocks }.add {} .nothing)
        else
          let (action, after) ← readAction dialect selection letter rest
          readCommands dialect fuel after (progress.add selection action)

/-- The script that a text spells, behind a script that has been read. A first line that consists of `#n`
asks for a quiet run. -/
def readScript (dialect : Regex.Dialect) (isFirst : Bool) (text : List Char) (progress : Progress) :
    Except ReadError Progress :=
  let isQuiet := isFirst && (text = ['#', 'n'] || ['#', 'n', '\n'].isPrefixOf text)
  readCommands dialect (text.length + 1) text { progress with isQuiet := progress.isQuiet || isQuiet }

end SketchApk.Editing
