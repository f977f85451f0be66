import SketchApk.Shell.Syntax
import SketchApk.Text.Lines

/-!
# Reading the words of shell scripts

A script is read from its front, character by character. A backslash at the end of a line continues
the line. What a character means depends on where it stands: quotes suspend the meaning of most
characters, but between double quotes a dollar sign, a grave accent and a backslash keep theirs.

Statements may be nested in words. How they are read is given to the functions of this module by
`nested`, which reads statements up to a token that cannot begin or continue one.

## Main definitions

* `Shell.Reader` : how far a script has been read.
* `Shell.SyntaxError` : why a script cannot be read.
* `Shell.Reading` : the monad of readers.
* `Shell.readWord` : the word at the front of a script.
-/

namespace SketchApk.Shell

/-- Why a script cannot be read, and the line up to which it has been read. -/
structure SyntaxError where
  message : String
  line : Nat

/-- A token of a script. -/
inductive Token where
  | ending
  | newline
  | operator (text : String)
  /-- The sign of a redirection. Tabs may be dropped from the lines of a document. -/
  | redirection (descriptor : Nat) (kind : RedirectionKind) (stripsTabs : Bool)
  | word
  /-- A reserved word. -/
  | keyword (word : String)
  deriving DecidableEq, Repr

/-- What a token is called in complaints. -/
def Token.description : Token → String
  | ending => "end of file"
  | newline => "newline"
  | redirection .. => "redirection"
  | word => "word"
  | operator text | keyword text => "\"" ++ text ++ "\""

/-- How far a script has been read. -/
structure Reader where
  rest : List Char
  line : Nat := 1
  /-- The number of lines that were taken out behind the current one. -/
  taken : Nat := 0
  /-- The last token is to be read again. -/
  isPushedBack : Bool := false
  last : Token := .newline
  /-- The last word, and whether any part of it is quoted. -/
  word : Word := []
  isQuoted : Bool := false

/-- A part of the reading of a script. -/
abbrev Reading := StateT Reader (Except SyntaxError)

namespace Reading

/-- Fail in the current line. -/
def fail {α : Type} (message : String) : Reading α := do
  throw { message, line := (← get).line }

/-- Fail because of the last token. There may be only one token that could have stood there. -/
def unexpected {α : Type} (wanted : Option Token) : Reading α := do
  let found := (← get).last.description
  match wanted with
  | some token => fail (found ++ " unexpected (expecting " ++ token.description ++ ")")
  | none => fail (found ++ " unexpected")

/-- The character at the front, which is taken. -/
def take? : Reading (Option Char) := do
  let reader ← get
  match reader.rest with
  | [] => return none
  | c :: rest =>
    if c = '\n' then set { reader with rest, line := reader.line + 1 + reader.taken, taken := 0 }
    else set { reader with rest }
    return some c

/-- Pass over lines that are continued. At most `fuel` are. -/
def skipContinuations : (fuel : Nat) → Reading Unit
  | 0 => return ()
  | fuel + 1 => do
    match (← get).rest with
    | '\\' :: '\n' :: _ =>
      discard take?
      discard take?
      skipContinuations fuel
    | _ => return ()

/-- The character at the front, behind lines that are continued. -/
def peek? : Reading (Option Char) := do
  skipContinuations (← get).rest.length
  return (← get).rest.head?

/-- Take the character at the front, behind lines that are continued, if it is the given one. -/
def takeIf (c : Char) : Reading Bool := do
  if (← peek?) = some c then
    discard take?
    return true
  else return false

/-- The longest sequence of characters at the front that satisfy a test. At most `fuel` are taken. -/
def takeWhile (test : Char → Bool) : (fuel : Nat) → Reading (List Char)
  | 0 => return []
  | fuel + 1 => do
    match ← peek? with
    | some c =>
      if test c then
        discard take?
        return c :: (← takeWhile test fuel)
      else return []
    | none => return []

/-- The longest sequence of characters of a name at the front. -/
def takeName : Reading (List Char) := do
  takeWhile continuesName (← get).rest.length

/-- Read from another text, whose first line has a number, and go on with the present one afterwards. -/
def within {α : Type} (text : List Char) (line : Nat) (reading : Reading α) : Reading α := do
  let outer ← get
  set { rest := text, line : Reader }
  let value ← reading
  set outer
  return value

end Reading

open Reading

/-- A grave accent, the older of the two delimiters of nested statements. -/
def graveAccent : Char := Char.ofNat 0x60

/-- The characters that end a word unless they are quoted. -/
def endsWord (c : Char) : Bool :=
  c ∈ [' ', '\t', '\n', ';', '&', '|', '(', ')', '<', '>']

/-- Where a part of a word stands. -/
inductive Surroundings where
  /-- Outside of quotes. -/
  | bare
  /-- In braces outside of quotes. -/
  | braces
  /-- Between double quotes. -/
  | quotes
  /-- In braces between double quotes. -/
  | quotedBraces
  /-- In a document. -/
  | document
  /-- In an arithmetic expression with some open parentheses. -/
  | arithmetic (depth : Nat)
  deriving DecidableEq, Repr

/-- Parts in these surroundings are quoted. -/
def Surroundings.areQuoted : Surroundings → Bool
  | bare | braces => false
  | _ => true

/-- The complaint when a script ends in these surroundings. -/
def Surroundings.complaint? : Surroundings → Option String
  | bare | document => none
  | braces => some "Missing '\x7d'"
  | quotes | quotedBraces => some "Unterminated quoted string"
  | arithmetic _ => some "Missing '))'"

variable (nested : Reading (Option Statement))

/-- The text up to the next grave accent. A backslash is dropped in front of a character that has a
meaning there. At most `fuel` characters are read. -/
def readAccented (quoted : Bool) : (fuel : Nat) → Reading (List Char)
  | 0 => fail "EOF in backquote substitution"
  | fuel + 1 => do
    match ← take? with
    | none => fail "EOF in backquote substitution"
    | some '\\' =>
      match ← take? with
      | none => fail "EOF in backquote substitution"
      | some '\n' => readAccented quoted fuel
      | some c =>
        let rest ← readAccented quoted fuel
        if c ∈ ['\\', graveAccent, '$'] || (quoted && c = '"') then return c :: rest
        else return '\\' :: c :: rest
    | some c => if c = graveAccent then return [] else return c :: (← readAccented quoted fuel)

/-- The text up to the next single quote. At most `fuel` characters are read. -/
def readSingle : (fuel : Nat) → Reading (List Char)
  | 0 => fail "Unterminated quoted string"
  | fuel + 1 => do
    match ← take? with
    | none => fail "Unterminated quoted string"
    | some '\'' => return []
    | some c => return c :: (← readSingle fuel)

/-- The use of a parameter between braces, behind its name, up to its operand. The flag says that
there is no operand, because the braces are closed. -/
def readUse : Reading (ParameterUse × Bool) := do
  let chosen (use : ParameterUse) : Reading (ParameterUse × Bool) := do
    discard take?
    return (use, false)
  let choose (strict : Bool) : Reading (ParameterUse × Bool) := do
    match ← peek? with
    | some '-' => chosen (.orElse strict)
    | some '+' => chosen (.instead strict)
    | some '?' => chosen (.orFail strict)
    | some '=' => chosen (.orAssign strict)
    | _ => return (.malformed, false)
  match ← peek? with
  | some '\x7d' =>
    discard take?
    return (.value, true)
  | some ':' =>
    discard take?
    choose true
  | some '#' =>
    discard take?
    return (.dropFront (← takeIf '#'), false)
  | some '%' =>
    discard take?
    return (.dropBack (← takeIf '%'), false)
  | _ => choose false

/-- The name of a parameter between braces. -/
def readBracedName : Reading (Option (List Char)) := do
  match ← peek? with
  | some c =>
    if startsName c then return some (← takeName)
    else if c.isDigit then return some (← takeWhile Char.isDigit (← get).rest.length)
    else if isSpecialParameter c then
      discard take?
      return some [c]
    else return none
  | none => return none

/-- What stands between braces behind a dollar sign, up to the operand: the name and the use of a
parameter, and whether there is no operand. -/
def readBraced : Reading (List Char × ParameterUse × Bool) := do
  let before ← get
  if ← takeIf '#' then
    match ← peek? with
    | some '\x7d' =>
      discard take?
      return (['#'], .value, true)
    | _ =>
      match ← readBracedName with
      | some name =>
        if ← takeIf '\x7d' then return (name, .length, true)
        else if name.all continuesName then return (name, .malformed, false)
      | none => pure ()
  set before
  match ← readBracedName with
  | some name =>
    let (use, isClosed) ← readUse
    return (name, use, isClosed)
  | none => return ([], .malformed, false)

mutual

/-- The part that begins with a dollar sign, which has been read. -/
def readDollar : (fuel : Nat) → Surroundings → Reading WordPart
  | 0, _ => fail "Unterminated quoted string"
  | fuel + 1, place => do
    let quoted := place.areQuoted
    match ← peek? with
    | some '(' =>
      discard take?
      if ← takeIf '(' then
        return .arithmetic (joinTexts (← readParts fuel (.arithmetic 0))) quoted
      else
        let outer ← get
        set { outer with isPushedBack := false }
        let body ← nested
        unless (← get).last = .operator ")" do unexpected (some (.operator ")"))
        modify fun reader =>
          { outer with rest := reader.rest, line := reader.line, taken := reader.taken }
        return .command body quoted
    | some '\x7b' =>
      discard take?
      let (name, use, isClosed) ← readBraced
      if isClosed then return .parameter name use [] quoted
      else
        let isPattern := use matches .dropFront _ || use matches .dropBack _
        let inner : Surroundings := if quoted && !isPattern then .quotedBraces else .braces
        return .parameter name use (joinTexts (← readParts fuel inner)) quoted
    | some c =>
      if startsName c then return .parameter (← takeName) .value [] quoted
      else if isSpecialParameter c then
        discard take?
        return .parameter [c] .value [] quoted
      else return .text ['$'] quoted
    | none => return .text ['$'] quoted

/-- The parts of a word up to the end of their surroundings. -/
def readParts : (fuel : Nat) → Surroundings → Reading Word
  | 0, _ => fail "Unterminated quoted string"
  | fuel + 1, place => do
    let quoted := place.areQuoted
    let also (part : WordPart) : Reading Word := return part :: (← readParts fuel place)
    skipContinuations (← get).rest.length
    match (← get).rest with
    | [] =>
      match place.complaint? with
      | some complaint => fail complaint
      | none => return []
    | c :: after =>
      if place = .bare && endsWord c then return []
      else
        discard take?
        match c with
        | '\\' =>
          match after.head? with
          | none => also (.text ['\\'] true)
          | some next =>
            discard take?
            let isMeant := !quoted || next ∈ ['\\', graveAccent, '$'] ||
              (next = '"' && place ≠ .document) || (next = '\x7d' && place = .quotedBraces)
            also (.text (if isMeant then [next] else ['\\', next]) true)
        | '\'' =>
          if quoted then also (.text ['\''] true)
          else
            let content ← readSingle ((← get).rest.length + 1)
            return .mark :: .text content true :: (← readParts fuel place)
        | '"' =>
          match place with
          | .quotes => return []
          | .document => also (.text ['"'] true)
          | .arithmetic _ => readParts fuel place
          | .quotedBraces =>
            let inner ← readParts fuel .quotes
            return inner ++ (← readParts fuel place)
          | _ =>
            let inner ← readParts fuel .quotes
            let isList := inner matches [.parameter ['@'] .value _ _]
            return (if isList then inner else .mark :: inner) ++ (← readParts fuel place)
        | '$' => also (← readDollar fuel place)
        | '\x7d' =>
          if place = .braces || place = .quotedBraces then return []
          else also (.text [c] quoted)
        | '(' =>
          match place with
          | .arithmetic depth =>
            return .text [c] true :: (← readParts fuel (.arithmetic (depth + 1)))
          | _ => also (.text [c] quoted)
        | ')' =>
          match place with
          | .arithmetic (depth + 1) =>
            return .text [c] true :: (← readParts fuel (.arithmetic depth))
          | .arithmetic 0 => if ← takeIf ')' then return [] else also (.text [c] true)
          | _ => also (.text [c] quoted)
        | _ =>
          if c = graveAccent then
            let source ← readAccented quoted ((← get).rest.length + 1)
            also (.command (← within source 1 nested) quoted)
          else also (.text [c] quoted)

end

/-- Some part of the word at the front is quoted. -/
def hasQuotes (word : Word) : Bool :=
  word.any fun part =>
    match part with
    | .mark => true
    | .text _ quoted => quoted
    | _ => false

/-- Take the word at the front of a script as the last one. -/
def readWord : Reading Unit := do
  let parts ← readParts nested (2 * (← get).rest.length + 2) .bare
  modify fun reader => { reader with word := joinTexts parts, isQuoted := hasQuotes parts }

/-- A whole text as the word that a document consists of, whose first line has a number. -/
def readDocument (text : List Char) (line : Nat) : Reading Word :=
  within text line do return joinTexts (← readParts nested (2 * text.length + 2) .document)

/-- The text in front of a delimiter line, and the lines that follow it. The last line is the one that
no line break ends. -/
def splitDocument (delimiter : List Char) (stripsTabs : Bool) :
    List (List Char) → List Char × List (List Char)
  | [] => ([], [])
  | line :: rest =>
    let line := if stripsTabs then line.dropWhile (· = '\t') else line
    if line = delimiter then ([], rest)
    else if rest.isEmpty then (line, [])
    else
      let (body, following) := splitDocument delimiter stripsTabs rest
      (line ++ '\n' :: body, following)

/-- Take out the lines of a document that follow the current line. The number of the first one comes
with them. -/
def takeBody (delimiter : List Char) (stripsTabs : Bool) : Reading (List Char × Nat) := do
  let reader ← get
  match Text.split '\n' reader.rest with
  | line :: next :: rest =>
    let (body, following) := splitDocument delimiter stripsTabs (next :: rest)
    set { reader with
      rest := line ++ '\n' :: Text.join '\n' following
      taken := reader.taken + (rest.length + 1 - following.length) }
    return (body, reader.line + 1 + reader.taken)
  | _ => return ([], reader.line)

/-- The text of a word without regard to quotes. -/
def plainText (word : Word) : List Char :=
  word.flatMap fun part =>
    match part with
    | .text content _ => content
    | .parameter name _ _ _ => '$' :: name
    | _ => []

end SketchApk.Shell
