import SketchApk.Shell.Reader

/-!
# Reading the statements of shell scripts

The grammar of scripts is read by recursive descent over tokens. The same word can be a reserved word
in one place and an argument in another, so each place says whether it looks for reserved words, and
whether line breaks are passed over there.

A script is read one complete line at a time: a line is carried out before the next one is read. A line
is complete when all statements that begin in it have been closed.

## Main definitions

* `Shell.readToken` : the token at the front of a script.
* `Shell.readStatements` : the statements at the front of a script.
* `Shell.Reader.nextLine` : the next complete line of a script.
-/

namespace SketchApk.Shell

open Reading

/-- The reserved words. -/
def reservedWords : List String :=
  ["!", "case", "do", "done", "elif", "else", "esac", "fi", "for", "if", "in", "then", "until",
    "while", "\x7b", "\x7d"]

/-- Commands whose names cannot be given to functions. -/
def specialCommands : List String :=
  [".", ":", "break", "continue", "eval", "exec", "exit", "export", "local", "readonly", "return",
    "set", "shift", "times", "trap", "unset"]

/-- The reserved word that the last word spells. -/
def Reader.reservedWord? (reader : Reader) : Option String :=
  if reader.isQuoted then none
  else (bareText? reader.word).bind fun text => reservedWords.find? (·.toList = text)

/-- Pass over a comment. At most `fuel` characters are taken. -/
def skipComment : (fuel : Nat) → Reading Unit
  | 0 => return ()
  | fuel + 1 => do
    match (← get).rest.head? with
    | none | some '\n' => return ()
    | some _ =>
      discard take?
      skipComment fuel

/-- Pass over blanks and comments. At most `fuel` are passed over. -/
def skipBlanks : (fuel : Nat) → Reading Unit
  | 0 => return ()
  | fuel + 1 => do
    match ← peek? with
    | some ' ' | some '\t' =>
      discard take?
      skipBlanks fuel
    | some '#' =>
      skipComment ((← get).rest.length + 1)
      skipBlanks fuel
    | _ => return ()

/-- The redirection whose first character has been read. -/
def readRedirection (descriptor : Option Nat) (first : Char) : Reading Token := do
  let chosen (kind : RedirectionKind) : Reading Token := do
    discard take?
    return .redirection (descriptor.getD (if first = '<' then 0 else 1)) kind false
  match first, ← peek? with
  | '<', some '<' =>
    discard take?
    return .redirection (descriptor.getD 0) .document (← takeIf '-')
  | '<', some '&' => chosen .duplicate
  | '<', some '>' => chosen .update
  | '<', _ => return .redirection (descriptor.getD 0) .read false
  | _, some '>' => chosen .append
  | _, some '|' => chosen .overwrite
  | _, some '&' => chosen .duplicate
  | _, _ => return .redirection (descriptor.getD 1) .write false

/-- The descriptor that a word in front of a redirection names. -/
def Reader.descriptor? (reader : Reader) : Option Nat :=
  if reader.isQuoted then none
  else
    match bareText? reader.word with
    | some [digit] => if digit.isDigit then some (digit.toNat - '0'.toNat) else none
    | _ => none

section

variable (nested : Reading (Option Statement))

/-- The word at the front, or the redirection that a digit at the front begins. -/
def readWordToken : Reading Token := do
  readWord nested
  let reader ← get
  match reader.descriptor?, reader.rest with
  | some descriptor, '<' :: _ =>
    discard take?
    readRedirection (some descriptor) '<'
  | some descriptor, '>' :: _ =>
    discard take?
    readRedirection (some descriptor) '>'
  | _, _ => return .word

/-- The token at the front, where no token is to be read again. -/
def readFreshToken : Reading Token := do
  skipBlanks ((← get).rest.length + 1)
  let one (text : String) : Reading Token := do
    discard take?
    return .operator text
  let oneOrTwo (c : Char) : Reading Token := do
    discard take?
    if ← takeIf c then return .operator (String.ofList [c, c])
    else return .operator (String.ofList [c])
  match (← get).rest.head? with
  | none => return .ending
  | some '\n' =>
    discard take?
    return .newline
  | some '&' => oneOrTwo '&'
  | some '|' => oneOrTwo '|'
  | some ';' => oneOrTwo ';'
  | some '(' => one "("
  | some ')' => one ")"
  | some '<' =>
    discard take?
    readRedirection none '<'
  | some '>' =>
    discard take?
    readRedirection none '>'
  | some _ => readWordToken nested

/-- The next token as it is, which may be the last one again. -/
def readRawToken : Reading Token := do
  let reader ← get
  if reader.isPushedBack then
    set { reader with isPushedBack := false }
    return reader.last
  else
    let token ← readFreshToken nested
    modify fun reader => { reader with last := token }
    return token

/-- Pass over line breaks. At most `fuel` are passed over. -/
def readBehindNewlines : (fuel : Nat) → Reading Token
  | 0 => readRawToken nested
  | fuel + 1 => do
    match ← readRawToken nested with
    | .newline => readBehindNewlines fuel
    | token => return token

/-- The next token. A word may be taken for a reserved word, and line breaks may be passed over. -/
def readToken (reserved newlines : Bool) : Reading Token := do
  let token ←
    if newlines then readBehindNewlines nested ((← get).rest.length + 2) else readRawToken nested
  let reader ← get
  match token, if reserved then reader.reservedWord? else none with
  | .word, some word =>
    set { reader with last := .keyword word }
    return .keyword word
  | _, _ => return token

end

/-- Let the last token be read again. -/
def pushBack : Reading Unit :=
  modify fun reader => { reader with isPushedBack := true }

/-- A token at which statements end. -/
def Token.endsStatements : Token → Bool
  | .ending => true
  | .operator text => text ∈ [")", ";;"]
  | .keyword text =>
    text ∈ ["do", "done", "elif", "else", "esac", "fi", "then", "\x7d"]
  | _ => false

/-- How far statements are read. -/
inductive Extent where
  /-- Up to the end of a line. -/
  | line
  /-- One statement at least. -/
  | oneOrMore
  | any
  deriving DecidableEq, Repr

/-- The word that stands for all arguments. -/
def argumentsWord : Word :=
  [.parameter ['@'] .value [] true]

mutual

/-- The statements at the front, one after the other. -/
def readStatements : (fuel : Nat) → Extent → Option Statement → Reading (Option Statement)
  | 0, _, _ => fail "Script too deep"
  | fuel + 1, extent, before => do
    let nested := readStatements fuel .any none
    let token ← readToken nested true (extent ≠ .line)
    match token with
    | .newline => return before
    | .ending =>
      pushBack
      return before
    | _ =>
      pushBack
      if (extent = .any || extent = .oneOrMore && before.isSome) && token.endsStatements then
        return before
      else
        let chain ← readChain fuel
        let separator ← readToken nested false false
        let statement := if separator = .operator "&" then .background chain else chain
        let all : Statement :=
          match before with
          | none => statement
          | some first => .sequence first statement
        match separator with
        | .ending =>
          pushBack
          return all
        | .newline =>
          if extent = .line then return all
          else readStatements fuel extent all
        | .operator "&" | .operator ";" => readStatements fuel extent all
        | _ =>
          if extent = .line then unexpected none
          else
            pushBack
            return all

/-- Statements that are joined by conditions. -/
def readChain : (fuel : Nat) → Reading Statement
  | 0 => fail "Script too deep"
  | fuel + 1 => do
    let first ← readPipeline fuel false
    readChainFrom fuel first

/-- Statements that are joined by conditions, where the first ones have been read. -/
def readChainFrom : (fuel : Nat) → Statement → Reading Statement
  | 0, _ => fail "Script too deep"
  | fuel + 1, first => do
    match ← readToken (readStatements fuel .any none) false false with
    | .operator "&&" => readChainFrom fuel (.both first (← readPipeline fuel true))
    | .operator "||" => readChainFrom fuel (.either first (← readPipeline fuel true))
    | _ =>
      pushBack
      return first

/-- Statements that are joined by pipes. Line breaks in front of them may be passed over. -/
def readPipeline : (fuel : Nat) → (newlines : Bool) → Reading Statement
  | 0, _ => fail "Script too deep"
  | fuel + 1, newlines => do
    let nested := readStatements fuel .any none
    let isNegated := (← readToken nested true newlines) = .keyword "!"
    unless isNegated do pushBack
    let first ← readCommand fuel isNegated false
    let rest ← readStages fuel
    let pipeline := if rest.isEmpty then first else .pipeline (first :: rest)
    return if isNegated then .negated pipeline else pipeline

/-- The further stages of a pipeline. -/
def readStages : (fuel : Nat) → Reading (List Statement)
  | 0 => fail "Script too deep"
  | fuel + 1 => do
    match ← readToken (readStatements fuel .any none) false false with
    | .operator "|" =>
      let stage ← readCommand fuel true true
      return stage :: (← readStages fuel)
    | _ =>
      pushBack
      return []

/-- A single statement. -/
def readCommand : (fuel : Nat) → (reserved newlines : Bool) → Reading Statement
  | 0, _, _ => fail "Script too deep"
  | fuel + 1, reserved, newlines => do
    let nested := readStatements fuel .any none
    let line := (← get).line
    let body : Reading Statement := return (← readStatements fuel .oneOrMore none).getD default
    let expect (token : Token) : Reading Unit := do
      unless (← readToken nested false false) = token do unexpected (some token)
    match ← readToken nested reserved newlines with
    | .keyword "if" =>
      let statement ← readBranch fuel
      readRedirected fuel line statement
    | .keyword "while" =>
      let condition ← body
      expect (.keyword "do")
      let repeated ← body
      expect (.keyword "done")
      readRedirected fuel line (.loop false condition repeated)
    | .keyword "until" =>
      let condition ← body
      expect (.keyword "do")
      let repeated ← body
      expect (.keyword "done")
      readRedirected fuel line (.loop true condition repeated)
    | .keyword "for" =>
      let token ← readToken nested false false
      let reader ← get
      match token, bareText? reader.word with
      | .word, some name =>
        unless isName name && !reader.isQuoted do fail "Bad for loop variable"
        let items ←
          if (← readToken nested true true) = .keyword "in" then do
            let words ← readItems fuel
            let token := (← get).last
            unless token = .newline || token = .operator ";" do unexpected none
            pure (some words)
          else do
            unless (← get).last = .operator ";" do pushBack
            pure none
        unless (← readToken nested true true) = .keyword "do" do
          unexpected (some (.keyword "do"))
        let repeated ← body
        expect (.keyword "done")
        readRedirected fuel line (.each line name items repeated)
      | _, _ => fail "Bad for loop variable"
    | .keyword "case" =>
      unless (← readToken nested false false) = .word do unexpected (some .word)
      let subject := (← get).word
      unless (← readToken nested true true) = .keyword "in" do unexpected (some (.keyword "in"))
      let choices ← readChoices fuel
      readRedirected fuel line (.choose line subject choices)
    | .operator "(" =>
      let inner ← body
      expect (.operator ")")
      readRedirected fuel line (.subshell line inner)
    | .keyword "\x7b" =>
      let inner ← body
      expect (.keyword "\x7d")
      readRedirected fuel line inner
    | .word | .redirection .. =>
      pushBack
      readSimple fuel (← get).line true [] [] []
    | _ => unexpected none

/-- A conditional statement behind the word that begins a condition, up to its end. -/
def readBranch : (fuel : Nat) → Reading Statement
  | 0 => fail "Script too deep"
  | fuel + 1 => do
    let nested := readStatements fuel .any none
    let condition := (← readStatements fuel .oneOrMore none).getD default
    unless (← readToken nested false false) = .keyword "then" do
      unexpected (some (.keyword "then"))
    let body := (← readStatements fuel .oneOrMore none).getD default
    match ← readToken nested false false with
    | .keyword "elif" => return .branch condition body (some (← readBranch fuel))
    | .keyword "else" =>
      let otherwise ← readStatements fuel .oneOrMore none
      unless (← readToken nested false false) = .keyword "fi" do
        unexpected (some (.keyword "fi"))
      return .branch condition body otherwise
    | .keyword "fi" => return .branch condition body none
    | _ => unexpected (some (.keyword "fi"))

/-- The words of a loop, up to another token. -/
def readItems : (fuel : Nat) → Reading (List Word)
  | 0 => fail "Script too deep"
  | fuel + 1 => do
    match ← readToken (readStatements fuel .any none) false false with
    | .word =>
      let word := (← get).word
      return word :: (← readItems fuel)
    | _ => return []

/-- The choices of a statement up to its end. -/
def readChoices : (fuel : Nat) → Reading (List (List Word × Option Statement))
  | 0 => fail "Script too deep"
  | fuel + 1 => do
    let nested := readStatements fuel .any none
    match ← readToken nested true true with
    | .keyword "esac" => return []
    | first =>
      if first = .operator "(" then discard (readToken nested false false)
      let patterns ← readPatterns fuel
      unless (← get).last = .operator ")" do unexpected (some (.operator ")"))
      let body ← readStatements fuel .any none
      match ← readToken nested true true with
      | .keyword "esac" => return [(patterns, body)]
      | .operator ";;" => return (patterns, body) :: (← readChoices fuel)
      | _ => unexpected (some (.operator ";;"))

/-- The patterns of a choice, where the first has been read, up to another token. -/
def readPatterns : (fuel : Nat) → Reading (List Word)
  | 0 => fail "Script too deep"
  | fuel + 1 => do
    let nested := readStatements fuel .any none
    let reader ← get
    let pattern :=
      match reader.last with
      | .word | .keyword _ => reader.word
      | _ => []
    match ← readToken nested false false with
    | .operator "|" =>
      discard (readToken nested false false)
      return pattern :: (← readPatterns fuel)
    | _ => return [pattern]

/-- A statement with the redirections that follow it. -/
def readRedirected : (fuel : Nat) → (line : Nat) → Statement → Reading Statement
  | 0, _, _ => fail "Script too deep"
  | fuel + 1, line, statement => do
    let redirections ← readRedirections fuel
    return if redirections.isEmpty then statement else .redirected line statement redirections

/-- The redirections at the front. -/
def readRedirections : (fuel : Nat) → Reading (List Redirection)
  | 0 => fail "Script too deep"
  | fuel + 1 => do
    match ← readToken (readStatements fuel .any none) true false with
    | .redirection descriptor kind stripsTabs =>
      let redirection ← readTarget fuel descriptor kind stripsTabs
      return redirection :: (← readRedirections fuel)
    | _ =>
      pushBack
      return []

/-- A redirection whose sign has been read. -/
def readTarget : (fuel descriptor : Nat) → RedirectionKind → (stripsTabs : Bool) →
    Reading Redirection
  | 0, _, _, _ => fail "Script too deep"
  | fuel + 1, descriptor, kind, stripsTabs => do
    let nested := readStatements fuel .any none
    unless (← readToken nested false false) = .word do unexpected none
    let reader ← get
    if kind = .document then
      let (body, line) ← takeBody (plainText reader.word) stripsTabs
      let text ←
        if reader.isQuoted then pure [.text body true] else readDocument nested body line
      return .mk descriptor kind text
    else return .mk descriptor kind reader.word

/-- A statement that assigns variables and calls a command. -/
def readSimple : (fuel line : Nat) → (assigns : Bool) → List (List Char × Word) → List Word →
    List Redirection → Reading Statement
  | 0, _, _, _, _, _ => fail "Script too deep"
  | fuel + 1, line, assigns, assignments, words, redirections => do
    let nested := readStatements fuel .any none
    let finish : Reading Statement := do
      pushBack
      return .simple line assignments.reverse words.reverse redirections.reverse
    match ← readToken nested false false with
    | .word =>
      let word := (← get).word
      match if assigns then assignment? word else none with
      | some assignment =>
        readSimple fuel line true (assignment :: assignments) words redirections
      | none => readSimple fuel line false assignments (word :: words) redirections
    | .redirection descriptor kind stripsTabs =>
      let redirection ← readTarget fuel descriptor kind stripsTabs
      readSimple fuel line assigns assignments words (redirection :: redirections)
    | .operator "(" =>
      match words, assignments, redirections with
      | [word], [], [] =>
        unless (← readToken nested false false) = .operator ")" do
          unexpected (some (.operator ")"))
        match bareText? word with
        | some name =>
          if isName name && String.ofList name ∉ specialCommands then
            return .define name (← readCommand fuel true true)
          else fail "Bad function name"
        | none => fail "Bad function name"
      | _, _, _ => finish
    | _ => finish

end

/-- The statements of a complete line, and how the script goes on. There are none in an empty line. -/
inductive Line where
  | ending
  | failure (error : SyntaxError)
  | statements (statement : Option Statement) (rest : Reader)

/-- Nothing follows what has been read. -/
def Reader.isAtEnd (reader : Reader) : Bool :=
  reader.isPushedBack && reader.last = .ending

/-- The next complete line of a script. -/
def Reader.nextLine (reader : Reader) : Line :=
  let fuel := 16 * reader.rest.length + 32
  match (readStatements fuel .line none).run reader with
  | .error error => .failure error
  | .ok (none, rest) => if rest.isAtEnd then .ending else .statements none rest
  | .ok (some statement, rest) => .statements (some statement) rest

end SketchApk.Shell
