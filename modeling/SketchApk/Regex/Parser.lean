import SketchApk.Regex.Basic
import SketchApk.Text.Number

/-!
# Reading regular expressions

In the *basic* dialect the characters for groups, alternatives and counts have their meaning behind a
backslash, in the *extended* one without it. In the basic dialect an asterisk at the beginning stands for
itself, and so does a circumflex that is not at the beginning and a dollar sign that is not at the end.
The *lenient* dialect is like the extended one, but takes parentheses that do not match and counts that
are no counts for themselves.

## Main definitions

* `Regex.Dialect` : the dialects.
* `Regex.read` : the regular expression that a text spells.
-/

namespace SketchApk.Regex

/-- How regular expressions are spelled. -/
inductive Dialect where
  | basic
  | extended
  | lenient
  deriving DecidableEq, Repr

/-- A part of the spelling of a regular expression. -/
inductive Token where
  | atom (regex : Regex)
  | reference (number : Nat)
  | opening
  | closing
  | bar
  | repetition (least : Nat) (most : Option Nat)
  | ending

/-- The name between two marks within brackets, and what follows. -/
def markedName (mark : Char) (text : List Char) : Option (List Char × List Char) :=
  let rec go : (name : List Char) → List Char → Option (List Char × List Char)
    | name, c :: ']' :: rest =>
      if c = mark then some (name.reverse, rest) else go (c :: name) (']' :: rest)
    | name, c :: rest => go (c :: name) rest
    | _, [] => none
  go [] text

/-- A single character at the front of the items of a set, and what follows. -/
def setCharacter (text : List Char) : Except RegexError (Char × List Char) :=
  match text with
  | '[' :: mark :: rest =>
    if mark = '.' || mark = '=' then
      match markedName mark rest with
      | some ([c], after) => .ok (c, after)
      | some _ => .error .invalidRange
      | none => .error .unmatchedBracket
    else .ok ('[', mark :: rest)
  | c :: rest => .ok (c, rest)
  | [] => .error .unmatchedBracket

/-- The items of a set up to the closing bracket, and what follows. At most `fuel` items are read. -/
def readSetItems : (fuel : Nat) → (isFirst : Bool) → CharacterSet → List Char →
    Except RegexError (CharacterSet × List Char)
  | 0, _, _, _ => .error .unmatchedBracket
  | fuel + 1, isFirst, set, text =>
    match text, isFirst with
    | [], _ => .error .unmatchedBracket
    | ']' :: rest, false => .ok (set, rest)
    | '[' :: ':' :: rest, _ =>
      match markedName ':' rest with
      | none => .error .unmatchedBracket
      | some (name, after) =>
        let word := String.ofList name
        if (Text.characterClass? word).isNone then .error .invalidClass
        else readSetItems fuel false { set with classes := set.classes ++ [word] } after
    | _, _ => do
      let (first, rest) ← setCharacter text
      match rest with
      | '-' :: next :: after =>
        if next = ']' then
          readSetItems fuel false { set with ranges := set.ranges ++ [(first, first)] } rest
        else do
          let (last, behind) ← setCharacter (next :: after)
          if last < first then throw .invalidRange
          readSetItems fuel false { set with ranges := set.ranges ++ [(first, last)] } behind
      | _ => readSetItems fuel false { set with ranges := set.ranges ++ [(first, first)] } rest

/-- The set behind an opening bracket, and what follows. -/
def readSet (text : List Char) : Except RegexError (CharacterSet × List Char) :=
  match text with
  | '^' :: rest => readSetItems (rest.length + 1) true { isInverted := true } rest
  | _ => readSetItems (text.length + 1) true {} text

/-- The counts of a repetition up to a closing brace, and what follows. -/
def readCounts (dialect : Dialect) (text : List Char) :
    Except RegexError ((Nat × Option Nat) × List Char) :=
  let number? (digits : List Char) : Option Nat :=
    if digits.isEmpty then none else Text.readDigits? 10 0 digits
  let least := text.takeWhile Char.isDigit
  let afterLeast := text.dropWhile Char.isDigit
  let (most, rest) : Option (List Char) × List Char :=
    match afterLeast with
    | ',' :: more => (some (more.takeWhile Char.isDigit), more.dropWhile Char.isDigit)
    | _ => (none, afterLeast)
  let closed : Except RegexError (List Char) :=
    match dialect, rest with
    | .basic, '\\' :: '\x7d' :: after => .ok after
    | .basic, [] => .error .unmatchedBrace
    | .basic, _ => .error .invalidCount
    | _, '\x7d' :: after => .ok after
    | _, [] => .error .unmatchedBrace
    | _, _ => .error .invalidCount
  match closed with
  | .error error => .error error
  | .ok after =>
    match number? least, most with
    | none, none => .error .invalidCount
    | some count, none => .ok ((count, some count), after)
    | least, some digits =>
      let low := least.getD 0
      match number? digits with
      | none => .ok ((low, none), after)
      | some high => if high < low then .error .invalidCount else .ok ((low, some high), after)

/-- What a character behind a backslash means in both dialects. -/
def escaped? (c : Char) : Option Regex :=
  match c with
  | 'w' => some (.oneOf .word)
  | 'W' => some (.oneOf (CharacterSet.inverse .word))
  | 's' => some (.oneOf .space)
  | 'S' => some (.oneOf (CharacterSet.inverse .space))
  | '<' => some (.anchor .wordStart)
  | '>' => some (.anchor .wordEnd)
  | 'b' => some (.anchor .wordEdge)
  | 'B' => some (.anchor .inside)
  | '\'' => some (.anchor .textEnd)
  | _ => if c = Char.ofNat 0x60 then some (.anchor .textStart) else none

/-- A dollar sign in front of some text is at the end of an expression. -/
def isAtEnd (rest : List Char) : Bool :=
  match rest with
  | [] | '\\' :: ')' :: _ | '\\' :: '|' :: _ => true
  | _ => false

/-- The token at the front of a text in the extended dialect, and what follows. -/
def extendedToken (isLenient isStart : Bool) (text : List Char) :
    Except RegexError (Token × List Char) :=
  match text with
  | [] => .ok (.ending, [])
  | '\\' :: rest =>
    match rest with
    | [] => .error .trailingBackslash
    | c :: after =>
      match escaped? c with
      | some regex => .ok (.atom regex, after)
      | none =>
        if c.isDigit && c ≠ '0' then .ok (.reference (c.toNat - 0x30), after)
        else .ok (.atom (.character c), after)
  | '[' :: rest => do
    let (set, after) ← readSet rest
    return (.atom (.oneOf set), after)
  | '.' :: rest => .ok (.atom .any, rest)
  | '(' :: rest => .ok (.opening, rest)
  | ')' :: rest => .ok (.closing, rest)
  | '|' :: rest => .ok (.bar, rest)
  | '*' :: rest => .ok (.repetition 0 none, rest)
  | '+' :: rest => .ok (.repetition 1 none, rest)
  | '?' :: rest => .ok (.repetition 0 (some 1), rest)
  | '^' :: rest => .ok (.atom (.anchor .lineStart), rest)
  | '$' :: rest => .ok (.atom (.anchor .lineEnd), rest)
  | c :: rest =>
    if c = '\x7b' && !isStart then
      match readCounts .extended rest with
      | .ok ((least, most), after) => .ok (.repetition least most, after)
      | .error error => if isLenient then .ok (.atom (.character c), rest) else .error error
    else .ok (.atom (.character c), rest)

/-- The token at the front of a text in the basic dialect, and what follows. -/
def basicToken (isStart : Bool) (text : List Char) : Except RegexError (Token × List Char) :=
  match text with
  | [] => .ok (.ending, [])
  | '\\' :: rest =>
    match rest with
    | [] => .error .trailingBackslash
    | '(' :: after => .ok (.opening, after)
    | ')' :: after => .ok (.closing, after)
    | '|' :: after => .ok (.bar, after)
    | '+' :: after =>
      .ok (if isStart then .atom (.character '+') else .repetition 1 none, after)
    | '?' :: after =>
      .ok (if isStart then .atom (.character '?') else .repetition 0 (some 1), after)
    | c :: after =>
      if c = '\x7b' then
        if isStart then .ok (.atom (.character c), after)
        else do
          let ((least, most), behind) ← readCounts .basic after
          return (.repetition least most, behind)
      else
        match escaped? c with
        | some regex => .ok (.atom regex, after)
        | none =>
          if c.isDigit && c ≠ '0' then .ok (.reference (c.toNat - 0x30), after)
          else .ok (.atom (.character c), after)
  | '[' :: rest => do
    let (set, after) ← readSet rest
    return (.atom (.oneOf set), after)
  | '.' :: rest => .ok (.atom .any, rest)
  | '*' :: rest => .ok (if isStart then .atom (.character '*') else .repetition 0 none, rest)
  | '^' :: rest =>
    .ok (.atom (if isStart then .anchor .lineStart else .character '^'), rest)
  | '$' :: rest =>
    .ok (.atom (if isAtEnd rest then .anchor .lineEnd else .character '$'), rest)
  | c :: rest => .ok (.atom (.character c), rest)

/-- The token at the front of a text, and what follows. -/
def token (dialect : Dialect) (isStart : Bool) (text : List Char) :
    Except RegexError (Token × List Char) :=
  match dialect with
  | .basic => basicToken isStart text
  | .extended => extendedToken false isStart text
  | .lenient => extendedToken true isStart text

/-- How far a regular expression has been read. -/
structure Reading where
  rest : List Char
  /-- The number of groups that have been opened. -/
  groups : Nat := 0
  /-- The groups that have been closed. -/
  closed : List Nat := []

/-- Two expressions one after the other. -/
def append : Regex → Regex → Regex
  | empty, second => second
  | first, second => sequence first second

/-- Repetitions behind an expression. At most `fuel` of them are read. -/
def readRepetitions (dialect : Dialect) : (fuel : Nat) → Regex → List Char →
    Except RegexError (Regex × List Char)
  | 0, body, text => .ok (body, text)
  | fuel + 1, body, text => do
    let (next, after) ← token dialect false text
    match next with
    | .repetition least most => readRepetitions dialect fuel (.repeated body least most) after
    | _ => return (body, text)

/-- The alternatives up to the end or to the closing of a group. The flag tells that nothing has been read
of the present alternative. At most `fuel` parts are read. -/
def readAlternatives (dialect : Dialect) : (fuel : Nat) → (depth : Nat) → (isStart : Bool) →
    (before : Regex) → Reading → Except RegexError (Regex × Reading)
  | 0, _, _, before, reading => .ok (before, reading)
  | fuel + 1, depth, isStart, before, reading => do
    let (next, after) ← token dialect isStart reading.rest
    match next with
    | .ending =>
      if depth = 0 then return (before, { reading with rest := [] })
      else throw .unmatchedOpening
    | .closing =>
      if depth = 0 then
        if dialect = .lenient then
          readAlternatives dialect fuel depth false (before.append (.character ')'))
            { reading with rest := after }
        else throw .unmatchedClosing
      else return (before, { reading with rest := after })
    | .bar =>
      let (others, behind) ← readAlternatives dialect fuel depth true .empty
        { reading with rest := after }
      return (.either before others, behind)
    | .repetition _ _ =>
      if dialect = .extended then throw .nothingToRepeat
      readAlternatives dialect fuel depth isStart before { reading with rest := after }
    | .reference number =>
      if number ∉ reading.closed then throw .invalidReference
      let (part, behind) ← readRepetitions dialect fuel (.reference number) after
      readAlternatives dialect fuel depth false (before.append part)
        { reading with rest := behind }
    | .atom (.anchor .lineStart) =>
      let (part, behind) ←
        match dialect with
        | .basic => pure (Regex.anchor .lineStart, after)
        | _ => readRepetitions dialect fuel (.anchor .lineStart) after
      readAlternatives dialect fuel depth true (before.append part)
        { reading with rest := behind }
    | .atom regex =>
      let (part, behind) ← readRepetitions dialect fuel regex after
      readAlternatives dialect fuel depth false (before.append part)
        { reading with rest := behind }
    | .opening =>
      let number := reading.groups + 1
      let (body, inner) ← readAlternatives dialect fuel (depth + 1) true .empty
        { reading with rest := after, groups := number }
      let (part, behind) ← readRepetitions dialect fuel (.group number body) inner.rest
      readAlternatives dialect fuel depth false (before.append part)
        { inner with rest := behind, closed := number :: inner.closed }

/-- The regular expression that a text spells, and the number of its groups. -/
def read (dialect : Dialect) (text : List Char) : Except RegexError (Regex × Nat) := do
  let (regex, reading) ← readAlternatives dialect (2 * text.length + 2) 0 true .empty
    { rest := text }
  return (regex, reading.groups)

/-- The regular expression that matches a text and nothing else. -/
def ofText (text : List Char) : Regex :=
  text.foldr (fun c rest => .sequence (.character c) rest) .empty

end SketchApk.Regex
