import SketchApk.Process.Launch
import SketchApk.Shell.Arithmetic

/-!
# Conditions on files, texts and numbers

A condition is given by words. A single word is a text that is not empty, an operator in front of a
word tests a text or a file, and an operator between two words relates texts, numbers or files.
Conditions can be negated, joined, of which `-a` binds more tightly than `-o`, and put in parentheses.

Words that look like operators may be operands, so short sequences of words are read by their length.

## Main definitions

* `Condition` : conditions.
* `Condition.ofWords` : the condition that words spell.
* `Condition.holds` : a condition holds.
-/

namespace SketchApk

/-- A condition. -/
inductive Condition where
  | constant (value : Bool)
  | single (operator operand : String)
  | relation (left operator right : String)
  | negation (body : Condition)
  | both (left right : Condition)
  | either (left right : Condition)

namespace Condition

/-- The operators that stand in front of a word. -/
def singleOperators : List String :=
  ["-r", "-w", "-x", "-e", "-f", "-d", "-c", "-b", "-p", "-u", "-g", "-k", "-s", "-t", "-z", "-n",
    "-h", "-O", "-G", "-L", "-S"]

/-- The operators that stand between words. -/
def relations : List String :=
  ["=", "!=", "<", ">", "-eq", "-ne", "-ge", "-gt", "-le", "-lt", "-nt", "-ot", "-ef"]

/-- What a word means. -/
inductive Meaning where
  | ending
  | single (operator : String)
  | relation (operator : String)
  | negation
  | conjunction
  | disjunction
  | opening
  | closing
  | operand
  deriving DecidableEq

/-- What a word may mean by itself. -/
def meaningOf (word : String) : Meaning :=
  if word ∈ singleOperators then .single word
  else if word ∈ relations then .relation word
  else
    match word with
    | "!" => .negation
    | "-a" => .conjunction
    | "-o" => .disjunction
    | "(" => .opening
    | ")" => .closing
    | _ => .operand

/-- What the first of some words means. -/
def meaning : List String → Meaning
  | [] => .ending
  | word :: rest =>
    match meaningOf word, rest with
    | .single _, [] => .operand
    | .single operator, [_] => .single operator
    | .single operator, next :: _ :: _ =>
      if meaningOf next matches .relation _ then .operand else .single operator
    | .opening, [] => .operand
    | other, _ => other

/-- Why words spell no condition. -/
inductive Failure where
  | unexpectedOperator (word : String)
  | argumentExpected (word : String)
  | unclosed
  | notNumber (word : String)

/-- The wording of a failure. -/
def Failure.message : Failure → String
  | unexpectedOperator word =>
    if word.isEmpty then "unexpected operator" else word ++ ": unexpected operator"
  | argumentExpected word => word ++ ": argument expected"
  | unclosed => "closing paren expected"
  | notNumber word => "Illegal number: " ++ word

/-- A condition that was read, and the words from its last one on. -/
abbrev Reading := Except Failure (Condition × List String)

/-- The relation of which some words begin with the left operand. -/
def relationAt (words : List String) : Reading :=
  match words with
  | left :: operator :: right :: rest => .ok (.relation left operator right, right :: rest)
  | _ :: operator :: [] => .error (.argumentExpected operator)
  | _ => .ok (.constant false, words)

mutual

/-- The condition at the front of some words that stands for itself. -/
def readPrimary : (fuel : Nat) → Meaning → List String → Reading
  | 0, _, words => .ok (.constant false, words)
  | fuel + 1, first, words =>
    match first, words with
    | .ending, _ | _, [] => .ok (.constant false, words)
    | .opening, _ :: rest =>
      if meaning rest = .closing then .ok (.constant false, rest)
      else do
        let (body, behind) ← readDisjunction fuel (meaning rest) rest
        if meaning behind.tail = .closing then .ok (body, behind.tail) else .error .unclosed
    | .single operator, _ :: rest =>
      match rest with
      | [] => .error (.argumentExpected operator)
      | operand :: _ => .ok (.single operator operand, rest)
    | _, word :: rest =>
      if meaning rest matches .relation _ then relationAt words
      else .ok (.constant !word.isEmpty, words)

/-- The condition at the front of some words that may be negated. -/
def readNegation : (fuel : Nat) → Meaning → List String → Reading
  | 0, _, words => .ok (.constant false, words)
  | fuel + 1, first, words =>
    if first = .negation then do
      let next := meaning words.tail
      let (body, behind) ← readNegation fuel next (if next = .ending then words else words.tail)
      .ok (.negation body, behind)
    else readPrimary fuel first words

/-- The conditions at the front of some words that all have to hold. -/
def readConjunction : (fuel : Nat) → Meaning → List String → Reading
  | 0, _, words => .ok (.constant false, words)
  | fuel + 1, first, words => do
    let (left, behind) ← readNegation fuel first words
    if meaning behind.tail = .conjunction then
      let rest := behind.drop 2
      let (right, after) ← readConjunction fuel (meaning rest) rest
      .ok (.both left right, after)
    else .ok (left, behind)

/-- The conditions at the front of some words of which one has to hold. -/
def readDisjunction : (fuel : Nat) → Meaning → List String → Reading
  | 0, _, words => .ok (.constant false, words)
  | fuel + 1, first, words => do
    let (left, behind) ← readConjunction fuel first words
    if meaning behind.tail = .disjunction then
      let rest := behind.drop 2
      let (right, after) ← readDisjunction fuel (meaning rest) rest
      .ok (.either left right, after)
    else .ok (left, behind)

end

/-- The condition that words spell, the first of which has a meaning. -/
def read (first : Meaning) (words : List String) : Except Failure Condition := do
  let (condition, behind) ← readDisjunction (4 * words.length + 4) first words
  match behind with
  | word :: _ :: _ => .error (.unexpectedOperator word)
  | _ => .ok condition

/-- The condition that words spell. The first of four words may negate the other three, and then another
negation in front of them does not count. -/
def ofWords (words : List String) : Except Failure Condition :=
  match words with
  | [] => .ok (.constant false)
  | [left, operator, right] => do
    let (isNegated, condition) ← ofThree left operator right
    return if isNegated then .negation condition else condition
  | [first, second, third, fourth] =>
    if first = "(" && fourth = ")" then ofAny [second, third]
    else if first = "!" then do
      let (_, condition) ← ofThree second third fourth
      return .negation condition
    else ofAny words
  | _ => ofAny words
where
  /-- The condition that some words spell, whatever their number. -/
  ofAny (words : List String) : Except Failure Condition :=
    read (meaning words) words
  /-- The condition that three words spell, and the flag that it is to be negated. -/
  ofThree (left operator right : String) : Except Failure (Bool × Condition) :=
    if meaningOf operator matches .relation _ then
      (read .operand [left, operator, right]).map fun condition => (false, condition)
    else if left = "(" && right = ")" then
      (ofAny [operator]).map fun condition => (false, condition)
    else if left = "!" then (ofAny [operator, right]).map fun condition => (true, condition)
    else (ofAny [left, operator, right]).map fun condition => (false, condition)

section

variable {σ ε : Type}

/-- The node that a path leads to. -/
def nodeAt? (path : String) (follow : Bool) : Steps σ ε (Option (Location × Node)) := do
  match ← Steps.call (.findNode (Octets.toPath path) follow) with
  | .ok found => return some found
  | .error _ => return none

/-- The permission bits of a node. -/
def modeOf : Node → Mode
  | .file mode _ | .directory mode => mode
  | .link _ => 0o777

/-- The path is that of a device. -/
def isDevice (path : String) : Bool :=
  path ∈ ["/dev/null", "/dev/zero", "/dev/full"]

/-- A condition on one operand holds. -/
def holdsOf (operator operand : String) : Steps σ ε Bool := do
  match operator with
  | "-n" => return !operand.isEmpty
  | "-z" => return operand.isEmpty
  | "-t" => return false
  | "-h" | "-L" => return (← nodeAt? operand false).any fun found => (found.2 matches .link _)
  | _ =>
    match ← nodeAt? operand true with
    | none => return false
    | some (_, node) =>
      match operator with
      | "-e" | "-O" | "-G" => return true
      | "-f" => return (node matches .file ..) && !isDevice operand
      | "-d" => return (node matches .directory _)
      | "-c" => return isDevice operand
      | "-r" => return (modeOf node).isReadable
      | "-w" => return (modeOf node).isWritable
      | "-x" => return (modeOf node).isExecutable
      | "-s" =>
        match node with
        | .file _ content => return !content.isEmpty
        | _ => return true
      | "-u" => return modeOf node &&& 0o4000 != 0
      | "-g" => return modeOf node &&& 0o2000 != 0
      | "-k" => return modeOf node &&& 0o1000 != 0
      | _ => return false

/-- The number that an operand spells. -/
def numberOf (operand : String) : Except Failure Int :=
  match Shell.Arithmetic.readNumber? false true operand.toList with
  | some number => .ok number
  | none => .error (.notNumber operand)

/-- The relation of numbers that an operator tests. -/
def compares (operator : String) (left right : Int) : Bool :=
  match operator with
  | "-eq" => left = right
  | "-ne" => left ≠ right
  | "-ge" => right ≤ left
  | "-gt" => right < left
  | "-le" => left ≤ right
  | _ => left < right

/-- A condition on two operands holds. -/
def relates (left operator right : String) : Steps σ ε (Except Failure Bool) := do
  match operator with
  | "=" => return .ok (left = right)
  | "!=" => return .ok (left ≠ right)
  | "<" => return .ok (left < right)
  | ">" => return .ok (right < left)
  | "-nt" | "-ot" => return .ok false
  | "-ef" =>
    let first ← nodeAt? left true
    let second ← nodeAt? right true
    return .ok (first.any fun found => second.any fun other => found.1 = other.1)
  | _ => return do return compares operator (← numberOf left) (← numberOf right)

/-- A condition holds. -/
def holds : Condition → Steps σ ε (Except Failure Bool)
  | constant value => return .ok value
  | single operator operand => return .ok (← holdsOf operator operand)
  | relation left operator right => relates left operator right
  | negation body => return (← holds body).map (!·)
  | both left right => do
    match ← holds left with
    | .error failure => return .error failure
    | .ok first => return (← holds right).map (first && ·)
  | either left right => do
    match ← holds left with
    | .error failure => return .error failure
    | .ok first => return (← holds right).map (first || ·)

/-- Test the condition that words spell: the status is zero if it holds, one if it does not, and two
with a message if the words spell no condition. In the form with brackets the last word closes it. -/
def test (bracketed : Bool) (words : List String) : Steps σ ε (Nat × Option String) := do
  if bracketed && words.getLast? ≠ some "]" then return (2, some "missing ]")
  else
    match ofWords (if bracketed then words.dropLast else words) with
    | .error failure => return (2, some failure.message)
    | .ok condition =>
      match ← holds condition with
      | .ok result => return (if result then 0 else 1, none)
      | .error failure => return (2, some failure.message)

end

end Condition

end SketchApk
