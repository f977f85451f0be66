import SketchApk.Shell.Syntax
import SketchApk.Text.Number

/-!
# Arithmetic of shells

Expressions over whole numbers of 64 bits have the usual operators, with the usual precedence, and
assignments. A variable has the value that its text spells, and zero if it is empty or not set. Truth
values are one and zero. Only those operands are evaluated on which the value depends.

## Main definitions

* `Arithmetic.readNumber?` : the number that a text spells.
* `Arithmetic.evaluate` : the value of an expression, and the variables that it assigns.
-/

namespace SketchApk.Shell.Arithmetic

/-- The largest number. -/
def largest : Nat := 9223372036854775807

/-- The base of the digits at the front of a text, and the digits: hexadecimal behind `0x`, octal
behind a zero, and decimal otherwise. -/
def splitBase (text : List Char) : Nat × List Char :=
  let isHexadecimal (c : Option Char) : Bool := c.any fun c => (Text.digitValue? 16 c).isSome
  match text with
  | '0' :: 'x' :: rest | '0' :: 'X' :: rest =>
    if isHexadecimal rest.head? then (16, rest) else (8, text)
  | '0' :: _ => (8, text)
  | _ => (10, text)

/-- The number that digits at the front of a text spell, and what follows them. -/
def takeDigits (base : Nat) (text : List Char) : Nat × List Char :=
  let isDigit (c : Char) : Bool := (Text.digitValue? base c).isSome
  (((Text.readDigits? base 0 (text.takeWhile isDigit)).getD 0), text.dropWhile isDigit)

/-- The number that a text spells, with blanks around it and a sign in front. An empty text spells
zero where it is `allowed`. -/
def readNumber? (allowed : Bool) (decimal : Bool) (text : List Char) : Option Int :=
  let isBlank (c : Char) : Bool := c = ' ' || (0x09 ≤ c.toNat && c.toNat ≤ 0x0d)
  let (negative, unsigned) :=
    match text.dropWhile isBlank with
    | '-' :: rest => (true, rest)
    | '+' :: rest => (false, rest)
    | rest => (false, rest)
  let (base, digits) := if decimal then (10, unsigned) else splitBase unsigned
  let (value, rest) := takeDigits base digits
  if rest.length = digits.length then
    if allowed && text.all isBlank then some 0 else none
  else if !rest.all isBlank then none
  else if negative then if value ≤ largest + 1 then some (-(value : Int)) else none
  else if value ≤ largest then some value
  else none

/-- Why an expression has no value. -/
inductive Failure where
  /-- Something else is expected. -/
  | malformed (complaint : String)
  /-- The text of a variable spells no number. -/
  | notNumber (text : List Char)
  /-- A variable cannot be assigned. -/
  | readOnly (name : List Char)
  deriving DecidableEq, Repr

/-- A token of an expression. -/
inductive Token where
  | number (value : Int64)
  | name (text : List Char)
  | operator (text : String)
  /-- A character that has no meaning. -/
  | unknown
  deriving DecidableEq

/-- The operators, longer ones first. -/
def operators : List String :=
  ["<<=", ">>=", "<<", ">>", "<=", ">=", "==", "!=", "&&", "||", "*=", "/=", "%=", "+=", "-=", "&=",
    "^=", "|=", "=", "+", "-", "*", "/", "%", "<", ">", "!", "~", "&", "^", "|", "?", ":", "(", ")"]

/-- The tokens of an expression. At most `fuel` are read. -/
def readTokens : (fuel : Nat) → List Char → List Token
  | 0, _ | _, [] => []
  | fuel + 1, c :: rest =>
    if c = ' ' || c = '\t' || c = '\n' then readTokens fuel rest
    else if c.isDigit then
      let (base, digits) := splitBase (c :: rest)
      let (value, after) := takeDigits base digits
      .number (Int64.ofNat (min value largest)) :: readTokens fuel after
    else if startsName c then
      .name (c :: rest.takeWhile continuesName) :: readTokens fuel (rest.dropWhile continuesName)
    else
      match operators.find? fun operator => operator.toList.isPrefixOf (c :: rest) with
      | some operator =>
        .operator operator :: readTokens fuel ((c :: rest).drop operator.length)
      | none => [.unknown]

/-- How tightly a binary operator binds; the least number binds most tightly. -/
def rank? (operator : String) : Option Nat :=
  match operator with
  | "*" | "/" | "%" => some 0
  | "+" | "-" => some 1
  | "<<" | ">>" => some 2
  | "<" | "<=" | ">" | ">=" => some 3
  | "==" | "!=" => some 4
  | "&" => some 5
  | "^" => some 6
  | "|" => some 7
  | _ => none

/-- The binary operator that is part of an assignment. -/
def assigned? (operator : String) : Option String :=
  match operator with
  | "*=" => some "*"
  | "/=" => some "/"
  | "%=" => some "%"
  | "+=" => some "+"
  | "-=" => some "-"
  | "<<=" => some "<<"
  | ">>=" => some ">>"
  | "&=" => some "&"
  | "^=" => some "^"
  | "|=" => some "|"
  | _ => none

/-- A truth value as a number. -/
def ofBool (b : Bool) : Int64 :=
  if b then 1 else 0

/-- The result of a binary operator. Division goes toward zero and fails for a divisor of zero. -/
def apply (operator : String) (a b : Int64) : Except Failure Int64 :=
  match operator with
  | "*" => .ok (a * b)
  | "/" => if b = 0 then .error (.malformed "division by zero") else .ok (a / b)
  | "%" => if b = 0 then .error (.malformed "division by zero") else .ok (a % b)
  | "+" => .ok (a + b)
  | "-" => .ok (a - b)
  | "<<" => .ok (a <<< b)
  | ">>" => .ok (a >>> b)
  | "<" => .ok (ofBool (a < b))
  | "<=" => .ok (ofBool (a ≤ b))
  | ">" => .ok (ofBool (b < a))
  | ">=" => .ok (ofBool (b ≤ a))
  | "==" => .ok (ofBool (a = b))
  | "!=" => .ok (ofBool (a ≠ b))
  | "&" => .ok (a &&& b)
  | "^" => .ok (a ^^^ b)
  | "|" => .ok (a ||| b)
  | _ => .error (.malformed "expecting EOF")

/-- How far an expression has been evaluated. -/
structure Evaluation where
  /-- The tokens that follow. -/
  rest : List Token
  /-- The variables that were assigned, the last one first. -/
  assignments : List (List Char × Int64) := []

/-- A part of the evaluation of an expression. -/
abbrev Evaluating := StateT Evaluation (Except Failure)

/-- What is known of the variables. -/
structure Environment where
  value : List Char → List Char
  isReadOnly : List Char → Bool

section

variable (environment : Environment)

/-- The operator at the front, if there is one. -/
def peekOperator : Evaluating (Option String) := do
  match (← get).rest with
  | .operator operator :: _ => return some operator
  | _ => return none

/-- Pass over a token. -/
def advance : Evaluating Unit :=
  modify fun evaluation => { evaluation with rest := evaluation.rest.tail }

/-- The value of a variable. -/
def valueOf (name : List Char) : Evaluating Int64 := do
  match (← get).assignments.lookup name with
  | some value => return value
  | none =>
    let text := environment.value name
    match readNumber? true false text with
    | some value => return Int64.ofInt value
    | none => throw (.notNumber text)

/-- Assign a variable. -/
def assign (name : List Char) (value : Int64) : Evaluating Int64 := do
  if environment.isReadOnly name then throw (.readOnly name)
  modify fun evaluation =>
    { evaluation with assignments := (name, value) :: evaluation.assignments }
  return value

/-- The result of a binary operator, which does not matter where nothing is evaluated. -/
def combine (skips : Bool) (operator : String) (a b : Int64) : Evaluating Int64 :=
  if skips then return b else liftM (apply operator a b)

mutual

/-- The value of an operand. -/
def operand : (fuel : Nat) → (skips : Bool) → Evaluating Int64
  | 0, _ => throw (.malformed "expecting primary")
  | fuel + 1, skips => do
    match (← get).rest with
    | .number value :: _ =>
      advance
      return value
    | .name name :: _ =>
      advance
      if skips then return 0 else valueOf environment name
    | .operator "(" :: _ =>
      advance
      let value ← expression fuel skips
      unless (← peekOperator) = some ")" do throw (.malformed "expecting ')'")
      advance
      return value
    | .operator "+" :: _ =>
      advance
      operand fuel skips
    | .operator "-" :: _ =>
      advance
      return -(← operand fuel skips)
    | .operator "!" :: _ =>
      advance
      return ofBool ((← operand fuel skips) = 0)
    | .operator "~" :: _ =>
      advance
      return ~~~(← operand fuel skips)
    | _ => throw (.malformed "expecting primary")

/-- The value of an expression that begins with a value, where all operators bind more tightly than
`bound` says. -/
def operation : (fuel : Nat) → (skips : Bool) → (bound : Nat) → Int64 → Evaluating Int64
  | 0, _, _, first => return first
  | fuel + 1, skips, bound, first => do
    match ← peekOperator with
    | none => return first
    | some operator =>
      match rank? operator with
      | none => return first
      | some rank =>
        if bound ≤ rank then return first
        else
          advance
          let second ← operation fuel skips rank (← operand fuel skips)
          operation fuel skips bound (← combine skips operator first second)

/-- The value of an expression up to an operator that joins conditions. -/
def simple : (fuel : Nat) → (skips : Bool) → Evaluating Int64
  | 0, _ => throw (.malformed "expecting primary")
  | fuel + 1, skips => do operation fuel skips 8 (← operand fuel skips)

/-- The value of conditions that all have to hold. -/
def conjunction : (fuel : Nat) → (skips : Bool) → Evaluating Int64
  | 0, _ => throw (.malformed "expecting primary")
  | fuel + 1, skips => do
    let first ← simple fuel skips
    if (← peekOperator) = some "&&" then
      advance
      let second ← conjunction fuel (skips || first = 0)
      return ofBool (first ≠ 0 && second ≠ 0)
    else return first

/-- The value of conditions of which one has to hold. -/
def disjunction : (fuel : Nat) → (skips : Bool) → Evaluating Int64
  | 0, _ => throw (.malformed "expecting primary")
  | fuel + 1, skips => do
    let first ← conjunction fuel skips
    if (← peekOperator) = some "||" then
      advance
      let second ← disjunction fuel (skips || first ≠ 0)
      return ofBool (first ≠ 0 || second ≠ 0)
    else return first

/-- The value of a choice. -/
def choice : (fuel : Nat) → (skips : Bool) → Evaluating Int64
  | 0, _ => throw (.malformed "expecting primary")
  | fuel + 1, skips => do
    let condition ← disjunction fuel skips
    if (← peekOperator) = some "?" then
      advance
      let first ← expression fuel (skips || condition = 0)
      unless (← peekOperator) = some ":" do throw (.malformed "expecting ':'")
      advance
      let second ← choice fuel (skips || condition ≠ 0)
      return if condition ≠ 0 then first else second
    else return condition

/-- The value of an expression, which may be an assignment. -/
def expression : (fuel : Nat) → (skips : Bool) → Evaluating Int64
  | 0, _ => throw (.malformed "expecting primary")
  | fuel + 1, skips => do
    match (← get).rest with
    | .name name :: .operator operator :: rest =>
      if operator = "=" || (assigned? operator).isSome then
        modify fun evaluation => { evaluation with rest }
        let value ← expression fuel skips
        if skips then return value
        else
          match assigned? operator with
          | none => assign environment name value
          | some operation =>
            let old ← valueOf environment name
            assign environment name (← combine false operation old value)
      else choice fuel skips
    | _ => choice fuel skips

end

end

/-- The value of an expression, and the variables that it assigns with their values. -/
def evaluate (environment : Environment) (source : List Char) :
    Except Failure (Int64 × List (List Char × Int64)) := do
  let tokens := readTokens (source.length + 1) source
  let (value, after) ← (expression environment (8 * tokens.length + 8) false).run { rest := tokens }
  if after.rest.isEmpty then .ok (value, after.assignments.reverse)
  else .error (.malformed "expecting EOF")

end SketchApk.Shell.Arithmetic
