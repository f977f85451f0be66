import SketchApk.Regex.Match
import SketchApk.Regex.Parser
import SketchApk.Utility.Basic

/-!
# Expressions given as arguments

An expression is a list of words. Its operators, from those that bind least tightly on, are alternatives,
conjunctions, comparisons, sums, products and matches; some words call functions. All values are texts, and
those that spell whole numbers count as such. The empty text and zero are null.

## Main definitions

* `Expression.evaluate` : the value of an expression.
* `Utility.printValue` : printing it.
-/

namespace SketchApk.Expression

/-- Why an expression has no value. -/
inductive Failure where
  | missingArgument (after : String)
  | unexpected (word : String)
  | unclosed (after : String)
  | notClosing (word : String)
  | unexpectedClosing
  | notInteger
  | divisionByZero
  | pattern (error : RegexError)

/-- The wording of a failure. -/
def Failure.message : Failure → String
  | missingArgument word => "syntax error: missing argument after " ++ Utility.cited word
  | unexpected word => "syntax error: unexpected argument " ++ Utility.cited word
  | unclosed word => "syntax error: expecting ')' after " ++ Utility.cited word
  | notClosing word => "syntax error: expecting ')' instead of " ++ Utility.cited word
  | unexpectedClosing => "syntax error: unexpected ')'"
  | notInteger => "non-integer argument"
  | divisionByZero => "division by zero"
  | pattern error => error.message

/-- A value that was read, with the word in front of the rest, and the rest of the words. -/
structure Reading where
  value : String
  last : String
  rest : List String

/-- The whole number that a text spells. -/
def integer? (text : String) : Option Int :=
  match text.toList with
  | '-' :: digits => if digits.isEmpty then none else (Text.readDigits? 10 0 digits).map fun n => -(n : Int)
  | [] => none
  | digits => (Text.readDigits? 10 0 digits).map fun n => (n : Int)

/-- The text is empty or spells zero. -/
def isNull (text : String) : Bool :=
  match text.toList with
  | [] => true
  | '-' :: digits => !digits.isEmpty && digits.all (· = '0')
  | digits => digits.all (· = '0')

/-- The value of a truth. -/
def truth (value : Bool) : String :=
  if value then "1" else "0"

/-- The value of a match at the beginning of a text: its first group, or its length. -/
def matchValue (text pattern : String) : Except Failure String :=
  match Regex.read .basic pattern.toList with
  | .error error => .error (.pattern error)
  | .ok (regex, groups) =>
    let characters := text.toList.toArray
    match regex.longestAt? {} characters 0 with
    | none => .ok (if groups = 0 then "0" else "")
    | some found =>
      if groups = 0 then .ok (toString found.stop)
      else
        match List.lookup 1 found.groups with
        | some (start, stop) => .ok (String.ofList (Regex.slice characters start stop))
        | none => .ok ""

/-- The part of a text from a place on, of a length. -/
def substring (text start length : String) : String :=
  match integer? start, integer? length with
  | some first, some count =>
    if first < 1 || count < 1 then ""
    else String.ofList ((text.toList.drop (first.toNat - 1)).take count.toNat)
  | _, _ => ""

/-- The place of the first character of a text that is among others, or zero. -/
def placeOf (text others : String) : Nat :=
  (text.toList.findIdx? (· ∈ others.toList)).elim 0 (· + 1)

/-- The value of an operator for two values. -/
def apply (operator left right : String) : Except Failure String :=
  let comparison (holds : Ordering → Bool) : Except Failure String :=
    let order :=
      match integer? left, integer? right with
      | some a, some b => compare a b
      | _, _ => compare left right
    .ok (truth (holds order))
  let arithmetic (f : Int → Int → Except Failure Int) : Except Failure String :=
    match integer? left, integer? right with
    | some a, some b => (f a b).map toString
    | _, _ => .error .notInteger
  match operator with
  | "|" => .ok (if !isNull left then left else if isNull right then "0" else right)
  | "&" => .ok (if isNull left || isNull right then "0" else left)
  | "<" => comparison (· = .lt)
  | "<=" => comparison (· ≠ .gt)
  | "=" | "==" => comparison (· = .eq)
  | "!=" => comparison (· ≠ .eq)
  | ">=" => comparison (· ≠ .lt)
  | ">" => comparison (· = .gt)
  | "+" => arithmetic fun a b => .ok (a + b)
  | "-" => arithmetic fun a b => .ok (a - b)
  | "*" => arithmetic fun a b => .ok (a * b)
  | "/" => arithmetic fun a b => if b = 0 then .error .divisionByZero else .ok (a.tdiv b)
  | "%" => arithmetic fun a b => if b = 0 then .error .divisionByZero else .ok (a.tmod b)
  | _ => matchValue left right

/-- The operators by how tightly they bind, the least first. -/
def levels : List (List String) :=
  [["|"], ["&"], ["<", "<=", "=", "==", "!=", ">=", ">"], ["+", "-"], ["*", "/", "%"], [":"]]

/-- The operator decides by its left value alone. -/
def isDecided (operator left : String) : Bool :=
  (operator = "|" && !isNull left) || (operator = "&" && isNull left)

mutual

/-- The value of an expression whose operators bind at least as tightly as a level. Values that do not matter
are not worked out. -/
def readLevel : (fuel : Nat) → (isNeeded : Bool) → List (List String) → (last : String) →
    List String → Except Failure Reading
  | 0, _, _, last, rest => .ok ⟨"", last, rest⟩
  | fuel + 1, isNeeded, [], last, rest => readFunction fuel isNeeded last rest
  | fuel + 1, isNeeded, operators :: tighter, last, rest => do
    let left ← readLevel fuel isNeeded tighter last rest
    readOperators fuel isNeeded operators tighter left

/-- The value of an expression of which the left side has been read. -/
def readOperators : (fuel : Nat) → (isNeeded : Bool) → List String → List (List String) → Reading →
    Except Failure Reading
  | 0, _, _, _, left => .ok left
  | fuel + 1, isNeeded, operators, tighter, left =>
    match left.rest with
    | [] => .ok left
    | operator :: rest =>
      if operator ∉ operators then .ok left
      else do
        let isRightNeeded := isNeeded && !isDecided operator left.value
        let right ← readLevel fuel isRightNeeded tighter operator rest
        let value ← if isNeeded then apply operator left.value right.value else .ok left.value
        readOperators fuel isNeeded operators tighter { right with value }

/-- The value of a word, a call or an expression between parentheses. -/
def readFunction : (fuel : Nat) → (isNeeded : Bool) → (last : String) → List String →
    Except Failure Reading
  | 0, _, last, rest => .ok ⟨"", last, rest⟩
  | fuel + 1, isNeeded, last, words => do
    match words with
    | [] => throw (.missingArgument last)
    | "+" :: rest =>
      match rest with
      | [] => throw (.missingArgument "+")
      | word :: after => return ⟨word, word, after⟩
    | "length" :: rest =>
      let text ← readFunction fuel isNeeded "length" rest
      return { text with value := toString text.value.length }
    | "match" :: rest =>
      let text ← readFunction fuel isNeeded "match" rest
      let pattern ← readFunction fuel isNeeded text.last text.rest
      return { pattern with value := ← if isNeeded then matchValue text.value pattern.value else .ok "" }
    | "index" :: rest =>
      let text ← readFunction fuel isNeeded "index" rest
      let others ← readFunction fuel isNeeded text.last text.rest
      return { others with value := toString (placeOf text.value others.value) }
    | "substr" :: rest =>
      let text ← readFunction fuel isNeeded "substr" rest
      let start ← readFunction fuel isNeeded text.last text.rest
      let count ← readFunction fuel isNeeded start.last start.rest
      return { count with value := substring text.value start.value count.value }
    | "(" :: rest =>
      let body ← readLevel fuel isNeeded levels "(" rest
      match body.rest with
      | [] => throw (.unclosed body.last)
      | ")" :: after => return ⟨body.value, ")", after⟩
      | word :: _ => throw (.notClosing word)
    | ")" :: _ => throw .unexpectedClosing
    | word :: rest => return ⟨word, word, rest⟩

end

/-- The value of an expression. -/
def evaluate (words : List String) : Except Failure String := do
  let reading ← readLevel (8 * words.length + 16) true levels "" words
  match reading.rest with
  | [] => return reading.value
  | word :: _ => throw (.unexpected word)

end SketchApk.Expression

namespace SketchApk.Utility

/-- Print the value of an expression. The status tells whether it is null. -/
def printValue : Utility := fun arguments => do
  let words := if arguments.head? = some "--" then arguments.tail else arguments
  if words.isEmpty then giveUpUsage 2 "missing operand"
  else
    match Expression.evaluate words with
    | .error failure => giveUp 2 failure.message
    | .ok value =>
      emitLine value
      return if Expression.isNull value then 1 else 0

end SketchApk.Utility
