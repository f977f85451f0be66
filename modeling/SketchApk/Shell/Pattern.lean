import SketchApk.Text.Character

/-!
# Patterns of shells

In a pattern an asterisk stands for any text, a question mark for any character, and a set between
brackets for one of its characters; an exclamation mark in front inverts a set. A set lists single
characters, ranges, and classes of characters. Characters that were quoted stand for themselves, so
every character of a pattern says whether it is literal. A backslash makes the next character literal.

## Main definitions

* `Shell.Pattern` : patterns.
* `Shell.Pattern.accepts` : a text matches a pattern.
* `Shell.dropFront`, `Shell.dropBack` : a value without a part that matches a pattern.
-/

namespace SketchApk.Shell

/-- A character of a pattern; `literal` says that it stands for itself. -/
structure PatternCharacter where
  char : Char
  literal : Bool
  deriving DecidableEq, Repr

/-- A pattern. -/
abbrev Pattern := List PatternCharacter

namespace Pattern

/-- The character at the front is the given one and has its special meaning. -/
def hasSpecial (c : Char) (p : PatternCharacter) : Bool :=
  p.char = c && !p.literal

/-- The pattern has a character with a special meaning. -/
def isSpecial (pattern : Pattern) : Bool :=
  pattern.any fun p => !p.literal && p.char ∈ ['*', '?', '[']

/-- The pattern with backslashes replaced by the meaning that they give to the next character. -/
def unescape : Pattern → Pattern
  | ⟨'\\', false⟩ :: next :: rest => { next with literal := true } :: unescape rest
  | p :: rest => p :: unescape rest
  | [] => []

/-- The class at the front of what a set lists, behind its opening bracket, and what follows. -/
def classAt? (text : Pattern) : Option ((Char → Bool) × Pattern) :=
  match text with
  | ⟨':', false⟩ :: rest =>
    let name := String.ofList ((rest.takeWhile (·.char ≠ ':')).map (·.char))
    match rest.dropWhile (·.char ≠ ':') with
    | _ :: ⟨']', false⟩ :: after => (Text.characterClass? name).map fun test => (test, after)
    | _ => none
  | _ => none

/-- A character is in a set, and the pattern behind the set. Each of at most `fuel` steps deals with
one item; the first one may be a bracket. -/
def setAt? (c : Char) : (fuel : Nat) → (isFirst found : Bool) → Pattern → Option (Bool × Pattern)
  | 0, _, _, _ => none
  | fuel + 1, isFirst, found, text =>
    match text with
    | [] => none
    | p :: rest =>
      if hasSpecial ']' p && !isFirst then some (found, rest)
      else
        match if hasSpecial '[' p then classAt? rest else none with
        | some (test, after) => setAt? c fuel false (found || test c) after
        | none =>
          match rest with
          | ⟨'-', false⟩ :: high :: after =>
            if hasSpecial ']' high then setAt? c fuel false (found || p.char = c) rest
            else setAt? c fuel false (found || (p.char ≤ c && c ≤ high.char)) after
          | _ => setAt? c fuel false (found || p.char = c) rest

/-- A character matches a set behind its opening bracket, and the pattern behind the set. -/
def acceptsSet? (c : Char) (text : Pattern) : Option (Bool × Pattern) :=
  match text with
  | ⟨'!', false⟩ :: rest =>
    (setAt? c (rest.length + 1) true false rest).map fun (found, after) => (!found, after)
  | _ => setAt? c (text.length + 1) true false text

/-- A text matches a pattern. Each of at most `fuel` steps deals with one character of either. -/
def matchesFrom : (fuel : Nat) → Pattern → List Char → Bool
  | 0, _, _ => false
  | _ + 1, [], text => text.isEmpty
  | fuel + 1, p :: rest, text =>
    if hasSpecial '*' p then
      matchesFrom fuel rest text ||
        match text with
        | [] => false
        | _ :: after => matchesFrom fuel (p :: rest) after
    else
      match text with
      | [] => false
      | c :: after =>
        if hasSpecial '?' p then matchesFrom fuel rest after
        else
          match if hasSpecial '[' p then acceptsSet? c rest else none with
          | some (accepted, behind) => accepted && matchesFrom fuel behind after
          | none => p.char = c && matchesFrom fuel rest after

/-- A text matches a pattern. -/
def accepts (pattern : Pattern) (text : List Char) : Bool :=
  matchesFrom (pattern.length + text.length + 1) pattern text

end Pattern

/-- The ways to split a text in two, beginning with the empty first part. -/
def splits (text : List Char) : List (List Char × List Char) :=
  (List.range (text.length + 1)).map fun n => (text.take n, text.drop n)

/-- A value without a part at its front that matches a pattern. -/
def dropFront (longest : Bool) (pattern : Pattern) (value : List Char) : List Char :=
  let ways := if longest then (splits value).reverse else splits value
  match ways.find? fun way => pattern.accepts way.1 with
  | some way => way.2
  | none => value

/-- A value without a part at its end that matches a pattern. -/
def dropBack (longest : Bool) (pattern : Pattern) (value : List Char) : List Char :=
  let ways := if longest then splits value else (splits value).reverse
  match ways.find? fun way => pattern.accepts way.2 with
  | some way => way.1
  | none => value

end SketchApk.Shell
