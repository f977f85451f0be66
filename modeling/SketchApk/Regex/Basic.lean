import SketchApk.Text.Character

/-!
# Regular expressions

A regular expression describes texts. It is built from single characters, sets of characters and
anchors, which match the empty text at certain places, by sequences, alternatives and repetitions. A
group remembers the part of the text that it has matched last, and a reference matches the same text
again.

## Main definitions

* `Regex` : regular expressions.
* `CharacterSet` : sets of characters.
-/

namespace SketchApk

/-- A set of characters. -/
structure CharacterSet where
  /-- The set consists of the characters that are not described. -/
  isInverted : Bool := false
  ranges : List (Char × Char) := []
  /-- The names of classes of characters. -/
  classes : List String := []
  deriving DecidableEq, Repr, Inhabited

namespace CharacterSet

/-- The set describes a character. -/
def describes (set : CharacterSet) (c : Char) : Bool :=
  set.ranges.any (fun range => range.1 ≤ c && c ≤ range.2) ||
    set.classes.any fun name => (Text.characterClass? name).any (· c)

/-- A character is in the set, where the case of letters may not matter. -/
def contains (set : CharacterSet) (ignoresCase : Bool) (c : Char) : Bool :=
  (set.describes c || (ignoresCase && (set.describes c.toLower || set.describes c.toUpper))) !=
    set.isInverted

/-- The set of letters, digits and underscores. -/
def word : CharacterSet :=
  { ranges := [('_', '_')], classes := ["alnum"] }

/-- The set of blanks. -/
def space : CharacterSet :=
  { classes := ["space"] }

/-- The set of all other characters. -/
def inverse (set : CharacterSet) : CharacterSet :=
  { set with isInverted := !set.isInverted }

end CharacterSet

/-- A place that is matched without a character. -/
inductive Anchor where
  | lineStart
  | lineEnd
  | textStart
  | textEnd
  | wordStart
  | wordEnd
  | wordEdge
  /-- A place that is no edge of a word. -/
  | inside
  deriving DecidableEq, Repr

/-- A regular expression. -/
inductive Regex where
  | empty
  | character (c : Char)
  | any
  | oneOf (set : CharacterSet)
  | anchor (place : Anchor)
  | sequence (first second : Regex)
  | either (first second : Regex)
  | repeated (body : Regex) (least : Nat) (most : Option Nat)
  | group (number : Nat) (body : Regex)
  | reference (number : Nat)
  deriving Repr, Inhabited

/-- Why a text is not a regular expression. -/
inductive RegexError where
  | unmatchedBracket
  | unmatchedOpening
  | unmatchedClosing
  | unmatchedBrace
  | invalidCount
  | invalidRange
  | invalidClass
  | invalidReference
  | trailingBackslash
  | nothingToRepeat
  deriving DecidableEq, Repr

/-- The wording of an error. -/
def RegexError.message : RegexError → String
  | unmatchedBracket => "Unmatched [, [^, [:, [., or [="
  | unmatchedOpening => "Unmatched ( or \\("
  | unmatchedClosing => "Unmatched ) or \\)"
  | unmatchedBrace => "Unmatched \\\x7b"
  | invalidCount => "Invalid content of \\\x7b\\\x7d"
  | invalidRange => "Invalid range end"
  | invalidClass => "Invalid character class name"
  | invalidReference => "Invalid back reference"
  | trailingBackslash => "Trailing backslash"
  | nothingToRepeat => "Invalid preceding regular expression"

end SketchApk
