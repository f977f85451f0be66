import Std.Data.ExtTreeMap.Lemmas
import SketchApk.File.Error
import SketchApk.Path
import SketchApk.Text.Character
import SketchApk.Text.Lines

/-!
# Properties

A text of properties has one entry of a key and a value on each line. Blank lines are passed over,
and so are lines that begin with `#` or `!` after their leading blanks. The first equals sign that
no backslash precedes separates the key from the value. Blanks around the key and in front of the
value do not count. A backslash stands for the character behind it, except that `n`, `r` and `t`
behind a backslash are the control characters of these names. Of several entries with one key the
last one counts.

A value is written on one line: backslashes and the three control characters are escaped, and so is
a blank in front.

A list of items is saved as one value with commas between the items. Inside an item a comma or a
backslash has a backslash in front. On reading, a backslash makes the next character part of the
item, blank characters around an item are dropped, and so are empty items.

Reading a saved configuration fails when its file cannot be read, when a line has no equals sign
that separates a key from a value, or when a value is not of the form that its key asks for. Lines
are counted from one, and an offending line is shown as it stands in the file.

## Main definitions

* `ConfigError` : why a saved configuration was not read.
* `Properties` : the entries of a text, by key.
* `Properties.parse` : the entries of a text, or the first line that has none.
* `Properties.writeEntry` : the line of an entry.
* `ItemList.join` : the value that saves a list of items.
* `ItemList.split` : the items that a value lists.
-/

namespace SketchApk

/-! ### Errors -/

/-- The forms that values can be asked to have. -/
inductive ValueForm where
  | flag
  | number
  | byte
  deriving DecidableEq, Repr

/-- The description of a form. -/
def ValueForm.describe : ValueForm → String
  | .flag => "'true' or 'false'"
  | .number => "an unsigned integer"
  | .byte => "a byte such as 0x7f"

/-- Why a saved configuration was not read. -/
inductive ConfigError where
  | invalidValue (key value : String) (expected : ValueForm)
  | malformedLine (line : Nat) (content : String)
  | unreadable (path : Path) (error : FileError)
  deriving DecidableEq, Repr

/-- The wording of an error. -/
def ConfigError.message : ConfigError → String
  | .invalidValue key value expected =>
    "invalid value '" ++ value ++ "' for '" ++ key ++ "': expected " ++ expected.describe
  | .malformedLine line content =>
    "malformed line " ++ toString line ++ ": '" ++ content ++ "' (expected key=value)"
  | .unreadable path error => "failed to read '" ++ path.text ++ "': " ++ error.message

/-- The wording of an error and of what caused it, the error first. -/
def ConfigError.messages : ConfigError → List String
  | .unreadable path error => [ConfigError.message (.unreadable path error), error.message]
  | error => [error.message]

/-! ### Entries -/

/-- The entries of a text of properties, by key. -/
abbrev Properties := Std.ExtTreeMap String String

namespace Properties

/-- A line without its leading blanks is passed over when nothing remains or a comment begins. -/
def isPassedOver (line : List Char) : Bool :=
  match line with
  | [] => true
  | c :: _ => c = '#' || c = '!'

/-- A line cut at its first equals sign that no backslash precedes. The flag tells that a backslash
stands in front of the line. -/
def splitAtEquals? : (escaped : Bool) → List Char → Option (List Char × List Char)
  | _, [] => none
  | true, c :: rest => (splitAtEquals? false rest).map fun cut => (c :: cut.1, cut.2)
  | false, c :: rest =>
    if c = '=' then some ([], rest)
    else (splitAtEquals? (c = '\\') rest).map fun cut => (c :: cut.1, cut.2)

/-- The character that a character behind a backslash stands for. -/
def unescaped (c : Char) : Char :=
  match c with
  | 'n' => '\n'
  | 'r' => '\r'
  | 't' => '\t'
  | _ => c

/-- The text that a spelling stands for. A backslash at the end stands for nothing. -/
def unescape : List Char → List Char
  | [] => []
  | ['\\'] => []
  | '\\' :: c :: rest => unescaped c :: unescape rest
  | c :: rest => c :: unescape rest

/-- The spelling of a character that is not in front. -/
def escapeCharacter (c : Char) : List Char :=
  match c with
  | '\\' => ['\\', '\\']
  | '\n' => ['\\', 'n']
  | '\r' => ['\\', 'r']
  | '\t' => ['\\', 't']
  | _ => [c]

/-- The spelling of a text on one line. -/
def escape (text : List Char) : List Char :=
  match text with
  | ' ' :: rest => '\\' :: ' ' :: rest.flatMap escapeCharacter
  | _ => text.flatMap escapeCharacter

/-- The entry on a line that is not passed over. -/
def readEntry? (line : List Char) : Option (String × String) :=
  (splitAtEquals? false line).map fun cut =>
    (String.ofList (unescape (Text.trim cut.1)),
      String.ofList (unescape (Text.trimStart cut.2)))

/-- The entries of lines, the first of which has the given number, added to those read before. -/
def parseLines : (number : Nat) → List (List Char) → Properties → Except ConfigError Properties
  | _, [], entries => .ok entries
  | number, raw :: rest, entries =>
    let line := Text.trimStart raw
    if isPassedOver line then parseLines (number + 1) rest entries
    else
      match readEntry? line with
      | some (key, value) => parseLines (number + 1) rest (entries.insert key value)
      | none => .error (.malformedLine number (String.ofList raw))

/-- The entries of a text, or the first line that has none. -/
def parse (text : String) : Except ConfigError Properties :=
  parseLines 1 (Text.lines text.toList) ∅

/-- The line of an entry. -/
def writeEntry (entry : String × String) : List Char :=
  entry.1.toList ++ '=' :: escape entry.2.toList ++ ['\n']

end Properties

end SketchApk

namespace SketchApk.ItemList

/-! ### Lists in one value -/

/-- The spelling of one item. -/
def escape (item : List Char) : List Char :=
  item.flatMap fun c => if c = '\\' ∨ c = ',' then ['\\', c] else [c]

/-- The value that saves a list of items. -/
def join : List (List Char) → List Char
  | [] => []
  | [item] => escape item
  | item :: items => escape item ++ ',' :: join items

/-- The pieces between the commas of a value, with backslashes resolved. The first piece continues
`current`. -/
def pieces : (current : List Char) → List Char → List (List Char)
  | current, [] => [current]
  | current, '\\' :: c :: rest => pieces (current ++ [c]) rest
  | current, ['\\'] => [current]
  | current, c :: rest =>
    if c = ',' then current :: pieces [] rest else pieces (current ++ [c]) rest

/-- The items that a value lists. -/
def split (value : List Char) : List (List Char) :=
  ((pieces [] value).map Text.trim).filter (· ≠ [])

/-- The value that saves a list of strings. -/
def joinStrings (items : List String) : String :=
  String.ofList (join (items.map String.toList))

/-- The strings that a value lists. -/
def splitString (value : String) : List String :=
  (split value.toList).map String.ofList

end SketchApk.ItemList
