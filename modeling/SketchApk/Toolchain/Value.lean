import SketchApk.Toolchain.Scalar

/-!
# Values of toolchain descriptions

A description is written in TOML, where a value is a string, a number, a truth value, a moment, an
array or an inline table. Arrays may extend over several lines and have comments; inline tables stand
on one line. A key with dots opens a table within the table, and further keys may add to it, but not
to a table that was written as a value. No key occurs twice. Arrays and tables are nested at most
`79` deep.

## Main definitions

* `Description.Value` : the values, as far as a description depends on them.
* `Description.value?` : the value in front of a text, and what follows it.
-/

namespace SketchApk.Description

/-- A value. -/
inductive Value where
  | text (characters : List Char)
  /-- A number, a truth value or a moment. -/
  | scalar
  | list (items : List Value)
  /-- A table, which is open if it has come about by keys with dots. -/
  | table (isOpen : Bool) (entries : List (String × Value))
  deriving Inhabited

/-- The text without the spaces and tabs in front. -/
def skipBlanks (text : List Char) : List Char :=
  text.dropWhile fun c => c = ' ' || c = '\t'

/-- What follows a character, blanks in front of it aside. -/
def expect? (c : Char) (text : List Char) : Option (List Char) :=
  match skipBlanks text with
  | d :: rest => if d = c then some rest else none
  | [] => none

/-- What follows the rest of a line, which may only hold blanks and a comment. -/
def endLine? (text : List Char) : Option (List Char) :=
  let rest :=
    match skipBlanks text with
    | '#' :: comment => comment.dropWhile isPlain
    | other => other
  match rest with
  | [] => some []
  | '\n' :: rest => some rest
  | '\r' :: '\n' :: rest => some rest
  | _ => none

/-- The text without blanks, line breaks and comments in front. At most `fuel` lines are passed
over. -/
def skipLines : (fuel : Nat) → List Char → List Char
  | 0, text => text
  | fuel + 1, text =>
    match endLine? text with
    | some rest => if rest.length < text.length then skipLines fuel rest else rest
    | none => skipBlanks text

/-- A character of a key without quotes. -/
def isBareKeyCharacter (c : Char) : Bool :=
  c.isAlphanum || c = '_' || c = '-'

/-- A key without dots and what follows it. -/
def simpleKey? (text : List Char) : Option (String × List Char) :=
  match skipBlanks text with
  | '"' :: rest => (basic? rest).map fun (key, rest) => (String.ofList key, rest)
  | '\'' :: rest => (literal? rest).map fun (key, rest) => (String.ofList key, rest)
  | text =>
    let key := text.takeWhile isBareKeyCharacter
    if key.isEmpty then none else some (String.ofList key, text.dropWhile isBareKeyCharacter)

/-- A key with dots, as the list of its parts, and what follows it. A key of more than `fuel` parts
is not read. -/
def keyParts? : (fuel : Nat) → List Char → Option (List String × List Char)
  | 0, _ => none
  | fuel + 1, text => do
    let (first, rest) ← simpleKey? text
    match expect? '.' rest with
    | some rest =>
      let (more, rest) ← keyParts? fuel rest
      return (first :: more, rest)
    | none => return ([first], rest)

/-- The depth to which arrays and tables are nested, and the number of parts of a key. -/
def maxDepth : Nat := 79

/-- A key with dots, as the list of its parts, and what follows it. -/
def key? (text : List Char) : Option (List String × List Char) :=
  keyParts? maxDepth text

/-- The entries of a table with one more value under a key, if there is room for it. -/
def Value.insert? (value : Value) : List String → List (String × Value) →
    Option (List (String × Value))
  | [], _ => none
  | [name], entries =>
    if (List.lookup name entries).isSome then none else some (entries ++ [(name, value)])
  | name :: path, entries =>
    match List.lookup name entries with
    | none => (insert? value path []).map fun inner => entries ++ [(name, .table true inner)]
    | some (.table true inner) =>
      (insert? value path inner).map fun changed =>
        entries.map fun entry => if entry.1 = name then (name, .table true changed) else entry
    | some _ => none

/-- The items of an array behind its opening bracket, and what follows the array. Each item is read
by `item`, and at most `fuel` items are read. -/
def items? (item : List Char → Option (Value × List Char)) :
    (fuel : Nat) → List Char → Option (List Value × List Char)
  | 0, _ => none
  | fuel + 1, text => do
    let text := skipLines text.length text
    match text with
    | ']' :: rest => return ([], rest)
    | _ =>
      let (first, rest) ← item text
      let rest := skipLines rest.length rest
      match rest with
      | ',' :: rest =>
        let (more, rest) ← items? item fuel rest
        return (first :: more, rest)
      | ']' :: rest => return ([first], rest)
      | _ => none

/-- The entries of an inline table, added to those in front of them, and what follows the table. Each
value is read by `item`, and at most `fuel` entries are read. -/
def entries? (item : List Char → Option (Value × List Char)) :
    (fuel : Nat) → List (String × Value) → List Char → Option (List (String × Value) × List Char)
  | 0, _, _ => none
  | fuel + 1, entries, text => do
    let (path, rest) ← key? text
    let rest ← expect? '=' rest
    let (value, rest) ← item (skipBlanks rest)
    let entries ← value.insert? path entries
    match expect? ',' rest with
    | some rest => entries? item fuel entries rest
    | none => return (entries, ← expect? '\x7d' rest)

/-- The value in front of a text, and what follows it. Arrays and tables are nested at most `depth`
deep. -/
def valueWithin? : (depth : Nat) → List Char → Option (Value × List Char)
  | depth + 1, '[' :: rest =>
    (items? (valueWithin? depth) (rest.length + 1) rest).map fun (items, rest) =>
      (.list items, rest)
  | depth + 1, '\x7b' :: rest =>
    match expect? '\x7d' rest with
    | some rest => some (.table false [], rest)
    | none =>
      (entries? (valueWithin? depth) (rest.length + 1) [] rest).map fun (entries, rest) =>
        (.table false entries, rest)
  | _, text =>
    match string? text with
    | some (characters, rest) => some (.text characters, rest)
    | none => (scalar? text).map fun rest => (.scalar, rest)

/-- The value in front of a text, and what follows it. -/
def value? (text : List Char) : Option (Value × List Char) :=
  valueWithin? maxDepth text

end SketchApk.Description
