/-!
# Characters and trimming

A character is *blank* when it has the Unicode property `White_Space`. The property covers
twenty-five code points, which are listed here as ranges; the ASCII control characters
`U+001C` to `U+001F` and the zero-width characters are not among them.

Trimming removes blank characters from one end or from both ends of a text and leaves everything
between them as it is. Texts are lists of characters wherever they are taken apart.

There are classes of the characters of ASCII that have names. A character is a *decimal digit* when
its general category is `Nd`. Each script that has decimal digits contributes runs of ten
consecutive code points; neighbouring runs are listed as one range.

## Main definitions

* `Text.isBlank` : the test for a blank character.
* `Text.trimStart`, `Text.trimEnd`, `Text.trim` : trimming of a list of characters.
* `Text.trimmed`, `Text.trimmedEnd` : the same for strings.
* `Text.characterClass?` : the test of a class of characters with a name.
* `Text.isDecimalDigit` : the test for a decimal digit.
-/

namespace SketchApk.Text

/-! ### Blank characters -/

/-- A character lies in one of the given inclusive ranges of code points. -/
def inRanges (ranges : List (Nat × Nat)) (c : Char) : Bool :=
  ranges.any fun range => range.1 ≤ c.toNat && c.toNat ≤ range.2

/-- The code points with the property `White_Space`, as inclusive ranges. -/
def blankRanges : List (Nat × Nat) :=
  [(0x9, 0xd), (0x20, 0x20), (0x85, 0x85), (0xa0, 0xa0), (0x1680, 0x1680), (0x2000, 0x200a),
    (0x2028, 0x2029), (0x202f, 0x202f), (0x205f, 0x205f), (0x3000, 0x3000)]

/-- A character is blank when it has the property `White_Space`. -/
def isBlank (c : Char) : Bool :=
  inRanges blankRanges c

/-- The text without its leading blank characters. -/
def trimStart (text : List Char) : List Char :=
  text.dropWhile isBlank

/-- The text without its trailing blank characters. -/
def trimEnd (text : List Char) : List Char :=
  (text.reverse.dropWhile isBlank).reverse

/-- The text without the blank characters at both of its ends. -/
def trim (text : List Char) : List Char :=
  trimEnd (trimStart text)

/-- The string without the blank characters at both of its ends. -/
def trimmed (text : String) : String :=
  String.ofList (trim text.toList)

/-- The string without its trailing blank characters. -/
def trimmedEnd (text : String) : String :=
  String.ofList (trimEnd text.toList)

@[simp] theorem trimStart_nil : trimStart [] = [] := rfl

@[simp] theorem trimEnd_nil : trimEnd [] = [] := rfl

/-- Trimming at the start stops at the first character that is not blank. -/
theorem trimStart_cons_of_not_isBlank {c : Char} (text : List Char) (h : isBlank c = false) :
    trimStart (c :: text) = c :: text := by
  simp [trimStart, h]

/-- Trimming at the start passes over a blank character. -/
theorem trimStart_cons_of_isBlank {c : Char} (text : List Char) (h : isBlank c = true) :
    trimStart (c :: text) = trimStart text := by
  simp [trimStart, h]

/-! ### Classes with names -/

/-- A printable character other than a blank. -/
def isGraphic (c : Char) : Bool :=
  0x21 ≤ c.toNat && c.toNat ≤ 0x7e

/-- A character that separates words on a page. -/
def isSpacing (c : Char) : Bool :=
  c = ' ' || (0x09 ≤ c.toNat && c.toNat ≤ 0x0d)

/-- The test of a class of characters with a name. -/
def characterClass? (name : String) : Option (Char → Bool) :=
  match name with
  | "alnum" => some Char.isAlphanum
  | "alpha" => some Char.isAlpha
  | "blank" => some fun c => c = ' ' || c = '\t'
  | "cntrl" => some fun c => c.toNat < 0x20 || c.toNat = 0x7f
  | "digit" => some Char.isDigit
  | "graph" => some isGraphic
  | "lower" => some Char.isLower
  | "print" => some fun c => isGraphic c || c = ' '
  | "punct" => some fun c => isGraphic c && !c.isAlphanum
  | "space" => some isSpacing
  | "upper" => some Char.isUpper
  | "xdigit" => some fun c => c.isDigit || ('a' ≤ c && c ≤ 'f') || ('A' ≤ c && c ≤ 'F')
  | _ => none

/-! ### Decimal digits of all scripts -/

/-- The code points of general category `Nd`, as inclusive ranges. -/
def digitRanges : List (Nat × Nat) :=
  [(0x30, 0x39), (0x660, 0x669), (0x6f0, 0x6f9), (0x7c0, 0x7c9), (0x966, 0x96f), (0x9e6, 0x9ef),
    (0xa66, 0xa6f), (0xae6, 0xaef), (0xb66, 0xb6f), (0xbe6, 0xbef), (0xc66, 0xc6f), (0xce6, 0xcef),
    (0xd66, 0xd6f), (0xde6, 0xdef), (0xe50, 0xe59), (0xed0, 0xed9), (0xf20, 0xf29),
    (0x1040, 0x1049), (0x1090, 0x1099), (0x17e0, 0x17e9), (0x1810, 0x1819), (0x1946, 0x194f),
    (0x19d0, 0x19d9), (0x1a80, 0x1a89), (0x1a90, 0x1a99), (0x1b50, 0x1b59), (0x1bb0, 0x1bb9),
    (0x1c40, 0x1c49), (0x1c50, 0x1c59), (0xa620, 0xa629), (0xa8d0, 0xa8d9), (0xa900, 0xa909),
    (0xa9d0, 0xa9d9), (0xa9f0, 0xa9f9), (0xaa50, 0xaa59), (0xabf0, 0xabf9), (0xff10, 0xff19),
    (0x104a0, 0x104a9), (0x10d30, 0x10d39), (0x10d40, 0x10d49), (0x11066, 0x1106f),
    (0x110f0, 0x110f9), (0x11136, 0x1113f), (0x111d0, 0x111d9), (0x112f0, 0x112f9),
    (0x11450, 0x11459), (0x114d0, 0x114d9), (0x11650, 0x11659), (0x116c0, 0x116c9),
    (0x116d0, 0x116e3), (0x11730, 0x11739), (0x118e0, 0x118e9), (0x11950, 0x11959),
    (0x11bf0, 0x11bf9), (0x11c50, 0x11c59), (0x11d50, 0x11d59), (0x11da0, 0x11da9),
    (0x11f50, 0x11f59), (0x16130, 0x16139), (0x16a60, 0x16a69), (0x16ac0, 0x16ac9),
    (0x16b50, 0x16b59), (0x16d70, 0x16d79), (0x1ccf0, 0x1ccf9), (0x1d7ce, 0x1d7ff),
    (0x1e140, 0x1e149), (0x1e2f0, 0x1e2f9), (0x1e4f0, 0x1e4f9), (0x1e5f1, 0x1e5fa),
    (0x1e950, 0x1e959), (0x1fbf0, 0x1fbf9)]

/-- A character is a decimal digit when its general category is `Nd`. -/
def isDecimalDigit (c : Char) : Bool :=
  inRanges digitRanges c

end SketchApk.Text
