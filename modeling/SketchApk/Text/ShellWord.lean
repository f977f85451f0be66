import SketchApk.Text.Number

/-!
# Names in messages

A name that is shown in a message is spelled so that a shell reads it as a single word. It is put
between single quotes, also where a plain name would do if that is wanted. Octets that cannot be
printed are spelled by escapes, each run of them in a piece of its own. Where single quotes are the
only trouble, double quotes are put around the name.

## Main definitions

* `Text.quotedWord` : a text between quotes.
* `Text.shellWord` : a text between quotes if it needs them.
* `Text.citedText` : a text that is no name, between quotes.
-/

namespace SketchApk.Text

/-- The letter that spells a control character behind a backslash. -/
def controlLetter? (c : Char) : Option Char :=
  match c.toNat with
  | 7 => some 'a'
  | 8 => some 'b'
  | 9 => some 't'
  | 10 => some 'n'
  | 11 => some 'v'
  | 12 => some 'f'
  | 13 => some 'r'
  | _ => none

/-- The escape of an octet that cannot be printed. -/
def octetEscape? (c : Char) : Option (List Char) :=
  match controlLetter? c with
  | some letter => some ['\\', letter]
  | none =>
    if c.toNat < 0x20 || 0x7f ≤ c.toNat then
      some ('\\' :: padStart '0' 3 (Nat.toDigits 8 c.toNat))
    else none

/-- The characters that mean something to a shell wherever they stand. -/
def shellMarks : List Char :=
  "!\"$&()*;<=>[^|?\\".toList ++ [Char.ofNat 0x60]

/-- The characters that mean something to a shell at the front of a word. -/
def frontMarks : List Char :=
  ['#', '~']

/-- A text means something else to a shell than itself, or is the empty word. -/
def needsQuotes (text : List Char) : Bool :=
  text.isEmpty || text = ['\x7b'] || text = ['\x7d'] || text.head?.any (· ∈ frontMarks) ||
    text.any fun c => c ∈ shellMarks || c = ' ' || c = '\'' || (octetEscape? c).isSome

/-- Double quotes can be put around a text. -/
def allowsDoubleQuotes (text : List Char) : Bool :=
  text.all (fun c => c ∉ shellMarks && (octetEscape? c).isNone) &&
    text.tail.all (fun c => c ∉ frontMarks) &&
    (text.length = 1 || text.all fun c => c ≠ '\x7b' && c ≠ '\x7d')

/-- The text within single quotes, from a point on at which a run of escapes may be open. -/
def quotedFrom (escaping : Bool) : List Char → List Char
  | [] => []
  | c :: rest =>
    match octetEscape? c with
    | some escape => (if escaping then [] else ['\'', '$', '\'']) ++ escape ++ quotedFrom true rest
    | none =>
      if c = '\'' then ['\'', '\\', '\'', '\''] ++ quotedFrom false rest
      else (if escaping then ['\'', '\''] else []) ++ c :: quotedFrom false rest

/-- A text between quotes. -/
def quotedWord (text : String) : String :=
  let chars := text.toList
  if '\'' ∈ chars && allowsDoubleQuotes chars then "\"" ++ text ++ "\""
  else "'" ++ String.ofList (quotedFrom false chars) ++ "'"

/-- A text between quotes as it stands, with escapes for backslashes, single quotes and octets that cannot be
printed. -/
def citedText (text : String) : String :=
  let spelled := text.toList.flatMap fun c =>
    if c = '\\' || c = '\'' then ['\\', c] else (octetEscape? c).getD [c]
  "'" ++ String.ofList spelled ++ "'"

/-- A text between quotes if it needs them. A colon counts as a reason, for it would be taken as the end
of the name. -/
def shellWord (text : String) : String :=
  if needsQuotes text.toList || ':' ∈ text.toList then quotedWord text else text

theorem shellWord_of_plain {text : String} (h : needsQuotes text.toList = false)
    (colon : ':' ∉ text.toList) : shellWord text = text := by
  simp [shellWord, h, colon]

end SketchApk.Text
