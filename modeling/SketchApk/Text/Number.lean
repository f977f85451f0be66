/-!
# Numerals

Unsigned numbers are read from a nonempty run of digits, which one plus sign may precede, and are
refused above a limit. They are written in decimal or in lower-case hexadecimal, the latter padded
with zeros to a fixed width.

A byte is spelled by two hexadecimal digits, in lower case. Where bytes are read, both cases count.
-/

namespace SketchApk.Text

/-- The value of a digit in a base up to thirty-six; letters of both cases count. -/
def digitValue? (base : Nat) (c : Char) : Option Nat :=
  let value? :=
    if '0' ≤ c ∧ c ≤ '9' then some (c.toNat - '0'.toNat)
    else if 'a' ≤ c ∧ c ≤ 'z' then some (c.toNat - 'a'.toNat + 10)
    else if 'A' ≤ c ∧ c ≤ 'Z' then some (c.toNat - 'A'.toNat + 10)
    else none
  value?.filter (· < base)

/-- The value of a run of digits that continues a number read so far. -/
def readDigits? (base : Nat) : (soFar : Nat) → List Char → Option Nat
  | soFar, [] => some soFar
  | soFar, c :: rest =>
    match digitValue? base c with
    | some digit => readDigits? base (soFar * base + digit) rest
    | none => none

/-- The number that a text denotes: an optional plus sign and at least one digit, with a value of
at most `limit`. -/
def readUnsigned? (base limit : Nat) (text : List Char) : Option Nat :=
  let digits :=
    match text with
    | '+' :: rest => rest
    | _ => text
  if digits = [] then none
  else (readDigits? base 0 digits).filter (· ≤ limit)

/-- The decimal digits of a number. -/
def decimal (n : Nat) : List Char :=
  Nat.toDigits 10 n

/-- The text with `fill` in front, as often as needed to reach a width. -/
def padStart (fill : Char) (width : Nat) (text : List Char) : List Char :=
  List.replicate (width - text.length) fill ++ text

/-- The text with blanks behind it, as many as needed to reach a width. -/
def padEnd (width : Nat) (text : List Char) : List Char :=
  text ++ List.replicate (width - text.length) ' '

/-- The decimal digits of a number, at least `width` of them. -/
def decimalPadded (width n : Nat) : List Char :=
  padStart '0' width (decimal n)

/-- The lower-case hexadecimal digits of a number, at least `width` of them. -/
def hexadecimal (width n : Nat) : List Char :=
  padStart '0' width (Nat.toDigits 16 n)

/-! ### Bytes -/

/-- The spelling of some bytes. -/
def hexText (bytes : ByteArray) : String :=
  String.ofList (bytes.data.toList.flatMap fun byte => hexadecimal 2 byte.toNat)

/-- The bytes that pairs of digits spell. Reading ends at the first pair that spells none. -/
def readHex : List Char → List UInt8
  | high :: low :: rest =>
    match digitValue? 16 high, digitValue? 16 low with
    | some a, some b => UInt8.ofNat (16 * a + b) :: readHex rest
    | _, _ => []
  | _ => []

/-- The bytes that a text spells. -/
def hexBytes (text : String) : ByteArray :=
  ⟨(readHex text.toList).toArray⟩

end SketchApk.Text
