/-!
# Numbers and prefix codes among bytes

Formats that are made of bytes keep numbers in two ways: in whole bytes, the least significant byte
first, or in bits, where the lowest bit of a byte comes before the others. In both cases a number
that extends beyond the end of the data is not there.

A prefix code gives words of bits to symbols so that no word begins with another one. It is a binary
tree with the symbols at its leaves. A code is canonical when it follows from the lengths of its
words alone: shorter words come first, words of one length stand in the order of their symbols, and
each word is the successor of the one before it, filled up with zeros.

## Main definitions

* `Bytes.number?`, `Bytes.bits?` : the number that some bytes or bits spell.
* `Bytes.slice?` : a part of the data.
* `PrefixCode` : prefix codes.
* `PrefixCode.insert?` : the code with one more word.
* `PrefixCode.ofLengths?` : the canonical code for some lengths.
* `PrefixCode.read` : the symbol whose word stands at a position.
-/

namespace SketchApk.Bytes

/-! ### Numbers among bytes -/

/-- The number that `width` bytes from an offset on spell, the least significant first. -/
def number? (data : ByteArray) : (offset width : Nat) → Option Nat
  | _, 0 => some 0
  | offset, width + 1 =>
    match data.data[offset]?, number? data (offset + 1) width with
    | some low, some high => some (low.toNat + 256 * high)
    | _, _ => none

/-- The bit at a position. -/
def bit? (data : ByteArray) (position : Nat) : Option Bool :=
  data.data[position / 8]?.map fun byte => byte.toNat.testBit (position % 8)

/-- The number that `count` bits from a position on spell, the lowest first. -/
def bits? (data : ByteArray) : (position count : Nat) → Option Nat
  | _, 0 => some 0
  | position, count + 1 =>
    match bit? data position, bits? data (position + 1) count with
    | some low, some high => some (low.toNat + 2 * high)
    | _, _ => none

/-- The `length` bytes from an offset on, if there are that many. -/
def slice? (data : ByteArray) (offset length : Nat) : Option ByteArray :=
  if offset + length ≤ data.size then some (data.extract offset (offset + length)) else none

/-- The bytes from an offset on, at most `length` of them. -/
def slice (data : ByteArray) (offset length : Nat) : ByteArray :=
  data.extract offset (offset + length)

@[simp] theorem number?_zero (data : ByteArray) (offset : Nat) :
    number? data offset 0 = some 0 := rfl

@[simp] theorem bits?_zero (data : ByteArray) (position : Nat) :
    bits? data position 0 = some 0 := rfl

/-! ### Codes -/

/-- A prefix code as a tree. -/
inductive PrefixCode where
  /-- No word begins in the way that leads here. -/
  | empty
  | leaf (symbol : Nat)
  | node (zero one : PrefixCode)
  deriving Inhabited

namespace PrefixCode

/-- The code with one more word, unless it begins with a word of the code or is the beginning of
one. -/
def insert? (symbol : Nat) : List Bool → PrefixCode → Option PrefixCode
  | [], empty => some (leaf symbol)
  | [], _ => none
  | _ :: _, leaf _ => none
  | false :: word, node zero one => (insert? symbol word zero).map (node · one)
  | true :: word, node zero one => (insert? symbol word one).map (node zero ·)
  | false :: word, empty => (insert? symbol word empty).map (node · empty)
  | true :: word, empty => (insert? symbol word empty).map (node empty ·)

/-- Every sequence of bits that is long enough begins with a word of the code. -/
def isComplete : PrefixCode → Bool
  | empty => false
  | leaf _ => true
  | node zero one => zero.isComplete && one.isComplete

/-- The bits of a number, the highest of `length` bits first. -/
def wordOf (length number : Nat) : List Bool :=
  ((List.range length).map fun index => number.testBit index).reverse

/-- The code with words of one length for some symbols, the first of which gets the word `number`,
and the number of the next word. -/
def insertAll? (length : Nat) : List Nat → Nat → PrefixCode → Option (Nat × PrefixCode)
  | [], number, code => some (number, code)
  | symbol :: rest, number, code =>
    if number < 1 <<< length then
      (code.insert? symbol (wordOf length number)).bind (insertAll? length rest (number + 1))
    else none

/-- The symbols with words of one length. -/
def symbolsOf (lengths : List Nat) (length : Nat) : List Nat :=
  (lengths.zipIdx.filter (·.1 = length)).map (·.2)

/-- The longest word of a code. -/
def maxLength : Nat := 15

/-- The canonical code for the lengths of the words of all symbols, where zero means that a symbol
has no word. There is none when the words do not fit. -/
def ofLengths? (lengths : List Nat) : Option PrefixCode :=
  let step (built : Option (Nat × PrefixCode)) (index : Nat) : Option (Nat × PrefixCode) :=
    built.bind fun (number, code) =>
      insertAll? (index + 1) (symbolsOf lengths (index + 1)) (2 * number) code
  ((List.range maxLength).foldl step (some (0, empty))).map (·.2)

/-- How the reading of a symbol ends. -/
inductive Reading where
  /-- A symbol, and the position behind its word. -/
  | symbol (symbol position : Nat)
  /-- The data ends within the word. -/
  | exhausted
  /-- The bits are not the beginning of a word. -/
  | malformed

/-- The symbol whose word stands at a position. -/
def read (data : ByteArray) : PrefixCode → (position : Nat) → Reading
  | empty, _ => .malformed
  | leaf symbol, position => .symbol symbol position
  | node zero one, position =>
    match bit? data position with
    | none => .exhausted
    | some false => zero.read data (position + 1)
    | some true => one.read data (position + 1)

@[simp] theorem read_leaf (data : ByteArray) (symbol position : Nat) :
    (leaf symbol).read data position = .symbol symbol position := rfl

theorem insert?_nil_eq_none_iff {symbol : Nat} {code : PrefixCode} :
    code.insert? symbol [] = none ↔ code ≠ empty := by
  cases code <;> simp [insert?]

end PrefixCode

end SketchApk.Bytes
