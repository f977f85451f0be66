import SketchApk.Utility.Counting

/-!
# Orders of lines

Lines are compared by keys, which are parts of them, and as wholes where all keys are equal. A key is
compared as a text, of which some characters may not matter, or as a number, a version or a month.

## Main definitions

* `SortKey` : keys; `SortKey.read?` reads one.
* `LineOrder.compare` : the order of lines.
-/

namespace SketchApk.Utility

/-- How the text of a key is compared. -/
inductive KeyKind where
  | text
  | number
  /-- A number that may have a power of ten. -/
  | scientific
  /-- A number that may have a unit. -/
  | scaled
  | month
  | version
  deriving DecidableEq

/-- How keys are compared. -/
structure KeyOrder where
  kind : KeyKind := .text
  isReversed : Bool := false
  ignoresCase : Bool := false
  /-- Only blanks, letters and digits matter. -/
  isDictionary : Bool := false
  /-- Characters that cannot be printed do not matter. -/
  ignoresControls : Bool := false
  skipsStartBlanks : Bool := false
  skipsEndBlanks : Bool := false
  deriving DecidableEq

namespace KeyOrder

/-- The order with what a letter asks for. -/
def withLetter? (order : KeyOrder) (forEnd : Bool) (letter : Char) : Option KeyOrder :=
  match letter with
  | 'b' =>
    some (if forEnd then { order with skipsEndBlanks := true }
      else { order with skipsStartBlanks := true })
  | 'd' => some { order with isDictionary := true }
  | 'f' => some { order with ignoresCase := true }
  | 'g' => some { order with kind := .scientific }
  | 'h' => some { order with kind := .scaled }
  | 'i' => some { order with ignoresControls := true }
  | 'M' => some { order with kind := .month }
  | 'n' => some { order with kind := .number }
  | 'r' => some { order with isReversed := true }
  | 'V' => some { order with kind := .version }
  | _ => none

end KeyOrder

/-- A part of a line that is compared. -/
structure SortKey where
  /-- The number of fields in front of the key. -/
  startField : Nat := 0
  /-- The number of characters in front of the key in its first field. -/
  startOffset : Nat := 0
  /-- The number of fields in front of the one in which the key ends. -/
  endField : Option Nat := none
  /-- The number of characters of the last field in the key, or zero for all. -/
  endOffset : Nat := 0
  order : KeyOrder := {}

/-- A number at the front of a text, and what follows. -/
def numberAt? (text : List Char) : Option (Nat × List Char) :=
  let digits := text.takeWhile Char.isDigit
  if digits.isEmpty then none
  else some ((Text.readDigits? 10 0 digits).getD 0, text.dropWhile Char.isDigit)

/-- Letters of an order at the front of a text, and what follows. -/
def orderLetters (forEnd : Bool) : KeyOrder → List Char → KeyOrder × List Char
  | order, letter :: rest =>
    match order.withLetter? forEnd letter with
    | some changed => orderLetters forEnd changed rest
    | none => (order, letter :: rest)
  | order, [] => (order, [])

/-- The key that a text describes, or a complaint. -/
def SortKey.read (text : String) : Except String SortKey := do
  let invalid (reason : String) : String :=
    reason ++ ": invalid field specification " ++ cited text
  let (field, afterField) ←
    match numberAt? text.toList with
    | some found => pure found
    | none => throw ("invalid number at field start: invalid count at start of " ++ cited text)
  if field = 0 then throw (invalid "field number is zero")
  let (offset, afterOffset) ←
    match afterField with
    | '.' :: rest =>
      match numberAt? rest with
      | some (0, _) => throw (invalid "character offset is zero")
      | some (number, after) => pure (number - 1, after)
      | none =>
        throw ("invalid number after '.': invalid count at start of " ++ cited (String.ofList rest))
    | _ => pure (0, afterField)
  let (order, afterLetters) := orderLetters false {} afterOffset
  match afterLetters with
  | [] => return { startField := field - 1, startOffset := offset, order }
  | ',' :: rest =>
    match numberAt? rest with
    | none =>
      throw ("invalid number after ',': invalid count at start of " ++ cited (String.ofList rest))
    | some (0, _) => throw (invalid "field number is zero")
    | some (last, afterLast) =>
      let (width, afterWidth) ←
        match afterLast with
        | '.' :: more =>
          match numberAt? more with
          | some found => pure found
          | none =>
            throw ("invalid number after '.': invalid count at start of " ++
              cited (String.ofList more))
        | _ => pure (0, afterLast)
      let (order, left) := orderLetters true order afterWidth
      unless left.isEmpty do throw (invalid "stray character in field spec")
      return {
        startField := field - 1, startOffset := offset, endField := some (last - 1)
        endOffset := width, order }
  | _ => throw (invalid "stray character in field spec")

/-- A character between words of a line. -/
def isBlank (c : Char) : Bool :=
  c = ' ' || c = '\t' || c = '\n'

/-- A line without the first field. -/
def dropField (separator : Option Char) (line : List Char) : List Char :=
  match separator with
  | some c => (line.dropWhile (· ≠ c)).drop 1
  | none => (line.dropWhile isBlank).dropWhile (!isBlank ·)

/-- A line without its first fields. -/
def dropFields (separator : Option Char) : Nat → List Char → List Char
  | 0, line => line
  | count + 1, line => dropFields separator count (dropField separator line)

/-- The key in a line. -/
def SortKey.part (key : SortKey) (separator : Option Char) (line : List Char) : List Char :=
  let atField := dropFields separator key.startField line
  let atStart :=
    (if key.order.skipsStartBlanks then atField.dropWhile isBlank else atField).drop key.startOffset
  match key.endField with
  | none => atStart
  | some field =>
    let atLast := dropFields separator field line
    let behind :=
      if key.endOffset = 0 then
        match separator with
        | some c => atLast.dropWhile (· ≠ c)
        | none => dropField none atLast
      else
        (if key.order.skipsEndBlanks then atLast.dropWhile isBlank else atLast).drop key.endOffset
    atStart.take (atStart.length - behind.length)

/-- The number at the front of a text, by its sign, whole digits and places. -/
structure Numeral where
  isNegative : Bool
  whole : List Char
  places : List Char

/-- The number at the front of a text. -/
def Numeral.ofText (text : List Char) : Numeral × List Char :=
  let bare := text.dropWhile isBlank
  let (isNegative, unsigned) : Bool × List Char :=
    match bare with
    | '-' :: rest => (true, rest)
    | _ => (false, bare)
  let whole := unsigned.takeWhile Char.isDigit
  let behind := unsigned.dropWhile Char.isDigit
  match behind with
  | '.' :: rest =>
    ({ isNegative, whole, places := rest.takeWhile Char.isDigit }, rest.dropWhile Char.isDigit)
  | _ => ({ isNegative, whole, places := [] }, behind)

/-- The value of a number in units of a place. -/
def Numeral.value (numeral : Numeral) (places : Nat) : Int :=
  let shown := numeral.places ++ List.replicate (places - numeral.places.length) '0'
  let magnitude : Int := (Text.readDigits? 10 0 (numeral.whole ++ shown)).getD 0
  if numeral.isNegative then -magnitude else magnitude

/-- Numbers are compared by their values. -/
def Numeral.compare (a b : Numeral) : Ordering :=
  let places := max a.places.length b.places.length
  Ord.compare (a.value places) (b.value places)

/-- The rank of a unit behind a number. -/
def unitRank (text : List Char) : Nat :=
  match text.head? with
  | some 'k' => 1
  | some c => (['K', 'M', 'G', 'T', 'P', 'E', 'Z', 'Y'].idxOf? c).elim 0 (· + 1)
  | none => 0

/-- Numbers with units are compared by sign, unit and value. -/
def compareScaled (a b : List Char) : Ordering :=
  let (left, afterLeft) := Numeral.ofText a
  let (right, afterRight) := Numeral.ofText b
  let sign (numeral : Numeral) : Int :=
    let value := numeral.value numeral.places.length
    if value < 0 then -1 else if value = 0 then 0 else 1
  let rank (numeral : Numeral) (after : List Char) : Int := sign numeral * unitRank after
  ((Ord.compare (sign left) (sign right)).then
    (Ord.compare (rank left afterLeft) (rank right afterRight))).then (left.compare right)

/-- The number of the month that a text begins with, or zero. -/
def monthOf (text : List Char) : Nat :=
  let name := ((text.dropWhile isBlank).take 3).map Char.toUpper
  let names := ["JAN", "FEB", "MAR", "APR", "MAY", "JUN", "JUL", "AUG", "SEP", "OCT", "NOV", "DEC"]
  (names.idxOf? (String.ofList name)).elim 0 (· + 1)

/-- The rank of a character within a version. A tilde stands in front of the end, and letters in front of
other characters. -/
def versionRank (c : Option Char) : Nat :=
  match c with
  | none => 1
  | some c =>
    if c = '~' then 0
    else if c.isDigit then 1
    else if c.isAlpha then c.toNat + 2
    else c.toNat + 300

/-- The order of versions, of which runs of digits are compared as numbers. At most `fuel` runs are
compared. -/
def compareVersions : (fuel : Nat) → List Char → List Char → Ordering
  | 0, _, _ => .eq
  | fuel + 1, a, b =>
    let (wordA, restA) := a.span (!·.isDigit)
    let (wordB, restB) := b.span (!·.isDigit)
    let words := compareWords (wordA.length + wordB.length + 1) wordA wordB
    if words ≠ .eq then words
    else if restA.isEmpty && restB.isEmpty then .eq
    else
      let (digitsA, afterA) := restA.span Char.isDigit
      let (digitsB, afterB) := restB.span Char.isDigit
      let numbers := compare ((Text.readDigits? 10 0 digitsA).getD 0)
        ((Text.readDigits? 10 0 digitsB).getD 0)
      if numbers ≠ .eq then numbers else compareVersions fuel afterA afterB
where
  /-- The order of runs without digits. -/
  compareWords : (fuel : Nat) → List Char → List Char → Ordering
    | 0, _, _ | _ + 1, [], [] => .eq
    | fuel + 1, a, b =>
      let first := compare (versionRank a.head?) (versionRank b.head?)
      if first ≠ .eq then first else compareWords fuel a.tail b.tail

/-- The characters of a key that matter, as they are compared. -/
def KeyOrder.relevant (order : KeyOrder) (text : List Char) : List Char :=
  let kept := text.filter fun c =>
    (!order.isDictionary || c = ' ' || c = '\t' || c.isAlphanum) &&
      (!order.ignoresControls || (0x20 ≤ c.toNat && c.toNat ≤ 0x7e))
  if order.ignoresCase then kept.map Char.toUpper else kept

/-- The order of texts by the codes of their characters. -/
def compareTexts (a b : List Char) : Ordering :=
  compare (String.ofList a) (String.ofList b)

/-- The order of two keys. -/
def KeyOrder.compare (order : KeyOrder) (a b : List Char) : Ordering :=
  let result :=
    match order.kind with
    | .text => compareTexts (order.relevant a) (order.relevant b)
    | .number => (Numeral.ofText a).1.compare (Numeral.ofText b).1
    | .scaled => compareScaled a b
    | .month => Ord.compare (monthOf a) (monthOf b)
    | .version =>
      (compareVersions (a.length + b.length + 1) a b).then (compareTexts a b)
    | .scientific =>
      let value (text : List Char) : Bool × Decimal.Ratio :=
        (Format.readDecimal .program (String.ofList (text.dropWhile isBlank))).value
      let isNumber (text : List Char) : Bool :=
        let unsigned := (text.dropWhile isBlank).dropWhile fun c => c = '+' || c = '-'
        (unsigned.dropWhile (· = '.')).head?.any Char.isDigit
      let (negativeA, ratioA) := value a
      let (negativeB, ratioB) := value b
      let signed (isNegative : Bool) (number : Nat) : Int := if isNegative then -number else number
      match isNumber a, isNumber b with
      | true, true =>
        Ord.compare (signed negativeA (ratioA.numerator * ratioB.denominator))
          (signed negativeB (ratioB.numerator * ratioA.denominator))
      | first, second => Ord.compare first second
  if order.isReversed then result.swap else result

/-- An order of lines. -/
structure LineOrder where
  keys : List SortKey
  separator : Option Char := none
  /-- Lines whose keys are equal count as equal. -/
  isByKeys : Bool := false
  /-- Lines whose keys are equal are in the opposite order. -/
  isReversed : Bool := false

/-- The order of two lines. -/
def LineOrder.compare (order : LineOrder) (a b : List Char) : Ordering :=
  let byKeys := order.keys.foldl (fun result key =>
    if result ≠ .eq then result
    else key.order.compare (key.part order.separator a) (key.part order.separator b)) Ordering.eq
  if byKeys ≠ .eq then byKeys
  else if order.isByKeys then .eq
  else
    let whole := compareTexts a b
    if order.isReversed then whole.swap else whole

end SketchApk.Utility
