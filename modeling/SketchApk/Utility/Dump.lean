import SketchApk.Bytes.Sha256
import SketchApk.Text.Number
import SketchApk.Utility.Characters

/-!
# Utilities for numbers and bytes

Bytes are shown by numbers, spelled by letters and digits of six bits each, and summed up by a digest.
Numbers are counted off.

## Main definitions

* `Utility.dumpBytes` : bytes by numbers.
* `Utility.encodeBytes` : the spelling of bytes with six bits to a character.
* `Utility.countOff` : the numbers from a first to a last one.
-/

namespace SketchApk.Utility

/-- How bytes are shown. -/
inductive DumpKind where
  | character
  | name
  | number (letter : Char) (size : Nat)

/-- The characters of six bits, in the order of their values. -/
def sixBitCharacters : List Char :=
  "ABCDEFGHIJKLMNOPQRSTUVWXYZabcdefghijklmnopqrstuvwxyz0123456789+/".toList

/-- The names of the first characters. -/
def controlNames : List String :=
  ["nul", "soh", "stx", "etx", "eot", "enq", "ack", "bel", "bs", "ht", "nl", "vt", "ff", "cr", "so",
    "si", "dle", "dc1", "dc2", "dc3", "dc4", "nak", "syn", "etb", "can", "em", "sub", "esc", "fs", "gs",
    "rs", "us", "sp"]

namespace DumpKind

/-- The number of bytes that are shown together. -/
def size : DumpKind → Nat
  | number _ size => size
  | _ => 1

/-- The number of characters that show them. -/
def width : DumpKind → Nat
  | character | name => 3
  | number letter size =>
    match letter, size with
    | 'x', size => 2 * size
    | 'o', size => (8 * size + 2) / 3
    | 'u', 1 => 3
    | 'u', 2 => 5
    | 'u', 4 => 10
    | 'u', _ => 20
    | _, 1 => 4
    | _, 2 => 6
    | _, 4 => 11
    | _, _ => 20

/-- The text that shows some bytes, of which the first has the least weight. -/
def text (kind : DumpKind) (bytes : List Char) : List Char :=
  let value := bytes.foldr (fun c value => 256 * value + c.toNat) 0
  let c := bytes.headD (Char.ofNat 0)
  match kind with
  | character =>
    match Text.controlLetter? c with
    | some letter => ['\\', letter]
    | none =>
      if c = Char.ofNat 0 then ['\\', '0']
      else if 0x20 ≤ c.toNat && c.toNat ≤ 0x7e then [c]
      else Text.padStart '0' 3 (Nat.toDigits 8 c.toNat)
  | name =>
    let code := c.toNat % 128
    if code = 127 then "del".toList
    else
      match controlNames[code]? with
      | some known => known.toList
      | none => [Char.ofNat code]
  | number letter size =>
    match letter with
    | 'x' => Text.padStart '0' kind.width (Nat.toDigits 16 value)
    | 'o' => Text.padStart '0' kind.width (Nat.toDigits 8 value)
    | 'u' => Text.decimal value
    | _ =>
      let limit := 1 <<< (8 * size)
      if value < limit / 2 then Text.decimal value else '-' :: Text.decimal (limit - value)

end DumpKind

/-- A line that shows bytes. -/
structure DumpForm where
  kind : DumpKind
  /-- The bytes follow as text. -/
  hasText : Bool := false

/-- The forms that a text names. -/
def readDumpForms : (fuel : Nat) → List Char → Option (List DumpForm)
  | 0, _ | _ + 1, [] => some []
  | fuel + 1, letter :: rest =>
    let form (kind : DumpKind) (rest : List Char) : Option (List DumpForm) :=
      match rest with
      | 'z' :: after => (readDumpForms fuel after).map (⟨kind, true⟩ :: ·)
      | _ => (readDumpForms fuel rest).map (⟨kind, false⟩ :: ·)
    match letter with
    | 'a' => form .name rest
    | 'c' => form .character rest
    | 'd' | 'o' | 'u' | 'x' =>
      let digits := rest.takeWhile Char.isDigit
      let (size, after) : Nat × List Char :=
        match rest with
        | 'C' :: after => (1, after)
        | 'S' :: after => (2, after)
        | 'I' :: after => (4, after)
        | 'L' :: after => (8, after)
        | _ =>
          if digits.isEmpty then (4, rest)
          else ((Text.readDigits? 10 0 digits).getD 4, rest.drop digits.length)
      if size ∈ [1, 2, 4, 8] then form (.number letter size) after else none
    | _ => none

/-- A text in pieces of some length. At most `fuel` pieces are cut off. -/
def piecesOf (length : Nat) : (fuel : Nat) → List Char → List (List Char)
  | 0, _ => []
  | fuel + 1, text =>
    if text.isEmpty then [] else text.take length :: piecesOf length fuel (text.drop length)

/-- The line that shows some of `count` bytes in one way. Each byte takes a number of columns at least. -/
def dumpLine (form : DumpForm) (columns count : Nat) (bytes : List Char) : List Char :=
  let kind := form.kind
  let items := piecesOf kind.size (bytes.length + 1) bytes
  let width := max kind.width (columns * kind.size - 1)
  let shown := items.flatMap fun item => ' ' :: Text.padStart ' ' width (kind.text item)
  let isPlain (c : Char) : Bool := 0x20 ≤ c.toNat && c.toNat ≤ 0x7e
  let full := (count + kind.size - 1) / kind.size * (width + 1)
  if form.hasText then
    Text.padEnd full shown ++ "  >".toList ++ bytes.map (fun c => if isPlain c then c else '.') ++ ['<']
  else shown

/-- An address in front of a line. -/
def dumpAddress (radix : Char) (offset : Nat) : List Char :=
  match radix with
  | 'n' => []
  | 'd' => Text.decimalPadded 7 offset
  | 'x' => Text.hexadecimal 6 offset
  | _ => Text.padStart '0' 7 (Nat.toDigits 8 offset)

/-- The lines that show bytes, where lines that are the same as the one before may be left out. -/
def dumpLines (forms : List DumpForm) (radix : Char) (showsAll : Bool) (count : Nat) :
    (offset : Nat) → (before : Option (List Char)) → (isHidden : Bool) → List (List Char) →
      List (List Char)
  | offset, _, _, [] => if radix = 'n' then [] else [dumpAddress radix offset]
  | offset, before, isHidden, bytes :: rest =>
    let next := offset + bytes.length
    if !showsAll && before = some bytes && !rest.isEmpty then
      let more := dumpLines forms radix showsAll count next before true rest
      if isHidden then more else ['*'] :: more
    else
      let address := dumpAddress radix offset
      let blank := List.replicate address.length ' '
      let needed (kind : DumpKind) : Nat := (kind.width + kind.size) / kind.size
      let columns := (forms.map fun form => needed form.kind).foldl max 0
      let shown := forms.map fun form =>
        dumpLine form (if forms.length = 1 then 0 else columns) count bytes
      let lines := (shown.zip (address :: List.replicate forms.length blank)).map fun (line, front) =>
        front ++ line
      lines ++ dumpLines forms radix showsAll count next (some bytes) false rest

/-- Show the bytes of files by numbers. -/
def dumpBytes : Utility := fun arguments => do
  let table : OptionTable :=
    { letters := "A:abcdDfiIj:lLN:oOst:vw:xX"
      long := [⟨"address-radix", 'A', true, false⟩, ⟨"format", 't', true, false⟩,
        ⟨"read-bytes", 'N', true, false⟩, ⟨"skip-bytes", 'j', true, false⟩,
        ⟨"output-duplicates", 'v', false, false⟩, ⟨"width", 'w', true, true⟩] }
  let given ← table.parse arguments
  let formsOf : Char × Option String → Option (List DumpForm)
    | ('t', some text) => readDumpForms (text.length + 1) text.toList
    | ('a', _) => some [⟨.name, false⟩]
    | ('c', _) => some [⟨.character, false⟩]
    | ('b', _) => some [⟨.number 'o' 1, false⟩]
    | ('d', _) => some [⟨.number 'u' 2, false⟩]
    | ('i', _) => some [⟨.number 'd' 4, false⟩]
    | ('l', _) => some [⟨.number 'd' 8, false⟩]
    | ('o', _) => some [⟨.number 'o' 2, false⟩]
    | ('s', _) => some [⟨.number 'd' 2, false⟩]
    | ('x', _) => some [⟨.number 'x' 2, false⟩]
    | _ => some []
  let forms ←
    match given.options.mapM formsOf with
    | some found => pure found.flatten
    | none => giveUp 1 ("invalid type string " ++ cited ((given.value? 't').getD ""))
  let radix := ((given.value? 'A').bind (·.toList.head?)).getD 'o'
  let (texts, status) ← forInputs nameAndReason (fun (texts : List (List Char)) path descriptor => do
    match ← Steps.readAll descriptor with
    | .ok text => return (text.toList :: texts, true)
    | .error error =>
      complain (shown path ++ ": read error: " ++ error.reason)
      return (texts, false)) given.operands []
  let skipped := ((given.value? 'j').bind scaledNumber?).getD 0
  let all := texts.reverse.flatten.drop skipped
  let bytes := (((given.value? 'N').bind scaledNumber?).map all.take).getD all
  let width := max (((given.value? 'w').bind String.toNat?).getD 16) 1
  let settled := if forms.isEmpty then [⟨.number 'o' 2, false⟩] else forms
  let lines := dumpLines settled radix (given.has 'v') width skipped none false
    (piecesOf width (bytes.length + 1) bytes)
  emit (String.ofList (lines.flatMap (· ++ ['\n'])))
  return status

/-- The characters that spell bytes with six bits each. Groups of four are filled up. -/
def sixBitSpelling : List Char → List Char
  | a :: b :: c :: rest => group a b c ++ sixBitSpelling rest
  | [a, b] => (group a b (Char.ofNat 0)).take 3 ++ ['=']
  | [a] => (group a (Char.ofNat 0) (Char.ofNat 0)).take 2 ++ ['=', '=']
  | [] => []
where
  /-- The characters for three bytes. -/
  group (a b c : Char) : List Char :=
    let value := (a.toNat * 256 + b.toNat) * 256 + c.toNat
    [value / 262144, value / 4096 % 64, value / 64 % 64, value % 64].map fun digit =>
      sixBitCharacters.getD digit 'A'

/-- The bytes that characters of six bits spell, and the flag that they are well-formed. -/
def sixBitBytes : List Char → List Char × Bool
  | [] => ([], true)
  | [a, b, '=', '='] => read [a, b] 1
  | [a, b, c, '='] => read [a, b, c] 2
  | a :: b :: c :: d :: rest =>
    match read [a, b, c, d] 3 with
    | (bytes, true) =>
      let (more, isFine) := sixBitBytes rest
      (bytes ++ more, isFine)
    | failed => failed
  | rest => ((read rest (rest.length - 1)).1, false)
where
  /-- The bytes that up to four characters spell. -/
  read (characters : List Char) (count : Nat) : List Char × Bool :=
    match characters.mapM (sixBitCharacters.idxOf? ·) with
    | none => ([], false)
    | some digits =>
      let filled := digits ++ List.replicate (4 - digits.length) 0
      let value := filled.foldl (fun value digit => 64 * value + digit) 0
      (([value / 65536, value / 256 % 256, value % 256].take count).map Char.ofNat, true)

/-- Print the spelling of bytes with six bits to a character, or the bytes that are spelled so. -/
def encodeBytes : Utility := fun arguments => do
  let table : OptionTable :=
    { letters := "diw:"
      long := [⟨"decode", 'd', false, false⟩, ⟨"ignore-garbage", 'i', false, false⟩,
        ⟨"wrap", 'w', true, false⟩] }
  let given ← table.parse arguments
  match given.operands with
  | _ :: extra :: _ => giveUpUsage 1 ("extra operand " ++ cited extra)
  | operands =>
    let path := operands.headD "-"
    match ← readFile path with
    | .error error =>
      giveUp 1 (if error = .isADirectory then "read error: " ++ error.reason
        else nameAndReason path error)
    | .ok text =>
      if given.has 'd' then
        let isMeant (c : Char) : Bool :=
          if given.has 'i' then c ∈ sixBitCharacters || c = '=' else c ≠ '\n'
        let (bytes, isFine) := sixBitBytes (text.toList.filter isMeant)
        emit (String.ofList bytes)
        if isFine then return 0 else giveUp 1 "invalid input"
      else
        let spelled := sixBitSpelling text.toList
        let width := ((given.value? 'w').bind String.toNat?).getD 76
        if width = 0 then emit (String.ofList spelled)
        else
          emit (String.ofList ((piecesOf width (spelled.length + 1) spelled).flatMap (· ++ ['\n'])))
        return 0

/-- The digest of an octet text in digits. -/
def digestText (text : String) : String :=
  Text.hexText ⟨(Bytes.Sha256.digest (Octets.toBytes text).data.toList).toArray⟩

/-- Check the digests that a file lists. Answers with the numbers of files that could not be read and of
those with another digest. -/
def checkDigests (isQuiet isSilent : Bool) : List (List Char) → Work (Nat × Nat × Nat)
  | [] => return (0, 0, 0)
  | line :: rest => do
    let digest := String.ofList (line.takeWhile (· ≠ ' '))
    let path := String.ofList ((line.dropWhile (· ≠ ' ')).drop 2)
    if digest.length ≠ 64 || path.isEmpty then
      let (unread, wrong, malformed) ← checkDigests isQuiet isSilent rest
      return (unread, wrong, malformed + 1)
    else
      match ← readFile path with
      | .error error =>
        complain (nameAndReason path error)
        unless isSilent do emitLine (path ++ ": FAILED open or read")
        let (unread, wrong, malformed) ← checkDigests isQuiet isSilent rest
        return (unread + 1, wrong, malformed)
      | .ok text =>
        let isRight := digestText text = digest.toLower
        unless isSilent || (isQuiet && isRight) do
          emitLine (path ++ if isRight then ": OK" else ": FAILED")
        let (unread, wrong, malformed) ← checkDigests isQuiet isSilent rest
        return (unread, if isRight then wrong else wrong + 1, malformed)

/-- A number of things, with the words for one of them and for several. -/
def numbered (count : Nat) (single several : String) : String :=
  if count = 1 then "1 " ++ single else toString count ++ " " ++ several

/-- Print or check the digests of files. -/
def digestFiles : Utility := fun arguments => do
  let table : OptionTable :=
    { letters := "bctwz"
      long := [⟨"check", 'c', false, false⟩, ⟨"binary", 'b', false, false⟩,
        ⟨"text", 't', false, false⟩, ⟨"quiet", 'q', false, false⟩, ⟨"status", 's', false, false⟩,
        ⟨"warn", 'w', false, false⟩, ⟨"strict", 'S', false, false⟩] }
  let given ← table.parse arguments
  let operands := if given.operands.isEmpty then ["-"] else given.operands
  forEach (fun path => do
    match ← readFile path with
    | .error error => failed (nameAndReason path error)
    | .ok text =>
      if given.has 'c' then
        let lines := (linesOf '\n' text.toList).map (·.text)
        let (unread, wrong, malformed) ← checkDigests (given.has 'q') (given.has 's') lines
        if malformed = lines.length then
          failed (shown path ++ ": no properly formatted checksum lines found")
        else
          unless given.has 's' do
            if 0 < malformed then
              complain ("WARNING: " ++
                numbered malformed "line is improperly formatted" "lines are improperly formatted")
            if 0 < unread then
              complain ("WARNING: " ++
                numbered unread "listed file could not be read" "listed files could not be read")
            if 0 < wrong then
              complain ("WARNING: " ++ numbered wrong "computed checksum did NOT match"
                "computed checksums did NOT match")
          return unread = 0 && wrong = 0
      else
        emitLine (digestText text ++ (if given.has 'b' then " *" else "  ") ++ path)
        return true) operands

/-- A decimal number in units of its last place. -/
structure CountedNumber where
  value : Int
  places : Nat

/-- The decimal number that a text spells. -/
def CountedNumber.ofText? (text : String) : Option CountedNumber :=
  let (isNegative, unsigned) := Format.takeSign text.toList
  let whole := unsigned.takeWhile Char.isDigit
  let (places, rest) : List Char × List Char :=
    match unsigned.dropWhile Char.isDigit with
    | '.' :: more => (more.takeWhile Char.isDigit, more.dropWhile Char.isDigit)
    | more => ([], more)
  if !rest.isEmpty || (whole.isEmpty && places.isEmpty) then none
  else
    let magnitude : Int := (Text.readDigits? 10 0 (whole ++ places)).getD 0
    some ⟨if isNegative then -magnitude else magnitude, places.length⟩

/-- The value in units of a smaller place. -/
def CountedNumber.scaled (number : CountedNumber) (places : Nat) : Int :=
  number.value * Nat.pow 10 (places - number.places)

/-- A value in units of a place, with a least width. -/
def countedText (places width : Nat) (value : Int) : List Char :=
  let scale := Nat.pow 10 places
  let magnitude := value.natAbs
  let whole := Text.decimal (magnitude / scale)
  let digits :=
    if places = 0 then whole else whole ++ '.' :: Text.decimalPadded places (magnitude % scale)
  if value < 0 then '-' :: Text.padStart '0' (width - 1) digits else Text.padStart '0' width digits

/-- Print values up to a last one in portions of at most a thousand. At most `fuel` portions are
printed. -/
def emitCount (text : Int → List Char) (separator : List Char) (step : Int) (last : Int) :
    (fuel : Nat) → (isFirst : Bool) → Int → Work Unit
  | 0, _, _ => return ()
  | fuel + 1, isFirst, value => do
    let left := if 0 < step then (last - value) / step else (value - last) / (-step)
    let isOver := if 0 < step then last < value else value < last
    if isOver then
      unless isFirst do emit "\n"
    else
      let count := min 1000 (left.toNat + 1)
      let texts := (List.range count).map fun (n : Nat) => text (value + step * n)
      let front := if isFirst then [] else separator
      emit (String.ofList (front ++ List.intercalate separator texts))
      emitCount text separator step last fuel false (value + step * count)

/-- Print the numbers from a first to a last one. -/
def countOff : Utility := fun arguments => do
  let table : OptionTable :=
    { letters := "f:s:w"
      long := [⟨"format", 'f', true, false⟩, ⟨"separator", 's', true, false⟩,
        ⟨"equal-width", 'w', false, false⟩]
      stopsAtOperand := true }
  let isNumber (text : String) : Bool :=
    match text.toList with
    | '-' :: c :: _ => c.isDigit || c = '.'
    | _ => false
  let front := arguments.takeWhile (!isNumber ·)
  let rest := arguments.drop front.length
  let given ← table.parse (if rest.isEmpty then arguments else front ++ "--" :: rest)
  let operands := given.operands.filter (· ≠ "--")
  let read (text : String) : Work CountedNumber := do
    match CountedNumber.ofText? text with
    | some number => return number
    | none => giveUpUsage 1 ("invalid floating point argument: " ++ cited text)
  let run (first step last : CountedNumber) : Work Nat := do
    let places := max first.places step.places
    let scale := max places last.places
    let start := first.scaled scale
    let increment := step.scaled scale
    let final := last.scaled scale
    let cut (value : Int) : Int := value.tdiv (Nat.pow 10 (scale - places))
    let width :=
      if given.has 'w' then
        max (countedText places 0 (cut start)).length (countedText places 0 (cut final)).length
      else 0
    let format := given.value? 'f'
    let shown (value : Int) : List Char :=
      let text := countedText places width (cut value)
      match format with
      | none => text
      | some format => (Format.print .program format [String.ofList text]).printed.toList
    emitCount shown (((given.value? 's').getD "\n").toList) increment final Steps.manyTimes true
      start
    return 0
  match operands with
  | [] => giveUpUsage 1 "missing operand"
  | [last] => run ⟨1, 0⟩ ⟨1, 0⟩ (← read last)
  | [first, last] => run (← read first) ⟨1, 0⟩ (← read last)
  | [first, step, last] =>
    let start ← read first
    let increment ← read step
    if increment.value = 0 then giveUpUsage 1 ("invalid Zero increment value: " ++ cited step)
    run start increment (← read last)
  | _ :: _ :: _ :: extra :: _ => giveUpUsage 1 ("extra operand " ++ cited extra)

end SketchApk.Utility
