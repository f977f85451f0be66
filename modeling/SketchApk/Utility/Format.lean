import SketchApk.Decimal.Seconds
import SketchApk.Text.Character
import SketchApk.Text.Number

/-!
# Formats for printing

A format is a text with escapes, which begin with a backslash, and directives, which begin with a
percent sign. A directive prints the next argument; missing arguments are empty texts or zero. The
format is used again as long as arguments are left.

All texts are octet texts.

## Main definitions

* `Format.unescape` : a text with its escapes replaced.
* `Format.print` : what a format prints for some arguments.
-/

namespace SketchApk.Format

/-- How formats are understood. -/
inductive Dialect where
  /-- The format belongs to a command of a shell. -/
  | command
  /-- The format belongs to a program. Characters may be given by hexadecimal digits. -/
  | program
  deriving DecidableEq, Repr

/-- The number that at most `count` digits at the front of a text spell in a base, and what follows. -/
def takeNumber (base : Nat) : (count soFar : Nat) → List Char → Nat × List Char
  | 0, soFar, text => (soFar, text)
  | count + 1, soFar, c :: rest =>
    match Text.digitValue? base c with
    | some digit => takeNumber base count (soFar * base + digit) rest
    | none => (soFar, c :: rest)
  | _ + 1, soFar, [] => (soFar, [])

/-- The character with the lowest eight bits of a number. -/
def character (number : Nat) : Char :=
  Char.ofNat (number % 256)

/-- The character for which a letter stands behind a backslash. -/
def escaped? (c : Char) : Option Char :=
  match c with
  | '\\' => some '\\'
  | 'a' => some (character 7)
  | 'b' => some (character 8)
  | 'e' => some (character 27)
  | 'f' => some (character 12)
  | 'n' => some '\n'
  | 'r' => some '\r'
  | 't' => some '\t'
  | 'v' => some (character 11)
  | _ => none

/-- The character for which the text behind a backslash stands, and what follows it. A backslash that
begins no escape stands for itself. -/
def escapeAt (dialect : Dialect) (text : List Char) : Char × List Char :=
  match text with
  | [] => ('\\', [])
  | c :: rest =>
    match escaped? c with
    | some meant => (meant, rest)
    | none =>
      if (Text.digitValue? 8 c).isSome then
        let (number, after) := takeNumber 8 3 0 text
        (character number, after)
      else if dialect = .program && c = '"' then ('"', rest)
      else if dialect = .program && c = 'x' then
        let (number, after) := takeNumber 16 2 0 rest
        if after.length = rest.length then ('\\', text) else (character number, after)
      else ('\\', text)

/-- A text with its escapes replaced. A zero may stand in front of octal digits. The flag tells that
the text asks for an end of all output. At most `fuel` characters are dealt with. -/
def unescapeFrom (dialect : Dialect) : (fuel : Nat) → List Char → List Char × Bool
  | 0, _ | _, [] => ([], false)
  | _ + 1, '\\' :: 'c' :: _ => ([], true)
  | fuel + 1, '\\' :: rest =>
    let digits :=
      match rest with
      | '0' :: next :: _ => if (Text.digitValue? 8 next).isSome then rest.tail else rest
      | _ => rest
    let (c, after) := escapeAt dialect digits
    let (more, ended) := unescapeFrom dialect fuel after
    (c :: more, ended)
  | fuel + 1, c :: rest =>
    let (more, ended) := unescapeFrom dialect fuel rest
    (c :: more, ended)

/-- A text with its escapes replaced. The flag tells that the text asks for an end of all output. -/
def unescape (dialect : Dialect) (text : List Char) : List Char × Bool :=
  unescapeFrom dialect (text.length + 1) text

/-- A directive. -/
structure Directive where
  leftAligned : Bool := false
  /-- What is printed in front of a number that is not negative. -/
  sign : List Char := []
  zeroFilled : Bool := false
  alternate : Bool := false
  width : Nat := 0
  precision : Option Nat := none
  letter : Char

namespace Directive

/-- A text in the field of a directive. -/
def place (directive : Directive) (text : List Char) : List Char :=
  if directive.leftAligned then Text.padEnd directive.width text
  else Text.padStart ' ' directive.width text

/-- The digits of a number in the field of a directive, behind something like a sign. -/
def placeNumber (directive : Directive) (zeroFilled : Bool) (front digits : List Char) :
    List Char :=
  if zeroFilled && !directive.leftAligned then
    front ++ Text.padStart '0' (directive.width - front.length) digits
  else directive.place (front ++ digits)

/-- A whole number as a directive prints it. -/
def integer (directive : Directive) (value : Int) : List Char :=
  let magnitude := value.natAbs
  let unsigned := (if value < 0 then value + 18446744073709551616 else value).toNat
  let (front, digits) : List Char × List Char :=
    match directive.letter with
    | 'u' => ([], Text.decimal unsigned)
    | 'o' =>
      let digits := Nat.toDigits 8 unsigned
      ([], if directive.alternate && unsigned ≠ 0 then '0' :: digits else digits)
    | 'x' =>
      (if directive.alternate && unsigned ≠ 0 then ['0', 'x'] else [], Nat.toDigits 16 unsigned)
    | 'X' =>
      (if directive.alternate && unsigned ≠ 0 then ['0', 'X'] else [],
        (Nat.toDigits 16 unsigned).map Char.toUpper)
    | _ => (if value < 0 then ['-'] else directive.sign, Text.decimal magnitude)
  let precise := Text.padStart '0' (directive.precision.getD 1) digits
  let shown := if directive.precision = some 0 && value = 0 then [] else precise
  directive.placeNumber (directive.zeroFilled && directive.precision.isNone) front shown

/-- A ratio with some places after the point. -/
def fixed (alternate : Bool) (places : Nat) (value : Decimal.Ratio) : List Char :=
  let scale := Nat.pow 10 places
  let scaled := Decimal.roundHalfEven (value.numerator * scale) value.denominator
  let whole := Text.decimal (scaled / scale)
  if places = 0 then whole ++ (if alternate then ['.'] else [])
  else whole ++ '.' :: Text.decimalPadded places (scaled % scale)

/-- The power of ten of the first digit of a ratio. -/
def leadingPower (value : Decimal.Ratio) : Int :=
  if value.numerator = 0 then 0
  else
    let guess : Int :=
      ((Text.decimal value.numerator).length : Int) - (Text.decimal value.denominator).length
    let reaches : Bool :=
      match guess with
      | .ofNat n => value.denominator * Nat.pow 10 n ≤ value.numerator
      | .negSucc n => value.denominator ≤ value.numerator * Nat.pow 10 (n + 1)
    if reaches then guess else guess - 1

/-- The digits of a ratio with some places behind the first one, and the power of ten of the first. -/
def significant (places : Nat) (value : Decimal.Ratio) : Nat × Int :=
  let power := leadingPower value
  let digits :=
    match power - places with
    | .ofNat n => Decimal.roundHalfEven value.numerator (value.denominator * Nat.pow 10 n)
    | .negSucc n => Decimal.roundHalfEven (value.numerator * Nat.pow 10 (n + 1)) value.denominator
  if Nat.pow 10 (places + 1) ≤ digits then (digits / 10, power + 1) else (digits, power)

/-- A ratio with some places behind the first digit and a power of ten. -/
def scientific (alternate : Bool) (places : Nat) (value : Decimal.Ratio) : List Char :=
  let (digits, power) := significant places value
  let scale := Nat.pow 10 places
  let front := Text.decimal (digits / scale)
  let mantissa :=
    if places = 0 then front ++ (if alternate then ['.'] else [])
    else front ++ '.' :: Text.decimalPadded places (digits % scale)
  mantissa ++ 'e' :: (if power < 0 then '-' else '+') :: Text.decimalPadded 2 power.natAbs

/-- A number without zeros at the end of the places after the point. -/
def withoutZeros (text : List Char) : List Char :=
  let front := text.takeWhile (· ≠ 'e')
  let behind := text.dropWhile (· ≠ 'e')
  let short :=
    if '.' ∈ front then
      let kept := (front.reverse.dropWhile (· = '0')).reverse
      if kept.getLast? = some '.' then kept.dropLast else kept
    else front
  short ++ behind

/-- A ratio, which may be negative, as a directive prints it. -/
def decimal (directive : Directive) (negative : Bool) (value : Decimal.Ratio) : List Char :=
  let places := directive.precision.getD 6
  let text :=
    match directive.letter.toLower with
    | 'f' => fixed directive.alternate places value
    | 'e' => scientific directive.alternate places value
    | _ =>
      let wanted := max places 1
      let power := (significant (wanted - 1) value).2
      let long :=
        if -4 ≤ power && power < wanted then
          fixed directive.alternate (((wanted : Int) - 1 - power).toNat) value
        else scientific directive.alternate (wanted - 1) value
      if directive.alternate then long else withoutZeros long
  let cased := if directive.letter.isUpper then text.map Char.toUpper else text
  directive.placeNumber directive.zeroFilled (if negative then ['-'] else directive.sign) cased

end Directive

/-- The number that a text spells, and a complaint if it does not spell one, or not one that fits. -/
structure Reading (α : Type) where
  value : α
  complaint : Option String := none

/-- The sign in front of a number, and what follows it. -/
def takeSign (text : List Char) : Bool × List Char :=
  match text.dropWhile Text.isSpacing with
  | '-' :: rest => (true, rest)
  | '+' :: rest => (false, rest)
  | rest => (false, rest)

/-- The complaint about a text, of which some part is not a number. -/
def complaintAbout (dialect : Dialect) (text : String) (isNumber isComplete : Bool) :
    Option String :=
  match dialect with
  | .command =>
    if !isNumber then some (text ++ ": expected numeric value")
    else if !isComplete then some (text ++ ": not completely converted")
    else none
  | .program =>
    if !isNumber then some ("'" ++ text ++ "': expected a numeric value")
    else if !isComplete then some ("'" ++ text ++ "': value not completely converted")
    else none

/-- The whole number that an argument spells. A quote in front means the code of a character. -/
def readInteger (dialect : Dialect) (signed : Bool) (argument : String) : Reading Int :=
  match argument.toList with
  | '\'' :: rest | '"' :: rest => { value := (rest.head?.map Char.toNat).getD 0 }
  | [] => { value := 0 }
  | text =>
    let (negative, unsigned) := takeSign text
    let (base, digits) : Nat × List Char :=
      match unsigned with
      | '0' :: 'x' :: rest | '0' :: 'X' :: rest =>
        if rest.head?.any fun c => (Text.digitValue? 16 c).isSome then (16, rest)
        else (8, unsigned)
      | '0' :: _ => (8, unsigned)
      | _ => (10, unsigned)
    let (magnitude, rest) := takeNumber base digits.length 0 digits
    let isNumber := rest.length < digits.length
    let value : Int := if negative then -(magnitude : Int) else magnitude
    let (low, high) : Int × Int :=
      if signed then (-9223372036854775808, 9223372036854775807)
      else (-18446744073709551615, 18446744073709551615)
    let range :=
      (if dialect = .command then argument else "'" ++ argument ++ "'") ++
        ": Numerical result out of range"
    if isNumber && rest.isEmpty && (value < low || high < value) then
      { value := if value < low then low else high, complaint := some range }
    else
      { value := if value < low then low else if high < value then high else value
        complaint := complaintAbout dialect argument isNumber rest.isEmpty }

/-- The decimal fraction that an argument spells, and whether it is negative. -/
def readDecimal (dialect : Dialect) (argument : String) : Reading (Bool × Decimal.Ratio) :=
  match argument.toList with
  | '\'' :: rest | '"' :: rest =>
    { value := (false, ⟨(rest.head?.map Char.toNat).getD 0, 1⟩) }
  | [] => { value := (false, ⟨0, 1⟩) }
  | text =>
    let (negative, unsigned) := takeSign text
    let whole := unsigned.takeWhile Char.isDigit
    let behind := unsigned.dropWhile Char.isDigit
    let (places, rest) : List Char × List Char :=
      match behind with
      | '.' :: more => (more.takeWhile Char.isDigit, more.dropWhile Char.isDigit)
      | _ => ([], behind)
    let isNumber := !whole.isEmpty || !places.isEmpty
    let (power, after) : Int × List Char :=
      match rest with
      | 'e' :: more | 'E' :: more =>
        let (down, digits) : Bool × List Char :=
          match more with
          | '-' :: digits => (true, digits)
          | '+' :: digits => (false, digits)
          | digits => (false, digits)
        let shown := digits.takeWhile Char.isDigit
        if shown.isEmpty || !isNumber then (0, rest)
        else
          let size : Int := min ((Text.readDigits? 10 0 shown).getD 0) 400
          (if down then -size else size, digits.dropWhile Char.isDigit)
      | _ => (0, rest)
    let digits := (Text.readDigits? 10 0 (whole ++ places)).getD 0
    let value : Decimal.Ratio :=
      match power - places.length with
      | .ofNat n => ⟨digits * Nat.pow 10 n, 1⟩
      | .negSucc n => ⟨digits, Nat.pow 10 (n + 1)⟩
    { value := (negative, value.toBinary)
      complaint :=
        complaintAbout dialect argument isNumber (if isNumber then after.isEmpty else false) }

/-- How far a format has printed. -/
structure Progress where
  /-- What has been printed, the last text first. -/
  printed : List (List Char) := []
  /-- The arguments that are left. -/
  arguments : List String
  complaints : List String := []
  /-- Some directive has taken an argument. -/
  hasTaken : Bool := false
  /-- Nothing more is printed. -/
  isOver : Bool := false
  /-- Why the format cannot be used. -/
  failure : Option String := none

namespace Progress

/-- More has been printed. -/
def add (progress : Progress) (text : List Char) : Progress :=
  { progress with printed := text :: progress.printed }

/-- The next argument. -/
def take (progress : Progress) : Option String × Progress :=
  match progress.arguments with
  | [] => (none, { progress with hasTaken := true })
  | argument :: rest => (some argument, { progress with arguments := rest, hasTaken := true })

/-- The next argument as a whole number. -/
def takeInteger (dialect : Dialect) (signed : Bool) (progress : Progress) : Int × Progress :=
  let (argument, after) := progress.take
  let reading := readInteger dialect signed (argument.getD "")
  (reading.value, { after with complaints := after.complaints ++ reading.complaint.toList })

/-- The next argument as a decimal fraction. -/
def takeDecimal (dialect : Dialect) (progress : Progress) :
    (Bool × Decimal.Ratio) × Progress :=
  let (argument, after) := progress.take
  let reading := readDecimal dialect (argument.getD "")
  (reading.value, { after with complaints := after.complaints ++ reading.complaint.toList })

end Progress

/-- A number of a directive, which may be the next argument, and what follows it. -/
def takeCount (dialect : Dialect) (text : List Char) (progress : Progress) :
    Int × List Char × Progress :=
  match text with
  | '*' :: rest =>
    let (value, after) := progress.takeInteger dialect true
    (value, rest, after)
  | _ =>
    let (value, rest) := takeNumber 10 text.length 0 text
    (value, rest, progress)

/-- The text cut at a precision. -/
def cutTo (precision : Option Nat) (text : List Char) : List Char :=
  match precision with
  | some limit => text.take limit
  | none => text

/-- What the directive behind a percent sign prints, and what follows it. -/
def printDirective (dialect : Dialect) (text : List Char) (progress : Progress) :
    List Char × Progress :=
  let isFlag (c : Char) : Bool := c ∈ ['#', '-', '+', ' ', '0']
  let flags := text.takeWhile isFlag
  let (width, rest, progress) := takeCount dialect (text.dropWhile isFlag) progress
  let (precision, rest, progress) : Option Int × List Char × Progress :=
    match rest with
    | '.' :: more =>
      let (value, after, progress) := takeCount dialect more progress
      (some value, after, progress)
    | _ => (none, rest, progress)
  let spelled := String.ofList ('%' :: text.take (text.length - rest.length + 1))
  match rest with
  | [] =>
    let failure :=
      match dialect with
      | .command => "missing format character"
      | .program => spelled ++ ": invalid conversion specification"
    ([], { progress with failure := some failure })
  | letter :: after =>
    let directive : Directive :=
      { leftAligned := '-' ∈ flags || width < 0
        sign := if '+' ∈ flags then ['+'] else if ' ' ∈ flags then [' '] else []
        zeroFilled := '0' ∈ flags
        alternate := '#' ∈ flags
        width := width.natAbs
        precision := precision.bind fun value => if value < 0 then none else some value.toNat
        letter }
    let print (text : List Char) (progress : Progress) : List Char × Progress :=
      (after, progress.add text)
    if letter ∈ ['d', 'i'] then
      let (value, progress) := progress.takeInteger dialect true
      print (directive.integer value) progress
    else if letter ∈ ['o', 'u', 'x', 'X'] then
      let (value, progress) := progress.takeInteger dialect false
      print (directive.integer value) progress
    else if letter ∈ ['e', 'E', 'f', 'F', 'g', 'G'] then
      let ((negative, value), progress) := progress.takeDecimal dialect
      print (directive.decimal negative value) progress
    else if letter = 's' then
      let (argument, progress) := progress.take
      print (directive.place (cutTo directive.precision (argument.getD "").toList)) progress
    else if letter = 'c' then
      let (argument, progress) := progress.take
      let shown := (argument.getD "").toList.head?.getD (character 0)
      print (directive.place [shown]) progress
    else if letter = 'b' then
      let (argument, progress) := progress.take
      let (shown, isOver) := unescape dialect (argument.getD "").toList
      print (directive.place (cutTo directive.precision shown))
        { progress with isOver := progress.isOver || isOver }
    else
      let failure :=
        match dialect with
        | .command => spelled ++ ": invalid directive"
        | .program => spelled ++ ": invalid conversion specification"
      ([], { progress with failure := some failure })

/-- What a format prints when it is used once. At most `fuel` parts are dealt with. -/
def printOnce (dialect : Dialect) : (fuel : Nat) → List Char → Progress → Progress
  | 0, _, progress | _, [], progress => progress
  | fuel + 1, c :: rest, progress =>
    if progress.isOver || progress.failure.isSome then progress
    else if c = '\\' then
      if dialect = .program && rest.head? = some 'c' then { progress with isOver := true }
      else
        let (meant, after) := escapeAt dialect rest
        printOnce dialect fuel after (progress.add [meant])
    else if c = '%' then
      if rest.head? = some '%' then printOnce dialect fuel rest.tail (progress.add ['%'])
      else
        let (after, progress) := printDirective dialect rest progress
        printOnce dialect fuel after progress
    else printOnce dialect fuel rest (progress.add [c])

/-- What a format prints when it is used at most `fuel` times. -/
def printAll (dialect : Dialect) (format : List Char) : (fuel : Nat) → Progress → Progress
  | 0, progress => progress
  | fuel + 1, progress =>
    let after := printOnce dialect (format.length + 1) format progress
    let isDone := after.isOver || after.failure.isSome || after.arguments.isEmpty
    if isDone || after.arguments.length = progress.arguments.length then after
    else printAll dialect format fuel after

/-- What a format has printed. -/
structure Result where
  printed : String
  /-- Complaints about arguments. -/
  complaints : List String
  /-- Why printing came to a halt. -/
  failure : Option String
  /-- The arguments that were not used. -/
  excess : List String

/-- What a format prints for some arguments. -/
def print (dialect : Dialect) (format : String) (arguments : List String) : Result :=
  let progress := printAll dialect format.toList (arguments.length + 1) { arguments }
  { printed := String.ofList progress.printed.reverse.flatten
    complaints := progress.complaints
    failure := progress.failure
    excess := if progress.isOver then [] else progress.arguments }

end SketchApk.Format
