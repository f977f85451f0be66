import SketchApk.Toolchain.Quoted

/-!
# Numbers, truth values and moments of toolchain descriptions

A description is written in TOML. Its numbers may have underscores between digits. Whole numbers are
written in base ten, or behind a mark in another base, and fit into 64 bits with a sign; other
numbers have a fraction, an exponent or both, or are written as words. Moments consist of a date, of
a time, or of both, in which case a distance from universal time may follow.

Nothing in the description of a toolchain depends on these values, but a text in which one of them
is misspelt is not TOML. So each reader takes a text and gives what follows the value in front.

## Main definitions

* `Description.scalar?` : what follows a number, a truth value or a moment.
-/

namespace SketchApk.Description

/-- The further digits of a number, each of which an underscore may precede, and what follows. -/
def moreDigits (isDigit : Char → Bool) : List Char → List Char × List Char
  | [] => ([], [])
  | ['_'] => ([], ['_'])
  | '_' :: c :: rest =>
    if isDigit c then
      let (digits, rest) := moreDigits isDigit rest
      (c :: digits, rest)
    else ([], '_' :: c :: rest)
  | c :: rest =>
    if isDigit c then
      let (digits, rest) := moreDigits isDigit rest
      (c :: digits, rest)
    else ([], c :: rest)

/-- Digits with underscores between them, and what follows. -/
def digits? (isDigit : Char → Bool) : List Char → Option (List Char × List Char)
  | [] => none
  | c :: rest =>
    if isDigit c then
      let (digits, rest) := moreDigits isDigit rest
      some (c :: digits, rest)
    else none

/-- The number that some digits spell in a base. -/
def valueOf (base : Nat) (digits : List Char) : Nat :=
  digits.foldl (fun n c => base * n + (hexDigit? c).getD 0) 0

/-- The text without a sign in front, and whether it was a minus. -/
def dropSign : List Char → Bool × List Char
  | '+' :: rest => (false, rest)
  | '-' :: rest => (true, rest)
  | text => (false, text)

/-- The digits of a whole number in base ten, which has no needless zero in front, and what
follows. -/
def decimal? : List Char → Option (List Char × List Char)
  | '0' :: rest => some (['0'], rest)
  | text => digits? Char.isDigit text

/-- What follows a whole number in another base, behind its mark. -/
def based? (base : Nat) (text : List Char) : Option (List Char) := do
  let (digits, rest) ← digits? (fun c => (hexDigit? c).any (· < base)) text
  if valueOf base digits < 0x8000000000000000 then some rest else none

/-- What follows a whole number. -/
def integer? : List Char → Option (List Char)
  | '0' :: 'x' :: rest => based? 16 rest
  | '0' :: 'o' :: rest => based? 8 rest
  | '0' :: 'b' :: rest => based? 2 rest
  | text => do
    let (isNegative, unsigned) := dropSign text
    let (digits, rest) ← decimal? unsigned
    let bound := if isNegative then 0x8000000000000001 else 0x8000000000000000
    if valueOf 10 digits < bound then some rest else none

/-- An exponent behind its letter, as its sign and its digits, and what follows. -/
def exponent? : List Char → Option (Bool × List Char × List Char)
  | c :: rest =>
    if c = 'e' || c = 'E' then do
      let (isNegative, unsigned) := dropSign rest
      let (digits, rest) ← digits? Char.isDigit unsigned
      some (isNegative, digits, rest)
    else none
  | [] => none

/-- The least number that is rounded to infinity. -/
def overflowBound : Nat :=
  (1 <<< 1024) - (1 <<< 970)

/-- A number counts as infinite; it has some digits, the last `places` of which are a fraction, and
an exponent. -/
def overflows (digits : List Char) (places : Nat) (isNegative : Bool) (exponent : Nat) : Bool :=
  let mantissa := valueOf 10 digits
  if mantissa = 0 then false
  else if isNegative then
    exponent < digits.length &&
      overflowBound * Nat.pow 10 (places + exponent) ≤ mantissa
  else if 400 + places < exponent then true
  else overflowBound * Nat.pow 10 places ≤ mantissa * Nat.pow 10 exponent

/-- What follows a number with a fraction or an exponent. A positive one may not be too large. -/
def fractional? (text : List Char) : Option (List Char) := do
  let (isNegative, unsigned) := dropSign text
  let (whole, rest) ← decimal? unsigned
  let (fraction, rest) ←
    match rest with
    | '.' :: behind => digits? Char.isDigit behind
    | _ => if (exponent? rest).isSome then some ([], rest) else none
  let (isSmall, exponent, rest) := (exponent? rest).getD (false, [], rest)
  if !isNegative && overflows (whole ++ fraction) fraction.length isSmall (valueOf 10 exponent) then
    none
  else some rest

/-- What follows one of some words. -/
def word? (words : List String) (text : List Char) : Option (List Char) :=
  (words.find? fun word => word.toList.isPrefixOf text).map fun word => text.drop word.length

/-- What follows a number that is written as a word. -/
def numberWord? (text : List Char) : Option (List Char) :=
  word? ["inf", "nan"] (dropSign text).2

/-- A number of exactly `count` digits, which has to lie between two bounds, and what follows. -/
def fixed? (count low high : Nat) (text : List Char) : Option (Nat × List Char) :=
  let digits := text.take count
  let number := valueOf 10 digits
  if digits.length = count && digits.all Char.isDigit && low ≤ number && number ≤ high then
    some (number, text.drop count)
  else none

/-- What follows a character. -/
def mark? (c : Char) : List Char → Option (List Char)
  | d :: rest => if d = c then some rest else none
  | [] => none

/-- The number of days of a month. -/
def daysOf (year month : Nat) : Nat :=
  if month = 2 then
    if year % 4 = 0 && (year % 100 ≠ 0 || year % 400 = 0) then 29 else 28
  else if month ∈ [4, 6, 9, 11] then 30
  else 31

/-- What follows a date. -/
def date? (text : List Char) : Option (List Char) := do
  let (year, rest) ← fixed? 4 0 9999 text
  let (month, rest) ← fixed? 2 1 12 (← mark? '-' rest)
  let (_, rest) ← fixed? 2 1 (daysOf year month) (← mark? '-' rest)
  return rest

/-- What follows a time of the day. -/
def time? (text : List Char) : Option (List Char) := do
  let (_, rest) ← fixed? 2 0 23 text
  let (_, rest) ← fixed? 2 0 59 (← mark? ':' rest)
  let (_, rest) ← fixed? 2 0 60 (← mark? ':' rest)
  match rest with
  | '.' :: c :: behind =>
    if c.isDigit then return behind.dropWhile Char.isDigit else return rest
  | _ => return rest

/-- What follows a distance from universal time, which may be missing. -/
def offset (text : List Char) : List Char :=
  match text with
  | 'Z' :: rest => rest
  | 'z' :: rest => rest
  | '+' :: rest => (distance? rest).getD text
  | '-' :: rest => (distance? rest).getD text
  | _ => text
where
  /-- What follows a number of hours and minutes. -/
  distance? (text : List Char) : Option (List Char) := do
    let (_, rest) ← fixed? 2 0 23 text
    let (_, rest) ← fixed? 2 0 59 (← mark? ':' rest)
    return rest

/-- What follows a moment. -/
def moment? (text : List Char) : Option (List Char) :=
  match date? text with
  | none => time? text
  | some rest =>
    match rest with
    | c :: behind =>
      if c = 'T' || c = 't' || c = ' ' then
        match time? behind with
        | some rest => some (offset rest)
        | none => some rest
      else some rest
    | [] => some []

/-- What follows a number, a truth value or a moment. -/
def scalar? (text : List Char) : Option (List Char) :=
  ((((word? ["true", "false"] text).or (moment? text)).or (fractional? text)).or
    (numberWord? text)).or (integer? text)

end SketchApk.Description
