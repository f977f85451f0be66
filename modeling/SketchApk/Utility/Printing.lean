import SketchApk.Utility.Input

/-!
# Utilities that print files

Files are printed one after the other, in part, backwards, with numbers in front of their lines, or side
by side.

## Main definitions

* `Utility.concatenate` : files one after the other.
* `Utility.printHeads`, `Utility.printTails` : the beginning or the end of files.
* `Utility.pasteFiles` : files side by side.
-/

namespace SketchApk.Utility

/-- How a file is printed. -/
structure PrintStyle where
  numbersAll : Bool := false
  numbersFull : Bool := false
  squeezes : Bool := false
  showsEnds : Bool := false
  showsTabs : Bool := false
  showsControls : Bool := false

/-- How far files have been printed. -/
structure PrintState where
  number : Nat := 0
  wasEmpty : Bool := false
  isInside : Bool := false

/-- A character in a visible form. -/
def visible (c : Char) : List Char :=
  let plain (code : Nat) : List Char :=
    if code < 32 then ['^', Char.ofNat (code + 64)]
    else if code = 127 then ['^', '?']
    else [Char.ofNat code]
  if c.toNat < 128 then plain c.toNat else ['M', '-'] ++ plain (c.toNat - 128)

namespace PrintStyle

variable (style : PrintStyle)

/-- The style changes what is printed. -/
def changesText : Bool :=
  style.numbersAll || style.numbersFull || style.squeezes || style.showsEnds || style.showsTabs ||
    style.showsControls

/-- A character as it is printed. -/
def character (c : Char) : List Char :=
  if c = '\t' then (if style.showsTabs then ['^', 'I'] else ['\t'])
  else if style.showsControls then visible c
  else [c]

/-- A line as it is printed. -/
def line (state : PrintState) (line : Line) : Dealt PrintState :=
  let isEmpty := line.text.isEmpty && !state.isInside
  if style.squeezes && isEmpty && state.wasEmpty then { value := state }
  else
    let isNumbered := !state.isInside &&
      (if style.numbersFull then !isEmpty else style.numbersAll)
    let number := if isNumbered then state.number + 1 else state.number
    let front := if isNumbered then Text.padStart ' ' 6 (Text.decimal number) ++ ['\t'] else []
    let hasReturn := style.showsEnds && line.isEnded && !style.showsControls &&
      line.text.getLast? = some '\r'
    let text := if hasReturn then line.text.dropLast else line.text
    let ending :=
      if line.isEnded then
        (if hasReturn then ['^', 'M'] else []) ++ (if style.showsEnds then ['$'] else []) ++ ['\n']
      else []
    { value := { number, wasEmpty := isEmpty && line.isEnded, isInside := !line.isEnded }
      printed := front ++ text.flatMap style.character ++ ending }

end PrintStyle

/-- What is read from a descriptor is what is written to the standard output. -/
def readsOwnOutput (descriptor : Nat) : Work Bool := do
  match ← Steps.call (.position descriptor), ← Steps.call (.position 1) with
  | some (place, offset), some (other, end_) => return place = other && offset < end_
  | _, _ => return false

/-- Print files one after the other. -/
def concatenate : Utility := fun arguments => do
  let table : OptionTable :=
    { letters := "AbeEnstTuv"
      long := [⟨"show-all", 'A', false, false⟩, ⟨"number-nonblank", 'b', false, false⟩,
        ⟨"show-ends", 'E', false, false⟩, ⟨"number", 'n', false, false⟩,
        ⟨"squeeze-blank", 's', false, false⟩, ⟨"show-tabs", 'T', false, false⟩,
        ⟨"show-nonprinting", 'v', false, false⟩] }
  let given ← table.parse arguments
  let style : PrintStyle :=
    { numbersAll := given.has 'n'
      numbersFull := given.has 'b'
      squeezes := given.has 's'
      showsEnds := given.has 'A' || given.has 'e' || given.has 'E'
      showsTabs := given.has 'A' || given.has 't' || given.has 'T'
      showsControls := given.has 'A' || given.has 'e' || given.has 't' || given.has 'v' }
  let (_, status) ← forInputs nameAndReason (fun (state : PrintState) path descriptor => do
    if ← readsOwnOutput descriptor then
      complain (shown path ++ ": input file is output file")
      return (state, false)
    else
      let result ←
        if style.changesText then forLines descriptor '\n' style.line state
        else
          forPieces descriptor (fun state piece => do
            emit (String.ofList piece)
            return (state, false)) Steps.manyTimes state
      match result with
      | .ok (state, _) => return (state, true)
      | .error error =>
        complain (nameAndReason path error)
        return (state, false)) given.operands {}
  return status

/-- A part of a file at its beginning or its end. -/
inductive Extent where
  /-- As many lines or bytes. -/
  | count (number : Nat)
  /-- All but as many lines or bytes. -/
  | allBut (number : Nat)

/-- How the part of a file is measured. -/
structure Measure where
  extent : Extent
  inBytes : Bool
  ending : Char := '\n'

/-- Print headers in front of files, if they are wanted. -/
def printHeader (isShown isFirst : Bool) (path : String) : Work Unit := do
  if isShown then
    let name := if path = "-" then "standard input" else path
    emit ((if isFirst then "" else "\n") ++ "==> " ++ name ++ " <==\n")

/-- Arguments in which a number behind a dash in front is turned into an option. -/
def withoutNumberOption (arguments : List String) : List String :=
  match arguments with
  | first :: rest =>
    match first.toList with
    | '-' :: c :: more =>
      if c.isDigit then
        let digits := (c :: more).takeWhile Char.isDigit
        let letters := (c :: more).dropWhile Char.isDigit
        let option := if 'c' ∈ letters then "-c" else "-n"
        let others := letters.filter fun letter => letter = 'q' || letter = 'v'
        (option ++ String.ofList digits) :: (others.map fun letter => "-" ++ letter.toString) ++ rest
      else arguments
    | _ => arguments
  | [] => []

/-- What is printed of the beginning of a file. -/
def printHead (measure : Measure) (descriptor : Nat) : Work (Except FileError Unit) := do
  match measure.extent, measure.inBytes with
  | .count 0, _ => return .ok ()
  | .count number, false =>
    let result ← forLines descriptor measure.ending (fun (left : Nat) line =>
      { value := left - 1, printed := line.toList measure.ending, isDone := left ≤ 1 }) number
    return result.map fun _ => ()
  | .allBut number, false =>
    let result ← forLines descriptor measure.ending (fun (held : List Line) line =>
      let all := held ++ [line]
      if all.length ≤ number then { value := all }
      else { value := all.drop 1, printed := (all.headD line).toList measure.ending }) []
    return result.map fun _ => ()
  | .count number, true =>
    let result ← forPieces descriptor (fun (left : Nat) piece => do
      emit (String.ofList (piece.take left))
      if left ≤ piece.length then
        Steps.call (.rewind descriptor (piece.length - left))
        return (0, true)
      else return (left - piece.length, false)) Steps.manyTimes number
    return result.map fun _ => ()
  | .allBut number, true =>
    let result ← forPieces descriptor (fun (held : List Char) piece => do
      let all := held ++ piece
      let count := all.length - number
      emit (String.ofList (all.take count))
      return (all.drop count, false)) Steps.manyTimes []
    return result.map fun _ => ()

/-- What is printed of the end of a file. -/
def printTail (measure : Measure) (descriptor : Nat) : Work (Except FileError Unit) := do
  match measure.extent with
  | .count number =>
    match ← Steps.readAll descriptor with
    | .error error => return .error error
    | .ok text =>
      let chars := text.toList
      let kept :=
        if measure.inBytes then chars.drop (chars.length - number)
        else
          let lines := linesOf measure.ending chars
          (lines.drop (lines.length - number)).flatMap fun line => line.toList measure.ending
      emit (String.ofList kept)
      return .ok ()
  | .allBut number =>
    if measure.inBytes then
      let result ← forPieces descriptor (fun (left : Nat) piece => do
        emit (String.ofList (piece.drop left))
        return (left - piece.length, false)) Steps.manyTimes number
      return result.map fun _ => ()
    else
      let result ← forLines descriptor measure.ending (fun (left : Nat) line =>
        { value := left - 1
          printed := if left = 0 then line.toList measure.ending else [] }) number
      return result.map fun _ => ()

/-- Print a part of each file. The extent that an option asks for depends on the sign in front of its
number. -/
def printParts (extentOf : Option Char → Nat → Extent)
    (print : Measure → Nat → Work (Except FileError Unit)) : Utility := fun arguments => do
  let table : OptionTable :=
    { letters := "c:n:qvzfFs:"
      long := [⟨"bytes", 'c', true, false⟩, ⟨"lines", 'n', true, false⟩,
        ⟨"quiet", 'q', false, false⟩, ⟨"silent", 'q', false, false⟩,
        ⟨"verbose", 'v', false, false⟩, ⟨"zero-terminated", 'z', false, false⟩,
        ⟨"follow", 'f', true, true⟩] }
  let given ← table.parse (withoutNumberOption arguments)
  let inBytes := given.last? ['c', 'n'] = some 'c'
  let text := (given.value? (if inBytes then 'c' else 'n')).getD "10"
  let (sign, digits) : Option Char × String :=
    match text.toList with
    | '-' :: rest => (some '-', String.ofList rest)
    | '+' :: rest => (some '+', String.ofList rest)
    | _ => (none, text)
  let extent ←
    match scaledNumber? digits with
    | some number => pure (extentOf sign number)
    | none =>
      let unit := if inBytes then "bytes" else "lines"
      giveUp 1 ("invalid number of " ++ unit ++ ": " ++ cited text)
  let measure : Measure :=
    { extent, inBytes, ending := if given.has 'z' then Char.ofNat 0 else '\n' }
  let hasHeaders :=
    match given.last? ['q', 'v'] with
    | some 'q' => false
    | some _ => true
    | none => 1 < given.operands.length
  let (_, status) ← forInputs cannotOpenToRead (fun (isFirst : Bool) path descriptor => do
    printHeader hasHeaders isFirst path
    match ← print measure descriptor with
    | .ok () => return (false, true)
    | .error error =>
      complain ("error reading " ++ quoted path ++ ": " ++ error.reason)
      return (false, false)) given.operands true
  return status

/-- Print the beginning of each file. -/
def printHeads : Utility :=
  printParts (fun sign number => if sign = some '-' then .allBut number else .count number) printHead

/-- Print the end of each file. -/
def printTails : Utility := fun arguments =>
  let isStart (text : String) : Bool :=
    match text.toList with
    | '+' :: c :: rest => (c :: rest).all Char.isDigit
    | _ => false
  let settled :=
    match arguments with
    | first :: rest => if isStart first then ("-n" ++ first) :: rest else arguments
    | [] => []
  printParts (fun sign number => if sign = some '+' then .allBut (number - 1) else .count number)
    printTail settled

/-- Print the lines of files backwards. -/
def printBackwards : Utility := fun arguments => do
  let table : OptionTable := { letters := "brs:" }
  let given ← table.parse arguments
  let (_, status) ← forInputs (fun path error =>
      "failed to open " ++ quoted path ++ " for reading: " ++ error.reason)
    (fun () path descriptor => do
      match ← Steps.readAll descriptor with
      | .ok text =>
        let lines := (linesOf '\n' text.toList).map fun line => line.toList '\n'
        emit (String.ofList lines.reverse.flatten)
        return ((), true)
      | .error error =>
        complain (shown path ++ ": read error: " ++ error.reason)
        return ((), false)) given.operands ()
  return status

/-- Print each line of files backwards. -/
def printReversedLines : Utility := fun arguments => do
  let (_, status) ← forInputs (fun path error => "cannot open " ++ path ++ ": " ++ error.reason)
    (fun () path descriptor => do
      match ← forLines descriptor '\n' (fun () line =>
        { value := (), printed := { line with text := line.text.reverse }.toList '\n' }) () with
      | .ok _ => return ((), true)
      | .error error =>
        complain (path ++ ": " ++ error.reason)
        return ((), false)) arguments ()
  return status

/-- A number in front of a line. -/
def lineNumber (form : String) (width : Nat) (number : Int) : List Char :=
  let digits := Text.decimal number.natAbs
  let sign := if number < 0 then ['-'] else []
  match form with
  | "ln" => Text.padEnd width (sign ++ digits)
  | "rz" => sign ++ Text.padStart '0' (width - sign.length) digits
  | _ => Text.padStart ' ' width (sign ++ digits)

/-- Print files with numbers in front of their lines. -/
def numberLines : Utility := fun arguments => do
  let table : OptionTable :=
    { letters := "b:d:f:h:i:l:n:ps:v:w:"
      long := [⟨"body-numbering", 'b', true, false⟩, ⟨"line-increment", 'i', true, false⟩,
        ⟨"number-format", 'n', true, false⟩, ⟨"number-separator", 's', true, false⟩,
        ⟨"starting-line-number", 'v', true, false⟩, ⟨"number-width", 'w', true, false⟩] }
  let given ← table.parse arguments
  let body := (given.value? 'b').getD "t"
  let width := ((given.value? 'w').bind String.toNat?).getD 6
  let separator := (given.value? 's').getD "\t"
  let step := ((given.value? 'i').bind String.toInt?).getD 1
  let start := ((given.value? 'v').bind String.toInt?).getD 1
  let blank := List.replicate (width + separator.length) ' '
  let (_, status) ← forInputs nameAndReason (fun (number : Int) path descriptor => do
    let result ← forLines descriptor '\n' (fun (number : Int) line =>
      let isNumbered := body = "a" || (body = "t" && !line.text.isEmpty)
      if isNumbered then
        { value := number + step
          printed := lineNumber ((given.value? 'n').getD "rn") width number ++ separator.toList ++
            line.text ++ ['\n'] }
      else { value := number, printed := blank ++ line.text ++ ['\n'] }) number
    match result with
    | .ok (number, _) => return (number, true)
    | .error error =>
      complain (nameAndReason path error)
      return (number, false)) given.operands start
  return status

/-- The separators between files that are printed side by side. -/
def pasteSeparators : List Char → List (List Char)
  | '\\' :: c :: rest =>
    let meant :=
      match c with
      | 'n' => ['\n']
      | 't' => ['\t']
      | '0' => []
      | other => [other]
    meant :: pasteSeparators rest
  | c :: rest => [c] :: pasteSeparators rest
  | [] => []

/-- Texts with separators between them, which are used in turn. -/
def withSeparators (separators : List (List Char)) (number : Nat) : List (List Char) → List Char
  | [] => []
  | [text] => text
  | text :: rest =>
    text ++ (separators.getD (number % max separators.length 1) []) ++
      withSeparators separators (number + 1) rest

/-- A row of the first lines that are left of some inputs, of which each is given by a number, and the
lines that are left then. -/
def pasteRow : List Nat → List (Nat × List (List Char)) → List (Option (List Char)) ×
    List (Nat × List (List Char))
  | [], held => ([], held)
  | input :: rest, held =>
    match List.lookup input held with
    | some (line :: more) =>
      let after := held.map fun entry => if entry.1 = input then (input, more) else entry
      let (row, left) := pasteRow rest after
      (some line :: row, left)
    | _ =>
      let (row, left) := pasteRow rest held
      (none :: row, left)

/-- The rows of inputs that are printed side by side, of which there are at most `fuel`. -/
def pasteRows (inputs : List Nat) : (fuel : Nat) → List (Nat × List (List Char)) →
    List (List (List Char))
  | 0, _ => []
  | fuel + 1, held =>
    let (row, left) := pasteRow inputs held
    if row.all Option.isNone then []
    else row.map (·.getD []) :: pasteRows inputs fuel left

/-- Read the lines of files. The standard input has the number zero. -/
def readAllLines : (number : Nat) → List String → Work (List (Nat × List (List Char)))
  | _, [] => return []
  | number, path :: rest => do
    match ← readFile path with
    | .error error => giveUp 1 (nameAndReason path error)
    | .ok text =>
      let key := if path = "-" then 0 else number
      let lines := (linesOf '\n' text.toList).map (·.text)
      return (key, lines) :: (← readAllLines (number + 1) rest)

/-- Print files side by side, or the lines of each in a row. -/
def pasteFiles : Utility := fun arguments => do
  let table : OptionTable :=
    { letters := "d:sz"
      long := [⟨"delimiters", 'd', true, false⟩, ⟨"serial", 's', false, false⟩] }
  let given ← table.parse arguments
  let separators := pasteSeparators ((given.value? 'd').getD "\t").toList
  let operands := if given.operands.isEmpty then ["-"] else given.operands
  if given.has 's' then
    forEach (fun path => do
      match ← readFile path with
      | .error error => failed (nameAndReason path error)
      | .ok text =>
        let lines := (linesOf '\n' text.toList).map (·.text)
        emitLine (String.ofList (withSeparators separators 0 lines))
        return true) operands
  else
    let held ← readAllLines 1 operands
    let inputs := held.map (·.1)
    let count := held.foldl (fun count entry => count + entry.2.length) 0
    let rows := pasteRows inputs (count + 1) held
    emit (String.ofList (rows.flatMap fun row => withSeparators separators 0 row ++ ['\n']))
    return 0

/-- Open the files to which input is copied. Those that cannot be opened are complained about. -/
def openCopies (mode : OpenMode) : List String → Work (List (String × Nat) × Bool)
  | [] => return ([], true)
  | path :: rest => do
    match ← Steps.call (.openFile (Octets.toPath path) mode) with
    | .ok descriptor =>
      let (opened, isFine) ← openCopies mode rest
      return ((path, descriptor) :: opened, isFine)
    | .error error =>
      complain (nameAndReason path error)
      let (opened, _) ← openCopies mode rest
      return (opened, false)

/-- Copy the standard input to the standard output and to files. -/
def copyInput : Utility := fun arguments => do
  let table : OptionTable :=
    { letters := "aip"
      long := [⟨"append", 'a', false, false⟩, ⟨"ignore-interrupts", 'i', false, false⟩] }
  let given ← table.parse arguments
  if given.has 'i' then Steps.call (.handle .int .ignore)
  let (opened, isFine) ← openCopies (if given.has 'a' then .append else .write) given.operands
  let outputs := ("standard output", 1) :: opened
  let rec copyTo (text : String) : List (String × Nat) → Work (List (String × Nat) × Bool)
    | [] => return ([], true)
    | (path, descriptor) :: rest => do
      let written ← Steps.write descriptor text
      let (others, isFine) ← copyTo text rest
      match written with
      | .ok () => return ((path, descriptor) :: others, isFine)
      | .error error =>
        complain (nameAndReason path error)
        return (others, false)
  let result ← forPieces 0 (fun (state : List (String × Nat) × Bool) piece => do
    let (left, isFine) ← copyTo (String.ofList piece) state.1
    return ((left, state.2 && isFine), left.isEmpty)) Steps.manyTimes (outputs, isFine)
  match result with
  | .ok ((_, isFine), _) => return if isFine then 0 else 1
  | .error error =>
    complain ("read error: " ++ error.reason)
    return 1

end SketchApk.Utility
