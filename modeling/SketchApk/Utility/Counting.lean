import SketchApk.Utility.Format
import SketchApk.Utility.Printing

/-!
# Counting and comparing

The numbers of lines, words and bytes in files, and the first place at which two files differ.

## Main definitions

* `Utility.TextCount` : what is counted.
* `Utility.countFiles` : the counts of files.
* `Utility.compareFiles` : the first difference of two files.
-/

namespace SketchApk.Utility

/-- What is counted in a text. -/
structure TextCount where
  lines : Nat := 0
  words : Nat := 0
  bytes : Nat := 0
  /-- The number of columns of the longest line. -/
  width : Nat := 0
  /-- The text up to here ends in a word. -/
  inWord : Bool := false
  /-- The column that has been reached. -/
  column : Nat := 0

namespace TextCount

/-- The counts after a further character. -/
def add (count : TextCount) (c : Char) : TextCount :=
  let isSpace := Text.isSpacing c
  let column :=
    if c = '\n' || c = '\r' || c = Char.ofNat 12 then 0
    else if c = '\t' then count.column + 8 - count.column % 8
    else if 0x20 ≤ c.toNat && c.toNat ≤ 0x7e then count.column + 1
    else count.column
  { lines := if c = '\n' then count.lines + 1 else count.lines
    words := if isSpace || count.inWord then count.words else count.words + 1
    bytes := count.bytes + 1
    width := max count.width (max count.column column)
    inWord := !isSpace
    column }

/-- The counts of several texts together. -/
def plus (count other : TextCount) : TextCount :=
  { lines := count.lines + other.lines
    words := count.words + other.words
    bytes := count.bytes + other.bytes
    width := max count.width other.width }

end TextCount

/-- The size of an input if it is a regular file, or nothing if it is of another kind. The failure to
find it is apart. -/
def inputSize (path : String) : Work (Except FileError (Option Nat)) := do
  let sizeOf : Node → Option Nat
    | .file _ content => some content.toBytes.size
    | _ => none
  if path = "-" then
    match ← Steps.call (.position 0) with
    | some (place, _) =>
      match ← nodeAt? (Octets.ofText ("/" ++ "/".intercalate place)) true with
      | .ok (_, node) => return .ok (sizeOf node)
      | .error _ => return .ok none
    | none => return .ok none
  else return (← nodeAt? path true).map fun found => sizeOf found.2

/-- The sizes of inputs. -/
def inputSizes : List String → Work (List (Except FileError (Option Nat)))
  | [] => return []
  | path :: rest => do
    let size ← inputSize path
    return size :: (← inputSizes rest)

/-- The number of columns of a count. -/
def countWidth (isSingle : Bool) (sizes : List (Except FileError (Option Nat))) : Nat :=
  match sizes with
  | [] | [_] => if isSingle then 1 else widthOf sizes
  | _ => widthOf sizes
where
  /-- The number of columns for the sum of all sizes. -/
  widthOf (sizes : List (Except FileError (Option Nat))) : Nat :=
    let known := sizes.filterMap Except.toOption
    let total := (known.filterMap id).foldl (· + ·) 0
    max (Text.decimal total).length (if known.any Option.isNone then 7 else 1)

/-- Count the lines, words and bytes of files. -/
def countFiles : Utility := fun arguments => do
  let table : OptionTable :=
    { letters := "clLmw"
      long := [⟨"bytes", 'c', false, false⟩, ⟨"chars", 'm', false, false⟩,
        ⟨"lines", 'l', false, false⟩, ⟨"words", 'w', false, false⟩,
        ⟨"max-line-length", 'L', false, false⟩] }
  let given ← table.parse arguments
  let wanted := ['l', 'w', 'm', 'c', 'L'].filter given.has
  let shown := if wanted.isEmpty then ['l', 'w', 'c'] else wanted
  let operands := if given.operands.isEmpty then ["-"] else given.operands
  let width := countWidth (shown.length = 1) (← inputSizes operands)
  let print (count : TextCount) (name : Option String) : Work Unit :=
    let numbers := shown.map fun letter =>
      let number :=
        match letter with
        | 'l' => count.lines
        | 'w' => count.words
        | 'L' => count.width
        | _ => count.bytes
      String.ofList (Text.padStart ' ' width (Text.decimal number))
    emitLine (" ".intercalate numbers ++ ((name.map (" " ++ ·)).getD ""))
  let (total, status) ← forInputs nameAndReason (fun (total : TextCount) path descriptor => do
    let name := if given.operands.isEmpty then none else some path
    let result ← forPieces descriptor (fun (count : TextCount) piece =>
      return (piece.foldl TextCount.add count, false)) Steps.manyTimes {}
    match result with
    | .ok (count, _) =>
      print count name
      return (total.plus count, true)
    | .error error =>
      complain (nameAndReason path error)
      print {} name
      return (total, false)) given.operands {}
  if 1 < operands.length then print total (some "total")
  return status

/-- The first place at which two texts differ: the offset from one on, the line, and the characters. -/
def firstDifference : (offset line : Nat) → List Char → List Char →
    Option (Nat × Nat × Char × Char)
  | offset, line, c :: rest, d :: other =>
    if c = d then firstDifference (offset + 1) (if c = '\n' then line + 1 else line) rest other
    else some (offset, line, c, d)
  | _, _, _, _ => none

/-- The octal digits of a character in a field. -/
def octalField (c : Char) : String :=
  String.ofList (Text.padStart ' ' 3 (Nat.toDigits 8 c.toNat))

/-- The lines that list all differences of two texts. -/
def allDifferences (width : Nat) : (offset : Nat) → List Char → List Char → List String
  | offset, c :: rest, d :: other =>
    let more := allDifferences width (offset + 1) rest other
    if c = d then more
    else
      (String.ofList (Text.padStart ' ' width (Text.decimal offset)) ++ " " ++ octalField c ++ " " ++
        octalField d ++ "\n") :: more
  | _, _, _ => []

/-- Compare two files. -/
def compareFiles : Utility := fun arguments => do
  let table : OptionTable :=
    { letters := "bi:ln:s"
      long := [⟨"silent", 's', false, false⟩, ⟨"quiet", 's', false, false⟩,
        ⟨"verbose", 'l', false, false⟩, ⟨"bytes", 'n', true, false⟩]
      failure := 2 }
  let given ← table.parse arguments
  match given.operands with
  | [] =>
    complain ("missing operand after " ++ cited ((← get).name))
    complain "Try 'cmp --help' for more information."
    return 2
  | first :: others =>
    let second := others.headD "-"
    let read (path : String) : Work (List Char) := do
      match ← readFile path with
      | .ok text =>
        match (given.value? 'n').bind scaledNumber? with
        | some count => return text.toList.take count
        | none => return text.toList
      | .error error =>
        unless given.has 's' && error ≠ .isADirectory do
          complain (path ++ ": " ++ error.reason)
        throw 2
    let left ← read first
    let right ← read second
    match firstDifference 1 1 left right with
    | some (offset, line, c, d) =>
      if given.has 's' then return 1
      else if given.has 'l' then
        let width := (Text.decimal (min left.length right.length)).length
        emit (String.join (allDifferences width 1 left right))
      else
        let bytes :=
          if given.has 'b' then
            " is " ++ octalField c ++ " " ++ String.ofList (visible c) ++ " " ++ octalField d ++ " " ++
              String.ofList (visible d)
          else ""
        emitLine (first ++ " " ++ second ++ " differ: char " ++ toString offset ++ ", line " ++
          toString line ++ bytes)
      return 1
    | none =>
      if left.length = right.length then return 0
      else
        unless given.has 's' do
          let (name, shorter) := if left.length < right.length then (first, left) else (second, right)
          if shorter.isEmpty then
            complain ("EOF on " ++ shown name ++ " which is empty")
          else
            let lines := shorter.count '\n'
            let place :=
              if shorter.getLast? = some '\n' then "line " ++ toString lines
              else "in line " ++ toString (lines + 1)
            complain ("EOF on " ++ shown name ++ " after byte " ++ toString shorter.length ++
              (if given.has 'l' then "" else ", " ++ place))
        return 1

end SketchApk.Utility
