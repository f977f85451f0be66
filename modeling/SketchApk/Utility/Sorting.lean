import SketchApk.Utility.Ordering

/-!
# Utilities for sorted lines

Sorting lines, leaving out repeated ones, and comparing sorted files.

## Main definitions

* `Utility.sortLines` : lines in order.
* `Utility.uniteLines` : neighbouring lines that are equal, once.
* `Utility.compareSorted` : the lines that two files have in common.
-/

namespace SketchApk.Utility

/-- The order that options ask for, or a complaint. -/
def lineOrder (given : Arguments) : Except String LineOrder := do
  let wholeOrder := ['b', 'd', 'f', 'g', 'h', 'i', 'M', 'n', 'r', 'V'].foldl
    (fun (order : KeyOrder) letter =>
      if given.has letter then
        ((order.withLetter? false letter).bind fun changed =>
          if letter = 'b' then changed.withLetter? true 'b' else some changed).getD order
      else order) {}
  let keys ← (given.values 'k').mapM SortKey.read
  let separator ←
    match given.value? 't' with
    | none => pure none
    | some "" => throw "empty tab"
    | some "\\0" => pure (some (Char.ofNat 0))
    | some text =>
      match text.toList with
      | [c] => pure (some c)
      | _ => throw ("multi-character tab " ++ cited text)
  let settled :=
    if keys.isEmpty then (if wholeOrder = {} then [] else [{ order := wholeOrder }])
    else keys.map fun key => if key.order = {} then { key with order := wholeOrder } else key
  return {
    keys := settled, separator
    isByKeys := (given.has 's' || given.has 'u') && !settled.isEmpty
    isReversed := given.has 'r' }

/-- Lines without those that are equal to the one before. -/
def withoutRepeats (order : LineOrder) : List (List Char) → List (List Char)
  | a :: b :: rest =>
    if order.compare a b = .eq then withoutRepeats order (a :: rest)
    else a :: withoutRepeats order (b :: rest)
  | lines => lines
termination_by lines => lines.length

/-- The first line that is out of order, with its number. -/
def disorder? (order : LineOrder) (isStrict : Bool) : (number : Nat) → List (List Char) →
    Option (Nat × List Char)
  | number, a :: b :: rest =>
    let result := order.compare a b
    if result = .gt || (isStrict && result = .eq) then some (number + 1, b)
    else disorder? order isStrict (number + 1) (b :: rest)
  | _, _ => none

/-- The lines of several files. -/
def readLines (ending : Char) : List String → Work (List (List Char))
  | [] => return []
  | path :: rest => do
    match ← openInput path with
    | .error error => giveUp 2 ("cannot read: " ++ nameAndReason path error)
    | .ok descriptor =>
      match ← Steps.readAll descriptor with
      | .error error => giveUp 2 ("read failed: " ++ nameAndReason path error)
      | .ok text =>
        closeInput descriptor
        let lines := (linesOf ending text.toList).map (·.text)
        return lines ++ (← readLines ending rest)

/-- Sort lines. -/
def sortLines : Utility := fun arguments => do
  let table : OptionTable :=
    { letters := "bcCdfghiMmno:rRsS:t:T:uVk:z"
      long := [⟨"reverse", 'r', false, false⟩, ⟨"numeric-sort", 'n', false, false⟩,
        ⟨"unique", 'u', false, false⟩, ⟨"key", 'k', true, false⟩,
        ⟨"field-separator", 't', true, false⟩, ⟨"output", 'o', true, false⟩,
        ⟨"stable", 's', false, false⟩, ⟨"ignore-case", 'f', false, false⟩,
        ⟨"ignore-leading-blanks", 'b', false, false⟩, ⟨"check", 'c', true, true⟩,
        ⟨"version-sort", 'V', false, false⟩, ⟨"human-numeric-sort", 'h', false, false⟩,
        ⟨"general-numeric-sort", 'g', false, false⟩, ⟨"merge", 'm', false, false⟩,
        ⟨"dictionary-order", 'd', false, false⟩, ⟨"zero-terminated", 'z', false, false⟩,
        ⟨"month-sort", 'M', false, false⟩, ⟨"parallel", 'P', true, false⟩]
      failure := 2 }
  let given ← table.parse arguments
  let order ←
    match lineOrder given with
    | .ok order => pure order
    | .error message => giveUp 2 message
  let ending := if given.has 'z' then Char.ofNat 0 else '\n'
  let operands := if given.operands.isEmpty then ["-"] else given.operands
  let lines ← readLines ending operands
  if given.has 'c' || given.has 'C' then
    match disorder? order (given.has 'u') 1 lines with
    | none => return 0
    | some (number, line) =>
      if given.has 'c' && given.value? 'c' ≠ some "quiet" && given.value? 'c' ≠ some "silent" then
        complain (operands.headD "-" ++ ":" ++ toString number ++ ": disorder: " ++
          String.ofList line)
      return 1
  else
    let sorted := lines.mergeSort fun a b => order.compare a b ≠ .gt
    let kept := if given.has 'u' then withoutRepeats order sorted else sorted
    let text := String.ofList (kept.flatMap (· ++ [ending]))
    match given.value? 'o' with
    | none => emit text
    | some path =>
      match ← Steps.call (.openFile (Octets.toPath path) .write) with
      | .error error => giveUp 2 ("open failed: " ++ nameAndReason path error)
      | .ok descriptor =>
        discard (Steps.write descriptor text)
        Steps.call (.close descriptor)
    return 0

/-- The part of a line that is compared with its neighbour. -/
def comparedPart (given : Arguments) (line : List Char) : List Char :=
  let number (letter : Char) : Option Nat := (given.value? letter).bind String.toNat?
  let behindFields := dropFields none ((number 'f').getD 0) line
  let behind := behindFields.drop ((number 's').getD 0)
  let part :=
    match number 'w' with
    | some width => behind.take width
    | none => behind
  if given.has 'i' then part.map Char.toUpper else part

/-- Runs of neighbouring lines that are equal. -/
def runsOf (key : List Char → List Char) : List (List Char) → List (List (List Char))
  | [] => []
  | line :: rest =>
    match runsOf key rest with
    | (next :: more) :: runs =>
      if key line = key next then (line :: next :: more) :: runs
      else [line] :: (next :: more) :: runs
    | runs => [line] :: runs

/-- Print neighbouring lines that are equal only once. -/
def uniteLines : Utility := fun arguments => do
  let table : OptionTable :=
    { letters := "cdDf:is:uw:z"
      long := [⟨"count", 'c', false, false⟩, ⟨"repeated", 'd', false, false⟩,
        ⟨"all-repeated", 'D', true, true⟩, ⟨"skip-fields", 'f', true, false⟩,
        ⟨"ignore-case", 'i', false, false⟩, ⟨"skip-chars", 's', true, false⟩,
        ⟨"unique", 'u', false, false⟩, ⟨"check-chars", 'w', true, false⟩,
        ⟨"zero-terminated", 'z', false, false⟩] }
  let given ← table.parse arguments
  let ending := if given.has 'z' then Char.ofNat 0 else '\n'
  match given.operands with
  | _ :: _ :: extra :: _ => giveUpUsage 1 ("extra operand " ++ cited extra)
  | operands =>
    let path := operands.headD "-"
    match ← readFile path with
    | .error error =>
      giveUp 1 ((if error = .isADirectory then "error reading " ++ quoted path else shown path) ++
        ": " ++ error.reason)
    | .ok text =>
      let runs := runsOf (comparedPart given) ((linesOf ending text.toList).map (·.text))
      let printed := runs.flatMap fun run =>
        let isRepeated := 1 < run.length
        if given.has 'D' then (if isRepeated then run else [])
        else if (given.has 'd' && !isRepeated) || (given.has 'u' && isRepeated) then []
        else
          let count :=
            if given.has 'c' then Text.padStart ' ' 7 (Text.decimal run.length) ++ [' '] else []
          [count ++ run.headD []]
      let output := String.ofList (printed.flatMap (· ++ [ending]))
      match operands with
      | [_, target] =>
        match ← Steps.call (.openFile (Octets.toPath target) .write) with
        | .error error => giveUp 1 (nameAndReason target error)
        | .ok descriptor => discard (Steps.write descriptor output)
      | _ => emit output
      return 0

/-- How far two sorted files have been compared. -/
structure Comparison where
  /-- The lines with their columns, the last one first: the lines of one file and of the other, and those
  of both. -/
  lines : List (Nat × List Char) := []
  hasUnpaired : Bool := false
  /-- The files that are out of order. -/
  unsorted : List Nat := []

namespace Comparison

/-- A line has been put into a column. -/
def add (column : Nat) (line : List Char) (state : Comparison) : Comparison :=
  { state with
    lines := (column, line) :: state.lines
    hasUnpaired := state.hasUnpaired || column ≠ 3 }

/-- A line of a file has been left behind, where others follow. -/
def leave (checks : Bool) (file : Nat) (line : List Char) (rest : List (List Char))
    (state : Comparison) : Comparison :=
  let isDisordered := rest.head?.any fun next => compareTexts line next = .gt
  if checks && state.hasUnpaired && file ∉ state.unsorted && isDisordered then
    { state with unsorted := state.unsorted ++ [file] }
  else state

/-- The number of lines in a column. -/
def count (state : Comparison) (column : Nat) : Nat :=
  state.lines.countP (·.1 = column)

end Comparison

/-- Compare two files line by line. At most `fuel` lines are dealt with. -/
def compareLines (checks : Bool) : (fuel : Nat) → (left right : List (List Char)) → Comparison →
    Comparison
  | 0, _, _, state => state
  | _ + 1, [], [], state => state
  | fuel + 1, a :: rest, [], state =>
    compareLines checks fuel rest [] ((state.add 1 a).leave checks 1 a rest)
  | fuel + 1, [], b :: rest, state =>
    compareLines checks fuel [] rest ((state.add 2 b).leave checks 2 b rest)
  | fuel + 1, a :: restA, b :: restB, state =>
    match compareTexts a b with
    | .lt => compareLines checks fuel restA (b :: restB) ((state.add 1 a).leave checks 1 a restA)
    | .gt => compareLines checks fuel (a :: restA) restB ((state.add 2 b).leave checks 2 b restB)
    | .eq =>
      compareLines checks fuel restA restB
        (((state.add 3 a).leave checks 1 a restA).leave checks 2 b restB)

/-- Print the lines that two sorted files have in common, and those of each of them, in columns. -/
def compareSorted : Utility := fun arguments => do
  let table : OptionTable :=
    { letters := "123z"
      long := [⟨"output-delimiter", 'd', true, false⟩, ⟨"total", 't', false, false⟩,
        ⟨"check-order", 'k', false, false⟩, ⟨"nocheck-order", 'n', false, false⟩] }
  let given ← table.parse arguments
  match given.operands with
  | [] => giveUpUsage 1 "missing operand"
  | [path] => giveUpUsage 1 ("missing operand after " ++ cited path)
  | _ :: _ :: extra :: _ => giveUpUsage 1 ("extra operand " ++ cited extra)
  | [first, second] =>
    let read (path : String) : Work (List (List Char)) := do
      match ← readFile path with
      | .ok text => return (linesOf '\n' text.toList).map (·.text)
      | .error error => giveUp 1 (nameAndReason path error)
    let left ← read first
    let right ← read second
    let delimiter := (given.value? 'd').getD "\t"
    let isHidden (column : Nat) : Bool := given.has (Char.ofNat (0x30 + column))
    let front (column : Nat) : String :=
      String.join (((List.range column).filter fun other => 0 < other && !isHidden other).map
        fun _ => delimiter)
    let result := compareLines (!given.has 'n') (left.length + right.length + 1) left right
      { hasUnpaired := given.has 'k' }
    emit (String.join ((result.lines.reverse.filter (!isHidden ·.1)).map fun (column, line) =>
      front column ++ String.ofList line ++ "\n"))
    if given.has 't' then
      let counts := [1, 2, 3].map fun column => toString (result.count column) ++ delimiter
      emitLine (String.join counts ++ "total")
    for file in result.unsorted do
      complain ("file " ++ toString file ++ " is not in sorted order")
    if result.unsorted.isEmpty then return 0
    else
      complain "input is not in sorted order"
      return 1

end SketchApk.Utility
