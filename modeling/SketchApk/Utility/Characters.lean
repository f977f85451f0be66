import SketchApk.Utility.Counting

/-!
# Utilities for characters and columns

Characters are replaced or removed one by one, parts of lines are cut out, and lines are folded.

## Main definitions

* `Utility.readCharacters` : the characters that a description with ranges and classes stands for.
* `Utility.replaceCharacters` : replacing, removing and squeezing characters.
* `Utility.cutLines` : parts of lines.
* `Utility.foldLines` : lines of limited length.
-/

namespace SketchApk.Utility

/-- A part of the description of characters. -/
inductive CharacterItem where
  | character (c : Char)
  | range (first last : Char)
  | ofClass (name : String) (members : List Char)
  /-- The characters that are equivalent to a character. -/
  | equivalents (c : Char)
  /-- A character a number of times, or as often as needed. -/
  | repetition (c : Char) (count : Option Nat)

/-- The characters of all codes. -/
def allCharacters : List Char :=
  (List.range 256).map Char.ofNat

/-- The characters from a first to a last one. -/
def charactersBetween (first last : Char) : List Char :=
  allCharacters.filter fun c => first ≤ c && c ≤ last

/-- A character that a description begins with, where a backslash begins an escape. The flag tells that it
was escaped. -/
def characterAt : List Char → Option ((Char × Bool) × List Char)
  | [] => none
  | '\\' :: rest =>
    match rest with
    | [] => some (('\\', false), [])
    | c :: after =>
      if (Text.digitValue? 8 c).isSome then
        let (three, behind) := Format.takeNumber 8 3 0 rest
        if three < 256 then some ((Format.character three, true), behind)
        else
          let (two, behind) := Format.takeNumber 8 2 0 rest
          some ((Format.character two, true), behind)
      else some (((if c = 'e' then none else Format.escaped? c).getD c, true), after)
  | c :: rest => some ((c, false), rest)

/-- The construct between brackets at the front of a description, and what follows. -/
def bracketAt? (text : List Char) : Option (Except String CharacterItem × List Char) :=
  match text with
  | '[' :: ':' :: rest =>
    let name := rest.takeWhile (· ≠ ':')
    match rest.dropWhile (· ≠ ':') with
    | ':' :: ']' :: after =>
      let word := String.ofList name
      match Text.characterClass? word with
      | some test => some (.ok (.ofClass word (allCharacters.filter test)), after)
      | none => some (.error ("invalid character class " ++ cited word), after)
    | _ => none
  | '[' :: '=' :: c :: '=' :: ']' :: after => some (.ok (.equivalents c), after)
  | '[' :: rest =>
    match characterAt rest with
    | some ((c, _), '*' :: behind) =>
      let digits := behind.takeWhile Char.isDigit
      match behind.dropWhile Char.isDigit with
      | ']' :: after =>
        let base := if digits.head? = some '0' then 8 else 10
        let count := (Text.readDigits? base 0 digits).filter (0 < ·)
        some (.ok (.repetition c (if digits.isEmpty then none else count)), after)
      | _ => none
    | _ => none
  | _ => none

/-- The parts of a description, or a complaint. At most `fuel` parts are read. -/
def readCharacterItems : (fuel : Nat) → List Char → Except String (List CharacterItem)
  | 0, _ | _ + 1, [] => .ok []
  | fuel + 1, text => do
    match bracketAt? text with
    | some (item, after) => return (← item) :: (← readCharacterItems fuel after)
    | none =>
      match characterAt text with
      | none => return []
      | some ((first, _), '-' :: rest) =>
        match characterAt rest with
        | some ((last, _), after) =>
          if last < first then
            let spelled := (text.take (text.length - after.length))
            throw ("range-endpoints of " ++ cited (String.ofList spelled) ++
              " are in reverse collating sequence order")
          else return .range first last :: (← readCharacterItems fuel after)
        | none => return [.character first, .character '-']
      | some ((c, _), after) => return .character c :: (← readCharacterItems fuel after)

/-- The characters that a part of a description stands for. A repetition without a number fills up what is
missing of a length. -/
def CharacterItem.characters (missing : Nat) : CharacterItem → List Char
  | character c | equivalents c => [c]
  | range first last => charactersBetween first last
  | ofClass _ members => members
  | repetition c count => List.replicate (count.getD missing) c

/-- The characters that parts of a description stand for. -/
def expandItems (missing : Nat) (items : List CharacterItem) : List Char :=
  items.flatMap (·.characters missing)

/-- What is done to characters. -/
structure CharacterChange where
  removed : List Char := []
  /-- Characters with those that take their places. -/
  replaced : List (Char × Char) := []
  /-- Characters of which neighbours that are equal become one. -/
  squeezed : List Char := []

/-- A list of characters with the flag for each code that a character of it has that code. -/
def flagsOf (characters : List Char) : Array Bool :=
  characters.foldl (fun flags c => flags.setIfInBounds c.toNat true) (Array.replicate 256 false)

/-- The table of replacements, by the codes of the characters. The last replacement of a character
counts. -/
def replacementsOf (pairs : List (Char × Char)) : Array Char :=
  pairs.foldl (fun table pair => table.setIfInBounds pair.1.toNat pair.2) allCharacters.toArray

/-- The characters after a change. The last one that was printed before is given, and comes along. -/
def changeCharacters (removed squeezed : Array Bool) (replaced : Array Char) (before : Option Char)
    (text : List Char) : Option Char × List Char :=
  let (last, printed) := text.foldl (fun (last, printed) c =>
    if removed.getD c.toNat false then (last, printed)
    else
      let shown := replaced.getD c.toNat c
      if squeezed.getD shown.toNat false && last = some shown then (last, printed)
      else (some shown, shown :: printed)) (before, ([] : List Char))
  (last, printed.reverse)

/-- The parts of a description. What is wrong with it ends the utility. -/
def characterItems (text : String) : Work (List CharacterItem) := do
  match readCharacterItems (text.length + 1) text.toList with
  | .ok items => return items
  | .error message => giveUp 1 message

/-- A character of a description. -/
structure DescribedCharacter where
  value : Char
  /-- A part of the description begins with the character. -/
  isFirst : Bool := false
  /-- The character stands for a class of upper case letters, or of lower case letters. -/
  isUpper : Option Bool := none

/-- The characters of a part of a description. A repetition without a number fills up what is missing. -/
def CharacterItem.described (missing : Nat) (item : CharacterItem) : List DescribedCharacter :=
  let isUpper : Option Bool :=
    match item with
    | .ofClass "upper" _ => some true
    | .ofClass "lower" _ => some false
    | _ => none
  match item.characters missing with
  | [] => []
  | first :: rest => ⟨first, true, isUpper⟩ :: rest.map fun c => ⟨c, false, isUpper⟩

/-- The characters of a description with those that replace them. A class of letters of one case is replaced
only by such a class, which is the same or that of the other case. -/
def alignedPairs : (fuel : Nat) → List DescribedCharacter → List DescribedCharacter →
    Option (List (Char × Char))
  | 0, _, _ | _, [], _ | _, _, [] => some []
  | fuel + 1, source :: sources, target :: targets =>
    match source.isUpper, target.isUpper with
    | _, none => (alignedPairs fuel sources targets).map ((source.value, target.value) :: ·)
    | none, some _ => none
    | some old, some new =>
      if source.isFirst && target.isFirst then
        let group := source :: sources.takeWhile (!·.isFirst)
        let change (c : Char) : Char := if old = new then c else if new then c.toUpper else c.toLower
        (alignedPairs fuel (sources.dropWhile (!·.isFirst)) (targets.dropWhile (!·.isFirst))).map
          ((group.map fun c => (c.value, change c.value)) ++ ·)
      else none

/-- What the second of two descriptions stands for when it replaces the first one. -/
structure Replacement where
  pairs : List (Char × Char)
  targets : List Char

/-- The replacements where a description is replaced by another one. -/
def replacementOf (isComplemented truncates : Bool) (first second : List CharacterItem) :
    Work Replacement := do
  let plain := expandItems 0 first
  let sources := if isComplemented then allCharacters.filter (· ∉ plain) else plain
  let isClass (item : CharacterItem) : Bool := item matches .ofClass ..
  if second.any fun item => item matches .equivalents _ then
    giveUp 1 "[=c=] expressions may not appear in string2 when translating"
  if second.any fun item => isClass item && (item.described 0).all (·.isUpper.isNone) then
    giveUp 1 ("when translating, the only character classes that may appear in\nstring2 are " ++
      "'upper' and 'lower'")
  let missing := sources.length - (expandItems 0 second).length
  let targets := second.flatMap (·.described missing)
  let aligned? := alignedPairs (sources.length + 1) (first.flatMap (·.described 0)) targets
  if !isComplemented && aligned?.isNone then
    giveUp 1 "misaligned [:upper:] and/or [:lower:] construct"
  let lack := if truncates then 0 else sources.length - targets.length
  if 0 < lack then
    if targets.isEmpty then giveUp 1 "when not truncating set1, string2 must be non-empty"
    if second.getLast?.any isClass then
      giveUp 1 ("when translating with string1 longer than string2,\nthe latter string must not end " ++
        "with a character class")
  let last := (targets.getLast?.map (·.value)).toList
  let all := targets.map (·.value) ++ (List.replicate lack last).flatten
  if isComplemented && first.any isClass && !(all.length = sources.length && all.all (· ∈ all.head?)) then
    giveUp 1 ("when translating with complemented character classes,\nstring2 must map all characters " ++
      "in the domain to one")
  let filled := targets ++ (List.replicate lack last).flatten.map fun c => { value := c }
  let pairs :=
    if isComplemented then sources.zip all
    else (alignedPairs (sources.length + 1) (first.flatMap (·.described 0)) filled).getD []
  return { pairs, targets := all }

/-- Replace, remove and squeeze the characters of the standard input. -/
def replaceCharacters : Utility := fun arguments => do
  let table : OptionTable :=
    { letters := "cCdst"
      long := [⟨"complement", 'c', false, false⟩, ⟨"delete", 'd', false, false⟩,
        ⟨"squeeze-repeats", 's', false, false⟩, ⟨"truncate-set1", 't', false, false⟩]
      stopsAtOperand := true }
  let given ← table.parse arguments
  let deletes := given.has 'd'
  let squeezes := given.has 's'
  let isComplemented := given.has 'c' || given.has 'C'
  let least := if deletes = squeezes then 2 else 1
  let most := if deletes && !squeezes then 1 else 2
  let giveUpWith (message explanation : String) : Work Unit := do
    complain message
    let name := (← get).name
    printError (explanation ++ "Try '" ++ name ++ " --help' for more information.\n")
    throw 1
  if given.operands.length < least then
    match given.operands with
    | [] => giveUpWith "missing operand" ""
    | operand :: _ =>
      giveUpWith ("missing operand after " ++ cited operand)
        (if deletes then
          "Two strings must be given when both deleting and squeezing repeats.\n"
        else "Two strings must be given when translating.\n")
  if most < given.operands.length then
    giveUpWith ("extra operand " ++ cited (given.operands.getD most ""))
      (if given.operands.length = 2 then
        "Only one string may be given when deleting without squeezing repeats.\n"
      else "")
  let first ← characterItems (given.operands.headD "")
  let isOpen (item : CharacterItem) : Bool := item matches .repetition _ none
  if first.any isOpen then giveUp 1 "the [c*] repeat construct may not appear in string1"
  let second ← characterItems (given.operands.getD 1 "")
  if 1 < (second.filter isOpen).length then
    giveUp 1 "only one [c*] repeat construct may appear in string2"
  if deletes && second.any isOpen then
    giveUp 1 "the [c*] construct may appear in string2 only when translating"
  let plain := expandItems 0 first
  let named := if isComplemented then allCharacters.filter (· ∉ plain) else plain
  let hasSecond := given.operands.length = 2
  let replacement ←
    if deletes || !hasSecond then pure { pairs := [], targets := expandItems 0 second }
    else replacementOf isComplemented (given.has 't') first second
  let removed := flagsOf (if deletes then named else [])
  let squeezed :=
    flagsOf (if squeezes then (if hasSecond then replacement.targets else named) else [])
  let replaced := replacementsOf replacement.pairs
  let result ← forPieces 0 (fun before piece => do
    let (last, printed) := changeCharacters removed squeezed replaced before piece
    emit (String.ofList printed)
    return (last, false)) Steps.manyTimes none
  match result with
  | .ok _ => return 0
  | .error error => giveUp 1 ("read error: " ++ error.reason)

/-- A range of columns, of which the end may be open. -/
structure ColumnRange where
  first : Nat
  last : Option Nat

/-- A column is in a range. -/
def ColumnRange.contains (range : ColumnRange) (column : Nat) : Bool :=
  range.first ≤ column && range.last.all (column ≤ ·)

/-- The range of columns that a text describes, or a complaint. -/
def readColumnRange (isField : Bool) (text : List Char) : Except String ColumnRange :=
  let spelled := cited (String.ofList (text.takeWhile fun c => c ≠ ',' && c ≠ ' '))
  let invalid : Except String ColumnRange :=
    .error ((if isField then "invalid field value " else "invalid byte/character position ") ++
      spelled)
  let number? (digits : List Char) : Option Nat :=
    if digits.isEmpty then none else Text.readDigits? 10 0 digits
  let numbered : String :=
    if isField then "fields are numbered from 1" else "byte/character positions are numbered from 1"
  match Text.split '-' text with
  | [single] =>
    if single.isEmpty then .error numbered
    else
      match number? single with
      | none => invalid
      | some 0 => .error numbered
      | some number => .ok ⟨number, some number⟩
  | [[], []] => .error "invalid range with no endpoint: -"
  | [first, last] =>
    let start := if first.isEmpty then some 1 else number? first
    match start, last.isEmpty, number? last with
    | none, _, _ => invalid
    | some 0, _, _ => .error numbered
    | some start, true, _ => .ok ⟨start, none⟩
    | some _, false, none => invalid
    | some start, false, some stop =>
      if stop < start then .error "invalid decreasing range" else .ok ⟨start, some stop⟩
  | _ => .error (if isField then "invalid field range" else "invalid byte or character range")

/-- The ranges of columns that a text describes, or a complaint. -/
def readColumnRanges (isField : Bool) (text : String) : Except String (List ColumnRange) :=
  let separated := text.toList.map fun c => if c = ' ' || c = '\t' then ',' else c
  (Text.split ',' separated).mapM (readColumnRange isField)

/-- The characters of a line in some columns, with a separator between ranges. -/
def cutCharacters (isChosen starts : Nat → Bool) (separator line : List Char) : List Char :=
  let rec go : (column : Nat) → (hasBefore : Bool) → List Char → List Char
    | _, _, [] => []
    | column, hasBefore, c :: rest =>
      if isChosen column then
        let isFirst := hasBefore && (starts column || !isChosen (column - 1))
        (if isFirst then separator else []) ++ c :: go (column + 1) true rest
      else go (column + 1) hasBefore rest
  go 1 false line

/-- Print parts of lines. -/
def cutLines : Utility := fun arguments => do
  let table : OptionTable :=
    { letters := "b:c:d:f:nsz"
      long := [⟨"bytes", 'b', true, false⟩, ⟨"characters", 'c', true, false⟩,
        ⟨"delimiter", 'd', true, false⟩, ⟨"fields", 'f', true, false⟩,
        ⟨"only-delimited", 's', false, false⟩, ⟨"complement", 'C', false, false⟩,
        ⟨"output-delimiter", 'o', true, false⟩, ⟨"zero-terminated", 'z', false, false⟩] }
  let given ← table.parse arguments
  let lists := given.values 'b' ++ given.values 'c' ++ given.values 'f'
  let delimiter ←
    match given.value? 'd' with
    | none => pure '\t'
    | some text =>
      match text.toList with
      | [] => pure (Char.ofNat 0)
      | [c] => pure c
      | _ => giveUpUsage 1 "the delimiter must be a single character"
  let list ←
    match lists with
    | [] => giveUpUsage 1 "you must specify a list of bytes, characters, or fields"
    | [list] => pure list
    | _ => giveUpUsage 1 "only one list may be specified"
  let isField := given.has 'f'
  if given.has 'd' && !isField then
    giveUpUsage 1 "an input delimiter may be specified only when operating on fields"
  if given.has 's' && !isField then
    giveUpUsage 1
      "suppressing non-delimited lines makes sense\n\tonly when operating on fields"
  let ranges ←
    match readColumnRanges isField list with
    | .ok ranges => pure ranges
    | .error message => giveUpUsage 1 message
  let isChosen (column : Nat) : Bool :=
    (ranges.any (·.contains column)) != given.has 'C'
  let output := given.value? 'o'
  let starts (column : Nat) : Bool :=
    output.isSome && !given.has 'C' && ranges.any fun range =>
      range.first = column && !(ranges.any fun other =>
        other.first < column && other.contains column)
  let ending := if given.has 'z' then Char.ofNat 0 else '\n'
  let cut (line : List Char) : List Char :=
    if isField then
      let fields := Text.split delimiter line
      if fields.length ≤ 1 then (if given.has 's' then [] else line ++ [ending])
      else
        let numbered := fields.zip ((List.range fields.length).map (· + 1))
        let chosen := (numbered.filter fun entry => isChosen entry.2).map (·.1)
        let separator := (output.map String.toList).getD [delimiter]
        (List.intercalate separator chosen) ++ [ending]
    else cutCharacters isChosen starts ((output.getD "").toList) line ++ [ending]
  let (_, status) ← forInputs nameAndReason (fun () path descriptor => do
    let result ← forLines descriptor ending (fun () line =>
      { value := (), printed := cut line.text }) ()
    match result with
    | .ok _ => return ((), true)
    | .error error =>
      complain (nameAndReason path error)
      return ((), false)) given.operands ()
  return status

/-- The column after a character. -/
def columnAfter (inBytes : Bool) (column : Nat) (c : Char) : Nat :=
  if inBytes then column + 1
  else if c = '\t' then column + 8 - column % 8
  else if c = Char.ofNat 8 then column - 1
  else if c = '\r' then 0
  else column + 1

/-- A line in parts of limited width. The part that has been begun is given backwards. -/
def foldLine (width : Nat) (inBytes atBlanks : Bool) :
    (fuel column : Nat) → (part : List Char) → List Char → List (List Char)
  | 0, _, part, rest => [part.reverse ++ rest]
  | _ + 1, _, part, [] => [part.reverse]
  | fuel + 1, column, part, c :: rest =>
    let next := columnAfter inBytes column c
    if next ≤ width then foldLine width inBytes atBlanks fuel next (c :: part) rest
    else
      let after := part.takeWhile fun d => d ≠ ' ' && d ≠ '\t'
      let before := part.dropWhile fun d => d ≠ ' ' && d ≠ '\t'
      if atBlanks && !before.isEmpty then
        let column := after.reverse.foldl (columnAfter inBytes) 0
        before.reverse :: foldLine width inBytes atBlanks fuel column after (c :: rest)
      else if part.isEmpty then foldLine width inBytes atBlanks fuel next [c] rest
      else part.reverse :: foldLine width inBytes atBlanks fuel 0 [] (c :: rest)

/-- Print lines in parts of limited width. -/
def foldLines : Utility := fun arguments => do
  let table : OptionTable :=
    { letters := "bsw:"
      long := [⟨"bytes", 'b', false, false⟩, ⟨"spaces", 's', false, false⟩,
        ⟨"width", 'w', true, false⟩] }
  let settled := arguments.map fun argument =>
    match argument.toList with
    | '-' :: c :: rest => if (c :: rest).all Char.isDigit then "-w" ++ String.ofList (c :: rest)
      else argument
    | _ => argument
  let given ← table.parse settled
  let text := (given.value? 'w').getD "80"
  match text.toNat?.filter (0 < ·) with
  | none => giveUp 1 ("invalid number of columns: " ++ cited text)
  | some width =>
    let (_, status) ← forInputs nameAndReason (fun () path descriptor => do
      let result ← forLines descriptor '\n' (fun () line =>
        let parts := foldLine width (given.has 'b') (given.has 's') (2 * line.text.length + 2) 0 []
          line.text
        { value := ()
          printed := List.intercalate ['\n'] parts ++ if line.isEnded then ['\n'] else [] }) ()
      match result with
      | .ok _ => return ((), true)
      | .error error =>
        complain (nameAndReason path error)
        return ((), false)) given.operands ()
    return status

/-- The next place of a tabulator behind a column. -/
def nextStop (stops : List Nat) (column : Nat) : Nat :=
  match stops with
  | [] => column + 8 - column % 8
  | [width] => column + max width 1 - column % max width 1
  | _ => (stops.find? (column < ·)).getD (column + 1)

/-- A line with blanks in place of tabulators, which may be only those at the front. -/
def expandTabs (stops : List Nat) (onlyFront : Bool) : (column : Nat) → (isFront : Bool) →
    List Char → List Char
  | _, _, [] => []
  | column, isFront, c :: rest =>
    if c = '\t' && (isFront || !onlyFront) then
      let next := nextStop stops column
      List.replicate (next - column) ' ' ++ expandTabs stops onlyFront next isFront rest
    else
      c :: expandTabs stops onlyFront (columnAfter false column c) (isFront && c = ' ') rest

/-- Print lines with blanks in place of tabulators. -/
def expandLines : Utility := fun arguments => do
  let table : OptionTable :=
    { letters := "it:"
      long := [⟨"initial", 'i', false, false⟩, ⟨"tabs", 't', true, false⟩] }
  let settled := arguments.map fun argument =>
    match argument.toList with
    | '-' :: c :: rest =>
      if (c :: rest).all fun d => d.isDigit || d = ',' then "-t" ++ String.ofList (c :: rest)
      else argument
    | _ => argument
  let given ← table.parse settled
  let words := (Text.split ',' ((given.value? 't').getD "").toList).filter (!·.isEmpty)
  let stops := words.filterMap (Text.readDigits? 10 0)
  let (_, status) ← forInputs nameAndReason (fun () path descriptor => do
    let result ← forLines descriptor '\n' (fun () line =>
      { value := ()
        printed := { line with text := expandTabs stops (given.has 'i') 0 true line.text }.toList
          '\n' }) ()
    match result with
    | .ok _ => return ((), true)
    | .error error =>
      complain (nameAndReason path error)
      return ((), false)) given.operands ()
  return status

end SketchApk.Utility
