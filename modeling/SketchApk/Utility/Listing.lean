import SketchApk.Utility.Condition
import SketchApk.Utility.Format
import SketchApk.Utility.Names

/-!
# Listing files

Files are listed by name, one in a line, or with their permissions, owners and sizes. Directories that
are named are opened, and what they contain is listed, after the other files that are named.

All files belong to one user, and all times are the same.

## Main definitions

* `Utility.listFiles` : the listing of files.
* `Utility.printStatus` : what is known about a file in a given format.
-/

namespace SketchApk.Utility

/-- The user to whom all files belong. -/
def userName : String := "user"

/-- The number of that user, and of its group. -/
def userNumber : Nat := 1000

/-- A file to be listed. -/
structure Listed where
  /-- The name under which it is listed. -/
  name : String
  path : String
  node : Node

namespace Listed

/-- The permission bits. -/
def mode (file : Listed) : Mode :=
  Condition.modeOf file.node

/-- The number of bytes. -/
def size (file : Listed) : Nat :=
  match file.node with
  | .file _ content => content.toBytes.size
  | .directory _ => 4096
  | .link target => (Octets.ofText target.text).length

/-- The number of kilobytes that are taken. -/
def kilobytes (file : Listed) : Nat :=
  match file.node with
  | .link _ => 0
  | _ => (file.size + 4095) / 4096 * 4

/-- The letter of a kind of file. -/
def kindLetter (file : Listed) : Char :=
  match file.node with
  | .directory _ => 'd'
  | .link _ => 'l'
  | .file .. => if Condition.isDevice file.path then 'c' else '-'

/-- The letter of the kind and those of the permissions. -/
def letters (file : Listed) : String :=
  file.kindLetter.toString ++ file.mode.letters

/-- The extension of the name with its dot. -/
def extension (file : Listed) : String :=
  match (file.name.toList.reverse.span (· ≠ '.')) with
  | (last, '.' :: _) => String.ofList ('.' :: last.reverse)
  | _ => ""

end Listed

/-- How files are listed. -/
structure ListStyle where
  given : Arguments

namespace ListStyle

variable (style : ListStyle)

/-- An option is given. -/
def has (letter : Char) : Bool :=
  style.given.has letter

/-- Files are listed with what is known about them. -/
def isLong : Bool :=
  style.given.last? ['l', 'g', 'o', 'n', '1', 'C', 'm', 'x'] ∈
    [some 'l', some 'g', some 'o', some 'n'] ||
    ((style.has 'l' || style.has 'g' || style.has 'o' || style.has 'n') &&
      style.given.last? ['l', 'g', 'o', 'n', 'C', 'm', 'x'] ∈
        [some 'l', some 'g', some 'o', some 'n'])

/-- The sign behind the name of a file. -/
def indicator (file : Listed) : String :=
  match style.given.last? ['F', 'p', 'T'], file.node with
  | none, _ => ""
  | some _, .directory _ => "/"
  | some 'p', _ => ""
  | some _, .link _ => if style.isLong then "" else "@"
  | some 'F', .file mode _ => if mode.hasExecutors then "*" else ""
  | some _, .file .. => ""

/-- A name as it is listed. -/
def nameText (name : String) : String :=
  if style.has 'Q' then "\"" ++ name ++ "\"" else name

/-- A file as it is listed in the short form. -/
def shortText (file : Listed) : String :=
  (if style.has 's' then toString file.kilobytes ++ " " else "") ++ style.nameText file.name ++
    style.indicator file

/-- Files in the order in which they are listed. -/
def ordered (files : List Listed) : List Listed :=
  let byName := files.mergeSort fun a b => a.name ≤ b.name
  let sorted :=
    match style.given.last? ['S', 't', 'X', 'U', 'f', 'v'] with
    | some 'S' => byName.mergeSort fun a b => b.size ≤ a.size
    | some 'X' => byName.mergeSort fun a b => a.extension ≤ b.extension
    | _ => byName
  let turned := if style.has 'r' then sorted.reverse else sorted
  if style.has 'D' then
    let (directories, others) := turned.partition fun file => file.node matches .directory _
    directories ++ others
  else turned

/-- The file is listed as an entry of a directory. -/
def isListed (name : String) : Bool :=
  style.has 'a' || style.has 'A' || style.has 'f' || name.toList.head? ≠ some '.'

end ListStyle

/-- Texts in a column, which are pushed to the right. -/
def alignRight (texts : List String) : List String :=
  let width := (texts.map String.length).foldl max 0
  texts.map fun text => String.ofList (Text.padStart ' ' width text.toList)

/-- A size in the least unit by which it is below a thousand and twenty-four. It is rounded up. -/
def humanSize (size : Nat) : String :=
  let rec scale : List Char → Nat → Nat → String
    | [], value, _ => toString value
    | unit :: units, value, divisor =>
      if size < divisor * 1024 then
        if divisor = 1 then toString size
        else
          let tenths := (size * 10 + divisor - 1) / divisor
          if tenths < 100 then toString (tenths / 10) ++ "." ++ toString (tenths % 10) ++ unit.toString
          else toString ((size + divisor - 1) / divisor) ++ unit.toString
      else scale units value (divisor * 1024)
  scale [' ', 'K', 'M', 'G', 'T'] size 1

/-- The lines of files with what is known about them. The numbers of links are given. -/
def longLines (style : ListStyle) (files : List (Listed × Nat)) : List String :=
  let links := alignRight (files.map fun file => toString file.2)
  let sizes := alignRight (files.map fun file =>
    if style.has 'h' then humanSize file.1.size else toString file.1.size)
  let blocks := alignRight (files.map fun file => toString file.1.kilobytes)
  let user := if style.has 'n' then toString userNumber else userName
  let owner := if style.has 'g' then "" else user ++ " "
  let group := if style.has 'o' || style.has 'G' then "" else user ++ " "
  ((files.zip blocks).zip (links.zip sizes)).map fun (((file, _), block), link, size) =>
    let target :=
      match file.node with
      | .link target => " -> " ++ style.nameText (Octets.ofText target.text)
      | _ => ""
    (if style.has 's' then block ++ " " else "") ++ file.letters ++ " " ++ link ++ " " ++ owner ++
      group ++ size ++ " Jan  1 00:00 " ++ style.nameText file.name ++ target ++
      style.indicator file

/-- Texts with commas between them, in lines of at most eighty characters. -/
def commaLines : List String → (line : String) → List String
  | [], line => if line.isEmpty then [] else [line]
  | text :: rest, line =>
    let word := if rest.isEmpty then text else text ++ ","
    if line.isEmpty then commaLines rest word
    else if line.length + 1 + word.length < 80 then commaLines rest (line ++ " " ++ word)
    else line :: commaLines rest word

/-- The number of links of a file. A directory has one from above, one from itself, and one from each
directory in it. -/
def linkCount (file : Listed) : Work Nat := do
  match file.node with
  | .directory _ =>
    match ← perform (.list (Octets.toPath file.path)) with
    | .error _ => return 2
    | .ok names =>
      let rec count : List String → Work Nat
        | [] => return 2
        | name :: rest => do
          let more ← count rest
          match ← nodeAt? (inDirectory file.path (Octets.ofText name)) false with
          | .ok (_, .directory _) => return more + 1
          | _ => return more
      count names
  | _ => return 1

/-- Each file with the number of its links. -/
def withLinkCounts : List Listed → Work (List (Listed × Nat))
  | [] => return []
  | file :: rest => do
    let count ← linkCount file
    return (file, count) :: (← withLinkCounts rest)

/-- Print files. -/
def printListed (style : ListStyle) (files : List Listed) : Work Unit := do
  let ordered := style.ordered files
  let lines ←
    if style.isLong then pure (longLines style (← withLinkCounts ordered))
    else if style.given.last? ['1', 'm', 'C', 'x'] = some 'm' then
      pure (commaLines (ordered.map style.shortText) "")
    else if style.has 's' then
      let blocks := alignRight (ordered.map fun file => toString file.kilobytes)
      pure ((blocks.zip ordered).map fun (block, file) =>
        block ++ " " ++ style.nameText file.name ++ style.indicator file)
    else pure (ordered.map style.shortText)
  emit (String.join (lines.map (· ++ "\n")))

/-- The entries of a directory. -/
def entriesOf (style : ListStyle) (path : String) : List String → Work (List Listed)
  | [] => return []
  | name :: rest => do
    let full := inDirectory path name
    let found ← nodeAt? full (style.has 'L')
    let more ← entriesOf style path rest
    match found with
    | .ok (_, node) => return { name, path := full, node } :: more
    | .error _ =>
      match ← nodeAt? full false with
      | .ok (_, node) => return { name, path := full, node } :: more
      | .error _ => return more

/-- List a directory, and those in it if that is wanted. At most `fuel` levels are listed. The flags
tell that the name is shown in front, and that something was printed before. -/
def listDirectory (style : ListStyle) : (fuel : Nat) → (isNamed isLater isTop : Bool) → String →
    Work Nat
  | 0, _, _, _, _ => return 0
  | fuel + 1, isNamed, isLater, isTop, path => do
    match ← perform (.list (Octets.toPath path)) with
    | .error error =>
      complain ("cannot open directory " ++ quoted path ++ ": " ++ error.reason)
      return if isTop then 2 else 1
    | .ok listed =>
      let own := if style.has 'a' || style.has 'f' then [".", ".."] else []
      let names := own ++ (listed.map Octets.ofText).filter style.isListed
      let files ← entriesOf style path names
      if isNamed then
        emit ((if isLater then "\n" else "") ++ path ++ ":\n")
      if style.isLong || style.has 's' then
        let total := (files.map Listed.kilobytes).foldl (· + ·) 0
        let shown := if style.has 'h' then humanSize (total * 1024) else toString total
        emitLine ("total " ++ shown)
      printListed style files
      if style.has 'R' then
        let inner := (style.ordered files).filter fun file =>
          (file.node matches .directory _) && file.name ≠ "." && file.name ≠ ".."
        highest (fun file => listDirectory style fuel true true false file.path) inner
      else return 0

/-- List directories one after the other. -/
def listDirectories (style : ListStyle) (isNamed : Bool) : (isLater : Bool) → List String → Work Nat
  | _, [] => return 0
  | isLater, path :: rest => do
    let status ← listDirectory style depthLimit isNamed isLater true path
    return max status (← listDirectories style isNamed true rest)

/-- The operands that exist, of which the directories are to be opened, and the status. -/
def sortOperands (style : ListStyle) : List String → Work (List Listed × List Listed × Nat)
  | [] => return ([], [], 0)
  | path :: rest => do
    let opensLinks := !(style.isLong || style.has 'd' || style.has 'F') || style.has 'L' ||
      style.has 'H'
    let direct ← nodeAt? path false
    let through ← nodeAt? path true
    let found : Except FileError Node :=
      match direct, through with
      | .error error, _ => .error error
      | .ok (_, .link _), .ok (_, .directory mode) =>
        if opensLinks then .ok (.directory mode) else direct.map (·.2)
      | .ok (_, .link _), .ok (_, node) =>
        if style.has 'L' || style.has 'H' then .ok node else direct.map (·.2)
      | .ok (_, node), _ => .ok node
    match found with
    | .error error =>
      complain ("cannot access " ++ quoted path ++ ": " ++ error.reason)
      let (files, directories, _) ← sortOperands style rest
      return (files, directories, 2)
    | .ok node =>
      let (files, directories, status) ← sortOperands style rest
      let file : Listed := { name := path, path, node }
      if (node matches .directory _) && !style.has 'd' then
        return (files, file :: directories, status)
      else return (file :: files, directories, status)

/-- List files. -/
def listFiles : Utility := fun arguments => do
  let table : OptionTable :=
    { letters := "aAbBcCdfFgGhHiI:klLmnNopqQrRsStT:uUvw:xXZ1"
      long := [⟨"all", 'a', false, false⟩, ⟨"almost-all", 'A', false, false⟩,
        ⟨"directory", 'd', false, false⟩, ⟨"recursive", 'R', false, false⟩,
        ⟨"reverse", 'r', false, false⟩, ⟨"size", 's', false, false⟩,
        ⟨"classify", 'F', true, true⟩, ⟨"color", 'K', true, true⟩,
        ⟨"human-readable", 'h', false, false⟩, ⟨"no-group", 'G', false, false⟩,
        ⟨"numeric-uid-gid", 'n', false, false⟩, ⟨"quote-name", 'Q', false, false⟩,
        ⟨"dereference", 'L', false, false⟩, ⟨"literal", 'N', false, false⟩,
        ⟨"group-directories-first", 'D', false, false⟩]
      failure := 2 }
  let given ← table.parse arguments
  let style : ListStyle := { given }
  let operands := if given.operands.isEmpty then ["."] else given.operands
  let (files, directories, status) ← sortOperands style operands
  unless files.isEmpty do printListed style files
  let isNamed := 1 < operands.length || given.has 'R'
  let listed ← listDirectories style isNamed (!files.isEmpty)
    ((style.ordered directories).map (·.path))
  return max status listed

/-- The words for a kind of file. -/
def kindName (file : Listed) : String :=
  match file.node with
  | .directory _ => "directory"
  | .link _ => "symbolic link"
  | .file _ content =>
    if Condition.isDevice file.path then "character special file"
    else if content.isEmpty then "regular empty file"
    else "regular file"

/-- The text for which a letter stands behind a percent sign in the format of a status. -/
def statusField (file : Listed) (links : Nat) (letter : Char) : String :=
  match letter with
  | 'a' => file.mode.octal
  | 'A' => file.letters
  | 'b' => toString (file.kilobytes * 2)
  | 'B' => "512"
  | 'F' => kindName file
  | 'f' =>
    let kind :=
      match file.node with
      | .directory _ => 0x4000
      | .link _ => 0xa000
      | .file .. => 0x8000
    String.ofList (Nat.toDigits 16 (kind + file.mode.toNat))
  | 'g' | 'u' => toString userNumber
  | 'G' | 'U' => userName
  | 'h' => toString links
  | 'n' => file.path
  | 'N' =>
    match file.node with
    | .link target => quoted file.path ++ " -> " ++ quoted (Octets.ofText target.text)
    | _ => quoted file.path
  | 'o' => "4096"
  | 's' => toString file.size
  | 'w' | 'x' | 'y' | 'z' => "2000-01-01 00:00:00.000000000 +0000"
  | 'W' | 'X' | 'Y' | 'Z' => "946684800"
  | '%' => "%"
  | _ => "?"

/-- The format of a status with its fields filled in. -/
def statusText (file : Listed) (links : Nat) : List Char → List Char
  | '%' :: '%' :: rest => '%' :: statusText file links rest
  | '%' :: letter :: rest =>
    (statusField file links letter).toList ++ statusText file links rest
  | c :: rest => c :: statusText file links rest
  | [] => []

/-- Print what is known about files in a given format. -/
def printStatus : Utility := fun arguments => do
  let table : OptionTable :=
    { letters := "c:fLt"
      long := [⟨"format", 'c', true, false⟩, ⟨"printf", 'P', true, false⟩,
        ⟨"dereference", 'L', false, false⟩, ⟨"terse", 't', false, false⟩] }
  let given ← table.parse arguments
  if given.operands.isEmpty then giveUpUsage 1 "missing operand"
  let usual := "  File: %N\n  Size: %s\t\tBlocks: %b\tIO Block: %o  %F\n" ++
    "Access: (0%a/%A)  Uid: (%u/%U)   Gid: (%g/%G)"
  forEach (fun path => do
    match ← nodeAt? path (given.has 'L') with
    | .error error => failed ("cannot statx " ++ quoted path ++ ": " ++ error.reason)
    | .ok (_, node) =>
      let file : Listed := { name := path, path, node }
      let links ← linkCount file
      match given.last? ['c', 'P'] with
      | some 'P' =>
        let (format, _) := Format.unescape .program ((given.value? 'P').getD "").toList
        emit (String.ofList (statusText file links format))
      | _ =>
        let format := (given.value? 'c').getD usual
        emitLine (String.ofList (statusText file links format.toList))
      return true) given.operands

end SketchApk.Utility
