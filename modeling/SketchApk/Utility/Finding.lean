import SketchApk.Utility.Launching
import SketchApk.Utility.Listing
import SketchApk.Utility.Search

/-!
# Finding files

A tree of files is walked through from above, and an expression is worked out for every file. Tests tell
whether the rest of a conjunction matters; actions print names, remove files or run programs.

## Main definitions

* `Utility.FindTerm` : expressions.
* `Utility.findFiles` : walking through trees.
-/

namespace SketchApk.Utility

/-- How a number is compared. -/
inductive NumberTest where
  | equal (number : Nat)
  | above (number : Nat)
  | below (number : Nat)

/-- A number passes a test. -/
def NumberTest.accepts (test : NumberTest) (value : Nat) : Bool :=
  match test with
  | equal number => value = number
  | above number => number < value
  | below number => value < number

/-- How permissions are compared. -/
inductive ModeTest where
  | exactly (mode : Mode)
  /-- All bits are set. -/
  | all (mode : Mode)
  /-- Some bit is set. -/
  | some (mode : Mode)

/-- Permissions pass a test. -/
def ModeTest.accepts (test : ModeTest) (mode : Mode) : Bool :=
  match test with
  | exactly wanted => mode = wanted
  | all wanted => mode &&& wanted = wanted
  | some wanted => wanted = 0 || mode &&& wanted != 0

/-- An expression that is worked out for files. -/
inductive FindTerm where
  | constant (value : Bool)
  | name (pattern : String) (ignoresCase : Bool)
  | path (pattern : String) (ignoresCase : Bool)
  | ofRegex (regex : Regex) (ignoresCase : Bool)
  | kind (letters : List Char)
  | size (test : NumberTest) (unit : Nat)
  | isEmpty
  | permission (test : ModeTest)
  | isReadable
  | isWritable
  | isExecutable
  | links (test : NumberTest)
  | sameAs (path : String)
  | print (ending : Char)
  | printFormat (format : String)
  | list
  | delete
  | prune
  | quit
  /-- Run a program for each file, in its directory if that is wanted. -/
  | execute (words : List String)
  /-- Run a program for many files at once. -/
  | executeTogether (number : Nat) (words : List String)
  | negation (body : FindTerm)
  | both (first second : FindTerm)
  | either (first second : FindTerm)
  | sequence (first second : FindTerm)

/-- What applies to a whole walk. -/
structure FindOptions where
  most : Option Nat := none
  least : Nat := 0
  /-- A directory is dealt with after what it contains. -/
  isDepthFirst : Bool := false
  followsAll : Bool := false
  followsOperands : Bool := false

/-- How far an expression has been read. -/
structure FindReading where
  rest : List String
  options : FindOptions := {}
  hasAction : Bool := false
  /-- The number of programs that are run for many files. -/
  together : Nat := 0

/-- What has come of a walk. -/
structure FindState where
  status : Nat := 0
  isOver : Bool := false
  /-- The files below the present one are left out. -/
  isPruned : Bool := false
  /-- The files for programs that are run for many of them. -/
  pending : List (Nat × List String) := []

namespace FindTerm

/-- A number with a sign that tells how it is compared. -/
def numberTest? (text : List Char) : Option NumberTest :=
  match text with
  | '+' :: digits => (Text.readUnsigned? 10 (Nat.pow 10 18) digits).map .above
  | '-' :: digits => (Text.readUnsigned? 10 (Nat.pow 10 18) digits).map .below
  | digits => (Text.readUnsigned? 10 (Nat.pow 10 18) digits).map .equal

/-- The test of a size, of which a letter gives the unit. -/
def sizeTest? (text : List Char) : Option FindTerm :=
  let unit? : Option Nat :=
    match text.getLast? with
    | some 'c' => some 1
    | some 'w' => some 2
    | some 'b' => some 512
    | some 'k' => some 1024
    | some 'M' => some 1048576
    | some 'G' => some 1073741824
    | _ => none
  match unit? with
  | some unit => (numberTest? text.dropLast).map (.size · unit)
  | none => (numberTest? text).map (.size · 512)

/-- The test of permissions. -/
def modeTest? (text : List Char) : Option ModeTest :=
  let read (spelled : List Char) : Option Mode := Mode.change? 0 false 0 (String.ofList spelled)
  match text with
  | '-' :: rest => (read rest).map .all
  | '/' :: rest => (read rest).map .some
  | _ => (read text).map .exactly

/-- The words of a program up to a semicolon, or up to a plus sign behind the mark for files, and what
follows. The flag tells that the program is run for many files. -/
def programWords : (soFar : List String) → List String → Option (List String × Bool × List String)
  | soFar, ";" :: rest => some (soFar.reverse, false, rest)
  | soFar, "\x7b\x7d" :: "+" :: rest => some (soFar.reverse, true, rest)
  | soFar, word :: rest => programWords (word :: soFar) rest
  | _, [] => none

/-- The test or action at the front of an expression, or a complaint. -/
def readPrimary (word : String) (reading : FindReading) : Except String (FindTerm × FindReading) :=
  let value : Except String (String × FindReading) :=
    match reading.rest with
    | text :: rest => .ok (text, { reading with rest })
    | [] => .error ("missing argument to \x60" ++ word ++ "'")
  let test (make : String → Option FindTerm) (complaint : String → String) :
      Except String (FindTerm × FindReading) := do
    let (text, after) ← value
    match make text with
    | some term => return (term, after)
    | none => throw (complaint text)
  let invalid (text : String) : String :=
    "invalid argument " ++ quoted text ++ " to " ++ quoted word
  let plain (term : FindTerm) : Except String (FindTerm × FindReading) := .ok (term, reading)
  let action (term : FindTerm) : Except String (FindTerm × FindReading) :=
    .ok (term, { reading with hasAction := true })
  let number (change : Nat → FindOptions → FindOptions) : Except String (FindTerm × FindReading) := do
    let (text, after) ← value
    match text.toNat? with
    | some count => return (.constant true, { after with options := change count after.options })
    | none =>
      throw ("Expected a positive decimal integer argument to " ++ word ++ ", but got " ++ quoted text)
  match word with
  | "-name" => test (fun text => some (.name text false)) invalid
  | "-iname" => test (fun text => some (.name text true)) invalid
  | "-path" | "-wholename" => test (fun text => some (.path text false)) invalid
  | "-ipath" | "-iwholename" => test (fun text => some (.path text true)) invalid
  | "-regex" =>
    test (fun text => (Regex.read .basic text.toList).toOption.map fun found =>
      .ofRegex found.1 false) invalid
  | "-iregex" =>
    test (fun text => (Regex.read .basic text.toList).toOption.map fun found =>
      .ofRegex found.1 true) invalid
  | "-type" =>
    test (fun text =>
      let letters := text.toList.filter (· ≠ ',')
      if !letters.isEmpty && letters.all (· ∈ "bcdflps".toList) then some (.kind letters) else none)
      fun text => "Unknown argument to -type: " ++ text
  | "-size" => test (fun text => sizeTest? text.toList) invalid
  | "-perm" => test (fun text => (modeTest? text.toList).map .permission) fun text =>
      "invalid mode " ++ quoted text
  | "-links" => test (fun text => (numberTest? text.toList).map .links) invalid
  | "-samefile" => test (fun text => some (.sameAs text)) invalid
  | "-newer" | "-anewer" | "-cnewer" => test (fun _ => some (.constant false)) invalid
  | "-mtime" | "-mmin" | "-atime" | "-amin" | "-ctime" | "-cmin" =>
    test (fun text => (numberTest? text.toList).map fun bound =>
      .constant (bound.accepts 0)) invalid
  | "-user" | "-group" | "-uid" | "-gid" => test (fun _ => some (.constant true)) invalid
  | "-empty" => plain .isEmpty
  | "-true" => plain (.constant true)
  | "-false" | "-nouser" | "-nogroup" => plain (.constant false)
  | "-readable" => plain .isReadable
  | "-writable" => plain .isWritable
  | "-executable" => plain .isExecutable
  | "-daystart" | "-follow" | "-noleaf" | "-mount" | "-xdev" | "-warn" | "-nowarn" =>
    plain (.constant true)
  | "-depth" | "-d" =>
    .ok (.constant true, { reading with options := { reading.options with isDepthFirst := true } })
  | "-maxdepth" => number fun count options => { options with most := some count }
  | "-mindepth" => number fun count options => { options with least := count }
  | "-print" => action (.print '\n')
  | "-print0" => action (.print (Char.ofNat 0))
  | "-printf" => do
    let (text, after) ← value
    return (.printFormat text, { after with hasAction := true })
  | "-ls" => action .list
  | "-delete" =>
    .ok (.delete,
      { reading with hasAction := true, options := { reading.options with isDepthFirst := true } })
  | "-prune" => plain .prune
  | "-quit" => action .quit
  | "-exec" | "-execdir" | "-ok" | "-okdir" =>
    match programWords [] reading.rest with
    | none => .error ("missing argument to \x60" ++ word ++ "'")
    | some ([], _, _) => .error ("invalid argument " ++ quoted ";" ++ " to " ++ quoted word)
    | some (words, false, rest) => .ok (.execute words, { reading with rest, hasAction := true })
    | some (words, true, rest) =>
      .ok (.executeTogether reading.together words,
        { reading with rest, hasAction := true, together := reading.together + 1 })
  | _ => .error ("unknown predicate \x60" ++ word ++ "'")

mutual

/-- The alternatives at the front of an expression. -/
def readList : (fuel : Nat) → FindReading → Except String (FindTerm × FindReading)
  | 0, reading => .ok (.constant true, reading)
  | fuel + 1, reading => do
    let (first, after) ← readEither fuel reading
    match after.rest with
    | "," :: rest =>
      let (second, behind) ← readList fuel { after with rest }
      return (.sequence first second, behind)
    | _ => return (first, after)

/-- Expressions of which one has to hold. -/
def readEither : (fuel : Nat) → FindReading → Except String (FindTerm × FindReading)
  | 0, reading => .ok (.constant true, reading)
  | fuel + 1, reading => do
    let (first, after) ← readBoth fuel reading
    match after.rest with
    | "-o" :: rest | "-or" :: rest =>
      let (second, behind) ← readEither fuel { after with rest }
      return (.either first second, behind)
    | _ => return (first, after)

/-- Expressions that all have to hold. -/
def readBoth : (fuel : Nat) → FindReading → Except String (FindTerm × FindReading)
  | 0, reading => .ok (.constant true, reading)
  | fuel + 1, reading => do
    let (first, after) ← readSingle fuel reading
    match after.rest with
    | [] | "-o" :: _ | "-or" :: _ | "," :: _ | ")" :: _ => return (first, after)
    | "-a" :: rest | "-and" :: rest =>
      let (second, behind) ← readBoth fuel { after with rest }
      return (.both first second, behind)
    | _ =>
      let (second, behind) ← readBoth fuel after
      return (.both first second, behind)

/-- A single test or action, or an expression between parentheses. -/
def readSingle : (fuel : Nat) → FindReading → Except String (FindTerm × FindReading)
  | 0, reading => .ok (.constant true, reading)
  | fuel + 1, reading => do
    match reading.rest with
    | [] => throw "expected an expression after the last operator"
    | "!" :: rest | "-not" :: rest =>
      let (body, after) ← readSingle fuel { reading with rest }
      return (.negation body, after)
    | "(" :: rest =>
      let (body, after) ← readList fuel { reading with rest }
      match after.rest with
      | ")" :: behind => return (body, { after with rest := behind })
      | _ =>
        throw ("invalid expression; I was expecting to find a ')' somewhere but did not see one.")
    | word :: rest =>
      if word.toList.head? = some '-' then readPrimary word { reading with rest }
      else throw ("paths must precede expression: " ++ quoted word)

end

end FindTerm

/-- A file that a walk comes across. -/
structure FoundFile where
  /-- The operand from which the walk has begun. -/
  start : String
  path : String
  depth : Nat
  node : Node

/-- The text for which a letter stands behind a percent sign in the format of a file. -/
def foundField (file : FoundFile) (letter : Char) : String :=
  let listed : Listed := { name := file.path, path := file.path, node := file.node }
  match letter with
  | 'p' => file.path
  | 'f' => String.ofList (lastPart file.path.toList)
  | 'h' =>
    if '/' ∈ file.path.toList then String.ofList (frontPart file.path.toList) else "."
  | 'P' =>
    let rest := file.path.toList.drop file.start.length
    String.ofList (rest.dropWhile (· = '/'))
  | 'H' => file.start
  | 's' => toString listed.size
  | 'k' => toString listed.kilobytes
  | 'b' => toString (2 * listed.kilobytes)
  | 'd' => toString file.depth
  | 'm' => listed.mode.octal
  | 'M' => listed.letters
  | 'u' | 'g' => userName
  | 'U' | 'G' => toString userNumber
  | 'l' =>
    match file.node with
    | .link target => Octets.ofText target.text
    | _ => ""
  | 'y' | 'Y' => if listed.kindLetter = '-' then "f" else listed.kindLetter.toString
  | '%' => "%"
  | other => "%" ++ other.toString

/-- The format of a file with its fields filled in. -/
def foundText (file : FoundFile) : List Char → List Char
  | '%' :: letter :: rest => (foundField file letter).toList ++ foundText file rest
  | c :: rest => c :: foundText file rest
  | [] => []

/-- A text matches a pattern. -/
def matchesPattern (pattern text : String) (ignoresCase : Bool) : Bool :=
  let settle (text : String) : List Char :=
    if ignoresCase then text.toList.map Char.toLower else text.toList
  Shell.Pattern.accepts ((settle pattern).map fun c => ⟨c, false⟩) (settle text)

/-- Something that is done in a walk. -/
abbrev Walk := StateT FindState Work

/-- Complain about something, which shows in the status. -/
def complainInWalk (message : String) : Walk Unit := do
  liftM (complain message : Work Unit)
  modify fun state => { state with status := 1 }

/-- The names in a directory. -/
def namesIn (path : String) : Walk (Except FileError (List String)) :=
  liftM (Utility.perform (.list (Octets.toPath path)) : Work (Except FileError (List String)))

/-- Run a program for files, and tell whether it ends with zero. -/
def runForFiles (words : List String) : Walk Bool := do
  let work : Work ProcessEnd := do
    let child ← startChild (← get).environment words (pure ()) fun error =>
      complain (quoted (words.headD "") ++ ": " ++ error.reason)
    Steps.waitFor child
  return (← liftM work) = .exited 0

/-- Work out an expression for a file. -/
def evaluateTerm (file : FoundFile) : FindTerm → Walk Bool
  | .constant value => return value
  | .name pattern ignoresCase =>
    return matchesPattern pattern (String.ofList (lastPart file.path.toList)) ignoresCase
  | .path pattern ignoresCase => return matchesPattern pattern file.path ignoresCase
  | .ofRegex regex ignoresCase =>
    let text := file.path.toList.toArray
    return (regex.ends { ignoresCase } text { position := 0 }).any (·.position = text.size)
  | .kind letters =>
    let listed : Listed := { name := file.path, path := file.path, node := file.node }
    let letter := if listed.kindLetter = '-' then 'f' else listed.kindLetter
    return letter ∈ letters
  | .size test unit =>
    let listed : Listed := { name := file.path, path := file.path, node := file.node }
    return test.accepts ((listed.size + unit - 1) / unit)
  | .isEmpty => do
    match file.node with
    | .file _ content => return content.isEmpty
    | .directory _ =>
      match ← namesIn file.path with
      | .ok names => return names.isEmpty
      | .error _ => return false
    | .link _ => return false
  | .permission test => return test.accepts (Condition.modeOf file.node)
  | .isReadable => accessible "-r"
  | .isWritable => accessible "-w"
  | .isExecutable => accessible "-x"
  | .links test => do
    let listed : Listed := { name := file.path, path := file.path, node := file.node }
    let count ← liftM (linkCount listed : Work Nat)
    return test.accepts count
  | .sameAs path => do
    let first ← liftM (nodeAt? path true : Work (Except FileError (Location × Node)))
    let second ← liftM (nodeAt? file.path false : Work (Except FileError (Location × Node)))
    match first, second with
    | .ok (place, _), .ok (other, _) => return place = other
    | _, _ => return false
  | .print ending => do
    liftM (emit (file.path ++ ending.toString) : Work Unit)
    return true
  | .printFormat format => do
    let text := (Format.unescape .program format.toList).1
    liftM (emit (String.ofList (foundText file text)) : Work Unit)
    return true
  | .list => do
    liftM (emitLine file.path : Work Unit)
    return true
  | .delete => do
    let isDirectory := file.node matches .directory _
    let result ← liftM (
      if isDirectory then Steps.call (.removeDirectory (Octets.toPath file.path))
      else Utility.perform (.removeFile (Octets.toPath file.path)) : Work (Except FileError Unit))
    match result with
    | .ok () => return true
    | .error error =>
      complainInWalk ("cannot delete " ++ quoted file.path ++ ": " ++ error.reason)
      return false
  | .prune => do
    modify fun state => { state with isPruned := true }
    return true
  | .quit => do
    modify fun state => { state with isOver := true }
    return true
  | .execute words => do
    let filled := words.map fun word =>
      String.ofList (replaceMark ['\x7b', '\x7d'] file.path.toList (word.length + 1) word.toList)
    runForFiles filled
  | .executeTogether number _ => do
    modify fun state =>
      let held := ((List.lookup number state.pending).getD []) ++ [file.path]
      { state with pending := (number, held) :: state.pending.filter (·.1 ≠ number) }
    return true
  | .negation body => return !(← evaluateTerm file body)
  | .both first second => do
    if ← evaluateTerm file first then evaluateTerm file second else return false
  | .either first second => do
    if ← evaluateTerm file first then return true else evaluateTerm file second
  | .sequence first second => do
    discard (evaluateTerm file first)
    evaluateTerm file second
where
  /-- The file may be used in a way. -/
  accessible (operator : String) : Walk Bool :=
    liftM (Condition.holdsOf operator file.path : Work Bool)

/-- Deal with items one after the other, as long as the walk is not over. -/
def walkEach {α : Type} (step : α → Walk Unit) : List α → Walk Unit
  | [] => pure ()
  | item :: rest => do
    unless (← get).isOver do
      step item
      walkEach step rest

/-- Walk through a tree of files. At most `fuel` levels are entered. -/
def walkTree (options : FindOptions) (term : FindTerm) (start : String) :
    (fuel depth : Nat) → String → Walk Unit
  | 0, _, _ => pure ()
  | fuel + 1, depth, path => do
    let follows := options.followsAll || (options.followsOperands && depth = 0)
    let found ← liftM (do
      match ← nodeAt? path follows with
      | .error _ => nodeAt? path false
      | found => return found : Work (Except FileError (Location × Node)))
    match found with
    | .error error => complainInWalk (quoted path ++ ": " ++ error.reason)
    | .ok (_, node) =>
      let file : FoundFile := { start, path, depth, node }
      let visit : Walk Unit := do
        if options.least ≤ depth then discard (evaluateTerm file term)
      modify fun state => { state with isPruned := false }
      unless options.isDepthFirst do visit
      let state ← get
      let isEntered := (node matches .directory _) && options.most.all (depth < ·) && !state.isOver &&
        !(state.isPruned && !options.isDepthFirst)
      if isEntered then
        match ← namesIn path with
        | .error error => complainInWalk (quoted path ++ ": " ++ error.reason)
        | .ok names =>
          walkEach (fun name => walkTree options term start fuel (depth + 1)
            (inDirectory path (Octets.ofText name))) names
      if options.isDepthFirst then
        unless (← get).isOver do visit

/-- The programs of an expression that are run for many files. -/
def togetherPrograms : FindTerm → List (Nat × List String)
  | .executeTogether number words => [(number, words)]
  | .negation body => togetherPrograms body
  | .both first second | .either first second | .sequence first second =>
    togetherPrograms first ++ togetherPrograms second
  | _ => []

/-- Walk through trees of files. -/
def findFiles : Utility := fun arguments => do
  let letters := arguments.takeWhile fun word => word ∈ ["-H", "-L", "-P"]
  let rest := arguments.drop letters.length
  let isPath (word : String) : Bool :=
    !(word.toList.head? = some '-' && word ≠ "-") && word ∉ ["!", "(", ")", ","]
  let paths := rest.takeWhile isPath
  let expression := rest.drop paths.length
  let options : FindOptions :=
    { followsAll := letters.getLast? = some "-L", followsOperands := letters.getLast? = some "-H" }
  let start : FindReading := { rest := expression, options }
  let result : Except String (FindTerm × FindReading) :=
    if expression.isEmpty then .ok (.constant true, start)
    else FindTerm.readList (4 * expression.length + 4) start
  match result with
  | .error message => giveUp 1 message
  | .ok (term, reading) =>
    match reading.rest with
    | word :: _ =>
      giveUp 1 (if word = ")" then "you have too many ')'" else
        "paths must precede expression: " ++ quoted word)
    | [] =>
      let whole := if reading.hasAction then term else .both term (.print '\n')
      let walk : Walk Unit := do
        walkEach (fun path => walkTree reading.options whole path depthLimit 0 path)
          (if paths.isEmpty then ["."] else paths)
        for (number, words) in togetherPrograms whole do
          match List.lookup number (← get).pending with
          | some files =>
            unless ← runForFiles (words ++ files) do
              modify fun state => { state with status := 1 }
          | none => pure ()
      let ((), state) ← walk.run {}
      return state.status

end SketchApk.Utility
