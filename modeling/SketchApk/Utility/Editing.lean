import SketchApk.Utility.Editing.Reader
import SketchApk.Utility.Editing.Run

/-!
# Editing files line by line

A script is given as an argument or in files. The lines of all inputs are edited and printed, or take the
place of the old files.

## Main definitions

* `Utility.editFiles` : editing files.
-/

namespace SketchApk.Utility

open Editing

/-- Arguments in which the option to change files, which may be behind other letters and have a suffix behind
it, is spelled by its long name. -/
def withPlainEditOptions : List String → List String
  | [] => []
  | argument :: rest =>
    let others := withPlainEditOptions rest
    match argument.toList with
    | ['-', '-'] => argument :: rest
    | '-' :: letters =>
      let front := letters.takeWhile fun c => c ∈ ['n', 'r', 'E', 's', 'u', 'z']
      match letters.drop front.length with
      | 'i' :: suffix =>
        let long := if suffix.isEmpty then "--in-place" else "--in-place=" ++ String.ofList suffix
        if front.isEmpty then long :: others
        else ("-" ++ String.ofList front) :: long :: others
      | _ => argument :: others
    | _ => argument :: others

/-- A part of a script, with the place where it is found. -/
structure ScriptPart where
  text : List Char
  /-- The file that holds the part, unless it is an argument. -/
  file : Option String := none

/-- Parts of a script, where an argument that ends in a backslash goes on in the next one. -/
def joinParts : List ScriptPart → List ScriptPart
  | first :: second :: rest =>
    let slashes := (first.text.reverse.takeWhile (· = '\\')).length
    if slashes % 2 = 1 && first.file.isNone && second.file.isNone then
      joinParts ({ text := first.text ++ '\n' :: second.text } :: rest)
    else first :: joinParts (second :: rest)
  | parts => parts
termination_by parts => parts.length

/-- The parts of a script that options give. -/
def scriptParts : List (Char × Option String) → Work (List ScriptPart)
  | [] => return []
  | (letter, value) :: rest => do
    match letter, value with
    | 'e', some text => return { text := text.toList } :: (← scriptParts rest)
    | 'f', some path =>
      match ← readFile path with
      | .error error => giveUp 4 ("couldn't open file " ++ path ++ ": " ++ error.reason)
      | .ok text =>
        let chars := text.toList
        let short := if chars.getLast? = some '\n' then chars.dropLast else chars
        return { text := short, file := some path } :: (← scriptParts rest)
    | _, _ => scriptParts rest

/-- Read the parts of a script. What is wrong with one of them ends the utility. -/
def readParts (dialect : Regex.Dialect) : (number : Nat) → List ScriptPart → Editing.Progress →
    Work Editing.Progress
  | _, [], progress => return progress
  | number, part :: rest, progress => do
    match readScript dialect (number = 1) part.text progress with
    | .ok progress =>
      readParts dialect (if part.file.isNone then number + 1 else max number 2) rest progress
    | .error error =>
      let count := (error.rest.map fun rest => part.text.length - rest.length).getD 0
      match part.file with
      | none =>
        giveUp 1 ("-e expression #" ++ toString number ++ ", char " ++ toString count ++ ": " ++
          error.message)
      | some path =>
        let line := (part.text.take count).count '\n' + 1
        giveUp 1 ("file " ++ path ++ " line " ++ toString line ++ ": " ++ error.message)

/-- The label of a command that no other command has. -/
def missingLabel? (script : Script) : Option (List Char) :=
  script.commands.toList.findSome? fun command =>
    match command.action with
    | .branch name | .branchIfReplaced name | .branchUnlessReplaced name =>
      if name.isEmpty || (script.label? name).isSome then none else some name
    | _ => none

/-- The files that a script writes. -/
def writtenFiles (script : Script) : List String :=
  (script.commands.toList.filterMap fun command =>
    match command.action with
    | .writeLine name | .writeFirstLine name => some name
    | .substitute substitution => substitution.file
    | _ => none).filter fun name => name ≠ "/dev/stdout" && name ≠ "/dev/stderr"

/-- Open the files that a script writes. -/
def openWritten : List String → Work (List (String × Nat))
  | [] => return []
  | name :: rest => do
    match ← Steps.call (.openFile (Octets.toPath name) .write) with
    | .error error => giveUp 4 ("couldn't open file " ++ name ++ ": " ++ error.reason)
    | .ok descriptor => return (name, descriptor) :: (← openWritten rest)

/-- Edit files line by line. -/
def editFiles : Utility := fun arguments => do
  let table : OptionTable :=
    { letters := "bsnrzuEe:f:l:"
      long := [⟨"quiet", 'n', false, false⟩, ⟨"silent", 'n', false, false⟩,
        ⟨"expression", 'e', true, false⟩, ⟨"file", 'f', true, false⟩,
        ⟨"regexp-extended", 'E', false, false⟩, ⟨"in-place", 'i', true, true⟩,
        ⟨"separate", 's', false, false⟩, ⟨"null-data", 'z', false, false⟩,
        ⟨"unbuffered", 'u', false, false⟩, ⟨"line-length", 'l', true, false⟩,
        ⟨"posix", 'p', false, false⟩] }
  let usage : Work Unit := do
    printError "Usage: sed [OPTION]... \x7bscript-only-if-no-other-script\x7d [input-file]...\n"
    throw 1
  let plain := withPlainEditOptions arguments
  let given ←
    match table.parseFrom plain.length plain with
    | .ok given => pure given
    | .error message =>
      complain message
      usage
      pure {}
  let isNamed := given.has 'e' || given.has 'f'
  if !isNamed && given.operands.isEmpty then usage
  let parts ←
    if isNamed then scriptParts given.options
    else pure [{ text := (given.operands.headD "").toList }]
  let dialect : Regex.Dialect := if given.has 'E' || given.has 'r' then .extended else .basic
  let progress ← readParts dialect 1 (joinParts parts) {}
  unless progress.blocks.isEmpty do
    giveUp 1 "-e expression #1, char 0: unmatched `\x7b'"
  let script : Script := { commands := progress.commands, isQuiet := progress.isQuiet }
  match missingLabel? script with
  | some name => giveUp 4 ("can't find label for jump to `" ++ String.ofList name ++ "'")
  | none => pure ()
  let outputs ← openWritten (writtenFiles script).eraseDups
  let style : Style :=
    { isQuiet := given.has 'n' || script.isQuiet
      suffix := given.value? 'i'
      changesFiles := given.has 'i'
      isSeparate := given.has 's' || given.has 'i'
      ending := if given.has 'z' then Char.ofNat 0 else '\n'
      portion := if given.has 'u' then 1 else 65536 }
  let files := if isNamed then given.operands else given.operands.tail
  let start : State := { files := if files.isEmpty then ["-"] else files, outputs }
  let ((), state) ← (runCycles style script Steps.manyTimes false).run start
  return state.status

end SketchApk.Utility
