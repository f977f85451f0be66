import SketchApk.Process.Launch
import SketchApk.Text.ShellWord

/-!
# Utilities

A utility is a program that is given arguments and ends with a status. Options among its arguments are
letters behind a dash, or words behind two dashes; some have a value. What is not an option is an
*operand*.

All texts are octet texts.

## Main definitions

* `Utility`, `Work` : utilities, and the monad in which they are written.
* `OptionTable.parse` : the options and operands among arguments.
-/

namespace SketchApk

/-- What a utility knows besides its arguments. -/
structure Utility.Surroundings where
  /-- The name by which the utility was called. -/
  name : String
  environment : List (String × String)
  launcher : Launcher

/-- Something that a utility does. It may be left early with a status. -/
abbrev Work := Steps Utility.Surroundings Nat

/-- A utility, which ends with a status. -/
abbrev Utility := List String → Work Nat

namespace Utility

/-- The process of a utility. -/
def start (utility : Utility) (launcher : Launcher) (launch : Launch) : Process :=
  let surroundings : Surroundings :=
    { name := launch.arguments.headD launch.path, environment := launch.environment, launcher }
  (utility launch.arguments.tail) (fun status _ => .exit status) (fun status _ => .exit status)
    surroundings

/-- Print to the standard error. -/
def printError (text : String) : Work Unit :=
  discard (Steps.write 2 text)

/-- Complain about something. -/
def complain (message : String) : Work Unit := do
  printError ((← get).name ++ ": " ++ message ++ "\n")

/-- End with advice on where to read about the utility. -/
def suggestHelp {α : Type} (status : Nat) : Work α := do
  printError ("Try '" ++ (← get).name ++ " --help' for more information.\n")
  throw status

/-- Complain about something and end. -/
def giveUp {α : Type} (status : Nat) (message : String) : Work α := do
  complain message
  throw status

/-- Print to the standard output. What cannot be printed ends the utility. -/
def emit (text : String) : Work Unit := do
  match ← Steps.write 1 text with
  | .ok () => return ()
  | .error error => giveUp 1 ("write error: " ++ error.reason)

/-- Print a line to the standard output. -/
def emitLine (text : String) : Work Unit :=
  emit (text ++ "\n")

/-- Open a file to read from it; a dash stands for the standard input. -/
def openInput (path : String) : Work (Except FileError Nat) :=
  if path = "-" then return .ok 0 else Steps.call (.openFile (Octets.toPath path) .read)

/-- Close a file unless it is the standard input. -/
def closeInput (descriptor : Nat) : Work Unit := do
  unless descriptor = 0 do Steps.call (.close descriptor)

/-- The octet text of a file. -/
def readFile (path : String) : Work (Except FileError String) := do
  match ← openInput path with
  | .error error => return .error error
  | .ok descriptor =>
    let text ← Steps.readAll descriptor
    closeInput descriptor
    return text

/-- Carry out an operation on files. -/
def perform (operation : FileOperation) : Work (Except FileError operation.Value) :=
  Steps.call (.file operation)

/-- The node that a path leads to. -/
def nodeAt? (path : String) (follow : Bool) : Work (Except FileError (Location × Node)) :=
  Steps.call (.findNode (Octets.toPath path) follow)

/-- The path leads to a directory. -/
def isDirectory (path : String) : Work Bool := do
  match ← nodeAt? path true with
  | .ok (_, .directory _) => return true
  | _ => return false

/-- A name between quotes. -/
def quoted (text : String) : String :=
  Text.quotedWord text

/-- A text that is no name, between quotes. -/
def cited (text : String) : String :=
  Text.citedText text

/-- A name as it is shown in messages. -/
def shown (name : String) : String :=
  Text.shellWord name

/-- The name of a file in a directory. -/
def inDirectory (directory name : String) : String :=
  if directory.toList.getLast? = some '/' then directory ++ name else directory ++ "/" ++ name

end Utility

/-- An option with a long name. -/
structure LongOption where
  name : String
  /-- The letter that means the same. -/
  letter : Char
  /-- The option has a value. -/
  hasValue : Bool := false
  /-- The value may be missing. -/
  isOptional : Bool := false

/-- The options of a utility. -/
structure OptionTable where
  /-- The letters of the options. A colon follows those that have a value. -/
  letters : String
  long : List LongOption := []
  /-- The status after arguments that are not understood. -/
  failure : Nat := 1
  /-- Options end at the first operand. -/
  stopsAtOperand : Bool := false

/-- Options with their values, and operands. -/
structure Arguments where
  options : List (Char × Option String) := []
  operands : List String := []

namespace Arguments

/-- An option is given. -/
def has (arguments : Arguments) (letter : Char) : Bool :=
  arguments.options.any (·.1 = letter)

/-- The value of an option that was given last. -/
def value? (arguments : Arguments) (letter : Char) : Option String :=
  (arguments.options.reverse.find? (·.1 = letter)).bind (·.2)

/-- The values of an option. -/
def values (arguments : Arguments) (letter : Char) : List String :=
  arguments.options.filterMap fun entry => if entry.1 = letter then entry.2 else none

/-- The option among some letters that was given last. -/
def last? (arguments : Arguments) (letters : List Char) : Option Char :=
  (arguments.options.reverse.find? (·.1 ∈ letters)).map (·.1)

/-- The arguments with an option in front. -/
def withOption (arguments : Arguments) (letter : Char) (value : Option String) : Arguments :=
  { arguments with options := (letter, value) :: arguments.options }

end Arguments

namespace OptionTable

variable (table : OptionTable)

/-- A letter of an option is known, and has a value. -/
def letter? (letter : Char) : Option Bool :=
  match table.letters.toList.dropWhile (· ≠ letter) with
  | [] => none
  | _ :: ':' :: _ => if letter = ':' then none else some true
  | _ => if letter = ':' then none else some false

/-- The options that some letters stand for. The last one is apart if its value is to follow. -/
def lettersOf : List Char → Except Char (List (Char × Option String) × Option Char)
  | [] => .ok ([], none)
  | letter :: rest =>
    match table.letter? letter with
    | none => .error letter
    | some true =>
      if rest.isEmpty then .ok ([], some letter)
      else .ok ([(letter, some (String.ofList rest))], none)
    | some false =>
      (lettersOf rest).map fun (options, last) => ((letter, none) :: options, last)

/-- The long option that a text names, of which the end may be missing. -/
def long? (name : String) : Option LongOption :=
  match table.long.find? (·.name = name) with
  | some found => some found
  | none =>
    match table.long.filter fun option => name.toList.isPrefixOf option.name.toList with
    | [found] => some found
    | _ => none

/-- The options and operands among some arguments, or a complaint. At most `fuel` arguments are dealt
with. -/
def parseFrom : (fuel : Nat) → List String → Except String Arguments
  | 0, arguments => .ok { operands := arguments }
  | _ + 1, [] => .ok {}
  | fuel + 1, argument :: rest =>
    match argument.toList with
    | ['-', '-'] => .ok { operands := rest }
    | '-' :: '-' :: text =>
      let name := String.ofList (text.takeWhile (· ≠ '='))
      let value? := (text.dropWhile (· ≠ '=')).tail? |>.map String.ofList
      match table.long? name with
      | none => .error ("unrecognized option '--" ++ name ++ "'")
      | some option =>
        if option.hasValue && !option.isOptional then
          match value?, rest with
          | some value, _ => do return (← parseFrom fuel rest).withOption option.letter (some value)
          | none, value :: after => do
            return (← parseFrom fuel after).withOption option.letter (some value)
          | none, [] => .error ("option '--" ++ option.name ++ "' requires an argument")
        else if value?.isSome && !option.hasValue then
          .error ("option '--" ++ option.name ++ "' doesn't allow an argument")
        else do return (← parseFrom fuel rest).withOption option.letter value?
    | '-' :: first :: letters =>
      match table.lettersOf (first :: letters), rest with
      | .error letter, _ => .error ("invalid option -- '" ++ letter.toString ++ "'")
      | .ok (options, none), _ => do
        let more ← parseFrom fuel rest
        return { more with options := options ++ more.options }
      | .ok (options, some letter), value :: after => do
        let more ← parseFrom fuel after
        return { more with options := options ++ (letter, some value) :: more.options }
      | .ok (_, some letter), [] =>
        .error ("option requires an argument -- '" ++ letter.toString ++ "'")
    | _ =>
      if table.stopsAtOperand then .ok { operands := argument :: rest }
      else do
        let more ← parseFrom fuel rest
        return { more with operands := argument :: more.operands }

/-- The options and operands among some arguments. Arguments that are not understood end the
utility. -/
def parse (arguments : List String) : Work Arguments := do
  match table.parseFrom arguments.length arguments with
  | .ok found => return found
  | .error message =>
    Utility.complain message
    Utility.suggestHelp table.failure

end OptionTable

namespace Utility

/-- Complain about a wrong use, and end. -/
def giveUpUsage {α : Type} (status : Nat) (message : String) : Work α := do
  complain message
  suggestHelp status

end Utility

end SketchApk
