import SketchApk.Plan.Basic
import SketchApk.Text.Character

/-!
# Attempts

An attempt is a plan that may end with a fault. A fault ends the attempt at once, and every activity
that the attempt was part of is recorded in it on the way out.

A tool that ends with a code other than zero, or by a signal, makes its command fail. The failure
shows what the tool printed: its error output, unless that is blank, and its standard output
otherwise.

Some plans are composed of several operations on files, and tests turn errors into answers. A
directory is created together with the directories above it that are missing, from the outermost
inwards; that a directory exists already is no error.

## Main definitions

* `Attempt` : a plan that may end with a fault.
* `Command.run` : the attempt to run a command.
* `Plan.makeDirectories` : creating a directory and those above it that are missing.
* `Plan.walkTree` : the regular files of a tree.
-/

namespace SketchApk

/-- A plan that may end with a fault. -/
abbrev Attempt := ExceptT Fault Plan

namespace Attempt

variable {α : Type}

/-- The attempt that ends with a cause of failure. -/
def fail (cause : Cause) : Attempt α :=
  throw { cause }

/-- The attempt as part of an activity, which is recorded in its fault. -/
def during (activity : Activity) (attempt : Attempt α) : Attempt α :=
  ExceptT.adapt (·.during activity) attempt

/-- The attempt to carry out an operation on files. -/
def file (operation : FileOperation) : Attempt operation.Value :=
  ExceptT.mk do
    match ← Plan.ask (.file operation) with
    | .ok value => pure (.ok value)
    | .error error => pure (.error { cause := .file error })

/-- The attempt that ends with a given value or fault. -/
def ofExcept (result : Except Fault α) : Attempt α :=
  ExceptT.mk (pure result)

/-- The plan as an attempt that does not fail. -/
def always (plan : Plan α) : Attempt α :=
  ExceptT.lift plan

/-- The attempt with a plan behind it that is carried out whatever the outcome. -/
def followedBy (attempt : Attempt α) (cleanup : Plan Unit) : Attempt α :=
  ExceptT.mk do
    let result ← attempt.run
    cleanup
    pure result

/-- The attempt with a plan behind it that is carried out if it fails. -/
def undoneBy (attempt : Attempt α) (cleanup : Plan Unit) : Attempt α :=
  ExceptT.mk do
    match ← attempt.run with
    | .ok value => return .ok value
    | .error fault =>
      cleanup
      return .error fault

end Attempt

/-! ### Commands -/

/-- The attempt to call a tool. -/
def Attempt.call (invocation : Invocation) : Attempt ToolOutput :=
  ExceptT.mk (Plan.ask (.call invocation))

/-- What the failure of a tool shows of its output. -/
def ToolOutput.detail (output : ToolOutput) : String :=
  let errors := Text.trimmed output.stderr
  if errors.isEmpty then Text.trimmed output.stdout else errors

namespace Command

/-- The fault of a command whose tool has left an output. -/
def failure (command : Command) (output : ToolOutput) : Fault :=
  { cause := .tool (.failed command.failureHeadline output.code output.detail) }

/-- The attempt to run a command, which succeeds when its tool does. -/
def run (command : Command) : Attempt ToolOutput := do
  let output ← Attempt.call command.toInvocation
  if output.isSuccess then return output else throw (command.failure output)

end Command

end SketchApk

namespace SketchApk.Plan

/-! ### Operations on files -/

/-- What a path leads to, if anything. -/
def inspect? (path : Path) : Plan (Option Inspection) := do
  match ← ask (.file (.inspect path)) with
  | .ok inspection => return some inspection
  | .error _ => return none

/-- The path leads to something. -/
def pathExists (path : Path) : Plan Bool := do
  return (← inspect? path).isSome

/-- The path leads to a regular file. -/
def isFile (path : Path) : Plan Bool := do
  return (← inspect? path).any (·.kind = .file)

/-- The path leads to a directory. -/
def isDirectory (path : Path) : Plan Bool := do
  return (← inspect? path).any (·.kind = .directory)

/-- The directory has at least one entry. -/
def hasEntries (path : Path) : Plan Bool := do
  match ← ask (.file (.list path)) with
  | .ok names => return !names.isEmpty
  | .error _ => return false

/-- The answer to an error in creating a directory: there is none if the directory exists. -/
def unlessDirectory (path : Path) (error : FileError) : Plan (Except FileError Unit) := do
  if ← isDirectory path then return .ok () else return .error error

/-- Create the first of some directories. Each of them is contained in the next one, and those that
are missing are created before. -/
def makeChain : List Path → Plan (Except FileError Unit)
  | [] => return .error .notFound
  | path :: containing =>
    if path.isEmpty then return .ok ()
    else do
      match ← ask (.file (.makeDirectory path)) with
      | .ok () => return .ok ()
      | .error .notFound =>
        match ← makeChain containing with
        | .error error => return .error error
        | .ok () =>
          match ← ask (.file (.makeDirectory path)) with
          | .ok () => return .ok ()
          | .error error => unlessDirectory path error
      | .error error => unlessDirectory path error

/-- Create a directory and those above it that are missing. -/
def makeDirectories (path : Path) : Attempt Unit :=
  ExceptT.mk do
    match ← makeChain path.ancestors with
    | .ok () => return .ok ()
    | .error error => return .error { cause := .file error }

/-- Create a directory and those above it that are missing, as an activity of its own. -/
def createDirectory (path : Path) : Attempt Unit :=
  (makeDirectories path).during (.creatingDirectory path)

/-- Remove a directory with everything below it, if it exists. -/
def removeDirectory (path : Path) (activity : Activity) : Attempt Unit := do
  if ← Attempt.always (pathExists path) then
    (Attempt.file (.removeTree path)).during activity

/-- Walk through a tree. -/
def walk (root : Path) : Plan FileWalk := do
  match ← ask (.file (.walk root)) with
  | .ok found => return found
  | .error error => return { files := [], halt := some ([], error) }

/-- The fault of a walk that has come to a halt. -/
def walkFault (root : Path) (names : List String) (error : FileError) : Fault :=
  { activities := [.walking root], cause := .walk (root.descend names) error }

/-- Fail if a walk has come to a halt. -/
def throughout (root : Path) (found : FileWalk) : Attempt Unit :=
  match found.halt with
  | none => return ()
  | some (names, error) => throw (walkFault root names error)

/-- The regular files of a tree, by the names that lead to them from its root. -/
def walkTree (root : Path) : Attempt (List (List String)) := do
  let found ← Attempt.always (walk root)
  throughout root found
  return found.files

/-- Read a file as text. -/
def readText (path : Path) : Attempt String := do
  let content ← Attempt.file (.read path)
  match content.text? with
  | some text => return text
  | none => Attempt.fail (.file .notText)

/-- Give a file a text as its content, creating the directory of the file. -/
def writeTextFile (path : Path) (text : String) : Attempt Unit := do
  path.parent?.forM createDirectory
  (Attempt.file (.write path (.ofText text))).during (.writing path)

/-- Print a text as one line. -/
def printLine (text : String) : Plan Unit :=
  ask (.print (text ++ "\n"))

end SketchApk.Plan
