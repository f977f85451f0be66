import SketchApk.Process.Schedule
import SketchApk.Program.Standard
import SketchApk.Tool.Basic

/-!
# Running programs

A file can be launched if it may be executed and is the image of a standard program, or if its first line
names its interpreter. An interpreter is launched in place of the file, which it is given as an argument; it
may be named with one argument of its own. An interpreter may be a file of the same kind, up to some depth.

A program is given by a path, or by a name that is searched among the directories of the environment. It
runs in the working directory of its call, or else in the one of its caller. There is nothing to read from
its standard input, and what it prints is kept.

Whoever waits for a program looks after it at regular times. When a stop has been requested by then, the
program is ended, and nothing more is seen of it.

## Main definitions

* `Program.interpreter?` : the interpreter that the first line of a file names.
* `Program.resolve` : the standard program as which a file is launched.
* `Program.launcher` : launching files.
* `Program.run` : how a call of a program ends, with the files afterwards.
-/

namespace SketchApk.Program

/-! ### What a file is launched as -/

/-- The number of characters of a first line that matter. -/
def firstLineLimit : Nat := 255

/-- The interpreter that the first line of a file names, with its argument. -/
def interpreter? (content : Content) : Option (String × Option String) :=
  let front := (Octets.ofBytes (content.toBytes.extract 0 firstLineLimit)).toList
  match front with
  | '#' :: '!' :: rest =>
    let isBlank (c : Char) : Bool := c = ' ' || c = '\t'
    let line := (rest.takeWhile (· ≠ '\n')).dropWhile isBlank
    let short := (line.reverse.dropWhile isBlank).reverse
    let path := short.takeWhile (!isBlank ·)
    let argument := (short.drop path.length).dropWhile isBlank
    if path.isEmpty then none
    else some (String.ofList path, if argument.isEmpty then none else some (String.ofList argument))
  | _ => none

/-- The number of interpreters that stand for one another at most. -/
def interpreterLimit : Nat := 5

/-- The standard program as which a file is launched, and what it is given. Files are loaded in a given way,
and at most `fuel` interpreters stand for one another. -/
def resolve {m : Type → Type} [Monad m] (load : Path → m (Except FileError Content)) :
    (fuel : Nat) → Launch → m (Except FileError (String × Launch))
  | fuel, launch => do
    match ← load (Octets.toPath launch.path) with
    | .error error => return .error error
    | .ok content =>
      match nameOfImage? content, interpreter? content, fuel with
      | some name, _, _ => return .ok (name, launch)
      | none, none, _ => return .error .notExecutable
      | none, some _, 0 => return .error .tooManyLinks
      | none, some (path, argument), fuel + 1 =>
        let arguments := path :: argument.toList ++ launch.path :: launch.arguments.drop 1
        resolve load fuel { launch with path, arguments }

/-- Launch files. At most `depth` programs are launched by one another. -/
def launcher : (depth : Nat) → Launcher
  | 0, _, report => report .notExecutable
  | depth + 1, launch, report =>
    let load (path : Path) : Steps Unit Unit (Except FileError Content) := Steps.call (.load path)
    let next (result : Except FileError (String × Launch)) : Process :=
      match result with
      | .error error => report error
      | .ok (name, launch) =>
        match start? name (launcher depth) launch with
        | some process => .step .renew fun _ => process
        | none => report .notExecutable
    (resolve load interpreterLimit launch) (fun result _ => next result) (fun _ _ => report .notFound) ()

/-! ### How a program ends -/

/-- How a program has ended. -/
inductive Ending where
  | finished (output : ToolOutput)
  | stopped

/-- The time between two looks after a program, in microseconds. -/
def lookInterval : Nat := 25000

/-- The number of steps after which a program counts as one that does not end. -/
def stepLimit : Nat := 4000000

/-- The directories in which programs are searched if no others are named. -/
def usualPath : String := "/usr/local/sbin:/usr/local/bin:/usr/sbin:/usr/bin:/sbin:/bin"

/-- The location of the directory in which a call runs. -/
def directoryOf (files : FileSystem) (cwd : Location) : Option Path → Except FileError Location
  | none => .ok cwd
  | some directory =>
    match files.find cwd directory with
    | .ok (place, .directory mode) =>
      if mode.isExecutable then .ok place else .error .permissionDenied
    | .ok _ => .error .notADirectory
    | .error error => .error error

/-- The first of some paths at which a program can be launched, resolved to a standard program. -/
def resolveFirst (load : Path → Except FileError Content) (arguments : List String)
    (environment : List (String × String)) :
    FileError → List String → Except FileError (String × Launch)
  | reason, [] => .error reason
  | reason, path :: rest =>
    let found : Except FileError (String × Launch) :=
      (resolve (fun path => (load path : Id (Except FileError Content))) interpreterLimit
        { path, arguments, environment } : Id _)
    match found with
    | .ok found => .ok found
    | .error .permissionDenied => resolveFirst load arguments environment .permissionDenied rest
    | .error error =>
      if error = .notFound || error = .notADirectory then
        resolveFirst load arguments environment reason rest
      else .error error

/-- The output of a program that has ended. -/
def outputOf (kernel : Kernel) (ending : ProcessEnd) : ToolOutput :=
  let printed (index : Nat) : String :=
    Bytes.lenientText (kernel.sinks.getD index ByteArray.empty)
  { code :=
      match ending with
      | .exited status => some status
      | .killed _ => none
    stdout := printed 0
    stderr := printed 1 }

/-- The task of a program that is started at a location. -/
def mainTask (number : Nat) (place : Location) (process : Process) : Kernel.Task :=
  { number, parent := 0, place, state := .running process
    descriptors := [⟨0, 0, false⟩, ⟨1, 1, false⟩, ⟨2, 2, false⟩] }

/-- How a call of a program ends, with the files and the time that has passed, in milliseconds. The deadline
is the time in milliseconds after which a stop is requested. -/
def run (files : FileSystem) (cwd : Location) (environment : List (String × String))
    (processId : Nat) (deadline : Option Nat) (invocation : Invocation) :
    Except FileError (Ending × FileSystem × Nat) := do
  let program := invocation.program.text
  let texts := program :: invocation.arguments ++ (invocation.directory.map (·.text)).toList
  if texts.any fun text => '\x00' ∈ text.toList then throw .nullInArgument
  let place ← directoryOf files cwd invocation.directory
  let kernel : Kernel :=
    { files, nextTask := processId + 2, sinks := #[ByteArray.empty, ByteArray.empty]
      openFiles := #[{ stream := .nothing }, { stream := .sink 0 }, { stream := .sink 1 }] }
  let load (path : Path) : Except FileError Content :=
    kernel.load (mainTask 0 place (.exit 0)) path
  let octets := environment.map fun entry => (Octets.ofText entry.1, Octets.ofText entry.2)
  let name := Octets.ofText program
  let paths :=
    if '/' ∈ name.toList then [name]
    else if name.isEmpty then []
    else ((octets.lookup "PATH").getD usualPath).splitOn ":" |>.map fun directory =>
      if directory.isEmpty then name else directory ++ "/" ++ name
  let arguments := name :: invocation.arguments.map Octets.ofText
  let (standard, launch) ← resolveFirst load arguments octets .notFound paths
  match start? standard (launcher Steps.manyTimes) launch with
  | none => throw .notExecutable
  | some process =>
    if deadline = some 0 then return (.stopped, files, 0)
    let number := processId + 1
    let task := mainTask number place process
    let limit := deadline.map fun time => (time * 1000 + lookInterval - 1) / lookInterval * lookInterval
    match { kernel with tasks := [task] }.run stepLimit number limit with
    | .finished ending after => return (.finished (outputOf after ending), after.files, after.clock / 1000)
    | .stopped after => return (.stopped, after.files, after.clock / 1000)

end SketchApk.Program
