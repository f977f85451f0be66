import Std.Time.DateTime
import SketchApk.CommandLine

/-!
# The program

Carries the plan of a command out on the files and the clock of the system. Programs are not started
from here, so a call is refused and a build ends at its first call.
-/

namespace SketchApk.Main

/-- The flags and the state of the builder. -/
structure Flags where
  building : Bool := false
  stop : Bool := false
  state : BuildState := .idle

/-- The error of a file operation that an error of the system stands for. -/
def fileError : IO.Error → FileError
  | .noFileOrDirectory .. => .notFound
  | .noSuchThing .. => .notFound
  | .alreadyExists .. => .alreadyExists
  | .permissionDenied .. => .permissionDenied
  | .inappropriateType _ code _ => if code = 21 then .isADirectory else .notADirectory
  | .unsatisfiedConstraints .. => .directoryNotEmpty
  | .resourceExhausted .. => .nameTooLong
  | _ => .invalidArgument

/-- The answer of a system operation. -/
def attempt {α : Type} (action : IO α) : IO (Except FileError α) := do
  match ← action.toBaseIO with
  | .ok value => return .ok value
  | .error error => return .error (fileError error)

/-- A path as an entry of the working directory. An absolute path stays as it is. -/
def entry (path : Path) : IO.FS.DirEntry :=
  ⟨".", path.text⟩

/-- The kind of what a path leads to. -/
def kindOf (path : Path) : IO FileKind := do
  match (← (entry path).path.metadata).type with
  | .dir => return .directory
  | _ => return .file

/-- The names in a directory, in order. -/
def namesIn (path : Path) : IO (List String) := do
  let found ← (entry path).path.readDir
  return (found.toList.map (·.fileName)).mergeSort fun a b => decide (a ≤ b)

/-- The regular files of a tree. Links are passed over. -/
partial def filesBelow (path : Path) : IO (List (List String)) := do
  let found ← (← namesIn path).mapM fun name => do
    match (← (entry (path / name)).path.symlinkMetadata).type with
    | .dir => return (← filesBelow (path / name)).map (name :: ·)
    | .file => return [[name]]
    | _ => return []
  return found.flatten

/-- The rights that three permission bits grant. -/
def right (bits : Nat) : IO.AccessRight :=
  ⟨bits / 4 % 2 = 1, bits / 2 % 2 = 1, bits % 2 = 1⟩

/-- Carry out an operation on files. Permission bits cannot be read, so every file counts as
executable. -/
def perform : (operation : FileOperation) → IO (Except FileError operation.Value)
  | .inspect path => attempt do return Inspection.mk (← kindOf path) Mode.newDirectory
  | .list path => attempt (namesIn path)
  | .walk root => attempt do
    match ← kindOf root with
    | .directory => return FileWalk.mk (← filesBelow root) none
    | .file => return FileWalk.mk [[]] none
  | .read path => attempt do return Content.bytes (← IO.FS.readBinFile path.text)
  | .readToExtend path => attempt do return Content.bytes (← IO.FS.readBinFile path.text)
  | .write path content => attempt (IO.FS.writeBinFile path.text content.toBytes)
  | .ensureFile path => attempt do discard (IO.FS.Handle.mk path.text .append)
  | .makeDirectory path => attempt (IO.FS.createDir path.text)
  | .removeFile path => attempt (IO.FS.removeFile path.text)
  | .removeTree path => attempt (IO.FS.removeDirAll path.text)
  | .rename source target => attempt (IO.FS.rename source.text target.text)
  | .copy source target => attempt do
    IO.FS.writeBinFile target.text (← IO.FS.readBinFile source.text)
  | .setMode path mode => attempt do
    let bits := mode.toNat
    IO.setAccessRights path.text ⟨right (bits / 64), right (bits / 8), right bits⟩

/-- The moment that the clock of the system shows. -/
def now : IO Moment := do
  let nanos := (← Std.Time.Timestamp.now).toNanosecondsSinceUnixEpoch.val.toNat
  let seconds := nanos / nanosPerSecond
  let date := Std.Time.PlainDate.ofEpochDay (Std.Time.Day.Offset.ofInt (seconds / 86400))
  return ⟨date.year.toInt.toNat, date.month.val.toNat, date.day.val.toNat,
    seconds / 3600 % 24, seconds / 60 % 60, seconds % 60, nanos % nanosPerSecond⟩
where
  /-- The number of nanoseconds in a second. -/
  nanosPerSecond : Nat := 1000000000

/-- Answer a request. -/
def answer (flags : IO.Ref Flags) : (request : Request) → IO request.Answer
  | .file operation => perform operation
  | .call invocation =>
    return .error {
      activities := [.spawning invocation.program]
      cause := .tool (.refused "programs cannot be started from here") }
  | .print text => do
    (← IO.getStdout).putStr text
    (← IO.getStdout).flush
  | .complain text => do (← IO.getStderr).putStr text
  | .deliver _ _ => return ()
  | .clock => IO.monoNanosNow
  | .calendar => now
  | .processId => IO.monoNanosNow
  | .acquire => flags.modifyGet fun f => (!f.building, { f with building := true })
  | .release => flags.modify fun f => { f with building := false }
  | .isBuilding => return (← flags.get).building
  | .requestStop => flags.modify fun f => { f with stop := true }
  | .clearStop => flags.modify fun f => { f with stop := false }
  | .isStopRequested => return (← flags.get).stop
  | .setState state => flags.modify fun f => { f with state }
  | .state => return (← flags.get).state

/-- Carry out a plan. -/
def execute {α : Type} (flags : IO.Ref Flags) : Plan α → IO α
  | .done value => return value
  | .step request next => do
    let reply ← answer flags request
    execute flags (next reply)

/-- The variables that commands look at. -/
def variableNames : List String :=
  ["APK_BUILDER_HOME", "HOME", "XDG_DATA_HOME", "PATH"] ++ Tool.all.map Tool.variableName

/-- The user of the program. -/
def user : IO CommandLine.User := do
  let found ← variableNames.filterMapM fun name => do
    return (← IO.getEnv name).map fun value => (name, value)
  return ⟨found, none⟩

end SketchApk.Main

/-- Execute the command that the arguments describe. -/
def main (arguments : List String) : IO UInt32 := do
  let flags ← IO.mkRef ({} : SketchApk.Main.Flags)
  let user ← SketchApk.Main.user
  let code ← SketchApk.Main.execute flags (SketchApk.CommandLine.run user arguments)
  return UInt32.ofNat code
