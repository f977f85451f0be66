import SketchApk.Process.Basic
import SketchApk.Text.Octets

/-!
# Launching programs

A process turns into another program by launching a file. The program is given arguments, of which
the first is the name by which it is called, and an environment of variables. A file that cannot be
launched is an error, with which the process goes on as before.

All texts are octet texts.

## Main definitions

* `Launch` : what is launched.
* `Launcher` : how files are launched.
-/

namespace SketchApk

/-- A file to be launched, with what the program is given. -/
structure Launch where
  path : String
  /-- The name by which the program is called, and its arguments. -/
  arguments : List String
  environment : List (String × String)

/-- The process into which a process turns by launching a file. It goes on after an error. -/
abbrev Launcher := Launch → (FileError → Process) → Process

/-- The process into which a process turns by launching the first of some files that can be executed. A
file without a known format is a script. -/
def Launcher.first (launcher : Launcher) (arguments : List String)
    (environment : List (String × String)) (report : FileError → Process) :
    FileError → List String → Process
  | reason, [] => report reason
  | reason, path :: rest =>
    launcher { path, arguments, environment } fun error =>
      if error = .notExecutable then
        launcher
          { path := "/bin/sh", arguments := "/bin/sh" :: path :: arguments.drop 1, environment }
          report
      else
        launcher.first arguments environment report
          (if error = .notFound || error = .notADirectory then reason else error) rest

namespace Steps

variable {σ ε : Type}

/-- Write an octet text, and tell whether that succeeds. -/
def write (descriptor : Nat) (text : String) : Steps σ ε (Except FileError Unit) :=
  if text.isEmpty then pure (.ok ()) else call (.write descriptor (Octets.toBytes text))

/-- A number of repetitions that is never reached. -/
def manyTimes : Nat := 1000000000

/-- The octet text of all that can be read from a descriptor, behind what has been read. At most
`fuel` parts are read. -/
def readRest (descriptor : Nat) : (fuel : Nat) → List String → Steps σ ε (Except FileError String)
  | 0, parts => pure (.ok (String.join parts.reverse))
  | fuel + 1, parts => do
    match ← call (.read descriptor 65536) with
    | .error error => return .error error
    | .ok data =>
      if data.isEmpty then return .ok (String.join parts.reverse)
      else readRest descriptor fuel (Octets.ofBytes data :: parts)

/-- The octet text of all that can be read from a descriptor. -/
def readAll (descriptor : Nat) : Steps σ ε (Except FileError String) :=
  readRest descriptor manyTimes []

/-- Wait until a child has ended, and tell how. -/
def waitFor (child : Nat) : Steps σ ε ProcessEnd := do
  match ← call (.wait (some child) .blocking) with
  | .ended _ ending => return ending
  | _ => return .exited 127

end Steps

/-- The status by which a shell knows how a process has ended. -/
def ProcessEnd.status : ProcessEnd → Nat
  | exited status => status
  | killed signal => 128 + signal.number

end SketchApk
