import SketchApk.Path
import SketchApk.Text.Character

/-!
# The external tools

The pipeline drives six tools. A toolchain says where each of them is, and it has a home directory
with the archive of the platform, the runtime library of sketches and a lock file.

A call names a program, its arguments and possibly a working directory. A tool that has ended leaves
an exit code, which is missing when a signal ended it, and what it printed. A command is a call with
the message that reports its failure.

For display a call is written as one line: an argument that is empty or has a blank in it is put
between single quotes, and no argument is escaped.

## Main definitions

* `Tool`, `Toolchain` : the tools and where they are.
* `Invocation`, `ToolOutput` : a call of a tool and what it leaves.
* `Command` : a call with the message that reports its failure.
-/

namespace SketchApk

/-- An external tool. -/
inductive Tool where
  | aapt2
  | javac
  | d8
  | r8
  | zipalign
  | apksigner
  deriving DecidableEq, Repr

namespace Tool

/-- The name of a tool, which is also the name of its binary. -/
def name : Tool → String
  | aapt2 => "aapt2"
  | javac => "javac"
  | d8 => "d8"
  | r8 => "r8"
  | zipalign => "zipalign"
  | apksigner => "apksigner"

/-- All tools. -/
def all : List Tool :=
  [aapt2, javac, d8, r8, zipalign, apksigner]

/-- The tool of a name. -/
def ofName? (name : String) : Option Tool :=
  all.find? (·.name = name)

/-- The environment variable that names the binary of a tool. -/
def variableName : Tool → String
  | aapt2 => "APK_BUILDER_AAPT2"
  | javac => "APK_BUILDER_JAVAC"
  | d8 => "APK_BUILDER_D8"
  | r8 => "APK_BUILDER_R8"
  | zipalign => "APK_BUILDER_ZIPALIGN"
  | apksigner => "APK_BUILDER_APKSIGNER"

theorem mem_all (tool : Tool) : tool ∈ all := by
  cases tool <;> simp [all]

end Tool

/-- Where the tools are, and the home directory of the toolchain. -/
structure Toolchain where
  home : Path
  aapt2 : Path
  javac : Path
  d8 : Path
  r8 : Path
  zipalign : Path
  apksigner : Path
  deriving DecidableEq

namespace Toolchain

/-- The location of a tool. -/
def path (toolchain : Toolchain) : Tool → Path
  | .aapt2 => toolchain.aapt2
  | .javac => toolchain.javac
  | .d8 => toolchain.d8
  | .r8 => toolchain.r8
  | .zipalign => toolchain.zipalign
  | .apksigner => toolchain.apksigner

/-- The toolchain with a home directory whose tools are where a function says. -/
def ofLocations (home : Path) (location : Tool → Path) : Toolchain where
  home
  aapt2 := location .aapt2
  javac := location .javac
  d8 := location .d8
  r8 := location .r8
  zipalign := location .zipalign
  apksigner := location .apksigner

/-- The toolchain whose tools are all in one directory. -/
def ofDirectory (home binaries : Path) : Toolchain :=
  ofLocations home fun tool => binaries / tool.name

/-- The archive of the platform. -/
def androidJar (toolchain : Toolchain) : Path :=
  toolchain.home / "android.jar"

/-- The runtime library of sketches. -/
def runtimeJar (toolchain : Toolchain) : Path :=
  toolchain.home / "processing-core.jar"

/-- The lock that is held while signing keys are copied. -/
def keyLock (toolchain : Toolchain) : Path :=
  toolchain.home / ".signing.lock"

@[simp] theorem path_ofLocations (home : Path) (location : Tool → Path) (tool : Tool) :
    (ofLocations home location).path tool = location tool := by
  cases tool <;> rfl

end Toolchain

/-! ### Calls of tools -/

/-- One call of a tool. -/
structure Invocation where
  program : Path
  arguments : List String
  directory : Option Path := none
  deriving DecidableEq, Repr

namespace Invocation

/-- The name of the program without directories. -/
def toolName (invocation : Invocation) : String :=
  invocation.program.fileName?.getD invocation.program.text

/-- An argument as it is displayed. -/
def displayed (argument : String) : String :=
  if argument.isEmpty || argument.toList.any Text.isBlank then "'" ++ argument ++ "'" else argument

/-- The call on one line. -/
def commandLine (invocation : Invocation) : String :=
  invocation.arguments.foldl (fun line argument => line ++ " " ++ displayed argument)
    invocation.program.text

end Invocation

/-- What a tool that has ended leaves. -/
structure ToolOutput where
  /-- The exit code, unless a signal ended the tool. -/
  code : Option Int
  stdout : String
  stderr : String
  deriving DecidableEq, Repr

/-- A tool has succeeded when its exit code is zero. -/
def ToolOutput.isSuccess (output : ToolOutput) : Bool :=
  output.code = some 0

/-- A call with the message that reports its failure. -/
structure Command extends Invocation where
  failureMessage : Option String := none
  deriving DecidableEq

namespace Command

/-- The command that calls a program without arguments. -/
def of (program : Path) : Command :=
  { program, arguments := [] }

/-- The command with more arguments. -/
def args (command : Command) (arguments : List String) : Command :=
  { command with arguments := command.arguments ++ arguments }

/-- The command with one more argument. -/
def arg (command : Command) (argument : String) : Command :=
  command.args [argument]

/-- The command with a path as one more argument. -/
def argPath (command : Command) (path : Path) : Command :=
  command.arg path.text

/-- The command with a flag and a path as further arguments, if there is a path. -/
def optionPath (command : Command) (flag : String) (path : Option Path) : Command :=
  match path with
  | some path => (command.arg flag).argPath path
  | none => command

/-- The command that runs in a directory. -/
def inDirectory (command : Command) (directory : Path) : Command :=
  { command with directory := some directory }

/-- The command whose failure is reported by a message. -/
def reporting (command : Command) (message : String) : Command :=
  { command with failureMessage := some message }

/-- The message that reports the failure of a command. -/
def failureHeadline (command : Command) : String :=
  command.failureMessage.getD (command.toolName ++ " failed")

end Command

end SketchApk
