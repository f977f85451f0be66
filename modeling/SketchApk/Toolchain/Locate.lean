import SketchApk.Plan.Attempt
import SketchApk.Toolchain.Description

/-!
# Finding a toolchain

The location of a tool is taken from the first of these that provides one: the environment variable
of the tool, the description in the home directory of the toolchain, the binary directory of that
home, and the search path for programs. A tool that is found nowhere is expected in the binary
directory. A location in the description is relative to the home directory, unless it is absolute.

The home directory of the toolchain is given, or it is the one in the user's data directory.

## Main definitions

* `Environment` : the environment variables of a process.
* `Toolchain.resolve` : the toolchain with a given home directory.
* `Toolchain.defaultHome?` : the home directory in the user's data directory.
-/

namespace SketchApk

/-- The environment variables of a process. -/
abbrev Environment := List (String × String)

namespace Environment

/-- The value of a variable, if it is set. -/
def get? (environment : Environment) (name : String) : Option String :=
  List.lookup name environment

end Environment

namespace Toolchain

/-- The description of a toolchain in its home directory. -/
def descriptionPath (home : Path) : Path :=
  home / "toolchain.toml"

/-- The description of the toolchain with a given home directory. There need not be one. -/
def readDescription (home : Path) : Attempt Description := do
  let path := descriptionPath home
  if ← Attempt.always (Plan.isFile path) then
    let text ← (Plan.readText path).during (.readingToolchain path)
    match Description.read? text with
    | some description => return description
    | none => Attempt.during (.parsingToolchain path) (Attempt.fail .malformedToolchain)
  else return []

/-- The directory that an entry of the search path stands for. One whose first component is a tilde
lies in the home directory of the user, and stands for nothing if there is none. -/
def searchDirectory? (userHome : Option Path) (entry : Path) : Option Path :=
  match entry.components with
  | .name "~" :: rest => userHome.map fun home => home.descend (rest.map Component.text)
  | _ => some entry

/-- The directories of the search path for programs. -/
def searchPath (environment : Environment) : List Path :=
  match environment.get? "PATH" with
  | some value =>
    let userHome := (environment.get? "HOME").map Path.mk
    (Text.split ':' value.toList).filterMap fun entry =>
      searchDirectory? userHome ⟨String.ofList entry⟩
  | none => []

/-- The path leads to a regular file that may be executed. -/
def isProgram (path : Path) : Plan Bool := do
  return (← Plan.inspect? path).any fun found => found.kind = .file && found.mode.isExecutable

/-- The first of some directories that has a program of a name, as the path of that program. -/
def searchProgram (name : String) : List Path → Plan (Option Path)
  | [] => return none
  | directory :: rest => do
    if ← isProgram (directory / name) then return some (directory / name)
    else searchProgram name rest

/-- The location of a tool. -/
def locate (environment : Environment) (home : Path) (description : Description) (tool : Tool) :
    Plan Path := do
  match environment.get? tool.variableName, description.location? tool with
  | some location, _ => return ⟨location⟩
  | none, some location => return home.join ⟨location⟩
  | none, none =>
    let bundled := home / "bin" / tool.name
    if ← Plan.isFile bundled then return bundled
    else return (← searchProgram tool.name (searchPath environment)).getD bundled

/-- The toolchain with a given home directory. -/
def resolve (environment : Environment) (home : Path) : Attempt Toolchain := do
  let description ← readDescription home
  let locate (tool : Tool) : Attempt Path :=
    Attempt.always (locate environment home description tool)
  return {
    home
    aapt2 := ← locate .aapt2
    javac := ← locate .javac
    d8 := ← locate .d8
    r8 := ← locate .r8
    zipalign := ← locate .zipalign
    apksigner := ← locate .apksigner }

/-- The home directory of a toolchain in the user's data directory. The data directory counts only
when it is absolute; otherwise it lies in the home directory of the user. An environment that does
not say where that is leaves it to the user's account. -/
def defaultHome? (environment : Environment) (accountHome : Option Path) : Option Path :=
  let dataHome? := (environment.get? "XDG_DATA_HOME").map Path.mk |>.filter Path.isAbsolute
  let userHome? := ((environment.get? "HOME").filter (· ≠ "")).map Path.mk
  match dataHome?, userHome?.or accountHome with
  | some directory, _ => some (directory / "apk-builder")
  | none, some home => some (home / ".local/share" / "apk-builder")
  | none, none => none

end Toolchain

end SketchApk
