import SketchApk.Build.Run
import SketchApk.Project.Prepare
import SketchApk.Toolchain.Locate

/-!
# The command line

There are three commands: to build a project, to show the compilation unit of a sketch, and to
create a project. A command that fails is reported on the standard error with everything that led to
the failure, and the exit code tells that it failed.

## Main definitions

* `CommandLine.execute` : the commands.
* `CommandLine.describe` : the report of a fault.
* `CommandLine.run` : executing a command and reporting its fault; the answer is the exit code.
-/

namespace SketchApk.CommandLine

/-- What a command can know about the user: the environment variables, and the home directory that
the user's account names. -/
structure User where
  environment : Environment
  accountHome : Option Path

/-- Show an event of a build. -/
def showEvent : BuildEvent → Plan Unit
  | .started => Plan.printLine "Build started"
  | .progress label percent =>
    Plan.printLine
      ("[" ++ String.ofList (Text.padStart ' ' 3 (Text.decimal percent)) ++ "%] " ++ label)
  | .completed _ message => Plan.printLine message
  | .error message => Plan.ask (.complain ("error: " ++ message ++ "\n"))

/-- The home directory of the toolchain. A variable takes precedence over the default. -/
def toolchainHome (user : User) : Attempt Path :=
  match user.environment.get? "APK_BUILDER_HOME", Toolchain.defaultHome? user.environment
    user.accountHome with
  | some home, _ => return ⟨home⟩
  | none, some home => return home
  | none, none => Attempt.fail (.command .noToolchain)

/-- Build the project in a directory, showing the events of the build. -/
def buildProject (user : User) (root : Path) : Attempt Unit := do
  let project ← Project.openAt root
  let toolchain ← Toolchain.resolve user.environment (← toolchainHome user)
  let config ← (project.prepare toolchain).during (.preparing root)
  let builder : Builder := ⟨toolchain, [0]⟩
  match ← Attempt.always ((builder.build config).reacting fun _ event => showEvent event) with
  | .error error => Attempt.fail (.build error)
  | .ok run =>
    match run.outcome with
    | .success package => Attempt.always (Plan.printLine ("APK: " ++ package.text))
    | .failed error => Attempt.fail (.build error)
    | .stopped => Attempt.fail (.command .stopped)

/-- Show the compilation unit of a sketch. -/
def showUnit (path : Path) : Attempt Unit := do
  let unit ← Sketch.Preprocessor.standard.preprocessFile path
  Attempt.always (Plan.ask (.print unit))

/-- Create a project in a directory. -/
def createProject (parent : Path) (name : String) : Attempt Unit := do
  let project ← Project.create parent name
  Attempt.always (Plan.printLine ("Created project at " ++ project.root.text))

/-- Execute the command that some arguments describe. -/
def execute (user : User) : (arguments : List String) → Attempt Unit
  | ["build", root] => buildProject user ⟨root⟩
  | ["preprocess", sketch] => showUnit ⟨sketch⟩
  | ["new", parent, name] => createProject ⟨parent⟩ name
  | _ => Attempt.fail (.command .usage)

/-- A message whose first line is preceded by `front` and whose other lines are indented as far. -/
def hanging (front : List Char) (message : String) : String :=
  let fill := List.replicate front.length ' '
  String.ofList (front ++ Text.join '\n'
    (match Text.split '\n' message.toList with
      | [] => []
      | first :: rest => first :: rest.map (fill ++ ·)))

/-- The number in front of a cause that is one of several. -/
def causeNumber (n : Nat) : List Char :=
  Text.padStart ' ' 5 (Text.decimal n) ++ [':', ' ']

/-- The causes of a fault, each beginning on a new line. Several causes are numbered. -/
def describeCauses : List String → String
  | [] => ""
  | [cause] => "\n\nCaused by:\n" ++ hanging (List.replicate 4 ' ') cause
  | causes =>
    "\n\nCaused by:" ++ String.join (causes.zipIdx.map fun cause =>
      "\n" ++ hanging (causeNumber cause.2) cause.1)

/-- The report of a fault. -/
def describe (fault : Fault) : String :=
  "Error: " ++ fault.headline ++ describeCauses fault.chain.tail ++ "\n"

/-- Execute a command. The exit code is zero if it succeeds and one otherwise. -/
def run (user : User) (arguments : List String) : Plan Nat := do
  match ← (execute user arguments).run with
  | .ok () => return 0
  | .error fault =>
    Plan.ask (.complain (describe fault))
    return 1

end SketchApk.CommandLine
