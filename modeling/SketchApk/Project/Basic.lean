import SketchApk.Config.Persisted
import SketchApk.Plan.Attempt
import SketchApk.Project.Template

/-!
# Projects

A project is a directory with a saved configuration. Its sketches and other sources, its resources
and its data each have a directory, and one directory is for everything that is generated. Relative
paths in the saved configuration are seen from the root of the project. A configuration file that
cannot be read or is not text is reported as an error of the configuration, which names the file.

A project can be created with a first sketch. Its name has to be the name of a directory entry that
does not exist yet; the package of the application is made of the letters and digits in it.

## Main definitions

* `BuildConfig.load` : the configuration that is saved in a file.
* `Project` : the locations of a project.
* `Project.create`, `Project.openAt` : creating and opening projects.
* `Project.loadConfig` : the configuration of a project.
-/

namespace SketchApk.BuildConfig

/-! ### Configuration files -/

/-- The error of a configuration that a fault in reading its file amounts to. -/
def unreadable (path : Path) (fault : Fault) : Fault :=
  match fault.cause with
  | .file error => { cause := .config (.unreadable path error) }
  | _ => fault

/-- The configuration that is saved in a file. -/
def load (path : Path) : Attempt BuildConfig := do
  let text ← ExceptT.adapt (unreadable path) (Plan.readText path)
  match ofText text with
  | .ok config => return config
  | .error error => Attempt.fail (.config error)

end SketchApk.BuildConfig

namespace SketchApk

/-! ### Locations -/

/-- A project, given by its root directory. -/
structure Project where
  root : Path
  deriving DecidableEq, Repr

namespace Project

variable (project : Project)

/-- The saved configuration. -/
def propertiesPath : Path := project.root / "build.properties"

/-- The directory of sources. -/
def sourceDir : Path := project.root / "src"

/-- The directory of resources. -/
def resDir : Path := project.root / "res"

/-- The directory of data, which become assets of the application. -/
def dataDir : Path := project.root / "data"

/-- The directory of everything that is generated. -/
def buildDir : Path := project.root / "build"

/-- The directories of a project, the root first. -/
def directories : List Path :=
  [project.root, project.sourceDir, project.resDir, project.dataDir, project.buildDir]

/-- Open a project, which has to have a saved configuration. -/
def openAt (root : Path) : Attempt Project := do
  let project : Project := ⟨root⟩
  unless ← Attempt.always (Plan.isFile project.propertiesPath) do
    Attempt.fail (.project (.notAProject root))
  return project

/-- The name of the sketch that is shown when a project has several. -/
def mainSketch : String := "main"

/-- A name is that of one directory entry. -/
def isValidName (name : String) : Bool :=
  !name.isEmpty && name.toList.all fun c => c ≠ '/' && c ≠ '\\'

/-- The ASCII letters and digits of a name, letters in lower case. -/
def packageSegment (name : String) : List Char :=
  (name.toList.filter Char.isAlphanum).map Char.toLower

/-- The package of an application that is called by a name. -/
def packageFor (name : String) : String :=
  match packageSegment name with
  | first :: rest =>
    if first.isAlpha then "com.example." ++ String.ofList (first :: rest) else defaultAppPackage
  | [] => defaultAppPackage

/-- The configuration that a project of some name is created with. -/
def initialConfig (name : String) : BuildConfig :=
  { appName := name
    appPackage := packageFor name
    buildPath := ⟨"build/output"⟩
    resDir := ⟨"res"⟩ }

/-- Create a project in a directory. -/
def create (parent : Path) (name : String) : Attempt Project := do
  unless isValidName name do Attempt.fail (.project (.invalidName name))
  let project : Project := ⟨parent / name⟩
  if ← Attempt.always (Plan.pathExists project.root) then
    Attempt.fail (.project (.alreadyExists project.root))
  project.directories.forM Plan.createDirectory
  Plan.writeTextFile (project.sourceDir / (mainSketch ++ ".pde")) Template.firstSketch
  Plan.writeTextFile (project.resDir / "values/strings.xml") (Template.appName name)
  Plan.writeTextFile project.propertiesPath (initialConfig name).toProperties
  return project

/-- A path seen from the root of a project. An empty path names nothing and stays empty. -/
def anchor (path : Path) : Path :=
  if path.isEmpty then path else project.root.join path

/-- The configuration of a project, with all its paths seen from the root of the project. -/
def loadConfig : Attempt BuildConfig := do
  return (← BuildConfig.load project.propertiesPath).mapPaths project.anchor

end Project

end SketchApk
