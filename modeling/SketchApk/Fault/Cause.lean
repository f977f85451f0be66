import SketchApk.Archive.Basic
import SketchApk.Config.Property
import SketchApk.Tool.Basic

/-!
# Causes of failure

What can go wrong is listed by the part of the program that finds it. Each error keeps the data that
its wording shows; the wording itself is given by one function for each type of error.
-/

namespace SketchApk

/-- Something that has to be in place before a build starts. -/
inductive Prerequisite where
  | buildDirectory
  | resources
  | assets
  | nativeLibraries
  | androidJar
  | manifest
  | sourceDirectory
  | library
  | desugarLibrary
  | shrinkRules
  | keystore
  | signingKey
  | certificate
  deriving DecidableEq, Repr

/-- The name under which a prerequisite is reported. -/
def Prerequisite.describe : Prerequisite → String
  | buildDirectory => "Build directory"
  | resources => "Resources directory"
  | assets => "Assets directory"
  | nativeLibraries => "Native libs directory"
  | androidJar => "android.jar"
  | manifest => "AndroidManifest.xml"
  | sourceDirectory => "Java source directory"
  | library => "Classpath library"
  | desugarLibrary => "Desugared JDK library"
  | shrinkRules => "ProGuard rules"
  | keystore => "Keystore"
  | signingKey => "Signing key"
  | certificate => "Signing certificate"

/-- Why the environment does not permit a build. -/
inductive PreflightError where
  | notSet (what : Prerequisite)
  | noSuchDirectory (what : Prerequisite) (path : Path)
  | notADirectory (what : Prerequisite) (path : Path)
  | noSuchFile (what : Prerequisite) (path : Path)
  | noSources
  | incompleteKeystore
  | incompleteKeyPair
  | missingTools (tools : List (Tool × Path))
  deriving DecidableEq

/-- The wording of an error of the environment. -/
def PreflightError.message : PreflightError → String
  | notSet what => what.describe ++ " path is not set"
  | noSuchDirectory what path => what.describe ++ " does not exist: " ++ path.text
  | notADirectory what path => what.describe ++ " is not a directory: " ++ path.text
  | noSuchFile what path => what.describe ++ " not found at: " ++ path.text
  | noSources => "No Java sources specified"
  | incompleteKeystore =>
    "Signing enabled but keystore path, alias or store password is not set"
  | incompleteKeyPair => "Signing enabled but key or certificate path is not set"
  | missingTools tools =>
    "Missing required toolchain binaries:\n" ++
      "\n".intercalate (tools.map fun missing =>
        "  " ++ missing.1.name ++ " (expected at " ++ missing.2.text ++ ")")

/-- Why a call of a tool failed. -/
inductive ToolError where
  /-- The tool ended with a code other than zero, or by a signal. -/
  | failed (headline : String) (code : Option Int) (detail : String)
  /-- The tool was ended by a request to stop. -/
  | interrupted (tool : String)
  /-- The tool was not started, for the reason given. -/
  | refused (reason : String)
  deriving DecidableEq

/-- The wording of an error of a tool. -/
def ToolError.message : ToolError → String
  | failed headline code detail =>
    headline ++ " (exit code " ++ (code.map toString).getD "signal" ++ ")\n" ++ detail
  | interrupted tool => "'" ++ tool ++ "' was interrupted by a stop request"
  | refused reason => reason

/-- Why a stage failed on its own. -/
inductive StageError where
  /-- Something that the stage reads or that its tool should have written is missing. -/
  | missing (what : String) (path : Path)
  | noPackage
  | incompleteSigning
  | noSources
  | noClasses (directory : Path)
  | noGeneratedSources (directory : Path)
  | noDexFiles (directory : Path)
  | separatorInPath
  | keyWithoutName (path : Path)
  deriving DecidableEq

/-- The wording of an error of a stage. -/
def StageError.message : StageError → String
  | missing what path => what ++ " not found: " ++ path.text
  | noPackage => "no package was produced by an earlier stage"
  | incompleteSigning => "signing material is incomplete"
  | noSources => "No .java files found in the configured source directories"
  | noClasses directory => "javac produced no class files in " ++ directory.text
  | noGeneratedSources directory => "aapt2 link did not generate R.java under " ++ directory.text
  | noDexFiles directory => "No dex files found in " ++ directory.text
  | separatorInPath => "path segment contains separator `:`"
  | keyWithoutName path => "key path has no file name: " ++ path.text

/-- Why a build did not succeed. -/
inductive BuildError where
  /-- The environment does not permit the build, and no stage ran. -/
  | environment (detail : String)
  /-- A stage failed. -/
  | stage (name detail : String)
  /-- Another build is in progress. -/
  | alreadyBuilding
  deriving DecidableEq

namespace BuildError

/-- The wording of an error of a build. -/
def message : BuildError → String
  | environment detail => "Environment validation failed: " ++ detail
  | stage name detail => "Stage '" ++ name ++ "' failed: " ++ detail
  | alreadyBuilding => "Build already in progress"

/-- The name of the stage that failed. -/
def stage? : BuildError → Option String
  | stage name _ => some name
  | _ => none

end BuildError

/-- Why a project was not created, opened or prepared. -/
inductive ProjectError where
  | invalidName (name : String)
  | alreadyExists (root : Path)
  | notAProject (root : Path)
  | noSketch (directory : Path)
  /-- A sketch whose path has no file name to call its class by. -/
  | sketchWithoutName (path : Path)
  deriving DecidableEq

/-- The wording of an error of a project. -/
def ProjectError.message : ProjectError → String
  | invalidName name => "Invalid project name: '" ++ name ++ "'"
  | alreadyExists root => "Project directory already exists: " ++ root.text
  | notAProject root => "Not a sketch project (missing build.properties): " ++ root.text
  | noSketch directory => "No .pde sketch found in " ++ directory.text
  | sketchWithoutName path => "sketch file has no usable name: " ++ path.text

/-- Why a command was not carried out. -/
inductive CommandError where
  | usage
  | noToolchain
  | stopped
  deriving DecidableEq

/-- The wording of an error of a command. -/
def CommandError.message : CommandError → String
  | usage =>
    "Usage:\n  apk-builder build <project_dir>\n  apk-builder preprocess <sketch.pde>\n" ++
      "  apk-builder new <parent_dir> <name>"
  | noToolchain => "cannot determine the toolchain directory; set APK_BUILDER_HOME"
  | stopped => "build stopped"

end SketchApk
