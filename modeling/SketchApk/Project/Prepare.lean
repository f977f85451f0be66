import SketchApk.Project.Basic
import SketchApk.Sketch.Unit

/-!
# Preparing a project for a build

Preparing completes the configuration of a project and generates the files that a build needs beside
it. What the saved configuration leaves open is taken from the project and the toolchain. Every
sketch becomes a compilation unit, and plain sources are copied; both keep their places in the tree
of sources. A sketch that declares no package becomes part of the package of the application. The
sources that were generated before are removed first.

The application shows the sketch whose class is called `main`, or the first one.

## Main definitions

* `Project.complete` : the configuration with everything filled in that has a default.
* `Project.generateSources` : the sources that result from a project.
* `Project.prepare` : the whole of the preparation.
-/

namespace SketchApk.Project

variable (project : Project)

/-- The directory of generated sources. -/
def generatedDir : Path := project.buildDir / "src"

/-- The generated manifest. -/
def manifestPath : Path := project.buildDir / "AndroidManifest.xml"

/-- The generated activity of a package. -/
def activityPath (appPackage : String) : Path :=
  project.generatedDir / Text.substituted "." "/" appPackage / "MainActivity.java"

/-- The configuration with defaults for the locations that are not set. -/
def withDefaults (toolchain : Toolchain) (config : BuildConfig) : BuildConfig :=
  let unlessEmpty (path default : Path) : Path := if path.isEmpty then default else path
  { config with
    buildPath := unlessEmpty config.buildPath (project.buildDir / "output")
    resDir := unlessEmpty config.resDir project.resDir
    androidJar := unlessEmpty config.androidJar toolchain.androidJar }

/-- The configuration with the runtime library among its libraries. -/
def withRuntime (toolchain : Toolchain) (config : BuildConfig) : BuildConfig :=
  if config.classpath.any (·.isSame toolchain.runtimeJar) then config
  else { config with classpath := config.classpath ++ [toolchain.runtimeJar] }

/-- Complete a configuration by what is found in the toolchain and the project. The runtime library
becomes a library of the application if it exists, and the data of the project become its assets if
there are any. -/
def complete (toolchain : Toolchain) (config : BuildConfig) : Plan BuildConfig := do
  let config := project.withDefaults toolchain config
  let config := if ← Plan.isFile toolchain.runtimeJar then withRuntime toolchain config else config
  if config.assetsDir.isNone && (← Plan.hasEntries project.dataDir) then
    return { config with assetsDir := some project.dataDir }
  else return config

/-- The text declares a package on some line. -/
def declaresPackage (source : String) : Bool :=
  (Text.split '\n' source.toList).any Sketch.isPackageLine

/-- The unit of a sketch in an application's package. -/
def unitOf (appPackage : String) (source : Sketch.Source) : String :=
  let unit := Sketch.Preprocessor.standard.unitText source
  if declaresPackage source.text then unit else "package " ++ appPackage ++ ";\n\n" ++ unit

/-- Generate the source that results from a file of the project, given by the names that lead to it.
The answer is the class of a sketch. -/
def generateSource (appPackage : String) (names : List String) : Attempt (Option String) := do
  let path := project.sourceDir.descend names
  let target := project.generatedDir.descend names
  match path.extension? with
  | some "pde" =>
    let source ← Sketch.readSource path
    Plan.writeTextFile (target.withExtension "java") (unitOf appPackage source)
    return some source.className
  | some "java" =>
    target.parent?.forM Plan.makeDirectories
    (Attempt.file (.copy path target)).during (.copying path target)
    return none
  | _ => return none

/-- Generate the sources that result from all files of the project. The answer lists the classes of
the sketches. -/
def generateSources (appPackage : String) : Attempt (List String) := do
  if ← Attempt.always (Plan.isDirectory project.sourceDir) then
    let found ← Attempt.always (Plan.walk project.sourceDir)
    let classNames ← found.files.mapM (project.generateSource appPackage)
    Plan.throughout project.sourceDir found
    return classNames.filterMap id
  else return []

/-- The sketch that the application shows. -/
def chooseSketch (classNames : List String) : Option String :=
  if mainSketch ∈ classNames then some mainSketch else classNames.head?

/-- The configuration with the generated sources, which come first. -/
def withGenerated (config : BuildConfig) : BuildConfig :=
  if config.javaSources.any (·.isSame project.generatedDir) then config
  else { config with javaSources := project.generatedDir :: config.javaSources }

/-- Prepare a project for a build. The answer is the configuration to build with. -/
def prepare (toolchain : Toolchain) : Attempt BuildConfig := do
  let config ← Attempt.always (project.complete toolchain (← project.loadConfig))
  Plan.createDirectory project.buildDir
  Plan.createDirectory config.buildPath
  Plan.removeDirectory project.generatedDir (.removing project.generatedDir)
  Plan.writeTextFile project.manifestPath (Template.manifest config)
  match chooseSketch (← project.generateSources config.appPackage) with
  | none => Attempt.fail (.project (.noSketch project.sourceDir))
  | some className =>
    Plan.writeTextFile (project.activityPath config.appPackage)
      (Template.activity config.appPackage className)
    return project.withGenerated { config with manifestPath := project.manifestPath }

end SketchApk.Project
