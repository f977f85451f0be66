import SketchApk.Config.Basic
import SketchApk.Plan.Attempt

/-!
# The stages of the pipeline

A build runs nine stages in a fixed order. Each has a name, a label for its progress and a
percentage, which grows along the pipeline. The last three are optional: the configuration says
whether they are enabled.

A stage works with a configuration and a toolchain, and it is given the package that the stages
before it have produced, if any. It leaves artifacts and the package for the stages after it.

A stage checks that its inputs exist before it works on them, and that its tool has written what it
should. Files of a kind are collected from a whole tree by their extension, in the order in which
directories are walked. An output of an earlier run is removed before a stage writes its own.

A build starts without the intermediate directories of an earlier one, and without the list of its
sources and the archive of its classes. The directories that the first stages write to are created
again.

## Main definitions

* `Stage` : the stages; `Stage.all` lists them in order.
* `StageContext` : what a stage works with.
* `StageContext.runCommand` : running a command as part of a stage.
* `Stage.ensureExists` : the check that a path leads to something.
* `Stage.collectFiles` : the files of a tree with an extension.
* `Stage.prepareOutput` : making room for an output.
* `Stage.currentPackage` : the package that a stage goes on with.
* `Stage.removeIntermediates` : removing what an earlier build has left.
-/

namespace SketchApk

/-- A stage of the pipeline. -/
inductive Stage where
  /-- Remove what an earlier build has left. -/
  | clean
  /-- Compile the resources. -/
  | compileResources
  /-- Link the compiled resources with the manifest. -/
  | linkResources
  /-- Compile the sources to classes. -/
  | compileSources
  /-- Convert the classes to the bytecode of the platform. -/
  | convertBytecode
  /-- Put the parts of the package together. -/
  | packageResources
  /-- Optimize the package. -/
  | optimize
  /-- Align the package. -/
  | align
  /-- Sign the package. -/
  | sign
  deriving DecidableEq, Repr

namespace Stage

/-- The stages in order. -/
def all : List Stage :=
  [clean, compileResources, linkResources, compileSources, convertBytecode, packageResources,
    optimize, align, sign]

theorem mem_all (stage : Stage) : stage ∈ all := by
  cases stage <;> simp [all]

/-- The name of a stage. -/
def name : Stage → String
  | clean => "clean"
  | compileResources => "compile-resources"
  | linkResources => "link-resources"
  | compileSources => "compile-sources"
  | convertBytecode => "convert-bytecode"
  | packageResources => "package-resources"
  | optimize => "optimize"
  | align => "align"
  | sign => "sign"

/-- The stage of a name. -/
def ofName? (name : String) : Option Stage :=
  all.find? (·.name = name)

/-- The label under which the progress of a stage is reported. -/
def label : Stage → String
  | clean => "Cleaning build directory..."
  | compileResources => "Compiling resources with aapt2..."
  | linkResources => "Linking resources with aapt2..."
  | compileSources => "Compiling Java sources..."
  | convertBytecode => "Converting to DEX format..."
  | packageResources => "Packaging APK..."
  | optimize => "Optimizing APK..."
  | align => "Aligning APK..."
  | sign => "Signing APK..."

/-- The percentage that is reported before a stage runs. -/
def percent : Stage → Nat
  | clean => 10
  | compileResources => 20
  | linkResources => 30
  | compileSources => 40
  | convertBytecode => 50
  | packageResources => 60
  | optimize => 70
  | align => 80
  | sign => 90

/-- A configuration may disable the last three stages. -/
def isEnabled (config : BuildConfig) : Stage → Bool
  | optimize => config.optimizeEnabled
  | align => config.alignEnabled
  | sign => config.signEnabled
  | _ => true

end Stage

/-- What a stage works with. -/
structure StageContext where
  config : BuildConfig
  toolchain : Toolchain

/-- What a stage leaves. -/
structure StageOutput where
  /-- The files and directories that the stage has produced. -/
  artifacts : List Path
  /-- The package that the next stage goes on with. -/
  package : Option Path
  deriving DecidableEq

namespace StageContext

variable (context : StageContext)

/-- The locations below the build directory. -/
def layout : BuildLayout :=
  context.config.layout

/-- Print the output of a tool without the blanks at its end, unless nothing is left. -/
def echo (text : String) : Plan Unit :=
  let visible := Text.trimmedEnd text
  if visible.isEmpty then pure () else Plan.printLine visible

/-- Run a command. In debug mode the call is printed before, and the output of the tool after it has
succeeded. -/
def runCommand (command : Command) : Attempt Unit := do
  if context.config.debugMode then
    Attempt.always (Plan.printLine ("  $ " ++ command.commandLine))
  let output ← command.run
  if context.config.debugMode then
    Attempt.always (echo output.stdout)
    Attempt.always (echo output.stderr)

end StageContext

end SketchApk

namespace SketchApk.Stage

/-! ### Inputs and outputs -/

/-- Fail unless a path leads to something. -/
def ensureExists (path : Path) (what : String) : Attempt Unit := do
  unless ← Attempt.always (Plan.pathExists path) do
    Attempt.fail (.stage (.missing what path))

/-- The regular files of a tree that have an extension. -/
def collectFiles (root : Path) (extension : String) : Attempt (List Path) := do
  let files ← Plan.walkTree root
  return (files.map root.descend).filter (·.extension? = some extension)

/-- Create the directory of an output and remove what is at its place. -/
def prepareOutput (path : Path) : Attempt Unit := do
  path.parent?.forM Plan.createDirectory
  if ← Attempt.always (Plan.pathExists path) then
    (Attempt.file (.removeFile path)).during (.removingStaleOutput path)

/-- The package that a stage goes on with, which has to exist. -/
def currentPackage (package : Option Path) : Attempt Path := do
  match package with
  | some path =>
    ensureExists path "Input package"
    return path
  | none => Attempt.fail (.stage .noPackage)

end SketchApk.Stage

namespace SketchApk

/-! ### Intermediate files -/

/-- The intermediate files that are not in an intermediate directory. -/
def BuildLayout.looseFiles (layout : BuildLayout) : List Path :=
  [layout.sourceList, layout.classesJar]

/-- The directories that are created at the beginning of a build. -/
def BuildLayout.freshDirs (layout : BuildLayout) : List Path :=
  [layout.compiledResDir, layout.genDir, layout.classesDir, layout.dexDir]

namespace Stage

/-- Remove a file, if it exists. -/
def removeStaleFile (path : Path) : Attempt Unit := do
  if ← Attempt.always (Plan.pathExists path) then
    (Attempt.file (.removeFile path)).during (.removingStaleFile path)

/-- Remove what an earlier build has left. -/
def removeIntermediates (context : StageContext) (package : Option Path) :
    Attempt StageOutput := do
  let layout := context.layout
  layout.intermediateDirs.forM fun path => Plan.removeDirectory path (.removingStaleDirectory path)
  layout.looseFiles.forM removeStaleFile
  layout.freshDirs.forM Plan.createDirectory
  return ⟨layout.freshDirs, package⟩

end Stage

end SketchApk
