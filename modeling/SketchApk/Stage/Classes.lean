import SketchApk.Config.Persisted
import SketchApk.Stage.Basic
import SketchApk.Stage.Package

/-!
# Compiling sources and converting classes

The compiler is handed the sources of the configured directories, in order, and then the generated
ones. They are listed in an argument file, one on a line between double quotes. Quotes and
backslashes in a path are preceded by a backslash.

Libraries are given to the compiler as one text with colons between the paths, so no path may have
a colon in it.

The classes are bundled into one archive, which is converted to the bytecode of the platform
together with the libraries of the application. When classes are shrunk, another tool does the
conversion, and it is given the configured rules and those that linking has generated.

## Main definitions

* `SourceList.text` : the text of an argument file.
* `Stage.classpathText` : the libraries as one text.
* `Stage.compileSourcesCommand`, `Stage.runCompileSources` : the call of the compiler and the stage.
* `Stage.bundleClasses` : the archive of classes.
* `Stage.convertBytecodeCommand`, `Stage.runConvertBytecode` : the call of the converter and the
  stage.
-/

namespace SketchApk

namespace SourceList

/-! ### Compiling sources -/

/-- The spelling of a character between double quotes. -/
def spelling (c : Char) : List Char :=
  if c = '"' || c = '\\' then ['\\', c] else [c]

/-- The line of one path. -/
def line (path : List Char) : List Char :=
  '"' :: path.flatMap spelling ++ ['"', '\n']

/-- The text of the argument file that lists some paths. -/
def text (paths : List Path) : String :=
  String.ofList (paths.flatMap fun path => line path.text.toList)

end SourceList

namespace Stage

/-- The sources below some directories, in order. -/
def collectSources : List Path → Attempt (List Path)
  | [] => return []
  | root :: rest => do
    ensureExists root "Source directory"
    let sources ← collectFiles root "java"
    return sources ++ (← collectSources rest)

/-- The libraries to compile against as one text. -/
def classpathText (config : BuildConfig) : Except StageError String :=
  let libraries := (config.androidJar :: config.classpath).map Path.text
  if libraries.any fun library => ':' ∈ library.toList then .error .separatorInPath
  else .ok (":".intercalate libraries)

/-- The command that compiles the listed sources. -/
def compileSourcesCommand (context : StageContext) (classpath : String) : Command :=
  let config := context.config
  let layout := context.layout
  (Command.of context.toolchain.javac)
    |>.args ["-source", config.javaVersion]
    |>.args ["-target", config.javaVersion]
    |>.args ["-encoding", "UTF-8"]
    |>.args ["-d", layout.classesDir.text]
    |>.args ["-cp", classpath]
    |>.args (if config.debugMode then ["-g"] else [])
    |>.arg ("@" ++ layout.sourceList.text)
    |>.reporting "javac failed"

/-- Compile the sources to classes. -/
def runCompileSources (context : StageContext) (package : Option Path) : Attempt StageOutput := do
  let layout := context.layout
  let sources ← collectSources (context.config.javaSources ++ [layout.genDir])
  if sources.isEmpty then Attempt.fail (.stage .noSources)
  prepareOutput layout.sourceList
  (Attempt.file (.write layout.sourceList (.ofText (SourceList.text sources)))).during
    (.writing layout.sourceList)
  match classpathText context.config with
  | .error error => (Attempt.fail (.stage error)).during .buildingClasspath
  | .ok classpath =>
    Plan.createDirectory layout.classesDir
    context.runCommand (compileSourcesCommand context classpath)
    let classes ← collectFiles layout.classesDir "class"
    if classes.isEmpty then Attempt.fail (.stage (.noClasses layout.classesDir))
    return ⟨classes, package⟩

end Stage

end SketchApk

namespace SketchApk.Stage

/-! ### Converting classes -/

/-- Bundle the files of a directory into an archive, and answer with their number. -/
def bundleClasses (directory target : Path) : Attempt Nat := do
  prepareOutput target
  (Attempt.file (.write target .empty)).during (.creating target)
  (Packing.addTree directory "" .deflated).writeTo target .empty

/-- The tool that converts classes. -/
def converter (config : BuildConfig) : Tool :=
  if config.shrinkEnabled then .r8 else .d8

/-- The command that converts the bundled classes; `rules` are files of rules about classes. -/
def convertBytecodeCommand (context : StageContext) (rules : List Path) : Command :=
  let config := context.config
  let layout := context.layout
  (Command.of (context.toolchain.path (converter config)))
    |>.args ["--output", layout.dexDir.text]
    |>.args ["--min-api", BuildConfig.numberValue config.minSdk]
    |>.arg (if config.debugMode then "--debug" else "--release")
    |>.args ["--lib", config.androidJar.text]
    |>.args (rules.flatMap fun path => ["--pg-conf", path.text])
    |>.args (config.classpath.map Path.text)
    |>.args (config.desugarLibrary.toList.map Path.text)
    |>.argPath layout.classesJar
    |>.reporting ((converter config).name ++ " failed")

/-- The files of rules that the converter is given. -/
def converterRules (context : StageContext) : Plan (List Path) := do
  if context.config.shrinkEnabled then
    let keepRules := context.layout.keepRules
    let generated := if ← Plan.isFile keepRules then [keepRules] else []
    return context.config.proguardRules.toList ++ generated
  else return []

/-- Convert the classes to the bytecode of the platform. -/
def runConvertBytecode (context : StageContext) (package : Option Path) : Attempt StageOutput := do
  let layout := context.layout
  ensureExists layout.classesDir "Classes directory"
  discard (bundleClasses layout.classesDir layout.classesJar)
  Plan.removeDirectory layout.dexDir (.removing layout.dexDir)
  Plan.createDirectory layout.dexDir
  let rules ← Attempt.always (converterRules context)
  context.runCommand (convertBytecodeCommand context rules)
  ensureExists (layout.dexDir / "classes.dex") "classes.dex"
  return ⟨← collectFiles layout.dexDir "dex", package⟩

end SketchApk.Stage
