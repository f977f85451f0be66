import SketchApk.Config.Persisted
import SketchApk.Stage.Basic

/-!
# Compiling and linking resources

The resource directory is compiled as a whole to one archive. Linking takes that archive and the
manifest, and writes an archive with which packages begin and at least one source file with the
numbers of the resources. It also writes rules about the classes that resources refer to, when the
classes will be shrunk.

## Main definitions

* `Stage.compileResourcesCommand`, `Stage.linkResourcesCommand` : the calls of the resource tool.
* `Stage.runCompileResources`, `Stage.runLinkResources` : the two stages.
-/

namespace SketchApk.Stage

/-- The command that compiles the resource directory. -/
def compileResourcesCommand (context : StageContext) : Command :=
  (Command.of context.toolchain.aapt2)
    |>.args ["compile", "--dir", context.config.resDir.text]
    |>.args ["-o", context.layout.compiledRes.text]
    |>.args (if context.config.debugMode then ["-v"] else [])
    |>.reporting "aapt2 compile failed"

/-- Compile the resource directory. -/
def runCompileResources (context : StageContext) (package : Option Path) :
    Attempt StageOutput := do
  let output := context.layout.compiledRes
  ensureExists context.config.resDir "Resources directory"
  prepareOutput output
  context.runCommand (compileResourcesCommand context)
  ensureExists output "Compiled resources archive"
  return ⟨[output], package⟩

/-- The arguments that set the package id of the resources, unless it is the usual one. -/
def packageIdArguments (config : BuildConfig) : List String :=
  if config.packageId = defaultPackageId then []
  else ["--package-id", BuildConfig.byteValue config.packageId, "--allow-reserved-package-id"]

/-- The command that links the compiled resources. -/
def linkResourcesCommand (context : StageContext) : Command :=
  let config := context.config
  let layout := context.layout
  (Command.of context.toolchain.aapt2)
    |>.args ["link", "-I", config.androidJar.text]
    |>.args ["--manifest", config.manifestPath.text]
    |>.args ["--java", layout.genDir.text]
    |>.args ["-o", layout.baseArchive.text, "--auto-add-overlay"]
    |>.args ["--min-sdk-version", BuildConfig.numberValue config.minSdk]
    |>.args ["--target-sdk-version", BuildConfig.numberValue config.targetSdk]
    |>.args ["--version-code", BuildConfig.numberValue config.versionCode]
    |>.args ["--version-name", config.versionName]
    |>.args ["--rename-manifest-package", config.appPackage]
    |>.args (packageIdArguments config)
    |>.args (if config.shrinkEnabled then ["--proguard", layout.keepRules.text] else [])
    |>.args (if config.debugMode then ["--debug-mode"] else [])
    |>.argPath layout.compiledRes
    |>.reporting "aapt2 link failed"

/-- Link the compiled resources. -/
def runLinkResources (context : StageContext) (package : Option Path) : Attempt StageOutput := do
  let config := context.config
  let layout := context.layout
  ensureExists layout.compiledRes "Compiled resources archive"
  ensureExists config.manifestPath "AndroidManifest.xml"
  ensureExists config.androidJar "android.jar"
  prepareOutput layout.baseArchive
  context.runCommand (linkResourcesCommand context)
  ensureExists layout.baseArchive "Linked resources archive"
  let generated ← collectFiles layout.genDir "java"
  if generated.isEmpty then Attempt.fail (.stage (.noGeneratedSources layout.genDir))
  let hasRules ←
    if config.shrinkEnabled then Attempt.always (Plan.isFile layout.keepRules) else pure false
  let rules := if hasRules then [layout.keepRules] else []
  return ⟨layout.baseArchive :: generated ++ rules, package⟩

end SketchApk.Stage
