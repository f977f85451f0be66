import SketchApk.Config.Basic
import SketchApk.Plan.Attempt

/-!
# Checks before a build

Before the first stage of a build its environment is checked: the paths of the configuration, then
the tools that the enabled stages need. All missing tools are reported together. A tool that no one
may execute is made executable, since tools are often unpacked without that permission. Nothing else
is changed.

## Main definitions

* `Preflight.requiredTools` : the tools that the enabled stages need.
* `Preflight.validate` : all checks, in order.
-/

namespace SketchApk.Preflight

/-- The tools that the enabled stages need. The tool that optimizes packages is needed anyway. -/
def requiredTools (config : BuildConfig) : List Tool :=
  [.aapt2, .javac, if config.shrinkEnabled then .r8 else .d8] ++
    (if config.alignEnabled then [.zipalign] else []) ++
    (if config.signEnabled then [.apksigner] else [])

/-- The tool is where the toolchain says. -/
def toolExists (toolchain : Toolchain) (tool : Tool) : Plan Bool :=
  Plan.isFile (toolchain.path tool)

/-- Fail unless all of some tools are where the toolchain says. -/
def checkTools (toolchain : Toolchain) (tools : List Tool) : Attempt Unit := do
  let missing ← Attempt.always (tools.filterM fun tool => return !(← toolExists toolchain tool))
  unless missing.isEmpty do
    Attempt.fail (.preflight (.missingTools (missing.map fun tool => (tool, toolchain.path tool))))

/-- Make a file executable, unless some class of users may execute it. -/
def ensureExecutable (path : Path) : Attempt Unit := do
  let inspection ← (Attempt.file (.inspect path)).during (.readingMetadata path)
  unless inspection.mode.hasExecutors do
    (Attempt.file (.setMode path (inspection.mode ||| 0o755))).during (.makingExecutable path)

/-- Fail unless a path is set and leads to a directory. -/
def validateDirectory (what : Prerequisite) (path : Path) : Attempt Unit := do
  if path.isEmpty then Attempt.fail (.preflight (.notSet what))
  unless ← Attempt.always (Plan.pathExists path) do
    Attempt.fail (.preflight (.noSuchDirectory what path))
  unless ← Attempt.always (Plan.isDirectory path) do
    Attempt.fail (.preflight (.notADirectory what path))

/-- Fail unless a path is set and leads to a regular file. -/
def validateFile (what : Prerequisite) (path : Path) : Attempt Unit := do
  if path.isEmpty then Attempt.fail (.preflight (.notSet what))
  unless ← Attempt.always (Plan.isFile path) do
    Attempt.fail (.preflight (.noSuchFile what path))

/-- Fail unless the material of the selected way of signing is complete and its files exist. -/
def validateSigning (signing : SigningConfig) : Attempt Unit :=
  match signing.material? with
  | some (.keystore path ..) => validateFile .keystore path
  | some (.keyPair key certificate) => do
    validateFile .signingKey key
    validateFile .certificate certificate
  | none =>
    Attempt.fail <| .preflight <|
      if signing.useKeystore then .incompleteKeystore else .incompleteKeyPair

/-- Check everything that a build with a configuration and a toolchain needs. -/
def validate (config : BuildConfig) (toolchain : Toolchain) : Attempt Unit := do
  validateDirectory .buildDirectory config.buildPath
  validateDirectory .resources config.resDir
  config.assetsDir.forM (validateDirectory .assets)
  config.nativeLibsDir.forM (validateDirectory .nativeLibraries)
  validateFile .androidJar config.androidJar
  validateFile .manifest config.manifestPath
  if config.javaSources.isEmpty then Attempt.fail (.preflight .noSources)
  config.javaSources.forM (validateDirectory .sourceDirectory)
  config.classpath.forM (validateFile .library)
  config.desugarLibrary.forM (validateFile .desugarLibrary)
  if config.shrinkEnabled then config.proguardRules.forM (validateFile .shrinkRules)
  if config.signEnabled then validateSigning config.signing
  checkTools toolchain (requiredTools config)
  (requiredTools config).forM fun tool => ensureExecutable (toolchain.path tool)

end SketchApk.Preflight
