import SketchApk.Path

/-!
# Build configurations

A build configuration says everything that one run of the pipeline needs to know: the identity of
the application, the locations of its inputs, how it is signed, and which optional stages take part.

The signing descriptor keeps both ways of signing, with a keystore or with a key and a certificate,
so that a saved configuration can be read back even when one of them is not in use. The *material*
is what the selected way provides, once none of its required fields is missing.

All files that a build produces lie below its build path. Each stage owns the directories it writes
to, and later stages only read them. The packages that successive stages produce share one file
name, which is made of the application's package, and lie in directories of their own.

## Main definitions

* `BuildConfig` : a build configuration; the default values are those of the structure.
* `SigningConfig.material?` : the material of the selected way of signing.
* `BuildLayout` : the locations below the build directory.
-/

namespace SketchApk

/-- A keystore with the alias of a key in it and its passwords. -/
structure Keystore where
  path : Option Path := none
  keyAlias : Option String := none
  storePassword : Option String := none
  keyPassword : Option String := none
  deriving DecidableEq

/-- A private key and its certificate, each in a file of its own. -/
structure KeyPair where
  key : Option Path := none
  certificate : Option Path := none
  deriving DecidableEq

/-- How packages are signed. -/
structure SigningConfig where
  useKeystore : Bool := false
  keystore : Keystore := {}
  keyPair : KeyPair := {}
  deriving DecidableEq

/-- What the selected way of signing provides. -/
inductive SigningMaterial where
  | keystore (path : Path) (keyAlias storePassword : String) (keyPassword : Option String)
  | keyPair (key certificate : Path)
  deriving DecidableEq

/-- The material of the selected way of signing. Only the password of the key may be missing. -/
def SigningConfig.material? (signing : SigningConfig) : Option SigningMaterial :=
  if signing.useKeystore then do
    let path ← signing.keystore.path
    let keyAlias ← signing.keystore.keyAlias
    let storePassword ← signing.keystore.storePassword
    some (.keystore path keyAlias storePassword signing.keystore.keyPassword)
  else do
    let key ← signing.keyPair.key
    let certificate ← signing.keyPair.certificate
    some (.keyPair key certificate)

/-- The package of an application that does not declare one. -/
def defaultAppPackage : String := "com.example.app"

/-- The package id of application resources. -/
def defaultPackageId : UInt8 := 0x7f

/-- Everything that one build needs to know. -/
structure BuildConfig where
  appName : String := "Sketch App"
  appPackage : String := defaultAppPackage
  packageId : UInt8 := defaultPackageId
  versionName : String := "1.0"
  versionCode : UInt32 := 1
  minSdk : UInt32 := 21
  targetSdk : UInt32 := 33
  /-- The level of the language that the compiler is asked for. -/
  javaVersion : String := "17"
  /-- The archive of the platform. -/
  androidJar : Path := ⟨""⟩
  buildPath : Path := ⟨""⟩
  manifestPath : Path := ⟨""⟩
  resDir : Path := ⟨""⟩
  assetsDir : Option Path := none
  nativeLibsDir : Option Path := none
  proguardRules : Option Path := none
  desugarLibrary : Option Path := none
  javaSources : List Path := []
  /-- Libraries to compile against, which become part of the application. -/
  classpath : List Path := []
  permissions : List String := []
  signing : SigningConfig := {}
  debugMode : Bool := true
  shrinkEnabled : Bool := false
  alignEnabled : Bool := true
  signEnabled : Bool := true
  optimizeEnabled : Bool := true
  deriving DecidableEq

namespace BuildConfig

instance : Inhabited BuildConfig := ⟨{}⟩

/-- The configuration with a function applied to every path in it. -/
def mapPaths (f : Path → Path) (config : BuildConfig) : BuildConfig :=
  { config with
    androidJar := f config.androidJar
    buildPath := f config.buildPath
    manifestPath := f config.manifestPath
    resDir := f config.resDir
    assetsDir := config.assetsDir.map f
    nativeLibsDir := config.nativeLibsDir.map f
    proguardRules := config.proguardRules.map f
    desugarLibrary := config.desugarLibrary.map f
    javaSources := config.javaSources.map f
    classpath := config.classpath.map f
    signing.keystore.path := config.signing.keystore.path.map f
    signing.keyPair.key := config.signing.keyPair.key.map f
    signing.keyPair.certificate := config.signing.keyPair.certificate.map f }

/-- Two configurations are the same when they agree up to the spelling of their paths. -/
def isSame (config other : BuildConfig) : Bool :=
  let spelling (path : Path) : List Component := path.components
  let paths (c : BuildConfig) : List (List Component) :=
    [c.androidJar, c.buildPath, c.manifestPath, c.resDir].map spelling
  let optional (c : BuildConfig) : List (Option (List Component)) :=
    [c.assetsDir, c.nativeLibsDir, c.proguardRules, c.desugarLibrary, c.signing.keystore.path,
      c.signing.keyPair.key, c.signing.keyPair.certificate].map (Option.map spelling)
  let lists (c : BuildConfig) : List (List (List Component)) :=
    [c.javaSources, c.classpath].map (List.map spelling)
  paths config = paths other && optional config = optional other && lists config = lists other &&
    config.mapPaths (fun _ => ⟨""⟩) = other.mapPaths (fun _ => ⟨""⟩)

end BuildConfig

/-! ### Locations below the build directory -/

/-- The locations that derive from the build path and the application's package. -/
structure BuildLayout where
  root : Path
  /-- The file name of every package. -/
  packageFileName : String
  deriving DecidableEq

/-- The layout of a build path for an application's package. -/
def BuildLayout.of (buildPath : Path) (appPackage : String) : BuildLayout :=
  ⟨buildPath, appPackage ++ ".apk"⟩

/-- The layout of the build that a configuration describes. -/
def BuildConfig.layout (config : BuildConfig) : BuildLayout :=
  .of config.buildPath config.appPackage

namespace BuildLayout

variable (layout : BuildLayout)

/-- The directory of compiled resources. -/
def compiledResDir : Path := layout.root / "compiled_res"

/-- The archive of compiled resources. -/
def compiledRes : Path := layout.compiledResDir / "resources.zip"

/-- The directory of generated sources and linked resources. -/
def genDir : Path := layout.root / "gen"

/-- The archive of linked resources. -/
def baseArchive : Path := layout.genDir / "resources.ap_"

/-- The rules about kept classes that linking generates. -/
def keepRules : Path := layout.genDir / "aapt-rules.txt"

/-- The directory of compiled classes. -/
def classesDir : Path := layout.root / "classes"

/-- The argument file that lists every source. -/
def sourceList : Path := layout.root / "javac-sources.txt"

/-- The archive of compiled classes. -/
def classesJar : Path := layout.root / "classes.jar"

/-- The directory of converted bytecode. -/
def dexDir : Path := layout.root / "dex"

/-- The directory of the package that is not signed. -/
def packageDir : Path := layout.root / "package"

/-- The directory of the optimized package. -/
def optimizedDir : Path := layout.root / "optimized"

/-- The directory of the aligned package. -/
def alignedDir : Path := layout.root / "aligned"

/-- The directory of key material while a package is signed. -/
def signingDir : Path := layout.root / "signing"

/-- The directory of the signed package. -/
def outputsDir : Path := layout.root / "outputs"

/-- The report of the last run. -/
def report : Path := layout.root / "build-report.json"

/-- The directories that a build starts without. -/
def intermediateDirs : List Path :=
  [layout.compiledResDir, layout.genDir, layout.classesDir, layout.dexDir, layout.packageDir,
    layout.optimizedDir, layout.alignedDir, layout.signingDir, layout.outputsDir]

/-- The package that is not signed. -/
def unsignedPackage : Path := layout.packageDir / layout.packageFileName

/-- The optimized package. -/
def optimizedPackage : Path := layout.optimizedDir / layout.packageFileName

/-- The aligned package. -/
def alignedPackage : Path := layout.alignedDir / layout.packageFileName

/-- The signed package. -/
def signedPackage : Path := layout.outputsDir / layout.packageFileName

end BuildLayout

end SketchApk
