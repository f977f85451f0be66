import SketchApk.Config.Basic
import SketchApk.Config.Property
import SketchApk.Text.Number

/-!
# Saved configurations

A configuration is saved as properties, one line for each field, in a fixed order. Fields that hold
nothing have no line. A field whose key is missing keeps its default value when a configuration is
read, and unknown keys are passed over, so a project can keep other properties in the same file.

A path that is optional counts as missing when its value is empty. An optional string that is
present but empty stays present.

## Main definitions

* `BuildConfig.toProperties` : the text that saves a configuration.
* `BuildConfig.ofProperties` : the configuration that properties describe.
-/

namespace SketchApk

namespace BuildConfig

/-- The value of a flag. -/
def flagValue (flag : Bool) : String :=
  if flag then "true" else "false"

/-- The value of a number. -/
def numberValue (n : UInt32) : String :=
  String.ofList (Text.decimal n.toNat)

/-- The value of a byte. -/
def byteValue (n : UInt8) : String :=
  String.ofList ('0' :: 'x' :: Text.hexadecimal 2 n.toNat)

/-- The value of a list of paths. -/
def pathsValue (paths : List Path) : String :=
  ItemList.joinStrings (paths.map Path.text)

/-- The entry of an optional value. -/
def optionalEntry (key : String) (value : Option String) : List (String × String) :=
  value.toList.map fun text => (key, text)

/-- The entry of an optional path. -/
def optionalPathEntry (key : String) (path : Option Path) : List (String × String) :=
  optionalEntry key (path.map Path.text)

/-- The entries that save a configuration, in order. -/
def entries (config : BuildConfig) : List (String × String) :=
  [("appName", config.appName),
    ("appPackage", config.appPackage),
    ("packageId", byteValue config.packageId),
    ("versionName", config.versionName),
    ("versionCode", numberValue config.versionCode),
    ("minSdk", numberValue config.minSdk),
    ("targetSdk", numberValue config.targetSdk),
    ("javaVersion", config.javaVersion),
    ("androidJarPath", config.androidJar.text),
    ("buildPath", config.buildPath.text),
    ("manifestPath", config.manifestPath.text),
    ("resDir", config.resDir.text)] ++
  optionalPathEntry "assetsDir" config.assetsDir ++
  optionalPathEntry "nativeLibsDir" config.nativeLibsDir ++
  optionalPathEntry "proguardRulesPath" config.proguardRules ++
  optionalPathEntry "desugarJdkLibsPath" config.desugarLibrary ++
  [("javaSources", pathsValue config.javaSources),
    ("classpath", pathsValue config.classpath),
    ("permissions", ItemList.joinStrings config.permissions),
    ("debugMode", flagValue config.debugMode),
    ("r8enabled", flagValue config.shrinkEnabled),
    ("apkAlignEnable", flagValue config.alignEnabled),
    ("apkSignEnable", flagValue config.signEnabled),
    ("aapt2OptimizeEnable", flagValue config.optimizeEnabled),
    ("useKeystore", flagValue config.signing.useKeystore)] ++
  optionalPathEntry "keystorePath" config.signing.keystore.path ++
  optionalEntry "keyAlias" config.signing.keystore.keyAlias ++
  optionalEntry "storePassword" config.signing.keystore.storePassword ++
  optionalEntry "keyPassword" config.signing.keystore.keyPassword ++
  optionalPathEntry "keyPath" config.signing.keyPair.key ++
  optionalPathEntry "certPath" config.signing.keyPair.certificate

/-- The line in front of the entries. -/
def heading : List Char := "# Build config\n".toList

/-- The text that saves a configuration. -/
def toProperties (config : BuildConfig) : String :=
  String.ofList (heading ++ config.entries.flatMap Properties.writeEntry)

/-- The flag that a value spells, blanks around it aside. -/
def readFlag (key value : String) : Except ConfigError Bool :=
  let trimmed := Text.trim value.toList
  if trimmed = "true".toList then .ok true
  else if trimmed = "false".toList then .ok false
  else .error (.invalidValue key (String.ofList trimmed) .flag)

/-- The number that a value spells in decimal, blanks around it aside. -/
def readNumber (key value : String) : Except ConfigError UInt32 :=
  match Text.readUnsigned? 10 0xffffffff (Text.trim value.toList) with
  | some n => .ok (UInt32.ofNat n)
  | none => .error (.invalidValue key value .number)

/-- The byte that a value spells, in hexadecimal behind `0x` or `0X` and in decimal otherwise. -/
def readByte (key value : String) : Except ConfigError UInt8 :=
  let number? :=
    match Text.trim value.toList with
    | '0' :: 'x' :: digits => Text.readUnsigned? 16 0xff digits
    | '0' :: 'X' :: digits => Text.readUnsigned? 16 0xff digits
    | digits => Text.readUnsigned? 10 0xff digits
  match number? with
  | some n => .ok (UInt8.ofNat n)
  | none => .error (.invalidValue key value .byte)

/-- The value of a key read by a function, or a default when the key is missing. -/
def readField {α : Type} (properties : Properties) (key : String) (default : α)
    (read : String → String → Except ConfigError α) : Except ConfigError α :=
  match properties[key]? with
  | some value => read key value
  | none => .ok default

/-- The path that an optional value names; an empty value names none. -/
def optionalPath (value : Option String) : Option Path :=
  (value.filter (· ≠ "")).map Path.mk

/-- The paths that a value lists. -/
def readPaths (value : String) : List Path :=
  (ItemList.splitString value).map Path.mk

/-- The configuration that properties describe. Numbers are read before flags, and the first value
that is not of its form is reported. -/
def ofProperties (properties : Properties) : Except ConfigError BuildConfig := do
  let initial : BuildConfig := {}
  let text (key default : String) : String := (properties[key]?).getD default
  let path (key : String) (default : Path) : Path := ((properties[key]?).map Path.mk).getD default
  let packageId ← readField properties "packageId" initial.packageId readByte
  let versionCode ← readField properties "versionCode" initial.versionCode readNumber
  let minSdk ← readField properties "minSdk" initial.minSdk readNumber
  let targetSdk ← readField properties "targetSdk" initial.targetSdk readNumber
  let debugMode ← readField properties "debugMode" initial.debugMode readFlag
  let shrinkEnabled ← readField properties "r8enabled" initial.shrinkEnabled readFlag
  let alignEnabled ← readField properties "apkAlignEnable" initial.alignEnabled readFlag
  let signEnabled ← readField properties "apkSignEnable" initial.signEnabled readFlag
  let optimizeEnabled ← readField properties "aapt2OptimizeEnable" initial.optimizeEnabled readFlag
  let useKeystore ← readField properties "useKeystore" initial.signing.useKeystore readFlag
  return {
    appName := text "appName" initial.appName
    appPackage := text "appPackage" initial.appPackage
    packageId
    versionName := text "versionName" initial.versionName
    versionCode
    minSdk
    targetSdk
    javaVersion := text "javaVersion" initial.javaVersion
    androidJar := path "androidJarPath" initial.androidJar
    buildPath := path "buildPath" initial.buildPath
    manifestPath := path "manifestPath" initial.manifestPath
    resDir := path "resDir" initial.resDir
    assetsDir := optionalPath properties["assetsDir"]?
    nativeLibsDir := optionalPath properties["nativeLibsDir"]?
    proguardRules := optionalPath properties["proguardRulesPath"]?
    desugarLibrary := optionalPath properties["desugarJdkLibsPath"]?
    javaSources := ((properties["javaSources"]?).map readPaths).getD initial.javaSources
    classpath := ((properties["classpath"]?).map readPaths).getD initial.classpath
    permissions :=
      ((properties["permissions"]?).map ItemList.splitString).getD initial.permissions
    signing := {
      useKeystore
      keystore := {
        path := optionalPath properties["keystorePath"]?
        keyAlias := properties["keyAlias"]?
        storePassword := properties["storePassword"]?
        keyPassword := properties["keyPassword"]? }
      keyPair := {
        key := optionalPath properties["keyPath"]?
        certificate := optionalPath properties["certPath"]? } }
    debugMode
    shrinkEnabled
    alignEnabled
    signEnabled
    optimizeEnabled }

/-- The configuration that a text of properties describes. -/
def ofText (text : String) : Except ConfigError BuildConfig := do
  ofProperties (← Properties.parse text)

end BuildConfig

end SketchApk
