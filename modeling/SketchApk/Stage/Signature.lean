import SketchApk.Config.Persisted
import SketchApk.Stage.Basic

/-!
# Signing packages

The key material is copied to the signing directory of the build, while the lock of the toolchain is
held, and the tool works on the copies. Passwords are handed over in files: a password never occurs
on a command line. A password file is removed on every way out, also when it could not be written
completely.

## Main definitions

* `KeyUse` : what the tool is told about the key material.
* `PasswordFile`, `PasswordFile.guarding` : a password file that lasts as long as an attempt.
* `Stage.runSign` : the stage.
-/

namespace SketchApk

/-- A file that hands a password to a tool. -/
structure PasswordFile where
  path : Path
  password : String

namespace PasswordFile

/-- The permission bits of a password file: only its owner may read and write it. -/
def mode : Mode := 0o600

/-- The argument that names a password file. -/
def argument (file : PasswordFile) : String :=
  "file:" ++ file.path.text

/-- Write a password file and restrict its permissions. -/
def write (file : PasswordFile) : Attempt Unit := do
  (Attempt.file (.write file.path (.ofText file.password))).during (.writing file.path)
  (Attempt.file (.setMode file.path mode)).during (.restricting file.path)

/-- Remove a password file, if it is there. -/
def remove (file : PasswordFile) : Plan Unit :=
  discard (Plan.ask (.file (.removeFile file.path)))

/-- Remove password files, in their order. -/
def removeAll (files : List PasswordFile) : Plan Unit :=
  files.forM remove

/-- The attempt with more password files in place, when some have been reached before. All files
that have been reached are removed in the order in which they were, also a file that could not be
written. -/
def guardingAfter {α : Type} (attempt : Attempt α) (reached : List PasswordFile) :
    List PasswordFile → Attempt α
  | [] => attempt.followedBy (removeAll reached)
  | file :: rest => do
    file.write.undoneBy (removeAll (reached ++ [file]))
    guardingAfter attempt (reached ++ [file]) rest

/-- The attempt with some password files in place. The files are removed at the end, and those that
were not reached are not touched. -/
def guarding {α : Type} (attempt : Attempt α) (files : List PasswordFile) : Attempt α :=
  guardingAfter attempt [] files

end PasswordFile

/-- What the tool is told about the key material, and the password files that it reads. -/
structure KeyUse where
  arguments : List String
  passwords : List PasswordFile

namespace Stage

/-- Copy a key file to a directory, where it keeps its name. -/
def copyKey (source directory : Path) : Attempt Path := do
  match source.fileName? with
  | none => Attempt.fail (.stage (.keyWithoutName source))
  | some name =>
    let target := directory / name
    (Attempt.file (.copy source target)).during (.copying source target)
    return target

/-- Take the lock that is held while keys are copied. Its file is created when it is missing, and it
is never removed. -/
def takeKeyLock (path : Path) : Attempt Unit := do
  if let some parent := path.parent? then Plan.makeDirectories parent
  (Attempt.file (.ensureFile path)).during (.creatingLock path)

/-- The file that hands over the password of the keystore. -/
def storePasswordFile (directory : Path) (password : String) : PasswordFile :=
  ⟨directory / "store-pass.txt", password⟩

/-- The file that hands over the password of the key. -/
def keyPasswordFile (directory : Path) (password : String) : PasswordFile :=
  ⟨directory / "key-pass.txt", password⟩

/-- The use of a keystore that has been copied. -/
def keystoreUse (directory keystore : Path) (keyAlias storePassword : String)
    (keyPassword : Option String) : KeyUse :=
  let store := storePasswordFile directory storePassword
  let key := keyPassword.toList.map (keyPasswordFile directory)
  { arguments :=
      ["--ks", keystore.text, "--ks-key-alias", keyAlias, "--ks-pass", store.argument] ++
        key.flatMap fun file => ["--key-pass", file.argument]
    passwords := store :: key }

/-- Copy the key material to a directory. -/
def copyMaterial (directory : Path) : SigningMaterial → Attempt KeyUse
  | .keystore path keyAlias storePassword keyPassword => do
    let keystore ← copyKey path directory
    return keystoreUse directory keystore keyAlias storePassword keyPassword
  | .keyPair key certificate => do
    let key ← copyKey key directory
    let certificate ← copyKey certificate directory
    return ⟨["--key", key.text, "--cert", certificate.text], []⟩

/-- The command that signs a package with copied key material. -/
def signCommand (context : StageContext) (use : KeyUse) (input : Path) : Command :=
  (Command.of context.toolchain.apksigner)
    |>.args ["sign", "--min-sdk-version", BuildConfig.numberValue context.config.minSdk]
    |>.args ["--out", context.layout.signedPackage.text]
    |>.args use.arguments
    |>.argPath input
    |>.reporting "apksigner failed"

/-- Sign the package. -/
def runSign (context : StageContext) (package : Option Path) : Attempt StageOutput := do
  let layout := context.layout
  let input ← currentPackage package
  match context.config.signing.material? with
  | none => Attempt.fail (.stage .incompleteSigning)
  | some material =>
    let output := layout.signedPackage
    prepareOutput output
    Plan.createDirectory layout.signingDir
    takeKeyLock context.toolchain.keyLock
    let use ← copyMaterial layout.signingDir material
    PasswordFile.guarding (context.runCommand (signCommand context use input)) use.passwords
    ensureExists output "Signed package"
    return ⟨[output], some output⟩

end Stage

end SketchApk
