import SketchApk.Proofs.File.Deposit
import SketchApk.Proofs.Plan.Reach
import SketchApk.Proofs.Stage.Work

/-!
# Key material

All files with key material lie in one directory while a package is signed: the copies of keys and
certificates under the names of their sources, and the passwords under names of their own. So a copy
is lost when something is put under its name later, and the tool is then given what has been put
there last.

## Main definitions

* `SigningMaterial.Fits` : the material can be put into a directory without hitting other files.
* `SigningMaterial.InPlace` : what the tool is told about the material, and what the files hold.

## Main statements

* `Stage.runSign_inPlace` : the tool finds the material in place, except for what has been put under
  the same name.
-/

namespace SketchApk

namespace PasswordFile

/-- A password file as it is put somewhere. -/
def deposit (file : PasswordFile) : Deposit :=
  ⟨file.path, .written file.password mode⟩

theorem ends_write {file : PasswordFile} {history : History}
    (h : file.write.run.Ends history (.ok ())) : history = file.deposit.exchanges := by
  rcases Attempt.ends_bind.mp h with ⟨_, -, hfault⟩ | ⟨first, ⟨⟩, second, rfl, hfirst, hsecond⟩
  · cases hfault
  · rw [Attempt.ends_file_ok.mp (Attempt.ends_during_ok.mp hfirst),
      Attempt.ends_file_ok.mp (Attempt.ends_during_ok.mp hsecond)]
    rfl

/-- Before an attempt calls a tool all password files are put in place. -/
theorem reaches_guardingAfter {α : Type} {attempt : Attempt α} {reached files : List PasswordFile}
    {before : History} {invocation : Invocation}
    (h : (guardingAfter attempt reached files).Reaches before invocation) :
    ∃ inner, before = (files.map deposit).flatMap Deposit.exchanges ++ inner ∧
      attempt.Reaches inner invocation := by
  have hremove (files : List PasswordFile) : (removeAll files).Only Request.IsLocal :=
    only_removeAll fun _ _ => Request.isLocal_file _
  induction files generalizing reached before with
  | nil => exact ⟨before, rfl, h.of_followedBy (hremove _)⟩
  | cons file rest ih =>
    obtain ⟨first, ⟨⟩, later, rfl, hfirst, hlater⟩ :=
      h.of_bind ((only_write file).undoneBy (hremove _))
    obtain ⟨inner, rfl, hinner⟩ := ih hlater
    refine ⟨inner, ?_, hinner⟩
    rw [ends_write (Attempt.ends_of_undoneBy hfirst), List.map_cons, List.flatMap_cons,
      List.append_assoc]

end PasswordFile

/-- Running a command calls its tool at once. -/
theorem Command.reaches_run {command : Command} {before : History} {invocation : Invocation}
    (h : command.run.Reaches before invocation) :
    before = [] ∧ invocation = command.toInvocation := by
  refine Attempt.reaches_call (h.of_bind_isLocal fun output => ?_)
  split
  · exact Plan.Only.of_pure _
  · exact Plan.Only.of_throw _

/-- A command that is run as part of a stage calls its tool, and nothing is done to files before. -/
theorem StageContext.reaches_runCommand {context : StageContext} {command : Command}
    {before : History} {invocation : Invocation}
    (h : (context.runCommand command).Reaches before invocation) :
    invocation = command.toInvocation ∧ ∀ entry ∈ before, entry.request.LeavesFiles := by
  rw [runCommand] at h
  obtain ⟨printed, rest, rfl, hprinted, hrest⟩ := h.of_guarded (only_printLine Request.isLocal_print _).always
  dsimp only at hrest
  obtain ⟨rfl, rfl⟩ := Command.reaches_run (hrest.of_bind_isLocal fun output => by
    split
    · refine (only_echo Request.isLocal_print _).always.attemptBind fun _ => ?_
      exact (only_echo Request.isLocal_print _).always
    · exact Plan.Only.of_pure _)
  refine ⟨rfl, fun entry hmem => ?_⟩
  rw [List.append_nil] at hmem
  rcases hprinted with rfl | hprinted
  · cases hmem
  · have honly : (Attempt.always (Plan.printLine ("  $ " ++ command.commandLine))).run.Only
        Request.LeavesFiles :=
      (Plan.Only.ask trivial).always
    exact honly.request_of_mem hprinted hmem

namespace SigningMaterial

/-- The use of key material that has been put into a directory, with the files that have been put
there, in order. -/
inductive IsPut (directory : Path) : SigningMaterial → KeyUse → List Deposit → Prop
  | keyPair {key certificate : Path} {keyName certificateName : String}
      (hkey : key.fileName? = some keyName)
      (hcertificate : certificate.fileName? = some certificateName) :
      IsPut directory (.keyPair key certificate)
        ⟨["--key", (directory / keyName).text, "--cert", (directory / certificateName).text], []⟩
        [⟨directory / keyName, .copied key⟩, ⟨directory / certificateName, .copied certificate⟩]
  | keystore {path : Path} {name : String} (hname : path.fileName? = some name)
      (keyAlias storePassword : String) (keyPassword : Option String) :
      IsPut directory (.keystore path keyAlias storePassword keyPassword)
        (Stage.keystoreUse directory (directory / name) keyAlias storePassword keyPassword)
        [⟨directory / name, .copied path⟩]

end SigningMaterial

namespace Stage

theorem ends_copyKey {source directory target : Path} {history : History}
    (h : (copyKey source directory).run.Ends history (.ok target)) :
    ∃ name, source.fileName? = some name ∧ target = directory / name ∧
      history = Deposit.exchanges ⟨directory / name, .copied source⟩ := by
  rw [copyKey] at h
  split at h
  · cases h.2
  · rcases Attempt.ends_bind.mp h with ⟨_, -, hfault⟩ | ⟨first, ⟨⟩, second, rfl, hfirst, hsecond⟩
    · cases hfault
    · obtain ⟨rfl, hvalue⟩ := hsecond
      obtain rfl := Except.ok.inj hvalue
      refine ⟨_, ‹_›, rfl, ?_⟩
      rw [Attempt.ends_file_ok.mp (Attempt.ends_during_ok.mp hfirst)]
      rfl

/-- Copying key material puts copies into a directory. -/
theorem exists_isPut_of_copyMaterial {directory : Path} {material : SigningMaterial}
    {history : History} {use : KeyUse}
    (h : (copyMaterial directory material).run.Ends history (.ok use)) :
    ∃ deposits, material.IsPut directory use deposits ∧
      history = deposits.flatMap Deposit.exchanges := by
  cases material with
  | keystore path keyAlias storePassword keyPassword =>
    rcases Attempt.ends_bind.mp h with ⟨_, -, hfault⟩ | ⟨first, _, second, rfl, hfirst, hsecond⟩
    · cases hfault
    · obtain ⟨name, hname, rfl, rfl⟩ := ends_copyKey hfirst
      obtain ⟨rfl, hvalue⟩ := hsecond
      obtain rfl := Except.ok.inj hvalue
      exact ⟨_, .keystore hname keyAlias storePassword keyPassword, by simp⟩
  | keyPair key certificate =>
    rcases Attempt.ends_bind.mp h with ⟨_, -, hfault⟩ | ⟨first, _, second, rfl, hfirst, hsecond⟩
    · cases hfault
    · rcases Attempt.ends_bind.mp hsecond with ⟨_, -, hfault⟩ | ⟨third, _, last, rfl, hthird, hlast⟩
      · cases hfault
      · obtain ⟨keyName, hkey, rfl, rfl⟩ := ends_copyKey hfirst
        obtain ⟨certificateName, hcertificate, rfl, rfl⟩ := ends_copyKey hthird
        obtain ⟨rfl, hvalue⟩ := hlast
        obtain rfl := Except.ok.inj hvalue
        exact ⟨_, .keyPair hkey hcertificate, by simp⟩

/-- Before a package is signed the key material is copied and the password files are written, and
nothing else is done to files behind that. -/
theorem reaches_runSign {context : StageContext} {package : Option Path} {before : History}
    {invocation : Invocation} (h : (runSign context package).Reaches before invocation) :
    ∃ material use input setup deposits printed,
      context.config.signing.material? = some material ∧
        material.IsPut context.layout.signingDir use deposits ∧
          invocation = (signCommand context use input).toInvocation ∧
            before = setup ++ ((deposits ++ use.passwords.map PasswordFile.deposit).flatMap
              Deposit.exchanges ++ printed) ∧
              ∀ entry ∈ printed, entry.request.LeavesFiles := by
  obtain ⟨first, input, later, rfl, -, hstage⟩ :=
    h.of_bind (only_currentPackage (fun _ => Request.isLocal_file _) package)
  cases hmaterial : context.config.signing.material? with
  | none =>
    rw [hmaterial] at hstage
    exact absurd hstage (Attempt.not_reaches_of_isLocal (Plan.Only.fail _))
  | some material =>
    rw [hmaterial] at hstage
    obtain ⟨second, ⟨⟩, later, rfl, -, hdirectory⟩ :=
      hstage.of_bind (only_prepareOutput Request.isLocal_writeless _)
    obtain ⟨third, ⟨⟩, later, rfl, -, hlock⟩ :=
      hdirectory.of_bind (Plan.only_createDirectory (fun _ => Request.isLocal_file _)
        (fun _ => Request.isLocal_file _) _)
    obtain ⟨fourth, ⟨⟩, later, rfl, -, hcopying⟩ :=
      hlock.of_bind (only_takeKeyLock Request.isLocal_writeless _)
    obtain ⟨copies, use, later, rfl, hcopies, hguarded⟩ :=
      hcopying.of_bind (only_copyMaterial (fun _ _ _ => Request.isLocal_file _) material)
    obtain ⟨deposits, hput, rfl⟩ := exists_isPut_of_copyMaterial hcopies
    obtain ⟨printed, rfl, hprinted⟩ := PasswordFile.reaches_guardingAfter <|
      hguarded.of_bind_isLocal fun _ =>
        (only_ensureExists (Request.isLocal_file _) _).attemptBind fun _ => Plan.Only.done _
    obtain ⟨rfl, hleaves⟩ := StageContext.reaches_runCommand hprinted
    refine ⟨material, use, input, first ++ (second ++ (third ++ fourth)), deposits, printed, rfl,
      hput, rfl, ?_, hleaves⟩
    simp only [List.flatMap_append, List.append_assoc]

end Stage

namespace SigningMaterial

variable {material : SigningMaterial} {files : FileSystem} {cwd : Location} {directory : Path}

/-- The names of the files that are put into a directory for some key material. -/
def names : SigningMaterial → List String
  | keystore path _ _ keyPassword =>
    path.fileName?.toList ++ "store-pass.txt" :: keyPassword.toList.map fun _ => "key-pass.txt"
  | keyPair key certificate => key.fileName?.toList ++ certificate.fileName?.toList

/-- The files that are copied. -/
def sources : SigningMaterial → List Path
  | keystore path _ _ _ => [path]
  | keyPair key certificate => [key, certificate]

theorem isName_of_mem_names {name : String} (h : name ∈ material.names) : Path.IsName name := by
  cases material with
  | keystore path keyAlias storePassword keyPassword =>
    rcases List.mem_append.mp h with hname | hname
    · exact Path.isName_of_fileName? (Option.mem_toList.mp hname)
    · rcases List.mem_cons.mp hname with rfl | hname
      · exact ⟨by decide, by decide, by decide, by decide⟩
      · obtain ⟨_, -, rfl⟩ := List.mem_map.mp hname
        exact ⟨by decide, by decide, by decide, by decide⟩
  | keyPair key certificate =>
    rcases List.mem_append.mp h with hname | hname <;>
      exact Path.isName_of_fileName? (Option.mem_toList.mp hname)

/-- The key material can be put into a directory without hitting files elsewhere: none of the names
that it gets is the name of a link, and none of its files lies in the directory already. -/
structure Fits (material : SigningMaterial) (files : FileSystem) (cwd : Location)
    (directory : Path) : Prop where
  hasLink_eq : ∀ name ∈ material.names, files.hasLink cwd directory name = false
  isWithin_eq : ∀ source ∈ material.sources, files.isWithin cwd directory source = false

theorem Fits.apart (h : material.Fits files cwd directory) (hdirectory : directory.isEmpty = false)
    {name other : String}
    (hname : name ∈ material.names) (hother : other ∈ material.names) (hne : name ≠ other) :
    files.Apart cwd (directory / name) (directory / other) :=
  FileSystem.apart_div hdirectory (isName_of_mem_names hname) (isName_of_mem_names hother) hne
    (h.hasLink_eq name hname) (h.hasLink_eq other hother)

theorem Fits.apart_source (h : material.Fits files cwd directory)
    (hdirectory : directory.isEmpty = false) {source : Path} {name : String}
    (hsource : source ∈ material.sources) (hname : name ∈ material.names) :
    files.Apart cwd source (directory / name) :=
  FileSystem.apart_div_of_not_isWithin hdirectory (isName_of_mem_names hname)
    (h.hasLink_eq name hname) (h.isWithin_eq source hsource)

/-- What the tool is told about key material in a directory, and what the files hold. What is put
into the directory later may hit a copy with the same name. -/
inductive InPlace (files : FileSystem) (cwd : Location) (directory : Path) :
    SigningMaterial → List String → Prop
  | keyPair {key certificate : Path} {keyName certificateName : String}
      (hkeyName : key.fileName? = some keyName)
      (hcertificateName : certificate.fileName? = some certificateName)
      (hkey : keyName ≠ certificateName → files.ReadsLike cwd key (directory / keyName))
      (hcertificate : files.ReadsLike cwd certificate (directory / certificateName)) :
      InPlace files cwd directory (.keyPair key certificate)
        ["--key", (directory / keyName).text, "--cert", (directory / certificateName).text]
  | keystore {path : Path} {name keyAlias storePassword : String} {keyPassword : Option String}
      (hname : path.fileName? = some name)
      (hkeystore : name ≠ "store-pass.txt" → (keyPassword.isSome = true → name ≠ "key-pass.txt") →
        files.ReadsLike cwd path (directory / name))
      (hstore : files.Reads cwd (directory / "store-pass.txt") (.ofText storePassword))
      (hkey : ∀ password, keyPassword = some password →
        files.Reads cwd (directory / "key-pass.txt") (.ofText password)) :
      InPlace files cwd directory (.keystore path keyAlias storePassword keyPassword)
        (["--ks", (directory / name).text, "--ks-key-alias", keyAlias, "--ks-pass",
          "file:" ++ (directory / "store-pass.txt").text] ++
          keyPassword.toList.flatMap fun _ =>
            ["--key-pass", "file:" ++ (directory / "key-pass.txt").text])

variable {before : FileSystem} {use : KeyUse} {deposits : List Deposit}

theorem inPlace_keyPair {key certificate : Path} {keyName certificateName : String}
    (hkey : key.fileName? = some keyName) (hcertificate : certificate.fileName? = some certificateName)
    (hfits : (keyPair key certificate).Fits files cwd directory) (hdirectory : directory.isEmpty = false)
    (h : FileSystem.Evolves cwd before
      ([⟨directory / keyName, .copied key⟩, ⟨directory / certificateName, .copied certificate⟩].flatMap
        Deposit.exchanges) files) :
    (keyPair key certificate).InPlace files cwd directory
      ["--key", (directory / keyName).text, "--cert", (directory / certificateName).text] := by
  have hkeyMem : keyName ∈ (keyPair key certificate).names := by simp [names, hkey]
  have hcertificateMem : certificateName ∈ (keyPair key certificate).names := by
    simp [names, hcertificate]
  have hkeySource : key ∈ (keyPair key certificate).sources := by simp [sources]
  have hcertificateSource : certificate ∈ (keyPair key certificate).sources := by simp [sources]
  refine .keyPair hkey hcertificate (fun hne => ?_) ?_
  · refine Deposit.readsLike_of_copied [] h ?_ ?_
    · simpa using hfits.apart hdirectory hkeyMem hcertificateMem hne
    · simpa using ⟨hfits.apart_source hdirectory hkeySource hkeyMem,
        hfits.apart_source hdirectory hkeySource hcertificateMem⟩
  · refine Deposit.readsLike_of_copied [⟨directory / keyName, .copied key⟩] h (by simp) ?_
    simpa using hfits.apart_source hdirectory hcertificateSource hcertificateMem

theorem inPlace_keystore {path : Path} {name keyAlias storePassword : String}
    {keyPassword : Option String} (hname : path.fileName? = some name)
    (hfits : (keystore path keyAlias storePassword keyPassword).Fits files cwd directory)
    (hdirectory : directory.isEmpty = false)
    (h : FileSystem.Evolves cwd before ((⟨directory / name, .copied path⟩ ::
      ⟨directory / "store-pass.txt", .written storePassword PasswordFile.mode⟩ ::
        keyPassword.toList.map fun password =>
          ⟨directory / "key-pass.txt", .written password PasswordFile.mode⟩).flatMap
            Deposit.exchanges) files) :
    (keystore path keyAlias storePassword keyPassword).InPlace files cwd directory
      (["--ks", (directory / name).text, "--ks-key-alias", keyAlias, "--ks-pass",
        "file:" ++ (directory / "store-pass.txt").text] ++
        keyPassword.toList.flatMap fun _ =>
          ["--key-pass", "file:" ++ (directory / "key-pass.txt").text]) := by
  have hnameMem : name ∈ (keystore path keyAlias storePassword keyPassword).names := by
    simp [names, hname]
  have hstoreMem : "store-pass.txt" ∈ (keystore path keyAlias storePassword keyPassword).names := by
    simp [names]
  have hkeyMem {password : String} (hpassword : keyPassword = some password) :
      "key-pass.txt" ∈ (keystore path keyAlias storePassword keyPassword).names := by
    simp [names, hpassword]
  have hsource : path ∈ (keystore path keyAlias storePassword keyPassword).sources := by
    simp [sources]
  refine .keystore hname (fun hne hne' => ?_) ?_ ?_
  · refine Deposit.readsLike_of_copied [] h ?_ ?_
    · simpa using ⟨hfits.apart hdirectory hnameMem hstoreMem hne, fun password hpassword =>
        hfits.apart hdirectory hnameMem (hkeyMem hpassword) (hne' (by simp [hpassword]))⟩
    · simpa using ⟨hfits.apart_source hdirectory hsource hnameMem,
        hfits.apart_source hdirectory hsource hstoreMem, fun password hpassword =>
          hfits.apart_source hdirectory hsource (hkeyMem hpassword)⟩
  · refine Deposit.reads_of_written [⟨directory / name, .copied path⟩] h ?_
    simpa using fun password hpassword =>
      hfits.apart hdirectory hstoreMem (hkeyMem hpassword) (by decide)
  · rintro password rfl
    exact Deposit.reads_of_written [⟨directory / name, .copied path⟩,
      ⟨directory / "store-pass.txt", .written storePassword PasswordFile.mode⟩] h (by simp)

/-- Key material that has been put into a directory is in place there. -/
theorem inPlace_of_isPut (hput : material.IsPut directory use deposits)
    (hfits : material.Fits files cwd directory) (hdirectory : directory.isEmpty = false)
    (h : FileSystem.Evolves cwd before
      ((deposits ++ use.passwords.map PasswordFile.deposit).flatMap Deposit.exchanges) files) :
    material.InPlace files cwd directory use.arguments := by
  cases hput with
  | keyPair hkey hcertificate => exact inPlace_keyPair hkey hcertificate hfits hdirectory h
  | @keystore path name hname keyAlias storePassword keyPassword =>
    have hpasswords : (Stage.keystoreUse directory (directory / name) keyAlias storePassword
          keyPassword).passwords.map PasswordFile.deposit =
        ⟨directory / "store-pass.txt", .written storePassword PasswordFile.mode⟩ ::
          keyPassword.toList.map fun password =>
            ⟨directory / "key-pass.txt", .written password PasswordFile.mode⟩ := by
      simp [Stage.keystoreUse, Stage.storePasswordFile, Stage.keyPasswordFile,
        PasswordFile.deposit]
    have harguments : (Stage.keystoreUse directory (directory / name) keyAlias storePassword
          keyPassword).arguments =
        ["--ks", (directory / name).text, "--ks-key-alias", keyAlias, "--ks-pass",
          "file:" ++ (directory / "store-pass.txt").text] ++
          keyPassword.toList.flatMap fun _ =>
            ["--key-pass", "file:" ++ (directory / "key-pass.txt").text] := by
      simp [Stage.keystoreUse, Stage.storePasswordFile, Stage.keyPasswordFile,
        PasswordFile.argument, List.flatMap_map]
    rw [hpasswords] at h
    rw [harguments]
    exact inPlace_keystore hname hfits hdirectory h

end SigningMaterial

/-- When a package is signed, the tool finds the key material in place, except for what has been put
under the same name. -/
theorem Stage.runSign_inPlace {context : StageContext} {package : Option Path} {before : History}
    {invocation : Invocation} {material : SigningMaterial} {place : Location}
    {files middle : FileSystem} (h : (runSign context package).Reaches before invocation)
    (hmaterial : context.config.signing.material? = some material)
    (hfiles : FileSystem.Evolves place files before middle)
    (hfits : material.Fits middle place context.layout.signingDir) :
    ∃ keys input, material.InPlace middle place context.layout.signingDir keys ∧
      invocation.program = context.toolchain.apksigner ∧ invocation.arguments = ["sign", "--min-sdk-version",
        BuildConfig.numberValue context.config.minSdk, "--out",
        context.layout.signedPackage.text] ++ keys ++ [input] := by
  obtain ⟨material', use, input, setup, deposits, printed, hmaterial', hput, rfl, rfl, hprinted⟩ :=
    reaches_runSign h
  obtain rfl := Option.some.inj (hmaterial.symm.trans hmaterial')
  obtain ⟨_, -, hlater⟩ := hfiles.exists_of_append
  obtain ⟨last, hdeposits, hlast⟩ := hlater.exists_of_append
  obtain rfl := hlast.eq_of_leavesFiles hprinted
  have hdirectory : context.layout.signingDir.isEmpty = false := Path.isEmpty_div _ (by decide)
  exact ⟨use.arguments, input.text,
    SigningMaterial.inPlace_of_isPut hput hfits hdirectory hdeposits, rfl, rfl⟩

/-- An attempt whose history in a world ends with a call reaches the call. If the tools leave files
alone, the files at that time are those at the end. -/
theorem Attempt.reaches_of_getLast? {α : Type} {attempt : Attempt α} {world : World}
    {files : FileSystem} {invocation : Invocation} (honly : attempt.run.Only Request.IsWork)
    (htools : ∀ invocation files, (world.tools invocation files).2 = files)
    (h : (attempt.run.history (world.answer false) files).getLast?.bind (·.request.invocation?) =
      some invocation) :
    attempt.Reaches (attempt.run.history (world.answer false) files).dropLast invocation ∧
      FileSystem.Evolves world.place files
        (attempt.run.history (world.answer false) files).dropLast
        (attempt.run.run (world.answer false) files).2 := by
  obtain ⟨⟨answer, hhistory⟩, hevolves⟩ :=
    World.evolves_dropLast (honly.mono fun _ => Request.IsWork.keepsStop) htools h
  have hends := Plan.ends_run (world.answer false) attempt.run files
  rw [hhistory] at hends
  exact ⟨⟨answer, [], _, hends⟩, hevolves⟩

/-! ### Examples -/

namespace Stage

/-- A world whose tools refuse to work and leave files alone. -/
def deafWorld : World where
  place := []
  tools _ files := (.error { cause := .tool (.refused "") }, files)

/-- A package to be signed with a key and a certificate. -/
def signingContext (certificate : Path) : StageContext where
  config := {
    buildPath := ⟨"/d"⟩
    debugMode := false
    signing.keyPair := ⟨some ⟨"/a/k.pem"⟩, some certificate⟩ }
  toolchain := Toolchain.ofLocations ⟨"/d"⟩ fun _ => ⟨"/f"⟩

/-- Files with a package, a key and two copies of a certificate, one with the name of the key. -/
def signingFiles : FileSystem :=
  [(["d"], .directory 0o755), (["a"], .directory 0o755), (["b"], .directory 0o755),
    (["p"], .file 0o644 .empty), (["a", "k.pem"], .file 0o644 (.ofText "key")),
    (["b", "k.pem"], .file 0o644 (.ofText "certificate")),
    (["b", "c.pem"], .file 0o644 (.ofText "certificate"))].foldl
      (fun files entry => files.put entry.1 entry.2) FileSystem.root

/-- The call by which the package is signed. -/
def signingCall (certificate : String) : Invocation where
  program := ⟨"/f"⟩
  arguments := ["sign", "--min-sdk-version", "21", "--out", "/d/outputs/com.example.app.apk",
    "--key", "/d/signing/k.pem", "--cert", certificate, "/p"]

variable (certificate : Path)

/-- The history of signing the package up to the call. -/
def signingHistory : History :=
  ((runSign (signingContext certificate) (some ⟨"/p"⟩)).run.history (deafWorld.answer false)
    signingFiles).dropLast

/-- The files at the time of the call. -/
def signingFilesAtCall : FileSystem :=
  ((runSign (signingContext certificate) (some ⟨"/p"⟩)).run.run (deafWorld.answer false)
    signingFiles).2

theorem reaches_sample (invocation : Invocation)
    (h : ((runSign (signingContext certificate) (some ⟨"/p"⟩)).run.history (deafWorld.answer false)
      signingFiles).getLast?.bind (·.request.invocation?) = some invocation) :
    (runSign (signingContext certificate) (some ⟨"/p"⟩)).Reaches (signingHistory certificate)
        invocation ∧
      FileSystem.Evolves deafWorld.place signingFiles (signingHistory certificate)
        (signingFilesAtCall certificate) :=
  Attempt.reaches_of_getLast? (works_runSign (signingContext certificate) (some ⟨"/p"⟩)).only
    (fun _ _ => rfl) h

/-- A key and a certificate with names of their own are in place when the package is signed. -/
theorem inPlace_sample :
    ∃ keys input, (SigningMaterial.keyPair ⟨"/a/k.pem"⟩ ⟨"/b/c.pem"⟩).InPlace
        (signingFilesAtCall ⟨"/b/c.pem"⟩) [] ⟨"/d/signing"⟩ keys ∧
      (signingCall "/d/signing/c.pem").program = ⟨"/f"⟩ ∧
        (signingCall "/d/signing/c.pem").arguments = ["sign", "--min-sdk-version", "21", "--out",
          "/d/outputs/com.example.app.apk"] ++ keys ++ [input] := by
  obtain ⟨hreaches, hevolves⟩ := reaches_sample ⟨"/b/c.pem"⟩ (signingCall "/d/signing/c.pem")
    (by decide +kernel)
  have hfits : (SigningMaterial.keyPair ⟨"/a/k.pem"⟩ ⟨"/b/c.pem"⟩).Fits
      (signingFilesAtCall ⟨"/b/c.pem"⟩) [] ⟨"/d/signing"⟩ :=
    ⟨by decide +kernel, by decide +kernel⟩
  exact runSign_inPlace hreaches rfl hevolves hfits

/-- The tool is given a certificate in place of the key when both have the same name. -/
theorem not_inPlace_sample :
    (signingContext ⟨"/b/k.pem"⟩).config.signing.material? =
        some (.keyPair ⟨"/a/k.pem"⟩ ⟨"/b/k.pem"⟩) ∧
      (runSign (signingContext ⟨"/b/k.pem"⟩) (some ⟨"/p"⟩)).Reaches (signingHistory ⟨"/b/k.pem"⟩)
        (signingCall "/d/signing/k.pem") ∧
      FileSystem.Evolves [] signingFiles (signingHistory ⟨"/b/k.pem"⟩)
        (signingFilesAtCall ⟨"/b/k.pem"⟩) ∧
      ((signingFilesAtCall ⟨"/b/k.pem"⟩).read [] ⟨"/a/k.pem"⟩).toOption.bind Content.text? =
        some "key" ∧
      ((signingFilesAtCall ⟨"/b/k.pem"⟩).read [] ⟨"/d/signing/k.pem"⟩).toOption.bind
        Content.text? = some "certificate" := by
  obtain ⟨hreaches, hevolves⟩ := reaches_sample ⟨"/b/k.pem"⟩ (signingCall "/d/signing/k.pem")
    (by decide +kernel)
  exact ⟨rfl, hreaches, hevolves, by decide +kernel, by decide +kernel⟩

end Stage

end SketchApk
