import SketchApk.Proofs.Plan.Confinement
import SketchApk.Proofs.Stage.Secret

/-!
# Where stages write

The stages that put a package together, optimize, align and sign it have their outputs in
directories of the layout. The file name of the package is made of the name of the application's
package, which may be any text. Where this text neither makes an absolute path nor leads upwards,
the operations of the stages themselves change files below the build path alone, apart from the
lock of the toolchain.

## Main definitions

* `Toolchain.MakesKeyLock` : the operations that create the lock of a toolchain.
* `BuildLayout.IsBelowRoot` : the packages of a layout lie below its root.

## Main statements

* `Stage.only_execute_of_isPackaging` : the requests of the last four stages keep to the build path.
* `Stage.keepsIn_of_ends` : each operation in a history of such a stage changes files below the
  build path alone, or creates the lock.
-/

namespace SketchApk

open Plan

/-- The operation creates the lock of the toolchain, or a directory on the way to it. -/
def Toolchain.MakesKeyLock (toolchain : Toolchain) (operation : FileOperation) : Prop :=
  operation = .ensureFile toolchain.keyLock ∨
    ∃ parent path, toolchain.keyLock.parent? = some parent ∧ path ∈ parent.ancestors ∧
      operation = .makeDirectory path

theorem Toolchain.MakesKeyLock.isCreating {toolchain : Toolchain} {operation : FileOperation}
    (h : toolchain.MakesKeyLock operation) : operation.IsCreating := by
  rcases h with rfl | ⟨parent, path, -, -, rfl⟩ <;> trivial

/-! ### Paths of the layout -/

namespace BuildLayout

/-- The file name of the packages is a path that stays below the directories of the layout. -/
structure IsBelowRoot (layout : BuildLayout) : Prop where
  isAbsolute_eq : (⟨layout.packageFileName⟩ : Path).isAbsolute = false
  not_mem : ".." ∉ (⟨layout.packageFileName⟩ : Path).names

variable {layout : BuildLayout}

/-- The packages of an application lie below the build path if the name of its package does not
begin with a slash and has no part that leads upwards. -/
theorem isBelowRoot_of {buildPath : Path} {appPackage : String}
    (hslash : appPackage.toList.head? ≠ some '/')
    (hup : ".." ∉ (⟨appPackage ++ ".apk"⟩ : Path).names) :
    (BuildLayout.of buildPath appPackage).IsBelowRoot where
  isAbsolute_eq := by
    change decide ((appPackage ++ ".apk").toList.head? = some '/') = false
    rw [decide_eq_false_iff_not, String.toList_append]
    cases htext : appPackage.toList with
    | nil => decide
    | cons c rest => simpa [htext] using hslash
  not_mem := hup

theorem enters_div {directory : String} (hdirectory : Path.IsName directory) {name : String}
    (hname : Path.IsName name) : layout.root.Enters (· ≠ ".") (layout.root / directory / name) :=
  ⟨directory, [name], hdirectory.ne_dot, ((Path.IsWithin.refl _).div hdirectory).div hname⟩

theorem IsBelowRoot.enters (h : layout.IsBelowRoot) {directory : String}
    (hdirectory : Path.IsName directory) :
    layout.root.Enters (· ≠ ".") (layout.root / directory / layout.packageFileName) :=
  ⟨directory, _, hdirectory.ne_dot,
    ((Path.IsWithin.refl _).div hdirectory).join h.isAbsolute_eq h.not_mem⟩

end BuildLayout

/-! ### Requests -/

theorem PasswordFile.only_guardingAfter {α : Type} {kind : Request → Prop} {attempt : Attempt α}
    (h : attempt.run.Only kind) (reached : List PasswordFile) {files : List PasswordFile}
    (hfiles : ∀ file ∈ reached ++ files, ∀ operation,
      operation = .write file.path (.ofText file.password) ∨
        operation = .setMode file.path mode ∨ operation = .removeFile file.path →
          kind (.file operation)) : (guardingAfter attempt reached files).run.Only kind := by
  have hremove {few : List PasswordFile} (hfew : few ⊆ reached ++ files) :
      (removeAll few).Only kind :=
    only_removeAll fun file hfile => hfiles file (hfew hfile) _ (.inr (.inr rfl))
  induction files generalizing reached with
  | nil => exact h.followedBy (hremove (List.subset_append_left _ _))
  | cons file rest ih =>
    have hfile := hfiles file (List.mem_append_right _ List.mem_cons_self)
    have hwrite : file.write.run.Only kind :=
      ((only_attemptFile (hfile _ (.inl rfl))).during _).attemptBind fun _ =>
        (only_attemptFile (hfile _ (.inr (.inl rfl)))).during _
    rw [List.append_cons] at hfiles hremove
    exact (hwrite.undoneBy (hremove (List.subset_append_left _ _))).attemptBind fun _ =>
      ih _ hfiles hremove

namespace Stage

variable {context : StageContext}

/-- The stage produces a package. -/
def IsPackaging : Stage → Prop
  | packageResources | optimize | align | sign => True
  | _ => False

section Requests

variable {kind : Request → Prop} (hkind : ∀ operation : FileOperation,
  operation.IsConfined context.layout.root (· ≠ ".") → kind (.file operation))

include hkind

theorem only_inspect (path : Path) : kind (.file (.inspect path)) :=
  hkind (.inspect path) trivial

theorem only_prepareOutput_of_enters {path : Path}
    (h : context.layout.root.Enters (· ≠ ".") path) : (prepareOutput path).run.Only kind :=
  only_prepareOutput_of_mem (only_inspect hkind)
    (fun _ hparent _ hmem hne =>
      hkind _ ⟨path, h, Path.isOnWay_of_mem_ancestors_parent hparent hmem hne⟩)
    (hkind _ h)

theorem only_runPackageResources_of_isBelowRoot (hlayout : context.layout.IsBelowRoot)
    (package : Option Path) : (runPackageResources context package).run.Only kind := by
  have htarget : context.layout.root.Enters (· ≠ ".") context.layout.unsignedPackage :=
    hlayout.enters (by decide)
  exact only_runPackageResources context package
    (fun operation hread => hkind operation (hread.isConfined _ _))
    (only_prepareOutput_of_enters hkind htarget) (fun _ => hkind _ htarget) fun _ =>
      hkind _ htarget

variable (hprint : ∀ text, kind (.print text)) (hcall : ∀ invocation, kind (.call invocation))

include hprint hcall

theorem only_repackage {output : Path} (houtput : context.layout.root.Enters (· ≠ ".") output)
    (package : Option Path) (what : String) (command : Path → Command) :
    (repackage context package output what command).run.Only kind := by
  refine (only_currentPackage (only_inspect hkind) package).attemptBind fun input => ?_
  refine (only_prepareOutput_of_enters hkind houtput).attemptBind fun _ => ?_
  refine (StageContext.only_runCommand hprint (hcall _)).attemptBind fun _ => ?_
  exact (only_ensureExists (only_inspect hkind _) _).attemptBind fun _ => Only.done _

/-- The end of signing writes and removes password files. -/
theorem only_finishSigning {use : KeyUse} (input : Path) (hfiles : ∀ file ∈ use.passwords,
    context.layout.root.Enters (· ≠ ".") file.path) :
    (finishSigning context input use).run.Only kind := by
  refine Only.attemptBind ?_ fun _ =>
    (only_ensureExists (only_inspect hkind _) _).attemptBind fun _ => Only.done _
  refine PasswordFile.only_guardingAfter (StageContext.only_runCommand hprint (hcall _)) [] ?_
  rintro file hmem _ (rfl | rfl | rfl) <;> exact hkind _ (hfiles file hmem)

/-- Signing keeps to the build path, apart from taking the lock. -/
theorem only_runSign (hlayout : context.layout.IsBelowRoot)
    (hlock : ∀ operation, context.toolchain.MakesKeyLock operation → kind (.file operation))
    (package : Option Path) : (runSign context package).run.Only kind := by
  have hsigning {name : String} (hname : Path.IsName name) :
      context.layout.root.Enters (· ≠ ".") (context.layout.signingDir / name) :=
    BuildLayout.enters_div (by decide) hname
  have hcopy (source : Path) : (copyKey source context.layout.signingDir).run.Only kind :=
    only_copyKey fun name hname => hkind (.copy _ _) (hsigning (Path.isName_of_fileName? hname))
  have hbegin {rest : Path → Attempt StageOutput} (hrest : ∀ input, (rest input).run.Only kind) :
      (do
        let input ← currentPackage package
        prepareOutput context.layout.signedPackage
        createDirectory context.layout.signingDir
        takeKeyLock context.toolchain.keyLock
        rest input).run.Only kind := by
    have hdirectory : context.layout.root.Enters (· ≠ ".") context.layout.signingDir :=
      ⟨"signing", [], by decide, (Path.IsWithin.refl _).div (by decide)⟩
    refine (only_currentPackage (only_inspect hkind) package).attemptBind fun input => ?_
    refine (only_prepareOutput_of_enters hkind (hlayout.enters (by decide))).attemptBind
      fun _ => ?_
    refine (only_createDirectory_of_enters hkind hdirectory).attemptBind fun _ => ?_
    refine (only_takeKeyLock_of_mem (only_inspect hkind) (fun parent hparent path hmem _ => ?_)
      (hlock _ (.inl rfl))).attemptBind fun _ => hrest input
    exact hlock _ (.inr ⟨parent, path, hparent, hmem, rfl⟩)
  cases hmaterial : context.config.signing.material? with
  | none =>
    simp only [runSign, hmaterial]
    exact (only_currentPackage (only_inspect hkind) package).attemptBind fun _ => Only.fail _
  | some material =>
    cases material with
    | keystore path keyAlias storePassword keyPassword =>
      rw [runSign_keystore context package hmaterial]
      refine hbegin fun input => (hcopy path).attemptBind fun keystore => ?_
      refine only_finishSigning hkind hprint hcall input fun file hmem => ?_
      rw [keystoreUse, List.mem_cons] at hmem
      rcases hmem with rfl | hmem
      · exact hsigning (by decide)
      · obtain ⟨password, -, rfl⟩ := List.mem_map.mp hmem
        exact hsigning (by decide)
    | keyPair key certificate =>
      rw [runSign_keyPair context package hmaterial]
      refine hbegin fun input => (hcopy key).attemptBind fun _ => ?_
      refine (hcopy certificate).attemptBind fun _ => ?_
      exact only_finishSigning hkind hprint hcall input fun file hmem => by cases hmem

/-- The requests of the last four stages keep to the build path, apart from taking the lock. -/
theorem only_execute_of_isPackaging (hlayout : context.layout.IsBelowRoot)
    (hlock : ∀ operation, context.toolchain.MakesKeyLock operation → kind (.file operation))
    {stage : Stage} (hstage : stage.IsPackaging) (package : Option Path) :
    (stage.execute context package).run.Only kind := by
  cases stage with
  | packageResources => exact only_runPackageResources_of_isBelowRoot hkind hlayout package
  | optimize => exact only_repackage hkind hprint hcall (hlayout.enters (by decide)) package _ _
  | align => exact only_repackage hkind hprint hcall (hlayout.enters (by decide)) package _ _
  | sign => exact only_runSign hkind hprint hcall hlayout hlock package
  | _ => exact hstage.elim

end Requests

/-! ### Histories -/

/-- Each operation of one of the last four stages changes files below the build path alone, or
creates the lock. The tools leave what they like, so there must be no links below the build path at
the time of the operation; before a tool is called it is enough that there were none at the
beginning. -/
theorem keepsIn_of_ends (hlayout : context.layout.IsBelowRoot) {stage : Stage}
    (hstage : stage.IsPackaging) {package : Option Path} {before after : History}
    {operation : FileOperation} {answer : Except FileError operation.Value}
    {result : Except Fault StageOutput}
    (hends : (stage.execute context package).run.Ends
      (before ++ ⟨.file operation, answer⟩ :: after) result)
    {cwd place : Location} {files middle : FileSystem}
    (hfiles : FileSystem.Evolves cwd files before middle)
    (hroot : before.calls = [] ∧ files.HasDirectory cwd context.layout.root place ∧
        files.LinkFree place ∨
      middle.HasDirectory cwd context.layout.root place ∧ middle.LinkFree place) :
    operation.KeepsIn (FileSystem.Region place (· ≠ ".")) context.toolchain.MakesKeyLock cwd
      middle := by
  have honly : (stage.execute context package).run.Only
      (Request.KeepsTo context.layout.root (· ≠ ".") context.toolchain.MakesKeyLock) :=
    only_execute_of_isPackaging (fun _ h => .inl h) (fun _ => trivial) (fun _ => trivial) hlayout
      (fun _ h => .inr h) hstage package
  have hrequests (entry : Exchange) (hmem : entry ∈ before ++ ⟨.file operation, answer⟩ :: after) :
      entry.request.KeepsTo context.layout.root (· ≠ ".") context.toolchain.MakesKeyLock :=
    honly.request_of_mem hends hmem
  have hexempt (other : FileOperation) (h : context.toolchain.MakesKeyLock other) :
      other.IsCreating := h.isCreating
  have hoperation := hrequests _ (List.mem_append_right _ List.mem_cons_self)
  rcases hroot with ⟨hcalls, hbase, hfree⟩ | ⟨hbase, hfree⟩
  · have hkeeps := hfiles.keepsOutside hcalls
      (fun entry hmem => hrequests entry (List.mem_append_left _ hmem)) (fun _ => id) hbase hfree
      hexempt (.refl _ files)
    exact (FileOperation.staysIn_and_keepsOutside hoperation (fun _ => id) hbase hfree hexempt
      hkeeps).1
  · exact (FileOperation.staysIn_and_keepsOutside hoperation (fun _ => id) hbase hfree hexempt
      (.refl _ middle)).1

end Stage

end SketchApk
