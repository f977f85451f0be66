import SketchApk.Proofs.Plan.Requests
import SketchApk.Stage.Execute

/-!
# What stages ask for

A stage works on files and on the output, and calls at most one tool, in the way that its agenda
says. When the call fails, so does the stage, and it calls no other tool. A stage that does not fail
has made its call.

## Main definitions

* `Stage.agenda` : the call of a stage, given the package of the stages before it.

## Main statements

* `Stage.works_execute` : a stage calls the tools of its agenda, and fails when a call fails.
-/

namespace SketchApk

open Plan Request

theorem only_printLine {kind : Request → Prop} (hprint : ∀ text, kind (.print text))
    (text : String) : (printLine text).Only kind :=
  Only.ask (hprint _)

theorem StageContext.only_echo {kind : Request → Prop} (hprint : ∀ text, kind (.print text))
    (text : String) : (StageContext.echo text).Only kind := by
  rw [StageContext.echo]
  split
  · exact Only.done _
  · exact only_printLine hprint _

theorem StageContext.only_runCommand {kind : Request → Prop}
    (hprint : ∀ text, kind (.print text)) {context : StageContext} {command : Command}
    (hcall : kind (.call command.toInvocation)) : (context.runCommand command).run.Only kind := by
  rw [StageContext.runCommand]
  refine Only.guarded (only_printLine hprint _).always ?_
  dsimp only
  refine Only.attemptBind (Only.attemptBind (Only.ask hcall) fun output => ?_) fun output => ?_
  · split
    · exact Only.of_pure _
    · exact Only.of_throw _
  · split
    · refine (only_echo hprint _).always.attemptBind fun _ => ?_
      exact (only_echo hprint _).always
    · exact Only.of_pure _

/-- Running a command calls one tool. -/
theorem Command.works_run (command : Command) :
    (command.run).Works [(· = command.toInvocation)] := by
  refine (Attempt.Works.call command.toInvocation).bind_isLocal fun output => ?_
  split
  · exact Only.of_pure _
  · exact Only.of_throw _

/-- Running a command as part of a stage calls one tool. -/
theorem StageContext.works_runCommand (context : StageContext) (command : Command) :
    (context.runCommand command).Works [(· = command.toInvocation)] := by
  rw [StageContext.runCommand]
  refine Attempt.Works.guarded (only_printLine isLocal_print _).always ?_
  dsimp only
  refine (command.works_run).bind_isLocal fun output => ?_
  split
  · refine (only_echo isLocal_print _).always.attemptBind fun _ => ?_
    exact (only_echo isLocal_print _).always
  · exact Only.of_pure _

namespace PasswordFile

theorem only_write (file : PasswordFile) : file.write.run.Only IsLocal :=
  ((only_attemptFile (isLocal_file _)).during _).attemptBind fun _ =>
    (only_attemptFile (isLocal_file _)).during _

theorem only_remove {kind : Request → Prop} {file : PasswordFile}
    (h : kind (.file (.removeFile file.path))) : file.remove.Only kind :=
  (Only.ask h).bind fun _ => Only.done _

theorem only_removeAll {kind : Request → Prop} {files : List PasswordFile}
    (h : ∀ file ∈ files, kind (.file (.removeFile file.path))) : (removeAll files).Only kind :=
  Only.forM files fun file hfile => only_remove (h file hfile)

/-- Password files make no difference to the calls of an attempt. -/
theorem works_guardingAfter {α : Type} {attempt : Attempt α} {agenda : List (Invocation → Prop)}
    (h : attempt.Works agenda) (reached files : List PasswordFile) :
    (guardingAfter attempt reached files).Works agenda := by
  have hremove (files : List PasswordFile) : (removeAll files).Only IsLocal :=
    only_removeAll fun _ _ => isLocal_file _
  induction files generalizing reached with
  | nil => exact h.followedBy (hremove _)
  | cons file rest ih =>
    exact Attempt.Works.bind_of_isLocal ((only_write file).undoneBy (hremove _)) fun _ => ih _

end PasswordFile

namespace Stage

theorem only_ensureExists {kind : Request → Prop} {path : Path}
    (h : kind (.file (.inspect path))) (what : String) :
    (ensureExists path what).run.Only kind := by
  refine (only_pathExists h).always.attemptBind fun found => ?_
  split
  · exact Only.done _
  · exact Only.fail _

/-- Making room for an output creates directories on its way, and removes what is there. -/
theorem only_prepareOutput_of_mem {kind : Request → Prop} {path : Path}
    (hinspect : ∀ path, kind (.file (.inspect path)))
    (hmake : ∀ parent, path.parent? = some parent →
      ∀ other ∈ parent.ancestors, other.isEmpty = false → kind (.file (.makeDirectory other)))
    (hremove : kind (.file (.removeFile path))) : (prepareOutput path).run.Only kind := by
  refine Only.attemptBind ?_ fun _ => ?_
  · cases hparent : path.parent? with
    | none => exact Only.of_pure _
    | some parent => exact (only_makeDirectories_of_mem hinspect (hmake parent hparent)).during _
  · refine (only_pathExists (hinspect path)).always.attemptBind fun found => ?_
    split
    · exact (only_attemptFile hremove).during _
    · exact Only.done _

theorem only_copyKey {kind : Request → Prop} {source directory : Path}
    (hcopy : ∀ name, source.fileName? = some name →
      kind (.file (.copy source (directory / name)))) : (copyKey source directory).run.Only kind := by
  rw [copyKey]
  split
  · exact Only.fail _
  · rename_i name hname
    refine ((only_attemptFile (hcopy name hname)).during _).attemptBind fun _ => ?_
    exact Only.done _

theorem only_copyMaterial {kind : Request → Prop} {directory : Path}
    (hcopy : ∀ source name, source.fileName? = some name →
      kind (.file (.copy source (directory / name)))) (material : SigningMaterial) :
    (copyMaterial directory material).run.Only kind := by
  cases material with
  | keystore path keyAlias storePassword keyPassword =>
    exact (only_copyKey (hcopy _)).attemptBind fun _ => Only.done _
  | keyPair key certificate =>
    refine (only_copyKey (hcopy _)).attemptBind fun _ => ?_
    exact (only_copyKey (hcopy _)).attemptBind fun _ => Only.done _

/-- Taking the lock creates directories on its way, and its file. -/
theorem only_takeKeyLock_of_mem {kind : Request → Prop} {path : Path}
    (hinspect : ∀ path, kind (.file (.inspect path)))
    (hmake : ∀ parent, path.parent? = some parent →
      ∀ other ∈ parent.ancestors, other.isEmpty = false → kind (.file (.makeDirectory other)))
    (hensure : kind (.file (.ensureFile path))) : (takeKeyLock path).run.Only kind := by
  have hlock : ((Attempt.file (.ensureFile path)).during (.creatingLock path)).run.Only kind :=
    (only_attemptFile hensure).during _
  rw [takeKeyLock]
  split
  · rename_i parent hparent
    refine Only.attemptBind ?_ fun _ => hlock
    exact only_makeDirectories_of_mem hinspect (hmake parent hparent)
  · exact hlock

theorem only_currentPackage {kind : Request → Prop}
    (hinspect : ∀ path, kind (.file (.inspect path))) (package : Option Path) :
    (currentPackage package).run.Only kind := by
  cases package with
  | some path => exact (only_ensureExists (hinspect path) _).attemptBind fun _ => Only.done _
  | none => exact Only.fail _

section Writeless

variable {kind : Request → Prop} (hfile : ∀ operation, operation.IsWriteless → kind (.file operation))

include hfile

theorem only_prepareOutput (path : Path) : (prepareOutput path).run.Only kind :=
  only_prepareOutput_of_mem (fun path => hfile (.inspect path) trivial)
    (fun _ _ other _ _ => hfile (.makeDirectory other) trivial) (hfile (.removeFile path) trivial)

theorem only_takeKeyLock (path : Path) : (takeKeyLock path).run.Only kind :=
  only_takeKeyLock_of_mem (fun path => hfile (.inspect path) trivial)
    (fun _ _ other _ _ => hfile (.makeDirectory other) trivial) (hfile (.ensureFile path) trivial)

end Writeless

theorem only_collectFiles {kind : Request → Prop} {root : Path}
    (hwalk : kind (.file (.walk root))) (extension : String) :
    (collectFiles root extension).run.Only kind :=
  (only_walkTree root hwalk).attemptBind fun _ => Only.done _

theorem ensures_currentPackage (package : Option Path) :
    (currentPackage package).Ensures fun input => package = some input := by
  cases package with
  | some path => exact Attempt.Ensures.bind fun _ => Attempt.Ensures.of_pure rfl
  | none => exact Attempt.Ensures.fail _

/-- A part that goes on with the package of the stages before calls the tools that it calls for this
package. -/
theorem works_currentPackage {α : Type} {package : Option Path} {f : Path → Attempt α}
    {described : Path → Invocation → Prop} (hf : ∀ input, (f input).Works [described input]) :
    (currentPackage package >>= f).Works (package.toList.map described) := by
  refine (Attempt.Works.of_isLocal (only_currentPackage (fun _ => isLocal_file _) package)).bindEnsures hf ⟨fun hends => ?_⟩
  rw [(ensures_currentPackage package).of_ends hends]
  rfl

variable (context : StageContext) (package : Option Path)

/-- The call of a stage, if it calls a tool. -/
def agenda : Stage → List (Invocation → Prop)
  | clean | packageResources => []
  | compileResources => [(· = (compileResourcesCommand context).toInvocation)]
  | linkResources => [(· = (linkResourcesCommand context).toInvocation)]
  | compileSources =>
    [fun invocation =>
      ∃ classpath, invocation = (compileSourcesCommand context classpath).toInvocation]
  | convertBytecode =>
    [fun invocation => ∃ rules, invocation = (convertBytecodeCommand context rules).toInvocation]
  | optimize =>
    package.toList.map fun input invocation =>
      invocation = (optimizeCommand context input).toInvocation
  | align =>
    package.toList.map fun input invocation => invocation = (alignCommand context input).toInvocation
  | sign =>
    package.toList.map fun input invocation =>
      ∃ use, invocation = (signCommand context use input).toInvocation

theorem only_removeIntermediates : (removeIntermediates context package).run.Only IsLocal := by
  refine (Only.attemptForM _ fun _ => only_removeDirectory (isLocal_file _) (isLocal_file _) _).attemptBind fun _ => ?_
  refine (Only.attemptForM _ fun path => ?_).attemptBind fun _ => ?_
  · refine (only_pathExists (isLocal_file _)).always.attemptBind fun found => ?_
    split
    · exact (only_attemptFile (isLocal_file _)).during _
    · exact Only.done _
  · refine (Only.attemptForM _ fun _ => only_createDirectory (fun _ => isLocal_file _)
      (fun _ => isLocal_file _) _).attemptBind fun _ => ?_
    exact Only.done _

theorem works_removeIntermediates :
    (removeIntermediates context package).Works (clean.agenda context package) :=
  .of_isLocal (only_removeIntermediates context package)

theorem works_runCompileResources :
    (runCompileResources context package).Works (compileResources.agenda context package) := by
  refine Attempt.Works.bind_of_isLocal (only_ensureExists (isLocal_file _) _) fun _ => ?_
  refine Attempt.Works.bind_of_isLocal (only_prepareOutput isLocal_writeless _) fun _ => ?_
  refine (context.works_runCommand _).bind_isLocal fun _ => ?_
  exact (only_ensureExists (isLocal_file _) _).attemptBind fun _ => Only.done _

theorem works_runLinkResources :
    (runLinkResources context package).Works (linkResources.agenda context package) := by
  rw [runLinkResources]
  refine Attempt.Works.bind_of_isLocal (only_ensureExists (isLocal_file _) _) fun _ => ?_
  refine Attempt.Works.bind_of_isLocal (only_ensureExists (isLocal_file _) _) fun _ => ?_
  refine Attempt.Works.bind_of_isLocal (only_ensureExists (isLocal_file _) _) fun _ => ?_
  refine Attempt.Works.bind_of_isLocal (only_prepareOutput isLocal_writeless _) fun _ => ?_
  refine (context.works_runCommand _).bind_isLocal fun _ => ?_
  refine (only_ensureExists (isLocal_file _) _).attemptBind fun _ => ?_
  refine (only_collectFiles (isLocal_file _) _).attemptBind fun generated => ?_
  refine Only.guarded (Only.fail _) ?_
  dsimp only
  split
  · refine (only_isFile (isLocal_file _)).always.attemptBind fun _ => ?_
    exact Only.done _
  · exact Only.done _

theorem only_collectSources (roots : List Path) : (collectSources roots).run.Only IsLocal := by
  induction roots with
  | nil => exact Only.done _
  | cons root rest ih =>
    refine (only_ensureExists (isLocal_file _) _).attemptBind fun _ => ?_
    refine (only_collectFiles (isLocal_file _) _).attemptBind fun sources => ?_
    exact ih.attemptBind fun _ => Only.done _

theorem works_runCompileSources :
    (runCompileSources context package).Works (compileSources.agenda context package) := by
  rw [runCompileSources]
  refine Attempt.Works.bind_of_isLocal (only_collectSources _) fun sources => ?_
  refine Attempt.Works.guarded (Only.fail _) ?_
  refine Attempt.Works.bind_of_isLocal (only_prepareOutput isLocal_writeless _) fun _ => ?_
  refine Attempt.Works.bind_of_isLocal ((only_attemptFile (isLocal_file _)).during _) fun _ => ?_
  split
  · exact Attempt.Works.of_fails ((Only.fail _).during _) ((Attempt.Ensures.fail _).during _)
  · refine Attempt.Works.bind_of_isLocal (only_createDirectory (fun _ => isLocal_file _)
      (fun _ => isLocal_file _) _) fun _ => ?_
    have hcall (classpath : String) :
        (context.runCommand (compileSourcesCommand context classpath)).Works
          (compileSources.agenda context package) :=
      (context.works_runCommand _).weaken fun _ h => ⟨classpath, h⟩
    refine (hcall _).bind_isLocal fun _ => ?_
    refine (only_collectFiles (isLocal_file _) _).attemptBind fun classes => ?_
    exact Only.guarded (Only.fail _) (Only.done _)

theorem only_bundleClasses (directory target : Path) :
    (bundleClasses directory target).run.Only IsLocal := by
  refine (only_prepareOutput isLocal_writeless _).attemptBind fun _ => ?_
  refine ((only_attemptFile (isLocal_file _)).during _).attemptBind fun _ => ?_
  exact Packing.only_writeTo (fun _ => isLocal_file _) _
    (Packing.only_addTree (fun _ => isLocal_file _) (fun _ => isLocal_file _) _ _ _)

theorem only_converterRules : (converterRules context).Only IsLocal := by
  rw [converterRules]
  split
  · exact (only_isFile (isLocal_file _)).bind fun _ => Only.done _
  · exact Only.done _

theorem works_runConvertBytecode :
    (runConvertBytecode context package).Works (convertBytecode.agenda context package) := by
  refine Attempt.Works.bind_of_isLocal (only_ensureExists (isLocal_file _) _) fun _ => ?_
  refine Attempt.Works.bind_of_isLocal (only_bundleClasses _ _).attemptDiscard fun _ => ?_
  refine Attempt.Works.bind_of_isLocal (only_removeDirectory (isLocal_file _) (isLocal_file _) _) fun _ => ?_
  refine Attempt.Works.bind_of_isLocal (only_createDirectory (fun _ => isLocal_file _)
    (fun _ => isLocal_file _) _) fun _ => ?_
  refine Attempt.Works.bind_of_isLocal (only_converterRules context).always fun rules => ?_
  have hcall : (context.runCommand (convertBytecodeCommand context rules)).Works
      (convertBytecode.agenda context package) :=
    (context.works_runCommand _).weaken fun _ h => ⟨rules, h⟩
  refine hcall.bind_isLocal fun _ => ?_
  refine (only_ensureExists (isLocal_file _) _).attemptBind fun _ => ?_
  exact (only_collectFiles (isLocal_file _) _).attemptBind fun _ => Only.done _

theorem only_packParts {kind : Request → Prop} (hread : ∀ path, kind (.file (.read path)))
    (hwalk : ∀ path, kind (.file (.walk path))) (config : BuildConfig) (bytecode : List Path) :
    (packParts config bytecode).Only kind := by
  have htree (root : Path) (front : String) (compression : Compression) :
      (discard (Packing.addTree root front compression)).Only kind :=
    (Packing.only_addTree hread hwalk _ _ _).bind fun _ => Packing.Only.of_pure _
  refine (Packing.Only.forM _ fun _ => Packing.only_addFile hread _ _ _).bind fun _ => ?_
  exact (Packing.Only.forM? _ fun _ => htree _ _ _).bind fun _ =>
    Packing.Only.forM? _ fun _ => htree _ _ _

theorem only_openArchive {kind : Request → Prop} {path : Path}
    (hread : kind (.file (.readToExtend path))) : (openArchive path).run.Only kind := by
  refine ((only_attemptFile hread).during _).attemptBind fun content => ?_
  split
  · exact Only.done _
  · exact (Only.fail _).during _

/-- Putting a package together makes room for it, and copies and writes it. -/
theorem only_runPackageResources {kind : Request → Prop}
    (hread : ∀ operation, operation.IsReading → kind (.file operation))
    (hprepare : (prepareOutput context.layout.unsignedPackage).run.Only kind)
    (hcopy : ∀ source, kind (.file (.copy source context.layout.unsignedPackage)))
    (hwrite : ∀ content, kind (.file (.write context.layout.unsignedPackage content))) :
    (runPackageResources context package).run.Only kind := by
  rw [runPackageResources]
  refine (only_ensureExists (hread (.inspect _) trivial) _).attemptBind fun _ => ?_
  refine (only_collectFiles (hread (.walk _) trivial) _).attemptBind fun bytecode => ?_
  refine Only.guarded (Only.fail _) ?_
  refine hprepare.attemptBind fun _ => ?_
  refine ((only_attemptFile (hcopy _)).during _).attemptBind fun _ => ?_
  refine (only_openArchive (hread (.readToExtend _) trivial)).attemptBind fun linked => ?_
  have hparts := only_packParts (fun path => hread (.read path) trivial)
    (fun path => hread (.walk path) trivial) context.config bytecode
  exact (Packing.only_writeTo hwrite _ hparts).attemptBind fun _ => Only.done _

theorem works_runPackageResources :
    (runPackageResources context package).Works (packageResources.agenda context package) :=
  .of_isLocal (only_runPackageResources context package (fun _ _ => isLocal_file _)
    (only_prepareOutput isLocal_writeless _) (fun _ => isLocal_file _) fun _ => isLocal_file _)

theorem works_repackage (output : Path) (what : String) (command : Path → Command) :
    (repackage context package output what command).Works
      (package.toList.map fun input invocation => invocation = (command input).toInvocation) := by
  refine works_currentPackage fun input => ?_
  refine Attempt.Works.bind_of_isLocal (only_prepareOutput isLocal_writeless _) fun _ => ?_
  refine (context.works_runCommand _).bind_isLocal fun _ => ?_
  exact (only_ensureExists (isLocal_file _) _).attemptBind fun _ => Only.done _

theorem works_runSign : (runSign context package).Works (sign.agenda context package) := by
  refine works_currentPackage fun input => ?_
  split
  · exact Attempt.Works.of_fails (Only.fail _) (Attempt.Ensures.fail _)
  · refine Attempt.Works.bind_of_isLocal (only_prepareOutput isLocal_writeless _) fun _ => ?_
    refine Attempt.Works.bind_of_isLocal (only_createDirectory (fun _ => isLocal_file _)
      (fun _ => isLocal_file _) _) fun _ => ?_
    refine Attempt.Works.bind_of_isLocal (only_takeKeyLock isLocal_writeless _) fun _ => ?_
    refine Attempt.Works.bind_of_isLocal (only_copyMaterial (fun _ _ _ => isLocal_file _) _) fun use => ?_
    have hcall : (context.runCommand (signCommand context use input)).Works
        [fun invocation => ∃ use, invocation = (signCommand context use input).toInvocation] :=
      (context.works_runCommand _).weaken fun _ h => ⟨use, h⟩
    refine (PasswordFile.works_guardingAfter hcall [] _).bind_isLocal fun _ => ?_
    exact (only_ensureExists (isLocal_file _) _).attemptBind fun _ => Only.done _

/-- A stage calls the tools of its agenda, and fails when a call fails. -/
theorem works_execute (stage : Stage) :
    (stage.execute context package).Works (stage.agenda context package) := by
  cases stage with
  | clean => exact works_removeIntermediates context package
  | compileResources => exact works_runCompileResources context package
  | linkResources => exact works_runLinkResources context package
  | compileSources => exact works_runCompileSources context package
  | convertBytecode => exact works_runConvertBytecode context package
  | packageResources => exact works_runPackageResources context package
  | optimize => exact works_repackage context package _ _ _
  | align => exact works_repackage context package _ _ _
  | sign => exact works_runSign context package

end Stage

end SketchApk
