import SketchApk.Proofs.Build.Stop
import SketchApk.Proofs.Project.Confinement
import SketchApk.Proofs.Stage.Confinement

/-!
# Where a build writes

The paths under which a project is prepared and a package is put together are derived from the name
of the application's package, which is not checked. Where dots are turned into slashes, a name that
begins with a dot or a slash makes an absolute path. As a file name, one that begins with a slash
makes an absolute path, and one with a part that leads upwards may leave the build path. For all
other names everything that the preparation changes lies in the directory of the build, or is on the
way of the configured build path, and everything that the last four stages change on their own lies
below the build path, or is the lock of the toolchain.

## Main definitions

* `Project.IsContained` : a project whose files can be generated below its root.
* `StageContext.IsContained` : a build whose packages lie below its build path.

## Main statements

* `Project.keepsIn_prepare_and_execute` : the operations of the preparation and of the stages write
  where they should.
* `Project.exists_escape` : the file that is written for a package name that begins with a slash.
-/

namespace SketchApk

open FileSystem

/-- A project without links whose root is the directory at a place, and the package of whose
application does not begin like an absolute path. -/
structure Project.IsContained (project : Project) (world : World) (files : FileSystem)
    (place : Location) : Prop where
  hasDirectory : files.HasDirectory world.place project.root place
  linkFree : files.LinkFree place
  wellNamed : files.WellNamed
  head?_ne {config : BuildConfig}
    (h : (project.loadConfig.run.run (world.answer false) files).1 = .ok config) :
    config.appPackage.toList.head? ≠ some '.' ∧ config.appPackage.toList.head? ≠ some '/'

/-- The package of the application, as a file name, stays below any directory. -/
structure StageContext.IsContained (context : StageContext) : Prop where
  head?_ne : context.config.appPackage.toList.head? ≠ some '/'
  not_mem : ".." ∉ (⟨context.config.appPackage ++ ".apk"⟩ : Path).names

/-- Nothing is written outside the directory of the build. Whatever an operation of the preparation
creates, overwrites or removes lies in the directory `build` of the project, unless it creates the
configured build path or a directory above it. Whatever an operation of the last four stages creates,
overwrites or removes lies below the build path, unless it creates the lock of the toolchain or a
directory on its way. There are no links below the build path before the stage calls a tool, nor
at the time of the operation. -/
theorem Project.keepsIn_prepare_and_execute (world : World) :
    (∀ (project : Project) (toolchain : Toolchain) (files middle : FileSystem) (place : Location)
      (before after : History) (operation : FileOperation)
      (answer : Except FileError operation.Value) (result : Except Fault BuildConfig),
      project.IsContained world files place →
      (project.prepare toolchain).run.Ends (before ++ ⟨.file operation, answer⟩ :: after) result →
      Evolves world.place files before middle →
        operation.KeepsIn (Region place (· = "build"))
          (project.MakesBuildPath toolchain
            (project.loadConfig.run.run (world.answer false) files).1) world.place middle) ∧
    ∀ (context : StageContext) (stage : Stage) (package : Option Path) (files middle : FileSystem)
      (place : Location) (before after : History) (operation : FileOperation)
      (answer : Except FileError operation.Value) (result : Except Fault StageOutput),
      context.IsContained → stage.IsPackaging →
      (stage.execute context package).run.Ends (before ++ ⟨.file operation, answer⟩ :: after)
        result →
      Evolves world.place files before middle →
      (before.calls = [] ∧ files.HasDirectory world.place context.config.buildPath place ∧
          files.LinkFree place ∨
        middle.HasDirectory world.place context.config.buildPath place ∧ middle.LinkFree place) →
        operation.KeepsIn (Region place (· ≠ ".")) context.toolchain.MakesKeyLock world.place
          middle := by
  refine ⟨fun project toolchain files middle place before after operation answer result hproject
    hends hfiles => ?_, fun context stage package files middle place before after operation answer
    result hcontext hstage hends hfiles hroot => ?_⟩
  · have hobeys := obeys_prepare hproject.hasDirectory hproject.linkFree hproject.wellNamed toolchain
      fun _ => hproject.head?_ne
    exact hobeys.rule_of_ends hends hfiles
  · exact Stage.keepsIn_of_ends (BuildLayout.isBelowRoot_of hcontext.head?_ne hcontext.not_mem)
      hstage hends hfiles hroot

/-! ### Examples -/

/-- The operation of a request on files. -/
def Request.operation? : Request → Option FileOperation
  | file operation => some operation
  | _ => none

/-- When a plan is carried out, the files evolve up to each of its operations. -/
theorem World.exists_evolves_of_operation {α : Type} (world : World) (stop : Bool)
    (plan : Plan α) (files : FileSystem) (index : Nat)
    (h : ((plan.history (world.answer stop) files)[index]?.bind (·.request.operation?)).isSome =
      true) :
    ∃ (after : History) (operation : FileOperation) (answer : Except FileError operation.Value)
      (middle : FileSystem),
      plan.Ends ((plan.history (world.answer stop) files).take index ++
        ⟨.file operation, answer⟩ :: after) (plan.run (world.answer stop) files).1 ∧
      Evolves world.place files ((plan.history (world.answer stop) files).take index) middle := by
  have hends := Plan.ends_run (world.answer stop) plan files
  have hevolves := world.evolves_history stop plan files
  generalize plan.history (world.answer stop) files = history at h hends hevolves ⊢
  obtain ⟨operation, hoperation⟩ := Option.isSome_iff_exists.mp h
  obtain ⟨⟨request, answer⟩, hentry, hrequest⟩ := Option.bind_eq_some_iff.mp hoperation
  cases request <;> cases hrequest
  obtain ⟨hindex, hget⟩ := List.getElem?_eq_some_iff.mp hentry
  rw [← List.take_append_drop index history] at hends hevolves
  obtain ⟨middle, hbefore, -⟩ := hevolves.exists_of_append
  rw [List.drop_eq_getElem_cons hindex, hget] at hends
  exact ⟨_, _, answer, middle, hends, hbefore⟩

/-- A build in the directory for builds of that project. -/
def projectContext : StageContext where
  config := { Builder.sampleConfig with buildPath := ⟨"/p/build"⟩, appPackage := "a.b" }
  toolchain := Builder.sampleBuilder.toolchain

theorem isContained_projectFiles :
    (Project.mk ⟨"/p"⟩).IsContained Builder.idleWorld (projectFiles "appPackage=a.b\n") ["p"] where
  hasDirectory := hasDirectory_projectFiles _
  linkFree := linkFree_projectFiles _ _
  wellNamed := wellNamed_projectFiles _
  head?_ne {config} h := by
    have hpackage : ((Project.mk ⟨"/p"⟩).loadConfig.run.run (Builder.idleWorld.answer false)
        (projectFiles "appPackage=a.b\n")).1.toOption.map (·.appPackage) = some "a.b" := by
      decide +kernel
    rw [h] at hpackage
    have hconfig : config.appPackage = "a.b" := Option.some.inj hpackage
    rw [hconfig]
    decide

/-- The preparation of a project ends with writing the activity, and aligning begins with creating a
directory. -/
theorem keepsIn_sample :
    (Project.mk ⟨"/p"⟩).IsContained Builder.idleWorld (projectFiles "appPackage=a.b\n") ["p"] ∧
      projectContext.IsContained ∧
      (∃ (before after : History) (operation : FileOperation)
        (answer : Except FileError operation.Value) (result : Except Fault BuildConfig)
        (middle : FileSystem),
        before.length = 18 ∧
        ((Project.mk ⟨"/p"⟩).prepare projectContext.toolchain).run.Ends
          (before ++ ⟨.file operation, answer⟩ :: after) result ∧
        Evolves [] (projectFiles "appPackage=a.b\n") before middle ∧
        operation.KeepsIn (Region ["p"] (· = "build"))
          ((Project.mk ⟨"/p"⟩).MakesBuildPath projectContext.toolchain
            ((Project.mk ⟨"/p"⟩).loadConfig.run.run (Builder.idleWorld.answer false)
              (projectFiles "appPackage=a.b\n")).1) [] middle) ∧
      ∃ (before after : History) (operation : FileOperation)
        (answer : Except FileError operation.Value) (result : Except Fault StageOutput)
        (middle : FileSystem),
        before.length = 1 ∧
        (Stage.align.execute projectContext (some ⟨"/p/build/old.apk"⟩)).run.Ends
          (before ++ ⟨.file operation, answer⟩ :: after) result ∧
        Evolves [] (projectFiles "appPackage=a.b\n") before middle ∧
        operation.KeepsIn (Region ["p", "build"] (· ≠ ".")) projectContext.toolchain.MakesKeyLock []
          middle := by
  have hcontext : projectContext.IsContained := ⟨by decide, by decide⟩
  obtain ⟨after, operation, answer, middle, hends, hevolves⟩ :=
    Builder.idleWorld.exists_evolves_of_operation false
      ((Project.mk ⟨"/p"⟩).prepare projectContext.toolchain).run
      (projectFiles "appPackage=a.b\n") 18 (by decide +kernel)
  obtain ⟨after', operation', answer', middle', hends', hevolves'⟩ :=
    Builder.idleWorld.exists_evolves_of_operation false
      (Stage.align.execute projectContext (some ⟨"/p/build/old.apk"⟩)).run
      (projectFiles "appPackage=a.b\n") 1 (by decide +kernel)
  have hkeeps := Project.keepsIn_prepare_and_execute Builder.idleWorld
  refine ⟨isContained_projectFiles, hcontext,
    ⟨_, after, operation, answer, _, middle, by decide +kernel, hends, hevolves, ?_⟩,
    _, after', operation', answer', _, middle', by decide +kernel, hends', hevolves', ?_⟩
  · exact hkeeps.1 _ _ _ _ _ _ _ _ _ _ isContained_projectFiles hends hevolves
  · refine hkeeps.2 _ _ _ _ _ _ _ _ _ _ _ hcontext
      (show Stage.align.IsPackaging from trivial) hends' hevolves' (.inl ⟨rfl, ?_, ?_⟩)
    · exact .of_find (show _ = Except.ok (_, Node.directory 0o755) from rfl)
    · exact linkFree_projectFiles _ _

/-- The preparation of a project with a package whose name begins with a slash creates a file that
is neither in the directory of the build nor on the way of the configured build path. -/
theorem Project.exists_escape :
    (projectFiles "appPackage=/q\n").HasDirectory [] ⟨"/p"⟩ ["p"] ∧
      (projectFiles "appPackage=/q\n").LinkFree ["p"] ∧
      (projectFiles "appPackage=/q\n").WellNamed ∧
      (((Project.mk ⟨"/p"⟩).prepare projectContext.toolchain).run.run
        (Builder.idleWorld.answer false) (projectFiles "appPackage=/q\n")).1.toOption.map
          (·.buildPath) = some ⟨"/p/build/output"⟩ ∧
      (projectFiles "appPackage=/q\n").get? ["q", "MainActivity.java"] = none ∧
      ((((Project.mk ⟨"/p"⟩).prepare projectContext.toolchain).run.run
        (Builder.idleWorld.answer false) (projectFiles "appPackage=/q\n")).2.get?
          ["q", "MainActivity.java"]).isSome = true ∧
      ¬Region ["p"] (· = "build") ["q", "MainActivity.java"] ∧
      ¬["q", "MainActivity.java"] <+: ["p", "build", "output"] := by
  refine ⟨hasDirectory_projectFiles _, linkFree_projectFiles _ _, wellNamed_projectFiles _,
    by decide +kernel, ?_, by decide +kernel, ?_, by decide⟩
  · rw [Option.eq_none_iff_forall_ne_some]
    intro node hnode
    have hplaces := (cases_of_get?_projectFiles hnode).1
    revert hplaces
    decide
  · rintro ⟨name, rest, -, hplace⟩
    exact absurd (List.cons.inj hplace).1 (by decide)

end SketchApk
