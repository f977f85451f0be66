import SketchApk.Proofs.Project.Sources
import SketchApk.Proofs.Project.Targets

/-!
# What a prepared project has

The configuration with which a preparation ends names the manifest, the directory of generated
sources and the runtime library, and all of them are there. The libraries and directories of sources
that were configured keep their order. The build path is created before the sources that were
generated before are removed, so it is lost when it leads through the directory of generated
sources. And this directory is put in front of the configured directories of sources only if it is
none of them.

## Main definitions

* `Project.Fits` : the configuration of a prepared project fits the files.

## Main statements

* `Project.fits_of_run_prepare` : every preparation that succeeds ends with such a configuration.
* `Project.exists_misfit` : a build path that is lost, and generated sources that do not come first.
-/

namespace SketchApk

namespace Project

open Plan

variable {project : Project} {toolchain : Toolchain} {world : World} {stop : Bool}
  {files last : FileSystem} {loaded config : BuildConfig}

/-- The configuration of a prepared project fits the files that are there in the end. What was there
before are some files and a configuration that has been loaded. -/
structure Fits (project : Project) (toolchain : Toolchain) (cwd : Location) (files : FileSystem)
    (loaded config : BuildConfig) (last : FileSystem) : Prop where
  /-- The manifest is a file. -/
  find_manifest : ∃ place mode content,
    last.find cwd config.manifestPath = .ok (place, .file mode content)
  /-- The generated sources are in a directory. -/
  find_generated : ∃ place mode,
    last.find cwd project.generatedDir = .ok (place, .directory mode)
  /-- This directory is one of the directories of sources. -/
  hasGenerated : ∃ path ∈ config.javaSources, path.isSame project.generatedDir = true
  /-- It is the first one, and it is there once, unless it has been configured. -/
  javaSources_eq (h : ∀ path ∈ loaded.javaSources, path.isSame project.generatedDir = false) :
    config.javaSources = project.generatedDir :: loaded.javaSources
  /-- The directories of sources that have been configured keep their order. -/
  suffix_javaSources : loaded.javaSources <:+ config.javaSources
  /-- The runtime library is one of the libraries if it is a file. -/
  hasRuntime {mode : Mode} (h : files.inspect cwd toolchain.runtimeJar = .ok ⟨.file, mode⟩) :
    ∃ path ∈ config.classpath, path.isSame toolchain.runtimeJar = true
  /-- The libraries that have been configured keep their order. -/
  prefix_classpath : loaded.classpath <+: config.classpath
  /-- The build path has been created as a directory, and it is one in the end, unless it leads
  through the sources that were generated before, which have been removed. -/
  hasBuildPath : ∃ made place, files.SameFiles made ∧
    made.HasDirectory cwd config.buildPath place ∧
    ((∀ gone node, made.resolve cwd .kept project.generatedDir = .ok (.existing gone node) →
      (made.eraseTree gone).HasDirectory cwd config.buildPath place) →
        last.HasDirectory cwd config.buildPath place)

/-! ### The configuration -/

theorem isEmpty_buildPath_withDefaults (toolchain : Toolchain) (config : BuildConfig) :
    (project.withDefaults toolchain config).buildPath.isEmpty = false := by
  change (if config.buildPath.isEmpty then _ else config.buildPath).isEmpty = false
  split
  · exact Path.isEmpty_div _ (by decide)
  · simpa using ‹¬config.buildPath.isEmpty = true›

/-- What becomes of the libraries, the directories of sources and the build path when a configuration
is completed. -/
theorem of_completion_eq {library entries : Bool} {completed : BuildConfig}
    (h : project.completion toolchain config library entries = completed) :
    completed.javaSources = config.javaSources ∧ completed.buildPath.isEmpty = false ∧
      completed.classpath = (if library then withRuntime toolchain config else config).classpath := by
  have hassets (linked : BuildConfig) :
      let assets : BuildConfig := if linked.assetsDir.isNone && entries then
        { linked with assetsDir := some project.dataDir } else linked
      assets.javaSources = linked.javaSources ∧ assets.buildPath = linked.buildPath ∧
        assets.classpath = linked.classpath := by
    dsimp only
    split_ifs <;> exact ⟨rfl, rfl, rfl⟩
  have hlinked : (withRuntime toolchain (project.withDefaults toolchain config)).javaSources =
        config.javaSources ∧
      (withRuntime toolchain (project.withDefaults toolchain config)).buildPath =
        (project.withDefaults toolchain config).buildPath ∧
      (withRuntime toolchain (project.withDefaults toolchain config)).classpath =
        (withRuntime toolchain config).classpath := by
    have hdefaults : (project.withDefaults toolchain config).classpath = config.classpath := rfl
    rw [withRuntime, withRuntime, hdefaults]
    split_ifs <;> exact ⟨rfl, rfl, rfl⟩
  obtain rfl := h
  cases library with
  | true =>
    obtain ⟨hjava, hbuild, hclasspath⟩ :=
      hassets (withRuntime toolchain (project.withDefaults toolchain config))
    refine ⟨hjava.trans hlinked.1, ?_, hclasspath.trans hlinked.2.2⟩
    exact (congrArg Path.isEmpty (hbuild.trans hlinked.2.1)).trans
      (isEmpty_buildPath_withDefaults toolchain config)
  | false =>
    obtain ⟨hjava, hbuild, hclasspath⟩ := hassets (project.withDefaults toolchain config)
    exact ⟨hjava, (congrArg Path.isEmpty hbuild).trans
      (isEmpty_buildPath_withDefaults toolchain config), hclasspath⟩

/-- The runtime library stands behind the others, unless it is among them. -/
theorem prefix_classpath_withRuntime (toolchain : Toolchain) (config : BuildConfig) :
    config.classpath <+: (withRuntime toolchain config).classpath ∧
      ∃ path ∈ (withRuntime toolchain config).classpath, path.isSame toolchain.runtimeJar = true := by
  rw [withRuntime]
  split
  · rename_i hsame
    obtain ⟨path, hmem, hpath⟩ := List.any_eq_true.mp hsame
    exact ⟨List.prefix_rfl, path, hmem, hpath⟩
  · refine ⟨List.prefix_append _ _, toolchain.runtimeJar, by simp, ?_⟩
    rw [Path.isSame, decide_eq_true_iff]

/-- The directory of generated sources stands in front of the others, unless it is among them. -/
theorem javaSources_withGenerated (config : BuildConfig) :
    (∃ path ∈ (project.withGenerated config).javaSources,
        path.isSame project.generatedDir = true) ∧
      config.javaSources <:+ (project.withGenerated config).javaSources ∧
      ((∀ path ∈ config.javaSources, path.isSame project.generatedDir = false) →
        (project.withGenerated config).javaSources =
          project.generatedDir :: config.javaSources) := by
  rw [withGenerated]
  split
  · rename_i hsame
    obtain ⟨path, hmem, hpath⟩ := List.any_eq_true.mp hsame
    refine ⟨⟨path, hmem, hpath⟩, List.suffix_rfl, fun hnone => ?_⟩
    cases hpath.symm.trans (hnone path hmem)
  · refine ⟨⟨project.generatedDir, List.mem_cons_self, ?_⟩, List.suffix_cons _ _, fun _ => rfl⟩
    rw [Path.isSame, decide_eq_true_iff]

/-! ### The files -/

/-- The build path is there when the generated sources have been removed, unless it leads through
them, and from then on it stays. -/
theorem Steps.hasBuildPath (steps : project.Steps toolchain world stop files)
    (hempty : steps.completed.buildPath.isEmpty = false) :
    ∃ made place, files.SameFiles made ∧
      made.HasDirectory world.place steps.completed.buildPath place ∧
      ((∀ gone node, made.resolve world.place .kept project.generatedDir =
          .ok (.existing gone node) →
        (made.eraseTree gone).HasDirectory world.place steps.completed.buildPath place) →
          steps.last.HasDirectory world.place steps.completed.buildPath place) := by
  obtain ⟨place, hplace⟩ :=
    exists_of_run_makeDirectories hempty (Attempt.of_run_during steps.run_buildPath)
  refine ⟨steps.made, place, steps.sameFiles_made, hplace, fun hkept => ?_⟩
  obtain ⟨hgenerated, hlast⟩ := steps.extends_described
  have hcleared : steps.cleared.HasDirectory world.place steps.completed.buildPath place := by
    rcases cases_of_run_removeDirectory steps.run_remove with
      ⟨-, hsame⟩ | ⟨gone, node, hresolve, hgone⟩
    · rwa [hsame]
    · rw [hgone]
      exact hkept gone node hresolve
  exact ((hcleared.extends (extends_of_run_writeTextFile steps.run_manifest)).extends
    hgenerated).extends hlast

/-- Whatever a preparation answers with fits the files that it leaves. -/
theorem fits_of_run_prepare (hwell : files.WellNamed)
    (h : (project.prepare toolchain).run.run (world.answer stop) files = (.ok config, last)) :
    ∃ loaded, project.loadConfig.run.run (world.answer stop) files = (.ok loaded, files) ∧
      project.Fits toolchain world.place files loaded config last := by
  obtain ⟨steps, rfl, rfl⟩ := exists_steps_of_run_prepare h
  obtain ⟨hextends, hextends'⟩ := steps.extends_described
  have hcompleted := steps.run_complete
  rw [run_complete] at hcompleted
  obtain ⟨hjava, hempty, hclasspath⟩ := of_completion_eq (Prod.mk.inj hcompleted).1
  obtain ⟨hgenerated, hsuffix, hfirst⟩ := project.javaSources_withGenerated
    { steps.completed with manifestPath := project.manifestPath }
  obtain ⟨hconfigPath, hconfigBuild, hconfigClasspath⟩ :
      steps.config.manifestPath = project.manifestPath ∧
        steps.config.buildPath = steps.completed.buildPath ∧
        steps.config.classpath = steps.completed.classpath := by
    rw [Steps.config, withGenerated]
    split_ifs <;> exact ⟨rfl, rfl, rfl⟩
  refine ⟨steps.loaded, steps.run_loadConfig, ?_, ?_, hgenerated, fun hnone => ?_, ?_,
    fun hruntime => ?_, ?_, ?_⟩
  · obtain ⟨-, target, mode, -, -, -, hfind⟩ := exists_of_run_writeTextFile steps.run_manifest
    obtain ⟨bits, content, hfind⟩ := (hextends.trans hextends').find_file hfind
    rw [hconfigPath]
    exact ⟨target.place, bits, content, hfind⟩
  · obtain ⟨place, mode, hfind⟩ := steps.exists_generatedDir hwell
    exact ⟨place, mode, hextends'.find_directory hfind⟩
  · exact hjava ▸ hfirst (hjava ▸ hnone)
  · exact hjava ▸ hsuffix
  · rw [hconfigClasspath, hclasspath, hruntime]
    exact (prefix_classpath_withRuntime toolchain steps.loaded).2
  · rw [hconfigClasspath, hclasspath]
    split
    · exact (prefix_classpath_withRuntime toolchain steps.loaded).1
    · exact List.prefix_rfl
  · rw [hconfigBuild]
    exact steps.hasBuildPath hempty

/-- A project with a build path and a directory of sources of its own is prepared. -/
theorem fits_sample :
    ∃ loaded config last,
      samplePreparation (projectFiles "buildPath=out\njavaSources=lib\n") = (.ok config, last) ∧
      (Project.mk ⟨"/p"⟩).Fits Builder.sampleBuilder.toolchain []
        (projectFiles "buildPath=out\njavaSources=lib\n") loaded config last := by
  have hok : (samplePreparation (projectFiles "buildPath=out\njavaSources=lib\n")).1.toBool = true := by
    decide +kernel
  rcases hrun : samplePreparation (projectFiles "buildPath=out\njavaSources=lib\n") with
    ⟨fault | config, last⟩
  · rw [hrun] at hok
    cases hok
  · obtain ⟨loaded, -, hfits⟩ := fits_of_run_prepare (wellNamed_projectFiles _) hrun
    exact ⟨loaded, config, last, rfl, hfits⟩

/-- A project whose directories of sources and build path have been configured to be among what is
generated. -/
def misfitFiles : FileSystem :=
  projectFiles "buildPath=build/src/out\njavaSources=lib,build/src\n"

/-- Generated sources that have been configured keep their place behind another directory, and a
build path among them is lost although the preparation succeeds. -/
theorem exists_misfit :
    ∃ config last, samplePreparation misfitFiles = (.ok config, last) ∧
      (Project.mk ⟨"/p"⟩).generatedDir = ⟨"/p/build/src"⟩ ∧
      config.javaSources = [⟨"/p/lib"⟩, ⟨"/p/build/src"⟩] ∧
      config.buildPath = ⟨"/p/build/src/out"⟩ ∧
      (last.find [] config.buildPath).toBool = false := by
  have hall : (samplePreparation misfitFiles).1.toOption.any (fun config =>
      config.javaSources = [⟨"/p/lib"⟩, ⟨"/p/build/src"⟩] ∧
        config.buildPath = ⟨"/p/build/src/out"⟩ ∧
        ((samplePreparation misfitFiles).2.find [] config.buildPath).toBool = false) = true := by
    decide +kernel
  rcases hrun : samplePreparation misfitFiles with ⟨fault | config, last⟩
  · rw [hrun] at hall
    cases hall
  · rw [hrun] at hall
    obtain ⟨hjava, hbuild, hlost⟩ := of_decide_eq_true hall
    exact ⟨config, last, rfl, by decide, hjava, hbuild, hlost⟩

end Project

end SketchApk
