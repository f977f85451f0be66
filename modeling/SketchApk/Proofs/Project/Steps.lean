import SketchApk.Proofs.File.Way
import SketchApk.Proofs.Plan.Directories
import SketchApk.Proofs.Project.Confinement

/-!
# The steps of a preparation

A preparation that succeeds has loaded and completed the configuration without changing any file,
created the directories of the build, removed the sources that were generated before, written the
manifest, generated the sources and written the activity, one after the other.

## Main definitions

* `Project.Steps` : the configurations and files between the steps of a preparation.

## Main statements

* `Project.run_complete` : the completed configuration.
* `Project.exists_steps_of_run_prepare` : a preparation that succeeds consists of its steps.
* `Project.cases_of_run_generateSources` : sources that are generated come from a walk.
-/

namespace SketchApk

namespace Plan

variable {world : World} {stop : Bool} {files last : FileSystem}

theorem extends_of_run_writeTextFile {path : Path} {text : String} {result : Except Fault Unit}
    (h : (writeTextFile path text).run.run (world.answer stop) files = (result, last)) :
    files.Extends last :=
  (only_writeTextFile (fun _ => trivial) (fun _ _ _ _ _ => trivial) trivial).extends h

theorem sameLinks_of_run_writeTextFile {path : Path} {text : String} {result : Except Fault Unit}
    (h : (writeTextFile path text).run.run (world.answer stop) files = (result, last)) :
    files.SameLinks last :=
  (only_writeTextFile (fun _ => trivial) (fun _ _ _ _ _ => trivial) trivial).sameLinks h

theorem run_hasEntries (path : Path) :
    (hasEntries path).run (world.answer stop) files =
      ((files.list world.place path).toOption.any (!·.isEmpty), files) := by
  rw [hasEntries, bind_eq, run_bind, run_ask_file, FileOperation.run]
  cases files.list world.place path <;> rfl

end Plan

namespace Attempt

variable {α β : Type} {world : World} {stop : Bool} {files last : FileSystem} {f : α → Attempt β}
  {front back : List α} {entry : α} {values : List β}

/-- The first of several attempts in a row comes before the others. -/
theorem exists_of_run_mapM_cons
    (h : ((entry :: back).mapM f).run.run (world.answer stop) files = (.ok values, last)) :
    ∃ value between others, (f entry).run.run (world.answer stop) files = (.ok value, between) ∧
      (back.mapM f).run.run (world.answer stop) between = (.ok others, last) ∧
      values = value :: others := by
  rw [List.mapM_cons] at h
  obtain ⟨value, between, hentry, hback⟩ := exists_of_run_bind h
  obtain ⟨others, last, hothers, hpure⟩ := exists_of_run_bind hback
  obtain ⟨hvalues, rfl⟩ := Prod.mk.inj hpure
  exact ⟨value, between, others, hentry, hothers, (Except.ok.inj hvalues).symm⟩

/-- One of several attempts in a row comes behind some and before the others. -/
theorem exists_of_run_mapM_append
    (h : ((front ++ entry :: back).mapM f).run.run (world.answer stop) files = (.ok values, last)) :
    ∃ before between firsts value others,
      (front.mapM f).run.run (world.answer stop) files = (.ok firsts, before) ∧
      (f entry).run.run (world.answer stop) before = (.ok value, between) ∧
      (back.mapM f).run.run (world.answer stop) between = (.ok others, last) := by
  rw [List.mapM_append] at h
  obtain ⟨firsts, before, hfront, hbehind⟩ := exists_of_run_bind h
  obtain ⟨rest, later, hrest, hpure⟩ := exists_of_run_bind hbehind
  obtain ⟨-, rfl⟩ := Prod.mk.inj hpure
  obtain ⟨value, between, others, hentry, hothers, -⟩ := exists_of_run_mapM_cons hrest
  exact ⟨before, between, firsts, value, others, hfront, hentry, hothers⟩

end Attempt

namespace Project

open Plan

variable {project : Project} {toolchain : Toolchain} {world : World} {stop : Bool}
  {files last : FileSystem}

/-- The completed configuration, by whether the runtime library has been found and whether there are
any data. -/
def completion (project : Project) (toolchain : Toolchain) (config : BuildConfig)
    (library entries : Bool) : BuildConfig :=
  let defaulted := project.withDefaults toolchain config
  let linked := if library then withRuntime toolchain defaulted else defaulted
  if linked.assetsDir.isNone && entries then
    { linked with assetsDir := some project.dataDir }
  else linked

/-- The configuration is completed without changing any file. -/
theorem run_complete (config : BuildConfig) :
    (project.complete toolchain config).run (world.answer stop) files =
      (project.completion toolchain config
        ((files.inspect world.place toolchain.runtimeJar).toOption.any (·.kind = .file))
        ((files.list world.place project.dataDir).toOption.any (!·.isEmpty)), files) := by
  rw [complete, bind_eq, run_bind, run_isFile]
  change ((hasEntries project.dataDir).bind _).run (world.answer stop) files = _
  rw [run_bind, run_hasEntries, completion]
  generalize (files.inspect world.place toolchain.runtimeJar).toOption.any _ = library
  generalize (files.list world.place project.dataDir).toOption.any _ = entries
  dsimp only
  generalize (if library = true then withRuntime toolchain (project.withDefaults toolchain config)
    else project.withDefaults toolchain config) = linked
  cases linked.assetsDir.isNone && entries <;> rfl

/-- The configurations and files between the steps of a preparation that has succeeded. -/
structure Steps (project : Project) (toolchain : Toolchain) (world : World) (stop : Bool)
    (files : FileSystem) where
  loaded : BuildConfig
  completed : BuildConfig
  /-- With the directory of the build. -/
  first : FileSystem
  /-- With both directories. -/
  made : FileSystem
  /-- Without the sources that were generated before. -/
  cleared : FileSystem
  /-- With the manifest. -/
  described : FileSystem
  /-- With the generated sources. -/
  generated : FileSystem
  /-- With the activity. -/
  last : FileSystem
  classNames : List String
  className : String
  run_loadConfig : project.loadConfig.run.run (world.answer stop) files = (.ok loaded, files)
  run_complete : (project.complete toolchain loaded).run (world.answer stop) files =
    (completed, files)
  run_buildDir : (createDirectory project.buildDir).run.run (world.answer stop) files =
    (.ok (), first)
  run_buildPath : (createDirectory completed.buildPath).run.run (world.answer stop) first =
    (.ok (), made)
  run_remove : (removeDirectory project.generatedDir (.removing project.generatedDir)).run.run
    (world.answer stop) made = (.ok (), cleared)
  run_manifest : (writeTextFile project.manifestPath (Template.manifest completed)).run.run
    (world.answer stop) cleared = (.ok (), described)
  run_sources : (project.generateSources completed.appPackage).run.run (world.answer stop)
    described = (.ok classNames, generated)
  choose : chooseSketch classNames = some className
  run_activity : (writeTextFile (project.activityPath completed.appPackage)
    (Template.activity completed.appPackage className)).run.run (world.answer stop) generated =
      (.ok (), last)

/-- The configuration that a preparation answers with. -/
def Steps.config (steps : project.Steps toolchain world stop files) : BuildConfig :=
  project.withGenerated { steps.completed with manifestPath := project.manifestPath }

/-- The files from which the sources are generated have proper names. -/
theorem Steps.wellNamed_described (steps : project.Steps toolchain world stop files)
    (hwell : files.WellNamed) : steps.described.WellNamed := by
  have hmake (path : Path) : (createDirectory path).run.Only Request.IsStatic :=
    only_createDirectory (fun _ => trivial) (fun _ => trivial) path
  have hremove : (removeDirectory project.generatedDir
      (.removing project.generatedDir)).run.Only Request.IsStatic :=
    only_removeDirectory trivial trivial _
  have hwrite : (writeTextFile project.manifestPath
      (Template.manifest steps.completed)).run.Only Request.IsStatic :=
    only_writeTextFile (fun _ => trivial) (fun _ _ _ _ _ => trivial) trivial
  have hmade : steps.made.WellNamed :=
    (hmake _).wellNamed ((hmake _).wellNamed hwell steps.run_buildDir) steps.run_buildPath
  exact hwrite.wellNamed (hremove.wellNamed hmade steps.run_remove) steps.run_manifest

/-- Creating the directories changes no file. -/
theorem Steps.sameFiles_made (steps : project.Steps toolchain world stop files) :
    files.SameFiles steps.made :=
  (sameFiles_of_run_createDirectory steps.run_buildDir).trans
    (sameFiles_of_run_createDirectory steps.run_buildPath)

/-- A preparation that succeeds consists of its steps. -/
theorem exists_steps_of_run_prepare {config : BuildConfig}
    (h : (project.prepare toolchain).run.run (world.answer stop) files = (.ok config, last)) :
    ∃ steps : project.Steps toolchain world stop files,
      steps.config = config ∧ steps.last = last := by
  rw [prepare_eq] at h
  obtain ⟨loaded, start, hload, hloaded⟩ := Attempt.exists_of_run_bind h
  have hstart : start = files := by
    have hfiles : (project.loadConfig.run.run (world.answer stop) files).2 = files :=
      (project.only_loadConfig fun _ => trivial).run_snd_of_isReading files
    rwa [hload] at hfiles
  subst start
  obtain ⟨completed, start, hcomplete, hcompleted⟩ := Attempt.exists_of_run_bind hloaded
  have hrun := Attempt.of_run_always hcomplete
  obtain rfl : files = start := by
    rw [run_complete] at hrun
    exact (Prod.mk.inj hrun).2
  obtain ⟨_, first, hbuildDir, hfirst⟩ := Attempt.exists_of_run_bind hcompleted
  obtain ⟨_, made, hbuildPath, hmade⟩ := Attempt.exists_of_run_bind hfirst
  obtain ⟨_, cleared, hremove, hcleared⟩ := Attempt.exists_of_run_bind hmade
  obtain ⟨_, described, hmanifest, hdescribed⟩ := Attempt.exists_of_run_bind hcleared
  obtain ⟨classNames, generated, hsources, hgenerated⟩ := Attempt.exists_of_run_bind hdescribed
  split at hgenerated
  · cases (Prod.mk.inj hgenerated).1
  · rename_i className hchoose
    obtain ⟨_, shown, hactivity, hpure⟩ := Attempt.exists_of_run_bind hgenerated
    obtain ⟨hconfig, rfl⟩ := Prod.mk.inj hpure
    refine ⟨⟨loaded, completed, first, made, cleared, described, generated, shown, classNames,
      className, hload, hrun, hbuildDir, hbuildPath, hremove, hmanifest, hsources, hchoose,
      hactivity⟩, ?_, rfl⟩
    exact Except.ok.inj hconfig

/-! ### Generating the sources -/

/-- Sources are generated from the files that a walk comes across, unless there is no directory of
sources. -/
theorem cases_of_run_generateSources {appPackage : String} {classNames : List String}
    (h : (project.generateSources appPackage).run.run (world.answer stop) files =
      (.ok classNames, last)) :
    classNames = [] ∨ ∃ place mode found values,
      files.find world.place project.sourceDir = .ok (place, .directory mode) ∧
      files.walk world.place project.sourceDir = .ok found ∧ found.halt = none ∧
      (found.files.mapM (project.generateSource appPackage)).run.run (world.answer stop) files =
        (.ok values, last) ∧ classNames = values.filterMap id := by
  rw [generateSources, Attempt.run_bind_ok (Attempt.run_always (run_isDirectory _))] at h
  split at h
  · obtain ⟨place, mode, hfind⟩ := FileSystem.exists_of_isDirectory ‹_›
    obtain ⟨found, between, hwalking, hbehind⟩ := Attempt.exists_of_run_bind h
    obtain ⟨rfl, hfound⟩ := of_run_walk (Attempt.of_run_always hwalking)
    obtain ⟨values, later, hgenerate, hlast⟩ := Attempt.exists_of_run_bind hbehind
    obtain ⟨_, between, hthroughout, hpure⟩ := Attempt.exists_of_run_bind hlast
    obtain ⟨hvalue, rfl⟩ := Prod.mk.inj hpure
    obtain ⟨hhalt, rfl⟩ := of_run_throughout hthroughout
    exact .inr ⟨place, mode, found, values, hfind, hfound.resolve_right fun h => h.2 hhalt, hhalt,
      hgenerate, (Except.ok.inj hvalue).symm⟩
  · exact .inl (Except.ok.inj (Prod.mk.inj h).1).symm

/-- What generating a source may do leaves more files. -/
theorem only_adds_generateSource (appPackage : String) (names : List String) :
    (project.generateSource appPackage names).run.Only Request.Adds :=
  project.only_generateSource_of (fun _ => trivial)
    (fun _ => only_writeTextFile (fun _ => trivial) (fun _ _ _ _ _ => trivial) trivial)
    (fun parent _ => only_makeDirectories (fun _ => trivial) (fun _ => trivial) parent) trivial _

theorem extends_of_run_mapM_generateSource {appPackage : String} {sources : List (List String)}
    {result : Except Fault (List (Option String))}
    (h : (sources.mapM (project.generateSource appPackage)).run.run (world.answer stop) files =
      (result, last)) : files.Extends last :=
  (Only.attemptMapM sources fun names _ =>
    project.only_adds_generateSource appPackage names).extends h

theorem sameLinks_of_run_mapM_generateSource {appPackage : String} {sources : List (List String)}
    {result : Except Fault (List (Option String))}
    (h : (sources.mapM (project.generateSource appPackage)).run.run (world.answer stop) files =
      (result, last)) : files.SameLinks last :=
  (Only.attemptMapM sources fun names _ =>
    project.only_adds_generateSource appPackage names).sameLinks h

end Project

end SketchApk
