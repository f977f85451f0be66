import SketchApk.Proofs.Project.Sources
import SketchApk.Proofs.Project.Targets
import SketchApk.Proofs.Project.Template
import SketchApk.Proofs.Sketch.Package

/-!
# The package of the launcher

The activity of an application creates an instance of one of the sketches, without naming a package.
The activity belongs to the package of the application. The sketch belongs to it too if the sketch
declares no package, because then its unit is given this package. A sketch that declares another
package keeps it, and the activity cannot see the sketch.

## Main definitions

* `Project.Launches` : a prepared project, with the sketch that its activity shows.

## Main statements

* `Project.launches_of_run_prepare` : the packages of the activity and of the sketch.
* `Project.exists_unseen` : a sketch in a package of its own.
-/

namespace SketchApk.Project

open Plan Sketch

variable {project : Project} {toolchain : Toolchain} {world : World} {stop : Bool}
  {place : Location} {files last : FileSystem} {config : BuildConfig}

/-- The activity of a prepared project shows a sketch. Some files have become others in which the
sources have been generated, and then the last ones. The directory of the build is at a place. -/
structure Launches (project : Project) (appPackage : String) (cwd place : Location)
    (files described last : FileSystem) (source : Location) (found : FileWalk) (className : String) :
    Prop where
  /-- The sources are what they were, but for the manifest and what had been generated. -/
  contentAt_described : ∃ manifest mode content,
    described.find cwd project.manifestPath = .ok (manifest, .file mode content) ∧
    ∀ there, there ≠ manifest → ¬place ++ ["src"] <+: there →
      described.contentAt there = files.contentAt there
  find_source : ∃ mode, described.find cwd project.sourceDir = .ok (source, .directory mode)
  walk : described.walk cwd project.sourceDir = .ok found
  /-- The sketch is called `main`, or it is the first one that is found. -/
  choose : chooseSketch (found.files.filterMap sketchClass?) = some className
  /-- The activity creates an instance of the sketch. -/
  activity_eq (h : ¬"%sketch%".toList <:+: appPackage.toList) : ∃ middle back,
    Template.activity appPackage className = "package " ++ appPackage ++ ";\n" ++ middle ++
      "sketch = new " ++ className ++ "();\n" ++ back
  /-- The packages of the activity and of the sketch are the same if the sketch declares no package
  or first that of the activity. They are the same as well if the sketch has the target of the
  activity and is replaced by it. -/
  declaredPackage?_eq_iff : ∃ launcher mode, last.find cwd (project.activityPath appPackage) =
      .ok (launcher, .file mode (.ofText (Template.activity appPackage className))) ∧
    ∀ names ∈ found.files, sketchClass? names = some className →
      ∃ content text target there bits unit,
        described.contentAt (source ++ names) = some content ∧ content.text? = some text ∧
        generatedNames? names = some target ∧
        last.find cwd (project.generatedDir.descend target) =
          .ok (there, .file bits (.ofText unit)) ∧
        (there ≠ launcher → unit = unitOf appPackage ⟨text, className⟩) ∧
        (¬"%sketch%".toList <:+: appPackage.toList →
          (declaredPackage? unit.toList =
              declaredPackage? (Template.activity appPackage className).toList ↔
            there = launcher ∨ ownPackage? text = none ∨
              ownPackage? text =
                declaredPackage? (Template.activity appPackage className).toList))

/-- The activity belongs to the package of the application. -/
theorem declaredPackage?_activity {appPackage : String}
    (h : ¬"%sketch%".toList <:+: appPackage.toList) (className : String) :
    declaredPackage? (Template.activity appPackage className).toList =
      declaredPackage? ("package " ++ appPackage).toList := by
  obtain ⟨middle, back, hactivity⟩ := Template.exists_activity h className
  have hline : ";\n" = ";" ++ "\n" := by decide
  have hsemicolon : ";".toList = [';'] := by decide
  rw [hactivity, hline]
  simp only [String.toList_append, List.append_assoc, hsemicolon]
  rw [← List.append_assoc]
  exact declaredPackage?_append _ _

/-- The sources from which a project is generated are those that it had, but for the manifest and
what was generated before. -/
theorem Steps.contentAt_described (steps : project.Steps toolchain world stop files)
    (hbase : steps.made.HasDirectory world.place project.buildDir place) :
    ∃ manifest mode content,
      steps.described.find world.place project.manifestPath = .ok (manifest, .file mode content) ∧
      ∀ there, there ≠ manifest → ¬place ++ ["src"] <+: there →
        steps.described.contentAt there = files.contentAt there := by
  obtain ⟨between, target, mode, hsame, -, hput, hfind⟩ :=
    exists_of_run_writeTextFile steps.run_manifest
  refine ⟨target.place, mode, _, hfind, fun there hne hnot => ?_⟩
  have hcleared : steps.cleared.contentAt there = steps.made.contentAt there := by
    rcases cases_of_run_removeDirectory steps.run_remove with
      ⟨-, hkept⟩ | ⟨gone, node, hresolve, hgone⟩
    · rw [hkept]
    · obtain rfl : gone = place ++ ["src"] := hbase.place_of_resolve_kept (by decide) hresolve
      rw [hgone]
      refine FileSystem.contentAt_congr (FileSystem.get?_eraseTree_of_not_below ?_)
      rw [Bool.eq_false_iff, ne_eq, List.isPrefixOf_iff_prefix]
      exact hnot
  rw [hput, FileSystem.contentAt_put, if_neg (Ne.symm hne), hsame.contentAt_eq, hcleared,
    steps.sameFiles_made.contentAt_eq]

/-- The activity of a prepared project and the unit of the sketch that it shows belong to the same
package if the sketch declares no package, or first that of the application. -/
theorem launches_of_run_prepare (htree : files.IsTree) (hwell : files.WellNamed)
    (h : (project.prepare toolchain).run.run (world.answer stop) files = (.ok config, last)) :
    ∃ made place, files.SameFiles made ∧
      made.HasDirectory world.place project.buildDir place ∧
      (last.HasDirectory world.place project.buildDir place →
        ∃ described source found className, project.Launches config.appPackage world.place place
          files described last source found className) := by
  obtain ⟨steps, rfl, rfl⟩ := exists_steps_of_run_prepare h
  obtain ⟨first, hfirst⟩ :=
    exists_of_run_makeDirectories (Path.isEmpty_div _ (by decide) : project.buildDir.isEmpty = false)
      (Attempt.of_run_during steps.run_buildDir)
  have hmade := sameFiles_of_run_createDirectory steps.run_buildPath
  have hbase := hfirst.keeps hmade.keeps
  refine ⟨steps.made, first, (sameFiles_of_run_createDirectory steps.run_buildDir).trans hmade, hbase,
    fun hlast => ?_⟩
  obtain ⟨source, mode, found, values, hfind, hwalk, -, hfiles, hgenerate, hclasses, -⟩ :=
    steps.exists_walk hwell
  obtain ⟨between, launcher, bits, hsame, -, hput, hlauncher⟩ :=
    exists_of_run_writeTextFile steps.run_activity
  refine ⟨steps.described, source, found, steps.className, steps.contentAt_described hbase,
    ⟨mode, hfind⟩, hwalk, hclasses ▸ steps.choose, fun hplain => Template.exists_activity hplain _, ?_⟩
  rw [steps.appPackage_config]
  refine ⟨launcher.place, bits, hlauncher, fun names hmem hclass => ?_⟩
  obtain ⟨content, text, target, bits', hcontent, htext, htarget, hunit⟩ :=
    steps.exists_of_sketchClass? hbase htree hwell hlast hfind hwalk hfiles hgenerate hmem hclass
  obtain ⟨mode', written, hfound⟩ := steps.extends_described.2.find_file hunit
  have hwritten := FileSystem.contentAt_eq_some_iff.mpr ⟨mode', FileSystem.get?_of_find hfound⟩
  rw [hput, FileSystem.contentAt_put, hsame.contentAt_eq,
    FileSystem.contentAt_eq_some_iff.mpr ⟨bits', FileSystem.get?_of_find hunit⟩] at hwritten
  split at hwritten
  · -- The sketch has the target of the activity, which has been written last.
    rename_i hreplaced
    obtain rfl := Option.some.inj hwritten
    exact ⟨content, text, target, _, mode', _, hcontent, htext, htarget, hfound,
      fun hne => absurd hreplaced.symm hne, fun _ => iff_of_true rfl (.inl hreplaced.symm)⟩
  · rename_i hapart
    obtain rfl := Option.some.inj hwritten
    refine ⟨content, text, target, _, mode', _, hcontent, htext, htarget, hfound, fun _ => rfl,
      fun hplain => ?_⟩
    rw [declaredPackage?_unitOf, declaredPackage?_activity hplain]
    cases ownPackage? text with
    | none => simp
    | some name => simp [Ne.symm hapart]

/-- A project with one sketch that declares no package is prepared, and its activity sees the
sketch. -/
theorem launches_sample :
    ∃ config last described source found className,
      samplePreparation (projectFiles "appPackage=a.b\n") = (.ok config, last) ∧
      (Project.mk ⟨"/p"⟩).Launches config.appPackage [] ["p", "build"]
        (projectFiles "appPackage=a.b\n") described last source found className := by
  have hok : (samplePreparation (projectFiles "appPackage=a.b\n")).1.toBool = true := by
    decide +kernel
  have hkept : ((samplePreparation (projectFiles "appPackage=a.b\n")).2.inspect []
        (Project.mk ⟨"/p"⟩).buildDir).toOption.any (·.kind = .directory) = true ∧
      ((samplePreparation (projectFiles "appPackage=a.b\n")).2.find []
        (Project.mk ⟨"/p"⟩).buildDir).toOption.map Prod.fst = some ["p", "build"] := by
    decide +kernel
  rcases hrun : samplePreparation (projectFiles "appPackage=a.b\n") with ⟨fault | config, last⟩
  · rw [hrun] at hok
    cases hok
  · obtain ⟨made, place, hsame, hmade, hlaunches⟩ := launches_of_run_prepare
      (isTree_projectFiles _) (wellNamed_projectFiles _) hrun
    have hbuild : (projectFiles "appPackage=a.b\n").HasDirectory [] (Project.mk ⟨"/p"⟩).buildDir
        ["p", "build"] :=
      .of_find (show _ = Except.ok (_, Node.directory 0o755) from rfl)
    obtain rfl : place = ["p", "build"] :=
      (hbuild.keeps hsame.keeps).eq_of_sameLinks (.refl made) hmade
    rw [hrun] at hkept
    obtain ⟨there, mode, hfind⟩ := FileSystem.exists_of_isDirectory hkept.1
    obtain rfl : there = ["p", "build"] := by simpa [hfind, Except.toOption] using hkept.2
    obtain ⟨described, source, found, className, hall⟩ := hlaunches (.of_find hfind)
    exact ⟨config, last, described, source, found, className, rfl, hall⟩

/-- A project whose sketch declares a package of its own. -/
def strangerFiles : FileSystem :=
  (projectFiles "appPackage=a.b\n").put ["p", "src", "main.pde"]
    (.file 0o644 (.ofText "package c.d;\n"))

/-- The only sketch of that project is in another package than the activity, although the preparation
succeeds. -/
theorem exists_unseen : ∃ config last launcher mode className,
    samplePreparation strangerFiles = (.ok config, last) ∧
      (strangerFiles.walk [] (Project.mk ⟨"/p"⟩).sourceDir).toOption.map FileWalk.files =
        some [["main.pde"]] ∧
      last.find [] ((Project.mk ⟨"/p"⟩).activityPath config.appPackage) =
        .ok (launcher, .file mode (.ofText (Template.activity config.appPackage className))) ∧
      declaredPackage? (Template.activity config.appPackage className).toList =
        some "a.b".toList ∧
      ((last.contentAt (generatedPlace ["p"] ["main.java"])).bind Content.text?).bind
        (fun unit => declaredPackage? unit.toList) = some "c.d".toList := by
  have hall : (samplePreparation strangerFiles).1.toOption.map BuildConfig.appPackage = some "a.b" ∧
      (strangerFiles.walk [] (Project.mk ⟨"/p"⟩).sourceDir).toOption.map FileWalk.files =
        some [["main.pde"]] ∧
      (((samplePreparation strangerFiles).2.contentAt
        (generatedPlace ["p"] ["main.java"])).bind Content.text?).bind
          (fun unit => declaredPackage? unit.toList) = some "c.d".toList := by
    decide +kernel
  rcases hrun : samplePreparation strangerFiles with ⟨fault | config, last⟩
  · rw [hrun] at hall
    cases hall.1
  · rw [hrun] at hall
    obtain ⟨hpackage, hwalk, hunit⟩ := hall
    replace hpackage : config.appPackage = "a.b" := Option.some.inj hpackage
    obtain ⟨steps, rfl, rfl⟩ := exists_steps_of_run_prepare hrun
    obtain ⟨-, launcher, mode, -, -, -, hlauncher⟩ := exists_of_run_writeTextFile steps.run_activity
    rw [← steps.appPackage_config] at hlauncher
    refine ⟨steps.config, steps.last, _, mode, steps.className, rfl, hwalk, hlauncher, ?_, hunit⟩
    rw [hpackage, declaredPackage?_activity (by decide),
      declaredPackage?_of_trim_eq_self (by decide) (by decide)]

end SketchApk.Project
