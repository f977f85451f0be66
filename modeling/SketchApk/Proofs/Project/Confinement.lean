import SketchApk.Project.Prepare
import SketchApk.Proofs.File.Walk
import SketchApk.Proofs.Path.Extension
import SketchApk.Proofs.Plan.Confinement
import SketchApk.Proofs.Text.Substitution

/-!
# Where the preparation of a project writes

The preparation writes generated files below the directory of the build. Their paths are made of the
names of the sources, and the path of the activity is made of the name of the application's package,
where dots become slashes. If this name begins with neither a dot nor a slash, its path stays below
the directory of generated sources. So apart from the directories on the way of the configured build
path, all that the preparation changes lies in the directory of the build.

## Main definitions

* `Project.MakesBuildPath` : the operations that create the configured build path.
* `Project.prepareCompleted`, `Project.prepareLoaded` : parts of the preparation.

## Main statements

* `Project.enters_withExtension`, `Project.enters_activityPath` : generated files are below the
  directory of the build.
* `Project.only_generateSource`, `Project.obeys_generateSources` : so is what results from sources.
* `Project.obeys_prepare` : the preparation keeps to the directory of the build.
-/

namespace SketchApk

namespace Project

open Plan

variable (project : Project)

theorem isWithin_generatedDir :
    project.root.IsWithin project.generatedDir ["build", "src"] :=
  ((Path.IsWithin.refl project.root).div (by decide)).div (by decide)

/-- Everything below the directory of generated sources is below that of the build. -/
theorem enters_descend {names : List String} (h : ∀ name ∈ names, Path.IsName name) :
    project.root.Enters (· = "build") (project.generatedDir.descend names) :=
  ⟨"build", "src" :: names, rfl, project.isWithin_generatedDir.descend h⟩

/-- The unit of a sketch is below the directory of the build. -/
theorem enters_withExtension {names : List String} (h : ∀ name ∈ names, Path.IsName name) :
    project.root.Enters (· = "build")
      ((project.generatedDir.descend names).withExtension "java") := by
  obtain ⟨directory, rest, last, hlast, htarget, hwithin⟩ : ∃ (directory : Path)
      (rest : List String) (last : String), Path.IsName last ∧
        project.generatedDir.descend names = directory / last ∧
        project.root.IsWithin directory ("build" :: rest) := by
    rcases List.eq_nil_or_concat names with rfl | ⟨front, last, rfl⟩
    · exact ⟨project.buildDir, [], "src", by decide, rfl,
        (Path.IsWithin.refl project.root).div (by decide)⟩
    · rw [List.concat_eq_append, List.forall_mem_append] at h
      refine ⟨project.generatedDir.descend front, "src" :: front, last,
        h.2 last (List.mem_singleton_self last), ?_, project.isWithin_generatedDir.descend h.1⟩
      simp [Path.descend]
  have hname : Path.IsName ((Path.splitName last).1 ++ "." ++ "java") :=
    hlast.withExtension (by decide) (by decide) (by decide)
  rw [htarget, Path.withExtension_div directory hlast hname]
  exact ⟨"build", _, rfl, hwithin.div hname⟩

/-- The activity is below the directory of the build, unless the package begins like an absolute
path. -/
theorem enters_activityPath {appPackage : String} (h : appPackage.toList.head? ≠ some '.')
    (h' : appPackage.toList.head? ≠ some '/') :
    project.root.Enters (· = "build") (project.activityPath appPackage) := by
  have htext : (Text.substituted "." "/" appPackage).toList =
      appPackage.toList.map fun c => if c = '.' then '/' else c :=
    Text.toList_substituted rfl rfl appPackage
  have hdot : '.' ∉ (Text.substituted "." "/" appPackage).toList := by
    rw [htext, List.mem_map]
    rintro ⟨c, -, hc⟩
    split_ifs at hc with hdot
    · cases hc
    · exact hdot hc
  have habsolute : (⟨Text.substituted "." "/" appPackage⟩ : Path).isAbsolute = false := by
    rw [Path.isAbsolute, htext, List.head?_map, decide_eq_false_iff_not, Option.map_eq_some_iff]
    rintro ⟨c, hc, hslash⟩
    split_ifs at hslash with hdot
    · exact h (hdot ▸ hc)
    · exact h' (hslash ▸ hc)
  have hup : ".." ∉ (⟨Text.substituted "." "/" appPackage⟩ : Path).names := by
    intro hmem
    exact hdot (Path.mem_toList_of_mem_names hmem (by decide))
  exact ⟨"build", _, rfl, (project.isWithin_generatedDir.join habsolute hup).div (by decide)⟩

/-! ### Requests -/

section Requests

variable {kind : Request → Prop}

theorem only_loadConfig (hread : ∀ path, kind (.file (.read path))) :
    project.loadConfig.run.Only kind := by
  refine Only.attemptBind (Only.attemptBind ?_ fun text => ?_) fun config => Only.of_pure _
  · exact ((only_attemptFile (hread _)).attemptBind fun content => by
      split
      · exact Only.of_pure _
      · exact Only.fail _).bind fun result => Only.done _
  · split
    · exact Only.of_pure _
    · exact Only.fail _

/-- Apart from defaults, completing a configuration changes its libraries and its assets. -/
theorem of_ends_complete {toolchain : Toolchain} {config completed : BuildConfig}
    {history : History} (h : (project.complete toolchain config).Ends history completed) :
    ∃ classpath assetsDir, completed =
      { project.withDefaults toolchain config with classpath, assetsDir } := by
  have hruntime (config : BuildConfig) : ∃ classpath,
      withRuntime toolchain config = { config with classpath } := by
    rw [withRuntime]
    split <;> exact ⟨_, rfl⟩
  obtain ⟨_, found, _, -, -, h⟩ := ends_bind.mp h
  obtain ⟨_, hasData, _, -, -, h⟩ := ends_bind.mp h
  obtain ⟨classpath, hclasspath⟩ := hruntime (project.withDefaults toolchain config)
  split at h <;> split at h <;> obtain ⟨-, rfl⟩ := h
  · exact ⟨classpath, _, by rw [hclasspath]⟩
  · exact ⟨classpath, _, hclasspath⟩
  · exact ⟨_, _, rfl⟩
  · exact ⟨_, _, rfl⟩

theorem only_complete (hread : ∀ operation : FileOperation, operation.IsReading →
    kind (.file operation)) (toolchain : Toolchain) (config : BuildConfig) :
    (project.complete toolchain config).Only kind := by
  have hentries : (hasEntries project.dataDir).Only kind :=
    (Only.ask (hread (.list _) trivial)).bind fun result => by cases result <;> exact Only.done _
  refine (only_isFile (hread (.inspect _) trivial)).bind fun found => ?_
  refine hentries.bind fun hasData => ?_
  split <;> split <;> exact Only.done _

/-- A sketch is read by a request to read its file. -/
theorem only_readSource {path : Path} (hread : kind (.file (.read path))) :
    (Sketch.readSource path).run.Only kind := by
  refine Only.attemptBind (Only.during _ ?_) fun text => ?_
  · refine (only_attemptFile hread).attemptBind fun content => ?_
    split
    · exact Only.of_pure _
    · exact Only.fail _
  · split
    · exact Only.of_pure _
    · exact Only.fail _

/-- What generating a source asks for is to read it, and to write or copy it to its target. -/
theorem only_generateSource_of (hread : ∀ path, kind (.file (.read path))) {names : List String}
    (hwrite : ∀ text, (writeTextFile ((project.generatedDir.descend names).withExtension "java")
      text).run.Only kind)
    (hmake : ∀ parent, (project.generatedDir.descend names).parent? = some parent →
      (makeDirectories parent).run.Only kind)
    (hcopy : kind (.file (.copy (project.sourceDir.descend names)
      (project.generatedDir.descend names)))) (appPackage : String) :
    (project.generateSource appPackage names).run.Only kind := by
  rw [generateSource]
  split
  · exact (only_readSource (hread _)).attemptBind fun source =>
      (hwrite _).attemptBind fun _ => Only.of_pure _
  · refine Only.attemptBind ?_ fun _ => ?_
    · cases hparent : (project.generatedDir.descend names).parent? with
      | none => exact Only.of_pure _
      | some parent => exact hmake parent hparent
    · exact ((only_attemptFile hcopy).during _).attemptBind fun _ => Only.of_pure _
  · exact Only.of_pure _

variable (hkind : ∀ operation : FileOperation,
  operation.IsConfined project.root (· = "build") → kind (.file operation))

include hkind

theorem only_generateSource {names : List String} (h : ∀ name ∈ names, Path.IsName name)
    (appPackage : String) : (project.generateSource appPackage names).run.Only kind :=
  have htarget := project.enters_descend h
  project.only_generateSource_of (fun _ => hkind _ trivial)
    (fun text => only_writeTextFile_of_enters hkind (project.enters_withExtension h) text)
    (fun _ hparent => only_makeDirectories_of_parent hkind htarget hparent) (hkind _ htarget)
    appPackage

end Requests

/-! ### Preparation -/

/-- The operation creates the build path of a configuration that has been loaded, or a directory
above it. -/
def MakesBuildPath (toolchain : Toolchain) (loaded : Except Fault BuildConfig)
    (operation : FileOperation) : Prop :=
  ∃ config path, loaded = .ok config ∧
    path ∈ (project.withDefaults toolchain config).buildPath.ancestors ∧
      operation = .makeDirectory path

/-- A walk leaves the files as they are. One that cannot begin comes to a halt and lists nothing. -/
theorem of_run_walk {world : World} {stop : Bool} {files last : FileSystem} {root : Path}
    {found : FileWalk} (h : (walk root).run (world.answer stop) files = (found, last)) :
    last = files ∧
      (files.walk world.place root = .ok found ∨ found.files = [] ∧ found.halt ≠ none) := by
  rw [run_walk_eq] at h
  obtain ⟨rfl, rfl⟩ := Prod.mk.inj h
  refine ⟨rfl, ?_⟩
  rw [FileSystem.walked]
  cases files.walk world.place root with
  | ok listed => exact .inl rfl
  | error error => exact .inr ⟨rfl, by simp⟩

section Rule

variable {world : World} {place : Location} {files middle : FileSystem}
  {exempt : FileOperation → Prop}
  (hroot : files.HasDirectory world.place project.root place) (hfree : files.LinkFree place)
  (hexempt : ∀ operation, exempt operation → operation.IsCreating)
  (hmiddle : files.ChangedWithin (FileSystem.Region place (· = "build")) middle)

include hroot hfree hexempt hmiddle

/-- Parts of the preparation whose requests keep to the directory of the build stay in it. -/
theorem obeys_of_only {α : Type} {plan : Plan α}
    (h : plan.Only fun request =>
      request.IsLocal ∧ request.KeepsTo project.root (· = "build") exempt) :
    plan.Obeys world.place
      (FileOperation.KeepsIn (FileSystem.Region place (· = "build")) exempt world.place)
      (fun value last => files.ChangedWithin (FileSystem.Region place (· = "build")) last ∧
        plan.run (world.answer false) middle = (value, last)) middle :=
  h.obeys_keepsIn (by simp) hroot hfree hexempt hmiddle

/-- The sources of a project are generated in the directory of the build. -/
theorem obeys_generateSources (appPackage : String) :
    (project.generateSources appPackage).run.Obeys world.place
      (FileOperation.KeepsIn (FileSystem.Region place (· = "build")) exempt world.place)
      (fun _ last => files.ChangedWithin (FileSystem.Region place (· = "build")) last) middle := by
  have hkind (operation : FileOperation) (h : operation.IsConfined project.root (· = "build")) :
      (Request.file operation).IsLocal ∧
        (Request.file operation).KeepsTo project.root (· = "build") exempt :=
    ⟨trivial, .inl h⟩
  refine .alwaysBind (project.obeys_of_only hroot hfree hexempt hmiddle
    (only_isDirectory (hkind _ trivial))) fun found later hlater => ?_
  split
  · refine .alwaysBind (project.obeys_of_only hroot hfree hexempt hlater.1 ?_)
      fun found last hlast => ?_
    · exact (Only.ask (hkind (.walk _) trivial)).bind fun result => by
        cases result <;> exact Only.done _
    · have hnames (names : List String) (hmem : names ∈ found.files) :
          ∀ name ∈ names, Path.IsName name := by
        rcases (of_run_walk hlast.2).2 with hwalk | ⟨hnil, -⟩
        · exact hlater.1.wellNamed.isName_of_mem_walk hwalk hmem
        · rw [hnil] at hmem
          cases hmem
      refine .weaken (project.obeys_of_only hroot hfree hexempt hlast.1 ?_) fun _ _ h => h.1
      refine (Only.attemptMapM _ fun names hmem =>
        project.only_generateSource hkind (hnames names hmem) appPackage).attemptBind fun _ => ?_
      exact (only_throughout _ found).attemptBind fun _ => Only.of_pure _
  · exact .of_pure hlater.1

omit hroot hfree hexempt hmiddle in
/-- The configuration is loaded, and the files are left as they are. -/
theorem obeys_loadConfig {condition : FileSystem → Prop} (hfiles : condition files)
    {rule : FileSystem → FileOperation → Prop} (hrule : ∀ path, rule files (.read path)) :
    project.loadConfig.run.Obeys world.place rule
      (fun result last =>
        (∀ config, result = .ok config → last = files ∧
          (project.loadConfig.run.run (world.answer false) files).1 = .ok config) ∧
        ∀ fault, result = .error fault → condition last) files := by
  have honly : project.loadConfig.run.Only fun request => ∃ path, request = .file (.read path) :=
    project.only_loadConfig fun path => ⟨path, rfl⟩
  have hobeys : project.loadConfig.run.Obeys world.place rule (fun result last => last = files ∧
      project.loadConfig.run.run (world.answer false) files = (result, last)) files := by
    refine honly.obeys false ?_ ?_ rfl
    · rintro _ ⟨path, rfl⟩
      trivial
    · rintro operation last ⟨path, hoperation⟩ rfl
      obtain rfl := Request.file.inj hoperation
      exact ⟨hrule path, rfl⟩
  refine hobeys.weaken fun result last ⟨hlast, hrun⟩ => ⟨fun config hconfig => ⟨hlast, ?_⟩,
    fun _ _ => hlast ▸ hfiles⟩
  rw [hrun, hconfig]

end Rule

/-! ### The parts of the preparation -/

/-- The preparation behind the completion of the configuration. -/
def prepareCompleted (config : BuildConfig) : Attempt BuildConfig := do
  createDirectory project.buildDir
  createDirectory config.buildPath
  removeDirectory project.generatedDir (.removing project.generatedDir)
  writeTextFile project.manifestPath (Template.manifest config)
  match chooseSketch (← project.generateSources config.appPackage) with
  | none => Attempt.fail (.project (.noSketch project.sourceDir))
  | some className =>
    writeTextFile (project.activityPath config.appPackage)
      (Template.activity config.appPackage className)
    return project.withGenerated { config with manifestPath := project.manifestPath }

/-- The preparation behind loading the configuration. -/
def prepareLoaded (toolchain : Toolchain) (config : BuildConfig) : Attempt BuildConfig := do
  project.prepareCompleted (← Attempt.always (project.complete toolchain config))

theorem prepare_eq (toolchain : Toolchain) :
    project.prepare toolchain = project.loadConfig >>= project.prepareLoaded toolchain :=
  rfl

section Rule

variable {world : World} {place : Location} {files middle : FileSystem}
  {exempt : FileOperation → Prop}
  (hroot : files.HasDirectory world.place project.root place) (hfree : files.LinkFree place)
  (hexempt : ∀ operation, exempt operation → operation.IsCreating)
  (hmiddle : files.ChangedWithin (FileSystem.Region place (· = "build")) middle)

include hroot hfree hexempt hmiddle

/-- With a completed configuration, a project is prepared in the directory of the build, apart from
the directories on the way of the configured build path. -/
theorem obeys_prepareCompleted {config : BuildConfig}
    (hbuild : ∀ path ∈ config.buildPath.ancestors, exempt (.makeDirectory path))
    (hdot : config.appPackage.toList.head? ≠ some '.')
    (hslash : config.appPackage.toList.head? ≠ some '/') :
    (project.prepareCompleted config).run.Obeys world.place
      (FileOperation.KeepsIn (FileSystem.Region place (· = "build")) exempt world.place)
      (fun _ last => files.ChangedWithin (FileSystem.Region place (· = "build")) last) middle := by
  have hkind (operation : FileOperation) (h : operation.IsConfined project.root (· = "build")) :
      (Request.file operation).IsLocal ∧
        (Request.file operation).KeepsTo project.root (· = "build") exempt :=
    ⟨trivial, .inl h⟩
  have hpart {α : Type} {attempt : Attempt α} {middle : FileSystem}
      (hmiddle : files.ChangedWithin (FileSystem.Region place (· = "build")) middle)
      (h : attempt.run.Only fun request =>
        request.IsLocal ∧ request.KeepsTo project.root (· = "build") exempt) :
      attempt.run.Obeys world.place
        (FileOperation.KeepsIn (FileSystem.Region place (· = "build")) exempt world.place)
        (fun _ last => files.ChangedWithin (FileSystem.Region place (· = "build")) last) middle :=
    (project.obeys_of_only hroot hfree hexempt hmiddle h).weaken fun _ _ hlast => hlast.1
  have hself := Path.IsWithin.refl project.root
  have hstart : project.root.Enters (· = "build") project.buildDir :=
    ⟨"build", [], rfl, hself.div (by decide)⟩
  have hmanifest : project.root.Enters (· = "build") project.manifestPath :=
    ⟨"build", ["AndroidManifest.xml"], rfl, (hself.div (by decide)).div (by decide)⟩
  refine .attemptBind' ?_ fun _ _ hlast => .attemptBind' ?_ fun _ _ hlast => .attemptBind' ?_
    fun _ _ hlast => .attemptBind' ?_ fun _ _ hlast => .attemptBind'
      (project.obeys_generateSources hroot hfree hexempt hlast _) fun classNames _ hlast => ?_
  · exact hpart hmiddle (only_createDirectory_of_enters hkind hstart)
  · exact hpart hlast ((only_makeDirectories_of_mem (fun _ => hkind (.inspect _) trivial)
      fun path hmem _ => ⟨trivial, .inr (hbuild path hmem)⟩).during _)
  · refine hpart hlast ?_
    refine (only_pathExists (hkind (.inspect _) trivial)).always.attemptBind fun found => ?_
    split
    · exact (only_attemptFile (hkind (.removeTree _)
        ⟨"build", ["src"], rfl, project.isWithin_generatedDir⟩)).during _
    · exact Only.of_pure _
  · exact hpart hlast (only_writeTextFile_of_enters hkind hmanifest _)
  · split
    · exact hpart hlast (Only.fail _)
    · refine hpart hlast (Only.attemptBind ?_ fun _ => Only.of_pure _)
      exact only_writeTextFile_of_enters hkind (project.enters_activityPath hdot hslash) _

end Rule

variable {project} in
/-- Whatever the preparation of a project creates, overwrites or removes lies in the directory of
the build, apart from directories that it creates on the way of the configured build path. -/
theorem obeys_prepare {world : World} {place : Location} {files : FileSystem}
    (hroot : files.HasDirectory world.place project.root place) (hfree : files.LinkFree place)
    (hnames : files.WellNamed) (toolchain : Toolchain)
    (hpackage : ∀ config,
      (project.loadConfig.run.run (world.answer false) files).1 = .ok config →
        config.appPackage.toList.head? ≠ some '.' ∧ config.appPackage.toList.head? ≠ some '/') :
    (project.prepare toolchain).run.Obeys world.place
      (FileOperation.KeepsIn (FileSystem.Region place (· = "build"))
        (project.MakesBuildPath toolchain
          (project.loadConfig.run.run (world.answer false) files).1) world.place)
      (fun _ last => files.ChangedWithin (FileSystem.Region place (· = "build")) last) files := by
  have hexempt (operation : FileOperation) (h : project.MakesBuildPath toolchain
      (project.loadConfig.run.run (world.answer false) files).1 operation) :
      operation.IsCreating := by
    obtain ⟨_, path, -, -, rfl⟩ := h
    trivial
  have hfiles : files.ChangedWithin (FileSystem.Region place (· = "build")) files :=
    ⟨.refl _ files, hnames⟩
  have hkind (operation : FileOperation) (h : operation.IsConfined project.root (· = "build")) :
      (Request.file operation).IsLocal ∧ (Request.file operation).KeepsTo project.root
        (· = "build") (project.MakesBuildPath toolchain
          (project.loadConfig.run.run (world.answer false) files).1) :=
    ⟨trivial, .inl h⟩
  rw [prepare_eq]
  refine .attemptBind (project.obeys_loadConfig hfiles fun _ => .inl fun _ htouch => htouch.elim)
    fun config last ⟨hlast, hconfig⟩ => ?_
  subst hlast
  obtain ⟨hdot, hslash⟩ := hpackage config hconfig
  refine .alwaysBind (project.obeys_of_only hroot hfree hexempt hfiles
    (project.only_complete (fun operation h => hkind operation (h.isConfined _ _)) toolchain
      config)) fun completed middle ⟨hmiddle, hrun⟩ => ?_
  have hends := ends_run (world.answer false) (project.complete toolchain config) last
  rw [hrun] at hends
  obtain ⟨classpath, assetsDir, rfl⟩ := project.of_ends_complete hends
  exact project.obeys_prepareCompleted hroot hfree hexempt hmiddle
    (fun path hmem => ⟨config, path, hconfig, hmem, rfl⟩) hdot hslash

end Project

/-! ### Examples -/

/-- A directory with an older package in its directory for builds, and with the properties and the
sketch of a project. -/
def projectFiles (properties : String) : FileSystem :=
  (((((FileSystem.root.put ["p"] (.directory 0o755)).put ["p", "build.properties"]
    (.file 0o644 (.ofText properties))).put ["p", "src"] (.directory 0o755)).put
      ["p", "src", "main.pde"] (.file 0o644 .empty)).put
        ["p", "build"] (.directory 0o755)).put ["p", "build", "old.apk"] (.file 0o644 .empty)

theorem isTree_projectFiles (properties : String) : (projectFiles properties).IsTree :=
  (((((FileSystem.isTree_root.put [] "p" rfl rfl _).put ["p"] "build.properties" rfl rfl _).put
    ["p"] "src" rfl rfl _).put ["p", "src"] "main.pde" rfl rfl _).put ["p"] "build" rfl rfl _).put
      ["p", "build"] "old.apk" rfl rfl _

theorem hasDirectory_projectFiles (properties : String) :
    (projectFiles properties).HasDirectory [] ⟨"/p"⟩ ["p"] :=
  .of_find (show _ = Except.ok (_, Node.directory 0o755) from rfl)

theorem cases_of_get?_projectFiles {properties : String} {place : Location} {node : Node}
    (h : (projectFiles properties).get? place = some node) :
    place ∈ [[], ["p"], ["p", "build.properties"], ["p", "src"], ["p", "src", "main.pde"],
      ["p", "build"], ["p", "build", "old.apk"]] ∧ ∀ path, node ≠ .link path := by
  simp only [projectFiles, FileSystem.get?_put] at h
  rw [FileSystem.root, FileSystem.get?, Std.ExtTreeMap.getElem?_insert] at h
  split_ifs at h
  all_goals cases h
  all_goals exact ⟨by simp_all, fun _ hlink => by cases hlink⟩

theorem linkFree_projectFiles (properties : String) (place : Location) :
    (projectFiles properties).LinkFree place :=
  fun _ path hlink => (cases_of_get?_projectFiles hlink).2 path rfl

theorem wellNamed_projectFiles (properties : String) : (projectFiles properties).WellNamed := by
  intro place node hnode
  have hnames : ∀ place ∈ [[], ["p"], ["p", "build.properties"], ["p", "src"],
      ["p", "src", "main.pde"], ["p", "build"], ["p", "build", "old.apk"]],
      ∀ name ∈ place, Path.IsName name := by
    decide +kernel
  exact hnames place (cases_of_get?_projectFiles hnode).1

end SketchApk
