import SketchApk.Proofs.Project.Creation
import SketchApk.Proofs.Project.Sources
import SketchApk.Proofs.Project.Targets

/-!
# New projects are usable

A project that has been created can be opened and, with every toolchain, prepared. Its sketch is the
only source and declares no package, so the sketch and the activity become parts of one package,
whose name has been made of the name of the project.

## Main definitions

* `Project.preparedBranch` : what a new project consists of that has been prepared.
* `Project.IsReady` : the configuration and the generated sources of a project that is prepared.

## Main statements

* `Project.IsVacant.grows_prepareCompleted` : a new project is prepared.
* `Project.exists_of_isVacant` : a project is created, opened and prepared.
* `Project.exists_uncreated` : a project cannot be created in every directory.
-/

namespace SketchApk

open Plan Attempt

namespace Project

variable {world : World} {stop : Bool} {files : FileSystem} {base : Location} {parent : Path}
  {name : String} {segment : List Char} {branch next : Branch} {names : List String}
  {manifest unit activity : String}

/-! ### Generating sources -/

/-- A sketch is generated from its text. -/
theorem run_generateSource_of_read {project : Project} {appPackage text stem file target : String}
    {last : FileSystem} (hname : Path.IsName file)
    (hsplit : Path.splitName file = (stem, some "pde"))
    (htarget : stem ++ "." ++ "java" = target) (hjava : Path.IsName target)
    (hread : files.read world.place (project.sourceDir / file) = .ok (.ofText text))
    (hwrite : (writeTextFile (project.generatedDir / target)
      (unitOf appPackage ⟨text, stem⟩)).run.run (world.answer stop) files = (.ok (), last)) :
    (project.generateSource appPackage [file]).run.run (world.answer stop) files =
      (.ok (some stem), last) := by
  subst htarget
  have hdescend (path : Path) : path.descend [file] = path / file := rfl
  have hextension : (project.sourceDir.descend [file]).extension? = some "pde" := by
    rw [hdescend, Path.extension?_div _ hname, hsplit]
  have hstem : (project.sourceDir.descend [file]).stem? = some stem := by
    rw [hdescend, Path.stem?_div _ hname, hsplit]
  have hsource : (Sketch.readSource (project.sourceDir.descend [file])).run.run (world.answer stop)
      files = (.ok ⟨text, stem⟩, files) := by
    refine (run_bind_ok (run_during_ok (run_readText hread))).trans ?_
    rw [hstem]
    rfl
  have hpath : (project.generatedDir.descend [file]).withExtension "java" =
      project.generatedDir / (stem ++ "." ++ "java") := by
    have hjava' : Path.IsName ((Path.splitName file).1 ++ "." ++ "java") := by rwa [hsplit]
    rw [hdescend, Path.withExtension_div _ hname hjava', hsplit]
  simp only [generateSource, hextension]
  refine (run_bind_ok hsource).trans ?_
  rw [hpath]
  exact run_bind_ok hwrite

/-- The sources of a project with one sketch are generated. -/
theorem run_generateSources_of_walk {project : Project} {appPackage className : String}
    {place : Location} {mode : Mode} {last : FileSystem}
    (hfind : files.find world.place project.sourceDir = .ok (place, .directory mode))
    (hwalk : files.walk world.place project.sourceDir = .ok ⟨[names], none⟩)
    (hgenerate : (project.generateSource appPackage names).run.run (world.answer stop) files =
      (.ok (some className), last)) :
    (project.generateSources appPackage).run.run (world.answer stop) files =
      (.ok [className], last) := by
  have hdirectory : (isDirectory project.sourceDir).run (world.answer stop) files =
      (true, files) := by
    rw [run_isDirectory, FileSystem.inspect, hfind]
    rfl
  have hfound : (walk project.sourceDir).run (world.answer stop) files =
      (⟨[names], none⟩, files) := by
    rw [walk, bind_eq, Plan.run_bind, run_ask_file, FileOperation.run, hwalk]
    rfl
  have hvalues : ([names].mapM (project.generateSource appPackage)).run.run (world.answer stop)
      files = (.ok [some className], last) := by
    rw [List.mapM_cons, List.mapM_nil]
    exact run_bind_ok hgenerate
  rw [generateSources]
  refine (run_bind_ok (run_always hdirectory)).trans ?_
  rw [if_pos rfl]
  refine (run_bind_ok (run_always hfound)).trans ?_
  exact run_bind_ok hvalues

/-! ### Preparing -/

/-- What a new project consists of that has been prepared. -/
def preparedBranch (name : String) (segment : List Char) (manifest unit activity : String) :
    Branch :=
  (activityNames segment, .file Mode.newFile (.ofText activity)) ::
    (["build", "src", "com", "example", String.ofList segment], .newDirectory) ::
    (["build", "src", "com", "example"], .newDirectory) ::
    (["build", "src", "com"], .newDirectory) ::
    (["build", "src", "main.java"], .file Mode.newFile (.ofText unit)) ::
    (["build", "src"], .newDirectory) ::
    (["build", "AndroidManifest.xml"], .file Mode.newFile (.ofText manifest)) ::
    (["build", "output"], .newDirectory) :: freshBranch name

section Prepare

variable (h : IsVacant files world.place parent name base) (hgrown : branch.IsGrown)

include h hgrown

/-- The sketch is the only file among the sources. -/
theorem IsVacant.walk_sourceDir
    (hsrc : branch.lookup ["src"] = some .newDirectory)
    (hlookup : ∀ rest, rest ≠ [] →
      branch.lookup ("src" :: rest) = (freshBranch name).lookup ("src" :: rest)) :
    (files.plant (base ++ [name]) branch).find world.place (Project.mk (parent / name)).sourceDir =
        .ok (base ++ [name] ++ ["src"], .newDirectory) ∧
      (files.plant (base ++ [name]) branch).walk world.place
        (Project.mk (parent / name)).sourceDir = .ok ⟨[["main.pde"]], none⟩ := by
  have hsource : ((parent / name).descend ["src"]).IsUsable :=
    h.isUsable (by decide)
  have hfind : (files.plant (base ++ [name]) branch).find world.place
      (Project.mk (parent / name)).sourceDir = .ok (base ++ [name] ++ ["src"], .newDirectory) :=
    h.find hgrown ["src"] hsrc (by decide)
  have hkept : (files.plant (base ++ [name]) branch).resolve world.place .kept
      (Project.mk (parent / name)).sourceDir =
        .ok (.existing (base ++ [name] ++ ["src"]) .newDirectory) := by
    have hresolve := h.isSite.resolve hgrown hgrown.lookup_nil (by decide : Path.IsName "src")
      (by decide) hsource .kept
    rwa [List.nil_append, FileSystem.targetAt, h.isSite.get?_plant branch ["src"], hsrc] at hresolve
  have hbelow : (files.plant (base ++ [name]) branch).below (base ++ [name] ++ ["src"]) =
      [(["main.pde"], .file Mode.newFile (.ofText Template.firstSketch))] := by
    refine FileSystem.below_eq_singleton (fun others other hne => ?_) (List.cons_ne_nil _ _)
    rw [List.append_assoc, h.isSite.get?_plant, List.singleton_append, hlookup others hne]
    by_cases hmain : others = ["main.pde"]
    · subst hmain
      simp [freshBranch, List.lookup_cons, eq_comm]
    · have hother : (others == ["main.pde"]) = false := beq_eq_false_iff_ne.mpr hmain
      have hfirst : others.isEmpty = false := by simpa using hne
      simp [freshBranch, List.lookup_cons, hother, hfirst, hmain]
  refine ⟨hfind, ?_⟩
  rw [FileSystem.walk, hkept]
  dsimp only
  rw [FileSystem.walkDirectory, FileSystem.findListable, hfind]
  dsimp only
  rw [if_pos (by decide), Except.map, hbelow]
  rfl

/-- There is nothing to remove when no sources have been generated. -/
theorem IsVacant.run_removeGenerated (hbuild : branch.lookup ["build"] = some .newDirectory)
    (hnone : branch.lookup ["build", "src"] = none) (activity : Activity) :
    (removeDirectory (Project.mk (parent / name)).generatedDir activity).run.run (world.answer stop)
        (files.plant (base ++ [name]) branch) =
      (.ok (), files.plant (base ++ [name]) branch) := by
  have husable : ((parent / name).descend ["build", "src"]).IsUsable := h.isUsable (by decide)
  have hnone' : branch.lookup (["build"] ++ ["src"]) = none := hnone
  have hmissing := h.isSite.find_eq_notFound hgrown hbuild hnone' (by decide) (by decide) husable
  exact run_removeDirectory_of_missing hmissing

/-- The sources of a new project are generated. -/
theorem IsVacant.grows_generateSources {appPackage : String} (next : Branch)
    (hsrc : branch.lookup ["src"] = some .newDirectory)
    (hrest : ∀ rest, rest ≠ [] →
      branch.lookup ("src" :: rest) = (freshBranch name).lookup ("src" :: rest))
    (hinits : ∀ front ∈ ["build", "src"].inits, branch.lookup front = none ∨
      branch.lookup front = some .newDirectory)
    (hnew : branch.lookup ["build", "src", "main.java"] = none)
    (hunit : unitOf appPackage ⟨Template.firstSketch, "main"⟩ = unit)
    (hnext : branch.withDirectories [] ["build", "src"] = next) :
    ((Project.mk (parent / name)).generateSources appPackage).Grows world stop files
      (base ++ [name]) branch ["main"]
      ((["build", "src", "main.java"], .file Mode.newFile (.ofText unit)) :: next) := by
  obtain ⟨hfind, hwalk⟩ := h.walk_sourceDir hgrown hsrc hrest
  have hsketch : branch.lookup ["src", "main.pde"] =
      some (.file Mode.newFile (.ofText Template.firstSketch)) := hrest ["main.pde"] (by simp)
  have hread : (files.plant (base ++ [name]) branch).read world.place
      ((Project.mk (parent / name)).sourceDir / "main.pde") = .ok (.ofText Template.firstSketch) :=
    FileSystem.read_eq_ok_iff.mpr
      ⟨_, _, h.find hgrown ["src", "main.pde"] hsketch (by decide), by decide⟩
  have hsplit : Path.splitName "main.pde" = ("main", some "pde") := by decide
  have htarget : "main" ++ "." ++ "java" = "main.java" := by decide
  have hwrite : (writeTextFile ((Project.mk (parent / name)).generatedDir / "main.java") unit).Grows
      world stop files (base ++ [name]) branch ()
        ((["build", "src"] ++ ["main.java"], .file Mode.newFile (.ofText unit)) :: next) :=
    h.grows_writeTextFile ["build", "src"] "main.java" next hgrown (by decide) hinits hnew unit
      hnext
  refine ⟨run_generateSources_of_walk hfind hwalk (run_generateSource_of_read (by decide) hsplit
    htarget (by decide) hread ?_), hwrite.isGrown⟩
  rw [hunit]
  exact hwrite.run

/-- The activity is written in the directory of its package. -/
theorem IsVacant.grows_activity (next : Branch) (hsegment : IsPackageSegment segment)
    (hpackage : packageFor name = "com.example." ++ String.ofList segment)
    (hshort : (String.ofList segment).utf8ByteSize ≤ maxNameBytes)
    (hinits : ∀ front ∈ ["build", "src", "com", "example", String.ofList segment].inits,
      branch.lookup front = none ∨ branch.lookup front = some .newDirectory)
    (hnew : branch.lookup (activityNames segment) = none) (text : String)
    (hnext : branch.withDirectories [] ["build", "src", "com", "example", String.ofList segment] =
      next) :
    (writeTextFile ((Project.mk (parent / name)).activityPath (packageFor name)) text).Grows world
      stop files (base ++ [name]) branch ()
        ((activityNames segment, .file Mode.newFile (.ofText text)) :: next) := by
  have hnames : ∀ other ∈ ["build", "src", "com", "example", String.ofList segment],
      Path.IsName other ∧ other.utf8ByteSize ≤ maxNameBytes := by
    have hfront : ∀ other ∈ ["build", "src", "com", "example"],
        Path.IsName other ∧ other.utf8ByteSize ≤ maxNameBytes := by decide
    exact List.forall_mem_append.mpr
      ⟨hfront, List.forall_mem_singleton.mpr ⟨hsegment.isName, hshort⟩⟩
  have husable := h.usable
  rw [hpackage, activityPath_eq hsegment] at husable ⊢
  exact .writeTextFile h.isSite hgrown (.of_inits hnames hinits) hnew (by decide) (by decide)
    husable text hnext

omit hgrown

/-- The project is prepared with its manifest, the unit of its sketch and its activity. -/
theorem IsVacant.grows_prepareCompleted (stop : Bool) {config : BuildConfig}
    (hgrown : (freshBranch name).IsGrown) (hsegment : IsPackageSegment segment)
    (hpackage : packageFor name = "com.example." ++ String.ofList segment)
    (hshort : (String.ofList segment).utf8ByteSize ≤ maxNameBytes)
    (hconfig : config.appPackage = packageFor name)
    (hbuild : config.buildPath = (parent / name).descend ["build", "output"])
    (hmanifest : Template.manifest config = manifest)
    (hunit : unitOf config.appPackage ⟨Template.firstSketch, "main"⟩ = unit)
    (hactivity : Template.activity config.appPackage "main" = activity) :
    ((Project.mk (parent / name)).prepareCompleted config).Grows world stop files (base ++ [name])
      (freshBranch name)
      ((Project.mk (parent / name)).withGenerated
        { config with manifestPath := (Project.mk (parent / name)).manifestPath })
      (preparedBranch name segment manifest unit activity) := by
  have hchoose : chooseSketch ["main"] = some "main" := by decide
  rw [prepareCompleted, hbuild]
  refine (h.grows_createDirectory ["build"] (freshBranch name) hgrown (by decide)
    (by simp [freshBranch, List.lookup_cons]) rfl).bind fun hgrown => ?_
  refine (h.grows_createDirectory ["build", "output"]
    ((preparedBranch name segment manifest unit activity).drop 7) hgrown (by decide)
    (by simp [freshBranch, List.lookup_cons]) rfl).bind fun hgrown => ?_
  refine .bind_of_run (h.run_removeGenerated hgrown rfl rfl _) ?_
  rw [hmanifest]
  refine (h.grows_writeTextFile ["build"] "AndroidManifest.xml"
    ((preparedBranch name segment manifest unit activity).drop 7) hgrown (by decide)
    (by simp [preparedBranch, freshBranch, List.lookup_cons]) rfl manifest rfl).bind fun hgrown => ?_
  refine (h.grows_generateSources hgrown
    ((preparedBranch name segment manifest unit activity).drop 5) rfl
    (by simp [preparedBranch, List.lookup_cons]) (by simp [preparedBranch, freshBranch, List.lookup_cons]) rfl
    hunit rfl).bind fun hgrown => ?_
  rw [hchoose]
  dsimp only
  rw [hactivity, hconfig]
  exact (h.grows_activity hgrown ((preparedBranch name segment manifest unit activity).drop 1)
    hsegment hpackage hshort (by simp [preparedBranch, freshBranch, List.lookup_cons]) rfl activity
    rfl).bind fun hgrown => .of_pure hgrown _

end Prepare

/-! ### A new project is usable -/

/-- Completing a configuration changes neither the name nor the package of the application, and sets
the build path and the directory of resources only if they are empty. -/
theorem completion_eq {project : Project} {toolchain : Toolchain} {config completed : BuildConfig}
    {library entries : Bool} (h : project.completion toolchain config library entries = completed) :
    completed.appName = config.appName ∧ completed.appPackage = config.appPackage ∧
      (config.buildPath.isEmpty = false → completed.buildPath = config.buildPath) ∧
      (config.resDir.isEmpty = false → completed.resDir = config.resDir) := by
  obtain rfl := h
  have hruntime (other : BuildConfig) : (withRuntime toolchain other).appName = other.appName ∧
      (withRuntime toolchain other).appPackage = other.appPackage ∧
      (withRuntime toolchain other).buildPath = other.buildPath ∧
      (withRuntime toolchain other).resDir = other.resDir := by
    rw [withRuntime]
    split_ifs <;> exact ⟨rfl, rfl, rfl, rfl⟩
  have hlinked : ∃ linked : BuildConfig, linked.appName = config.appName ∧
      linked.appPackage = config.appPackage ∧
      (config.buildPath.isEmpty = false → linked.buildPath = config.buildPath) ∧
      (config.resDir.isEmpty = false → linked.resDir = config.resDir) ∧
      project.completion toolchain config library entries =
        if linked.assetsDir.isNone && entries then
          { linked with assetsDir := some project.dataDir } else linked := by
    have hbuild (h : config.buildPath.isEmpty = false) :
        (project.withDefaults toolchain config).buildPath = config.buildPath := by
      simp [withDefaults, h]
    have hres (h : config.resDir.isEmpty = false) :
        (project.withDefaults toolchain config).resDir = config.resDir := by
      simp [withDefaults, h]
    cases library with
    | false => exact ⟨project.withDefaults toolchain config, rfl, rfl, hbuild, hres, rfl⟩
    | true =>
      obtain ⟨hname, hpackage, hpath, hdir⟩ := hruntime (project.withDefaults toolchain config)
      exact ⟨_, hname, hpackage, fun h => hpath.trans (hbuild h), fun h => hdir.trans (hres h), rfl⟩
  obtain ⟨linked, hname, hpackage, hbuild, hres, hcompletion⟩ := hlinked
  rw [hcompletion]
  split_ifs <;> exact ⟨hname, hpackage, hbuild, hres⟩

/-- The generated sources change only the directories of sources. -/
theorem exists_withGenerated_eq (project : Project) (config : BuildConfig) :
    ∃ sources, project.withGenerated config = { config with javaSources := sources } := by
  rw [withGenerated]
  split_ifs
  · exact ⟨config.javaSources, rfl⟩
  · exact ⟨_, rfl⟩

/-- A project of some name that has been prepared, with the last name of its package. -/
structure IsReady (project : Project) (cwd place : Location) (name : String) (segment : List Char)
    (config : BuildConfig) (last : FileSystem) : Prop where
  isPackageSegment : IsPackageSegment segment
  appPackage_eq : config.appPackage = "com.example." ++ String.ofList segment
  /-- The name is saved unless it begins with a blank that is none of four. -/
  appName_eq (h : ∀ c ∈ name.toList.head?, Text.isBlank c = true → c ∈ [' ', '\t', '\n', '\r']) :
    config.appName = name
  find_buildPath : ∃ there mode, last.find cwd config.buildPath = .ok (there, .directory mode)
  find_resDir : ∃ there mode, last.find cwd config.resDir = .ok (there, .directory mode)
  find_manifestPath : ∃ there mode content,
    last.find cwd config.manifestPath = .ok (there, .file mode content)
  /-- Two files have been generated, apart from the directories in which they are. -/
  eq_of_get?_generatedPlace {names : List String} {node : Node}
    (h : last.get? (generatedPlace place names) = some node) : (∃ mode, node = .directory mode) ∨
      names = ["main.java"] ∨ names = ["com", "example", String.ofList segment, "MainActivity.java"]
  /-- The unit of the sketch begins with the declaration of the package. -/
  find_unit : ∃ mode rest, last.find cwd (project.generatedDir / "main.java") =
    .ok (generatedPlace place ["main.java"],
      .file mode (.ofText ("package " ++ config.appPackage ++ ";\n" ++ rest)))
  /-- The activity creates an instance of the sketch. -/
  find_activity : ∃ mode middle back, last.find cwd (project.activityPath config.appPackage) =
    .ok (generatedPlace place ["com", "example", String.ofList segment, "MainActivity.java"],
      .file mode (.ofText ("package " ++ config.appPackage ++ ";\n" ++ middle ++
        "sketch = new main();\n" ++ back)))

/-- What has been generated for a project lies in the directory of generated sources. -/
theorem cases_of_lookup_preparedBranch {node : Node}
    (h : (preparedBranch name segment manifest unit activity).lookup ("build" :: "src" :: names) =
      some node) : (∃ mode, node = .directory mode) ∨ names = ["main.java"] ∨
      names = ["com", "example", String.ofList segment, "MainActivity.java"] := by
  obtain ⟨front, back, hsplit, -⟩ := List.lookup_eq_some_iff.mp h
  have hmem : ("build" :: "src" :: names, node) ∈
      preparedBranch name segment manifest unit activity := by
    rw [hsplit]
    exact List.mem_append_right _ List.mem_cons_self
  simp only [preparedBranch, freshBranch, activityNames, List.mem_cons, Prod.mk.injEq,
    List.cons.injEq, String.reduceEq, true_and, false_and, and_false, or_false, reduceCtorEq,
    List.not_mem_nil] at hmem
  rcases hmem with ⟨hnames, -⟩ | ⟨-, hnode⟩ | ⟨-, hnode⟩ | ⟨-, hnode⟩ | ⟨hnames, -⟩ | ⟨-, hnode⟩
  · exact .inr (.inr hnames)
  · exact .inl ⟨_, hnode⟩
  · exact .inl ⟨_, hnode⟩
  · exact .inl ⟨_, hnode⟩
  · exact .inr (.inl hnames)
  · exact .inl ⟨_, hnode⟩

theorem IsVacant.isReady (h : IsVacant files world.place parent name base)
    (hsegment : IsPackageSegment segment)
    (hpackage : packageFor name = "com.example." ++ String.ofList segment) {config : BuildConfig}
    (hgrown : (preparedBranch name segment manifest unit activity).IsGrown)
    (hname : config.appName = keptString name) (happ : config.appPackage = packageFor name)
    (hbuild : config.buildPath = (parent / name).descend ["build", "output"])
    (hres : config.resDir = (parent / name).descend ["res"])
    (hmanifest : config.manifestPath = (Project.mk (parent / name)).manifestPath)
    (hunit : unitOf config.appPackage ⟨Template.firstSketch, "main"⟩ = unit)
    (hactivity : Template.activity config.appPackage "main" = activity) :
    (Project.mk (parent / name)).IsReady world.place (base ++ [name]) name segment config
      (files.plant (base ++ [name]) (preparedBranch name segment manifest unit activity)) := by
  have hown : declaresPackage Template.firstSketch = false := by decide +kernel
  obtain ⟨rest, hrest⟩ := exists_unitOf config.appPackage
    (show declaresPackage (Sketch.Source.mk Template.firstSketch "main").text = false from hown)
  obtain ⟨middle, back, hmiddle⟩ := Template.exists_activity
    (happ ▸ hpackage ▸ hsegment.not_isInfix_package) "main"
  have hnew : "sketch = new " ++ "main" ++ "();\n" = "sketch = new main();\n" := by decide
  refine ⟨hsegment, happ.trans hpackage, fun hblank => ?_, ?_, ?_, ?_, fun {names node} hnode => ?_,
    ?_, ?_⟩
  · exact hname.trans (keptString_eq_self_iff.mpr (BuildConfig.isFirm_iff.mpr hblank))
  · rw [hbuild]
    exact ⟨_, _, h.find hgrown ["build", "output"] rfl (by decide)⟩
  · rw [hres]
    exact ⟨_, _, h.find hgrown ["res"] rfl (by decide)⟩
  · rw [hmanifest]
    exact ⟨_, _, _, h.find hgrown ["build", "AndroidManifest.xml"] rfl (by decide)⟩
  · rw [generatedPlace, h.isSite.get?_plant] at hnode
    exact cases_of_lookup_preparedBranch hnode
  · refine ⟨Mode.newFile, rest, ?_⟩
    rw [← hrest, hunit]
    exact h.find hgrown ["build", "src", "main.java"] rfl (by decide)
  · refine ⟨Mode.newFile, middle, back, ?_⟩
    have husable := h.usable
    have hfind : (files.plant (base ++ [name])
        (preparedBranch name segment manifest unit activity)).find world.place
          ((parent / name).descend (activityNames segment)) =
          .ok (base ++ [name] ++ activityNames segment, .file Mode.newFile (.ofText activity)) := by
      rw [hpackage, activityPath_eq hsegment] at husable
      exact h.isSite.find hgrown List.lookup_cons_self husable
    rw [← hnew, ← String.append_assoc, ← String.append_assoc, ← hmiddle, hactivity, happ, hpackage,
      activityPath_eq hsegment]
    exact hfind

/-- The configuration of a new project is loaded and completed. It keeps its name and its paths. -/
theorem IsVacant.exists_completed (h : IsVacant files world.place parent name base)
    (hgrown : (freshBranch name).IsGrown) (stop : Bool) (toolchain : Toolchain) :
    ∃ loaded completed,
      (Project.mk (parent / name)).loadConfig.run.run (world.answer stop)
          (files.plant (base ++ [name]) (freshBranch name)) =
        (.ok loaded, files.plant (base ++ [name]) (freshBranch name)) ∧
      ((Project.mk (parent / name)).complete toolchain loaded).run (world.answer stop)
          (files.plant (base ++ [name]) (freshBranch name)) =
        (completed, files.plant (base ++ [name]) (freshBranch name)) ∧
      completed.appName = keptString name ∧ completed.appPackage = packageFor name ∧
      completed.buildPath = (parent / name).descend ["build", "output"] ∧
      completed.resDir = (parent / name).descend ["res"] := by
  have hroot : (parent / name).isEmpty = false := Path.isEmpty_div parent h.isName.ne_empty
  obtain ⟨hname, happ, hbuild, hres⟩ := loaded_eq (Project.mk (parent / name)) name
  have hload := h.run_loadConfig hgrown stop
  generalize (initialConfig name).reread.mapPaths (Project.mk (parent / name)).anchor = loaded
    at hload hname happ hbuild hres
  obtain ⟨completed, hcomplete, library, entries, hcompletion⟩ : ∃ completed,
      ((Project.mk (parent / name)).complete toolchain loaded).run (world.answer stop)
        (files.plant (base ++ [name]) (freshBranch name)) =
          (completed, files.plant (base ++ [name]) (freshBranch name)) ∧
      ∃ library entries,
        (Project.mk (parent / name)).completion toolchain loaded library entries = completed :=
    ⟨_, run_complete loaded, _, _, rfl⟩
  obtain ⟨hname', happ', hbuild', hres'⟩ := completion_eq hcompletion
  exact ⟨loaded, completed, hload, hcomplete, hname'.trans hname, happ'.trans happ,
    (hbuild' (hbuild ▸ Path.isEmpty_descend hroot _)).trans hbuild,
    (hres' (hres ▸ Path.isEmpty_descend hroot _)).trans hres⟩

/-- A project that is created can be opened and, with every toolchain, prepared. -/
theorem exists_of_isVacant (stop : Bool) (h : IsVacant files world.place parent name base) :
    ∃ created segment,
      (create parent name).run.run (world.answer stop) files = (.ok ⟨parent / name⟩, created) ∧
      (openAt (parent / name)).run.run (world.answer stop) created = (.ok ⟨parent / name⟩, created) ∧
      ∀ toolchain, ∃ config last,
        ((Project.mk (parent / name)).prepare toolchain).run.run (world.answer stop) created =
          (.ok config, last) ∧
        (Project.mk (parent / name)).IsReady world.place (base ++ [name]) name segment config
          last := by
  obtain ⟨segment, hsegment, hpackage, hsize⟩ := exists_packageFor name
  have hshort : (String.ofList segment).utf8ByteSize ≤ maxNameBytes :=
    hsize.trans (max_le (by decide) h.short)
  obtain ⟨hcreate, hgrown⟩ := h.grows_create stop
  refine ⟨_, segment, hcreate, h.run_openAt hgrown, fun toolchain => ?_⟩
  obtain ⟨loaded, completed, hload, hcomplete, hname, happ, hbuild, hres⟩ :=
    h.exists_completed hgrown stop toolchain
  obtain ⟨hprepared, hgrown'⟩ := h.grows_prepareCompleted stop hgrown hsegment hpackage hshort happ
    hbuild rfl rfl rfl
  have hprepare : ((Project.mk (parent / name)).prepare toolchain).run.run (world.answer stop)
      (files.plant (base ++ [name]) (freshBranch name)) = _ :=
    (run_bind_ok hload).trans ((run_bind_ok (run_always hcomplete)).trans hprepared)
  obtain ⟨sources, hsources⟩ := (Project.mk (parent / name)).exists_withGenerated_eq
    { completed with manifestPath := (Project.mk (parent / name)).manifestPath }
  rw [hsources] at hprepare
  exact ⟨_, _, hprepare, h.isReady hsegment hpackage hgrown' hname happ hbuild hres rfl rfl rfl⟩

/-- A project is created in the root of a file system, opened and prepared. -/
theorem isReady_sample : ∃ created segment config last,
    (create (Path.mk "/") "My App").run.run (Builder.idleWorld.answer false) FileSystem.root =
      (.ok ⟨Path.mk "/" / "My App"⟩, created) ∧
    (openAt (Path.mk "/" / "My App")).run.run (Builder.idleWorld.answer false) created =
      (.ok ⟨Path.mk "/" / "My App"⟩, created) ∧
    ((Project.mk (Path.mk "/" / "My App")).prepare Builder.sampleBuilder.toolchain).run.run
      (Builder.idleWorld.answer false) created = (.ok config, last) ∧
    (Project.mk (Path.mk "/" / "My App")).IsReady [] ["My App"] "My App" segment config last := by
  have hvacant : IsVacant FileSystem.root Builder.idleWorld.place (Path.mk "/") "My App" [] :=
    { find_parent := ⟨Mode.newDirectory, rfl⟩
      isValid := by decide
      isName := by decide
      short := by decide
      vacant := fun names => FileSystem.get?_root_of_ne_nil (List.cons_ne_nil "My App" names)
      changeable := by decide +kernel
      usable := by decide +kernel }
  obtain ⟨created, segment, hcreate, hopen, hprepare⟩ := exists_of_isVacant false hvacant
  obtain ⟨config, last, hrun, hready⟩ := hprepare Builder.sampleBuilder.toolchain
  exact ⟨created, segment, config, last, hcreate, hopen, hrun, hready⟩

/-- The working directory, named by a path that ends in slashes. -/
def slashes (count : Nat) : Path :=
  ⟨String.ofList ('.' :: List.replicate count '/')⟩

theorem utf8ByteSize_slashes (count : Nat) : (slashes count).text.utf8ByteSize = count + 1 := by
  have hsize : ∀ c ∈ '.' :: List.replicate count '/', c.utf8Size = 1 :=
    List.forall_mem_cons.mpr ⟨by decide, fun c hc => by
      rw [(List.mem_replicate.mp hc).2]
      decide⟩
  rw [slashes, String.utf8ByteSize_ofList, utf8Len_eq_length hsize, List.length_cons,
    List.length_replicate]

/-- A path of not too many slashes leads to the working directory. -/
theorem find_slashes {count : Nat} (h : count < maxPathBytes) :
    FileSystem.root.find [] (slashes count) = .ok ([], Node.newDirectory) := by
  have hnames : (slashes count).names = ["."] := by
    rw [Path.names, Path.segments, slashes, String.toList_ofList]
    have hsplit := Text.split_append_replicate '/' ['.'] count
    rw [List.singleton_append] at hsplit
    rw [hsplit]
    simp [Text.split]
  have hnull : '\x00' ∉ (slashes count).text.toList := by
    rw [slashes, String.toList_ofList, List.mem_cons, not_or]
    exact ⟨by decide, fun hmem => absurd (List.mem_replicate.mp hmem).2 (by decide)⟩
  have hempty : (slashes count).isEmpty = false := by
    rw [Path.isEmpty, slashes]
    simp
  refine FileSystem.find_eq_ok_iff.mpr (FileSystem.resolve_eq_ok_iff.mpr
    ⟨⟨hnull, hempty, (utf8ByteSize_slashes count).trans_le h⟩, ?_⟩)
  rw [hnames, ite_self]
  refine .onward ?_ (.here FileSystem.get?_root_nil)
  rw [FileSystem.pass, if_neg (by decide +kernel), if_pos rfl]

/-- No project is created in a directory whose path is almost too long, nor in one that may only be
read. -/
theorem exists_uncreated :
    (∃ parent, IsOffered FileSystem.root [] parent "app" [] ∧
      ((create parent "app").run.run (Builder.idleWorld.answer false) FileSystem.root).1.toBool =
        false) ∧
    ∃ files, IsOffered files [] (Path.mk "/d") "app" ["d"] ∧
      ((create (Path.mk "/d") "app").run.run (Builder.idleWorld.answer false) files).1.toBool =
        false := by
  refine ⟨⟨slashes 4074, ?_, ?_⟩, FileSystem.root.put ["d"] (.directory 0o555), ?_,
    by decide +kernel⟩
  · exact ⟨⟨_, find_slashes (by decide)⟩, by decide, by decide, by decide,
      fun names => FileSystem.get?_root_of_ne_nil (List.cons_ne_nil "app" names)⟩
  · rcases hcreate : (create (slashes 4074) "app").run.run (Builder.idleWorld.answer false)
      FileSystem.root with ⟨_ | project, last⟩
    · rfl
    · exfalso
      obtain ⟨-, -, hlong⟩ := isUsable_of_run_create hcreate
      have hlead := (slashes 4074).utf8ByteSize_le_lead
      have hname : "app".utf8ByteSize = 3 := by decide
      have hadded : Path.addedBytes ["res", "values", "strings.xml"] = 23 := by decide
      rw [Path.addedBytes] at hadded
      rw [utf8ByteSize_slashes] at hlead
      rw [Path.text_descend _ (by decide) (by decide), String.utf8ByteSize_append,
        Path.text_div (by decide), String.utf8ByteSize_append, hadded, hname, maxPathBytes] at hlong
      omega
  · refine ⟨⟨0o555, rfl⟩, by decide, by decide, by decide, fun names => ?_⟩
    rw [FileSystem.get?_put_of_ne (by simp), FileSystem.get?_root_of_ne_nil (by simp)]

end Project

end SketchApk
