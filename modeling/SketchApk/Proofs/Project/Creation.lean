import SketchApk.Proofs.Config.RoundTrip
import SketchApk.Proofs.Plan.Creating
import SketchApk.Proofs.Project.Steps
import SketchApk.Proofs.Project.Template

/-!
# Creating a project

A project is created in a directory in which there is nothing of its name. It consists of its
directories, a first sketch, a table of strings with the name of the application, and a
configuration. It can be opened, and its configuration can be loaded.

The paths of a project are so long that they can be used if that of the activity can be used, which
is longer than the others.

## Main definitions

* `Project.freshBranch` : what a project consists of that has been created.
* `Project.IsOffered` : a project may have a name in a directory.
* `Project.IsVacant` : a project can be created with the name in the directory.

## Main statements

* `Project.IsVacant.grows_create` : a project is created.
* `Project.IsVacant.run_openAt` : a project that has been created can be opened.
* `Project.IsVacant.run_loadConfig` : the configuration of a new project can be loaded.
* `Project.isUsable_of_run_create` : the paths of a project that has been created can be used.
-/

namespace SketchApk

open Plan Attempt

namespace Project

variable {world : World} {stop : Bool} {files : FileSystem} {base : Location} {parent : Path}
  {name : String} {segment : List Char} {branch next : Branch} {names : List String}

/-! ### The paths of a project -/

/-- The names that lead from the root to the activity of a package. -/
def activityNames (segment : List Char) : List String :=
  ["build", "src", "com", "example", String.ofList segment, "MainActivity.java"]

theorem activityPath_eq (h : IsPackageSegment segment) (root : Path) :
    (Project.mk root).activityPath ("com.example." ++ String.ofList segment) =
      root.descend (activityNames segment) := by
  have hhead : (String.ofList segment).toList.head? ≠ some '/' := fun hhead =>
    h.isName.not_mem (List.mem_of_mem_head? hhead)
  change (Project.mk root).generatedDir.join ⟨_⟩ / "MainActivity.java" = _
  rw [h.substituted_eq, Path.join_name _ (by decide) (by simp)]
  change ((Project.mk root).generatedDir / "com").join ⟨_⟩ / "MainActivity.java" = _
  rw [Path.join_name _ (by decide) hhead]
  rfl

/-- The path of the table of strings as the names that lead to it. -/
theorem stringsPath_eq (project : Project) :
    project.resDir / "values/strings.xml" =
      project.root.descend ["res", "values"] / "strings.xml" := by
  have hslash : "values/strings.xml" = "values" ++ "/" ++ "strings.xml" := by decide
  rw [hslash]
  exact Path.join_name _ (by decide) (by simp)

/-- Names that may stand behind the root of a project. With 40 bytes they add no more to its path
than the names that lead to an activity. -/
def AreModest (names : List String) : Prop :=
  (∀ name ∈ names, Path.IsName name ∧ name.utf8ByteSize ≤ maxNameBytes ∧ '\x00' ∉ name.toList) ∧
    Path.addedBytes names ≤ 40

instance : DecidablePred AreModest := fun _ => inferInstanceAs (Decidable (_ ∧ _))

/-- A path leads to a directory in which there is nothing of a name, and a project may have the
name. -/
structure IsOffered (files : FileSystem) (cwd : Location) (parent : Path) (name : String)
    (base : Location) : Prop where
  find_parent : ∃ mode, files.find cwd parent = .ok (base, .directory mode)
  isValid : isValidName name = true
  isName : Path.IsName name
  short : name.utf8ByteSize ≤ maxNameBytes
  vacant : ∀ names, files.get? (base ++ [name] ++ names) = none

/-- In the directory entries may be created, and the paths of a project in it can be used. -/
structure IsVacant (files : FileSystem) (cwd : Location) (parent : Path) (name : String)
    (base : Location) : Prop extends IsOffered files cwd parent name base where
  changeable : files.isChangeable base = true
  usable : ((Project.mk (parent / name)).activityPath (packageFor name)).IsUsable

theorem IsVacant.isSite {cwd : Location} (h : IsVacant files cwd parent name base) :
    files.IsSite cwd parent name base := by
  obtain ⟨mode, hfind⟩ := h.find_parent
  have husable := (FileSystem.resolve_eq_ok_iff.mp (FileSystem.find_eq_ok_iff.mp hfind)).1
  exact ⟨husable.2.1, .of_find hfind, h.changeable, h.isName, h.short, h.vacant⟩

/-- The paths of a project can be used, since none is longer than that of the activity. -/
theorem IsVacant.isUsable {cwd : Location} (h : IsVacant files cwd parent name base)
    (hnames : AreModest names) : ((parent / name).descend names).IsUsable := by
  obtain ⟨segment, hsegment, hpackage, -⟩ := exists_packageFor name
  have husable := h.usable
  rw [hpackage, activityPath_eq hsegment] at husable
  refine husable.descend_of_le h.isSite.isName ?_ (fun name hmem => (hnames.1 name hmem).1)
    (fun name hmem => (hnames.1 name hmem).2.2) (hnames.2.trans ?_)
  · simpa [activityNames] using
      ⟨by decide, by decide, by decide, by decide, hsegment.isName, by decide⟩
  · have hfront : Path.addedBytes ["build", "src", "com", "example"] = 22 := by decide
    have hback : Path.addedBytes ["MainActivity.java"] = 18 := by decide
    have hall : Path.addedBytes (activityNames segment) = 22 +
        (Path.addedBytes [String.ofList segment] + 18) := by
      rw [← hfront, ← hback, ← Path.addedBytes_append, ← Path.addedBytes_append]
      rfl
    omega

/-- Under the path of a node of the project the node is found. -/
theorem IsVacant.find {cwd : Location} {node : Node} (h : IsVacant files cwd parent name base)
    (hgrown : branch.IsGrown) (names : List String) (hlookup : branch.lookup names = some node)
    (hnames : AreModest names) :
    (files.plant (base ++ [name]) branch).find cwd ((parent / name).descend names) =
      .ok (base ++ [name] ++ names, node) :=
  h.isSite.find hgrown hlookup (h.isUsable hnames)

/-! ### Creating -/

/-- What a project consists of that has been created with a name. -/
def freshBranch (name : String) : Branch :=
  [(["build.properties"], .file Mode.newFile (.ofText (initialConfig name).toProperties)),
    (["res", "values", "strings.xml"], .file Mode.newFile (.ofText (Template.appName name))),
    (["res", "values"], .newDirectory),
    (["src", "main.pde"], .file Mode.newFile (.ofText Template.firstSketch)),
    (["build"], .newDirectory), (["data"], .newDirectory), (["res"], .newDirectory),
    (["src"], .newDirectory), ([], .newDirectory)]

section Create

variable (h : IsVacant files world.place parent name base)

include h

/-- There is nothing under the path of the root. -/
theorem IsVacant.resolve_root (last : LastName) :
    files.resolve world.place last (parent / name) = .ok (.vacant (base ++ [name]) false) := by
  have hnone : files.get? (base ++ [name]) = none := by simpa using h.isSite.vacant []
  have husable : ((parent / name).descend []).IsUsable := h.isUsable (by decide)
  rw [Path.descend_nil] at husable
  rw [h.isSite.hasParent.resolve_div h.isSite.isName husable h.isSite.admits (by simp [hnone]),
    FileSystem.targetAt, hnone]

/-- The root is created. -/
theorem IsVacant.grows_createDirectory_root :
    (createDirectory (parent / name)).Grows world stop files (base ++ [name]) [] ()
      [([], .newDirectory)] := by
  obtain ⟨containing, hancestors⟩ :=
    Path.exists_ancestorsUpTo (parent / name).text.length (parent / name)
  have hmake : files.makeDirectory world.place (parent / name) =
      .ok (files.plant (base ++ [name]) [([], .newDirectory)]) := by
    rw [FileSystem.makeDirectory_div parent h.isSite.isName, h.resolve_root]
    dsimp only
    rw [FileSystem.create, List.dropLast_concat, h.isSite.changeable, if_pos rfl]
    simp only [FileSystem.plant, List.append_nil]
  refine ⟨run_during_ok (run_makeDirectories ?_), .root⟩
  rw [Path.ancestors, hancestors]
  exact run_makeChain_of_ok (Path.isEmpty_div parent h.isSite.isName.ne_empty) hmake

theorem IsVacant.grows_createDirectory (names : List String) (next : Branch)
    (hgrown : branch.IsGrown) (hnames : AreModest names)
    (hinits : ∀ front ∈ names.inits, branch.lookup front = none ∨
      branch.lookup front = some .newDirectory)
    (hnext : branch.withDirectories [] names = next) :
    (createDirectory ((parent / name).descend names)).Grows world stop files (base ++ [name])
      branch () next :=
  .createDirectory h.isSite hgrown
    (.of_inits (fun name hmem => ⟨(hnames.1 name hmem).1, (hnames.1 name hmem).2.1⟩) hinits)
    (h.isUsable hnames) hnext

theorem IsVacant.grows_writeTextFile (names : List String) (target : String) (next : Branch)
    (hgrown : branch.IsGrown) (hnames : AreModest (names ++ [target]))
    (hinits : ∀ front ∈ names.inits, branch.lookup front = none ∨
      branch.lookup front = some .newDirectory)
    (hnew : branch.lookup (names ++ [target]) = none) (text : String)
    (hnext : branch.withDirectories [] names = next) :
    (writeTextFile ((parent / name).descend names / target) text).Grows world stop files
      (base ++ [name]) branch ()
      ((names ++ [target], .file Mode.newFile (.ofText text)) :: next) := by
  obtain ⟨hfront, htarget⟩ := List.forall_mem_append.mp hnames.1
  obtain ⟨hname, hshort, -⟩ := List.forall_mem_singleton.mp htarget
  have husable := h.isUsable hnames
  rw [Path.descend_concat] at husable
  exact .writeTextFile h.isSite hgrown
    (.of_inits (fun name hmem => ⟨(hfront name hmem).1, (hfront name hmem).2.1⟩) hinits) hnew hname
    hshort husable text hnext

/-- The directories of the project are created one after the other. -/
theorem IsVacant.grows_directories :
    ((Project.mk (parent / name)).directories.forM createDirectory).Grows world stop files
      (base ++ [name]) [] () ((freshBranch name).drop 4) := by
  simp only [directories, List.forM]
  refine h.grows_createDirectory_root.bind fun hgrown => ?_
  refine (h.grows_createDirectory ["src"] ((freshBranch name).drop 7) hgrown (by decide)
    (by simp [List.lookup_cons]) rfl).bind fun hgrown => ?_
  refine (h.grows_createDirectory ["res"] ((freshBranch name).drop 6) hgrown (by decide)
    (by simp [freshBranch, List.lookup_cons]) rfl).bind fun hgrown => ?_
  refine (h.grows_createDirectory ["data"] ((freshBranch name).drop 5) hgrown (by decide)
    (by simp [freshBranch, List.lookup_cons]) rfl).bind fun hgrown => ?_
  exact (h.grows_createDirectory ["build"] ((freshBranch name).drop 4) hgrown (by decide)
    (by simp [freshBranch, List.lookup_cons]) rfl).bind fun hgrown => .of_pure hgrown ()

/-- The project is created with its directories, its first sketch and its configuration. -/
theorem IsVacant.grows_create (stop : Bool) :
    (create parent name).Grows world stop files (base ++ [name]) [] ⟨parent / name⟩
      (freshBranch name) := by
  have hmissing : (pathExists (parent / name)).run (world.answer stop) files = (false, files) := by
    rw [run_pathExists, FileSystem.inspect, FileSystem.find, h.resolve_root]
    rfl
  have hpde : mainSketch ++ ".pde" = "main.pde" := by decide
  rw [create, if_pos h.isValid]
  refine .bind_of_run (run_always hmissing) ?_
  dsimp only
  rw [if_neg Bool.false_ne_true, hpde, stringsPath_eq]
  refine h.grows_directories.bind fun hgrown => ?_
  refine (h.grows_writeTextFile ["src"] "main.pde" ((freshBranch name).drop 4) hgrown (by decide)
    (by simp [freshBranch, List.lookup_cons]) rfl Template.firstSketch rfl).bind fun hgrown => ?_
  refine (h.grows_writeTextFile ["res", "values"] "strings.xml" ((freshBranch name).drop 2) hgrown
    (by decide) (by simp [freshBranch, List.lookup_cons]) rfl (Template.appName name) rfl).bind
      fun hgrown => ?_
  exact (h.grows_writeTextFile [] "build.properties" ((freshBranch name).drop 1) hgrown (by decide)
    (by simp [freshBranch, List.lookup_cons]) rfl (initialConfig name).toProperties rfl).bind
      fun hgrown => .of_pure hgrown _

end Create

/-- The path of the table of strings of a project that has been created can be used. -/
theorem isUsable_of_run_create {project : Project} {last : FileSystem}
    (h : (create parent name).run.run (world.answer stop) files = (.ok project, last)) :
    ((parent / name).descend ["res", "values", "strings.xml"]).IsUsable := by
  rw [create] at h
  split_ifs at h with hvalid
  swap
  · obtain ⟨_, _, hfail, -⟩ := exists_of_run_bind h
    cases hfail
  obtain ⟨found, _, -, h⟩ := exists_of_run_bind h
  dsimp only at h
  split_ifs at h
  · obtain ⟨_, _, hfail, -⟩ := exists_of_run_bind h
    cases hfail
  obtain ⟨_, _, -, h⟩ := exists_of_run_bind h
  obtain ⟨_, _, -, h⟩ := exists_of_run_bind h
  obtain ⟨_, _, hwrite, -⟩ := exists_of_run_bind h
  rw [stringsPath_eq] at hwrite
  exact isUsable_of_run_writeTextFile hwrite

/-! ### Opening and loading -/

/-- The configuration of a project is loaded from a text that describes one. -/
theorem run_loadConfig_of_read {project : Project} {text : String} {config : BuildConfig}
    (hread : files.read world.place project.propertiesPath = .ok (.ofText text))
    (hparse : BuildConfig.ofText text = .ok config) :
    project.loadConfig.run.run (world.answer stop) files =
      (.ok (config.mapPaths project.anchor), files) := by
  have hload : (BuildConfig.load project.propertiesPath).run.run (world.answer stop) files =
      (.ok config, files) := by
    refine (run_bind_ok (run_adapt_ok (run_readText hread))).trans ?_
    rw [hparse]
    rfl
  exact run_bind_ok hload

section Open

variable (h : IsVacant files world.place parent name base) (hgrown : (freshBranch name).IsGrown)

include h hgrown

theorem IsVacant.find_properties :
    (files.plant (base ++ [name]) (freshBranch name)).find world.place
      (Project.mk (parent / name)).propertiesPath =
        .ok (base ++ [name] ++ ["build.properties"],
          .file Mode.newFile (.ofText (initialConfig name).toProperties)) :=
  h.find hgrown ["build.properties"] rfl (by decide)

/-- The new project can be opened. -/
theorem IsVacant.run_openAt : (openAt (parent / name)).run.run (world.answer stop)
      (files.plant (base ++ [name]) (freshBranch name)) =
    (.ok ⟨parent / name⟩, files.plant (base ++ [name]) (freshBranch name)) := by
  have hfile : (isFile (Project.mk (parent / name)).propertiesPath).run (world.answer stop)
      (files.plant (base ++ [name]) (freshBranch name)) =
        (true, files.plant (base ++ [name]) (freshBranch name)) := by
    rw [run_isFile, FileSystem.inspect, h.find_properties hgrown]
    rfl
  exact run_bind_ok (run_always hfile)

/-- The configuration of the new project is loaded. -/
theorem IsVacant.run_loadConfig (stop : Bool) :
    (Project.mk (parent / name)).loadConfig.run.run (world.answer stop)
      (files.plant (base ++ [name]) (freshBranch name)) =
    (.ok ((initialConfig name).reread.mapPaths (Project.mk (parent / name)).anchor),
      files.plant (base ++ [name]) (freshBranch name)) := by
  have hreadable : Mode.newFile.isReadable = true := by decide
  exact run_loadConfig_of_read
    (FileSystem.read_eq_ok_iff.mpr ⟨_, _, h.find_properties hgrown, hreadable⟩)
    (initialConfig name).ofText_toProperties

end Open

/-- The saved configuration of a new project, when it has been loaded. -/
theorem loaded_eq (project : Project) (name : String) :
    let loaded := (initialConfig name).reread.mapPaths project.anchor
    loaded.appName = keptString name ∧ loaded.appPackage = packageFor name ∧
      loaded.buildPath = project.root.descend ["build", "output"] ∧
      loaded.resDir = project.root.descend ["res"] := by
  have hmapped (f : Path → Path) (config : BuildConfig) :
      (config.reread.mapPaths f).buildPath = f ⟨keptString config.buildPath.text⟩ ∧
        (config.reread.mapPaths f).resDir = f ⟨keptString config.resDir.text⟩ := ⟨rfl, rfl⟩
  obtain ⟨hbuild, hres⟩ := hmapped project.anchor (initialConfig name)
  have hkept : keptString (packageFor name) = packageFor name := by
    obtain ⟨segment, -, hpackage, -⟩ := exists_packageFor name
    refine keptString_eq_self_iff.mpr (BuildConfig.isFirm_iff.mpr fun c hc hblank => ?_)
    have hhead : ("com.example." ++ String.ofList segment).toList.head? = some 'c' := by
      rw [String.toList_append]
      rfl
    rw [hpackage, hhead] at hc
    obtain rfl := Option.some.inj hc
    cases hblank
  have houtput : keptString "build/output" = "build" ++ "/" ++ "output" := by decide
  have hname : keptString "res" = "res" := by decide
  refine ⟨rfl, hkept, hbuild.trans ?_, hres.trans ?_⟩
  · change project.anchor ⟨keptString "build/output"⟩ = _
    rw [houtput, anchor, if_neg (by decide)]
    exact Path.join_name _ (by decide) (by decide)
  · change project.anchor ⟨keptString "res"⟩ = _
    rw [hname, anchor, if_neg (by decide)]
    rfl

end Project

end SketchApk
