import SketchApk.Proofs.Plan.Resemblance
import SketchApk.Proofs.Project.Sources
import SketchApk.Proofs.Project.Targets

/-!
# Preparing a project again

Preparing a project reads the saved configuration, looks for the runtime library and for data, and
generates the sources anew. It removes what was generated before. So what an earlier preparation or
build has left in the directory of the build does not matter: two file systems that differ only there
are prepared with the same configuration, the same manifest and the same generated sources.

A manifest that is there is written over and keeps its permission bits, so the two manifests are the
same in content.

## Main definitions

* `Project.SameProject` : two file systems that differ in the directory of the build alone.
* `Project.SamePreparation` : what two preparations have in common.

## Main statements

* `Project.resembles_of_run_generateSource` : a source is generated alike.
* `Project.resembles_of_run_mapM_generateSource` : all sources are generated alike.
* `Project.samePreparation_of_run_prepare` : a project is prepared alike.
-/

namespace SketchApk

namespace FileSystem

variable {files other : FileSystem} {cwd place there : Location} {base path : Path}
  {name : String} {rest : List String} {last : LastName} {target : Target}

/-- Where a path leads to a directory that stays below another one. -/
theorem HasDirectory.place_eq_of_within (h : files.HasDirectory cwd base place)
    (hfree : files.LinkFreeAlong place rest) (hwithin : base.IsWithin path rest) (hrest : rest ≠ [])
    (hnames : ∀ name ∈ rest, Path.IsName name) (hpath : files.HasDirectory cwd path there) :
    there = place ++ rest := by
  obtain ⟨wants, mode, hleads⟩ := hpath
  rw [Path.start, hwithin.names_eq, hwithin.isAbsolute_eq] at hleads
  obtain ⟨above, bits, links, asDirectory, habove, -, hlast⟩ :=
    hleads.exists_of_append hrest base.wantsDirectory
  obtain rfl := h.eq_of_sameLinks (.refl files) ⟨_, bits, habove⟩
  have hfilter : rest.filter (· ≠ ".") = rest :=
    List.filter_eq_self.mpr fun name hname => decide_eq_true (hnames name hname).ne_dot
  rw [← hfilter] at hfree
  exact (hfree.place_eq hlast hwithin.not_mem).trans (congrArg (above ++ ·) hfilter)

/-- An entry is found alike in a directory that is there in two file systems, if it is no link. -/
theorem HasDirectory.find_div_eq (h : files.HasDirectory cwd base place)
    (h' : other.HasDirectory cwd base place) (hname : Path.IsName name)
    (hadmits : files.Admits place name) (hadmits' : other.Admits place name)
    (hlink : ∀ path, files.get? (place ++ [name]) ≠ some (.link path))
    (hget : files.get? (place ++ [name]) = other.get? (place ++ [name])) :
    files.find cwd (base / name) = other.find cwd (base / name) := by
  rw [FileSystem.find, FileSystem.find]
  by_cases husable : (base / name).IsUsable
  · rw [h.resolve_div hname husable hadmits hlink,
      h'.resolve_div hname husable hadmits' fun path => hget ▸ hlink path, targetAt, targetAt, hget]
  · obtain ⟨error, herror⟩ := exists_resolve_eq_error husable
    rw [herror, herror]

/-- Names without links lead where they did when nothing on their way is taken away. -/
theorem descend_congr {names : List String} {asDirectory : Bool}
    {jump jump' : Location → Path → List String → Except FileError Target}
    (hnames : ∀ name ∈ names, Path.IsName name) (hfree : files.LinkFreeAlong place names)
    (h : ∀ front, front <+: names → files.get? (place ++ front) = other.get? (place ++ front)) :
    files.descend last asDirectory jump place names =
      other.descend last asDirectory jump' place names := by
  induction names generalizing place with
  | nil =>
    have hget : files.get? place = other.get? place := by simpa using h [] List.nil_prefix
    rw [descend_nil, descend_nil, hget]
  | cons name rest ih =>
    obtain ⟨hname, hrest⟩ := List.forall_mem_cons.mp hnames
    have hplace : files.get? place = other.get? place := by simpa using h [] List.nil_prefix
    have hentry : files.get? (place ++ [name]) = other.get? (place ++ [name]) :=
      h [name] (List.cons_prefix_cons.mpr ⟨rfl, List.nil_prefix⟩)
    have hpass : files.pass last asDirectory place name rest =
        other.pass last asDirectory place name rest := by
      rw [pass, pass, isSearchable, isSearchable, hplace, arrive, arrive, hentry]
    rw [descend_cons, descend_cons, ← hpass]
    cases hstep : files.pass last asDirectory place name rest with
    | ended | blocked => rfl
    | onward next =>
      obtain rfl : next = place ++ [name] := by
        rcases cases_of_pass_onward hstep with ⟨hdot, -⟩ | ⟨hdots, -⟩ | ⟨-, -, hnext, -⟩
        · exact absurd hdot hname.ne_dot
        · exact absurd hdots hname.ne_dots
        · exact hnext
      refine ih hrest hfree.of_cons fun front hfront => ?_
      rw [List.append_assoc]
      exact h _ (List.cons_prefix_cons.mpr ⟨rfl, hfront⟩)
    | linked target =>
      obtain ⟨-, -, hlink⟩ := of_pass_linked hstep
      exact absurd hlink
        (hfree [name] target (List.cons_ne_nil _ _) (List.cons_prefix_cons.mpr ⟨rfl, List.nil_prefix⟩))

/-- A path without links that does not lead through a directory is followed as if the directory were
not there. -/
theorem find_eraseTree_of_not_prefix (habsolute : path.isAbsolute = true)
    (hnames : ∀ name ∈ path.names, Path.IsName name) (hfree : files.LinkFreeAlong [] path.names)
    (hout : ¬there <+: path.names) : (files.eraseTree there).find cwd path = files.find cwd path := by
  have hway (front : List String) (hfront : front <+: path.names) :
      files.get? ([] ++ front) = (files.eraseTree there).get? ([] ++ front) := by
    rw [get?_eraseTree, if_neg]
    rw [List.nil_append, List.isPrefixOf_iff_prefix]
    exact fun hbelow => hout (hbelow.trans hfront)
  have hdescend (jump jump' : Location → Path → List String → Except FileError Target) :
      files.descend .followed path.wantsDirectory jump [] path.names =
        (files.eraseTree there).descend .followed path.wantsDirectory jump' [] path.names :=
    descend_congr hnames hfree hway
  obtain ⟨links, hlinks⟩ : ∃ links, maxLinks = links + 1 := ⟨_, rfl⟩
  rw [FileSystem.find, FileSystem.find, resolve, resolve, habsolute, hlinks, resolveNames,
    resolveNames]
  simp only [if_true]
  rw [hdescend]

theorem LinkFree.put {node : Node} (h : files.LinkFree place) (hnode : ∀ path, node ≠ .link path) :
    (files.put there node).LinkFree place := by
  intro rest path hlink
  rw [get?_put] at hlink
  split at hlink
  · exact hnode path (Option.some.inj hlink)
  · exact h rest path hlink

end FileSystem

namespace Project

open Plan

variable {project : Project} {toolchain : Toolchain} {world : World} {stop : Bool}
  {appPackage : String} {cwd place : Location} {config config' : BuildConfig}
  {files other before before' last last' : FileSystem} {nodes texts : Location → Prop}
  {names : List String} {sources : List (List String)} {values values' : List (Option String)}

/-- Two file systems with a project differ only in what is in the directory of its build. There are
no links in the project, and the toolchain is outside that directory: what is there does not matter
when the runtime library is looked for. -/
structure SameProject (project : Project) (toolchain : Toolchain) (cwd place : Location)
    (files other : FileSystem) : Prop where
  hasRoot : files.HasDirectory cwd project.root place
  get?_eq {there : Location} (h : ¬place ++ ["build"] <+: there) : files.get? there = other.get? there
  linkFree : files.LinkFree place
  linkFree_other : other.LinkFree place
  find_runtime : (files.eraseTree (place ++ ["build"])).find cwd toolchain.runtimeJar =
    files.find cwd toolchain.runtimeJar
  find_runtime_other : (other.eraseTree (place ++ ["build"])).find cwd toolchain.runtimeJar =
    other.find cwd toolchain.runtimeJar

/-- Two preparations have answered with the same configuration and have left the same manifest and
the same generated sources. -/
structure SamePreparation (project : Project) (cwd place : Location) (config config' : BuildConfig)
    (last last' : FileSystem) : Prop where
  config_eq : config = config'
  find_manifest : ∃ there mode mode' content,
    last.find cwd config.manifestPath = .ok (there, .file mode content) ∧
      last'.find cwd config.manifestPath = .ok (there, .file mode' content)
  /-- The directory of generated sources has the same tree. -/
  get?_generated (names : List String) :
    last.get? (generatedPlace place names) = last'.get? (generatedPlace place names)

namespace SameProject

variable (h : project.SameProject toolchain cwd place files other)

include h

theorem sameLinks : files.SameLinks other := by
  intro there path
  by_cases hbuild : place ++ ["build"] <+: there
  · obtain ⟨rest, rfl⟩ := hbuild
    rw [List.append_assoc]
    exact iff_of_false (h.linkFree _ path) (h.linkFree_other _ path)
  · rw [h.get?_eq hbuild]

theorem resembles : FileSystem.Resembles (fun there => ¬place ++ ["build"] <+: there)
    (fun _ => False) files other :=
  ⟨h.get?_eq, False.elim, h.sameLinks⟩

/-- An entry of the project outside the directory of the build is found alike. -/
theorem find_div_eq (hroot : other.HasDirectory cwd project.root place) {name : String}
    (hname : Path.IsName name) (hadmits : files.Admits place name)
    (hbuild : name ≠ "build") :
    files.find cwd (project.root / name) = other.find cwd (project.root / name) := by
  have hplace : files.get? place = other.get? place :=
    h.get?_eq fun hprefix => absurd hprefix.length_le (by simp)
  have hadmits' : other.Admits place name :=
    ⟨by rw [FileSystem.isSearchable, ← hplace]; exact hadmits.searchable, hadmits.ne_dot,
      hadmits.ne_dots, hadmits.short⟩
  exact h.hasRoot.find_div_eq hroot hname hadmits hadmits' (h.linkFree [name])
    (h.get?_eq fun hprefix => by simp_all)

theorem find_runtime_eq : files.find cwd toolchain.runtimeJar =
    other.find cwd toolchain.runtimeJar := by
  rw [← h.find_runtime, ← h.find_runtime_other]
  congr 1
  refine FileSystem.ext fun there => ?_
  rw [FileSystem.get?_eraseTree, FileSystem.get?_eraseTree]
  split
  · rfl
  · rename_i hbuild
    exact h.get?_eq fun hprefix => hbuild (List.isPrefixOf_iff_prefix.mpr hprefix)

theorem list_dataDir_eq (hroot : other.HasDirectory cwd project.root place)
    (hsearch : files.isSearchable place = true) :
    files.list cwd project.dataDir = other.list cwd project.dataDir := by
  have hname : Path.IsName "data" := by decide
  have hfind : files.find cwd project.dataDir = other.find cwd project.dataDir :=
    h.find_div_eq hroot hname ⟨hsearch, hname.ne_dot, hname.ne_dots, by decide⟩ (by decide)
  rw [FileSystem.list, FileSystem.list, FileSystem.findListable, FileSystem.findListable, ← hfind]
  rcases hfound : files.find cwd project.dataDir with error | ⟨there, node⟩
  · rfl
  · cases node with
    | file | link => rfl
    | directory mode =>
      obtain rfl : there = place ++ ["data"] :=
        h.hasRoot.place_eq_of_within (h.linkFree.along _)
          ((Path.IsWithin.refl project.root).div hname) (List.cons_ne_nil _ _)
          (List.forall_mem_singleton.mpr hname) (.of_find hfound)
      have hbelow : files.below (place ++ ["data"]) = other.below (place ++ ["data"]) :=
        FileSystem.below_congr fun rest => h.get?_eq fun hprefix => by simp_all
      dsimp only
      split_ifs
      · rw [Except.map, Except.map, FileSystem.children, FileSystem.children, hbelow]
      · rfl

end SameProject

/-! ### The configuration -/

/-- A configuration has been loaded from the file to which its path leads. -/
theorem exists_of_run_loadConfig
    (h : project.loadConfig.run.run (world.answer stop) files = (.ok config, last)) :
    ∃ there mode content text loaded,
      files.find world.place project.propertiesPath = .ok (there, .file mode content) ∧
      content.text? = some text ∧ BuildConfig.ofText text = .ok loaded ∧
      config = loaded.mapPaths project.anchor := by
  obtain ⟨loaded, between, hload, hpure⟩ := Attempt.exists_of_run_bind h
  obtain ⟨text, middle, hread, hparse⟩ := Attempt.exists_of_run_bind hload
  obtain ⟨-, there, mode, content, hfind, htext⟩ :=
    exists_of_run_readText (Attempt.of_run_adapt hread)
  refine ⟨there, mode, content, text, loaded, hfind, htext, ?_,
    (Except.ok.inj (Prod.mk.inj hpure).1).symm⟩
  split at hparse
  · rename_i parsed hparsed
    exact hparsed.trans (congrArg Except.ok (Except.ok.inj (Prod.mk.inj hparse).1))
  · cases (Prod.mk.inj hparse).1

/-- A project that has a configuration has a root. -/
theorem Steps.isSearchable_root (steps : project.Steps toolchain world stop files) :
    ∃ place, files.HasDirectory world.place project.root place ∧
      files.isSearchable place = true := by
  obtain ⟨there, mode, content, text, loaded, hfind, -⟩ :=
    exists_of_run_loadConfig steps.run_loadConfig
  have hwithin : project.root.IsWithin project.propertiesPath ["build.properties"] :=
    (Path.IsWithin.refl project.root).div (by decide)
  have hresolve := FileSystem.find_eq_ok_iff.mp hfind
  obtain ⟨place, hplace, -⟩ :=
    FileSystem.exists_of_resolve_within hwithin (List.cons_ne_nil _ _) hresolve
  exact ⟨place, hplace, hplace.isSearchable hwithin (List.cons_ne_nil _ _) hresolve⟩

section Prepared

variable (h : project.SameProject toolchain world.place place files other)
  (steps : project.Steps toolchain world stop files)
  (steps' : project.Steps toolchain world stop other)

include h steps steps'

/-- The root is the same directory in both. -/
theorem SameProject.hasRoot_other :
    other.HasDirectory world.place project.root place ∧ files.isSearchable place = true := by
  obtain ⟨there, hroot, hsearch⟩ := steps.isSearchable_root
  obtain rfl := hroot.eq_of_sameLinks (.refl files) h.hasRoot
  obtain ⟨there', hroot', -⟩ := steps'.isSearchable_root
  obtain rfl := h.hasRoot.eq_of_sameLinks h.sameLinks hroot'
  exact ⟨hroot', hsearch⟩

/-- The completed configurations are the same. -/
theorem SameProject.completed_eq : steps.completed = steps'.completed := by
  obtain ⟨hroot, hsearch⟩ := h.hasRoot_other steps steps'
  have hname : Path.IsName "build.properties" := by decide
  have hloaded : steps.loaded = steps'.loaded := by
    obtain ⟨there, mode, content, text, loaded, hfind, htext, hparse, hconfig⟩ :=
      exists_of_run_loadConfig steps.run_loadConfig
    obtain ⟨there', mode', content', text', loaded', hfind', htext', hparse', hconfig'⟩ :=
      exists_of_run_loadConfig steps'.run_loadConfig
    have hsame : files.find world.place project.propertiesPath =
        other.find world.place project.propertiesPath :=
      h.find_div_eq hroot hname ⟨hsearch, hname.ne_dot, hname.ne_dots, by decide⟩ (by decide)
    cases hfind.symm.trans (hsame.trans hfind')
    cases htext.symm.trans htext'
    cases hparse.symm.trans hparse'
    exact hconfig.trans hconfig'.symm
  have hcomplete := steps.run_complete
  have hcomplete' := steps'.run_complete
  rw [run_complete] at hcomplete hcomplete'
  rw [← (Prod.mk.inj hcomplete).1, ← (Prod.mk.inj hcomplete').1, hloaded,
    h.list_dataDir_eq hroot hsearch, FileSystem.inspect, FileSystem.inspect, h.find_runtime_eq]

end Prepared

/-! ### The files -/

namespace Steps

variable (steps : project.Steps toolchain world stop files)
  (hroot : files.HasDirectory world.place project.root place) (hfree : files.LinkFree place)

include hroot hfree

/-- The directory of the build is in the root. -/
theorem hasBuildDir :
    steps.made.HasDirectory world.place project.buildDir (place ++ ["build"]) := by
  have hname : Path.IsName "build" := by decide
  have hfirst := sameFiles_of_run_createDirectory steps.run_buildDir
  obtain ⟨there, hthere⟩ :=
    exists_of_run_makeDirectories (Path.isEmpty_div _ hname.ne_empty : project.buildDir.isEmpty = false)
      (Attempt.of_run_during steps.run_buildDir)
  obtain rfl := (hroot.keeps hfirst.keeps).place_eq_of_within
    ((hfirst.sameLinks.linkFree hfree).along _) ((Path.IsWithin.refl project.root).div hname)
    (List.cons_ne_nil _ _) (List.forall_mem_singleton.mpr hname) hthere
  exact hthere.keeps (sameFiles_of_run_createDirectory steps.run_buildPath).keeps

/-- There are the same links from the first to the last. -/
theorem sameLinks (htree : files.IsTree) (hwell : files.WellNamed) :
    files.SameLinks steps.cleared := by
  refine steps.sameFiles_made.sameLinks.trans fun there path => ?_
  rw [steps.cleared_eq (steps.hasBuildDir hroot hfree) htree hwell, FileSystem.get?_eraseTree]
  split
  · rename_i hbelow
    obtain ⟨rest, rfl⟩ := List.isPrefixOf_iff_prefix.mp hbelow
    rw [List.append_assoc, List.append_assoc]
    have hmade := steps.sameFiles_made.sameLinks.linkFree hfree
    exact iff_of_false (hmade _ path) (by simp)
  · rfl

end Steps

section Sources

variable (hroot : files.HasDirectory world.place project.root place) (hfree : files.LinkFree place)
  (hlinks : files.SameLinks before)

include hroot hfree hlinks

/-- Where a source lies, and what is generated from it. The sources and the directory of the build
are apart. -/
theorem Generation.place_eq (hnames : ∀ name ∈ names, Path.IsName name)
    (generation : project.Generation world stop appPackage before names last) :
    generation.place = place ++ "src" :: names ∧
      generatedContent? appPackage names generation.content = some generation.written := by
  have hbetween : files.SameLinks generation.between :=
    hlinks.trans (sameFiles_of_run_makeDirectories generation.run_makeDirectories).sameLinks
  have hplace {name : String} {rest : List String} {path : Path} {kind : LastName} {target : Target}
      (hname : Path.IsName name) (hrest : ∀ name ∈ rest, Path.IsName name)
      (hwithin : project.root.IsWithin path (name :: rest))
      (hresolve : generation.between.resolve world.place kind path = .ok target) :
      target.place = place ++ name :: rest :=
    hbetween.place_eq_of_within hroot (hfree.along _) hwithin (List.cons_ne_nil _ _)
      (List.forall_mem_cons.mpr ⟨hname, hrest⟩) hresolve
  have hsource : generation.place = place ++ "src" :: names :=
    hplace (by decide) hnames (((Path.IsWithin.refl project.root).div (by decide)).descend hnames)
      (FileSystem.find_eq_ok_iff.mp generation.find_source)
  refine ⟨hsource, generation.written_eq fun _ target hresolve => ?_⟩
  have htarget : target.place = place ++ "build" :: "src" :: (generation.front ++ [generation.name]) :=
    hplace (by decide) (List.forall_mem_cons.mpr ⟨by decide, generation.isName⟩)
      (isWithin_generatedDir_descend generation.isName) hresolve
  rw [hsource, htarget]
  simp

/-- A source is generated alike in two file systems in which it is the same. -/
theorem resembles_of_run_generateSource (h : FileSystem.Resembles nodes texts before before')
    (hnodes : ∀ there, ¬place ++ ["build"] <+: there → nodes there) (hne : names ≠ [])
    (hnames : ∀ name ∈ names, Path.IsName name) {value value' : Option String}
    (hrun : (project.generateSource appPackage names).run.run (world.answer stop) before =
      (.ok value, last))
    (hrun' : (project.generateSource appPackage names).run.run (world.answer stop) before' =
      (.ok value', last')) : FileSystem.Resembles nodes texts last last' := by
  rcases (cases_of_run_generateSource hne hnames hrun).2 with ⟨hnone, rfl⟩ | ⟨⟨generation⟩⟩ <;>
    rcases (cases_of_run_generateSource hne hnames hrun').2 with ⟨hnone', rfl⟩ | ⟨⟨generation'⟩⟩
  · exact h
  · cases hnone.symm.trans generation'.names_eq
  · cases hnone'.symm.trans generation.names_eq
  · have htarget : generation.front ++ [generation.name] = generation'.front ++ [generation'.name] :=
      Option.some.inj (generation.names_eq.symm.trans generation'.names_eq)
    have hmake := generation'.run_makeDirectories
    rw [← (List.append_inj' htarget rfl).1] at hmake
    have hbetween := h.makeDirectories generation.run_makeDirectories hmake
    obtain ⟨hplace, hwritten⟩ := generation.place_eq hroot hfree hlinks hnames
    obtain ⟨hplace', hwritten'⟩ :=
      generation'.place_eq hroot hfree (hlinks.trans h.sameLinks) hnames
    -- The source is the same node in both, so it has the same content and the same bits.
    have hget := FileSystem.get?_of_find generation.find_source
    have hget' := FileSystem.get?_of_find generation'.find_source
    rw [hplace, hbetween.get?_eq (hnodes _ (by simp))] at hget
    rw [hplace'] at hget'
    obtain ⟨hmode, hcontent⟩ := Node.file.inj (Option.some.inj (hget.symm.trans hget'))
    rw [hcontent] at hwritten
    have hwrite := generation'.overwrite
    rw [← htarget, ← hmode, ← Option.some.inj (hwritten.symm.trans hwritten')] at hwrite
    obtain ⟨_, _, _, -, -, hlast⟩ := hbetween.overwrite generation.overwrite hwrite
    exact hlast.mono (fun _ => id) fun _ => .inl

/-- Sources are generated alike, one after the other. -/
theorem resembles_of_run_mapM_generateSource
    (h : FileSystem.Resembles nodes texts before before')
    (hnodes : ∀ there, ¬place ++ ["build"] <+: there → nodes there)
    (hsources : ∀ names ∈ sources, names ≠ [] ∧ ∀ name ∈ names, Path.IsName name)
    (hrun : (sources.mapM (project.generateSource appPackage)).run.run (world.answer stop) before =
      (.ok values, last))
    (hrun' : (sources.mapM (project.generateSource appPackage)).run.run (world.answer stop) before' =
      (.ok values', last')) : FileSystem.Resembles nodes texts last last' := by
  induction sources generalizing before before' values values' with
  | nil =>
    obtain ⟨-, rfl⟩ := Prod.mk.inj hrun
    obtain ⟨-, rfl⟩ := Prod.mk.inj hrun'
    exact h
  | cons names sources ih =>
    obtain ⟨⟨hne, hnames⟩, hrest⟩ := List.forall_mem_cons.mp hsources
    obtain ⟨value, between, others, hsource, hothers, -⟩ := Attempt.exists_of_run_mapM_cons hrun
    obtain ⟨value', between', others', hsource', hothers', -⟩ :=
      Attempt.exists_of_run_mapM_cons hrun'
    exact ih (hlinks.trans ((only_adds_generateSource appPackage names).sameLinks hsource))
      (resembles_of_run_generateSource hroot hfree hlinks h hnodes hne hnames hsource hsource')
      hrest hothers hothers'

end Sources

/-! ### The whole preparation -/

/-- A location is outside the directory of the build, or in that of the generated sources. -/
def IsRenewed (place there : Location) : Prop :=
  ¬place ++ ["build"] <+: there ∨ place ++ ["build", "src"] <+: there

section Whole

variable (h : project.SameProject toolchain world.place place files other) (htree : files.IsTree)
  (htree' : other.IsTree) (hwell : files.WellNamed) (hwell' : other.WellNamed)
  (steps : project.Steps toolchain world stop files)
  (steps' : project.Steps toolchain world stop other)

include h htree htree' hwell hwell'

/-- With the manifest, the two file systems are the same but for what is left of the build. -/
theorem SameProject.resembles_described : ∃ manifest mode mode' content,
    steps.described.find world.place project.manifestPath = .ok (manifest, .file mode content) ∧
    steps'.described.find world.place project.manifestPath = .ok (manifest, .file mode' content) ∧
    FileSystem.Resembles (IsRenewed place) (· = manifest) steps.described steps'.described := by
  obtain ⟨hroot', -⟩ := h.hasRoot_other steps steps'
  have hcompleted := h.completed_eq steps steps'
  have hfirst := h.resembles.makeDirectories (Attempt.of_run_during steps.run_buildDir)
    (Attempt.of_run_during steps'.run_buildDir)
  have hmade := hfirst.makeDirectories (Attempt.of_run_during steps.run_buildPath)
    (Attempt.of_run_during (hcompleted ▸ steps'.run_buildPath))
  have hcleared : FileSystem.Resembles (IsRenewed place) (fun _ => False) steps.cleared
      steps'.cleared := by
    refine ⟨fun {there} hthere => ?_, False.elim,
      (steps.sameLinks h.hasRoot h.linkFree htree hwell).symm.trans
        (h.sameLinks.trans (steps'.sameLinks hroot' h.linkFree_other htree' hwell'))⟩
    rw [steps.cleared_eq (steps.hasBuildDir h.hasRoot h.linkFree) htree hwell,
      steps'.cleared_eq (steps'.hasBuildDir hroot' h.linkFree_other) htree' hwell',
      FileSystem.get?_eraseTree, FileSystem.get?_eraseTree]
    split
    · rfl
    · rename_i hbelow
      refine hmade.get?_eq (hthere.resolve_right fun hprefix => hbelow ?_)
      rw [List.isPrefixOf_iff_prefix, List.append_assoc]
      exact hprefix
  obtain ⟨manifest, mode, mode', hfind, hfind', hdescribed⟩ :=
    hcleared.writeTextFile steps.run_manifest (hcompleted ▸ steps'.run_manifest)
  exact ⟨manifest, mode, mode', _, hfind, hfind', hdescribed.mono (fun _ => id) fun _ => .inr⟩

/-- With the generated sources, they still are, and the same sketch is shown. -/
theorem SameProject.resembles_generated {manifest : Location}
    (hdescribed : FileSystem.Resembles (IsRenewed place) (· = manifest) steps.described
      steps'.described) :
    FileSystem.Resembles (IsRenewed place) (· = manifest) steps.generated steps'.generated ∧
      steps.className = steps'.className := by
  obtain ⟨hroot', -⟩ := h.hasRoot_other steps steps'
  have hlinks : files.SameLinks steps.described :=
    (steps.sameLinks h.hasRoot h.linkFree htree hwell).trans steps.sameLinks_cleared.1
  have hlinks' : other.SameLinks steps'.described :=
    (steps'.sameLinks hroot' h.linkFree_other htree' hwell').trans steps'.sameLinks_cleared.1
  obtain ⟨source, mode, found, values, hfind, hwalk, hhalt, hfiles, hgenerate, hclasses, -⟩ :=
    steps.exists_walk hwell
  obtain ⟨source', mode', found', values', hfind', hwalk', hhalt', -, hgenerate', hclasses', -⟩ :=
    steps'.exists_walk hwell'
  have hname : Path.IsName "src" := by decide
  have hplace {files described : FileSystem} {source : Location} {mode : Mode}
      (hroot : files.HasDirectory world.place project.root place) (hfree : files.LinkFree place)
      (hlinks : files.SameLinks described)
      (hfind : described.find world.place project.sourceDir = .ok (source, .directory mode)) :
      source = place ++ ["src"] :=
    hlinks.place_eq_of_within hroot (hfree.along _) ((Path.IsWithin.refl project.root).div hname)
      (List.cons_ne_nil _ _) (List.forall_mem_singleton.mpr hname)
      (FileSystem.find_eq_ok_iff.mp hfind)
  obtain rfl := hplace h.hasRoot h.linkFree hlinks hfind
  obtain rfl := hplace hroot' h.linkFree_other hlinks' hfind'
  have hfound : found.files = found'.files :=
    FileSystem.files_walk_eq (fun rest => hdescribed.get?_eq (.inl (by simp))) hwalk hwalk' hfind
      hfind' hhalt hhalt'
  rw [← hfound, ← h.completed_eq steps steps'] at hgenerate'
  refine ⟨resembles_of_run_mapM_generateSource h.hasRoot h.linkFree hlinks hdescribed
    (fun _ => .inl) hfiles hgenerate hgenerate', ?_⟩
  have hchoose := steps.choose
  rw [hclasses, hfound, ← hclasses', steps'.choose] at hchoose
  exact (Option.some.inj hchoose).symm

end Whole

/-- Two file systems that differ in the directory of the build alone are prepared with the same
configuration, the same manifest and the same generated sources. -/
theorem samePreparation_of_run_prepare
    (h : project.SameProject toolchain world.place place files other) (htree : files.IsTree)
    (htree' : other.IsTree) (hwell : files.WellNamed) (hwell' : other.WellNamed)
    (hrun : (project.prepare toolchain).run.run (world.answer stop) files = (.ok config, last))
    (hrun' : (project.prepare toolchain).run.run (world.answer stop) other = (.ok config', last')) :
    project.SamePreparation world.place place config config' last last' := by
  obtain ⟨steps, rfl, rfl⟩ := exists_steps_of_run_prepare hrun
  obtain ⟨steps', rfl, rfl⟩ := exists_steps_of_run_prepare hrun'
  have hcompleted := h.completed_eq steps steps'
  obtain ⟨manifest, mode, mode', content, hfind, hfind', hdescribed⟩ :=
    h.resembles_described htree htree' hwell hwell' steps steps'
  obtain ⟨hgenerated, hclass⟩ :=
    h.resembles_generated htree htree' hwell hwell' steps steps' hdescribed
  have hactivity := steps'.run_activity
  rw [← hcompleted, ← hclass] at hactivity
  obtain ⟨_, _, _, -, -, hlast⟩ := hgenerated.writeTextFile steps.run_activity hactivity
  refine ⟨?_, ?_, fun names => hlast.get?_eq (.inr ⟨names, by simp [generatedPlace]⟩)⟩
  · rw [Steps.config, Steps.config, hcompleted]
  · obtain ⟨bits, content, hfound⟩ :=
      (steps.extends_described.1.trans steps.extends_described.2).find_file hfind
    obtain ⟨bits', content', hfound'⟩ :=
      (steps'.extends_described.1.trans steps'.extends_described.2).find_file hfind'
    have hmanifest : steps.config.manifestPath = project.manifestPath := by
      rw [Steps.config, withGenerated]
      split_ifs <;> rfl
    have hcontent := hlast.contentAt_eq (.inl rfl)
    rw [FileSystem.contentAt_eq_some_iff.mpr ⟨bits, FileSystem.get?_of_find hfound⟩,
      FileSystem.contentAt_eq_some_iff.mpr ⟨bits', FileSystem.get?_of_find hfound'⟩] at hcontent
    obtain rfl := Option.some.inj hcontent
    rw [hmanifest]
    exact ⟨manifest, bits, bits', content, hfound, hfound'⟩

/-- The sample project with what an earlier build has left. -/
def leftoverFiles : FileSystem :=
  (((projectFiles "appPackage=a.b\n").put ["p", "build", "src"] (.directory 0o755)).put
    ["p", "build", "src", "Old.java"] (.file 0o644 (.ofText "class Old \x7b\x7d\n"))).put
      ["p", "build", "AndroidManifest.xml"] (.file 0o600 (.ofText "old\n"))

/-- The sample project is prepared alike whether or not it has been built before. -/
theorem samePreparation_sample : ∃ config last config' last',
    samplePreparation (projectFiles "appPackage=a.b\n") = (.ok config, last) ∧
      samplePreparation leftoverFiles = (.ok config', last') ∧
      (Project.mk ⟨"/p"⟩).SamePreparation [] ["p"] config config' last last' := by
  have htree : leftoverFiles.IsTree :=
    (((isTree_projectFiles _).put ["p", "build"] "src" rfl rfl _).put
      ["p", "build", "src"] "Old.java" rfl rfl _).put ["p", "build"] "AndroidManifest.xml" rfl rfl _
  have hwell : leftoverFiles.WellNamed :=
    (((wellNamed_projectFiles _).put (by decide) _).put (by decide) _).put (by decide) _
  have hfree (place : Location) : leftoverFiles.LinkFree place :=
    (((linkFree_projectFiles _ place).put (by simp)).put (by simp)).put (by simp)
  have hsame : (Project.mk ⟨"/p"⟩).SameProject Builder.sampleBuilder.toolchain [] ["p"]
      (projectFiles "appPackage=a.b\n") leftoverFiles := by
    refine ⟨hasDirectory_projectFiles _, fun {there} hbuild => ?_, linkFree_projectFiles _ _,
      hfree _, ?_, ?_⟩
    · have hne (rest : List String) : "p" :: "build" :: rest ≠ there :=
        fun heq => hbuild ⟨rest, heq⟩
      simp only [leftoverFiles, FileSystem.get?_put, if_neg (hne _)]
    · exact FileSystem.find_eraseTree_of_not_prefix (by decide) (by decide)
        ((linkFree_projectFiles _ _).along _) (by decide)
    · exact FileSystem.find_eraseTree_of_not_prefix (by decide) (by decide) ((hfree _).along _)
        (by decide)
  have hok : (samplePreparation (projectFiles "appPackage=a.b\n")).1.toBool = true ∧
      (samplePreparation leftoverFiles).1.toBool = true := by
    decide +kernel
  rcases hrun : samplePreparation (projectFiles "appPackage=a.b\n") with ⟨fault | config, last⟩ <;>
    rcases hrun' : samplePreparation leftoverFiles with ⟨fault' | config', last'⟩ <;>
    rw [hrun, hrun'] at hok
  · cases hok.1
  · cases hok.1
  · cases hok.2
  · exact ⟨config, last, config', last', rfl, rfl, samePreparation_of_run_prepare hsame
      (isTree_projectFiles _) htree (wellNamed_projectFiles _) hwell hrun hrun'⟩

end Project

end SketchApk
