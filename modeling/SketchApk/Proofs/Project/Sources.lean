import SketchApk.Proofs.Build.Stop
import SketchApk.Proofs.Project.Generation
import SketchApk.Proofs.Project.Steps

/-!
# The sources that result from a project

Every sketch and every plain source of a project has a target among the generated sources. Before
they are generated the directory of generated sources is empty, and one generated source after the
other is written to its target. So a target holds what results from its source, unless another
source has the same target, or the activity is written to it at last. A sketch and a plain source
that have the same name but for the extension do share their target.

## Main definitions

* `Project.IsLaidOut` : the directories of sources and of the build are apart.
* `Project.HasGenerated` : what generating some of the sources has led to.
* `Project.KeepsSources` : what the preparation has led to.

## Main statements

* `Project.cases_of_run_generateSource_of_isLaidOut` : what generating one source changes.
* `Project.HasGenerated.concat`, `Project.HasGenerated.append` : generating one more source, and
  several more.
* `Project.exists_of_run_prepare` : the files behind the preparation.
* `Project.keepsSources_of_run_prepare` : no source is lost unless two targets coincide.
-/

namespace SketchApk

/-- What is no longer than the name of an entry whose path is usable has a usable path as well. -/
theorem Path.IsUsable.div_of_le {path : Path} {name other : String}
    (h : (path / name).IsUsable) (hname : Path.IsName name) (hother : Path.IsName other)
    (hnull : '\x00' ∉ other.toList) (hle : other.utf8ByteSize ≤ name.utf8ByteSize) :
    (path / other).IsUsable := by
  obtain ⟨hnone, -, hlong⟩ := h
  rw [Path.text_div hname] at hnone hlong
  rw [String.toList_append, List.mem_append, not_or] at hnone
  rw [String.utf8ByteSize_append] at hlong
  refine ⟨?_, Path.isEmpty_div path hother.ne_empty, ?_⟩
  · rw [Path.text_div hother, String.toList_append, List.mem_append, not_or]
    exact ⟨hnone.1, hnull⟩
  · rw [Path.text_div hother, String.utf8ByteSize_append]
    omega

namespace Project

open Plan

/-- The location of a generated source of a project, given by the names that lead to it. -/
def generatedPlace (place : Location) (names : List String) : Location :=
  place ++ "build" :: "src" :: names

theorem generatedPlace_inj {place : Location} {names others : List String} :
    generatedPlace place names = generatedPlace place others ↔ names = others := by
  simp [generatedPlace]

/-- The root of a project is the directory at a place, and its sources are in the directory at
another place, which is neither above nor below the directory of the build. There are no links in
the directory of the build. -/
structure IsLaidOut (project : Project) (cwd place source : Location) (files : FileSystem) :
    Prop where
  hasRoot : files.HasDirectory cwd project.root place
  hasSources : files.HasDirectory cwd project.sourceDir source
  linkFree : files.LinkFree (place ++ ["build"])
  not_above : ¬source <+: place ++ ["build"]
  not_below : ¬place ++ ["build"] <+: source

variable {project : Project} {world : World} {stop : Bool} {appPackage : String}
  {place source : Location} {files middle last : FileSystem} {names : List String}

theorem isWithin_generatedDir_descend (h : ∀ name ∈ names, Path.IsName name) :
    project.root.IsWithin (project.generatedDir.descend names) ("build" :: "src" :: names) :=
  project.isWithin_generatedDir.descend h

namespace IsLaidOut

/-- What is in the directory of sources is not in the directory of the build. -/
theorem append_ne {cwd : Location} (h : project.IsLaidOut cwd place source files)
    (names rest : List String) : source ++ names ≠ place ++ "build" :: rest := by
  intro heq
  have hsource : source <+: place ++ "build" :: rest := heq ▸ List.prefix_append source names
  have hbuild : place ++ ["build"] <+: place ++ "build" :: rest :=
    List.append_cons place "build" rest ▸ List.prefix_append _ rest
  exact (List.prefix_or_prefix_of_prefix hsource hbuild).elim h.not_above h.not_below

/-- With the same links, a path into the directory of the build leads where its names say. -/
theorem place_eq_of_build (h : project.IsLaidOut world.place place source files)
    (hlinks : files.SameLinks middle) {path : Path} {rest : List String}
    (hwithin : project.root.IsWithin path ("build" :: rest))
    (hrest : ∀ name ∈ rest, Path.IsName name) {lastName : LastName} {target : Target}
    (hresolve : middle.resolve world.place lastName path = .ok target) :
    target.place = place ++ "build" :: rest :=
  hlinks.place_eq_of_within h.hasRoot (h.linkFree.along_cons rest) hwithin (List.cons_ne_nil _ _)
    (List.forall_mem_cons.mpr ⟨by decide, hrest⟩) hresolve

/-- What directories are created does not matter. -/
theorem of_sameFiles {cwd : Location} (h : project.IsLaidOut cwd place source files)
    (hsame : files.SameFiles middle) : project.IsLaidOut cwd place source middle where
  hasRoot := h.hasRoot.keeps hsame.keeps
  hasSources := h.hasSources.keeps hsame.keeps
  linkFree := hsame.sameLinks.linkFree h.linkFree
  not_above := h.not_above
  not_below := h.not_below

end IsLaidOut

/-! ### One source -/

section Source

variable (hlaid : project.IsLaidOut world.place place source files) (htree : files.IsTree)
  (hlinks : files.SameLinks middle) {known : Content}
  (hknown : files.contentAt (source ++ names) = some known)

include hlaid htree hlinks hknown

/-- A file that is found under the path of a source is the source. -/
theorem contentAt_of_find_source (hne : names ≠ []) (hnames : ∀ name ∈ names, Path.IsName name)
    {there : Location} {mode : Mode} {content : Content}
    (hfind : middle.find world.place (project.sourceDir.descend names) =
      .ok (there, .file mode content)) :
    there = source ++ names ∧ middle.contentAt (source ++ names) = some content := by
  obtain rfl : there = source ++ names :=
    hlinks.place_eq_of_within hlaid.hasSources (htree.linkFreeAlong hknown)
      ((Path.IsWithin.refl project.sourceDir).descend hnames) hne hnames
      (FileSystem.find_eq_ok_iff.mp hfind)
  exact ⟨rfl, FileSystem.contentAt_eq_some_iff.mpr ⟨mode, FileSystem.get?_of_find hfind⟩⟩

/-- A source is generated where it should be, or it is no source at all. -/
theorem cases_of_run_generateSource_of_isLaidOut (hne : names ≠ [])
    (hnames : ∀ name ∈ names, Path.IsName name) {value : Option String}
    (h : (project.generateSource appPackage names).run.run (world.answer stop) middle =
      (.ok value, last)) :
    generatedNames? names = none ∧ last = middle ∨
      ∃ target content generated between mode, generatedNames? names = some target ∧
        middle.contentAt (source ++ names) = some content ∧
        generatedContent? appPackage names content = some generated ∧
        middle.SameFiles between ∧
        last = between.put (generatedPlace place target) (.file mode generated) := by
  rcases (cases_of_run_generateSource hne hnames h).2 with hnone | ⟨⟨generation⟩⟩
  · exact .inl hnone
  · have hsame := sameFiles_of_run_makeDirectories generation.run_makeDirectories
    have hlinks' := hlinks.trans hsame.sameLinks
    have hplace {target : Target} (hresolve : generation.between.resolve world.place .created
        (project.generatedDir.descend (generation.front ++ [generation.name])) = .ok target) :
        target.place = generatedPlace place (generation.front ++ [generation.name]) :=
      hlaid.place_eq_of_build hlinks' (isWithin_generatedDir_descend generation.isName)
        (List.forall_mem_cons.mpr ⟨by decide, generation.isName⟩) hresolve
    obtain ⟨hthere, hcontent⟩ :=
      contentAt_of_find_source hlaid htree hlinks' hknown hne hnames generation.find_source
    obtain ⟨target, mode, hresolve, hput, -⟩ := FileSystem.exists_of_overwrite generation.overwrite
    refine .inr ⟨_, generation.content, generation.written, generation.between, mode,
      generation.names_eq, ?_, generation.written_eq fun _ other hother => ?_, hsame,
      hplace hresolve ▸ hput⟩
    · rwa [hsame.contentAt_eq] at hcontent
    · rw [hthere, hplace hother]
      exact hlaid.append_ne _ _

end Source

/-! ### All sources -/

/-- Some files have become others in which some sources have been generated: the sources are what they
were, generated sources come from one of them, and what comes from one of them alone is generated
from it. -/
structure HasGenerated (appPackage : String) (place source : Location) (files : FileSystem)
    (sources : List (List String)) (other : FileSystem) : Prop where
  sameLinks : files.SameLinks other
  contentAt_source (names : List String) :
    other.contentAt (source ++ names) = files.contentAt (source ++ names)
  exists_source {target : List String} {content : Content}
    (h : other.contentAt (generatedPlace place target) = some content) :
    ∃ names ∈ sources, generatedNames? names = some target
  contentAt_generated {names target : List String} (hmem : names ∈ sources)
    (htarget : generatedNames? names = some target)
    (hunique : ∀ others ∈ sources, generatedNames? others = some target → others = names) :
    ∃ content generated, files.contentAt (source ++ names) = some content ∧
      generatedContent? appPackage names content = some generated ∧
      other.contentAt (generatedPlace place target) = some generated

variable {sources : List (List String)}

/-- One more source has come from which nothing is generated. -/
theorem HasGenerated.concat_of_eq_none
    (h : HasGenerated appPackage place source files sources middle)
    (hnone : generatedNames? names = none) :
    HasGenerated appPackage place source files (sources ++ [names]) middle where
  sameLinks := h.sameLinks
  contentAt_source := h.contentAt_source
  exists_source hfound :=
    have ⟨others, hothers, hnames⟩ := h.exists_source hfound
    ⟨others, List.mem_append_left _ hothers, hnames⟩
  contentAt_generated hothers htarget hunique := by
    rcases List.mem_append.mp hothers with hothers | hothers
    · exact h.contentAt_generated hothers htarget
        fun _ h => hunique _ (List.mem_append_left _ h)
    · obtain rfl := List.mem_singleton.mp hothers
      cases hnone.symm.trans htarget

/-- What has been generated from one more source has been put at the place of its target. -/
theorem HasGenerated.concat_put (h : HasGenerated appPackage place source files sources middle)
    (hlaid : project.IsLaidOut world.place place source files) {between : FileSystem}
    {target : List String} {content generated : Content} (hsame : middle.SameFiles between)
    (htarget : generatedNames? names = some target)
    (hcontent : middle.contentAt (source ++ names) = some content)
    (hgenerated : generatedContent? appPackage names content = some generated) (mode : Mode) :
    HasGenerated appPackage place source files (sources ++ [names])
      (between.put (generatedPlace place target) (.file mode generated)) := by
  have hlinks : files.SameLinks between := h.sameLinks.trans hsame.sameLinks
  have hother {there : Location} (hne : generatedPlace place target ≠ there) :
      (between.put (generatedPlace place target) (.file mode generated)).contentAt there =
        middle.contentAt there := by
    rw [FileSystem.contentAt_put, if_neg hne, hsame.contentAt_eq]
  have hlink (path : Path) : between.get? (generatedPlace place target) ≠ some (.link path) := by
    rw [generatedPlace, List.append_cons]
    exact hlinks.linkFree hlaid.linkFree _ path
  have hlast : names ∈ sources ++ [names] :=
    List.mem_append_right _ (List.mem_singleton_self names)
  refine ⟨hlinks.trans (FileSystem.sameLinks_put hlink mode generated), fun others => ?_,
    fun {below found} hfound => ?_, fun {others below} hothers hbelow hunique => ?_⟩
  · rw [hother (hlaid.append_ne others _).symm, h.contentAt_source]
  · by_cases hsame : target = below
    · subst hsame
      exact ⟨names, hlast, htarget⟩
    · rw [hother (mt generatedPlace_inj.mp hsame)] at hfound
      obtain ⟨others, hothers, hnames⟩ := h.exists_source hfound
      exact ⟨others, List.mem_append_left _ hothers, hnames⟩
  · by_cases hsame : others = names
    · subst hsame
      obtain rfl : target = below := Option.some.inj (htarget.symm.trans hbelow)
      exact ⟨content, generated, by rw [← h.contentAt_source, hcontent], hgenerated,
        by rw [FileSystem.contentAt_put, if_pos rfl]⟩
    · -- The source that has been generated last has another target.
      have hapart : target ≠ below := by
        rintro rfl
        exact hsame (hunique names hlast htarget).symm
      rw [hother (mt generatedPlace_inj.mp hapart)]
      have hothers : others ∈ sources :=
        (List.mem_append.mp hothers).resolve_right fun h => hsame (List.mem_singleton.mp h)
      exact h.contentAt_generated hothers hbelow
        fun _ h => hunique _ (List.mem_append_left _ h)

/-- One more source has been generated. -/
theorem HasGenerated.concat (h : HasGenerated appPackage place source files sources middle)
    (hlaid : project.IsLaidOut world.place place source files) (htree : files.IsTree)
    {known : Content} (hknown : files.contentAt (source ++ names) = some known)
    (hne : names ≠ []) (hnames : ∀ name ∈ names, Path.IsName name) {value : Option String}
    (hrun : (project.generateSource appPackage names).run.run (world.answer stop) middle =
      (.ok value, last)) :
    HasGenerated appPackage place source files (sources ++ [names]) last := by
  rcases cases_of_run_generateSource_of_isLaidOut hlaid htree h.sameLinks hknown hne hnames hrun
    with ⟨hnone, rfl⟩ | ⟨target, content, generated, between, mode, htarget, hcontent, hgenerated, hsame,
      rfl⟩
  · exact h.concat_of_eq_none hnone
  · exact h.concat_put hlaid hsame htarget hcontent hgenerated mode

/-- Some more sources have been generated, one after the other. -/
theorem HasGenerated.append (h : HasGenerated appPackage place source files sources middle)
    (hlaid : project.IsLaidOut world.place place source files) (htree : files.IsTree)
    {more : List (List String)}
    (hmore : ∀ names ∈ more, (∃ content, files.contentAt (source ++ names) = some content) ∧
      names ≠ [] ∧ ∀ name ∈ names, Path.IsName name)
    {values : List (Option String)}
    (hrun : (more.mapM (project.generateSource appPackage)).run.run (world.answer stop) middle =
      (.ok values, last)) :
    HasGenerated appPackage place source files (sources ++ more) last := by
  induction more generalizing sources middle values with
  | nil =>
    rw [List.mapM_nil] at hrun
    obtain ⟨-, rfl⟩ := Prod.mk.inj hrun
    rwa [List.append_nil]
  | cons names rest ih =>
    obtain ⟨⟨⟨content, hcontent⟩, hne, hnames⟩, hrest⟩ := List.forall_mem_cons.mp hmore
    obtain ⟨value, between, others, hfirst, hothers, -⟩ := Attempt.exists_of_run_mapM_cons hrun
    rw [List.append_cons]
    exact ih (h.concat hlaid htree hcontent hne hnames hfirst) hrest hothers

/-- All sources of a project have been generated, unless it has no directory of sources. -/
theorem exists_of_run_generateSources (h : HasGenerated appPackage place source files [] middle)
    (hlaid : project.IsLaidOut world.place place source files) (htree : files.IsTree)
    (hwell : files.WellNamed) {classNames : List String}
    (hrun : (project.generateSources appPackage).run.run (world.answer stop) middle =
      (.ok classNames, last)) :
    classNames = [] ∨ ∃ sources, HasGenerated appPackage place source files sources last ∧
      ∀ names, names ∈ sources ↔
        names ≠ [] ∧ ∃ content, files.contentAt (source ++ names) = some content := by
  rcases cases_of_run_generateSources hrun with
    hnil | ⟨there, mode, found, values, hfind, hwalk, hhalt, hgenerate, -⟩
  · exact .inl hnil
  · obtain rfl : there = source := hlaid.hasSources.eq_of_sameLinks h.sameLinks (.of_find hfind)
    have hsource (names : List String) : names ∈ found.files ↔
        names ≠ [] ∧ ∃ content, files.contentAt (there ++ names) = some content := by
      refine ⟨fun hmem => ?_, fun ⟨hne, content, hcontent⟩ => ?_⟩
      · obtain ⟨hne, mode, content, hfile⟩ := FileSystem.exists_of_mem_walk hwalk hfind hmem
        refine ⟨hne, content, ?_⟩
        rw [← h.contentAt_source, FileSystem.contentAt_eq_some_iff]
        exact ⟨mode, hfile⟩
      · rw [← h.contentAt_source] at hcontent
        obtain ⟨mode, hfile⟩ := FileSystem.contentAt_eq_some_iff.mp hcontent
        exact FileSystem.mem_walk hwalk hfind hhalt hne hfile
    refine .inr ⟨found.files, ?_, hsource⟩
    refine h.append hlaid htree (fun names hmem => ?_) hgenerate
    obtain ⟨hne, content, hcontent⟩ := (hsource names).mp hmem
    obtain ⟨mode, hfile⟩ := FileSystem.contentAt_eq_some_iff.mp hcontent
    exact ⟨⟨content, hcontent⟩, hne,
      fun name hname => hwell _ _ hfile name (List.mem_append_right _ hname)⟩

/-! ### The preparation -/

/-- When nothing is found at the directory of generated sources although the directory of the build
is used, there is nothing. -/
theorem get?_generatedPlace_of_inspect (htree : files.IsTree)
    (hlaid : project.IsLaidOut world.place place source files)
    (hinspect : (files.inspect world.place project.generatedDir).toBool = false)
    (hkeeps : files.Keeps middle) {lastName : LastName} {target : Target}
    (hmanifest : middle.resolve world.place lastName project.manifestPath = .ok target) :
    files.get? (generatedPlace place []) = none := by
  have hname : Path.IsName "build" := by decide
  have husable : project.manifestPath.IsUsable := (FileSystem.resolve_eq_ok_iff.mp hmanifest).1
  have husableDir : project.buildDir.IsUsable :=
    FileSystem.isUsable_of_isUsable_div (by decide) (Path.isEmpty_div _ hname.ne_empty) husable
  have hplace : place ++ ["build"] ++ ["src"] = generatedPlace place [] := by simp [generatedPlace]
  have hself := Path.IsWithin.refl project.root
  cases hnode : files.get? (generatedPlace place []) with
  | none => rfl
  | some node =>
    obtain ⟨mode, hmode⟩ := htree (place ++ ["build"]) "src" node (hplace ▸ hnode)
    obtain ⟨bits, hbits⟩ := hlaid.hasRoot.get?_place
    have hlink (rest : List String) (path : Path) :
        files.get? (place ++ ["build"] ++ rest) ≠ some (.link path) := hlaid.linkFree rest path
    have hsearch : files.isSearchable place = true :=
      hkeeps.isSearchable hbits
        ((hlaid.hasRoot.keeps hkeeps).isSearchable ((hself.div (by decide)).div (by decide)) (by simp)
          hmanifest)
    have hbuild : files.HasDirectory world.place project.buildDir (place ++ ["build"]) := by
      have hfind : files.find world.place project.buildDir =
          .ok (place ++ ["build"], .directory mode) := by
        rw [FileSystem.find_eq_ok_iff, buildDir, hlaid.hasRoot.resolve_div hname husableDir
          ⟨hsearch, by decide, by decide, by decide⟩ (by simpa using hlink []),
          FileSystem.targetAt, hmode]
      exact .of_find hfind
    have hsearchDir : files.isSearchable (place ++ ["build"]) = true :=
      hkeeps.isSearchable hmode ((hbuild.keeps hkeeps).isSearchable
        ((Path.IsWithin.refl project.buildDir).div (by decide)) (by simp) hmanifest)
    have husableSrc : project.generatedDir.IsUsable :=
      husable.div_of_le (by decide) (by decide) (by decide) (by decide)
    have hfind : files.find world.place project.generatedDir =
        .ok (generatedPlace place [], node) := by
      rw [FileSystem.find_eq_ok_iff, generatedDir, hbuild.resolve_div (by decide) husableSrc
        ⟨hsearchDir, by decide, by decide, by decide⟩ (hlink _), FileSystem.targetAt, hplace, hnode]
    rw [FileSystem.inspect, hfind] at hinspect
    cases node with
    | file | directory => cases hinspect
    | link path => exact absurd (hplace ▸ hnode) (hlink ["src"] path)

/-- When the sources that were generated before are removed, nothing is left of them, and the other
files and the links stay. -/
theorem cases_of_run_removeGenerated (htree : files.IsTree)
    (hlaid : project.IsLaidOut world.place place source files)
    {activity : Activity}
    (hrun : (removeDirectory project.generatedDir activity).run.run (world.answer stop) files =
      (.ok (), middle))
    (hkeeps : middle.Keeps last) {lastName : LastName} {target : Target}
    (hmanifest : last.resolve world.place lastName project.manifestPath = .ok target) :
    files.SameLinks middle ∧
      (∀ names, middle.contentAt (source ++ names) =
        files.contentAt (source ++ names)) ∧
      ∀ names, middle.contentAt (generatedPlace place names) = none := by
  have hbelow (names : List String) :
      generatedPlace place [] ++ names = generatedPlace place names := by
    simp [generatedPlace]
  rcases cases_of_run_removeDirectory hrun with ⟨hinspect, rfl⟩ | ⟨there, node, hresolve, rfl⟩
  · have hnone := get?_generatedPlace_of_inspect htree hlaid hinspect hkeeps hmanifest
    refine ⟨.refl _, fun _ => rfl, fun names => ?_⟩
    rw [FileSystem.contentAt, ← hbelow, htree.get?_eq_none hnone]
  · obtain rfl : there = generatedPlace place [] :=
      hlaid.place_eq_of_build (.refl files) project.isWithin_generatedDir (by decide) hresolve
    refine ⟨fun other path => ?_, fun names => ?_, fun names => ?_⟩
    · rw [FileSystem.get?_eraseTree]
      split_ifs with hother
      · obtain ⟨rest, rfl⟩ := List.isPrefixOf_iff_prefix.mp hother
        refine iff_of_false ?_ (by simp)
        rw [generatedPlace, List.append_cons, List.append_assoc]
        exact hlaid.linkFree _ path
      · rfl
    · refine FileSystem.contentAt_congr (FileSystem.get?_eraseTree_of_not_below ?_)
      rw [Bool.eq_false_iff, ne_eq, List.isPrefixOf_iff_prefix]
      rintro ⟨rest, hrest⟩
      rw [hbelow] at hrest
      exact hlaid.append_ne names _ hrest.symm
    · rw [FileSystem.contentAt, FileSystem.get?_eraseTree, if_pos]
      exact List.isPrefixOf_iff_prefix.mpr ⟨names, hbelow names⟩

theorem appPackage_withGenerated (config : BuildConfig) :
    (project.withGenerated config).appPackage = config.appPackage := by
  rw [withGenerated]
  split <;> rfl

theorem Steps.appPackage_config {toolchain : Toolchain}
    (steps : project.Steps toolchain world stop files) :
    steps.config.appPackage = steps.completed.appPackage := by
  rw [Steps.config, appPackage_withGenerated]

/-- Nothing has been generated when the manifest has been written. -/
theorem Steps.hasGenerated_described {toolchain : Toolchain}
    (steps : project.Steps toolchain world stop files) (htree : files.IsTree)
    (hlaid : project.IsLaidOut world.place place source files) :
    HasGenerated steps.completed.appPackage place source files [] steps.described := by
  have hmade : files.SameFiles steps.made :=
    (sameFiles_of_run_createDirectory steps.run_buildDir).trans
      (sameFiles_of_run_createDirectory steps.run_buildPath)
  obtain ⟨between, target, mode, hsame, hresolve, hput, -⟩ :=
    exists_of_run_writeTextFile steps.run_manifest
  obtain ⟨hlinks, hcontent, hnone⟩ := cases_of_run_removeGenerated (hmade.isTree htree)
    (hlaid.of_sameFiles hmade) steps.run_remove hsame.keeps hresolve
  have hlinks' : files.SameLinks between := (hmade.sameLinks.trans hlinks).trans hsame.sameLinks
  have hplace : target.place = place ++ ["build", "AndroidManifest.xml"] :=
    hlaid.place_eq_of_build hlinks'
      (((Path.IsWithin.refl project.root).div (by decide)).div (by decide)) (by decide) hresolve
  have hother {there : Location} (hne : target.place ≠ there) :
      steps.described.contentAt there = steps.cleared.contentAt there := by
    rw [hput, FileSystem.contentAt_put, if_neg hne, hsame.contentAt_eq]
  refine ⟨?_, fun names => ?_, fun {names _} h => ?_, by simp⟩
  · rw [hput]
    refine hlinks'.trans (FileSystem.sameLinks_put ?_ _ _)
    rw [hplace, List.append_cons]
    exact hlinks'.linkFree hlaid.linkFree _
  · rw [hother (hplace ▸ (hlaid.append_ne names _).symm), hcontent, hmade.contentAt_eq]
  · rw [hother (by simp [hplace, generatedPlace]), hnone] at h
    cases h

/-- A project that has been prepared has generated its sources, and at last the activity. -/
theorem exists_of_run_prepare (htree : files.IsTree) (hwell : files.WellNamed)
    (hlaid : project.IsLaidOut world.place place source files)
    {toolchain : Toolchain} {config : BuildConfig}
    (h : (project.prepare toolchain).run.run (world.answer stop) files = (.ok config, last)) :
    ∃ sources before between activity mode className,
      HasGenerated config.appPackage place source files sources before ∧
      (∀ names, names ∈ sources ↔
        names ≠ [] ∧ ∃ content, files.contentAt (source ++ names) = some content) ∧
      before.SameFiles between ∧
      last = between.put activity
        (.file mode (.ofText (Template.activity config.appPackage className))) ∧
      last.find world.place (project.activityPath config.appPackage) = .ok (activity,
        .file mode (.ofText (Template.activity config.appPackage className))) := by
  obtain ⟨steps, rfl, rfl⟩ := exists_steps_of_run_prepare h
  rcases exists_of_run_generateSources (steps.hasGenerated_described htree hlaid) hlaid htree hwell
    steps.run_sources with hnil | ⟨sources, hgenerated, hmem⟩
  · have hchoose := steps.choose
    rw [hnil] at hchoose
    cases hchoose
  · obtain ⟨between, target, mode, hsame, -, hlast, hfind⟩ :=
      exists_of_run_writeTextFile steps.run_activity
    rw [steps.appPackage_config]
    exact ⟨sources, steps.generated, between, target.place, mode, steps.className, hgenerated, hmem,
      hsame, hlast, hfind⟩

/-- What has become of the sources of a project that has been prepared, with the location of the
activity. -/
structure KeepsSources (project : Project) (appPackage : String) (cwd place source : Location)
    (files last : FileSystem) (activity : Location) : Prop where
  /-- The activity of the application is a file of its own. -/
  find_activity : ∃ mode className, last.find cwd (project.activityPath appPackage) =
    .ok (activity, .file mode (.ofText (Template.activity appPackage className)))
  /-- What a source becomes that shares its target with no other one, nor with the activity. -/
  contentAt_generated {names target : List String} {content : Content}
    (hsource : files.contentAt (source ++ names) = some content)
    (htarget : generatedNames? names = some target)
    (hunique : ∀ others other, files.contentAt (source ++ others) = some other →
      generatedNames? others = some target → others = names)
    (hactivity : generatedPlace place target ≠ activity) :
    ∃ generated, generatedContent? appPackage names content = some generated ∧
      last.contentAt (generatedPlace place target) = some generated
  /-- Whatever is not a directory among the generated sources is the activity or comes from a
  source. -/
  exists_source {target : List String} {node : Node}
    (h : last.get? (generatedPlace place target) = some node)
    (hnode : ∀ mode, node ≠ .directory mode) :
    generatedPlace place target = activity ∨
      ∃ names content, files.contentAt (source ++ names) = some content ∧
        generatedNames? names = some target

/-- No source of a project is lost when the project is prepared, as long as its target is the target
of no other source and not the activity. -/
theorem keepsSources_of_run_prepare (htree : files.IsTree) (hwell : files.WellNamed)
    (hlaid : project.IsLaidOut world.place place source files)
    {toolchain : Toolchain} {config : BuildConfig}
    (h : (project.prepare toolchain).run.run (world.answer stop) files = (.ok config, last)) :
    ∃ activity,
      project.KeepsSources config.appPackage world.place place source files last activity := by
  obtain ⟨sources, before, between, activity, mode, className, hgenerated, hmem, hsame, rfl,
    hfind⟩ := exists_of_run_prepare htree hwell hlaid h
  refine ⟨activity, ⟨mode, className, hfind⟩, fun {names target content} hsource htarget hunique
    hactivity => ?_, fun {target node} hnode hfile => ?_⟩
  · have hne : names ≠ [] := by
      rintro rfl
      cases htarget
    obtain ⟨content', generated, hcontent', hgenerated', hfound⟩ :=
      hgenerated.contentAt_generated ((hmem names).mpr ⟨hne, content, hsource⟩) htarget
        fun others hothers => by
          obtain ⟨-, other, hother⟩ := (hmem others).mp hothers
          exact hunique others other hother
    obtain rfl : content = content' := Option.some.inj (hsource.symm.trans hcontent')
    refine ⟨generated, hgenerated', ?_⟩
    rw [FileSystem.contentAt_put, if_neg (Ne.symm hactivity), hsame.contentAt_eq, hfound]
  · by_cases hactivity : generatedPlace place target = activity
    · exact .inl hactivity
    · rw [FileSystem.get?_put_of_ne (Ne.symm hactivity)] at hnode
      cases node with
      | directory mode => exact absurd rfl (hfile mode)
      | link path =>
        have hlink := (hgenerated.sameLinks.trans hsame.sameLinks _ path).mpr hnode
        rw [generatedPlace, List.append_cons] at hlink
        exact absurd hlink (hlaid.linkFree _ path)
      | file mode content =>
        have hcontent : before.contentAt (generatedPlace place target) = some content := by
          rw [← hsame.contentAt_eq]
          exact FileSystem.contentAt_eq_some_iff.mpr ⟨mode, hnode⟩
        obtain ⟨names, hnames, htarget⟩ := hgenerated.exists_source hcontent
        obtain ⟨-, source, hsource⟩ := (hmem names).mp hnames
        exact .inr ⟨names, source, hsource, htarget⟩

/-! ### Examples -/

/-- The preparation of a sample project. -/
def samplePreparation (files : FileSystem) : Except Fault BuildConfig × FileSystem :=
  ((Project.mk ⟨"/p"⟩).prepare Builder.sampleBuilder.toolchain).run.run
    (Builder.idleWorld.answer false) files

theorem isLaidOut_projectFiles (properties : String) :
    (Project.mk ⟨"/p"⟩).IsLaidOut [] ["p"] ["p", "src"] (projectFiles properties) where
  hasRoot := hasDirectory_projectFiles properties
  hasSources := .of_find (show _ = Except.ok (_, Node.directory 0o755) from rfl)
  linkFree := linkFree_projectFiles properties _
  not_above := by decide
  not_below := by decide

/-- A project with one sketch is prepared. -/
theorem keepsSources_sample :
    ∃ config last activity,
      samplePreparation (projectFiles "appPackage=a.b\n") = (.ok config, last) ∧
      (Project.mk ⟨"/p"⟩).KeepsSources config.appPackage [] ["p"] ["p", "src"]
        (projectFiles "appPackage=a.b\n") last activity := by
  have hok : (samplePreparation (projectFiles "appPackage=a.b\n")).1.toBool = true := by
    decide +kernel
  rcases hrun : samplePreparation (projectFiles "appPackage=a.b\n") with ⟨fault | config, last⟩
  · rw [hrun] at hok
    cases hok
  · obtain ⟨activity, hkeeps⟩ := keepsSources_of_run_prepare (isTree_projectFiles _)
      (wellNamed_projectFiles _) (isLaidOut_projectFiles _) hrun
    exact ⟨config, last, activity, rfl, hkeeps⟩

/-- That project with a plain source beside the sketch. -/
def clashingFiles : FileSystem :=
  (projectFiles "appPackage=a.b\n").put ["p", "src", "main.java"]
    (.file 0o644 (.ofText "class Helper \x7b\x7d\n"))

/-- A sketch and a plain source of the same name share their target, and the plain source is lost
although the preparation succeeds. -/
theorem exists_lost :
    (samplePreparation clashingFiles).1.toBool = true ∧
      generatedNames? ["main.java"] = some ["main.java"] ∧
      generatedNames? ["main.pde"] = some ["main.java"] ∧
      (clashingFiles.contentAt ["p", "src", "main.java"]).bind Content.text? =
        some "class Helper \x7b\x7d\n" ∧
      ((samplePreparation clashingFiles).2.contentAt
        (generatedPlace ["p"] ["main.java"])).bind Content.text? =
          some (unitOf "a.b" ⟨"", "main"⟩) ∧
      unitOf "a.b" ⟨"", "main"⟩ ≠ "class Helper \x7b\x7d\n" := by
  decide +kernel

end Project

end SketchApk
