import SketchApk.Proofs.Project.Generation
import SketchApk.Proofs.Project.Steps

/-!
# Where generated sources lie

The directory of generated sources is removed before sources are generated, so no link is left in it,
and every source is written where the names of its target say. A sketch comes behind the plain source
with the same target, because files are walked through in order. So in the end its target holds its
unit.

## Main statements

* `Project.values_of_run_mapM_generateSource` : generating sources answers with the classes of the
  sketches.
* `Project.Steps.cleared_eq` : nothing is left of what was generated before.
* `Project.contentAt_of_run_mapM_generateSource` : a file that is no target stays as it is.
* `Project.Steps.exists_of_sketchClass?` : the target of a sketch holds its unit.
-/

namespace SketchApk

/-- A plain source comes before the sketch of the same name. -/
theorem compare_java_pde (front : List String) (stem : String) :
    compare (front ++ [stem ++ "." ++ "java"]) (front ++ [stem ++ "." ++ "pde"]) = .lt := by
  have hlt : stem ++ "." ++ "java" < stem ++ "." ++ "pde" := by
    rw [String.lt_iff]
    simp only [String.toList_append, List.append_assoc]
    induction stem.toList with
    | nil => decide
    | cons c rest ih => exact List.Lex.cons ih
  have hname : compare (stem ++ "." ++ "java") (stem ++ "." ++ "pde") = .lt := by
    change compareOfLessAndEq _ _ = _
    rw [compareOfLessAndEq, if_pos hlt]
  rw [FileSystem.compare_append]
  change List.compareLex compare _ _ = _
  rw [List.compareLex_cons_cons, hname]
  rfl

namespace Project

open Plan

variable {project : Project} {toolchain : Toolchain} {world : World} {stop : Bool}
  {appPackage className : String} {place there : Location} {files last final : FileSystem}
  {names front : List String} {sources : List (List String)} {values : List (Option String)}

/-! ### The names of targets -/

/-- The target of a sketch. -/
theorem exists_of_sketchClass? (h : sketchClass? names = some className) :
    ∃ front, names = front ++ [className ++ "." ++ "pde"] ∧
      generatedNames? names = some (front ++ [className ++ "." ++ "java"]) := by
  rcases List.eq_nil_or_concat names with rfl | ⟨front, name, rfl⟩
  · cases h
  · rw [List.concat_eq_append] at h ⊢
    rw [sketchClass?_concat] at h
    split at h
    · rename_i hpde
      obtain rfl := Option.some.inj h
      obtain ⟨hname, -, -⟩ := Path.eq_of_splitName (Prod.ext rfl hpde)
      refine ⟨front, congrArg (fun name => front ++ [name]) hname, ?_⟩
      rw [generatedNames?_concat, if_pos hpde]
    · cases h

theorem sketchClass?_eq_none (h : generatedNames? names = none) : sketchClass? names = none := by
  cases hclass : sketchClass? names with
  | none => rfl
  | some className =>
    obtain ⟨front, -, hnames⟩ := exists_of_sketchClass? hclass
    cases h.symm.trans hnames

/-- The target of a sketch is that of at most one plain source. -/
theorem cases_of_generatedNames? {stem : String}
    (h : generatedNames? names = some (front ++ [stem ++ "." ++ "java"])) :
    names = front ++ [stem ++ "." ++ "java"] ∨ names = front ++ [stem ++ "." ++ "pde"] := by
  cases hclass : sketchClass? names with
  | some className =>
    obtain ⟨front', rfl, hnames⟩ := exists_of_sketchClass? hclass
    obtain ⟨rfl, hname⟩ := List.append_inj' (Option.some.inj (hnames.symm.trans h)) rfl
    have hname : className ++ "." ++ "java" = stem ++ "." ++ "java" := List.singleton_injective hname
    have hstem : className = stem := by
      rw [← String.toList_inj] at hname ⊢
      simpa [String.toList_append] using hname
    exact .inr (by rw [hstem])
  | none =>
    rw [generatedNames?] at h
    rw [sketchClass?] at hclass
    split at h
    · rename_i stem' hsplit
      rw [hsplit] at hclass
      cases hclass
    · exact .inl (Option.some.inj h)
    · cases h

/-- Targets are units. -/
theorem exists_of_generatedNames? {target : List String} (h : generatedNames? names = some target) :
    ∃ above stem, target = above ++ [stem ++ "." ++ "java"] := by
  rcases List.eq_nil_or_concat names with rfl | ⟨above, name, rfl⟩
  · cases h
  · rw [List.concat_eq_append, generatedNames?_concat] at h
    split_ifs at h with hpde hjava
    · exact ⟨above, _, (Option.some.inj h).symm⟩
    · obtain ⟨hname, -, -⟩ := Path.eq_of_splitName (Prod.ext rfl hjava)
      exact ⟨above, _, (Option.some.inj h).symm.trans (congrArg (fun name => above ++ [name]) hname)⟩

/-- No sketch is at the location of a target. -/
theorem append_ne_of_generatedNames? {target others : List String} {source : Location}
    (htarget : generatedNames? names = some target) (hclass : sketchClass? others = some className) :
    place ++ "src" :: target ≠ source ++ others := by
  obtain ⟨front, rfl, -⟩ := exists_of_sketchClass? hclass
  obtain ⟨above, stem, rfl⟩ := exists_of_generatedNames? htarget
  rw [List.append_cons, ← List.append_assoc, ← List.append_assoc]
  intro hsame
  have hlast := congrArg String.toList (List.append_inj_right' hsame rfl |> List.singleton_injective)
  simp only [String.toList_append] at hlast
  have hend := congrArg List.getLast? hlast
  simp at hend

/-- What is generated from a sketch is the unit of its text. -/
theorem exists_of_generatedContent? {content written : Content}
    (hclass : sketchClass? names = some className)
    (h : generatedContent? appPackage names content = some written) :
    ∃ text, content.text? = some text ∧ written = .ofText (unitOf appPackage ⟨text, className⟩) := by
  rw [sketchClass?] at hclass
  rw [generatedContent?] at h
  split at hclass
  · rename_i hsplit
    rw [hsplit] at h
    obtain rfl := Option.some.inj hclass
    obtain ⟨text, htext, rfl⟩ := Option.map_eq_some_iff.mp h
    exact ⟨text, htext, rfl⟩
  · cases hclass

/-- In a list of sources in order, no source behind a sketch has the target of the sketch. -/
theorem generatedNames?_ne_of_pairwise {target : List String}
    (horder : (names :: sources).Pairwise fun names others => compare names others = .lt)
    (hclass : sketchClass? names = some className) (htarget : generatedNames? names = some target)
    {others : List String} (hothers : others ∈ sources) : generatedNames? others ≠ some target := by
  intro hsame
  have hlt := List.rel_of_pairwise_cons horder hothers
  obtain ⟨front, rfl, hnames⟩ := exists_of_sketchClass? hclass
  obtain rfl := Option.some.inj (hnames.symm.trans htarget)
  rcases cases_of_generatedNames? hsame with rfl | rfl
  · have hgt := Std.OrientedCmp.gt_of_lt (compare_java_pde front className)
    cases hgt.symm.trans hlt
  · cases Std.ReflCmp.compare_self.symm.trans hlt

theorem mem_of_chooseSketch {classNames : List String} {className : String}
    (h : chooseSketch classNames = some className) : className ∈ classNames := by
  rw [chooseSketch] at h
  split at h
  · rwa [← Option.some.inj h]
  · exact List.mem_of_mem_head? h

/-! ### Generating sources -/

/-- Generating sources answers with the classes of the sketches. -/
theorem values_of_run_mapM_generateSource
    (hsources : ∀ names ∈ sources, names ≠ [] ∧ ∀ name ∈ names, Path.IsName name)
    (h : (sources.mapM (project.generateSource appPackage)).run.run (world.answer stop) files =
      (.ok values, last)) : values = sources.map sketchClass? := by
  induction sources generalizing files values with
  | nil =>
    rw [List.mapM_nil] at h
    exact (Except.ok.inj (Prod.mk.inj h).1).symm
  | cons names rest ih =>
    obtain ⟨⟨hne, hnames⟩, hrest⟩ := List.forall_mem_cons.mp hsources
    obtain ⟨value, between, others, hfirst, hothers, rfl⟩ := Attempt.exists_of_run_mapM_cons h
    rw [ih hrest hothers, (cases_of_run_generateSource hne hnames hfirst).1,
      List.map_cons]

/-- Where no directory can be created among the generated sources, there are no sketches. -/
theorem sketchClass?_eq_none_of_run_mapM
    (hsources : ∀ names ∈ sources, names ≠ [] ∧ ∀ name ∈ names, Path.IsName name)
    (hblocked : ∀ front other, (∀ name ∈ front, Path.IsName name) →
      (makeDirectories (project.generatedDir.descend front)).run.run (world.answer stop) files ≠
        (.ok (), other))
    (h : (sources.mapM (project.generateSource appPackage)).run.run (world.answer stop) files =
      (.ok values, last)) : ∀ names ∈ sources, sketchClass? names = none := by
  induction sources generalizing values with
  | nil => exact fun _ hmem => absurd hmem List.not_mem_nil
  | cons names rest ih =>
    obtain ⟨⟨hne, hnames⟩, hrest⟩ := List.forall_mem_cons.mp hsources
    obtain ⟨value, between, others, hfirst, hothers, -⟩ := Attempt.exists_of_run_mapM_cons h
    rcases (cases_of_run_generateSource hne hnames hfirst).2 with ⟨hnone, rfl⟩ | ⟨⟨generation⟩⟩
    · exact List.forall_mem_cons.mpr ⟨sketchClass?_eq_none hnone, ih hrest hothers⟩
    · exact absurd generation.run_makeDirectories
        (hblocked _ _ (List.forall_mem_append.mp generation.isName).1)

/-- A generated source has been written where the names of its target say. -/
theorem Generation.exists_eq_put
    (generation : project.Generation world stop appPackage files names last)
    (hbase : final.HasDirectory world.place project.buildDir place)
    (hfree : final.LinkFree (place ++ ["src"])) (hlinks : final.SameLinks files) :
    ∃ mode, last = generation.between.put
        (place ++ "src" :: (generation.front ++ [generation.name])) (.file mode generation.written) ∧
      last.find world.place (project.generatedDir.descend (generation.front ++ [generation.name])) =
        .ok (place ++ "src" :: (generation.front ++ [generation.name]),
          .file mode generation.written) := by
  obtain ⟨target, mode, hresolve, hput, hextends⟩ :=
    FileSystem.exists_of_overwrite generation.overwrite
  have hlinks' := hlinks.trans
    (sameFiles_of_run_makeDirectories generation.run_makeDirectories).sameLinks
  have hwithin : project.buildDir.IsWithin
      (project.generatedDir.descend (generation.front ++ [generation.name]))
      (["src"] ++ (generation.front ++ [generation.name])) :=
    ((Path.IsWithin.refl project.buildDir).div (by decide)).descend generation.isName
  have hplace : target.place = place ++ "src" :: (generation.front ++ [generation.name]) :=
    hlinks'.place_eq_of_within hbase (hfree.along_cons _) hwithin (List.cons_ne_nil _ _)
      (List.forall_mem_cons.mpr ⟨by decide, generation.isName⟩) hresolve
  have hfile : last.get? target.place = some (.file mode generation.written) :=
    (congrArg (·.get? target.place) hput).trans (FileSystem.get?_put_self ..)
  have hfound := hextends.resolve_of_created (by simp : LastName.followed ≠ .kept) hresolve hfile
  rw [← hplace]
  exact ⟨mode, hput, FileSystem.find_eq_ok_iff.mpr hfound⟩

/-- A file that is not the target stays as it is. -/
theorem contentAt_of_run_generateSource
    (hbase : final.HasDirectory world.place project.buildDir place)
    (hfree : final.LinkFree (place ++ ["src"])) (hlinks : final.SameLinks files)
    (hne : names ≠ []) (hnames : ∀ name ∈ names, Path.IsName name) {value : Option String}
    (h : (project.generateSource appPackage names).run.run (world.answer stop) files =
      (.ok value, last))
    (hapart : ∀ target, generatedNames? names = some target → place ++ "src" :: target ≠ there) :
    last.contentAt there = files.contentAt there := by
  rcases (cases_of_run_generateSource hne hnames h).2 with ⟨-, rfl⟩ | ⟨⟨generation⟩⟩
  · rfl
  · obtain ⟨mode, hput, -⟩ := generation.exists_eq_put hbase hfree hlinks
    rw [hput, FileSystem.contentAt_put, if_neg (hapart _ generation.names_eq),
      (sameFiles_of_run_makeDirectories generation.run_makeDirectories).contentAt_eq]

/-- A file that is none of the targets stays as it is. -/
theorem contentAt_of_run_mapM_generateSource
    (hbase : final.HasDirectory world.place project.buildDir place)
    (hfree : final.LinkFree (place ++ ["src"])) (hlinks : final.SameLinks files)
    (hsources : ∀ names ∈ sources, names ≠ [] ∧ ∀ name ∈ names, Path.IsName name)
    (h : (sources.mapM (project.generateSource appPackage)).run.run (world.answer stop) files =
      (.ok values, last))
    (hapart : ∀ names ∈ sources, ∀ target, generatedNames? names = some target →
      place ++ "src" :: target ≠ there) :
    last.contentAt there = files.contentAt there := by
  induction sources generalizing files values with
  | nil =>
    rw [List.mapM_nil] at h
    rw [(Prod.mk.inj h).2]
  | cons names rest ih =>
    obtain ⟨⟨hne, hnames⟩, hrest⟩ := List.forall_mem_cons.mp hsources
    obtain ⟨hfirst, hbehind⟩ := List.forall_mem_cons.mp hapart
    obtain ⟨value, between, others, hrun, hothers, -⟩ := Attempt.exists_of_run_mapM_cons h
    have hlinks' := hlinks.trans ((only_adds_generateSource appPackage names).sameLinks hrun)
    rw [ih hlinks' hrest hothers hbehind,
      contentAt_of_run_generateSource hbase hfree hlinks hne hnames hrun hfirst]

/-- A source is read where its names say. -/
theorem Generation.place_eq_append
    (generation : project.Generation world stop appPackage files names last)
    {start : FileSystem} {source : Location} {mode : Mode} {content : Content}
    (htree : start.IsTree) (hlinks : start.SameLinks files)
    (hfind : start.find world.place project.sourceDir = .ok (source, .directory mode))
    (hcontent : start.contentAt (source ++ names) = some content) (hne : names ≠ [])
    (hnames : ∀ name ∈ names, Path.IsName name) : generation.place = source ++ names :=
  (hlinks.trans (sameFiles_of_run_makeDirectories generation.run_makeDirectories).sameLinks)
    |>.place_eq_of_within (.of_find hfind) (htree.linkFreeAlong hcontent)
      ((Path.IsWithin.refl project.sourceDir).descend hnames) hne hnames
      (FileSystem.find_eq_ok_iff.mp generation.find_source)

/-- A generated source is still there behind sources with other targets. -/
theorem Generation.find_of_run_mapM
    (generation : project.Generation world stop appPackage files names last)
    (hbase : final.HasDirectory world.place project.buildDir place)
    (hfree : final.LinkFree (place ++ ["src"])) (hlinks : final.SameLinks files)
    (hlinks' : final.SameLinks last) {other : FileSystem}
    (hsources : ∀ names ∈ sources, names ≠ [] ∧ ∀ name ∈ names, Path.IsName name)
    (h : (sources.mapM (project.generateSource appPackage)).run.run (world.answer stop) last =
      (.ok values, other))
    (hapart : ∀ others ∈ sources,
      generatedNames? others ≠ some (generation.front ++ [generation.name])) :
    ∃ bits, other.find world.place
        (project.generatedDir.descend (generation.front ++ [generation.name])) =
      .ok (place ++ "src" :: (generation.front ++ [generation.name]),
        .file bits generation.written) := by
  obtain ⟨bits, -, hfound⟩ := generation.exists_eq_put hbase hfree hlinks
  have hkept : other.contentAt (place ++ "src" :: (generation.front ++ [generation.name])) =
      last.contentAt (place ++ "src" :: (generation.front ++ [generation.name])) := by
    refine contentAt_of_run_mapM_generateSource hbase hfree hlinks' hsources h
      fun others hothers target htarget hsame => hapart others hothers ?_
    rw [htarget, (List.cons.inj (List.append_cancel_left hsame)).2]
  obtain ⟨bits', content, hfound'⟩ := (extends_of_run_mapM_generateSource h).find_file hfound
  have hlater := FileSystem.contentAt_eq_some_iff.mpr ⟨bits', FileSystem.get?_of_find hfound'⟩
  have hfirst := FileSystem.contentAt_eq_some_iff.mpr ⟨bits, FileSystem.get?_of_find hfound⟩
  obtain rfl : content = generation.written :=
    Option.some.inj ((hlater.symm.trans hkept).trans hfirst)
  exact ⟨bits', hfound'⟩

/-! ### The directory of generated sources -/

/-- The directory of generated sources is there when something has been generated. -/
theorem Generation.exists_generatedDir
    (generation : project.Generation world stop appPackage files names last) :
    ∃ place mode, last.find world.place project.generatedDir = .ok (place, .directory mode) := by
  obtain ⟨hfront, hname⟩ := List.forall_mem_append.mp generation.isName
  have hempty : project.generatedDir.isEmpty = false := Path.isEmpty_div _ (by decide)
  obtain ⟨there, bits, hresolve⟩ := FileSystem.resolve_of_overwrite generation.overwrite
  rw [Path.descend_concat] at hresolve
  obtain ⟨there, bits, hdirectory, -⟩ := FileSystem.exists_of_resolve_div
    (hname _ (List.mem_singleton_self _)) (Path.isEmpty_descend hempty generation.front) hresolve
  exact FileSystem.exists_of_find_descend hempty hfront hdirectory

theorem parent?_manifestPath (project : Project) :
    project.manifestPath.parent? = some project.buildDir :=
  project.root.parent?_div_div (by decide) (by decide)

namespace Steps

variable (steps : project.Steps toolchain world stop files)

/-- The sources that are generated come from a walk, and there is a sketch among them. -/
theorem exists_walk (hwell : files.WellNamed) : ∃ source mode found values,
    steps.described.find world.place project.sourceDir = .ok (source, .directory mode) ∧
    steps.described.walk world.place project.sourceDir = .ok found ∧ found.halt = none ∧
    (∀ names ∈ found.files, names ≠ [] ∧ ∀ name ∈ names, Path.IsName name) ∧
    (found.files.mapM (project.generateSource steps.completed.appPackage)).run.run
      (world.answer stop) steps.described = (.ok values, steps.generated) ∧
    steps.classNames = found.files.filterMap sketchClass? ∧
    ∃ names ∈ found.files, sketchClass? names = some steps.className := by
  have hmem := mem_of_chooseSketch steps.choose
  rcases cases_of_run_generateSources steps.run_sources with
    hnil | ⟨source, mode, found, values, hfind, hwalk, hhalt, hgenerate, hvalues⟩
  · rw [hnil] at hmem
    cases hmem
  · have hfiles (names : List String) (hnames : names ∈ found.files) :
        names ≠ [] ∧ ∀ name ∈ names, Path.IsName name :=
      ⟨(FileSystem.exists_of_mem_walk hwalk hfind hnames).1,
        (steps.wellNamed_described hwell).isName_of_mem_walk hwalk hnames⟩
    have hclasses : steps.classNames = found.files.filterMap sketchClass? := by
      rw [hvalues, values_of_run_mapM_generateSource hfiles hgenerate, List.filterMap_map]
      rfl
    rw [hclasses, List.mem_filterMap] at hmem
    exact ⟨source, mode, found, values, hfind, hwalk, hhalt, hfiles, hgenerate, hclasses, hmem⟩

/-- No step behind the manifest takes anything away. -/
theorem extends_described :
    steps.described.Extends steps.generated ∧ steps.generated.Extends steps.last := by
  refine ⟨?_, extends_of_run_writeTextFile steps.run_activity⟩
  rcases cases_of_run_generateSources steps.run_sources with
    hnil | ⟨source, mode, found, values, -, -, -, hgenerate, -⟩
  · have hmem := mem_of_chooseSketch steps.choose
    rw [hnil] at hmem
    cases hmem
  · exact extends_of_run_mapM_generateSource hgenerate

/-- The directory of generated sources is there when a sketch has been written to it. -/
theorem exists_generatedDir (hwell : files.WellNamed) :
    ∃ place mode, steps.generated.find world.place project.generatedDir =
      .ok (place, .directory mode) := by
  obtain ⟨source, mode, found, values, -, -, -, hfiles, hgenerate, -, names, hmem, hclass⟩ :=
    steps.exists_walk hwell
  obtain ⟨hne, hnames⟩ := hfiles names hmem
  obtain ⟨front, back, heq⟩ := List.append_of_mem hmem
  rw [heq] at hgenerate
  obtain ⟨before, between, -, value, others, -, hsource, hback⟩ :=
    Attempt.exists_of_run_mapM_append hgenerate
  rcases (cases_of_run_generateSource hne hnames hsource).2 with ⟨hnone, -⟩ | ⟨⟨generation⟩⟩
  · cases hclass.symm.trans (sketchClass?_eq_none hnone)
  · obtain ⟨place, mode, hfind⟩ := generation.exists_generatedDir
    exact ⟨place, mode, (extends_of_run_mapM_generateSource hback).find_directory hfind⟩

theorem isTree_made (htree : files.IsTree) : steps.made.IsTree :=
  steps.sameFiles_made.isTree htree

theorem isTree_described (htree : files.IsTree) : steps.described.IsTree := by
  have hcleared : steps.cleared.IsTree := by
    rcases cases_of_run_removeDirectory steps.run_remove with ⟨-, hsame⟩ | ⟨gone, node, -, hgone⟩
    · rw [hsame]
      exact steps.isTree_made htree
    · rw [hgone]
      exact (steps.isTree_made htree).eraseTree gone
  obtain ⟨between, hmake, hwrite⟩ :=
    exists_of_run_writeTextFile_of_parent? project.parent?_manifestPath steps.run_manifest
  exact ((sameFiles_of_run_makeDirectories hmake).isTree hcleared).overwrite hwrite

variable (hbase : steps.made.HasDirectory world.place project.buildDir place)

include hbase

/-- A link in place of the directory of generated sources would have been removed, or nothing would
have been generated. -/
theorem get?_ne_link (hwell : files.WellNamed) (hsame : steps.cleared = steps.made)
    (hinspect : (steps.made.inspect world.place project.generatedDir).toBool = false) (path : Path) :
    steps.made.get? (place ++ ["src"]) ≠ some (.link path) := by
  intro hlink
  have hname : Path.IsName "src" := by decide
  have hbuild : project.buildDir.isEmpty = false := Path.isEmpty_div _ (by decide)
  obtain ⟨between, hmake, hwrite⟩ :=
    exists_of_run_writeTextFile_of_parent? project.parent?_manifestPath steps.run_manifest
  rw [hsame] at hmake
  obtain rfl : between = steps.made := (makesWay_of_run_makeDirectories hmake).eq_self hbase
  obtain ⟨target, mode, hresolve, hput, hextends⟩ := FileSystem.exists_of_overwrite hwrite
  have hnot (there : Location) (mode : Mode) :
      steps.described.find world.place project.generatedDir ≠ .ok (there, .directory mode) := by
    intro hfind
    rw [hput] at hfind
    rw [FileSystem.inspect, FileSystem.KeepsWays.of_put_file.find hfind] at hinspect
    cases hinspect
  have hkept : steps.described.resolve world.place .kept project.generatedDir =
      .ok (.existing (place ++ ["src"]) (.link path)) := by
    obtain ⟨node, hnode, hlike⟩ := hextends _ _ hlink
    obtain ⟨there, bits, hfind⟩ := steps.exists_generatedDir hwell
    have hadmits := (hbase.extends hextends).admits_of_extends hname (by decide) hbuild
      steps.extends_described.1 (FileSystem.find_eq_ok_iff.mp hfind)
    rw [generatedDir, (hbase.extends hextends).resolve_kept_div hname
      (FileSystem.resolve_eq_ok_iff.mp (FileSystem.find_eq_ok_iff.mp hfind)).1 hadmits,
      FileSystem.targetAt, hnode]
    cases node with
    | link other => rw [show path = other from hlike]
    | file | directory => cases hlike
  have hexists : steps.described.makeDirectory world.place (project.buildDir / "src") =
      .error .alreadyExists := by
    rw [FileSystem.makeDirectory_div _ hname, ← generatedDir, hkept]
  obtain ⟨-, -, found, values, -, -, -, hfiles, hgenerate, -, names, hmem, hclass⟩ :=
    steps.exists_walk hwell
  have hnone := sketchClass?_eq_none_of_run_mapM hfiles
    (fun front other hfront => run_makeDirectories_ne_ok hname hfront hexists hnot) hgenerate
  cases hclass.symm.trans (hnone names hmem)

/-- The directory of generated sources is gone when the manifest is written. -/
theorem cleared_eq (htree : files.IsTree) (hwell : files.WellNamed) :
    steps.cleared = steps.made.eraseTree (place ++ ["src"]) := by
  have hname : Path.IsName "src" := by decide
  have hbuild : project.buildDir.isEmpty = false := Path.isEmpty_div _ (by decide)
  rcases cases_of_run_removeDirectory steps.run_remove with
    ⟨hinspect, hsame⟩ | ⟨gone, node, hresolve, hgone⟩
  · have hnone : steps.made.get? (place ++ ["src"]) = none := by
      cases hnode : steps.made.get? (place ++ ["src"]) with
      | none => rfl
      | some node =>
        have hlink : ∀ path, node ≠ .link path := fun path hpath =>
          steps.get?_ne_link hbase hwell hsame hinspect path (hnode.trans (congrArg some hpath))
        obtain ⟨there, bits, hfind⟩ := steps.exists_generatedDir hwell
        have hextends : steps.made.Extends steps.generated :=
          (hsame ▸ extends_of_run_writeTextFile steps.run_manifest).trans steps.extends_described.1
        have hfound := hbase.find_div_of_extends hname (by decide) hbuild hnode hlink hextends
          (FileSystem.find_eq_ok_iff.mp hfind)
        rw [FileSystem.inspect, generatedDir, hfound] at hinspect
        cases node with
        | file | directory => cases hinspect
        | link path => exact absurd rfl (hlink path)
    rw [hsame, (steps.isTree_made htree).eraseTree_eq_self hnone]
  · obtain rfl : gone = place ++ ["src"] := hbase.place_of_resolve_kept hname hresolve
    exact hgone

/-- There are no links among the generated sources. -/
theorem linkFree_generatedDir (htree : files.IsTree) (hwell : files.WellNamed) :
    steps.cleared.LinkFree (place ++ ["src"]) := by
  intro rest path
  rw [steps.cleared_eq hbase htree hwell, FileSystem.get?_eraseTree,
    if_pos (FileSystem.isPrefixOf_append _ _)]
  simp

omit hbase in
/-- No step behind the removal takes away a link or adds one. -/
theorem sameLinks_cleared : steps.cleared.SameLinks steps.described ∧
    steps.described.SameLinks steps.generated ∧ steps.generated.SameLinks steps.last := by
  refine ⟨sameLinks_of_run_writeTextFile steps.run_manifest, ?_,
    sameLinks_of_run_writeTextFile steps.run_activity⟩
  rcases cases_of_run_generateSources steps.run_sources with
    hnil | ⟨source, mode, found, values, -, -, -, hgenerate, -⟩
  · have hmem := mem_of_chooseSketch steps.choose
    rw [hnil] at hmem
    cases hmem
  · exact sameLinks_of_run_mapM_generateSource hgenerate

/-- The target of a sketch holds its unit when the sources have been generated. -/
theorem exists_of_sketchClass? (htree : files.IsTree) (hwell : files.WellNamed)
    (hlast : steps.last.HasDirectory world.place project.buildDir place) {source : Location}
    {mode : Mode} {found : FileWalk}
    (hfind : steps.described.find world.place project.sourceDir = .ok (source, .directory mode))
    (hwalk : steps.described.walk world.place project.sourceDir = .ok found)
    (hfiles : ∀ names ∈ found.files, names ≠ [] ∧ ∀ name ∈ names, Path.IsName name)
    (hgenerate : (found.files.mapM
      (project.generateSource steps.completed.appPackage)).run.run
        (world.answer stop) steps.described = (.ok values, steps.generated))
    (hmem : names ∈ found.files) (hclass : sketchClass? names = some className) :
    ∃ content text target bits, steps.described.contentAt (source ++ names) = some content ∧
      content.text? = some text ∧ generatedNames? names = some target ∧
      steps.generated.find world.place (project.generatedDir.descend target) =
        .ok (place ++ "src" :: target,
          .file bits (.ofText (unitOf steps.completed.appPackage ⟨text, className⟩))) := by
  obtain ⟨hcleared, hdescribed, hgenerated⟩ := steps.sameLinks_cleared
  have hlinks := hdescribed.trans hgenerated
  have hfree : steps.last.LinkFree (place ++ ["src"]) :=
    (hcleared.trans hlinks).linkFree (steps.linkFree_generatedDir hbase htree hwell)
  obtain ⟨hne, hnames⟩ := hfiles names hmem
  obtain ⟨-, bits, known, hknown⟩ := FileSystem.exists_of_mem_walk hwalk hfind hmem
  have hsorted := FileSystem.pairwise_files_walk hwalk hfind
  obtain ⟨front, back, heq⟩ := List.append_of_mem hmem
  rw [heq] at hgenerate hsorted hfiles
  obtain ⟨before, between, firsts, value, others, hfront, hsource, hback⟩ :=
    Attempt.exists_of_run_mapM_append hgenerate
  obtain ⟨hfrontFiles, hbackFiles⟩ := List.forall_mem_append.mp hfiles
  have hbefore := sameLinks_of_run_mapM_generateSource hfront
  rcases (cases_of_run_generateSource hne hnames hsource).2 with ⟨hnone, -⟩ | ⟨⟨generation⟩⟩
  · cases hclass.symm.trans (sketchClass?_eq_none hnone)
  · have hthere : generation.place = source ++ names :=
      generation.place_eq_append (steps.isTree_described htree) hbefore hfind
        (FileSystem.contentAt_eq_some_iff.mpr ⟨bits, hknown⟩) hne hnames
    -- What has been generated before the sketch lies elsewhere.
    have hcontent : steps.described.contentAt (source ++ names) = some generation.content := by
      rw [← contentAt_of_run_mapM_generateSource hlast hfree hlinks.symm hfrontFiles hfront
        fun _ _ _ htarget => append_ne_of_generatedNames? htarget hclass,
        ← (sameFiles_of_run_makeDirectories generation.run_makeDirectories).contentAt_eq, ← hthere]
      exact FileSystem.contentAt_eq_some_iff.mpr
        ⟨_, FileSystem.get?_of_find generation.find_source⟩
    obtain ⟨text, htext, hwritten⟩ := exists_of_generatedContent? hclass
      (generation.written_eq fun hnone => by cases hclass.symm.trans hnone)
    -- What is generated behind the sketch has another target.
    obtain ⟨bits', hfound⟩ := generation.find_of_run_mapM hlast hfree
      (hlinks.symm.trans hbefore)
      (hlinks.symm.trans (hbefore.trans
        ((only_adds_generateSource steps.completed.appPackage names).sameLinks hsource)))
      (List.forall_mem_cons.mp hbackFiles).2 hback
      fun _ => generatedNames?_ne_of_pairwise (List.pairwise_append.mp hsorted).2.1 hclass
        generation.names_eq
    rw [hwritten] at hfound
    exact ⟨generation.content, text, _, bits', hcontent, htext, generation.names_eq, hfound⟩

end Steps

end Project

end SketchApk
