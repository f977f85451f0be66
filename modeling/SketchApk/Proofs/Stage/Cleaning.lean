import SketchApk.Proofs.File.Leftover
import SketchApk.Proofs.Plan.Directories
import SketchApk.Stage.Basic

/-!
# What is left of an earlier build

The stage at the beginning of a build removes what an earlier one has left in the build directory.
If it succeeds, it does so in any file systems that differ only there, and it leaves the same files:
those without the leftovers, with directories that are created again. A leftover whose path is too
long is not found, and stays.

## Main definitions

* `BuildLayout.leftoverNames` : the entries of the build directory without which a build starts.
* `FileSystem.Houses` : a path leads to a directory of a tree, also without some of its entries.

## Main statements

* `Stage.of_run_removeDirectory`, `Stage.of_run_removeStaleFile` : removing one leftover.
* `Stage.run_of_run_removeIntermediates` : the directories are created again without the leftovers.
* `Stage.run_removeIntermediates_eq` : the stage leaves the same files.
-/

namespace SketchApk

open Attempt FileSystem

/-- The intermediate directories in the build directory. -/
def BuildLayout.intermediateNames : List String :=
  ["compiled_res", "gen", "classes", "dex", "package", "optimized", "aligned", "signing", "outputs"]

/-- The other intermediate files in the build directory. -/
def BuildLayout.looseNames : List String :=
  ["javac-sources.txt", "classes.jar"]

/-- The entries of the build directory without which a build starts. -/
def BuildLayout.leftoverNames : List String :=
  BuildLayout.intermediateNames ++ BuildLayout.looseNames

/-- The names with which the path of a directory makes a path that can be used. -/
def Path.usableNames (root : Path) (names : List String) : List String :=
  names.filter fun name => (root / name).IsUsable

theorem Path.mem_usableNames {root : Path} {names : List String} {name : String} :
    name ∈ root.usableNames names ↔ name ∈ names ∧ (root / name).IsUsable := by
  simp [usableNames]

theorem Path.usableNames_cons_of_isUsable {root : Path} {name : String}
    (h : (root / name).IsUsable) (rest : List String) :
    root.usableNames (name :: rest) = name :: root.usableNames rest :=
  List.filter_cons_of_pos (by simpa using h)

theorem Path.usableNames_cons_of_not_isUsable {root : Path} {name : String}
    (h : ¬(root / name).IsUsable) (rest : List String) :
    root.usableNames (name :: rest) = root.usableNames rest :=
  List.filter_cons_of_neg (by simpa using h)

namespace BuildLayout

theorem intermediateDirs_eq (layout : BuildLayout) :
    layout.intermediateDirs = intermediateNames.map (layout.root / ·) :=
  rfl

theorem looseFiles_eq (layout : BuildLayout) :
    layout.looseFiles = looseNames.map (layout.root / ·) :=
  rfl

theorem isName_of_mem {name : String} (h : name ∈ leftoverNames) :
    Path.IsName name ∧ name.utf8ByteSize ≤ maxNameBytes := by
  have hall : ∀ name ∈ leftoverNames, Path.IsName name ∧ name.utf8ByteSize ≤ maxNameBytes := by
    decide
  exact hall name h

theorem disjoint_names : intermediateNames.Disjoint looseNames := by
  have hall : ∀ name ∈ intermediateNames, name ∉ looseNames := by
    decide
  exact fun name hmem => hall name hmem

end BuildLayout

variable {world : World} {stop : Bool} {files other last last' : FileSystem} {root path : Path}
  {place there cwd : Location} {names few : List String} {name : String}

namespace FileSystem

/-! ### Directories with leftovers -/

/-- A path leads to a place at which there is no link, whether links at its end are followed or
not. -/
structure Reaches (files : FileSystem) (cwd : Location) (path : Path) (place : Location) : Prop where
  resolve (last : LastName) : files.resolve cwd last path = .ok (files.targetAt place)
  not_link (target : Path) : files.get? place ≠ some (.link target)

/-- What a path leads to exists if there is a node at its place. -/
theorem Reaches.toBool_inspect (h : files.Reaches cwd path place) :
    (files.inspect cwd path).toBool = (files.get? place).isSome := by
  rw [inspect, FileSystem.find, h.resolve, targetAt]
  cases hnode : files.get? place with
  | none => rfl
  | some node =>
    cases node with
    | file | directory => rfl
    | link target => exact absurd hnode (h.not_link target)

/-- Where a path leads nowhere there is nothing. -/
theorem exists_inspect_eq_error (h : ∀ last target, files.resolve cwd last path ≠ .ok target) :
    ∃ error, files.inspect cwd path = .error error := by
  rw [inspect, FileSystem.find]
  cases hresolve : files.resolve cwd .followed path with
  | error error => exact ⟨error, rfl⟩
  | ok target => exact absurd hresolve (h _ _)

/-- Behind the path of an entry that leads to a directory there is a directory that may be searched.
The entry lies there, unless it is a link. -/
theorem HasDirectory.of_div (h : files.HasDirectory cwd root place) (hname : Path.IsName name)
    (hentry : files.HasDirectory cwd (root / name) there) : files.isSearchable place = true ∧
      ((∀ target, files.get? (place ++ [name]) ≠ some (.link target)) →
        there = place ++ [name]) := by
  have hwithin : root.IsWithin (root / name) [name] := (Path.IsWithin.refl root).div hname
  obtain ⟨wants, mode, hleads⟩ := hentry
  rw [Path.start, hwithin.names_eq, hwithin.isAbsolute_eq] at hleads
  obtain ⟨found, bits, _, _, hfound, hexecutable, hlast⟩ :=
    hleads.exists_of_append (List.cons_ne_nil _ _) wants
  obtain rfl : found = place := h.eq_of_sameLinks (.refl files) ⟨_, bits, hfound⟩
  have hnode : files.get? found = some (.directory bits) := hfound.get?_place
  refine ⟨?_, fun hlink => hlast.place_of_singleton hname hlink⟩
  rw [FileSystem.isSearchable, hnode]
  exact hexecutable

/-- A path leads to a directory of a tree, also without some entries of the directory. None of these
is a link. -/
structure Houses (files : FileSystem) (cwd : Location) (root : Path) (place : Location)
    (names : List String) : Prop where
  tree : files.IsTree
  found : (files.bare (entryPlaces place names)).HasDirectory cwd root place
  not_link : ∀ name ∈ names, ∀ target, files.get? (place ++ [name]) ≠ some (.link target)

theorem Cluttered.houses (h : files.Cluttered cwd root place names) :
    files.Houses cwd root place names where
  tree := h.tree
  found := by
    obtain ⟨mode, hfind⟩ := h.found
    exact .of_find hfind
  not_link := h.not_link

namespace Houses

theorem hasDirectory (h : files.Houses cwd root place names) : files.HasDirectory cwd root place :=
  h.found.keeps (keeps_bare files _)

/-- The path of an entry leads to its place, if the directory may be searched. -/
theorem reaches (h : files.Houses cwd root place BuildLayout.leftoverNames)
    (hsearchable : files.isSearchable place = true) (hmem : name ∈ BuildLayout.leftoverNames)
    (husable : (root / name).IsUsable) : files.Reaches cwd (root / name) (place ++ [name]) where
  resolve last := by
    obtain ⟨hname, hshort⟩ := BuildLayout.isName_of_mem hmem
    exact h.hasDirectory.resolve_div hname husable
      ⟨hsearchable, hname.ne_dot, hname.ne_dots, Nat.not_lt.mpr hshort⟩ (h.not_link name hmem)
  not_link := h.not_link name hmem

theorem eraseTree (h : files.Houses cwd root place names) (hmem : name ∈ names) :
    (files.eraseTree (place ++ [name])).Houses cwd root place names where
  tree := h.tree.eraseTree _
  found := by
    rw [bare_eraseTree (mem_entryPlaces hmem)]
    exact h.found
  not_link other hother target hlink :=
    h.not_link other hother target (Keeps.eraseTree files _ _ _ hlink)

end Houses

end FileSystem

namespace Stage

/-! ### Removing one leftover -/

/-- An entry that is removed if it exists is erased, provided that the removal does so. -/
theorem of_run_removal (kind : Option Node → Prop) (hnone : kind none) (htree : files.IsTree)
    (h : files.Reaches world.place path place) {removal : Attempt Unit}
    (hremoval : removal.run.run (world.answer stop) files = (.ok (), last) →
      last = files.eraseTree place ∧ kind (files.get? place))
    (hrun : (do if ← Attempt.always (Plan.pathExists path) then removal :
      Attempt Unit).run.run (world.answer stop) files = (.ok (), last)) :
    last = files.eraseTree place ∧ kind (files.get? place) := by
  rw [run_bind_ok (run_always (Plan.run_pathExists _)), h.toBool_inspect] at hrun
  cases hnode : files.get? place with
  | none =>
    rw [hnode] at hrun
    cases hrun
    exact ⟨(htree.eraseTree_eq_self hnode).symm, hnone⟩
  | some node =>
    rw [hnode] at hrun
    exact hnode ▸ hremoval hrun

/-- What does not exist is not removed. -/
theorem run_removal_of_missing {removal : Attempt Unit} {error : FileError}
    (h : files.inspect world.place path = .error error) :
    (do if ← Attempt.always (Plan.pathExists path) then removal :
      Attempt Unit).run.run (world.answer stop) files = (.ok (), files) := by
  rw [run_bind_ok (run_always (Plan.run_pathExists path)), h]
  rfl

theorem run_removeStaleFile_of_missing {error : FileError}
    (h : files.inspect world.place path = .error error) :
    (removeStaleFile path).run.run (world.answer stop) files = (.ok (), files) :=
  run_removal_of_missing h

/-- Removing a directory erases it if it is there. -/
theorem of_run_removeDirectory {activity : Activity} (htree : files.IsTree)
    (h : files.Reaches world.place path place)
    (hrun : (Plan.removeDirectory path activity).run.run (world.answer stop) files =
      (.ok (), last)) : last = files.eraseTree place := by
  refine (of_run_removal (fun _ => True) trivial htree h (fun hremoval => ?_) hrun).1
  have hremoved : files.removeTree world.place path = (.ok (), last) :=
    of_run_file (of_run_during hremoval)
  obtain ⟨found, node, hresolve, rfl⟩ := exists_of_removeTree_ok hremoved
  have hplace := place_targetAt files place
  rw [Except.ok.inj ((h.resolve .kept).symm.trans hresolve)] at hplace
  obtain rfl : found = place := hplace
  exact ⟨rfl, trivial⟩

/-- Removing a file erases it if it is there. -/
theorem of_run_removeStaleFile (htree : files.IsTree) (h : files.Reaches world.place path place)
    (hrun : (removeStaleFile path).run.run (world.answer stop) files = (.ok (), last)) :
    last = files.eraseTree place ∧ ∀ mode, files.get? place ≠ some (.directory mode) := by
  refine of_run_removal (fun node => ∀ mode, node ≠ some (.directory mode)) (by simp) htree h
    (fun hremoval => ?_) hrun
  have hsettled : FileOperation.settle files (files.removeFile world.place path) =
      (.ok (), last) :=
    of_run_file (of_run_during hremoval)
  obtain ⟨changed, hremoved, hlast⟩ := FileOperation.exists_of_settle (congrArg Prod.fst hsettled)
  rw [hsettled] at hlast
  obtain rfl : last = changed := hlast
  rw [removeFile, h.resolve, targetAt] at hremoved
  cases hnode : files.get? place with
  | none => simp [hnode] at hremoved
  | some node =>
    rw [hnode] at hremoved
    cases node with
    | directory mode =>
      simp only at hremoved
      split at hremoved <;> cases hremoved
    | file mode content =>
      simp only [discardNode] at hremoved
      split at hremoved <;> cases hremoved
      exact ⟨rfl, by simp⟩
    | link target => exact absurd hnode (h.not_link target)

/-! ### Removing all leftovers -/

/-- Removing entries one after the other erases those whose paths can be used. -/
theorem of_run_forM (remove : Path → Attempt Unit) (kind : Option Node → Prop)
    (hskip : ∀ {files : FileSystem} {path : Path} {error : FileError},
      files.inspect world.place path = .error error →
        (remove path).run.run (world.answer stop) files = (.ok (), files))
    (hremove : ∀ {files last : FileSystem} {path : Path} {place : Location}, files.IsTree →
      files.Reaches world.place path place →
      (remove path).run.run (world.answer stop) files = (.ok (), last) →
        last = files.eraseTree place ∧ kind (files.get? place))
    (hfew : few ⊆ BuildLayout.leftoverNames)
    (h : files.Houses world.place root place BuildLayout.leftoverNames)
    (hsearchable : files.isSearchable place = true)
    (hrun : ((few.map (root / ·)).forM remove).run.run (world.answer stop) files =
      (.ok (), last)) :
    last = files.bare (entryPlaces place (root.usableNames few)) ∧
      last.Houses world.place root place BuildLayout.leftoverNames ∧
      last.isSearchable place = true ∧
      ∀ name ∈ root.usableNames few, kind (files.get? (place ++ [name])) := by
  induction few generalizing files with
  | nil =>
    cases hrun
    exact ⟨rfl, h, hsearchable, nofun⟩
  | cons first rest ih =>
    obtain ⟨hfirst, hrest⟩ := List.cons_subset.mp hfew
    obtain ⟨⟨⟩, between, hnow, hlater⟩ := exists_of_run_bind hrun
    by_cases husable : (root / first).IsUsable
    · obtain ⟨rfl, hkind⟩ := hremove h.tree (h.reaches hsearchable hfirst husable) hnow
      obtain ⟨hlast, hhouses, hlastSearchable, hkinds⟩ := ih hrest (h.eraseTree hfirst)
        (by rwa [isSearchable, get?_eraseTree_concat, ← isSearchable]) hlater
      rw [Path.usableNames_cons_of_isUsable husable]
      refine ⟨hlast, hhouses, hlastSearchable, fun name hmem => ?_⟩
      by_cases hsame : name = first
      · exact hsame ▸ hkind
      · have hother := hkinds name ((List.mem_cons.mp hmem).resolve_left hsame)
        rwa [get?_eraseTree_of_not_below] at hother
        rw [Bool.eq_false_iff, ne_eq, List.isPrefixOf_iff_prefix, concat_prefix_concat_iff]
        exact Ne.symm hsame
    · obtain ⟨error, herror⟩ : ∃ error, files.inspect world.place (root / first) = .error error :=
        exists_inspect_eq_error fun _ _ hresolve => husable (resolve_eq_ok_iff.mp hresolve).1
      rw [hskip herror] at hnow
      obtain rfl : files = between := (Prod.mk.inj hnow).2
      rw [Path.usableNames_cons_of_not_isUsable husable]
      exact ih hrest h hsearchable hlater

/-- Removing entries that cannot be found leaves the files as they are. -/
theorem run_forM_of_inspect_error (remove : Path → Attempt Unit)
    (hskip : ∀ {path : Path} {error : FileError}, files.inspect world.place path = .error error →
      (remove path).run.run (world.answer stop) files = (.ok (), files))
    {paths : List Path} (h : ∀ path ∈ paths, ∃ error, files.inspect world.place path = .error error) :
    (paths.forM remove).run.run (world.answer stop) files = (.ok (), files) := by
  induction paths with
  | nil => rfl
  | cons path rest ih =>
    obtain ⟨⟨error, herror⟩, hrest⟩ := List.forall_mem_cons.mp h
    exact (run_bind_ok (hskip herror)).trans (ih hrest)

variable {context : StageContext} {package : Option Path} {output output' : StageOutput}

/-- When no leftover can be found, the stage only creates directories. -/
theorem run_of_run_removeIntermediates_of_missing
    (h : ∀ name ∈ BuildLayout.leftoverNames, ∀ last target,
      files.resolve world.place last (context.layout.root / name) ≠ .ok target)
    (hrun : (removeIntermediates context package).run.run (world.answer stop) files =
      (.ok output, last)) :
    (context.layout.freshDirs.forM Plan.createDirectory).run.run (world.answer stop) files =
        (.ok (), last) ∧ output = ⟨context.layout.freshDirs, package⟩ := by
  have hmissing {few : List String} (hfew : few ⊆ BuildLayout.leftoverNames) :
      ∀ path ∈ few.map (context.layout.root / ·),
        ∃ error, files.inspect world.place path = .error error := by
    intro path hpath
    obtain ⟨name, hname, rfl⟩ := List.mem_map.mp hpath
    exact exists_inspect_eq_error (h name (hfew hname))
  have hdirectories : (context.layout.intermediateDirs.forM fun path =>
      Plan.removeDirectory path (.removingStaleDirectory path)).run.run (world.answer stop) files =
        (.ok (), files) :=
    run_forM_of_inspect_error _ (fun herror => run_removal_of_missing herror)
      (hmissing (List.subset_append_left _ BuildLayout.looseNames))
  have hfiles : (context.layout.looseFiles.forM removeStaleFile).run.run (world.answer stop) files =
      (.ok (), files) :=
    run_forM_of_inspect_error _ (fun herror => run_removeStaleFile_of_missing herror)
      (hmissing (List.subset_append_right BuildLayout.intermediateNames _))
  rw [removeIntermediates, run_bind_ok hdirectories, run_bind_ok hfiles] at hrun
  obtain ⟨⟨⟩, last', hfresh, hlast⟩ := exists_of_run_bind hrun
  obtain ⟨houtput, rfl⟩ := Prod.mk.inj hlast
  exact ⟨hfresh, (Except.ok.inj houtput).symm⟩

/-- The stage fails unless the build directory may be searched. -/
theorem isSearchable_of_run_removeIntermediates
    (h : files.Houses world.place context.layout.root place BuildLayout.leftoverNames)
    (hrun : (removeIntermediates context package).run.run (world.answer stop) files =
      (.ok output, last)) : files.isSearchable place = true := by
  by_contra hsearchable
  obtain ⟨hfresh, -⟩ := run_of_run_removeIntermediates_of_missing (fun name hmem _ _ hresolve =>
    hsearchable (h.hasDirectory.isSearchable
      ((Path.IsWithin.refl _).div (BuildLayout.isName_of_mem hmem).1) (List.cons_ne_nil _ _)
      hresolve)) hrun
  -- Not even the first directory can have been created.
  have hname : Path.IsName "compiled_res" := by decide
  obtain ⟨⟨⟩, between, hfirst, -⟩ := exists_of_run_bind hfresh
  replace hfirst := of_run_during hfirst
  have hkeeps : files.Keeps between := (Plan.makesWay_of_run_makeDirectories hfirst).keeps
  obtain ⟨there, hthere⟩ :=
    Plan.exists_of_run_makeDirectories (Path.isEmpty_div _ hname.ne_empty) hfirst
  obtain ⟨mode, hmode⟩ := h.hasDirectory.get?_place
  exact hsearchable (hkeeps.isSearchable hmode
    ((h.hasDirectory.keeps hkeeps).of_div hname hthere).1)

/-- When the stage succeeds, some directories have been created again without the leftovers. -/
theorem run_of_run_removeIntermediates
    (h : files.Houses world.place context.layout.root place BuildLayout.leftoverNames)
    (hrun : (removeIntermediates context package).run.run (world.answer stop) files =
      (.ok output, last)) :
    (context.layout.freshDirs.forM Plan.createDirectory).run.run (world.answer stop)
        (files.bare (entryPlaces place
          (context.layout.root.usableNames BuildLayout.leftoverNames))) = (.ok (), last) ∧
      output = ⟨context.layout.freshDirs, package⟩ ∧
      ∀ name ∈ context.layout.root.usableNames BuildLayout.looseNames,
        ∀ mode, files.get? (place ++ [name]) ≠ some (.directory mode) := by
  have hsearchable := isSearchable_of_run_removeIntermediates h hrun
  rw [removeIntermediates] at hrun
  obtain ⟨⟨⟩, between, hdirectories, hrest⟩ := exists_of_run_bind hrun
  obtain ⟨⟨⟩, between', hfiles, hrest⟩ := exists_of_run_bind hrest
  obtain ⟨⟨⟩, last', hfresh, hlast⟩ := exists_of_run_bind hrest
  obtain ⟨houtput, rfl⟩ := Prod.mk.inj hlast
  rw [BuildLayout.intermediateDirs_eq] at hdirectories
  rw [BuildLayout.looseFiles_eq] at hfiles
  obtain ⟨rfl, hbetween, hbetweenSearchable, -⟩ := of_run_forM
    (fun path => Plan.removeDirectory path (.removingStaleDirectory path)) (fun _ => True)
    (fun herror => run_removal_of_missing herror)
    (fun htree hreaches hrun => ⟨of_run_removeDirectory htree hreaches hrun, trivial⟩)
    (List.subset_append_left _ _) h hsearchable hdirectories
  obtain ⟨rfl, -, -, hloose⟩ := of_run_forM removeStaleFile
    (fun node => ∀ mode, node ≠ some (.directory mode))
    (fun herror => run_removeStaleFile_of_missing herror) of_run_removeStaleFile
    (List.subset_append_right _ _) hbetween hbetweenSearchable hfiles
  refine ⟨?_, (Except.ok.inj houtput).symm, fun name hmem mode hnode => hloose name hmem mode ?_⟩
  · rw [← hfresh, BuildLayout.leftoverNames, Path.usableNames, List.filter_append, entryPlaces,
      List.map_append, bare, List.foldl_append]
    rfl
  · obtain ⟨hloose, -⟩ := Path.mem_usableNames.mp hmem
    rw [get?_bare, if_neg, hnode]
    rw [covers_entryPlaces_iff]
    rintro ⟨other, hother, hbegins⟩
    obtain rfl := concat_prefix_concat_iff.mp hbegins
    exact BuildLayout.disjoint_names (Path.mem_usableNames.mp hother).1 hloose

/-- In file systems that differ in leftovers alone the stage leaves the same files. -/
theorem run_removeIntermediates_eq
    (h : files.Cluttered world.place context.layout.root place BuildLayout.leftoverNames)
    (h' : other.Cluttered world.place context.layout.root place BuildLayout.leftoverNames)
    (hbare : files.bare (entryPlaces place BuildLayout.leftoverNames) =
      other.bare (entryPlaces place BuildLayout.leftoverNames))
    (hrun : (removeIntermediates context package).run.run (world.answer stop) files =
      (.ok output, last))
    (hrun' : (removeIntermediates context package).run.run (world.answer stop) other =
      (.ok output', last')) : output' = output ∧ last' = last := by
  have hnames : context.layout.root.usableNames BuildLayout.leftoverNames =
      BuildLayout.leftoverNames :=
    List.filter_eq_self.mpr fun name hmem => decide_eq_true (h.isEntry name hmem).usable
  obtain ⟨hfresh, rfl, -⟩ := run_of_run_removeIntermediates h.houses hrun
  obtain ⟨hfresh', rfl, -⟩ := run_of_run_removeIntermediates h'.houses hrun'
  rw [hnames] at hfresh hfresh'
  rw [← hbare, hfresh] at hfresh'
  exact ⟨rfl, (congrArg Prod.snd hfresh').symm⟩

end Stage

end SketchApk
