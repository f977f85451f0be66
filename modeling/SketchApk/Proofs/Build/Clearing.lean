import SketchApk.Proofs.Build.Rebuild
import SketchApk.Proofs.File.Replace
import SketchApk.Proofs.Plan.Furnishing
import SketchApk.Stage.Execute

/-!
# Exactly the leftovers are removed

When the stage at the beginning of a build succeeds, the directories that the first stages write to
are there and empty, and nothing else is left of an earlier build. Everything beside the leftovers
is what it was, but for the build directory and the directories on the way to it, which are created
if they are missing. After that the stage succeeds again and changes nothing.

This is so when the build path leads to the build directory without passing through a leftover, and
does so from the beginning unless the build directory is missing.

## Main definitions

* `BuildLayout.IsRooted` : where the build directory is.
* `Stage.HasCleared` : the files behind the stage.

## Main statements

* `Stage.hasCleared_of_furnishes` : the directories that are created again.
* `Stage.run_of_hasCleared` : the stage changes nothing if there are no leftovers.
* `Stage.clears_leftovers` : the stage removes exactly the leftovers.
-/

namespace SketchApk

open Attempt FileSystem

/-- The entries of the build directory that are created again. -/
def BuildLayout.freshNames : List String :=
  ["compiled_res", "gen", "classes", "dex"]

namespace BuildLayout

theorem freshDirs_eq (layout : BuildLayout) :
    layout.freshDirs = freshNames.map (layout.root / ·) :=
  rfl

theorem mem_intermediateNames_of_mem_freshNames {name : String} (h : name ∈ freshNames) :
    name ∈ intermediateNames := by
  have hall : ∀ name ∈ freshNames, name ∈ intermediateNames := by
    decide
  exact hall name h

theorem mem_leftoverNames_of_mem_freshNames {name : String} (h : name ∈ freshNames) :
    name ∈ leftoverNames :=
  List.mem_append_left _ (mem_intermediateNames_of_mem_freshNames h)

/-- The build path leads to the build directory without passing through a leftover. It does so from
the beginning, or the directory is missing and the path leads to it when it has been created. -/
inductive IsRooted (root : Path) (cwd place : Location) (files last : FileSystem) : Prop
  | existing (h : (files.bare (entryPlaces place leftoverNames)).HasDirectory cwd root place)
  | missing (hplace : files.get? place = none)
      (hroot : ∀ there, ¬files.HasDirectory cwd root there)
      (hlast : (last.bare (entryPlaces place leftoverNames)).HasDirectory cwd root place)

end BuildLayout

open BuildLayout

variable {world : World} {stop : Bool} {files bare last : FileSystem} {cwd place there : Location}
  {root : Path} {name : String} {context : StageContext} {package : Option Path}
  {output : StageOutput}

namespace Stage

/-- What an earlier build has left is gone, and the directories that the first stages write to are
there and empty. -/
structure HasCleared (files : FileSystem) (cwd : Location) (root : Path) (place : Location)
    (last : FileSystem) : Prop where
  /-- The first directories exist. -/
  find_fresh : ∀ name ∈ freshNames,
    last.find cwd (root / name) = .ok (place ++ [name], .directory Mode.newDirectory)
  /-- They are empty. -/
  get?_below_fresh : ∀ name ∈ freshNames, ∀ rest ≠ [], last.get? (place ++ [name] ++ rest) = none
  /-- The other leftovers do not exist. -/
  find_ne_ok : ∀ name ∈ leftoverNames, name ∉ freshNames → ∀ found,
    last.find cwd (root / name) ≠ .ok found
  get?_eq_none : ∀ name ∈ root.usableNames leftoverNames, name ∉ freshNames →
    last.get? (place ++ [name]) = none
  /-- Elsewhere the only new nodes are directories on the way of the build path. -/
  cases_of_get? : ∀ there, (∀ name ∈ leftoverNames, there ≠ place ++ [name]) →
    (∀ name ∈ intermediateNames, ¬place ++ [name] <+: there) →
      last.get? there = files.get? there ∨
        files.get? there = none ∧ last.get? there = some (.directory Mode.newDirectory) ∧
          ∃ other, other.IsOnWay root ∧ last.HasDirectory cwd other there

/-! ### The directories that are created again -/

section Fresh

variable (h : bare.Furnishes cwd (freshNames.map (root / ·)) last)
  (hclear : (last.bare (entryPlaces place leftoverNames)).HasDirectory cwd root place)

include h hclear

/-- A node that is new is one of the directories that are created again, or it is a directory beside
the leftovers on the way of the build path. -/
theorem cases_of_furnishes (hnone : bare.get? there = none) (hnode : last.get? there ≠ none) :
    last.get? there = some (.directory Mode.newDirectory) ∧
      ((∃ name ∈ freshNames, last.HasDirectory cwd (root / name) there) ∨
        covers (entryPlaces place leftoverNames) there = false ∧
          ∃ other, other.IsOnWay root ∧ last.HasDirectory cwd other there) := by
  rcases h.cases_of_get? there with hsame | ⟨-, hnew, path, hpath, other, hway, hother⟩
  · exact absurd (hsame.trans hnone) hnode
  refine ⟨hnew, ?_⟩
  obtain ⟨name, hname, rfl⟩ := List.mem_map.mp hpath
  rcases hway.of_div (isName_of_mem (mem_leftoverNames_of_mem_freshNames hname)).1 with
    hroot | ⟨hback, hnames⟩
  · refine .inr ⟨?_, other, hroot, hother⟩
    obtain ⟨found, hfound⟩ := hclear.exists_of_isOnWay hroot
    obtain rfl : found = there :=
      hother.eq_of_sameLinks (.refl last) (hfound.keeps (keeps_bare last _))
    obtain ⟨mode, hmode⟩ := hfound.get?_place
    rw [get?_bare] at hmode
    split at hmode
    · cases hmode
    · exact Bool.eq_false_iff.mpr ‹_›
  · obtain ⟨wants, mode, hleads⟩ := hother
    exact .inl ⟨name, hname, wants, mode, by rwa [← hnames, hback.start_eq]⟩

variable (hvacant : ∀ there, covers (entryPlaces place (root.usableNames leftoverNames)) there =
  true → bare.get? there = none)

include hvacant

/-- The directories that are created again are new. -/
theorem get?_of_furnishes (hname : name ∈ freshNames) :
    last.get? (place ++ [name]) = some (.directory Mode.newDirectory) ∧
      last.find cwd (root / name) = .ok (place ++ [name], .directory Mode.newDirectory) := by
  have hmem := mem_leftoverNames_of_mem_freshNames hname
  obtain ⟨husable, there, hthere⟩ := h.exists_directory (List.mem_map_of_mem hname)
  have hnone := hvacant (place ++ [name]) (covers_entryPlaces_iff.mpr
    ⟨name, Path.mem_usableNames.mpr ⟨hmem, husable⟩, List.prefix_rfl⟩)
  have hnode := h.cases_of_get? (place ++ [name])
  have hroot : last.HasDirectory cwd root place := hclear.keeps (keeps_bare last _)
  obtain ⟨-, hplace⟩ := hroot.of_div (isName_of_mem hmem).1 hthere
  obtain rfl := hplace fun target hlink => by
    rcases hnode with hsame | ⟨-, hnew, -⟩
    · cases hlink.symm.trans (hsame.trans hnone)
    · cases hlink.symm.trans hnew
  obtain ⟨mode, hmode⟩ := hthere.get?_place
  rcases hnode with hsame | ⟨-, hnew, -⟩
  · cases hmode.symm.trans (hsame.trans hnone)
  · exact ⟨hnew, hthere.find husable hnew⟩

/-- There is nothing else at or below the leftovers that can be found. -/
theorem exists_of_covers
    (hcovers : covers (entryPlaces place (root.usableNames leftoverNames)) there = true)
    (hnode : last.get? there ≠ none) : ∃ name ∈ freshNames, there = place ++ [name] := by
  obtain ⟨-, ⟨name, hname, hthere⟩ | ⟨hbeside, -⟩⟩ :=
    cases_of_furnishes h hclear (hvacant there hcovers) hnode
  · obtain ⟨-, hfind⟩ := get?_of_furnishes h hclear hvacant hname
    exact ⟨name, hname, (HasDirectory.of_find hfind).eq_of_sameLinks (.refl last) hthere⟩
  · obtain ⟨name, hname, hbegins⟩ := covers_entryPlaces_iff.mp hcovers
    exact absurd (hbeside.symm.trans (covers_entryPlaces_iff.mpr
      ⟨name, (Path.mem_usableNames.mp hname).1, hbegins⟩)) Bool.false_ne_true

/-- The other leftovers do not exist. -/
theorem get?_eq_none_of_furnishes (hname : name ∈ root.usableNames leftoverNames)
    (hfresh : name ∉ freshNames) : last.get? (place ++ [name]) = none := by
  by_contra hnode
  obtain ⟨other, hother, hsame⟩ := exists_of_covers h hclear hvacant
    (covers_entryPlaces_iff.mpr ⟨name, hname, List.prefix_rfl⟩) hnode
  obtain rfl : name = other := by simpa using hsame
  exact hfresh hother

/-- The directories that are created again are empty. -/
theorem get?_below_of_furnishes (hname : name ∈ freshNames) {rest : List String} (hrest : rest ≠ []) :
    last.get? (place ++ [name] ++ rest) = none := by
  by_contra hnode
  obtain ⟨husable, -⟩ := h.exists_directory (List.mem_map_of_mem hname)
  have hmem := mem_leftoverNames_of_mem_freshNames hname
  obtain ⟨other, -, hsame⟩ := exists_of_covers h hclear hvacant
    (covers_entryPlaces_iff.mpr ⟨name, Path.mem_usableNames.mpr ⟨hmem, husable⟩,
      List.prefix_append _ _⟩) hnode
  have hlength := congrArg List.length hsame
  have hpos := List.length_pos_iff.mpr hrest
  simp only [List.length_append, List.length_singleton] at hlength
  omega

end Fresh

/-- The path of a leftover leads nowhere when there is nothing at its place. -/
theorem find_ne_ok_of_get?_eq_none (hroot : last.HasDirectory cwd root place)
    (hname : name ∈ leftoverNames)
    (hnone : name ∈ root.usableNames leftoverNames → last.get? (place ++ [name]) = none)
    (found : Location × Node) : last.find cwd (root / name) ≠ .ok found := by
  intro hfind
  obtain ⟨hentry, hshort⟩ := isName_of_mem hname
  have hresolve := find_eq_ok_iff.mp hfind
  have husable := (resolve_eq_ok_iff.mp hresolve).1
  replace hnone := hnone (Path.mem_usableNames.mpr ⟨hname, husable⟩)
  have hsearchable := hroot.isSearchable ((Path.IsWithin.refl root).div hentry)
    (List.cons_ne_nil _ _) hresolve
  rw [hroot.resolve_div hentry husable ⟨hsearchable, hentry.ne_dot, hentry.ne_dots,
    Nat.not_lt.mpr hshort⟩ (by simp [hnone]), targetAt, hnone] at hresolve
  cases hresolve

/-- Removing the leftovers concerns nothing else: what is below a loose file is left, and there is
nothing. -/
theorem get?_bare_of_loose (htree : files.IsTree)
    (hloose : ∀ name ∈ root.usableNames looseNames, ∀ mode,
      files.get? (place ++ [name]) ≠ some (.directory mode))
    (hentries : ∀ name ∈ leftoverNames, there ≠ place ++ [name])
    (hbelow : ∀ name ∈ intermediateNames, ¬place ++ [name] <+: there) :
    (files.bare (entryPlaces place (root.usableNames leftoverNames))).get? there =
      files.get? there := by
  rw [get?_bare]
  split
  · rename_i hthere
    obtain ⟨name, hname, rest, rfl⟩ := covers_entryPlaces_iff.mp hthere
    obtain ⟨hmem, husable⟩ := Path.mem_usableNames.mp hname
    have hrest : rest ≠ [] := by
      rintro rfl
      exact hentries name hmem (List.append_nil _)
    have hname' : name ∈ looseNames := (List.mem_append.mp hmem).resolve_left fun hmem =>
      hbelow name hmem (List.prefix_append _ _)
    cases hnode : files.get? (place ++ [name] ++ rest) with
    | none => rfl
    | some node =>
      obtain ⟨mode, hmode⟩ := htree.exists_directory hrest hnode
      exact absurd hmode (hloose name (Path.mem_usableNames.mpr ⟨hname', husable⟩) mode)
  · rfl

/-- When the directories have been created again without the leftovers, nothing is left. -/
theorem hasCleared_of_furnishes (htree : files.IsTree)
    (hloose : ∀ name ∈ root.usableNames looseNames, ∀ mode,
      files.get? (place ++ [name]) ≠ some (.directory mode))
    (h : (files.bare (entryPlaces place (root.usableNames leftoverNames))).Furnishes cwd
      (freshNames.map (root / ·)) last)
    (hclear : (last.bare (entryPlaces place leftoverNames)).HasDirectory cwd root place) :
    HasCleared files cwd root place last := by
  have hvacant (there : Location)
      (hcovers : covers (entryPlaces place (root.usableNames leftoverNames)) there = true) :
      (files.bare (entryPlaces place (root.usableNames leftoverNames))).get? there = none := by
    rw [get?_bare, if_pos hcovers]
  exact {
    find_fresh := fun name hname => (get?_of_furnishes h hclear hvacant hname).2
    get?_below_fresh := fun name hname rest => get?_below_of_furnishes h hclear hvacant hname
    find_ne_ok := fun name hname hfresh => find_ne_ok_of_get?_eq_none
      (hclear.keeps (keeps_bare last _)) hname
      fun husable => get?_eq_none_of_furnishes h hclear hvacant husable hfresh
    get?_eq_none := fun name => get?_eq_none_of_furnishes h hclear hvacant
    cases_of_get? := by
      intro there hentries hbelow
      rw [← get?_bare_of_loose htree hloose hentries hbelow]
      rcases h.cases_of_get? there with heq | ⟨hnone, hnew, -⟩
      · exact .inl heq
      obtain ⟨-, ⟨name, hname, hthere⟩ | ⟨-, hway⟩⟩ :=
        cases_of_furnishes h hclear hnone (by simp [hnew])
      · obtain ⟨-, hfind⟩ := get?_of_furnishes h hclear hvacant hname
        exact absurd ((HasDirectory.of_find hfind).eq_of_sameLinks (.refl last) hthere)
          (hentries name (mem_leftoverNames_of_mem_freshNames hname))
      · exact .inr ⟨hnone, hnew, hway⟩ }

/-! ### Clearing again -/

/-- An entry is removed if there is nothing at its place, or an empty directory. -/
theorem run_removeDirectory_of_empty {path : Path} {activity : Activity} (htree : files.IsTree)
    (h : files.Reaches world.place path (place ++ [name]))
    (hchangeable : files.isChangeable place = true)
    (hempty : ∀ node, files.get? (place ++ [name]) = some node →
      node = .directory Mode.newDirectory ∧
        ∀ rest ≠ [], files.get? (place ++ [name] ++ rest) = none) :
    (Plan.removeDirectory path activity).run.run (world.answer stop) files =
      (.ok (), files.eraseTree (place ++ [name])) := by
  refine (run_bind_ok (run_always (Plan.run_pathExists path))).trans ?_
  rw [h.toBool_inspect]
  cases hnode : files.get? (place ++ [name]) with
  | none =>
    rw [htree.eraseTree_eq_self hnode]
    rfl
  | some node =>
    obtain ⟨rfl, hbelow⟩ := hempty node hnode
    have hresolve := h.resolve .kept
    rw [targetAt, hnode] at hresolve
    refine run_during_ok ?_
    rw [run_file, FileOperation.run,
      removeTree_of_empty hresolve (by decide) hbelow hchangeable]
    rfl

/-- Removing entries one after the other erases those whose paths can be used, if they are empty
directories. -/
theorem run_forM_removeDirectory {few : List String} (hfew : few ⊆ leftoverNames)
    (h : files.Houses world.place root place leftoverNames)
    (hchangeable : files.isChangeable place = true)
    (hempty : ∀ name ∈ root.usableNames few, ∀ node, files.get? (place ++ [name]) = some node →
      node = .directory Mode.newDirectory ∧
        ∀ rest ≠ [], files.get? (place ++ [name] ++ rest) = none) :
    ((few.map (root / ·)).forM fun path =>
        Plan.removeDirectory path (.removingStaleDirectory path)).run.run (world.answer stop) files =
      (.ok (), files.bare (entryPlaces place (root.usableNames few))) := by
  induction few generalizing files with
  | nil => rfl
  | cons first rest ih =>
    obtain ⟨hfirst, hrest⟩ := List.cons_subset.mp hfew
    by_cases husable : (root / first).IsUsable
    · rw [Path.usableNames_cons_of_isUsable husable] at hempty ⊢
      obtain ⟨hname, hshort⟩ := isName_of_mem hfirst
      have hsearchable := (admits_of_isChangeable hchangeable hname hshort).searchable
      have hkept := get?_eraseTree_concat files place first
      refine (run_bind_ok (run_removeDirectory_of_empty h.tree
        (h.reaches hsearchable hfirst husable) hchangeable
        (hempty first List.mem_cons_self))).trans (ih hrest (h.eraseTree hfirst)
          ((isChangeable_congr hkept).trans hchangeable) fun name hname node hnode => ?_)
      obtain ⟨hdirectory, hbelow⟩ := hempty name (List.mem_cons_of_mem _ hname) node
        (Keeps.eraseTree files _ _ _ hnode)
      refine ⟨hdirectory, fun rest hne => ?_⟩
      rw [get?_eraseTree, hbelow rest hne, ite_self]
    · rw [Path.usableNames_cons_of_not_isUsable husable] at hempty ⊢
      obtain ⟨error, herror⟩ : ∃ error, files.inspect world.place (root / first) = .error error :=
        exists_inspect_eq_error fun _ _ hresolve => husable (resolve_eq_ok_iff.mp hresolve).1
      exact (run_bind_ok (run_removal_of_missing herror)).trans (ih hrest h hchangeable hempty)

/-- What is left at the places of the leftovers are empty directories that have been created
again. -/
theorem HasCleared.of_get? {node : Node} (h : HasCleared files cwd root place last)
    (hname : name ∈ root.usableNames leftoverNames)
    (hnode : last.get? (place ++ [name]) = some node) :
    name ∈ freshNames ∧ node = .directory Mode.newDirectory ∧
      ∀ rest ≠ [], last.get? (place ++ [name] ++ rest) = none := by
  by_cases hfresh : name ∈ freshNames
  · have hfind := get?_of_find (h.find_fresh name hfresh)
    exact ⟨hfresh, Option.some.inj (hnode.symm.trans hfind), h.get?_below_fresh name hfresh⟩
  · cases hnode.symm.trans (h.get?_eq_none name hname hfresh)

/-- Nothing is left at or below the places of the intermediate directories but those that have been
created again. -/
theorem HasCleared.get?_of_covers {there : Location}
    (h : HasCleared files cwd root place last) (htree : last.IsTree)
    (hcovers : covers (entryPlaces place (root.usableNames intermediateNames)) there = true)
    (hmem : there ∉ entryPlaces place freshNames) : last.get? there = none := by
  obtain ⟨name, hname, rest, rfl⟩ := covers_entryPlaces_iff.mp hcovers
  obtain ⟨hintermediate, husable⟩ := Path.mem_usableNames.mp hname
  have hleftover := Path.mem_usableNames.mpr
    ⟨List.mem_append_left looseNames hintermediate, husable⟩
  cases hnode : last.get? (place ++ [name] ++ rest) with
  | none => rfl
  | some node =>
    by_cases hrest : rest = []
    · subst hrest
      rw [List.append_nil] at hnode hmem
      exact absurd (mem_entryPlaces (h.of_get? hleftover hnode).1) hmem
    · obtain ⟨mode, hmode⟩ := htree.exists_directory hrest hnode
      obtain ⟨-, -, hbelow⟩ := h.of_get? hleftover hmode
      cases hnode.symm.trans (hbelow rest hrest)

/-- There are no other files to be removed. -/
theorem run_looseFiles_of_hasCleared
    (h : HasCleared files world.place context.layout.root place last) (hkeeps : bare.Keeps last) :
    (context.layout.looseFiles.forM removeStaleFile).run.run (world.answer stop) bare =
      (.ok (), bare) := by
  refine run_forM_of_inspect_error removeStaleFile
    (fun herror => run_removeStaleFile_of_missing herror) fun path hpath => ?_
  rw [looseFiles_eq] at hpath
  obtain ⟨name, hname, rfl⟩ := List.mem_map.mp hpath
  have hfresh : name ∉ freshNames := fun hfresh =>
    disjoint_names (mem_intermediateNames_of_mem_freshNames hfresh) hname
  rw [inspect]
  cases hfind : bare.find world.place (context.layout.root / name) with
  | error error => exact ⟨error, rfl⟩
  | ok found =>
    exact absurd (hkeeps.find hfind)
      (h.find_ne_ok name (List.mem_append_right _ hname) hfresh found)

section Again

variable (h : HasCleared files world.place context.layout.root place last)
  (hhouses : last.Houses world.place context.layout.root place leftoverNames)
  (hchangeable : last.isChangeable place = true)

include h hhouses hchangeable

/-- When the directories that are there have been removed, they are created again. -/
theorem run_freshDirs_of_hasCleared :
    (context.layout.freshDirs.forM Plan.createDirectory).run.run (world.answer stop)
        (last.bare (entryPlaces place (context.layout.root.usableNames intermediateNames))) =
      (.ok (), last) := by
  have hroot : (last.bare (entryPlaces place
      (context.layout.root.usableNames intermediateNames))).HasDirectory world.place
        context.layout.root place := by
    refine hhouses.found.keeps (keeps_bare_bare fun there hthere => ?_)
    obtain ⟨name, hname, hbegins⟩ := covers_entryPlaces_iff.mp hthere
    exact covers_entryPlaces_iff.mpr
      ⟨name, List.mem_append_left _ (Path.mem_usableNames.mp hname).1, hbegins⟩
  have hbare := get?_bare_entryPlaces last place
    (context.layout.root.usableNames intermediateNames)
  obtain ⟨again, hrun, hagain⟩ := Plan.exists_of_vacant hroot
    ((isChangeable_congr hbare).trans hchangeable) (by decide : freshNames.Nodup)
    fun name hname => by
      have hmem := mem_leftoverNames_of_mem_freshNames hname
      have husable := (resolve_eq_ok_iff.mp (find_eq_ok_iff.mp (h.find_fresh name hname))).1
      refine ⟨(isName_of_mem hmem).1, (isName_of_mem hmem).2, husable, ?_⟩
      rw [get?_bare, if_pos (covers_entryPlaces_iff.mpr ⟨name, Path.mem_usableNames.mpr
        ⟨mem_intermediateNames_of_mem_freshNames hname, husable⟩, List.prefix_rfl⟩)]
  have hlast : again = last := by
    refine ext fun there => ?_
    rw [hagain]
    split
    · rename_i hmem
      obtain ⟨name, hname, rfl⟩ := List.mem_map.mp hmem
      exact (get?_of_find (h.find_fresh name hname)).symm
    · rename_i hmem
      rw [get?_bare]
      split
      · exact (h.get?_of_covers hhouses.tree ‹_› hmem).symm
      · rfl
  rw [freshDirs_eq, hrun, hlast]

/-- When nothing is left of an earlier build, the stage changes nothing. -/
theorem run_of_hasCleared :
    (removeIntermediates context package).run.run (world.answer stop) last =
      (.ok ⟨context.layout.freshDirs, package⟩, last) := by
  have hdirectories : (context.layout.intermediateDirs.forM fun path =>
        Plan.removeDirectory path (.removingStaleDirectory path)).run.run (world.answer stop) last =
      (.ok (), last.bare (entryPlaces place
        (context.layout.root.usableNames intermediateNames))) := by
    rw [intermediateDirs_eq]
    refine run_forM_removeDirectory (List.subset_append_left _ _) hhouses hchangeable
      fun name hname node hnode => ?_
    obtain ⟨hmem, husable⟩ := Path.mem_usableNames.mp hname
    exact (h.of_get? (Path.mem_usableNames.mpr ⟨List.mem_append_left _ hmem, husable⟩) hnode).2
  rw [removeIntermediates, run_bind_ok hdirectories,
    run_bind_ok (run_looseFiles_of_hasCleared h (keeps_bare last _))]
  exact run_bind_ok (run_freshDirs_of_hasCleared h hhouses hchangeable)

end Again

/-! ### The stage -/

/-- When the directories have been created again without the leftovers, nothing is left, and the
stage changes nothing more. -/
theorem clears_of_furnishes (htree : files.IsTree)
    (hlinks : ∀ name ∈ leftoverNames, ∀ target, files.get? (place ++ [name]) ≠ some (.link target))
    (hloose : ∀ name ∈ context.layout.root.usableNames looseNames, ∀ mode,
      files.get? (place ++ [name]) ≠ some (.directory mode))
    (h : (files.bare (entryPlaces place (context.layout.root.usableNames leftoverNames))).Furnishes
      world.place (freshNames.map (context.layout.root / ·)) last)
    (hclear : (last.bare (entryPlaces place leftoverNames)).HasDirectory world.place
      context.layout.root place) :
    HasCleared files world.place context.layout.root place last ∧
      ∀ again, (removeIntermediates context again).run.run (world.answer stop) last =
        (.ok ⟨context.layout.freshDirs, again⟩, last) := by
  have hcleared := hasCleared_of_furnishes htree hloose h hclear
  have hhouses : last.Houses world.place context.layout.root place leftoverNames := by
    refine ⟨h.sameFiles.isTree (isTree_bare htree _), hclear, fun name hname target hlink => ?_⟩
    have hbefore := (h.sameFiles.sameLinks _ _).mpr hlink
    exact hlinks name hname target (keeps_bare files _ _ _ hbefore)
  have hchangeable : last.isChangeable place = true := by
    have hname : "compiled_res" ∈ freshNames := by decide
    have hfind := hcleared.find_fresh _ hname
    have husable := (resolve_eq_ok_iff.mp (find_eq_ok_iff.mp hfind)).1
    refine (h.cases_of_concat place "compiled_res").resolve_left fun hsame => ?_
    rw [get?_of_find hfind, get?_bare, if_pos (covers_entryPlaces_iff.mpr ⟨_,
      Path.mem_usableNames.mpr ⟨mem_leftoverNames_of_mem_freshNames hname, husable⟩,
      List.prefix_rfl⟩)] at hsame
    cases hsame
  exact ⟨hcleared, fun _ => run_of_hasCleared hcleared hhouses hchangeable⟩

/-- The stage removes exactly what an earlier build has left: the directories that the first stages
write to are there and empty, the other leftovers are gone, and elsewhere nothing has changed but
that the build directory may be new, with directories on the way to it. Then it succeeds again and
changes nothing. -/
theorem clears_leftovers (htree : files.IsTree)
    (hlinks : ∀ name ∈ leftoverNames, ∀ target, files.get? (place ++ [name]) ≠ some (.link target))
    (hroot : IsRooted context.layout.root world.place place files last)
    (hrun : (Stage.clean.execute context package).run.run (world.answer stop) files =
      (.ok output, last)) :
    HasCleared files world.place context.layout.root place last ∧
      ∀ again, (Stage.clean.execute context again).run.run (world.answer stop) last =
        (.ok ⟨context.layout.freshDirs, again⟩, last) := by
  have hnames : ∀ name ∈ freshNames, Path.IsName name := fun name hname =>
    (isName_of_mem (mem_leftoverNames_of_mem_freshNames hname)).1
  cases hroot with
  | existing hfound =>
    obtain ⟨hfresh, -, hloose⟩ := run_of_run_removeIntermediates ⟨htree, hfound, hlinks⟩ hrun
    have hfurnishes := Plan.furnishes_of_run_forM hnames hfresh
    refine clears_of_furnishes htree hlinks hloose hfurnishes (hfound.keeps ?_)
    refine keeps_bare_of_keeps ((keeps_bare_bare fun there hthere => ?_).trans hfurnishes.sameFiles.keeps)
    obtain ⟨name, hname, hbegins⟩ := covers_entryPlaces_iff.mp hthere
    exact covers_entryPlaces_iff.mpr ⟨name, (Path.mem_usableNames.mp hname).1, hbegins⟩
  | missing hplace hmissing hlast =>
    have hnone (name : String) : files.get? (place ++ [name]) = none :=
      htree.get?_eq_none hplace [name]
    obtain ⟨hfresh, -⟩ := run_of_run_removeIntermediates_of_missing
      (fun name hname _ _ hresolve => by
        obtain ⟨there, hthere, -⟩ := exists_of_resolve_within
          ((Path.IsWithin.refl _).div (isName_of_mem hname).1) (List.cons_ne_nil _ _) hresolve
        exact hmissing there hthere) hrun
    have hbare : files.bare (entryPlaces place (context.layout.root.usableNames leftoverNames)) =
        files := by
      refine htree.bare_eq_self fun there hthere => ?_
      obtain ⟨name, -, rfl⟩ := List.mem_map.mp hthere
      exact Option.isNone_iff_eq_none.mpr (hnone name)
    refine clears_of_furnishes htree hlinks (fun name _ mode => by simp [hnone]) ?_ hlast
    rw [hbare]
    exact Plan.furnishes_of_run_forM hnames hfresh

/-! ### Examples -/

/-- A build with a configuration, all of whose tools are one program. -/
def sampleContext (config : BuildConfig) : StageContext :=
  ⟨config, Builder.sampleBuilder.toolchain⟩

/-- The first stage of such a build. -/
def sampleClean (config : BuildConfig) (files : FileSystem) :
    Except Fault StageOutput × FileSystem :=
  (Stage.clean.execute (sampleContext config) none).run.run (Builder.idleWorld.answer false) files

theorem exists_sampleClean {config : BuildConfig} (h : (sampleClean config files).1.toBool = true) :
    ∃ output, sampleClean config files = (.ok output, (sampleClean config files).2) := by
  rcases hresult : sampleClean config files with ⟨fault | output, last⟩
  · rw [hresult] at h
    cases h
  · exact ⟨output, rfl⟩

/-- A configuration of which the build directory is missing. -/
def newcomerConfig : BuildConfig :=
  { Builder.sampleConfig with buildPath := ⟨"/d/out/x"⟩ }

theorem isRooted_stale : IsRooted (sampleContext Builder.sampleConfig).layout.root
    Builder.idleWorld.place ["d"] Builder.staleFiles
    (sampleClean Builder.sampleConfig Builder.staleFiles).2 := by
  have hfind : Builder.sampleFiles.find [] ⟨"/d"⟩ = .ok (["d"], .directory 0o755) := rfl
  refine .existing ?_
  rw [Builder.bare_staleFiles]
  exact .of_find hfind

theorem isRooted_newcomer : IsRooted (sampleContext newcomerConfig).layout.root
    Builder.idleWorld.place ["d", "out", "x"] Builder.sampleFiles
    (sampleClean newcomerConfig Builder.sampleFiles).2 := by
  have hmissing : Builder.sampleFiles.find [] ⟨"/d/out/x"⟩ = .error .notFound := rfl
  have hfound : isDirectoryAt ["d", "out", "x"]
      (((sampleClean newcomerConfig Builder.sampleFiles).2.bare
        (entryPlaces ["d", "out", "x"] leftoverNames)).find [] ⟨"/d/out/x"⟩) = true := by
    decide +kernel
  refine .missing rfl (fun there hthere => ?_) ?_
  · obtain ⟨mode, hmode⟩ := hthere.get?_place
    have husable : (⟨"/d/out/x"⟩ : Path).IsUsable := by decide +kernel
    cases hmissing.symm.trans (hthere.find husable hmode)
  · obtain ⟨mode, hfind⟩ := isDirectoryAt_iff.mp hfound
    exact .of_find hfind

/-- A stale class is removed, and a build directory that is missing is created. -/
theorem clears_samples :
    (∃ output last, sampleClean Builder.sampleConfig Builder.staleFiles = (.ok output, last) ∧
      HasCleared Builder.staleFiles [] ⟨"/d"⟩ ["d"] last) ∧
    ∃ output last, sampleClean newcomerConfig Builder.sampleFiles = (.ok output, last) ∧
      HasCleared Builder.sampleFiles [] ⟨"/d/out/x"⟩ ["d", "out", "x"] last := by
  obtain ⟨output, hrun⟩ :=
    exists_sampleClean (by decide +kernel :
      (sampleClean Builder.sampleConfig Builder.staleFiles).1.toBool = true)
  obtain ⟨output', hrun'⟩ :=
    exists_sampleClean (by decide +kernel :
      (sampleClean newcomerConfig Builder.sampleFiles).1.toBool = true)
  obtain ⟨hstale, -⟩ := clears_leftovers Builder.isTree_staleFiles
    (fun _ _ => Builder.get?_staleFiles_ne_link _) isRooted_stale hrun
  obtain ⟨hnewcomer, -⟩ := clears_leftovers Builder.isTree_sampleFiles
    (fun _ _ => Builder.get?_sampleFiles_ne_link _) isRooted_newcomer hrun'
  exact ⟨⟨output, _, hrun, hstale⟩, output', _, hrun', hnewcomer⟩

/-- A configuration whose build path leads through a directory that is missing. -/
def detourConfig : BuildConfig :=
  { Builder.sampleConfig with buildPath := ⟨"/x/../d"⟩ }

/-- A stale class stays when the build path leads through a directory that is removed, or does not
lead to the build directory at first. -/
theorem stale_class_stays :
    (Builder.roundabout Builder.staleFiles).IsTree ∧
    (∀ place target, (Builder.roundabout Builder.staleFiles).get? place ≠ some (.link target)) ∧
    ∀ config ∈ [Builder.roundaboutConfig, detourConfig], ∃ output last,
      sampleClean config (Builder.roundabout Builder.staleFiles) = (.ok output, last) ∧
      (∃ mode, last.find [] config.layout.classesDir = .ok (["d", "classes"], .directory mode)) ∧
      (last.get? ["d", "classes", "Stale.class"]).isSome = true := by
  have hstays : ∀ config ∈ [Builder.roundaboutConfig, detourConfig],
      (sampleClean config (Builder.roundabout Builder.staleFiles)).1.toBool = true ∧
      isDirectoryAt ["d", "classes"] ((sampleClean config
        (Builder.roundabout Builder.staleFiles)).2.find [] config.layout.classesDir) = true ∧
      ((sampleClean config (Builder.roundabout Builder.staleFiles)).2.get?
        ["d", "classes", "Stale.class"]).isSome = true := by
    decide +kernel
  refine ⟨?_, fun _ _ => Builder.roundabout_ne_link (Builder.get?_staleFiles_ne_link _ _),
    fun config hconfig => ?_⟩
  · exact Builder.isTree_staleFiles.put ["d"] "gen" rfl rfl _
  · obtain ⟨hok, hdirectory, hstale⟩ := hstays config hconfig
    obtain ⟨output, hrun⟩ := exists_sampleClean hok
    obtain ⟨mode, hfind⟩ := isDirectoryAt_iff.mp hdirectory
    exact ⟨output, _, hrun, ⟨mode, hfind⟩, hstale⟩

end Stage

end SketchApk
