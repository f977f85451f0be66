import SketchApk.Proofs.File.Leftover
import SketchApk.Proofs.File.Way
import SketchApk.Proofs.Plan.Creating
import SketchApk.Proofs.Plan.Directories

/-!
# Furnishing a directory

Several directories are created in one directory, one after the other. If this succeeds, all of them
are there, and nothing has changed but that they and directories on the way to them may be new. In a
directory whose entries may be changed it succeeds when there is nothing under their names, and then
nothing else is created. Empty directories in it can be removed.

## Main definitions

* `FileSystem.Furnishes` : directories have been created at some paths.

## Main statements

* `Plan.furnishes_of_run_forM` : what creating directories that succeeds amounts to.
* `Plan.exists_of_vacant` : directories are created where there is nothing.
* `FileSystem.removeTree_of_empty` : an empty directory is removed.
-/

namespace SketchApk

open FileSystem

variable {world : World} {stop : Bool} {files between last : FileSystem} {cwd place there : Location}
  {root path other : Path} {paths others : List Path} {name : String} {names : List String}

/-- What is on the way to an entry is on the way to its directory, or it is the entry. -/
theorem Path.IsOnWay.of_div (hname : IsName name) (h : other.IsOnWay (root / name)) :
    other.IsOnWay root ∨ (root / name).IsOnWay other ∧ other.names = (root / name).names := by
  have hwithin : root.IsWithin (root / name) [name] := (Path.IsWithin.refl root).div hname
  have hprefix := h.prefix_names
  rw [hwithin.names_eq, List.prefix_concat_iff, ← hwithin.names_eq] at hprefix
  rcases hprefix with hnames | hbefore
  · exact .inr ⟨⟨h.isAbsolute_eq.symm, hnames ▸ List.prefix_rfl⟩, hnames⟩
  · exact .inl ⟨h.isAbsolute_eq.trans hwithin.isAbsolute_eq, hbefore⟩

namespace FileSystem

theorem Keeps.isChangeable (h : files.Keeps last) (hplace : files.isChangeable place = true) :
    last.isChangeable place = true := by
  obtain ⟨mode, hmode, -⟩ := exists_of_isChangeable hplace
  rw [isChangeable_congr ((h _ _ hmode).trans hmode.symm), hplace]

/-- A directory is created in one whose entries may be changed. -/
theorem cases_of_makeDirectory (h : files.makeDirectory cwd path = .ok last) (place : Location)
    (name : String) : last.get? (place ++ [name]) = files.get? (place ++ [name]) ∨
      files.isChangeable place = true := by
  simp only [makeDirectory] at h
  split at h
  · split at h <;> cases h
  · split at h
    · cases h
    · rename_i there _ _
      rw [create] at h
      split at h
      · cases h
        rw [get?_put]
        split
        · subst there
          exact .inr (by rwa [List.dropLast_concat] at *)
        · exact .inl rfl
      · cases h
    · cases h

/-- Directories have been created at some paths and on the ways to them, and nothing else has
changed. -/
structure Furnishes (files : FileSystem) (cwd : Location) (paths : List Path) (last : FileSystem) :
    Prop where
  sameFiles : files.SameFiles last
  cases_of_get? (place : Location) : last.get? place = files.get? place ∨
    files.get? place = none ∧ last.get? place = some (.directory Mode.newDirectory) ∧
      ∃ path ∈ paths, ∃ other, other.IsOnWay path ∧ last.HasDirectory cwd other place
  /-- New entries lie in directories whose entries may be changed. -/
  cases_of_concat (place : Location) (name : String) :
    last.get? (place ++ [name]) = files.get? (place ++ [name]) ∨ last.isChangeable place = true
  exists_directory {path : Path} (h : path ∈ paths) :
    path.IsUsable ∧ ∃ place, last.HasDirectory cwd path place

namespace Furnishes

theorem refl (files : FileSystem) (cwd : Location) : files.Furnishes cwd [] files :=
  ⟨.refl files, fun _ => .inl rfl, fun _ _ => .inl rfl, nofun⟩

theorem trans (h : files.Furnishes cwd paths between) (h' : between.Furnishes cwd others last) :
    files.Furnishes cwd (paths ++ others) last where
  sameFiles := h.sameFiles.trans h'.sameFiles
  cases_of_get? place := by
    rcases h'.cases_of_get? place with hsame | ⟨hnone, hnew, path, hmem, hway⟩
    · rw [hsame]
      refine (h.cases_of_get? place).imp_right fun ⟨hnone, hnew, path, hmem, other, hway, hplace⟩ => ?_
      exact ⟨hnone, hnew, path, List.mem_append_left _ hmem, other, hway,
        hplace.keeps h'.sameFiles.keeps⟩
    · rcases h.cases_of_get? place with hsame | ⟨-, hfound, -⟩
      · exact .inr ⟨hsame ▸ hnone, hnew, path, List.mem_append_right _ hmem, hway⟩
      · cases hnone.symm.trans hfound
  cases_of_concat place name := by
    rcases h'.cases_of_concat place name with hsame | hchangeable
    · rw [hsame]
      exact (h.cases_of_concat place name).imp_right h'.sameFiles.keeps.isChangeable
    · exact .inr hchangeable
  exists_directory hmem := by
    rcases List.mem_append.mp hmem with hmem | hmem
    · obtain ⟨husable, place, hplace⟩ := h.exists_directory hmem
      exact ⟨husable, place, hplace.keeps h'.sameFiles.keeps⟩
    · exact h'.exists_directory hmem

end Furnishes

/-- An empty directory is removed, if the entries of its directory may be changed. -/
theorem removeTree_of_empty {mode : Mode}
    (hresolve : files.resolve cwd .kept path = .ok (.existing (place ++ [name]) (.directory mode)))
    (hreadable : mode.isReadable = true)
    (hempty : ∀ rest ≠ [], files.get? (place ++ [name] ++ rest) = none)
    (hchangeable : files.isChangeable place = true) :
    files.removeTree cwd path = (.ok (), files.eraseTree (place ++ [name])) := by
  have hbelow : files.below (place ++ [name]) = [] := by
    refine List.eq_nil_iff_forall_not_mem.mpr fun entry hentry => ?_
    obtain ⟨hne, hnode⟩ := mem_below.mp hentry
    cases (hempty _ hne).symm.trans hnode
  have hlistable : files.isUnlistable (place ++ [name]) = false := by
    have hnode : files.get? (place ++ [name]) = some (.directory mode) := get?_of_resolve hresolve
    rw [isUnlistable, hnode]
    simp [hreadable]
  simp [removeTree, hresolve, hlistable, hbelow, discardAll, discardNode, hchangeable]

end FileSystem

namespace Plan

/-! ### What has been created -/

/-- New entries lie in directories whose entries may be changed. -/
theorem Only.cases_of_concat {α : Type} {plan : Plan α} {result : α}
    (h : plan.Only Request.IsMaking) (hrun : plan.run (world.answer stop) files = (result, last))
    (place : Location) (name : String) :
    last.get? (place ++ [name]) = files.get? (place ++ [name]) ∨ last.isChangeable place = true := by
  obtain rfl : (plan.run (world.answer stop) files).2 = last := congrArg Prod.snd hrun
  clear hrun
  induction h generalizing files with
  | done value => exact .inl rfl
  | @step request next hrequest hnext ih =>
    match request, hrequest with
    | .file (.inspect path), _ => exact ih _
    | .file (.makeDirectory path), _ =>
      have hstep : ((FileOperation.makeDirectory path).run world.place files).2.get?
          (place ++ [name]) = files.get? (place ++ [name]) ∨
          ((FileOperation.makeDirectory path).run world.place files).2.isChangeable place = true :=
        FileOperation.settle_of_forall (fun changed =>
            changed.get? (place ++ [name]) = files.get? (place ++ [name]) ∨
              changed.isChangeable place = true) (.inl rfl) fun changed hmake =>
          (FileSystem.cases_of_makeDirectory hmake place name).imp_right
            (keeps_of_makeDirectory hmake).isChangeable
      exact (ih _).elim (fun hsame => hstep.imp hsame.trans ((hnext _).keeps _).isChangeable) .inr

/-- The path of an entry that has been created can be used. -/
theorem isUsable_of_run_makeDirectories (hname : Path.IsName name)
    (h : (makeDirectories (root / name)).run.run (world.answer stop) files = (.ok (), last)) :
    (root / name).IsUsable := by
  obtain ⟨containing, hancestors⟩ :=
    Path.exists_ancestorsUpTo (root / name).text.length (root / name)
  have hchain := of_run_makeDirectories h
  rw [Path.ancestors, hancestors] at hchain
  rcases cases_of_run_makeChain_cons (Path.isEmpty_div root hname.ne_empty) hchain with
    ⟨error, -, hresult⟩ | ⟨between, -, hmake | ⟨-, hdirectory⟩⟩
  · cases hresult
  · obtain ⟨target, hresolve⟩ := exists_of_makeDirectory_div hname hmake
    exact (resolve_eq_ok_iff.mp hresolve).1
  · obtain ⟨place, mode, hfind⟩ := hdirectory rfl
    exact (resolve_eq_ok_iff.mp (find_eq_ok_iff.mp hfind)).1

theorem furnishes_of_run_createDirectory (hname : Path.IsName name)
    (h : (createDirectory (root / name)).run.run (world.answer stop) files = (.ok (), last)) :
    files.Furnishes world.place [root / name] last where
  sameFiles := sameFiles_of_run_createDirectory h
  cases_of_get? there :=
    (makesWay_of_run_makeDirectories (Attempt.of_run_during h) there).imp_right
      fun ⟨hnone, hnew, hway⟩ => ⟨hnone, hnew, root / name, List.mem_singleton_self _, hway⟩
  cases_of_concat place entry := by
    have honly : (createDirectory (root / name)).run.Only Request.IsMaking :=
      (only_makeDirectories (fun _ => trivial) (fun _ => trivial) (root / name)).during _
    exact honly.cases_of_concat h place entry
  exists_directory hmem := by
    obtain rfl := List.mem_singleton.mp hmem
    have hmake := Attempt.of_run_during h
    exact ⟨isUsable_of_run_makeDirectories hname hmake,
      exists_of_run_makeDirectories (Path.isEmpty_div root hname.ne_empty) hmake⟩

/-- When several directories have been created, all of them are there. -/
theorem furnishes_of_run_forM (hnames : ∀ name ∈ names, Path.IsName name)
    (h : ((names.map (root / ·)).forM createDirectory).run.run (world.answer stop) files =
      (.ok (), last)) : files.Furnishes world.place (names.map (root / ·)) last := by
  induction names generalizing files with
  | nil =>
    cases h
    exact .refl _ _
  | cons first rest ih =>
    obtain ⟨hfirst, hrest⟩ := List.forall_mem_cons.mp hnames
    obtain ⟨⟨⟩, between, hnow, hlater⟩ := Attempt.exists_of_run_bind h
    exact (furnishes_of_run_createDirectory hfirst hnow).trans (ih hrest hlater)

/-! ### Creating directories where there is nothing -/

/-- A directory is created in one whose entries may be changed if there is nothing under its name. -/
theorem run_createDirectory_div (hroot : files.HasDirectory world.place root place)
    (hchangeable : files.isChangeable place = true) (hname : Path.IsName name)
    (hshort : name.utf8ByteSize ≤ maxNameBytes) (husable : (root / name).IsUsable)
    (hnone : files.get? (place ++ [name]) = none) :
    (createDirectory (root / name)).run.run (world.answer stop) files =
      (.ok (), files.put (place ++ [name]) (.directory Mode.newDirectory)) := by
  have hresolve := hroot.resolve_kept_div hname husable
    (admits_of_isChangeable hchangeable hname hshort)
  have hmake : files.makeDirectory world.place (root / name) =
      .ok (files.put (place ++ [name]) (.directory Mode.newDirectory)) := by
    rw [makeDirectory_div root hname, hresolve, targetAt, hnone]
    simp [create, hchangeable]
  obtain ⟨containing, hancestors⟩ :=
    Path.exists_ancestorsUpTo (root / name).text.length (root / name)
  refine Attempt.run_during_ok (run_makeDirectories ?_)
  rw [Path.ancestors, hancestors]
  exact run_makeChain_of_ok (Path.isEmpty_div root hname.ne_empty) hmake

/-- Where there is nothing under some names, directories of these names are created, and nothing
else. -/
theorem exists_of_vacant (hroot : files.HasDirectory world.place root place)
    (hchangeable : files.isChangeable place = true) (hnodup : names.Nodup)
    (hnames : ∀ name ∈ names, Path.IsName name ∧ name.utf8ByteSize ≤ maxNameBytes ∧
      (root / name).IsUsable ∧ files.get? (place ++ [name]) = none) :
    ∃ last, ((names.map (root / ·)).forM createDirectory).run.run (world.answer stop) files =
        (.ok (), last) ∧
      ∀ there, last.get? there = if there ∈ entryPlaces place names
        then some (.directory Mode.newDirectory) else files.get? there := by
  induction names generalizing files with
  | nil => exact ⟨_, rfl, fun there => rfl⟩
  | cons first rest ih =>
    obtain ⟨⟨hname, hshort, husable, hnone⟩, hrest⟩ := List.forall_mem_cons.mp hnames
    obtain ⟨hfirst, hnodup⟩ := List.nodup_cons.mp hnodup
    have hkeeps := Keeps.put hnone (.directory Mode.newDirectory)
    obtain ⟨last, hrun, hlast⟩ := ih (hroot.keeps hkeeps) (hkeeps.isChangeable hchangeable) hnodup
      fun other hother => by
        obtain ⟨hname', hshort', husable', hnone'⟩ := hrest other hother
        refine ⟨hname', hshort', husable', ?_⟩
        rw [get?_put_of_ne, hnone']
        intro hsame
        obtain rfl : first = other := by simpa using hsame
        exact hfirst hother
    refine ⟨last, (Attempt.run_bind_ok
      (run_createDirectory_div hroot hchangeable hname hshort husable hnone)).trans hrun,
      fun there => ?_⟩
    rw [hlast, get?_put]
    have hmem : there ∈ entryPlaces place (first :: rest) ↔
        place ++ [first] = there ∨ there ∈ entryPlaces place rest := by
      rw [entryPlaces, List.map_cons, List.mem_cons, eq_comm, ← entryPlaces]
    by_cases hthere : place ++ [first] = there <;> simp [hmem, hthere]

end Plan

end SketchApk
