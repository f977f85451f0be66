import SketchApk.Proofs.File.Leftover
import SketchApk.Proofs.File.Variant
import SketchApk.Proofs.Path.Within

/-!
# What operations on files touch

An operation may change what its path leads to, and what is below that; everything else is left as
it is. Directories are created where there is nothing. No operation makes a link out of something
else, apart from renaming, which moves links.

## Main definitions

* `Path.bare` : a path without slashes at its end.
* `FileOperation.Touches` : the locations that an operation may change.
* `FileOperation.Effect` : what an operation may do to files.
* `FileSystem.contentAt` : the content of the file at a location.

## Main statements

* `FileOperation.effect_run` : every operation has one of these effects.
* `FileOperation.get?_run` : locations that are not touched are left as they are.
* `FileOperation.link_of_run` : no link comes into being.
* `FileOperation.contentAt_makeDirectory` : creating a directory changes no file.
-/

namespace SketchApk

/-- A path without the slashes at its end. -/
def Path.bare (path : Path) : Path :=
  .ofSegments (path.segments.reverse.dropWhile String.isEmpty).reverse

/-- Slashes at the end of a path make no difference to its way. -/
theorem Path.isOnWay_bare {path : Path}
    (h : (path.segments.reverse.dropWhile String.isEmpty).isEmpty = false) :
    path.bare.IsOnWay path ∧ path.bare.names = path.names := by
  generalize hkept : path.segments.reverse.dropWhile String.isEmpty = kept at h
  have hbare : path.bare = .ofSegments kept.reverse := by rw [bare, hkept]
  have hsplit : path.segments.reverse =
      path.segments.reverse.takeWhile String.isEmpty ++ kept := by
    rw [← hkept, List.takeWhile_append_dropWhile]
  have hall : path.segments =
      kept.reverse ++ (path.segments.reverse.takeWhile String.isEmpty).reverse := by
    rw [← List.reverse_append, ← hsplit, List.reverse_reverse]
  obtain ⟨last, front, rfl⟩ := List.exists_cons_of_ne_nil (List.isEmpty_eq_false_iff.mp h)
  have hlast : last.isEmpty = false := by
    have hhead := List.head?_dropWhile_not String.isEmpty path.segments.reverse
    rw [hkept] at hhead
    simpa using hhead
  have hsegments : path.bare.segments = (last :: front).reverse := by
    rw [hbare]
    refine segments_ofSegments (by simp) fun piece hpiece => ?_
    have hmem : piece ∈ path.segments := hall ▸ List.mem_append_left _ hpiece
    exact not_mem_of_mem_segments hmem
  have hempty : ((path.segments.reverse.takeWhile String.isEmpty).reverse.filter
      (!String.isEmpty ·)) = [] := by
    refine List.filter_eq_nil_iff.mpr fun piece hpiece => ?_
    rw [List.mem_reverse] at hpiece
    simpa using List.mem_takeWhile_imp hpiece
  have hnames : path.bare.names = path.names := by
    rw [names, names, hsegments, hall, List.filter_append, hempty, List.append_nil]
  have hbegins : path.bare.names <+: path.names := hnames ▸ List.prefix_rfl
  refine ⟨⟨?_, hbegins⟩, hnames⟩
  cases hfront : (last :: front).reverse with
  | nil => simp at hfront
  | cons first rest =>
    rw [hfront] at hsegments
    rw [hfront, List.cons_append] at hall
    rw [Bool.eq_iff_iff, isAbsolute_iff hsegments, isAbsolute_iff hall]
    refine and_congr_right fun hfirst => ⟨fun hrest hnil => hrest (List.append_eq_nil_iff.mp hnil).1,
      fun _ hnil => ?_⟩
    -- The last segment that is kept is not empty, so it is not the one in front of the root.
    subst hnil
    obtain ⟨rfl, rfl⟩ : last = first ∧ front = [] := by
      cases front with
      | nil => simpa using hfront
      | cons next rest => simpa using congrArg List.length hfront
    simp [hfirst] at hlast

namespace FileOperation

/-- The locations that an operation may change. A directory is created where there is nothing. -/
def Touches (operation : FileOperation) (cwd : Location) (files : FileSystem)
    (place : Location) : Prop :=
  match operation with
  | write path _ | ensureFile path | copy _ path =>
    ∃ target, files.resolve cwd .created path = .ok target ∧ target.place = place
  | makeDirectory path =>
    (path.segments.reverse.dropWhile String.isEmpty).isEmpty = false ∧
      ∃ asDirectory, files.resolve cwd .kept path.bare = .ok (.vacant place asDirectory)
  | removeFile path | removeTree path =>
    ∃ target, files.resolve cwd .kept path = .ok target ∧ target.place <+: place
  | rename source other =>
    ∃ path ∈ [source, other], ∃ target,
      files.resolve cwd .kept path = .ok target ∧ target.place <+: place
  | setMode path _ =>
    ∃ target, files.resolve cwd .followed path = .ok target ∧ target.place = place
  | _ => False

end FileOperation

namespace FileSystem

variable {files changed : FileSystem} {cwd place there : Location} {path : Path} {node : Node}

/-- Where there is a node besides the new one, it is what it was. -/
theorem get?_put_of_ne (h : there ≠ place) (node : Node) :
    (files.put there node).get? place = files.get? place := by
  rw [get?_put, if_neg h]

theorem eq_put_of_create (h : files.create place node = .ok changed) :
    changed = files.put place node := by
  rw [create] at h
  split at h <;> cases h
  rfl

theorem eq_eraseTree_of_discardNode (h : files.discardNode place = .ok changed) :
    changed = files.eraseTree place := by
  rw [discardNode] at h
  split at h <;> cases h
  rfl

/-- Creating a directory puts it where there was nothing. -/
theorem eq_put_of_makeDirectory (h : files.makeDirectory cwd path = .ok changed) :
    (path.segments.reverse.dropWhile String.isEmpty).isEmpty = false ∧
      ∃ place asDirectory, files.resolve cwd .kept path.bare = .ok (.vacant place asDirectory) ∧
        changed = files.put place (.directory Mode.newDirectory) := by
  have hbare : Path.ofSegments (path.segments.reverse.dropWhile String.isEmpty).reverse =
      path.bare := rfl
  simp only [makeDirectory, hbare] at h
  split at h
  · split at h <;> cases h
  · rename_i hnames
    rw [Bool.or_eq_true, not_or, Bool.not_eq_true] at hnames
    split at h
    · cases h
    · rename_i hresolve
      exact ⟨hnames.1, _, _, hresolve, eq_put_of_create h⟩
    · cases h

/-- Removing a file or a link removes what its path leads to. -/
theorem eq_eraseTree_of_removeFile (h : files.removeFile cwd path = .ok changed) :
    ∃ place node, files.resolve cwd .kept path = .ok (.existing place node) ∧
      changed = files.eraseTree place := by
  rw [removeFile] at h
  split at h
  · split at h <;> cases h
  · exact ⟨_, _, ‹_›, eq_eraseTree_of_discardNode h⟩
  · cases h
  · cases h

/-- Removing a tree removes some places below the one that its path leads to, and at last that place
itself. -/
theorem exists_of_removeTree (files : FileSystem) (cwd : Location) (path : Path) :
    (files.removeTree cwd path).2 = files ∨
      ∃ target, files.resolve cwd .kept path = .ok target ∧
        ∃ gone, (∀ other ∈ gone, target.place <+: other) ∧
          ((files.removeTree cwd path).2 = (discardAll gone files).2 ∨
            (files.removeTree cwd path).2 = (discardAll gone files).2.eraseTree target.place) := by
  rw [removeTree]
  split
  · exact .inl rfl
  · rename_i hresolve
    split
    · rename_i hdiscard
      exact .inr ⟨_, hresolve, [], by simp, .inr (eq_eraseTree_of_discardNode hdiscard)⟩
    · exact .inl rfl
  · rename_i place mode hresolve
    split
    · exact .inl rfl
    · refine .inr ⟨_, hresolve, (files.below place).reverse.map fun entry => place ++ entry.1, ?_, ?_⟩
      · rintro other hother
        obtain ⟨entry, -, rfl⟩ := List.mem_map.mp hother
        exact List.prefix_append _ _
      · simp only
        split
        · exact .inl rfl
        · exact .inl rfl
        · rename_i hdiscard
          exact .inr (eq_eraseTree_of_discardNode hdiscard)
  · exact .inl rfl
  · exact .inl rfl

/-- Removing a tree leaves everything outside it, also when it does not succeed. -/
theorem get?_removeTree
    (h : ∀ target, files.resolve cwd .kept path = .ok target → ¬target.place <+: place) :
    (files.removeTree cwd path).2.get? place = files.get? place := by
  have hoff {there : Location} (hthere : ¬there <+: place) : there.isPrefixOf place = false := by
    rwa [Bool.eq_false_iff, ne_eq, List.isPrefixOf_iff_prefix]
  rcases exists_of_removeTree files cwd path with heq | ⟨target, hresolve, gone, hgone, heq⟩
  · rw [heq]
  · have houtside := h target hresolve
    have hdiscard : (discardAll gone files).2.get? place = files.get? place :=
      get?_discardAll files fun other hother =>
        hoff fun hbegins => houtside ((hgone other hother).trans hbegins)
    rcases heq with heq | heq
    · rw [heq, hdiscard]
    · rw [heq, get?_eraseTree_of_not_below (hoff houtside), hdiscard]

/-- Removing nodes adds none. -/
theorem keeps_of_discardAll (gone : List Location) (files : FileSystem) :
    (discardAll gone files).2.Keeps files := by
  induction gone generalizing files with
  | nil => exact .refl files
  | cons first rest ih =>
    rw [discardAll]
    split
    · exact .refl files
    · split
      · rename_i hremaining
        exact (ih _).trans (eq_eraseTree_of_discardNode hremaining ▸ .eraseTree files first)
      · exact .refl files

/-- Removing a tree adds no node. -/
theorem keeps_of_removeTree (files : FileSystem) (cwd : Location) (path : Path) :
    (files.removeTree cwd path).2.Keeps files := by
  rcases exists_of_removeTree files cwd path with heq | ⟨target, -, gone, -, heq | heq⟩
  · rw [heq]
    exact .refl files
  · rw [heq]
    exact keeps_of_discardAll gone files
  · rw [heq]
    exact (Keeps.eraseTree _ _).trans (keeps_of_discardAll gone files)

/-- The content of the file at a location. -/
def contentAt (files : FileSystem) (place : Location) : Option Content :=
  match files.get? place with
  | some (.file _ content) => some content
  | _ => none

theorem contentAt_eq_some_iff {content : Content} :
    files.contentAt place = some content ↔ ∃ mode, files.get? place = some (.file mode content) := by
  rw [contentAt]
  split
  · rename_i mode found hfile
    simp [hfile]
  · rename_i hother
    refine iff_of_false (by simp) ?_
    rintro ⟨mode, hfile⟩
    exact hother _ _ hfile

theorem contentAt_congr {other : FileSystem} (h : files.get? place = other.get? place) :
    files.contentAt place = other.contentAt place := by
  rw [contentAt, contentAt, h]

end FileSystem

namespace FileOperation

variable {files : FileSystem} {cwd place : Location} {operation : FileOperation}

/-- A property of the files that a change does not affect holds after the attempt at it. -/
theorem settle_of_forall (property : FileSystem → Prop) {result : Except FileError FileSystem}
    (hfiles : property files) (h : ∀ changed, result = .ok changed → property changed) :
    property (settle files result).2 := by
  cases result with
  | ok changed => exact h changed rfl
  | error error => exact hfiles

/-- The operation moves nothing. -/
def IsStatic : FileOperation → Prop
  | rename _ _ => False
  | _ => True

/-- What an operation may do to files: it does nothing, puts a file or a directory somewhere, removes
nodes, or moves a tree, all at locations that it touches. -/
inductive Effect (operation : FileOperation) (cwd : Location) (files : FileSystem) :
    FileSystem → Prop
  | nothing : Effect operation cwd files files
  | put {there : Location} {node : Node} (htouches : operation.Touches cwd files there)
      (hnode : ∀ target, node ≠ .link target) : Effect operation cwd files (files.put there node)
  | removal {last : FileSystem} (hkeeps : last.Keeps files)
      (houtside : ∀ place, ¬operation.Touches cwd files place →
        last.get? place = files.get? place) : Effect operation cwd files last
  | move {origin there : Location} {node : Node} (hmoves : ¬operation.IsStatic)
      (htouches : ∀ place, origin <+: place ∨ there <+: place → operation.Touches cwd files place) :
      Effect operation cwd files (files.moveTree origin there node)

theorem effect_of_overwrite {path : Path} {content : Content} {mode : Option Mode}
    {changed : FileSystem} (h : files.overwrite cwd path content mode = .ok changed)
    (htouches : ∀ target, files.resolve cwd .created path = .ok target →
      operation.Touches cwd files target.place) : operation.Effect cwd files changed := by
  obtain ⟨target, bits, hresolve, rfl, -⟩ := FileSystem.exists_of_overwrite h
  exact .put (htouches target hresolve) (by simp)

theorem effect_of_setMode {path : Path} {mode : Mode} {changed : FileSystem}
    (h : files.setMode cwd path mode = .ok changed) :
    (setMode path mode).Effect cwd files changed := by
  rw [FileSystem.setMode] at h
  split at h <;> cases h
  all_goals exact .put ⟨_, FileSystem.find_eq_ok_iff.mp ‹_›, rfl⟩ (by simp)

theorem effect_of_ensureFile {path : Path} {changed : FileSystem}
    (h : files.ensureFile cwd path = .ok changed) : (ensureFile path).Effect cwd files changed := by
  rw [FileSystem.ensureFile] at h
  split at h
  · split at h <;> cases h
    exact .nothing
  · cases h
  · rw [FileSystem.eq_put_of_create h]
    exact .put ⟨_, ‹_›, rfl⟩ (by simp)
  · cases h

/-- Every operation has one of these effects. -/
theorem effect_run (operation : FileOperation) (cwd : Location) (files : FileSystem) :
    operation.Effect cwd files (operation.run cwd files).2 := by
  cases operation with
  | inspect | list | walk | read | readToExtend => exact .nothing
  | write path content =>
    refine settle_of_forall (Effect _ cwd files) .nothing fun changed hchanged => ?_
    exact effect_of_overwrite hchanged fun target hresolve => ⟨target, hresolve, rfl⟩
  | ensureFile path =>
    exact settle_of_forall (Effect _ cwd files) .nothing fun changed => effect_of_ensureFile
  | copy source path =>
    refine settle_of_forall (Effect _ cwd files) .nothing fun changed hchanged => ?_
    obtain ⟨_, _, _, written, -, hoverwrite, -⟩ := FileSystem.exists_of_copy hchanged
    exact effect_of_overwrite hoverwrite fun target hresolve => ⟨target, hresolve, rfl⟩
  | makeDirectory path =>
    refine settle_of_forall (Effect _ cwd files) .nothing fun changed hchanged => ?_
    obtain ⟨hnames, there, asDirectory, hresolve, rfl⟩ :=
      FileSystem.eq_put_of_makeDirectory hchanged
    exact .put ⟨hnames, asDirectory, hresolve⟩ (by simp)
  | removeFile path =>
    refine settle_of_forall (Effect _ cwd files) .nothing fun changed hchanged => ?_
    obtain ⟨there, node, hresolve, rfl⟩ := FileSystem.eq_eraseTree_of_removeFile hchanged
    refine .removal (.eraseTree files there) fun place hplace => ?_
    refine FileSystem.get?_eraseTree_of_not_below ?_
    rw [Bool.eq_false_iff, ne_eq, List.isPrefixOf_iff_prefix]
    exact fun hbegins => hplace ⟨_, hresolve, hbegins⟩
  | removeTree path =>
    refine .removal (FileSystem.keeps_of_removeTree files cwd path) fun place hplace => ?_
    exact FileSystem.get?_removeTree fun target hresolve hbegins => hplace ⟨target, hresolve, hbegins⟩
  | rename source other =>
    refine settle_of_forall (Effect _ cwd files) .nothing fun changed hchanged => ?_
    obtain ⟨origin, node, there, hsource, htarget, rfl | rfl⟩ := FileSystem.exists_of_rename hchanged
    · exact .nothing
    · refine .move id fun place hplace => ?_
      rcases hplace with hbegins | hbegins
      · exact ⟨source, by simp, _, hsource, hbegins⟩
      · exact ⟨other, by simp, there, htarget, hbegins⟩
  | setMode path mode =>
    exact settle_of_forall (Effect _ cwd files) .nothing fun changed => effect_of_setMode

/-- Locations that an operation does not touch are left as they are. -/
theorem get?_run (h : ¬operation.Touches cwd files place) :
    (operation.run cwd files).2.get? place = files.get? place := by
  have heffect := operation.effect_run cwd files
  generalize (operation.run cwd files).2 = last at heffect
  cases heffect with
  | nothing => rfl
  | put htouches =>
    refine FileSystem.get?_put_of_ne ?_ _
    rintro rfl
    exact h htouches
  | removal _ houtside => exact houtside place h
  | @move origin there node _ htouches =>
    have hoff {other : Location} (hother : ¬other <+: place) : other.isPrefixOf place = false := by
      rwa [Bool.eq_false_iff, ne_eq, List.isPrefixOf_iff_prefix]
    rw [FileSystem.get?_moveTree (hoff fun hbegins => h (htouches place (.inr hbegins)))]
    exact FileSystem.get?_eraseTree_of_not_below
      (hoff fun hbegins => h (htouches place (.inl hbegins)))

/-- A link that is there after an operation that moves nothing was there before. -/
theorem link_of_run (hstatic : operation.IsStatic) {target : Path}
    (h : (operation.run cwd files).2.get? place = some (.link target)) :
    files.get? place = some (.link target) := by
  have heffect := operation.effect_run cwd files
  generalize (operation.run cwd files).2 = last at heffect h
  cases heffect with
  | nothing => exact h
  | put _ hnode =>
    rw [FileSystem.get?_put] at h
    split_ifs at h
    · exact absurd (Option.some.inj h) (hnode target)
    · exact h
  | removal hkeeps _ => exact hkeeps place _ h
  | move hmoves => exact absurd hstatic hmoves

/-- Creating a directory changes no file. -/
theorem contentAt_makeDirectory (path : Path) (files : FileSystem) :
    ((makeDirectory path).run cwd files).2.contentAt place = files.contentAt place := by
  refine settle_of_forall (·.contentAt place = files.contentAt place) rfl fun changed hchanged => ?_
  obtain ⟨-, there, asDirectory, hresolve, rfl⟩ := FileSystem.eq_put_of_makeDirectory hchanged
  have hnone : files.get? there = none := FileSystem.get?_of_resolve hresolve
  by_cases hthere : there = place
  · subst hthere
    simp [FileSystem.contentAt, hnone]
  · exact FileSystem.contentAt_congr (FileSystem.get?_put_of_ne hthere _)

end FileOperation

end SketchApk
