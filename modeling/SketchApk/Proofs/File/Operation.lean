import SketchApk.Proofs.File.Resolve

/-!
# Operations that take nothing away

Reading, writing, copying and creating leave every node in its place, so whatever a path leads to
stays there. Renaming takes away what has the two names, and nothing else.

## Main definitions

* `FileOperation.Adds` : the operations that take nothing away.
* `FileSystem.without` : a file system without what some paths lead to.

## Main statements

* `FileOperation.extends_run` : such operations leave a file system with more nodes.
* `FileSystem.exists_of_overwrite`, `FileSystem.exists_of_copy` : what writing and copying a file
  amount to.
* `FileSystem.extends_of_rename` : what has other names is kept by renaming.
* `FileSystem.Extends.inspect` : what exists in a file system exists in one with more nodes.
-/

namespace SketchApk

namespace Node

@[simp] theorem IsLike.refl (node : Node) : node.IsLike node := by
  cases node <;> simp [IsLike]

theorem IsLike.trans {node other third : Node} (h : node.IsLike other) (h' : other.IsLike third) :
    node.IsLike third := by
  cases node <;> cases other <;> cases third <;> simp_all [IsLike]

end Node

namespace FileSystem

variable {files other third changed : FileSystem} {cwd : Location} {path : Path}

theorem Extends.refl (files : FileSystem) : files.Extends files :=
  fun _ node hnode => ⟨node, hnode, .refl node⟩

theorem Extends.trans (h : files.Extends other) (h' : other.Extends third) :
    files.Extends third := by
  intro place node hnode
  obtain ⟨later, hlater, hlike⟩ := h place node hnode
  obtain ⟨last, hlast, hlike'⟩ := h' place later hlater
  exact ⟨last, hlast, hlike.trans hlike'⟩

/-- A new node takes nothing away, unless it is put in the place of one of another kind. -/
theorem extends_put {place : Location} {node : Node}
    (h : ∀ old, files.get? place = some old → old.IsLike node) :
    files.Extends (files.put place node) := by
  intro there old hold
  rw [get?_put]
  split
  · subst there
    exact ⟨node, rfl, h old hold⟩
  · exact ⟨old, hold, .refl old⟩

theorem extends_eraseTree (files : FileSystem) (place : Location) :
    (files.eraseTree place).Extends files := by
  intro there node hnode
  rw [get?_eraseTree] at hnode
  split at hnode
  · cases hnode
  · exact ⟨node, hnode, .refl node⟩

/-- What exists in a file system exists in one with more nodes. -/
theorem Extends.inspect (h : files.Extends other) {inspection : Inspection}
    (hinspect : files.inspect cwd path = .ok inspection) :
    ∃ later, other.inspect cwd path = .ok later := by
  rw [FileSystem.inspect, find] at hinspect
  cases hresolve : files.resolve cwd .followed path with
  | error error => simp [hresolve] at hinspect
  | ok target =>
    cases target with
    | vacant place asDirectory => simp [hresolve] at hinspect
    | existing place node =>
      obtain ⟨later, hlike, hlater⟩ := h.resolve hresolve
      cases node with
      | link path => simp [hresolve] at hinspect
      | file mode content =>
        cases later with
        | file mode content => exact ⟨⟨.file, mode⟩, by simp [FileSystem.inspect, find, hlater]⟩
        | directory | link => cases hlike
      | directory mode =>
        cases later with
        | directory mode => exact ⟨⟨.directory, mode⟩, by simp [FileSystem.inspect, find, hlater]⟩
        | file | link => cases hlike

/-! ### Operations that take nothing away -/

theorem extends_of_create {place : Location} {node : Node} (hnone : files.get? place = none)
    (h : files.create place node = .ok changed) : files.Extends changed := by
  rw [create] at h
  split at h
  · cases h
    exact extends_put fun old hold => by simp [hnone] at hold
  · cases h

/-- Writing a file puts it where the path leads to, and takes nothing away. -/
theorem exists_of_overwrite {content : Content} {mode : Option Mode}
    (h : files.overwrite cwd path content mode = .ok changed) :
    ∃ target bits, files.resolve cwd .created path = .ok target ∧
      changed = files.put target.place (.file bits content) ∧ files.Extends changed := by
  rw [overwrite] at h
  cases hresolve : files.resolve cwd .created path with
  | error error => simp [hresolve] at h
  | ok target =>
    have hnode := get?_of_resolve hresolve
    cases target with
    | vacant place asDirectory =>
      simp only [hresolve] at h
      have hextends := extends_of_create hnode h
      rw [create] at h
      split at h
      · cases h
        exact ⟨_, _, rfl, rfl, hextends⟩
      · cases h
    | existing place node =>
      cases node with
      | directory | link => simp [hresolve] at h
      | file old content' =>
        simp only [hresolve] at h
        split at h
        · cases h
          refine ⟨_, _, rfl, rfl, extends_put fun node hold => ?_⟩
          obtain rfl : Node.file old content' = node := Option.some.inj (hnode.symm.trans hold)
          trivial
        · cases h

/-- A file that has been written is where the path leads to. -/
theorem resolve_of_overwrite {content : Content} {mode : Option Mode}
    (h : files.overwrite cwd path content mode = .ok changed) :
    ∃ place bits, changed.resolve cwd .followed path = .ok (.existing place (.file bits content)) := by
  obtain ⟨target, bits, hresolve, rfl, hextends⟩ := exists_of_overwrite h
  exact ⟨target.place, bits, hextends.resolve_of_created (by decide) hresolve (get?_put_self _ _ _)⟩

theorem extends_of_ensureFile (h : files.ensureFile cwd path = .ok changed) :
    files.Extends changed := by
  rw [ensureFile] at h
  split at h
  · split at h
    · cases h
      exact .refl files
    · cases h
  · cases h
  · exact extends_of_create (get?_of_resolve ‹_›) h
  · cases h

theorem extends_of_makeDirectory (h : files.makeDirectory cwd path = .ok changed) :
    files.Extends changed := by
  simp only [makeDirectory] at h
  split at h
  · split at h <;> cases h
  · split at h
    · cases h
    · exact extends_of_create (get?_of_resolve ‹_›) h
    · cases h

/-- Copying writes the content of the file that is copied, unless that is written onto itself. -/
theorem exists_of_copy {source target : Path} (h : files.copy cwd source target = .ok changed) :
    ∃ place mode content written, files.find cwd source = .ok (place, .file mode content) ∧
      files.overwrite cwd target written (some mode) = .ok changed ∧
        ∀ there, files.resolve cwd .created target = .ok there → place ≠ there.place →
          written = content := by
  rw [copy] at h
  split at h
  · split at h
    · cases h
    · split at h
      · refine ⟨_, _, _, _, ‹_›, h, fun there hthere hne => if_neg ?_⟩
        rename_i hresolve
        cases hthere.symm.trans hresolve
        exact hne
      · exact ⟨_, _, _, _, ‹_›, h, fun _ _ _ => rfl⟩
  all_goals cases h

theorem extends_of_copy {source target : Path} (h : files.copy cwd source target = .ok changed) :
    files.Extends changed := by
  obtain ⟨_, _, _, _, -, hwritten, -⟩ := exists_of_copy h
  obtain ⟨_, _, _, _, hextends⟩ := exists_of_overwrite hwritten
  exact hextends

end FileSystem

namespace FileOperation

/-- The operation takes no node away. -/
def Adds : FileOperation → Prop
  | removeFile _ | removeTree _ | rename _ _ | setMode _ _ => False
  | _ => True

/-- A change that succeeds takes place. -/
theorem exists_of_settle {files : FileSystem} {result : Except FileError FileSystem}
    (h : (settle files result).1 = .ok ()) :
    ∃ changed, result = .ok changed ∧ (settle files result).2 = changed := by
  cases result with
  | ok changed => exact ⟨changed, rfl, rfl⟩
  | error error => cases h

theorem extends_settle {files : FileSystem} {result : Except FileError FileSystem}
    (h : ∀ changed, result = .ok changed → files.Extends changed) :
    files.Extends (settle files result).2 := by
  cases result with
  | ok changed => exact h changed rfl
  | error error => exact .refl files

/-- An operation that takes no node away leaves a file system with more nodes. -/
theorem extends_run {operation : FileOperation} (h : operation.Adds) (cwd : Location)
    (files : FileSystem) : files.Extends (operation.run cwd files).2 := by
  cases operation with
  | inspect | list | walk | read | readToExtend => exact .refl files
  | write path content =>
    refine extends_settle fun changed hchanged => ?_
    obtain ⟨_, _, _, _, hextends⟩ := FileSystem.exists_of_overwrite hchanged
    exact hextends
  | ensureFile path => exact extends_settle fun _ => FileSystem.extends_of_ensureFile
  | makeDirectory path => exact extends_settle fun _ => FileSystem.extends_of_makeDirectory
  | copy source target => exact extends_settle fun _ => FileSystem.extends_of_copy
  | removeFile | removeTree | rename | setMode => cases h

end FileOperation

namespace FileSystem

variable {files changed : FileSystem} {cwd : Location}

/-! ### Renaming -/

/-- The files without what some paths lead to. A link at the end of a path is not followed. -/
def without (files : FileSystem) (cwd : Location) (paths : List Path) : FileSystem :=
  paths.foldl (fun remaining path =>
    match files.resolve cwd .kept path with
    | .ok target => remaining.eraseTree target.place
    | .error _ => remaining) files

theorem extends_without (files : FileSystem) (cwd : Location) (paths : List Path) :
    (files.without cwd paths).Extends files := by
  suffices h : ∀ remaining : FileSystem, remaining.Extends files →
      (paths.foldl (fun remaining path =>
        match files.resolve cwd .kept path with
        | .ok target => remaining.eraseTree target.place
        | .error _ => remaining) remaining).Extends files from h files (.refl files)
  induction paths with
  | nil => exact fun _ h => h
  | cons path rest ih =>
    intro remaining h
    rw [List.foldl_cons]
    refine ih _ ?_
    split
    · exact (extends_eraseTree _ _).trans h
    · exact h

theorem isPrefixOf_append (place names : Location) : place.isPrefixOf (place ++ names) = true :=
  List.isPrefixOf_iff_prefix.mpr (List.prefix_append place names)

theorem get?_foldl_put {target place : Location} (h : target.isPrefixOf place = false)
    (entries : List (Location × Node)) (files : FileSystem) :
    (entries.foldl (fun moved entry => moved.put (target ++ entry.1) entry.2) files).get? place =
      files.get? place := by
  induction entries generalizing files with
  | nil => rfl
  | cons entry rest ih =>
    rw [List.foldl_cons, ih, get?_put, if_neg]
    rintro rfl
    exact Bool.false_ne_true (h.symm.trans (isPrefixOf_append target entry.1))

/-- Moving a tree keeps everything but what is at its old and at its new place. -/
theorem extends_moveTree (files : FileSystem) (source target : Location) (node : Node) :
    ((files.eraseTree source).eraseTree target).Extends (files.moveTree source target node) := by
  intro place old hold
  refine ⟨old, ?_, .refl old⟩
  rw [get?_eraseTree] at hold
  split at hold
  · cases hold
  · have hplace : target.isPrefixOf place = false := Bool.eq_false_iff.mpr ‹_›
    rw [moveTree, get?_foldl_put hplace, get?_put, if_neg, get?_eraseTree, if_neg ‹_›]
    · exact hold
    · rintro rfl
      have hself := isPrefixOf_append target []
      rw [List.append_nil] at hself
      exact Bool.false_ne_true (hplace.symm.trans hself)

/-- Renaming moves what has the old name to the new one, if it does not have both names already. -/
theorem exists_of_rename {source target : Path} (h : files.rename cwd source target = .ok changed) :
    ∃ place node there, files.resolve cwd .kept source = .ok (.existing place node) ∧
      files.resolve cwd .kept target = .ok there ∧
      (changed = files ∨ changed = files.moveTree place there.place node) := by
  rw [rename] at h
  split_ifs at h
  · cases hfind : files.find cwd target <;> rw [hfind] at h <;> cases h
  · cases hfind : files.find cwd source <;> rw [hfind] at h <;> cases h
  · rw [renameNode] at h
    split at h
    · cases h
    · cases h
    · cases h
    · refine ⟨_, _, _, ‹_›, ‹_›, ?_⟩
      repeat' split at h
      all_goals first | cases h; exact .inl rfl | cases h; exact .inr rfl | cases h
    · refine ⟨_, _, _, ‹_›, ‹_›, ?_⟩
      repeat' split at h
      all_goals first | cases h; exact .inr rfl | cases h

/-- What has other names is kept by renaming. -/
theorem extends_of_rename {source target : Path} (h : files.rename cwd source target = .ok changed) :
    (files.without cwd [source, target]).Extends changed := by
  obtain ⟨place, node, there, hsource, htarget, rfl | rfl⟩ := exists_of_rename h
  · exact extends_without changed cwd _
  · have hwithout : files.without cwd [source, target] =
        (files.eraseTree place).eraseTree there.place := by
      simp [without, hsource, htarget, Target.place]
    rw [hwithout]
    exact extends_moveTree files place there.place node

end FileSystem

end SketchApk
