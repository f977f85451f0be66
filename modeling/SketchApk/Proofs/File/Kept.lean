import SketchApk.Proofs.File.Deposit
import SketchApk.Proofs.File.Entry

/-!
# Files that stay what they are

When nothing but new nodes is added to a file system, all files that were there keep their content.
Where a path leads to no file, a file that is created there is found under the path later, and it
can be given another content if the permission bits that it was created with say so.

## Main definitions

* `FileSystem.Keeps` : all nodes of a file system are nodes of another one.
* `FileSystem.Vacates` : what was under a path has been removed.

## Main statements

* `FileSystem.Keeps.find` : a path leads to the same node when nodes have been added.
* `FileSystem.vacates_of_removeFile` : no file is left where a file or a link has been removed.
* `FileSystem.exists_of_copy_vacant` : a copy that is put where there is no file.
* `FileSystem.overwrite_of_resolve`, `FileSystem.Copied.find_source` : a file may get another content,
  and the source of a copy stays what it is.
-/

namespace SketchApk

namespace Mode

/-- Writing to a file makes no difference to permission bits that are kept on writing. -/
theorem afterWriting_and (mode : Mode) {bits : Mode} (hown : 0o3777 &&& bits = bits)
    (hgroup : 0o5777 &&& bits = bits) : mode.afterWriting &&& bits = mode &&& bits := by
  rw [afterWriting]
  split
  · rw [BitVec.and_assoc, BitVec.and_assoc, hgroup, hown]
  · rw [BitVec.and_assoc, hown]

@[simp] theorem isReadable_afterWriting (mode : Mode) :
    mode.afterWriting.isReadable = mode.isReadable := by
  rw [isReadable, afterWriting_and mode (by decide) (by decide), isReadable]

@[simp] theorem isWritable_afterWriting (mode : Mode) :
    mode.afterWriting.isWritable = mode.isWritable := by
  rw [isWritable, afterWriting_and mode (by decide) (by decide), isWritable]

end Mode

namespace FileSystem

variable {files other third changed : FileSystem} {cwd place : Location} {path : Path} {node : Node}
  {mode : Mode} {content : Content}

/-! ### File systems to which nodes are added -/

/-- All nodes of a file system are nodes of another one. -/
def Keeps (files other : FileSystem) : Prop :=
  ∀ place node, files.get? place = some node → other.get? place = some node

namespace Keeps

theorem refl (files : FileSystem) : files.Keeps files :=
  fun _ _ => id

theorem trans (h : files.Keeps other) (h' : other.Keeps third) : files.Keeps third :=
  fun place node hnode => h' place node (h place node hnode)

theorem toExtends (h : files.Keeps other) : files.Extends other :=
  fun place node hnode => ⟨node, h place node hnode, .refl node⟩

/-- A node is put where there is nothing. -/
theorem put (h : files.get? place = none) (node : Node) : files.Keeps (files.put place node) := by
  intro there old hold
  rw [get?_put, if_neg, hold]
  rintro rfl
  simp [h] at hold

theorem eraseTree (files : FileSystem) (place : Location) : (files.eraseTree place).Keeps files := by
  intro there node hnode
  rw [get?_eraseTree] at hnode
  split at hnode
  · cases hnode
  · exact hnode

/-- What a path leads to is there when nodes have been added. -/
theorem resolve (h : files.Keeps other) {last : LastName}
    (hresolve : files.resolve cwd last path = .ok (.existing place node)) :
    other.resolve cwd last path = .ok (.existing place node) := by
  obtain ⟨later, -, hlater⟩ := h.toExtends.resolve hresolve
  have hnode : other.get? place = some node := h place node (get?_of_resolve hresolve)
  rw [hlater, Option.some.inj ((get?_of_resolve hlater).symm.trans hnode)]

theorem find (h : files.Keeps other) (hfind : files.find cwd path = .ok (place, node)) :
    other.find cwd path = .ok (place, node) :=
  find_eq_ok_iff.mpr (h.resolve (find_eq_ok_iff.mp hfind))

end Keeps

theorem keeps_of_create (hnone : files.get? place = none)
    (h : files.create place node = .ok changed) : files.Keeps changed := by
  rw [create] at h
  split at h
  · cases h
    exact .put hnone node
  · cases h

theorem keeps_of_makeDirectory (h : files.makeDirectory cwd path = .ok changed) :
    files.Keeps changed := by
  simp only [makeDirectory] at h
  split at h
  · split at h <;> cases h
  · split at h
    · cases h
    · exact keeps_of_create (get?_of_resolve ‹_›) h
    · cases h

/-- There are no slashes at the end of the path of an entry. -/
theorem exists_reverse_segments_div (directory : Path) {name : String} (hname : Path.IsName name) :
    ∃ behind, (directory / name).segments.reverse = name :: behind ∧
      (directory / name).segments.reverse.dropWhile String.isEmpty =
        (directory / name).segments.reverse := by
  obtain ⟨front, hsegments⟩ := Path.exists_segments_div directory hname
  have hreverse : (directory / name).segments.reverse = name :: front.reverse := by
    rw [hsegments, List.reverse_concat]
  refine ⟨front.reverse, hreverse, ?_⟩
  rw [hreverse, List.dropWhile_cons_of_neg (by simpa using hname.ne_empty)]

theorem endsInDots_div (directory : Path) {name : String} (hname : Path.IsName name) :
    (directory / name).endsInDots = false := by
  obtain ⟨behind, hreverse, hbare⟩ := exists_reverse_segments_div directory hname
  rw [Path.endsInDots, hbare, hreverse]
  simp [hname.ne_dot, hname.ne_dots]

/-- A directory of some name is created where the path of the entry leads, if there is nothing. -/
theorem makeDirectory_div (directory : Path) {name : String} (hname : Path.IsName name) :
    files.makeDirectory cwd (directory / name) =
      match files.resolve cwd .kept (directory / name) with
      | .ok (.existing ..) => .error .alreadyExists
      | .ok (.vacant place _) => files.create place (.directory Mode.newDirectory)
      | .error error => .error error := by
  obtain ⟨behind, hreverse, hbare⟩ := exists_reverse_segments_div directory hname
  have hdots := endsInDots_div directory hname
  have hne : (directory / name).segments.reverse.isEmpty = false := by simp [hreverse]
  have hmake : files.makeDirectory cwd (directory / name) =
      files.makeDirectory cwd (directory / name) := rfl
  conv_rhs at hmake =>
    simp only [makeDirectory, hbare, hdots, hne, List.reverse_reverse, Path.ofSegments_segments,
      Bool.or_false, Bool.false_eq_true, if_false]
  exact hmake

/-- A directory is created where the path of an entry leads to. -/
theorem exists_of_makeDirectory_div {directory : Path} {name : String} (hname : Path.IsName name)
    (h : files.makeDirectory cwd (directory / name) = .ok changed) :
    ∃ target, files.resolve cwd .kept (directory / name) = .ok target := by
  rw [makeDirectory_div directory hname] at h
  split at h
  · cases h
  · exact ⟨_, ‹_›⟩
  · cases h

/-! ### Directories whose entries may be changed -/

theorem exists_of_isChangeable (h : files.isChangeable place = true) :
    ∃ mode, files.get? place = some (.directory mode) ∧
      mode.isWritable = true ∧ mode.isExecutable = true := by
  rw [isChangeable] at h
  split at h
  · exact ⟨_, ‹_›, (Bool.and_eq_true_iff.mp h).1, (Bool.and_eq_true_iff.mp h).2⟩
  · cases h

/-- A directory whose entries may be changed admits names. -/
theorem admits_of_isChangeable (h : files.isChangeable place = true) {name : String}
    (hname : Path.IsName name) (hshort : name.utf8ByteSize ≤ maxNameBytes) :
    files.Admits place name := by
  obtain ⟨mode, hmode, -, hexecutable⟩ := exists_of_isChangeable h
  refine ⟨?_, hname.ne_dot, hname.ne_dots, Nat.not_lt.mpr hshort⟩
  rw [isSearchable, hmode]
  exact hexecutable

theorem isChangeable_congr {other : FileSystem} (h : other.get? place = files.get? place) :
    other.isChangeable place = files.isChangeable place := by
  rw [isChangeable, h, isChangeable]

/-! ### Paths to files -/

theorem read_eq_ok_iff :
    files.read cwd path = .ok content ↔ ∃ place mode,
      files.find cwd path = .ok (place, .file mode content) ∧ mode.isReadable = true := by
  rw [read]
  cases files.find cwd path with
  | error error => simp
  | ok found =>
    obtain ⟨place, node⟩ := found
    cases node with
    | directory | link => simp
    | file mode held => cases hreadable : mode.isReadable <;> simp [hreadable]

theorem readToExtend_eq_ok_iff :
    files.readToExtend cwd path = .ok content ↔ ∃ place mode,
      files.find cwd path = .ok (place, .file mode content) ∧ mode.isReadable = true ∧
        mode.isWritable = true := by
  rw [readToExtend]
  cases files.find cwd path with
  | error error => simp
  | ok found =>
    obtain ⟨place, node⟩ := found
    cases node with
    | directory | link => simp
    | file mode held =>
      cases hreadable : mode.isReadable <;> cases hwritable : mode.isWritable <;>
        simp [hreadable, hwritable, and_assoc]

theorem admits_of_linked {last : LastName} {asDirectory : Bool} {name : String} {rest : List String}
    {next : Path} (h : files.pass last asDirectory place name rest = .linked next) :
    files.Admits place name ∧ files.get? (place ++ [name]) = some (.link next) := by
  rw [pass] at h
  split_ifs at h with hsearch hdot hdots hcreated hshort
  exact ⟨⟨by simpa using hsearch, hdot, hdots, hshort⟩, arrive_eq_linked h⟩

/-- Names that lead to something lead to something also when a link at their end stands for
itself. -/
theorem Leads.exists_kept {links : Nat} {asDirectory : Bool} {there : Location} {names : List String}
    (h : files.Leads .followed links asDirectory place names (.existing there node)) :
    ∃ there' node', files.Leads .kept links asDirectory place names (.existing there' node') := by
  generalize htarget : Target.existing there node = target at h
  induction h with
  | here hnode => exact ⟨_, _, .here hnode⟩
  | onward hpass _ ih =>
    obtain ⟨there', node', hrest⟩ := ih htarget
    exact ⟨there', node', .onward (pass_of_onward hpass (by simp)) hrest⟩
  | @ended links asDirectory place name rest target hpass =>
    subst htarget
    obtain ⟨hadmits, -, harrive⟩ := pass_eq_ended_iff.mp hpass
    refine ⟨there, node, .ended (pass_eq_ended_iff.mpr ⟨hadmits, by simp, ?_⟩)⟩
    cases hnode : files.get? (place ++ [name]) with
    | none => simpa only [arrive, hnode] using harrive
    | some found =>
      cases found with
      | file | directory => simpa only [arrive, hnode] using harrive
      | link next => simp [arrive, hnode] at harrive
  | @linked links asDirectory place name rest path target hpass hrest ih =>
    cases hkept : rest.isEmpty && LastName.kept = .kept && !asDirectory with
    | true =>
      obtain ⟨hadmits, hnode⟩ := admits_of_linked hpass
      refine ⟨place ++ [name], .link path, .ended ?_⟩
      rw [pass_of_admits hadmits (by simp), arrive, hnode]
      exact if_pos hkept
    | false =>
      obtain ⟨there', node', hleads⟩ := ih htarget
      exact ⟨there', node', .linked (pass_of_linked hpass (by simp) hkept) hleads⟩

/-- A path that leads to something does so also when a link at its end stands for itself. -/
theorem exists_resolve_kept (h : files.find cwd path = .ok (place, node)) :
    ∃ there node', files.resolve cwd .kept path = .ok (.existing there node') := by
  obtain ⟨husable, hleads⟩ := resolve_eq_ok_iff.mp (find_eq_ok_iff.mp h)
  obtain ⟨there, node', hkept⟩ := hleads.exists_kept
  exact ⟨there, node', resolve_eq_ok_iff.mpr ⟨husable, hkept⟩⟩

/-- There is no file under a path, not even behind a link. -/
def IsFree (files : FileSystem) (cwd : Location) (path : Path) : Prop :=
  ∀ place mode content, files.resolve cwd .created path ≠ .ok (.existing place (.file mode content))

/-- Under a path that leads to nothing there is no file. -/
theorem isFree_of_inspect (h : ∀ inspection, files.inspect cwd path ≠ .ok inspection) :
    files.IsFree cwd path := by
  intro place mode content hresolve
  have hfind : files.find cwd path = .ok (place, .file mode content) := find_eq_ok_iff.mpr
    ((Extends.refl files).resolve_of_created (by decide) hresolve (get?_of_resolve hresolve))
  exact h ⟨.file, mode⟩ (by rw [inspect, hfind])

/-- No file is left under a path. What was there has been removed, if there was anything. -/
structure Vacates (files : FileSystem) (cwd : Location) (path : Path) (vacated : FileSystem) :
    Prop where
  isFree : vacated.IsFree cwd path
  eq_or : vacated = files ∨ ∃ place node, files.resolve cwd .kept path = .ok (.existing place node) ∧
    (∀ mode, node ≠ .directory mode) ∧ vacated = files.eraseTree place

theorem Vacates.keeps (h : files.Vacates cwd path changed) : changed.Keeps files := by
  rcases h.eq_or with rfl | ⟨place, node, -, -, rfl⟩
  · exact .refl changed
  · exact .eraseTree files place

/-- Under a path of which the file or link has been removed there is no file. -/
theorem vacates_of_removeFile (h : files.removeFile cwd path = .ok changed) :
    files.Vacates cwd path changed := by
  obtain ⟨place, node, hkept, hnode, rfl⟩ : ∃ place node,
      files.resolve cwd .kept path = .ok (.existing place node) ∧ (∀ mode, node ≠ .directory mode) ∧
        changed = files.eraseTree place := by
    rw [removeFile] at h
    split at h
    · split at h <;> cases h
    · rename_i hother hresolve
      rw [discardNode] at h
      split at h <;> cases h
      exact ⟨_, _, hresolve, hother, rfl⟩
    · cases h
    · cases h
  refine ⟨fun there mode content hresolve => ?_, .inr ⟨place, node, hkept, hnode, rfl⟩⟩
  -- What the path leads to behind a link would have been there before, and so would the link.
  obtain ⟨other, node', hother⟩ := exists_resolve_kept (find_eq_ok_iff.mpr
    ((Extends.refl _).resolve_of_created (by decide) hresolve (get?_of_resolve hresolve)))
  have hbefore := (Keeps.eraseTree files place).resolve hother
  rw [hkept] at hbefore
  obtain ⟨rfl, -⟩ := Target.existing.inj (Except.ok.inj hbefore)
  have hnode := get?_of_resolve hother
  rw [Target.place, get?_eraseTree, List.isPrefixOf_iff_prefix.mpr (List.prefix_refl place)] at hnode
  cases hnode

/-- A file that may be written is given another content, and it is found with that content. -/
theorem overwrite_of_resolve {there : Location}
    (h : ∀ last ≠ .kept, files.resolve cwd last path = .ok (.existing there (.file mode content)))
    (hwritable : mode.isWritable = true) (new : Content) :
    files.overwrite cwd path new none = .ok (files.put there (.file mode.afterWriting new)) ∧
      (files.put there (.file mode.afterWriting new)).find cwd path =
        .ok (there, .file mode.afterWriting new) := by
  refine ⟨?_, (find_put_self (find_eq_ok_iff.mpr (h _ (by decide))) _ _).2⟩
  rw [overwrite, h _ (by decide)]
  simp [hwritable]

/-- A file has been copied to a path under which there was no file. -/
structure Copied (files : FileSystem) (cwd : Location) (source target : Path)
    (changed : FileSystem) (mode : Mode) (content : Content) (there : Location) : Prop where
  keeps : files.Keeps changed
  ne_source : ∀ place node, files.find cwd source = .ok (place, node) → place ≠ there
  resolve_target : ∀ last ≠ .kept,
    changed.resolve cwd last target = .ok (.existing there (.file mode content))

/-- A copy that is put where there is no file has the content of its source, and who may read and
write the source may read and write the copy. -/
theorem exists_of_copy_vacant {source target : Path} (h : files.copy cwd source target = .ok changed)
    (hfree : files.IsFree cwd target) :
    ∃ place mode content there bits, files.find cwd source = .ok (place, .file mode content) ∧
      bits.isReadable = mode.isReadable ∧ bits.isWritable = mode.isWritable ∧
      files.Copied cwd source target changed bits content there := by
  rw [copy] at h
  cases hfind : files.find cwd source with
  | error error => simp [hfind] at h
  | ok found =>
    obtain ⟨place, node⟩ := found
    cases node with
    | directory | link => simp [hfind] at h
    | file mode content =>
      simp only [hfind] at h
      split at h
      · cases h
      · cases hresolve : files.resolve cwd .created target with
        | error error => simp [hresolve, overwrite] at h
        | ok goal =>
          cases goal with
          | existing other node =>
            cases node with
            | file old content' => exact absurd hresolve (hfree other old content')
            | directory | link => simp [hresolve, overwrite] at h
          | vacant there asDirectory =>
            have hnone : files.get? there = none := get?_of_resolve hresolve
            simp only [hresolve, overwrite, Option.map_some, Option.getD_some] at h
            have hkeeps := keeps_of_create hnone h
            rw [create] at h
            split at h
            · cases h
              refine ⟨place, mode, content, there,
                if content.isEmpty then mode else mode.afterWriting, rfl, ?_, ?_, hkeeps, ?_, ?_⟩
              · split <;> simp
              · split <;> simp
              · intro found node hfound heq
                cases hfind.symm.trans hfound
                simp [← heq, get?_of_find hfind] at hnone
              · exact fun last hlast =>
                  hkeeps.toExtends.resolve_of_created hlast hresolve (get?_put_self _ _ _)
            · cases h

namespace Copied

variable {source target : Path} {there : Location}

theorem find_target (h : files.Copied cwd source target changed mode content there) :
    changed.find cwd target = .ok (there, .file mode content) :=
  find_eq_ok_iff.mpr (h.resolve_target _ (by decide))

/-- The source stays what it is when the copy gets another content. -/
theorem find_source (h : files.Copied cwd source target changed mode content there) {bits : Mode}
    {held : Content} (hfind : files.find cwd source = .ok (place, .file bits held)) (mode' : Mode)
    (new : Content) :
    changed.find cwd source = .ok (place, .file bits held) ∧
      (changed.put there (.file mode' new)).find cwd source = .ok (place, .file bits held) :=
  ⟨h.keeps.find hfind, find_put (find_put_self h.find_target _ _).1 (h.keeps.find hfind)
    (h.ne_source _ _ hfind)⟩

end Copied

end FileSystem

end SketchApk
