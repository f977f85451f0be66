import SketchApk.Proofs.File.Descent
import SketchApk.Proofs.Path.Extension
import SketchApk.Proofs.Plan.Carrying
import SketchApk.Stage.Basic

/-!
# Collecting files

The files of a tree that have an extension are collected by a walk. All of them are found, each once
and nothing else, and their order is that of their locations, compared name by name. This is not the
order of their paths as texts: `a/b` comes before `a.b`, although a dot comes before a slash. A
directory that cannot be listed makes the whole fail.

In what order the system lists the entries of a directory plays no part, since a descent sorts them.

## Main definitions

* `Path.HasExtension` : the names with an extension.
* `Stage.collected` : what is collected, given what a walk has come across.
* `Stage.IsCollection` : the files that should be collected.
* `Stage.Collects` : what collecting does.

## Main statements

* `Stage.run_collectFiles_eq` : files are collected by a walk.
* `Stage.isCollection_of_walk` : a walk finds the files that should be collected.
* `Stage.cases_of_walked` : a walk comes to a halt unless all directories can be listed.
* `Stage.collects` : the files that should be collected are collected.
-/

namespace SketchApk

/-- The part of the name behind its last dot is the extension, and something stands in front of that
dot. -/
def Path.HasExtension (name extension : String) : Prop :=
  ∃ stem, stem ≠ "" ∧ '.' ∉ extension.toList ∧ name = stem ++ "." ++ extension

theorem Path.hasExtension_iff {name extension : String} :
    HasExtension name extension ↔ (splitName name).2 = some extension := by
  constructor
  · rintro ⟨stem, hstem, hdot, rfl⟩
    rw [splitName_append hstem hdot]
  · intro h
    obtain ⟨hname, hstem, hdot⟩ := eq_of_splitName (Prod.ext rfl h)
    exact ⟨_, hstem, hdot, hname⟩

namespace Stage

open FileSystem

variable {world : World} {stop : Bool} {files : FileSystem} {place : Location} {root : Path}
  {mode : Mode} {extension : String} {found : FileWalk}

/-- What is collected, given what a walk has come across. -/
def collected (root : Path) (extension : String) (found : FileWalk) : Except Fault (List Path) :=
  match found.halt with
  | none => .ok ((found.files.map root.descend).filter (·.extension? = some extension))
  | some (names, error) => .error (Plan.walkFault root names error)

/-- Files are collected by a walk. -/
theorem run_collectFiles_eq (root : Path) (extension : String) :
    (collectFiles root extension).run.run (world.answer stop) files =
      (collected root extension (files.walked world.place root), files) := by
  have hwalk : (Plan.walk root).run (world.answer stop) files =
      (files.walked world.place root, files) :=
    Plan.run_walk_eq root
  rw [collected]
  cases hhalt : (files.walked world.place root).halt with
  | none =>
    have htree : (Plan.walkTree root).run.run (world.answer stop) files =
        (.ok (files.walked world.place root).files, files) := by
      rw [Plan.walkTree, Attempt.run_bind_ok (Attempt.run_always hwalk), Plan.throughout, hhalt]
      rfl
    rw [collectFiles, Attempt.run_bind_ok htree]
    rfl
  | some halt =>
    obtain ⟨names, error⟩ := halt
    have htree : (Plan.walkTree root).run.run (world.answer stop) files =
        (.error (Plan.walkFault root names error), files) := by
      rw [Plan.walkTree, Attempt.run_bind_ok (Attempt.run_always hwalk), Plan.throughout, hhalt]
      rfl
    rw [collectFiles, Attempt.run_bind_error htree]

/-- All directories of the tree below a root can be listed, and the root as well. -/
def IsListable (files : FileSystem) (cwd : Location) (root : Path) (place : Location) : Prop :=
  ∀ names mode, files.get? (place ++ names) = some (.directory mode) →
    ∃ entries, files.list cwd (root.descend names) = .ok entries

/-- The regular files with an extension in the tree of a directory, by the names that lead to
them. -/
structure IsCollection (files : FileSystem) (place : Location) (root : Path) (extension : String)
    (found : List (List String)) : Prop where
  /-- These are the files whose names have the extension, and links are none of them. -/
  mem_iff : ∀ names, names ∈ found ↔
    (∃ mode content, files.get? (place ++ names) = some (.file mode content)) ∧
      ∃ name, names.getLast? = some name ∧ Path.HasExtension name extension
  /-- They are in strict order name by name, by the bytes of the names. -/
  ordered : found.Pairwise fun names others => names.map nameBytes < others.map nameBytes
  /-- No path is listed twice. -/
  nodup : (found.map root.descend).Nodup

/-- What collecting the files with an extension in the tree of a directory does. -/
structure Collects (world : World) (stop : Bool) (files : FileSystem) (root : Path)
    (place : Location) (extension : String) : Prop where
  /-- It succeeds if every directory can be listed. -/
  ok : IsListable files world.place root place → ∃ found,
    IsCollection files place root extension found ∧
      (collectFiles root extension).run.run (world.answer stop) files =
        (.ok (found.map root.descend), files)
  /-- It fails otherwise, at a directory that cannot be listed. -/
  error : ¬IsListable files world.place root place → ∃ names mode error,
    files.get? (place ++ names) = some (.directory mode) ∧
      files.list world.place (root.descend names) = .error error ∧
      (collectFiles root extension).run.run (world.answer stop) files =
        (.error (Plan.walkFault root names error), files)
  /-- The files are those that a descent finds, in whatever order it lists the entries of each
  directory. -/
  descent : ∀ listing : List String → List (String × Node),
    (∀ names, (listing names).Perm (files.children (place ++ names))) →
      (collectFiles root extension).run.run (world.answer stop) files =
        (collected root extension
          (files.descent world.place root listing (files.height place + 1) []), files)

/-- A walk that does not come to a halt finds the files that should be collected. -/
theorem isCollection_of_walk (hwell : files.WellNamed) {cwd : Location}
    (hroot : files.find cwd root = .ok (place, .directory mode))
    (hwalk : files.walk cwd root = .ok found) (hhalt : found.halt = none) (extension : String) :
    ∃ names, IsCollection files place root extension names ∧
      collected root extension found = .ok (names.map root.descend) := by
  have hnames (names : List String) (hmem : names ∈ found.files) :
      names ≠ [] ∧ ∀ name ∈ names, Path.IsName name :=
    ⟨(exists_of_mem_walk hwalk hroot hmem).1, hwell.isName_of_mem_walk hwalk hmem⟩
  have hextension (names : List String) (hmem : names ∈ found.files) :
      (root.descend names).extension? = some extension ↔
        ∃ name, names.getLast? = some name ∧ Path.HasExtension name extension := by
    obtain ⟨hne, hname⟩ := hnames names hmem
    obtain ⟨front, last, rfl⟩ := (List.eq_nil_or_concat' names).resolve_left hne
    rw [Path.descend_concat, Path.extension?_div _ (hname last (by simp)), List.getLast?_concat,
      ← Path.hasExtension_iff]
    simp
  refine ⟨found.files.filter fun names => (root.descend names).extension? = some extension, ?_, ?_⟩
  · constructor
    case mem_iff =>
      intro names
      rw [List.mem_filter, decide_eq_true_iff]
      constructor
      · rintro ⟨hmem, hextended⟩
        exact ⟨(exists_of_mem_walk hwalk hroot hmem).2, (hextension names hmem).mp hextended⟩
      · rintro ⟨⟨bits, content, hfile⟩, hextended⟩
        have hne : names ≠ [] := by
          rintro rfl
          rw [List.append_nil, get?_of_find hroot] at hfile
          cases hfile
        have hmem := mem_walk hwalk hroot hhalt hne hfile
        exact ⟨hmem, (hextension names hmem).mpr hextended⟩
    case ordered =>
      exact ((pairwise_files_walk hwalk hroot).imp map_nameBytes_lt_of_compare).filter _
    case nodup =>
      refine List.pairwise_map.mpr (List.Pairwise.imp_of_mem ?_
        ((pairwise_files_walk hwalk hroot).filter _))
      intro names others hmem hmem' hlt heq
      obtain ⟨hne, hname⟩ := hnames names (List.mem_of_mem_filter hmem)
      obtain ⟨hne', hname'⟩ := hnames others (List.mem_of_mem_filter hmem')
      rw [Path.eq_of_descend_eq hne hne' hname hname' heq, Std.compare_self] at hlt
      cases hlt
  · rw [collected, hhalt]
    dsimp only
    rw [List.filter_map]
    rfl

/-- A walk comes to a halt unless all directories can be listed. -/
theorem cases_of_walked (hroot : files.find world.place root = .ok (place, .directory mode)) :
    ((files.walked world.place root).halt = none ∧ IsListable files world.place root place) ∨
      ∃ names bits error, files.get? (place ++ names) = some (.directory bits) ∧
        files.list world.place (root.descend names) = .error error ∧
        (files.walked world.place root).halt = some (names, error) := by
  have hmem (names : List String) (bits : Mode) :
      (names, Node.directory bits) ∈ ([], .directory mode) :: files.below place ↔
        files.get? (place ++ names) = some (.directory bits) := by
    rw [List.mem_cons, mem_below]
    by_cases hnames : names = []
    · subst hnames
      simp [get?_of_find hroot, eq_comm]
    · simp [hnames]
  rw [walked_eq hroot]
  cases hhalt : (files.walkBelow world.place root (([], .directory mode) :: files.below place)).halt with
  | none =>
    refine .inl ⟨rfl, fun names bits hdirectory => ?_⟩
    obtain ⟨there, hlist⟩ := exists_findListable hhalt ((hmem names bits).mpr hdirectory)
    exact ⟨(files.children there).map (·.1), by rw [list, hlist]; rfl⟩
  | some halt =>
    obtain ⟨names, error⟩ := halt
    obtain ⟨⟨bits, hdirectory⟩, hlist⟩ := findListable_of_halt hhalt
    exact .inr ⟨names, bits, error, (hmem names bits).mp hdirectory, by rw [list, hlist]; rfl, rfl⟩

/-- The files with an extension in the tree of a directory are collected, in the order of their
locations, which is not that of their paths as texts. -/
theorem collects (htree : files.IsTree) (hwell : files.WellNamed)
    (hroot : files.find world.place root = .ok (place, .directory mode)) (stop : Bool)
    (extension : String) : Collects world stop files root place extension ∧
      ∃ names others : List String, names.map nameBytes < others.map nameBytes ∧
        nameBytes (Path.ofSegments others).text < nameBytes (Path.ofSegments names).text := by
  refine ⟨?_, ["a", "b"], ["a.b"], by decide +kernel, by decide +kernel⟩
  constructor
  case ok =>
    intro hlistable
    rcases cases_of_walked hroot with ⟨hhalt, -⟩ | ⟨names, bits, error, hdirectory, hlist, -⟩
    · obtain ⟨found, hfound, hcollected⟩ :=
        isCollection_of_walk hwell hroot (walk_eq_ok_walked hhalt) hhalt extension
      exact ⟨found, hfound, by rw [run_collectFiles_eq, hcollected]⟩
    · obtain ⟨entries, hentries⟩ := hlistable names bits hdirectory
      cases hlist.symm.trans hentries
  case error =>
    intro hunlistable
    rcases cases_of_walked hroot with ⟨-, hlistable⟩ | ⟨names, bits, error, hdirectory, hlist, hhalt⟩
    · exact absurd hlistable hunlistable
    · exact ⟨names, bits, error, hdirectory, hlist, by rw [run_collectFiles_eq, collected, hhalt]⟩
  case descent =>
    intro listing hlisting
    rw [run_collectFiles_eq, descent_eq htree hroot hlisting]

/-- A world whose tools are of no use. -/
def uselessWorld : World where
  place := []
  tools _ files := (.error { cause := .tool (.refused "") }, files)

/-- Two files and a link, whose paths have another order than their locations. -/
def sourceTree : FileSystem :=
  ((((FileSystem.root.put ["s"] (.directory 0o755)).put ["s", "a"] (.directory 0o755)).put
    ["s", "a", "Z.java"] (.file 0o644 .empty)).put ["s", "a.java"] (.file 0o644 .empty)).put
      ["s", "b.java"] (.link ⟨"a.java"⟩)

/-- Both files are collected, and the link is not. -/
theorem collects_sourceTree : sourceTree.IsTree ∧ sourceTree.WellNamed ∧
    sourceTree.find [] ⟨"/s"⟩ = .ok (["s"], .directory 0o755) ∧
    Collects uselessWorld false sourceTree ⟨"/s"⟩ ["s"] "java" ∧
    (collectFiles ⟨"/s"⟩ "java").run.run (uselessWorld.answer false) sourceTree =
      (.ok [⟨"/s/a/Z.java"⟩, ⟨"/s/a.java"⟩], sourceTree) := by
  have htree : sourceTree.IsTree :=
    ((((FileSystem.isTree_root.put [] "s" rfl rfl _).put ["s"] "a" rfl rfl _).put ["s", "a"] "Z.java"
      rfl rfl _).put ["s"] "a.java" rfl rfl _).put ["s"] "b.java" rfl rfl _
  have hwell : sourceTree.WellNamed :=
    ((((FileSystem.wellNamed_root.put (by decide) _).put (by decide) _).put (by decide) _).put
      (by decide) _).put (by decide) _
  have hroot : sourceTree.find [] ⟨"/s"⟩ = .ok (["s"], .directory 0o755) := rfl
  exact ⟨htree, hwell, hroot, (collects htree hwell hroot false "java").1, by rfl⟩

end Stage

end SketchApk
