import SketchApk.Proofs.Plan.Writing
import SketchApk.Proofs.Stage.Collecting
import SketchApk.Proofs.Stage.Packing

/-!
# Trees in archives

An archive to which a tree is added tells the tree. The name of an entry is a text in front and the
names that lead to a file, with slashes between them, so it is read back by removing the text and
splitting the rest at the slashes. If no entry began with that text before, the entries that do so
afterwards are the files of the tree with their bytes.

Adding a tree fails only when a directory cannot be listed or a file cannot be read. The names of the
entries are never the reason, since different ways from the root have different names.

## Main definitions

* `ArchiveEntry.namesBehind?` : the names that lead to the file of an entry.
* `Archive.filesBehind` : the files of the entries that begin with a text.
* `Fault.IsDuplicate` : the faults whose cause is a name that occurs already.
* `Packing.StopsAt` : the faults of files that cannot be read and of a walk that comes to a halt.
* `FileSystem.IsCensus` : the regular files of a tree in order, with what they hold.
* `Stage.IsLegible` : all directories of a tree can be listed and all files read.
* `Packing.Encloses` : an archive has been extended by the files of a tree.
* `Packing.AddsTree` : what adding a tree to an archive does.

## Main statements

* `Packing.entryName_inj` : different ways have different names.
* `Packing.cases_of_run_addFiles`, `Packing.cases_of_run_addTree` : several files and a tree are
  added up to the first one that cannot be read.
* `FileSystem.HoldsTree.isCensus` : what is read in a tree is what its files hold.
* `Packing.addsTree` : the files of a tree are added, and the archive tells them.
-/

namespace SketchApk

/-! ### Names of entries -/

/-- The names that lead to the file of an entry whose name begins with a text. That text is removed,
and the rest is split at the slashes. -/
def ArchiveEntry.namesBehind? (entry : ArchiveEntry) (front : String) : Option (List String) :=
  (entry.name.toList.dropPrefix? front.toList).map fun rest => (⟨String.ofList rest⟩ : Path).segments

/-- The cause is a name that occurs already. -/
def Fault.IsDuplicate (fault : Fault) : Prop :=
  ∃ name, fault.cause = .archive (.duplicateName name)

theorem Fault.not_isDuplicate_of_file {fault : Fault} {error : FileError}
    (h : fault.cause = .file error) : ¬fault.IsDuplicate := by
  rintro ⟨name, hname⟩
  cases h.symm.trans hname

/-- The files of the entries that begin with a text: the names that lead to them, and their bytes. -/
def Archive.filesBehind (archive : Archive) (front : String) : List (List String × ByteArray) :=
  archive.entries.filterMap fun entry =>
    (entry.namesBehind? front).map fun names => (names, entry.data)

namespace Packing

variable {front : String} {names others : List String} {entry : ArchiveEntry}
  {archive extended : Archive} {found : List (List String × Content)} {compression : Compression}

theorem toList_entryName (front : String) (names : List String) :
    (entryName front names).toList = front.toList ++ (Path.ofSegments names).text.toList :=
  String.toList_append

/-- Splitting takes the names of an entry apart. -/
theorem namesBehind?_of_entryName (hname : entry.name = entryName front names) (hne : names ≠ [])
    (h : ∀ name ∈ names, Path.IsName name) : entry.namesBehind? front = some names := by
  have hdrop : entry.name.toList.dropPrefix? front.toList =
      some (Path.ofSegments names).text.toList := by
    rw [hname, toList_entryName]
    exact List.dropPrefix?_append_of_beq _ (beq_self_eq_true front.toList)
  rw [ArchiveEntry.namesBehind?, hdrop, Option.map_some, String.ofList_toList]
  exact congrArg some (Path.segments_ofSegments hne fun name hmem => (h name hmem).not_mem)

theorem namesBehind?_eq_none (h : ¬front.toList <+: entry.name.toList) :
    entry.namesBehind? front = none := by
  rw [ArchiveEntry.namesBehind?, Option.map_eq_none_iff, Option.eq_none_iff_forall_ne_some]
  intro rest hrest
  obtain ⟨begins, hname, hbegins⟩ := List.dropPrefix?_eq_some_iff.mp hrest
  rw [beq_iff_eq] at hbegins
  exact h ⟨rest, by rw [hname, hbegins]⟩

/-- The names of entries lead back to the ways of files, also if the way is empty. -/
theorem names_ofSegments (h : ∀ name ∈ names, Path.IsName name) :
    (Path.ofSegments names).names = names := by
  rcases eq_or_ne names [] with rfl | hne
  · exact Path.names_empty
  · rw [Path.names, Path.segments_ofSegments hne fun name hmem => (h name hmem).not_mem]
    refine List.filter_eq_self.mpr fun name hmem => ?_
    simpa using (h name hmem).ne_empty

/-- Different ways have different names. -/
theorem entryName_inj (h : ∀ name ∈ names, Path.IsName name) (h' : ∀ name ∈ others, Path.IsName name)
    (heq : entryName front names = entryName front others) : names = others := by
  have htext : Path.ofSegments names = Path.ofSegments others := by
    refine congrArg Path.mk (String.toList_inj.mp ?_)
    have htoList := congrArg String.toList heq
    rw [toList_entryName, toList_entryName] at htoList
    exact List.append_cancel_left htoList
  rw [← names_ofSegments h, htext, names_ofSegments h']

/-- An archive tells the files of a tree that has been added to it, if none of its entries began with
the text in front before. -/
theorem filesBehind_eq (hfresh : ∀ name ∈ archive.names, ¬front.toList <+: name.toList)
    (hnames : ∀ file ∈ found, file.1 ≠ [] ∧ ∀ name ∈ file.1, Path.IsName name)
    (hentries : extended.entries = archive.entries ++ treeEntries front compression found) :
    extended.filesBehind front = found.map fun file => (file.1, file.2.toBytes) := by
  have hold : (archive.entries.filterMap fun entry =>
      (entry.namesBehind? front).map fun names => (names, entry.data)) = [] := by
    refine List.filterMap_eq_nil_iff.mpr fun entry hentry => ?_
    rw [namesBehind?_eq_none (hfresh _ (List.mem_map_of_mem hentry)), Option.map_none]
  rw [Archive.filesBehind, hentries, List.filterMap_append, hold, List.nil_append, treeEntries,
    List.filterMap_map, ← List.filterMap_eq_map]
  refine List.filterMap_congr fun file hfile => ?_
  obtain ⟨hne, hname⟩ := hnames file hfile
  rw [Function.comp_apply, namesBehind?_of_entryName rfl hne hname]
  rfl

/-- The entries of the files that a walk comes across have different names. -/
theorem nodup_entryNames {files : FileSystem} (hwell : files.WellNamed) (cwd : Location) (root : Path)
    (front : String) : ((files.walked cwd root).files.map (entryName front)).Nodup := by
  rw [FileSystem.walked]
  cases hwalk : files.walk cwd root with
  | error error => exact List.nodup_nil
  | ok found =>
    refine List.pairwise_map.mpr ((FileSystem.nodup_files_walk hwalk).imp_of_mem ?_)
    exact fun {names others} hnames hothers hne heq => hne <|
      entryName_inj (hwell.isName_of_mem_walk hwalk hnames)
        (hwell.isName_of_mem_walk hwalk hothers) heq

/-! ### Adding a tree -/

open Attempt

variable {world : World} {stop : Bool} {files : FileSystem} {path root : Path} {error : FileError}
  {fault : Fault}

/-- The fault of a file that cannot be read. -/
def openingFault (path : Path) (error : FileError) : Fault :=
  { activities := [.opening path], cause := .file error }

/-- The fault of a file that a walk has come across and that cannot be read, or of the walk. -/
inductive StopsAt (files : FileSystem) (cwd : Location) (root : Path) : Fault → Prop where
  | opening {names : List String} {error : FileError}
      (hmem : names ∈ (files.walked cwd root).files)
      (hread : files.read cwd (root.descend names) = .error error) :
      StopsAt files cwd root (openingFault (root.descend names) error)
  | walking {names : List String} {error : FileError}
      (hhalt : (files.walked cwd root).halt = some (names, error)) :
      StopsAt files cwd root (Plan.walkFault root names error)

/-- The names of an archive are never why a tree is not added. -/
theorem StopsAt.not_isDuplicate {cwd : Location} (h : StopsAt files cwd root fault) :
    ¬fault.IsDuplicate := by
  cases h with
  | opening hmem hread => exact Fault.not_isDuplicate_of_file rfl
  | walking hhalt =>
    rintro ⟨name, hname⟩
    cases hname

/-- A file that cannot be read ends packing. -/
theorem run_addFile_error {name : String} (stop : Bool) (compression : Compression)
    (h : files.read world.place path = .error error) (hname : name ∉ archive.names) :
    ∃ extended, ((addFile path name compression).run.run archive).run (world.answer stop) files =
      ((.error (openingFault path error), extended), files) := by
  have hentry : ({ name, compression, data := ByteArray.empty } : ArchiveEntry).name ∉ archive.names :=
    hname
  obtain ⟨extended, hadded, -⟩ := run_addEntry hentry
  have hread : (Attempt.file (.read path)).run.run (world.answer stop) files =
      (.error { cause := .file error }, files) := by
    rw [run_file, FileOperation.run, h]
    rfl
  refine ⟨extended, ?_⟩
  rw [addFile, run_get_bind, if_neg hname]
  refine (run_ofAttempt_bind (run_always (run_during_error hread)) _ archive).trans ?_
  dsimp only
  rw [run_bind, hadded]
  rfl

/-- Add several files of a tree. -/
def addFiles (root : Path) (front : String) (compression : Compression)
    (ways : List (List String)) : Packing Unit :=
  ways.forM fun names => addFile (root.descend names) (entryName front names) compression

/-- Files are added one after the other, up to one that cannot be read. The induction is on the
files, with the archive growing by one entry at each of them. -/
theorem cases_of_run_addFiles (world : World) (stop : Bool) (files : FileSystem) (root : Path)
    (front : String) (compression : Compression) (ways : List (List String)) (archive : Archive)
    (hfits : (archive.names ++ ways.map (entryName front)).Nodup) :
    (∃ found extended, ways = found.map (·.1) ∧
      (∀ file ∈ found, files.read world.place (root.descend file.1) = .ok file.2) ∧
      ((addFiles root front compression ways).run.run archive).run (world.answer stop) files =
        ((.ok (), extended), files) ∧
      extended.entries = archive.entries ++ treeEntries front compression found) ∨
    ∃ names ∈ ways, ∃ error extended,
      files.read world.place (root.descend names) = .error error ∧
      ((addFiles root front compression ways).run.run archive).run (world.answer stop) files =
        ((.error (openingFault (root.descend names) error), extended), files) := by
  induction ways generalizing archive with
  | nil => exact .inl ⟨[], archive, rfl, nofun, rfl, (List.append_nil _).symm⟩
  | cons names rest ih =>
    have hname : entryName front names ∉ archive.names := fun hmem =>
      (List.nodup_append.mp hfits).2.2 _ hmem _ List.mem_cons_self rfl
    have hstep : addFiles root front compression (names :: rest) =
        addFile (root.descend names) (entryName front names) compression >>= fun _ =>
          addFiles root front compression rest := rfl
    cases hread : files.read world.place (root.descend names) with
    | error error =>
      obtain ⟨extended, hrun⟩ := run_addFile_error stop compression hread hname
      refine .inr ⟨names, List.mem_cons_self, error, extended, hread, ?_⟩
      rw [hstep, run_bind, Plan.run_bind, hrun]
      rfl
    | ok content =>
      have hfirst : (addFile (root.descend names) (entryName front names) compression).Adds world stop
          files [{ name := entryName front names, compression, data := content.toBytes }] :=
        adds_addFile hread
      obtain ⟨⟨⟩, longer, hrun, hlonger⟩ := hfirst.of_fits archive (fits_singleton.mpr hname)
      have hrest : (longer.names ++ rest.map (entryName front)).Nodup := by
        rw [Archive.names, hlonger, List.map_append, List.append_assoc]
        exact hfits
      have hbehind : ((addFiles root front compression (names :: rest)).run.run archive).run
          (world.answer stop) files =
            ((addFiles root front compression rest).run.run longer).run (world.answer stop) files := by
        rw [hstep, run_bind, Plan.run_bind, hrun]
        rfl
      rw [hbehind]
      rcases ih longer hrest with ⟨found, extended, rfl, hfound, hadded, hextended⟩ |
        ⟨others, hothers, error, extended, hunread, hstopped⟩
      · refine .inl ⟨(names, content) :: found, extended, rfl,
          List.forall_mem_cons.mpr ⟨hread, hfound⟩, hadded, ?_⟩
        rw [hextended, hlonger, List.append_assoc]
        rfl
      · exact .inr ⟨others, List.mem_cons_of_mem _ hothers, error, extended, hunread, hstopped⟩

/-- A tree is added as a whole, unless there is a file that cannot be read or the walk comes to a
halt. -/
theorem cases_of_run_addTree (stop : Bool) (compression : Compression)
    (hfits : (archive.names ++ (files.walked world.place root).files.map (entryName front)).Nodup) :
    (∃ found extended, files.HoldsTree world.place root found ∧
      ((addTree root front compression).run.run archive).run (world.answer stop) files =
        ((.ok found.length, extended), files) ∧
      extended.entries = archive.entries ++ treeEntries front compression found) ∨
    ∃ fault extended, StopsAt files world.place root fault ∧
      ((addTree root front compression).run.run archive).run (world.answer stop) files =
        ((.error fault, extended), files) := by
  let through (walked : FileWalk) : Packing Nat :=
    addFiles root front compression walked.files >>= fun _ =>
      ofAttempt (Plan.throughout root walked) >>= fun _ => pure walked.files.length
  have hwalk : ((addTree root front compression).run.run archive).run (world.answer stop) files =
      ((through (files.walked world.place root)).run.run archive).run (world.answer stop) files :=
    run_ofAttempt_bind (run_always (Plan.run_walk_eq root)) through archive
  rw [hwalk]
  rcases cases_of_run_addFiles world stop files root front compression _ archive hfits with
    ⟨found, extended, hfound, hread, hadded, hextended⟩ |
      ⟨names, hnames, error, extended, hunread, hstopped⟩
  · cases hhalt : (files.walked world.place root).halt with
    | none =>
      refine .inl ⟨found, extended, ⟨?_, hread⟩, ?_, hextended⟩
      · rw [FileSystem.walk_eq_ok_walked hhalt, ← hfound, ← hhalt]
      · rw [run_bind, Plan.run_bind, hadded, proceed, Plan.throughout, hhalt, hfound,
          List.length_map]
        rfl
    | some halt =>
      obtain ⟨names, error⟩ := halt
      refine .inr ⟨_, extended, .walking hhalt, ?_⟩
      rw [run_bind, Plan.run_bind, hadded, proceed, Plan.throughout, hhalt]
      rfl
  · refine .inr ⟨_, extended, .opening hnames hunread, ?_⟩
    rw [run_bind, Plan.run_bind, hstopped]
    rfl

end Packing

/-! ### The files of a tree -/

/-- The regular files of the tree of a directory in order, with what they hold. -/
structure FileSystem.IsCensus (files : FileSystem) (place : Location)
    (found : List (List String × Content)) : Prop where
  /-- These are the files at and below the place of the directory, and links are none of them. -/
  mem_iff : ∀ names content,
    (names, content) ∈ found ↔ files.contentAt (place ++ names) = some content
  /-- They are in strict order name by name, by the bytes of the names. -/
  ordered : found.Pairwise fun file other =>
    file.1.map FileSystem.nameBytes < other.1.map FileSystem.nameBytes

/-- All directories of the tree of a directory can be listed, and all regular files can be read. -/
structure Stage.IsLegible (files : FileSystem) (cwd : Location) (root : Path) (place : Location) :
    Prop where
  list : IsListable files cwd root place
  read : ∀ names content, files.contentAt (place ++ names) = some content →
    ∃ read, files.read cwd (root.descend names) = .ok read

namespace FileSystem

variable {files : FileSystem} {cwd place : Location} {root : Path} {mode : Mode}
  {found : List (List String × Content)} {names : List String} {content : Content} {fault : Fault}

theorem exists_contentAt_of_mem_walked (hroot : files.find cwd root = .ok (place, .directory mode))
    (h : names ∈ (files.walked cwd root).files) :
    names ≠ [] ∧ ∃ content, files.contentAt (place ++ names) = some content := by
  rw [walked] at h
  cases hwalk : files.walk cwd root with
  | error error =>
    rw [hwalk] at h
    cases h
  | ok found =>
    rw [hwalk] at h
    obtain ⟨hne, bits, content, hfile⟩ := exists_of_mem_walk hwalk hroot h
    exact ⟨hne, content, contentAt_eq_some_iff.mpr ⟨bits, hfile⟩⟩

/-- What is read under the path of a file of a tree is what the file holds. -/
theorem eq_of_read_descend (htree : files.IsTree)
    (hroot : files.find cwd root = .ok (place, .directory mode)) (hne : names ≠ [])
    (hnames : ∀ name ∈ names, Path.IsName name) {read : Content}
    (hfile : files.contentAt (place ++ names) = some content)
    (hread : files.read cwd (root.descend names) = .ok read) : read = content := by
  obtain ⟨there, bits, hfind, -⟩ := read_eq_ok_iff.mp hread
  have hwithin : root.IsWithin (root.descend names) names := (Path.IsWithin.refl root).descend hnames
  have hplace : there = place ++ names :=
    (SameLinks.refl files).place_eq_of_within (.of_find hroot) (htree.linkFreeAlong hfile) hwithin hne
      hnames (find_eq_ok_iff.mp hfind)
  rw [← hplace, contentAt_eq_some_iff.mpr ⟨bits, get?_of_find hfind⟩] at hfile
  exact Option.some.inj hfile

namespace HoldsTree

theorem walked_eq (h : files.HoldsTree cwd root found) :
    files.walked cwd root = { files := found.map (·.1) } := by
  rw [walked, h.walk]

/-- The files that have been found and read in a tree are its regular files, with what they hold. -/
theorem isCensus (h : files.HoldsTree cwd root found) (htree : files.IsTree) (hwell : files.WellNamed)
    (hroot : files.find cwd root = .ok (place, .directory mode)) : files.IsCensus place found := by
  have hholds : ∀ file ∈ found, files.contentAt (place ++ file.1) = some file.2 := by
    intro file hfile
    have hmem : file.1 ∈ found.map (·.1) := List.mem_map_of_mem hfile
    obtain ⟨hne, bits, content, hnode⟩ := exists_of_mem_walk h.walk hroot hmem
    have hcontent := contentAt_eq_some_iff.mpr ⟨bits, hnode⟩
    rw [eq_of_read_descend htree hroot hne (hwell.isName_of_mem_walk h.walk hmem) hcontent
      (h.read file hfile)]
    exact hcontent
  constructor
  case mem_iff =>
    refine fun names content => ⟨fun hmem => hholds _ hmem, fun hcontent => ?_⟩
    obtain ⟨bits, hnode⟩ := contentAt_eq_some_iff.mp hcontent
    have hne : names ≠ [] := by
      rintro rfl
      rw [List.append_nil, get?_of_find hroot] at hnode
      cases hnode
    obtain ⟨⟨_, held⟩, hmem, rfl⟩ := List.mem_map.mp (mem_walk h.walk hroot rfl hne hnode)
    obtain rfl : held = content := Option.some.inj ((hholds _ hmem).symm.trans hcontent)
    exact hmem
  case ordered =>
    exact (List.pairwise_map.mp (pairwise_files_walk h.walk hroot)).imp map_nameBytes_lt_of_compare

end HoldsTree

end FileSystem

namespace Stage

open FileSystem

variable {files : FileSystem} {world : World} {place : Location} {root : Path} {mode : Mode}
  {found : List (List String × Content)} {fault : Fault}

/-- A tree that is found and read as a whole is legible. -/
theorem isLegible_of_holdsTree (h : files.HoldsTree world.place root found) (htree : files.IsTree)
    (hwell : files.WellNamed) (hroot : files.find world.place root = .ok (place, .directory mode)) :
    IsLegible files world.place root place where
  list := by
    rcases cases_of_walked hroot with ⟨-, hlistable⟩ | ⟨names, bits, error, -, -, hhalt⟩
    · exact hlistable
    · rw [h.walked_eq] at hhalt
      cases hhalt
  read names content hcontent :=
    ⟨content, h.read _ (((h.isCensus htree hwell hroot).mem_iff names content).mpr hcontent)⟩

/-- In a legible tree nothing stops. -/
theorem IsLegible.not_stopsAt (h : IsLegible files world.place root place)
    (hroot : files.find world.place root = .ok (place, .directory mode)) :
    ¬Packing.StopsAt files world.place root fault := by
  rintro (⟨hmem, hunread⟩ | hhalt)
  · obtain ⟨-, content, hcontent⟩ := exists_contentAt_of_mem_walked hroot hmem
    obtain ⟨read, hread⟩ := h.read _ content hcontent
    cases hunread.symm.trans hread
  · rcases cases_of_walked hroot with ⟨hthrough, -⟩ | ⟨names, bits, error, hdirectory, hlist, -⟩
    · cases hhalt.symm.trans hthrough
    · obtain ⟨entries, hentries⟩ := h.list names bits hdirectory
      cases hlist.symm.trans hentries

end Stage

namespace Packing

variable {world : World} {stop : Bool} {files : FileSystem} {place : Location} {root : Path}
  {mode : Mode} {front : String} {compression : Compression} {archive : Archive}

/-- An archive has been extended by the files of a tree. -/
structure Encloses (extended archive : Archive) (front : String) (compression : Compression)
    (found : List (List String × Content)) : Prop where
  /-- There is one more entry for each file, in the order of the walk. -/
  entries_eq : extended.entries = archive.entries ++ treeEntries front compression found
  /-- No two of them have the same name. -/
  nodup : ((treeEntries front compression found).map (·.name)).Nodup
  /-- They tell the names that lead to the files, and the bytes of the files. -/
  filesBehind_eq : extended.filesBehind front = found.map fun file => (file.1, file.2.toBytes)

/-- What an archive tells is what the files of the tree hold. -/
theorem Encloses.mem_filesBehind_iff {extended : Archive} {found : List (List String × Content)}
    (h : Encloses extended archive front compression found) (hcensus : files.IsCensus place found)
    (names : List String) (bytes : ByteArray) : (names, bytes) ∈ extended.filesBehind front ↔
      ∃ content, files.contentAt (place ++ names) = some content ∧ content.toBytes = bytes := by
  rw [h.filesBehind_eq, List.mem_map]
  constructor
  · rintro ⟨⟨ways, content⟩, hmem, heq⟩
    obtain ⟨rfl, rfl⟩ := Prod.mk.inj heq
    exact ⟨content, (hcensus.mem_iff ways content).mp hmem, rfl⟩
  · rintro ⟨content, hcontent, rfl⟩
    exact ⟨(names, content), (hcensus.mem_iff names content).mpr hcontent, rfl⟩

/-- What adding the tree of a directory to an archive does. -/
structure AddsTree (world : World) (stop : Bool) (files : FileSystem) (root : Path) (place : Location)
    (front : String) (compression : Compression) (archive : Archive) : Prop where
  /-- The files of a legible tree are added, and their number is the answer. -/
  ok : Stage.IsLegible files world.place root place → ∃ found extended,
    files.HoldsTree world.place root found ∧ files.IsCensus place found ∧
      ((addTree root front compression).run.run archive).run (world.answer stop) files =
        ((.ok found.length, extended), files) ∧
      Encloses extended archive front compression found
  /-- It fails otherwise, at a file that cannot be read or a directory that cannot be listed. -/
  error : ¬Stage.IsLegible files world.place root place → ∃ fault extended,
    StopsAt files world.place root fault ∧
      ((addTree root front compression).run.run archive).run (world.answer stop) files =
        ((.error fault, extended), files)

/-- A tree fits into an archive of which no entry begins with the text in front. -/
theorem nodup_append_entryNames (hwell : files.WellNamed) (cwd : Location) (root : Path)
    (hfresh : ∀ name ∈ archive.names, ¬front.toList <+: name.toList) :
    (archive.names ++ (files.walked cwd root).files.map (entryName front)).Nodup := by
  refine List.nodup_append.mpr ⟨archive.nodup_names, nodup_entryNames hwell cwd root front, ?_⟩
  rintro name hname _ hother rfl
  obtain ⟨names, -, rfl⟩ := List.mem_map.mp hother
  exact hfresh _ hname (toList_entryName front names ▸ List.prefix_append _ _)

theorem encloses_of_entries {extended : Archive} {found : List (List String × Content)}
    (hfound : files.HoldsTree world.place root found) (hwell : files.WellNamed)
    (hroot : files.find world.place root = .ok (place, .directory mode))
    (hfresh : ∀ name ∈ archive.names, ¬front.toList <+: name.toList)
    (hentries : extended.entries = archive.entries ++ treeEntries front compression found) :
    Encloses extended archive front compression found where
  entries_eq := hentries
  nodup := by
    have hnodup : (extended.entries.map (·.name)).Nodup := extended.nodup_names
    rw [hentries, List.map_append] at hnodup
    exact (List.nodup_append.mp hnodup).2.1
  filesBehind_eq := filesBehind_eq hfresh (fun file hfile => by
    have hmem : file.1 ∈ found.map (·.1) := List.mem_map_of_mem hfile
    exact ⟨(FileSystem.exists_of_mem_walk hfound.walk hroot hmem).1,
      hwell.isName_of_mem_walk hfound.walk hmem⟩) hentries

/-- The files of a tree are added to an archive of which no entry begins with the text in front, and
the archive tells them. -/
theorem addsTree (htree : files.IsTree) (hwell : files.WellNamed)
    (hroot : files.find world.place root = .ok (place, .directory mode)) (stop : Bool)
    (compression : Compression) (hfresh : ∀ name ∈ archive.names, ¬front.toList <+: name.toList) :
    AddsTree world stop files root place front compression archive := by
  rcases cases_of_run_addTree stop compression
      (nodup_append_entryNames hwell world.place root hfresh) with
    ⟨found, extended, hfound, hrun, hentries⟩ | ⟨fault, extended, hstops, hrun⟩
  · exact ⟨fun _ => ⟨found, extended, hfound, hfound.isCensus htree hwell hroot, hrun,
      encloses_of_entries hfound hwell hroot hfresh hentries⟩,
      fun hillegible => absurd (Stage.isLegible_of_holdsTree hfound htree hwell hroot) hillegible⟩
  · exact ⟨fun hlegible => absurd hstops (hlegible.not_stopsAt hroot),
      fun _ => ⟨fault, extended, hstops, hrun⟩⟩

end Packing

end SketchApk
