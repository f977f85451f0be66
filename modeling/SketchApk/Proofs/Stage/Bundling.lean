import SketchApk.Proofs.File.Standing
import SketchApk.Proofs.Plan.Failure
import SketchApk.Proofs.Stage.Assembly
import SketchApk.Proofs.Stage.TreeArchive
import SketchApk.Proofs.Stage.Work
import SketchApk.Stage.Classes

/-!
# Bundling classes

The classes are bundled into an archive of their own, so no name is in the way when their tree is
added, and the archive tells the files of their directory. Its own file, should it lie there, is no
class, and it is the only file that changes.

Making room for the archive removes what was at its place. If that was a link, the path of the
directory may lead elsewhere afterwards. So what is bundled are the files of the directory only if its
path still leads there.

## Main definitions

* `Stage.Opens` : the file of an archive has been created.
* `Stage.IsBundle` : an archive with the files of a directory is at its place.
* `Stage.Bundles` : what bundling a directory does.

## Main statements

* `Stage.opens_of_overwrite` : what the files are when the file of the archive has been created.
* `Stage.cases_of_run_bundleClasses` : the tree is packed, or bundling fails for another reason than
  a name.
* `Stage.bundles_faithfully` : trees are told by the archives to which they are added.
-/

namespace SketchApk

namespace Stage

open Attempt FileSystem

variable {world : World} {stop : Bool} {files ready opened : FileSystem}
  {directory target : Path} {place there : Location} {mode : Mode}

/-! ### Creating the file of an archive -/

/-- Making room for an output is not a matter of names in an archive. -/
theorem failsWith_prepareOutput_not_isDuplicate (path : Path) :
    (prepareOutput path).FailsWith fun fault => ¬fault.IsDuplicate := by
  have hfile (error : FileError) : ¬Fault.IsDuplicate { cause := .file error } :=
    Fault.not_isDuplicate_of_file rfl
  have hduring (activity : Activity) (fault : Fault) (h : ¬fault.IsDuplicate) :
      ¬(fault.during activity).IsDuplicate := h
  refine (FailsWith.forM? _ fun parent => ?_).bind fun _ => (FailsWith.always _).bind fun found => ?_
  · exact (failsWith_makeDirectories hfile parent).during_of (hduring _)
  · split
    · exact (FailsWith.file _ hfile).during_of (hduring _)
    · exact .of_pure ()

/-- Bundling fails without looking at the directory, or the file of the archive is created. -/
theorem run_bundleClasses_or (world : World) (stop : Bool) (files : FileSystem)
    (directory target : Path) :
    (∃ fault last, ¬fault.IsDuplicate ∧
      (bundleClasses directory target).run.run (world.answer stop) files = (.error fault, last)) ∨
    ∃ ready opened, (prepareOutput target).run.run (world.answer stop) files = (.ok (), ready) ∧
      ready.overwrite world.place target .empty none = .ok opened := by
  rcases hprepare : (prepareOutput target).run.run (world.answer stop) files with
    ⟨fault | ⟨⟨⟩⟩, ready⟩
  · refine .inl ⟨fault, ready, ?_, run_bind_error hprepare⟩
    exact (failsWith_prepareOutput_not_isDuplicate target).of_run
      (only_prepareOutput Request.isLocal_writeless target) hprepare
  · cases hwrite : ready.overwrite world.place target .empty none with
    | ok opened => exact .inr ⟨ready, opened, rfl, hwrite⟩
    | error error =>
      have hrun : (Attempt.file (.write target .empty)).run.run (world.answer stop) ready =
          (.error { cause := .file error }, ready) := by
        rw [run_file, FileOperation.run, hwrite]
        rfl
      refine .inl ⟨({ cause := .file error } : Fault).during (.creating target), ready,
        Fault.not_isDuplicate_of_file rfl, ?_⟩
      rw [bundleClasses, run_bind_ok hprepare, run_bind_error (run_during_error hrun)]

/-- When the file of the archive has been created, the rest is a matter of the tree. -/
theorem run_bundleClasses_eq
    (hprepare : (prepareOutput target).run.run (world.answer stop) files = (.ok (), ready))
    (hwrite : ready.overwrite world.place target .empty none = .ok opened) :
    (bundleClasses directory target).run.run (world.answer stop) files =
      ((Packing.addTree directory "" .deflated).writeTo target .empty).run.run
        (world.answer stop) opened := by
  have hrun : (Attempt.file (.write target .empty)).run.run (world.answer stop) ready =
      (.ok (), opened) := by
    rw [run_file, FileOperation.run, hwrite]
    rfl
  rw [bundleClasses, run_bind_ok hprepare, run_bind_ok (run_during_ok hrun)]

/-- The file of an archive has been created. -/
structure Opens (files : FileSystem) (cwd : Location) (target : Path) (there : Location)
    (opened : FileSystem) : Prop where
  resolve_target : ∀ last ≠ .kept,
    opened.resolve cwd last target = .ok (.existing there (.file Mode.newFile .empty))
  isTree : opened.IsTree
  wellNamed : opened.WellNamed
  /-- No other file has changed. -/
  contentAt_of_ne : ∀ other ≠ there, opened.contentAt other = files.contentAt other
  /-- The directories are where they were, unless a link has been removed. -/
  keepsWays (h : files.SameLinks opened) : files.KeepsWays opened

/-- What the files are when the file of an archive has been created, for which room has been made. -/
theorem opens_of_overwrite (htree : files.IsTree) (hwell : files.WellNamed)
    (hprepare : (prepareOutput target).run.run (world.answer stop) files = (.ok (), ready))
    (hwrite : ready.overwrite world.place target .empty none = .ok opened) :
    ∃ there, Opens files world.place target there opened := by
  obtain ⟨made, hmade, hvacates⟩ := exists_of_prepareOutput hprepare
  obtain ⟨there, ⟨asDirectory, hcreated⟩, rfl, hresolve⟩ :=
    exists_of_overwrite_free hwrite hvacates.isFree
  have hnone : ready.get? there = none := get?_of_resolve hcreated
  have hmadeTree : made.IsTree := hmade.isTree htree
  refine ⟨there, ⟨hresolve, ?isTree, ?wellNamed, fun other hne => ?contentAt, fun hlinks => ?keepsWays⟩⟩
  case isTree =>
    rcases hvacates.eq_or with rfl | ⟨gone, -, -, -, rfl⟩
    · exact hmadeTree.overwrite hwrite
    · exact (hmadeTree.eraseTree gone).overwrite hwrite
  case wellNamed =>
    have hready : ready.WellNamed := by
      refine Plan.Only.wellNamed ?_ hwell hprepare
      exact only_prepareOutput_of_mem (fun _ => trivial) (fun _ _ _ _ _ => trivial) trivial
    exact hready.put (hready.isName_of_resolve hcreated) _
  case contentAt =>
    rw [contentAt_put, if_neg hne.symm, hvacates.contentAt_eq hmadeTree hcreated hne,
      hmade.contentAt_eq]
  case keepsWays =>
    have hready : made.KeepsWays ready := by
      refine hvacates.keepsWays hmadeTree fun place path hlink => ?_
      have hlater := (hlinks place path).mp ((hmade.sameLinks place path).mpr hlink)
      rw [get?_put] at hlater
      split at hlater
      · cases hlater
      · exact hlater
    exact (KeepsWays.of_keeps hmade.keeps).trans (hready.trans (.of_keeps (.put hnone _)))

/-! ### What is bundled -/

/-- The archive at a path has the files of a directory. -/
structure IsBundle (files : FileSystem) (cwd : Location) (directory : Path) (place : Location)
    (target : Path) (count : Nat) (last : FileSystem) (there : Location) (bundled : Archive) : Prop where
  find_target : ∃ mode content,
    last.find cwd target = .ok (there, .file mode content) ∧ content.toArchive = .ok bundled
  /-- Every entry has been counted. -/
  length_entries : bundled.entries.length = count
  /-- No file but that of the archive has changed. -/
  contentAt_of_ne : ∀ other ≠ there, last.contentAt other = files.contentAt other
  /-- The directory is where it was, unless a link has been removed. -/
  find_directory : files.SameLinks last →
    ∃ mode, last.find cwd directory = .ok (place, .directory mode)
  /-- If the directory is where it was, the archive tells its files, apart from its own one. -/
  mem_filesBehind_iff : (∃ mode, last.find cwd directory = .ok (place, .directory mode)) →
    ∀ names bytes, place ++ names ≠ there → ((names, bytes) ∈ bundled.filesBehind "" ↔
      ∃ content, files.contentAt (place ++ names) = some content ∧ content.toBytes = bytes)

/-- What bundling the files of a directory does. -/
structure Bundles (world : World) (stop : Bool) (files : FileSystem) (directory : Path)
    (place : Location) (target : Path) : Prop where
  /-- No name is ever in the way. -/
  not_isDuplicate : ∀ fault last,
    (bundleClasses directory target).run.run (world.answer stop) files = (.error fault, last) →
      ¬fault.IsDuplicate
  /-- It succeeds if the file of the archive can be created and the directory is legible then. -/
  succeeds : ∀ ready opened,
    (prepareOutput target).run.run (world.answer stop) files = (.ok (), ready) →
      ready.overwrite world.place target .empty none = .ok opened →
      (∃ mode, opened.find world.place directory = .ok (place, .directory mode)) →
      IsLegible opened world.place directory place →
      ∃ count last,
        (bundleClasses directory target).run.run (world.answer stop) files = (.ok count, last)
  /-- When it has succeeded, the archive has the files of the directory. -/
  isBundle : ∀ count last,
    (bundleClasses directory target).run.run (world.answer stop) files = (.ok count, last) →
      ∃ there bundled,
        IsBundle files world.place directory place target count last there bundled

namespace Opens

/-- The tree is packed when the file of the archive has been created, and the archive is written to
it. -/
theorem cases_of_run (h : Opens files world.place target there opened) (stop : Bool)
    (directory : Path) :
    (∃ found bundled, opened.HoldsTree world.place directory found ∧
      bundled.entries = Packing.treeEntries "" .deflated found ∧
      ((Packing.addTree directory "" .deflated).writeTo target .empty).run.run (world.answer stop)
        opened = (.ok found.length,
          opened.put there (.file Mode.newFile.afterWriting (.ofArchive bundled)))) ∨
    ∃ fault last, Packing.StopsAt opened world.place directory fault ∧
      ((Packing.addTree directory "" .deflated).writeTo target .empty).run.run (world.answer stop)
        opened = (.error fault, last) := by
  have hwritten (content : Content) :=
    (overwrite_of_resolve h.resolve_target (show Mode.newFile.isWritable = true by decide) content).1
  have hfits : (Archive.empty.names ++
      (opened.walked world.place directory).files.map (Packing.entryName "")).Nodup :=
    Packing.nodup_entryNames h.wellNamed world.place directory ""
  rcases Packing.cases_of_run_addTree stop .deflated hfits with
    ⟨found, bundled, hfound, hrun, hentries⟩ | ⟨fault, bundled, hstops, hrun⟩
  · exact .inl ⟨found, bundled, hfound, hentries, Packing.run_writeTo_eq hrun (hwritten _)⟩
  · exact .inr ⟨fault, _, hstops, Packing.run_writeTo_eq hrun (hwritten _)⟩

/-- The archive that is written tells the files of the directory. -/
theorem isBundle (h : Opens files world.place target there opened)
    {found : List (List String × Content)} {bundled : Archive}
    (hfound : opened.HoldsTree world.place directory found)
    (hentries : bundled.entries = Packing.treeEntries "" .deflated found)
    (hroot : files.find world.place directory = .ok (place, .directory mode)) :
    IsBundle files world.place directory place target found.length
      (opened.put there (.file Mode.newFile.afterWriting (.ofArchive bundled))) there bundled := by
  have hopened : opened.find world.place target = .ok (there, .file Mode.newFile .empty) :=
    find_eq_ok_iff.mpr (h.resolve_target _ (by decide))
  constructor
  case find_target =>
    exact ⟨_, _, (find_put_self hopened _ _).2, Content.toArchive_ofArchive bundled⟩
  case length_entries => rw [hentries, Packing.treeEntries, List.length_map]
  case contentAt_of_ne =>
    intro other hne
    rw [contentAt_put, if_neg hne.symm, h.contentAt_of_ne other hne]
  case find_directory =>
    intro hlinks
    have hlink (path : Path) : opened.get? there ≠ some (.link path) := by simp [get?_of_find hopened]
    have hways : files.KeepsWays opened :=
      h.keepsWays (hlinks.trans (sameLinks_put hlink _ _).symm)
    exact ⟨mode, (KeepsWays.put_file (get?_of_find hopened)).find (hways.find hroot)⟩
  case mem_filesBehind_iff =>
    rintro ⟨bits, hlast⟩ names bytes hne
    have hroot' : opened.find world.place directory = .ok (place, .directory bits) :=
      KeepsWays.of_put_file.find hlast
    have hencloses : Packing.Encloses bundled .empty "" .deflated found :=
      Packing.encloses_of_entries hfound h.wellNamed hroot'
        (fun _ hname => absurd hname List.not_mem_nil) hentries
    rw [hencloses.mem_filesBehind_iff (hfound.isCensus h.isTree h.wellNamed hroot'),
      h.contentAt_of_ne _ hne]

end Opens

/-- Bundling fails for another reason than a name, or the tree is packed behind the creation of the
file of the archive. -/
theorem cases_of_run_bundleClasses (htree : files.IsTree) (hwell : files.WellNamed)
    (world : World) (stop : Bool) (directory target : Path) :
    (∃ fault last, ¬fault.IsDuplicate ∧
      (bundleClasses directory target).run.run (world.answer stop) files = (.error fault, last)) ∨
    ∃ there opened found bundled, Opens files world.place target there opened ∧
      opened.HoldsTree world.place directory found ∧
      bundled.entries = Packing.treeEntries "" .deflated found ∧
      (bundleClasses directory target).run.run (world.answer stop) files = (.ok found.length,
        opened.put there (.file Mode.newFile.afterWriting (.ofArchive bundled))) := by
  rcases run_bundleClasses_or world stop files directory target with
    hfails | ⟨ready, opened, hprepare, hwrite⟩
  · exact .inl hfails
  · obtain ⟨there, hopens⟩ := opens_of_overwrite htree hwell hprepare hwrite
    rw [run_bundleClasses_eq hprepare hwrite]
    rcases hopens.cases_of_run stop directory with
      ⟨found, bundled, hfound, hentries, hholds⟩ | ⟨fault, last, hstops, hfails⟩
    · exact .inr ⟨there, opened, found, bundled, hopens, hfound, hentries, hholds⟩
    · exact .inl ⟨fault, last, hstops.not_isDuplicate, hfails⟩

/-- Adding the tree of a directory to an archive of which no entry begins with the text in front adds
one entry for each file, and the archive tells the files. So the files of a directory are bundled, and
no name is in the way. -/
theorem bundles_faithfully (htree : files.IsTree) (hwell : files.WellNamed)
    (hroot : files.find world.place directory = .ok (place, .directory mode)) (stop : Bool) :
    (∀ front compression archive, (∀ name ∈ archive.names, ¬front.toList <+: name.toList) →
      Packing.AddsTree world stop files directory place front compression archive) ∧
    ∀ target, Bundles world stop files directory place target := by
  refine ⟨fun front compression archive hfresh =>
    Packing.addsTree htree hwell hroot stop compression hfresh, fun target => ?_⟩
  constructor
  case not_isDuplicate =>
    intro fault last hrun
    rcases cases_of_run_bundleClasses htree hwell world stop directory target with
      ⟨_, _, hfault, hfails⟩ | ⟨_, _, _, _, -, -, -, hholds⟩
    · cases hrun.symm.trans hfails
      exact hfault
    · cases hrun.symm.trans hholds
  case succeeds =>
    rintro ready opened hprepare hwrite ⟨bits, hopened⟩ hlegible
    obtain ⟨there, hopens⟩ := opens_of_overwrite htree hwell hprepare hwrite
    rw [run_bundleClasses_eq hprepare hwrite]
    rcases hopens.cases_of_run stop directory with ⟨_, _, -, -, hholds⟩ | ⟨_, _, hstops, -⟩
    · exact ⟨_, _, hholds⟩
    · exact absurd hstops (hlegible.not_stopsAt hopened)
  case isBundle =>
    intro count last hrun
    rcases cases_of_run_bundleClasses htree hwell world stop directory target with
      ⟨_, _, -, hfails⟩ | ⟨there, opened, found, bundled, hopens, hfound, hentries, hholds⟩
    · cases hrun.symm.trans hfails
    · cases hrun.symm.trans hholds
      exact ⟨there, bundled, hopens.isBundle hfound hentries hroot⟩

/-- Two classes, of which one lies deeper, and a link. -/
def classTree : FileSystem :=
  ((((FileSystem.root.put ["c"] (.directory 0o755)).put ["c", "a"] (.directory 0o755)).put
    ["c", "a", "B.class"] (.file 0o644 (.ofText "B"))).put
      ["c", "a.class"] (.file 0o644 (.ofText "a"))).put ["c", "z.class"] (.link ⟨"a.class"⟩)

/-- An archive with one entry. -/
def notesArchive : Archive :=
  ⟨[{ name := "notes", compression := .stored, data := ByteArray.empty }], by simp⟩

/-- Both classes are added to another archive, and they are bundled. -/
theorem bundles_classTree : classTree.IsTree ∧ classTree.WellNamed ∧
    classTree.find uselessWorld.place ⟨"/c"⟩ = .ok (["c"], .directory 0o755) ∧
    IsLegible classTree uselessWorld.place ⟨"/c"⟩ ["c"] ∧
    (∀ name ∈ notesArchive.names, ¬"lib/".toList <+: name.toList) ∧
    Packing.AddsTree uselessWorld false classTree ⟨"/c"⟩ ["c"] "lib/" .stored notesArchive ∧
    (((Packing.addTree ⟨"/c"⟩ "lib/" .stored).run.run notesArchive).run (uselessWorld.answer false)
      classTree).1.2.names = ["notes", "lib/a/B.class", "lib/a.class"] ∧
    Bundles uselessWorld false classTree ⟨"/c"⟩ ["c"] ⟨"/out/c.jar"⟩ ∧
    ((bundleClasses ⟨"/c"⟩ ⟨"/out/c.jar"⟩).run.run (uselessWorld.answer false) classTree).1 = .ok 2 ∧
    ((bundleClasses ⟨"/c"⟩ ⟨"/out/c.jar"⟩).run.run (uselessWorld.answer false) classTree).2.find
      uselessWorld.place ⟨"/c"⟩ = .ok (["c"], .directory 0o755) := by
  have htree : classTree.IsTree :=
    ((((FileSystem.isTree_root.put [] "c" rfl rfl _).put ["c"] "a" rfl rfl _).put ["c", "a"] "B.class"
      rfl rfl _).put ["c"] "a.class" rfl rfl _).put ["c"] "z.class" rfl rfl _
  have hwell : classTree.WellNamed :=
    ((((FileSystem.wellNamed_root.put (by decide) _).put (by decide) _).put (by decide) _).put
      (by decide) _).put (by decide) _
  have hroot : classTree.find uselessWorld.place ⟨"/c"⟩ = .ok (["c"], .directory 0o755) := rfl
  have hholds : classTree.HoldsTree uselessWorld.place ⟨"/c"⟩
      [(["a", "B.class"], .ofText "B"), (["a.class"], .ofText "a")] :=
    ⟨rfl, List.forall_mem_cons.mpr ⟨rfl, List.forall_mem_cons.mpr ⟨rfl, nofun⟩⟩⟩
  have hlegible : IsLegible classTree uselessWorld.place ⟨"/c"⟩ ["c"] :=
    isLegible_of_holdsTree hholds htree hwell hroot
  have hfresh : ∀ name ∈ notesArchive.names, ¬"lib/".toList <+: name.toList := by decide
  obtain ⟨hadds, hbundles⟩ := bundles_faithfully htree hwell hroot false
  exact ⟨htree, hwell, hroot, hlegible, hfresh, hadds "lib/" .stored notesArchive hfresh, by rfl,
    hbundles ⟨"/out/c.jar"⟩, by rfl, by rfl⟩

end Stage

end SketchApk
