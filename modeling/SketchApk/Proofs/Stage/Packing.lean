import SketchApk.Proofs.Plan.Carrying
import SketchApk.Stage.Package

/-!
# What packing adds

Packing files adds one entry for each of them, behind the entries that the archive has. It succeeds
if and only if the names of all entries are distinct, and it leaves the files as they are. This
passes from one file to several, and from them to a tree, since packing in two steps adds what the
first step adds and then what the second one adds.

## Main definitions

* `FileSystem.HoldsTree` : the regular files of a tree, with what they hold.
* `Packing.Adds` : packing adds some entries, unless their names clash.

## Main statements

* `Packing.Adds.bind` : entries that are added in two steps.
* `Packing.adds_addFile`, `Packing.adds_addTree` : what a file and a tree add.
-/

namespace SketchApk

/-- The regular files of a tree are those with some names, in the order in which the tree is walked,
and each of them can be read and holds some content. -/
structure FileSystem.HoldsTree (files : FileSystem) (cwd : Location) (root : Path)
    (entries : List (List String × Content)) : Prop where
  walk : files.walk cwd root = .ok { files := entries.map (·.1) }
  read : ∀ entry ∈ entries, files.read cwd (root.descend entry.1) = .ok entry.2

/-- A tree is walked through. -/
theorem Plan.run_walk {world : World} {stop : Bool} {files : FileSystem} {root : Path}
    {found : List (List String × Content)} (h : files.HoldsTree world.place root found) :
    (walk root).run (world.answer stop) files = ({ files := found.map (·.1) }, files) := by
  rw [run_walk_eq, FileSystem.walked, h.walk]

namespace Packing

open Attempt

variable {α β : Type} {world : World} {stop : Bool} {files : FileSystem}
  {entries others : List ArchiveEntry}

/-- What packing does behind a step, given how that has ended. -/
def proceed (f : α → Packing β) : Except Fault α × Archive → Plan (Except Fault β × Archive)
  | (.ok value, archive) => (f value).run.run archive
  | (.error fault, archive) => .done (.error fault, archive)

theorem run_bind (packing : Packing α) (f : α → Packing β) (archive : Archive) :
    (packing >>= f).run.run archive = (packing.run.run archive).bind (proceed f) := by
  change (packing.run.run archive).bind _ = _
  congr 1
  funext ended
  obtain ⟨result, extended⟩ := ended
  cases result <;> rfl

theorem run_get_bind (f : Archive → Packing β) (archive : Archive) :
    ((get : Packing Archive) >>= f).run.run archive = (f archive).run.run archive :=
  rfl

/-- An attempt that succeeds leaves the archive to the step behind it. -/
theorem run_ofAttempt_bind {attempt : Attempt α} {value : α}
    (h : attempt.run.run (world.answer stop) files = (.ok value, files)) (f : α → Packing β)
    (archive : Archive) : ((ofAttempt attempt >>= f).run.run archive).run (world.answer stop) files =
      ((f value).run.run archive).run (world.answer stop) files := by
  have hattempt : ((ofAttempt attempt).run.run archive).run (world.answer stop) files =
      ((.ok value, archive), files) := by
    change (attempt.run.bind fun result => Plan.done (result, archive)).run _ files = _
    rw [Plan.run_bind, h]
    rfl
  rw [run_bind, Plan.run_bind, hattempt]
  rfl

/-- An archive may be extended by entries, since all names are distinct then. -/
def Fits (archive : Archive) (entries : List ArchiveEntry) : Prop :=
  ((archive.entries ++ entries).map (·.name)).Nodup

/-- Packing adds some entries at the end of any archive, unless two names would be the same, and
fails in that case. Files stay what they are. -/
structure Adds (world : World) (stop : Bool) (files : FileSystem) (entries : List ArchiveEntry)
    (packing : Packing α) : Prop where
  of_fits (archive : Archive) (h : Fits archive entries) : ∃ value extended,
    (packing.run.run archive).run (world.answer stop) files = ((.ok value, extended), files) ∧
      extended.entries = archive.entries ++ entries
  of_not_fits (archive : Archive) (h : ¬Fits archive entries) : ∃ fault extended,
    (packing.run.run archive).run (world.answer stop) files = ((.error fault, extended), files)

namespace Adds

theorem of_pure (value : α) : (pure value : Packing α).Adds world stop files [] where
  of_fits archive _ := ⟨value, archive, rfl, (List.append_nil _).symm⟩
  of_not_fits archive h := absurd (by simpa [Fits] using archive.nodup_names) h

/-- Packing in two steps adds what the first one adds, and then what the second one adds. -/
theorem bind {packing : Packing α} {f : α → Packing β} (h : packing.Adds world stop files entries)
    (hf : ∀ value, (f value).Adds world stop files others) :
    (packing >>= f).Adds world stop files (entries ++ others) where
  of_fits archive hfits := by
    have hfirst : Fits archive entries := by
      rw [Fits, ← List.append_assoc, List.map_append] at hfits
      exact (List.nodup_append.mp hfits).1
    obtain ⟨value, extended, hrun, hextended⟩ := h.of_fits archive hfirst
    have hsecond : Fits extended others := by rwa [Fits, hextended, List.append_assoc]
    obtain ⟨value', last, hrun', hlast⟩ := (hf value).of_fits extended hsecond
    refine ⟨value', last, ?_, by rw [hlast, hextended, List.append_assoc]⟩
    rw [run_bind, Plan.run_bind, hrun]
    exact hrun'
  of_not_fits archive hfits := by
    by_cases hfirst : Fits archive entries
    · obtain ⟨value, extended, hrun, hextended⟩ := h.of_fits archive hfirst
      have hsecond : ¬Fits extended others := by rwa [Fits, hextended, List.append_assoc]
      obtain ⟨fault, last, hrun'⟩ := (hf value).of_not_fits extended hsecond
      refine ⟨fault, last, ?_⟩
      rw [run_bind, Plan.run_bind, hrun]
      exact hrun'
    · obtain ⟨fault, extended, hrun⟩ := h.of_not_fits archive hfirst
      refine ⟨fault, extended, ?_⟩
      rw [run_bind, Plan.run_bind, hrun]
      rfl

/-- A step behind an attempt that only finds something out. -/
theorem attempt_bind {attempt : Attempt α} {f : α → Packing β} {value : α}
    (h : attempt.run.run (world.answer stop) files = (.ok value, files))
    (hf : (f value).Adds world stop files entries) :
    (ofAttempt attempt >>= f).Adds world stop files entries where
  of_fits archive hfits := run_ofAttempt_bind h f archive ▸ hf.of_fits archive hfits
  of_not_fits archive hfits := run_ofAttempt_bind h f archive ▸ hf.of_not_fits archive hfits

theorem discard {packing : Packing α} (h : packing.Adds world stop files entries) :
    (discard packing : Packing Unit).Adds world stop files entries := by
  have hdiscard : (Functor.discard packing : Packing Unit) = packing >>= fun _ => pure () := rfl
  rw [hdiscard, ← List.append_nil entries]
  exact h.bind fun _ => of_pure ()

/-- What is added for each of several things is added one after the other. -/
theorem forM {γ : Type} {f : γ → Packing Unit} {entry : γ → List ArchiveEntry} (sources : List γ)
    (h : ∀ source ∈ sources, (f source).Adds world stop files (entry source)) :
    (sources.forM f).Adds world stop files (sources.flatMap entry) := by
  induction sources with
  | nil => exact of_pure ()
  | cons source rest ih =>
    rw [List.flatMap_cons]
    exact bind (h source List.mem_cons_self) fun _ =>
      ih fun other hother => h other (List.mem_cons_of_mem _ hother)

/-- What is added where a thing may be absent. -/
theorem forM? {γ : Type} {f : γ → Packing Unit} (source : Option γ)
    (hsome : ∀ found, source = some found → (f found).Adds world stop files entries)
    (hnone : source = none → entries = []) : (source.forM f).Adds world stop files entries := by
  cases source with
  | none =>
    rw [hnone rfl]
    exact of_pure ()
  | some found => exact hsome found rfl

end Adds

theorem fits_singleton {archive : Archive} {entry : ArchiveEntry} :
    Fits archive [entry] ↔ entry.name ∉ archive.names := by
  have hnodup : (archive.entries.map (·.name)).Nodup := archive.nodup_names
  rw [Fits, List.map_append, List.nodup_append, Archive.names]
  refine ⟨fun h hmem => h.2.2 _ hmem _ List.mem_cons_self rfl, fun hmem => ⟨hnodup, by simp, ?_⟩⟩
  rintro name hname other hother rfl
  obtain rfl : name = entry.name := List.mem_singleton.mp hother
  exact hmem hname

/-- An entry whose name does not occur is added at the end. -/
theorem run_addEntry {archive : Archive} {entry : ArchiveEntry} (h : entry.name ∉ archive.names) :
    ∃ extended, (addEntry entry).run.run archive = .done (.ok (), extended) ∧
      extended.entries = archive.entries ++ [entry] := by
  cases hadd : archive.add? entry with
  | none => exact absurd (Archive.add?_eq_none_iff.mp hadd) h
  | some extended =>
    refine ⟨extended, ?_, Archive.entries_of_add?_eq_some hadd⟩
    rw [addEntry, run_get_bind, hadd]
    rfl

/-- A file is one entry with its bytes as data. -/
theorem adds_addFile {path : Path} {name : String} {compression : Compression} {content : Content}
    (h : files.read world.place path = .ok content) :
    (addFile path name compression).Adds world stop files
      [{ name, compression, data := content.toBytes }] where
  of_fits archive hfits := by
    rw [fits_singleton] at hfits
    obtain ⟨extended, hadded, hextended⟩ := run_addEntry hfits
    refine ⟨(), extended, ?_, hextended⟩
    have hname : name ∉ archive.names := hfits
    have hread : (Attempt.file (.read path)).run.run (world.answer stop) files =
        (.ok content, files) := by
      rw [run_file, FileOperation.run, h]
      rfl
    rw [addFile, run_get_bind, if_neg hname]
    refine (run_ofAttempt_bind (run_always (run_during_ok hread)) _ archive).trans ?_
    rw [hadded]
    rfl
  of_not_fits archive hfits := by
    rw [fits_singleton, not_not] at hfits
    have hname : name ∈ archive.names := hfits
    refine ⟨duplicate name, archive, ?_⟩
    rw [addFile, run_get_bind, if_pos hname]
    rfl

/-- The entries of the files of a tree, in the order in which the tree is walked. -/
def treeEntries (front : String) (compression : Compression)
    (found : List (List String × Content)) : List ArchiveEntry :=
  found.map fun file =>
    { name := entryName front file.1, compression, data := file.2.toBytes }

/-- Each file of a tree is one entry, named after the way that leads to it. -/
theorem adds_addTree {root : Path} {found : List (List String × Content)}
    (h : files.HoldsTree world.place root found) (front : String) (compression : Compression) :
    (addTree root front compression).Adds world stop files (treeEntries front compression found) := by
  rw [addTree]
  refine .attempt_bind (run_always (Plan.run_walk h)) ?_
  have hfiles : ((found.map (·.1)).forM fun names =>
      addFile (root.descend names) (entryName front names) compression).Adds world stop files
        (treeEntries front compression found) := by
    rw [List.forM_eq_forM, List.forM_map, treeEntries, List.map_eq_flatMap]
    exact .forM found fun file hfile => adds_addFile (h.read file hfile)
  rw [← List.append_nil (treeEntries front compression found)]
  exact hfiles.bind fun _ => .attempt_bind rfl (.of_pure _)

end Packing

end SketchApk
