import SketchApk.Proofs.Plan.Evolution
import SketchApk.Stage.Execute

/-!
# The package between stages

The first stages hand on the package that they were given. Each of the others leaves a package of
its own, so there is a package behind each of them. It makes sure that there is one before it
succeeds: the first of these stages writes the package itself, and the others look whether their tool
has written it.

## Main definitions

* `Stage.ownPackage?` : the package that a stage writes.
* `Stage.leavesPackage` : the stages that write a package.
* `FileSystem.Has` : a path leads to a file or a directory.

## Main statements

* `Stage.ensures_execute` : behind a stage there is the package that it writes, or the one that
  there was before.
* `Stage.leaves_ensureExists`, `Packing.leaves_writeTo` : the two ways to make sure of a file.
* `Stage.leaves_execute` : the package of a stage exists when the stage has succeeded.
-/

namespace SketchApk.Stage

open Attempt

/-- The stage writes a package when it succeeds. -/
def leavesPackage : Stage → Bool
  | packageResources | optimize | align | sign => true
  | _ => false

/-- The package that a stage writes when it succeeds, if it writes one. -/
def ownPackage? (layout : BuildLayout) : Stage → Option Path
  | packageResources => some layout.unsignedPackage
  | optimize => some layout.optimizedPackage
  | align => some layout.alignedPackage
  | sign => some layout.signedPackage
  | _ => none

theorem isSome_ownPackage? (layout : BuildLayout) (stage : Stage) :
    (stage.ownPackage? layout).isSome = stage.leavesPackage := by
  cases stage <;> rfl

variable (context : StageContext) (package : Option Path)

theorem ensures_removeIntermediates :
    (removeIntermediates context package).Ensures fun output => output.package = package :=
  Ensures.bind fun _ => Ensures.bind fun _ => Ensures.bind fun _ => Ensures.of_pure rfl

theorem ensures_runCompileResources :
    (runCompileResources context package).Ensures fun output => output.package = package :=
  Ensures.bind fun _ => Ensures.bind fun _ => Ensures.bind fun _ => Ensures.bind fun _ =>
    Ensures.of_pure rfl

theorem ensures_runLinkResources :
    (runLinkResources context package).Ensures fun output => output.package = package := by
  rw [runLinkResources]
  refine Ensures.bind fun _ => Ensures.bind fun _ => Ensures.bind fun _ => ?_
  refine Ensures.bind fun _ => Ensures.bind fun _ => Ensures.bind fun _ => ?_
  refine Ensures.bind fun generated => Ensures.guarded ?_
  dsimp only
  split
  · exact Ensures.bind fun _ => Ensures.of_pure rfl
  · exact Ensures.of_pure rfl

theorem ensures_runCompileSources :
    (runCompileSources context package).Ensures fun output => output.package = package := by
  rw [runCompileSources]
  refine Ensures.bind fun sources => Ensures.guarded ?_
  refine Ensures.bind fun _ => Ensures.bind fun _ => ?_
  split
  · exact (Ensures.fail _).during _
  · refine Ensures.bind fun _ => Ensures.bind fun _ => Ensures.bind fun classes => ?_
    exact Ensures.guarded (Ensures.of_pure rfl)

theorem ensures_runConvertBytecode :
    (runConvertBytecode context package).Ensures fun output => output.package = package := by
  refine Ensures.bind fun _ => Ensures.bind fun _ => Ensures.bind fun _ => ?_
  refine Ensures.bind fun _ => Ensures.bind fun _ => Ensures.bind fun _ => ?_
  exact Ensures.bind fun _ => Ensures.bind fun _ => Ensures.of_pure rfl

theorem ensures_runPackageResources :
    (runPackageResources context package).Ensures fun output =>
      output.package = some context.layout.unsignedPackage := by
  rw [runPackageResources]
  refine Ensures.bind fun _ => Ensures.bind fun bytecode => Ensures.guarded ?_
  refine Ensures.bind fun _ => Ensures.bind fun _ => Ensures.bind fun linked => ?_
  exact Ensures.bind fun _ => Ensures.of_pure rfl

theorem ensures_repackage (output : Path) (what : String) (command : Path → Command) :
    (repackage context package output what command).Ensures fun result =>
      result.package = some output :=
  Ensures.bind fun _ => Ensures.bind fun _ => Ensures.bind fun _ => Ensures.bind fun _ =>
    Ensures.of_pure rfl

theorem ensures_runSign :
    (runSign context package).Ensures fun output =>
      output.package = some context.layout.signedPackage := by
  refine Ensures.bind fun input => ?_
  split
  · exact Ensures.fail _
  · refine Ensures.bind fun _ => Ensures.bind fun _ => Ensures.bind fun _ => ?_
    exact Ensures.bind fun use => Ensures.bind fun _ => Ensures.bind fun _ => Ensures.of_pure rfl

/-- Behind a stage there is the package that it writes, or the one that there was before. -/
theorem ensures_execute (stage : Stage) : (stage.execute context package).Ensures fun output =>
    output.package = (stage.ownPackage? context.layout).or package where
  of_ends h := by
    cases stage with
    | clean => exact (ensures_removeIntermediates context package).of_ends h
    | compileResources => exact (ensures_runCompileResources context package).of_ends h
    | linkResources => exact (ensures_runLinkResources context package).of_ends h
    | compileSources => exact (ensures_runCompileSources context package).of_ends h
    | convertBytecode => exact (ensures_runConvertBytecode context package).of_ends h
    | packageResources => exact (ensures_runPackageResources context package).of_ends h
    | optimize => exact (ensures_repackage context package _ _ _).of_ends h
    | align => exact (ensures_repackage context package _ _ _).of_ends h
    | sign => exact (ensures_runSign context package).of_ends h

/-- Behind a stage there is a package if there was one before or if the stage writes one. -/
theorem ensures_isSome_execute (stage : Stage) :
    (stage.execute context package).Ensures fun output =>
      output.package.isSome = (package.isSome || stage.leavesPackage) where
  of_ends h := by
    rw [(ensures_execute context package stage).of_ends h, Option.isSome_or,
      isSome_ownPackage? context.layout, Bool.or_comm]

end SketchApk.Stage

namespace SketchApk

open Attempt

namespace FileSystem

/-- A path leads to a file or a directory. -/
def Has (files : FileSystem) (place : Location) (path : Path) : Prop :=
  ∃ inspection, files.inspect place path = .ok inspection

theorem Extends.has {files other : FileSystem} {place : Location} {path : Path}
    (h : files.Extends other) (hhas : files.Has place path) : other.Has place path := by
  obtain ⟨inspection, hinspect⟩ := hhas
  exact h.inspect hinspect

/-- What becomes of a path when other paths are renamed to some target: it leads to something at the
end, or what it led to was reached through one of the two names of a renaming. -/
theorem Evolves.has_or_exists {place : Location} {files last : FileSystem} {history : History}
    {target path : Path} (h : Evolves place files history last) (hhas : files.Has place path)
    (hkind : ∀ entry ∈ history, entry.request.Adds ∨
      ∃ source, entry.request = .file (.rename source target)) :
    last.Has place path ∨ ∃ front source back middle,
      history = front ++ ⟨.file (.rename source target), .ok ()⟩ :: back ∧
        Evolves place files front middle ∧ middle.Has place path ∧
        ¬(middle.without place [source, target]).Has place path := by
  induction h with
  | nil => exact .inl hhas
  | @call files middle history last invocation answer =>
    obtain hadds | ⟨_, hrequest⟩ := hkind _ List.mem_cons_self
    · cases hadds
    · cases hrequest
  | @other files history last entry hentry hrest ih =>
    obtain hlast | ⟨front, source, back, middle, rfl, hfront, hmiddle⟩ :=
      ih hhas fun entry' hmem => hkind entry' (List.mem_cons_of_mem _ hmem)
    · exact .inl hlast
    · exact .inr ⟨entry :: front, source, back, middle, rfl, .other hentry hfront, hmiddle⟩
  | @file files history last operation hrest ih =>
    by_cases hnext : (operation.run place files).2.Has place path
    · obtain hlast | ⟨front, source, back, middle, rfl, hfront, hmiddle⟩ :=
        ih hnext fun entry hmem => hkind entry (List.mem_cons_of_mem _ hmem)
      · exact .inl hlast
      · exact .inr ⟨_ :: front, source, back, middle, rfl, .file operation hfront, hmiddle⟩
    · obtain hadds | ⟨source, hrequest⟩ := hkind _ List.mem_cons_self
      · exact absurd ((FileOperation.extends_run hadds place files).has hhas) hnext
      · -- A renaming that fails changes nothing, so this one has succeeded.
        obtain rfl : operation = .rename source target := Request.file.inj hrequest
        cases hrename : files.rename place source target with
        | error error =>
          simp [FileOperation.run, FileOperation.settle, hrename, hhas] at hnext
        | ok changed =>
          simp only [FileOperation.run, FileOperation.settle, hrename] at hnext ⊢
          refine .inr ⟨[], source, history, files, rfl, .nil files, hhas, fun hwithout => ?_⟩
          exact hnext ((extends_of_rename hrename).has hwithout)

end FileSystem

variable {place : Location} {path : Path}

/-- Whether a path leads to something is found out by inspecting it. -/
theorem Plan.ends_pathExists {history : History} {found : Bool} :
    (pathExists path).Ends history found ↔
      ∃ answer : Except FileError Inspection,
        history = [⟨.file (.inspect path), answer⟩] ∧ found = answer.toBool := by
  constructor
  · intro h
    obtain ⟨first, result, second, rfl, hfirst, rfl, rfl⟩ := ends_bind.mp h
    obtain ⟨answer, rest, rfl, hrest⟩ := ends_ask_bind.mp hfirst
    cases answer <;> obtain ⟨rfl, rfl⟩ := hrest <;> exact ⟨_, rfl, rfl⟩
  · rintro ⟨answer, rfl, rfl⟩
    refine ends_bind.mpr ⟨_, answer.toOption, [], (List.append_nil _).symm, ?_, rfl, ?_⟩
    · exact ends_ask_bind.mpr ⟨answer, [], rfl, by cases answer <;> exact ⟨rfl, rfl⟩⟩
    · cases answer <;> rfl

/-- A file that has been packed exists. -/
theorem Packing.leaves_writeTo {α : Type} (initial : Archive) (packing : Packing α) :
    (packing.writeTo path initial).Leaves place fun files => files.Has place path where
  of_ends hends hfiles := by
    obtain ⟨first, ⟨result, archive⟩, second, rfl, -, hsecond⟩ := Plan.ends_bind.mp hends
    obtain ⟨written, rest, rfl, hrest⟩ := Plan.ends_ask_bind.mp hsecond
    obtain ⟨middle, -, hlater⟩ := hfiles.exists_of_append
    obtain ⟨hwritten, hlast⟩ := hlater.of_file
    rcases result with fault | value
    · obtain ⟨-, hvalue⟩ := hrest
      cases hvalue
    · rcases written with error | ⟨⟩
      · obtain ⟨-, hvalue⟩ := hrest
        cases hvalue
      · obtain ⟨rfl, -⟩ := hrest
        cases hlast
        cases hchanged : middle.overwrite place path (.ofArchive archive) none with
        | error error => simp [FileOperation.run, FileOperation.settle, hchanged] at hwritten
        | ok changed =>
          obtain ⟨there, bits, hresolve⟩ := FileSystem.resolve_of_overwrite hchanged
          refine ⟨⟨.file, bits⟩, ?_⟩
          simp [FileOperation.run, FileOperation.settle, hchanged, FileSystem.inspect,
            FileSystem.find, hresolve]

namespace Stage

/-- A path that has been checked leads to something. -/
theorem leaves_ensureExists (what : String) :
    (ensureExists path what).Leaves place fun files => files.Has place path where
  of_ends hends hfiles := by
    rcases ends_bind.mp hends with ⟨fault, -, hfault⟩ | ⟨first, found, second, rfl, hfirst, hsecond⟩
    · cases hfault
    · obtain ⟨asked, value, _, rfl, hasked, rfl, hvalue⟩ := Plan.ends_bind.mp hfirst
      obtain ⟨answer, rfl, rfl⟩ := Plan.ends_pathExists.mp hasked
      obtain rfl := Except.ok.inj hvalue
      cases answer with
      | error error => cases hsecond.2
      | ok inspection =>
        obtain ⟨rfl, -⟩ := hsecond
        obtain ⟨hinspect, hlast⟩ := hfiles.of_file
        cases hlast
        exact ⟨inspection, hinspect.symm⟩

variable (context : StageContext) (package : Option Path)

theorem leaves_runPackageResources : (runPackageResources context package).Leaves place
    fun files => files.Has place context.layout.unsignedPackage := by
  rw [runPackageResources]
  refine Leaves.bind fun _ => Leaves.bind fun bytecode => Leaves.guarded ?_
  refine Leaves.bind fun _ => Leaves.bind fun _ => Leaves.bind fun linked => ?_
  exact (Packing.leaves_writeTo linked _).bind_pure _

theorem leaves_repackage (output : Path) (what : String) (command : Path → Command) :
    (repackage context package output what command).Leaves place
      fun files => files.Has place output :=
  Leaves.bind fun _ => Leaves.bind fun _ => Leaves.bind fun _ => (leaves_ensureExists what).bind_pure _

theorem leaves_runSign : (runSign context package).Leaves place
    fun files => files.Has place context.layout.signedPackage := by
  refine Leaves.bind fun input => ?_
  split
  · exact Leaves.fail _
  · refine Leaves.bind fun _ => Leaves.bind fun _ => Leaves.bind fun _ => ?_
    exact Leaves.bind fun use => Leaves.bind fun _ => (leaves_ensureExists _).bind_pure _

/-- The package that a stage writes exists when the stage has succeeded. -/
theorem leaves_execute (stage : Stage) (howns : stage.ownPackage? context.layout = some path) :
    (stage.execute context package).Leaves place fun files => files.Has place path := by
  cases stage <;> cases howns
  · exact leaves_runPackageResources context package
  · exact leaves_repackage context package _ _ _
  · exact leaves_repackage context package _ _ _
  · exact leaves_runSign context package

end Stage

end SketchApk
