import SketchApk.Build.Report
import SketchApk.Preflight
import SketchApk.Proofs.Plan.Attempt
import SketchApk.Stage.Package

/-!
# The requests of plans on files

The plans that are composed of operations on files make no requests but those operations. It follows
for the checks before a build, for the report behind it and for packing.

## Main statements

* `Preflight.only_validate` : the checks before a build make requests about files alone.
* `RunReport.only_of`, `RunReport.only_write` : a report needs the calendar and the number of the
  process besides.
-/

namespace SketchApk

namespace Plan

variable {kind : Request → Prop}

theorem only_attemptFile {operation : FileOperation} (h : kind (.file operation)) :
    (Attempt.file operation).run.Only kind :=
  (Only.ask h).bind fun result => by cases result <;> exact Only.done _

theorem Only.attemptMapM {α β : Type} {f : α → Attempt β} (entries : List α)
    (h : ∀ entry ∈ entries, (f entry).run.Only kind) : (entries.mapM f).run.Only kind := by
  induction entries with
  | nil =>
    rw [List.mapM_nil]
    exact Only.of_pure _
  | cons entry rest ih =>
    obtain ⟨hentry, hrest⟩ := List.forall_mem_cons.mp h
    rw [List.mapM_cons]
    exact hentry.attemptBind fun value => (ih hrest).attemptBind fun values => Only.of_pure _

theorem only_inspect? {path : Path} (h : kind (.file (.inspect path))) :
    (inspect? path).Only kind :=
  (Only.ask h).bind fun result => by cases result <;> exact Only.done _

theorem only_pathExists {path : Path} (h : kind (.file (.inspect path))) :
    (pathExists path).Only kind :=
  (only_inspect? h).bind fun _ => Only.done _

theorem only_isFile {path : Path} (h : kind (.file (.inspect path))) : (isFile path).Only kind :=
  (only_inspect? h).bind fun _ => Only.done _

theorem only_isDirectory {path : Path} (h : kind (.file (.inspect path))) :
    (isDirectory path).Only kind :=
  (only_inspect? h).bind fun _ => Only.done _

section Directories

variable (hinspect : ∀ path, kind (.file (.inspect path)))

include hinspect

theorem only_makeChain (paths : List Path)
    (hmake : ∀ path ∈ paths, path.isEmpty = false → kind (.file (.makeDirectory path))) :
    (makeChain paths).Only kind := by
  have hunless (path : Path) (error : FileError) : (unlessDirectory path error).Only kind :=
    (only_isDirectory (hinspect path)).bind fun found => by cases found <;> exact Only.done _
  induction paths with
  | nil => exact Only.done _
  | cons path containing ih =>
    obtain ⟨hfirst, hrest⟩ := List.forall_mem_cons.mp hmake
    rw [makeChain]
    split
    · exact Only.done _
    · rename_i hempty
      have hpath := hfirst (Bool.eq_false_iff.mpr hempty)
      refine (Only.ask hpath).bind fun result => ?_
      split
      · exact Only.done _
      · refine (ih hrest).bind fun made => ?_
        split
        · exact Only.done _
        · refine (Only.ask hpath).bind fun again => ?_
          split
          · exact Only.done _
          · exact hunless path _
      · exact hunless path _

/-- A directory is created by requests to create it or one above it, and to look whether one
exists. -/
theorem only_makeDirectories_of_mem {path : Path} (hmake : ∀ other ∈ path.ancestors,
    other.isEmpty = false → kind (.file (.makeDirectory other))) :
    (makeDirectories path).run.Only kind :=
  (only_makeChain hinspect path.ancestors hmake).bind fun result => by
    cases result <;> exact Only.done _

omit hinspect in
/-- Directories are created by requests to create one and to look whether one exists. -/
theorem only_makeDirectories (hmake : ∀ path, kind (.file (.makeDirectory path)))
    (hinspect : ∀ path, kind (.file (.inspect path))) (path : Path) :
    (makeDirectories path).run.Only kind :=
  only_makeDirectories_of_mem hinspect fun other _ _ => hmake other

/-- Writing a text creates directories on the way of the file, looks whether one exists, and writes
the file. -/
theorem only_writeTextFile {path : Path} {text : String}
    (hmake : ∀ parent, path.parent? = some parent → ∀ other ∈ parent.ancestors,
      other.isEmpty = false → kind (.file (.makeDirectory other)))
    (hwrite : kind (.file (.write path (.ofText text)))) :
    (writeTextFile path text).run.Only kind := by
  refine Only.attemptBind ?_ fun _ => (only_attemptFile hwrite).during _
  cases hparent : path.parent? with
  | none => exact Only.done _
  | some parent => exact (only_makeDirectories_of_mem hinspect (hmake parent hparent)).during _

end Directories

theorem only_walk (root : Path) (hwalk : kind (.file (.walk root))) : (walk root).Only kind :=
  (Only.ask hwalk).bind fun result => by cases result <;> exact Only.done _

theorem only_throughout (root : Path) (found : FileWalk) :
    (throughout root found).run.Only kind := by
  rw [throughout]
  split <;> exact Only.done _

theorem only_walkTree (root : Path) (hwalk : kind (.file (.walk root))) :
    (walkTree root).run.Only kind :=
  Only.attemptBind (only_walk root hwalk).always fun found =>
    Only.attemptBind (only_throughout root found) fun _ => Only.done _

theorem only_createDirectory (hmake : ∀ path, kind (.file (.makeDirectory path)))
    (hinspect : ∀ path, kind (.file (.inspect path))) (path : Path) :
    (createDirectory path).run.Only kind :=
  (only_makeDirectories hmake hinspect path).during _

theorem only_removeDirectory {path : Path} (hinspect : kind (.file (.inspect path)))
    (hremove : kind (.file (.removeTree path))) (activity : Activity) :
    (removeDirectory path activity).run.Only kind := by
  refine Only.attemptBind (only_pathExists hinspect).always fun found => ?_
  split
  · exact (only_attemptFile hremove).during _
  · exact Only.done _

end Plan

namespace Packing

open Plan

variable {α β : Type} {kind : Request → Prop}

/-- All requests of a packing are of some kind. -/
def Only (kind : Request → Prop) (packing : Packing α) : Prop :=
  ∀ archive, (packing.run.run archive).Only kind

theorem Only.bind {packing : Packing α} {f : α → Packing β} (h : packing.Only kind)
    (hf : ∀ value, (f value).Only kind) : (packing >>= f).Only kind := by
  intro archive
  refine (h archive).bind fun result => ?_
  rcases result with ⟨fault | value, extended⟩
  · exact Plan.Only.done _
  · exact hf value extended

theorem Only.of_pure (value : α) : (pure value : Packing α).Only kind :=
  fun _ => Plan.Only.done _

theorem Only.of_throw (fault : Fault) : (throw fault : Packing α).Only kind :=
  fun _ => Plan.Only.done _

theorem Only.ofAttempt {attempt : Attempt α} (h : attempt.run.Only kind) :
    (ofAttempt attempt).Only kind :=
  fun _ => h.bind fun _ => Plan.Only.done _

/-- A part that is skipped unless a condition holds, with another part behind it. -/
theorem Only.guarded {condition : Prop} [Decidable condition] {packing : Packing Unit}
    {rest : Unit → Packing α} (h : packing.Only kind) (hrest : (rest ()).Only kind) :
    (if condition then packing >>= rest else rest ()).Only kind := by
  split
  · exact h.bind fun _ => hrest
  · exact hrest

theorem Only.forM {γ : Type} {f : γ → Packing Unit} (entries : List γ)
    (h : ∀ entry, (f entry).Only kind) : (entries.forM f).Only kind := by
  induction entries with
  | nil => exact Only.of_pure ()
  | cons entry rest ih => exact (h entry).bind fun _ => ih

theorem Only.forM? {γ : Type} {f : γ → Packing Unit} (entry : Option γ)
    (h : ∀ entry, (f entry).Only kind) : (entry.forM f).Only kind := by
  cases entry with
  | none => exact Only.of_pure ()
  | some entry => exact h entry

theorem only_addEntry (entry : ArchiveEntry) : (addEntry entry).Only kind := by
  refine Only.bind (fun _ => Plan.Only.done _) fun archive => ?_
  split
  · exact fun _ => Plan.Only.done _
  · exact Only.of_throw _

section Files

variable (hread : ∀ path, kind (.file (.read path)))

include hread

theorem only_addFile (path : Path) (name : String) (compression : Compression) :
    (addFile path name compression).Only kind := by
  refine Only.bind (fun _ => Plan.Only.done _) fun archive => ?_
  refine Only.guarded (Only.of_throw _) ?_
  refine Only.bind (Only.ofAttempt ((only_attemptFile (hread _)).during _).always) fun result => ?_
  split
  · exact only_addEntry _
  · exact (only_addEntry _).bind fun _ => Only.of_throw _

theorem only_addTree (hwalk : ∀ path, kind (.file (.walk path))) (root : Path) (front : String)
    (compression : Compression) : (addTree root front compression).Only kind := by
  refine Only.bind (Only.ofAttempt (only_walk root (hwalk root)).always) fun found => ?_
  refine Only.bind (Only.forM _ fun names => only_addFile hread _ _ _) fun _ => ?_
  exact Only.bind (Only.ofAttempt (only_throughout root found)) fun _ => Only.of_pure _

end Files

theorem only_writeTo {path : Path} (hwrite : ∀ content, kind (.file (.write path content)))
    (initial : Archive) {packing : Packing α} (h : packing.Only kind) :
    (packing.writeTo path initial).run.Only kind := by
  refine (h initial).bind fun result => ?_
  obtain ⟨result, archive⟩ := result
  refine (Plan.Only.ask (hwrite _)).bind fun written => ?_
  rcases result with fault | value <;> rcases written with error | _ <;> exact Plan.Only.done _

end Packing

namespace Preflight

open Plan

variable {kind : Request → Prop}

section Inspections

variable (hinspect : ∀ path, kind (.file (.inspect path)))

include hinspect

theorem only_toolExists (toolchain : Toolchain) (tool : Tool) :
    (toolExists toolchain tool).Only kind :=
  only_isFile (hinspect _)

theorem only_missingTools (toolchain : Toolchain) (tools : List Tool) :
    (tools.filterM fun tool => return !(← toolExists toolchain tool)).Only kind := by
  have hloop (tools found : List Tool) :
      (tools.filterAuxM (fun tool => return !(← toolExists toolchain tool)) found).Only kind := by
    induction tools generalizing found with
    | nil => exact Only.done _
    | cons tool rest ih =>
      refine ((only_toolExists hinspect toolchain tool).bind fun _ => Only.done _).bind ?_
      exact fun missing => ih _
  exact (hloop tools []).bind fun _ => Only.done _

theorem only_checkTools (toolchain : Toolchain) (tools : List Tool) :
    (checkTools toolchain tools).run.Only kind := by
  refine (only_missingTools hinspect toolchain tools).always.attemptBind fun missing => ?_
  split
  · exact Only.done _
  · exact Only.fail _

theorem only_validateFile (what : Prerequisite) (path : Path) :
    (validateFile what path).run.Only kind := by
  rw [validateFile]
  refine Only.guarded (Only.fail _) ?_
  refine (only_isFile (hinspect _)).always.attemptBind fun found => ?_
  split
  · exact Only.done _
  · exact Only.fail _

theorem only_validateDirectory (what : Prerequisite) (path : Path) :
    (validateDirectory what path).run.Only kind := by
  rw [validateDirectory]
  refine Only.guarded (Only.fail _) ?_
  refine (only_pathExists (hinspect _)).always.attemptBind fun found => ?_
  refine Only.unguarded (Only.fail _) ?_
  refine (only_isDirectory (hinspect _)).always.attemptBind fun found => ?_
  split
  · exact Only.done _
  · exact Only.fail _

theorem only_validateSigning (signing : SigningConfig) :
    (validateSigning signing).run.Only kind := by
  rw [validateSigning]
  split
  · exact only_validateFile hinspect _ _
  · exact (only_validateFile hinspect _ _).attemptBind fun _ => only_validateFile hinspect _ _
  · exact Only.fail _

end Inspections

variable (hfile : ∀ operation, kind (.file operation))

include hfile

theorem only_ensureExecutable (path : Path) : (ensureExecutable path).run.Only kind := by
  refine ((only_attemptFile (hfile _)).during _).attemptBind fun inspection => ?_
  split
  · exact Only.done _
  · exact (only_attemptFile (hfile _)).during _

/-- The checks before a build make requests about files alone. -/
theorem only_validate (config : BuildConfig) (toolchain : Toolchain) :
    (validate config toolchain).run.Only kind := by
  have hdirectory := only_validateDirectory fun path => hfile (.inspect path)
  have hregular := only_validateFile fun path => hfile (.inspect path)
  refine (hdirectory _ _).attemptBind fun _ => ?_
  refine (hdirectory _ _).attemptBind fun _ => ?_
  refine (Only.attemptForM? _ fun _ => hdirectory _ _).attemptBind fun _ => ?_
  refine (Only.attemptForM? _ fun _ => hdirectory _ _).attemptBind fun _ => ?_
  refine (hregular _ _).attemptBind fun _ => ?_
  refine (hregular _ _).attemptBind fun _ => ?_
  refine Only.guarded (Only.fail _) ?_
  refine (Only.attemptForM _ fun _ => hdirectory _ _).attemptBind fun _ => ?_
  refine (Only.attemptForM _ fun _ => hregular _ _).attemptBind fun _ => ?_
  refine (Only.attemptForM? _ fun _ => hregular _ _).attemptBind fun _ => ?_
  refine Only.guarded (Only.attemptForM? _ fun _ => hregular _ _) ?_
  refine Only.guarded (only_validateSigning (fun _ => hfile _) _) ?_
  refine (only_checkTools (fun _ => hfile _) _ _).attemptBind fun _ => ?_
  exact Only.attemptForM _ fun _ => only_ensureExecutable hfile _

end Preflight

namespace RunReport

open Plan

variable {kind : Request → Prop}

section Description

variable (hread : ∀ path, kind (.file (.read path)))

include hread

theorem only_describePackage (path : Path) : (describePackage path).run.Only kind := by
  refine (Only.ask (hread path)).bind fun result => ?_
  split <;> exact Only.done _

theorem only_of (hcalendar : kind .calendar) (runId startedAt : String) (run : BuildRun) :
    (RunReport.of runId startedAt run).run.Only kind := by
  have hrest (package : Option PackageReport) : (do
      let finished ← Attempt.always (ask .calendar)
      return ⟨runId, startedAt, Moment.stamp finished, run.outcome, run.statistics, package⟩ :
        Attempt RunReport).run.Only kind :=
    (Only.ask hcalendar).always.attemptBind fun _ => Only.done _
  rw [RunReport.of]
  split
  · refine Only.attemptBind ?_ hrest
    exact (only_describePackage hread _).bind fun result => by cases result <;> exact Only.done _
  · exact hrest none

end Description

theorem only_write {path : Path} (hdirectories : ∀ path, (makeDirectories path).run.Only kind)
    (hprocess : kind .processId) (hwrite : ∀ path content, kind (.file (.write path content)))
    (hrename : ∀ temporary, kind (.file (.rename temporary path))) (report : RunReport) :
    (report.write path).run.Only kind := by
  refine Only.during _ ?_
  rw [replaceFile]
  split
  · exact Only.fail _
  · refine ((hdirectories _).during _).attemptBind fun _ => ?_
    refine (Only.ask hprocess).always.attemptBind fun process => ?_
    refine ((only_attemptFile (hwrite _ _)).during _).attemptBind fun _ => ?_
    exact (only_attemptFile (hrename _)).during _

end RunReport

end SketchApk
