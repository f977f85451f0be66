import SketchApk.Proofs.File.Kept
import SketchApk.Proofs.File.Walk
import SketchApk.Proofs.Plan.Requests
import SketchApk.Proofs.Plan.World

/-!
# Carrying attempts out

An attempt that is carried out in a world ends with a value or a fault, and leaves some files. When
it consists of two parts and succeeds, both parts have succeeded, one after the other. A plan that
works on files alone does in every history of a world what it does when it is carried out.

## Main statements

* `Attempt.run_bind_ok`, `Attempt.run_bind_error` : carrying out two parts.
* `Attempt.exists_of_run_bind` : the parts of an attempt that has succeeded.
* `World.Runs.run_eq` : a history of a plan that works on files alone.
* `Plan.Only.keeps` : creating directories takes nothing away.
-/

namespace SketchApk

namespace Plan

variable {world : World} {stop : Bool} {files : FileSystem}

theorem run_ask_file (operation : FileOperation) :
    (ask (.file operation)).run (world.answer stop) files = operation.run world.place files :=
  rfl

/-- What a path leads to is found out by inspecting it. -/
theorem run_inspect? (path : Path) :
    (inspect? path).run (world.answer stop) files =
      ((files.inspect world.place path).toOption, files) := by
  rw [inspect?, bind_eq, run_bind, run_ask_file, FileOperation.run]
  cases files.inspect world.place path <;> rfl

theorem run_pathExists (path : Path) :
    (pathExists path).run (world.answer stop) files =
      ((files.inspect world.place path).toBool, files) := by
  rw [pathExists, bind_eq, run_bind, run_inspect?]
  cases files.inspect world.place path <;> rfl

theorem run_isFile (path : Path) :
    (isFile path).run (world.answer stop) files =
      ((files.inspect world.place path).toOption.any (·.kind = .file), files) := by
  rw [isFile, bind_eq, run_bind, run_inspect?]
  rfl

theorem run_isDirectory (path : Path) :
    (isDirectory path).run (world.answer stop) files =
      ((files.inspect world.place path).toOption.any (·.kind = .directory), files) := by
  rw [isDirectory, bind_eq, run_bind, run_inspect?]
  rfl

/-- A walk leaves the files as they are. -/
theorem run_walk_eq (root : Path) :
    (walk root).run (world.answer stop) files = (files.walked world.place root, files) := by
  rw [walk, bind_eq, run_bind, run_ask_file, FileOperation.run, FileSystem.walked]
  cases files.walk world.place root <;> rfl

end Plan

/-- A plan that works on files alone does in a history of a world what it does when it is carried
out. -/
theorem World.Runs.run_eq {α : Type} {world : World} {plan : Plan α} {files last : FileSystem}
    {history : History} {result : α} (hlocal : plan.Only Request.IsLocal)
    (hends : plan.Ends history result) (h : world.Runs false files history false last) :
    plan.run (world.answer false) files = (result, last) := by
  have hkeeps : plan.Only Request.KeepsStop := hlocal.mono fun _ hrequest => hrequest.isWork.keepsStop
  obtain ⟨-, hresult, hlast⟩ := h.eq_of_isLocal hlocal hends
    (Plan.ends_run (world.answer false) plan files) (world.runs_history hkeeps files)
  exact Prod.ext hresult hlast

/-- The request creates a directory or looks what there is. -/
def Request.IsMaking : Request → Prop
  | file (.makeDirectory _) | file (.inspect _) => True
  | _ => False

/-- Creating directories takes nothing away and changes no file. -/
theorem Plan.Only.keeps {α : Type} {world : World} {stop : Bool} {plan : Plan α}
    (h : plan.Only Request.IsMaking)
    (files : FileSystem) : files.Keeps (plan.run (world.answer stop) files).2 := by
  induction h generalizing files with
  | done value => exact .refl files
  | @step request next hrequest hnext ih =>
    refine FileSystem.Keeps.trans ?_ (ih _ _)
    match request, hrequest with
    | .file (.inspect path), _ => exact .refl files
    | .file (.makeDirectory path), _ =>
      change files.Keeps (FileOperation.settle files (files.makeDirectory world.place path)).2
      cases hmake : files.makeDirectory world.place path with
      | error error => exact .refl files
      | ok changed => exact FileSystem.keeps_of_makeDirectory hmake

namespace Attempt

variable {α β σ : Type} {answer : (request : Request) → σ → request.Answer × σ}
  {attempt : Attempt α} {f : α → Attempt β} {s s' : σ} {value : α} {fault : Fault}

/-- Behind an attempt that succeeds the rest is carried out. -/
theorem run_bind_ok (h : attempt.run.run answer s = (.ok value, s')) :
    (attempt >>= f).run.run answer s = (f value).run.run answer s' := by
  rw [run_bind, Plan.run_bind, h, proceed]

/-- An attempt that fails ends the whole. -/
theorem run_bind_error (h : attempt.run.run answer s = (.error fault, s')) :
    (attempt >>= f).run.run answer s = (.error fault, s') := by
  rw [run_bind, Plan.run_bind, h]
  rfl

/-- When the whole succeeds, so do its parts. -/
theorem exists_of_run_bind {result : β} (h : (attempt >>= f).run.run answer s = (.ok result, s')) :
    ∃ value between, attempt.run.run answer s = (.ok value, between) ∧
      (f value).run.run answer between = (.ok result, s') := by
  rcases hfirst : attempt.run.run answer s with ⟨fault | value, between⟩
  · rw [run_bind_error hfirst] at h
    cases h
  · exact ⟨value, between, rfl, run_bind_ok hfirst ▸ h⟩

/-- A plan as an attempt succeeds with its value. -/
theorem run_always {plan : Plan α} (h : plan.run answer s = (value, s')) :
    (always plan).run.run answer s = (.ok value, s') := by
  change (plan.bind fun value => Plan.done (Except.ok value)).run answer s = _
  rw [Plan.run_bind, h]
  rfl

theorem of_run_always {plan : Plan α} (h : (always plan).run.run answer s = (.ok value, s')) :
    plan.run answer s = (value, s') := by
  change (plan.bind fun value => Plan.done (Except.ok value)).run answer s = _ at h
  rw [Plan.run_bind] at h
  obtain ⟨hvalue, hlast⟩ := Prod.mk.inj h
  exact Prod.ext (Except.ok.inj hvalue) hlast

/-- What succeeds succeeds as well when its faults would be others. -/
theorem run_adapt_ok {adapt : Fault → Fault} (h : attempt.run.run answer s = (.ok value, s')) :
    (ExceptT.adapt adapt attempt).run.run answer s = (.ok value, s') := by
  change (attempt.run.bind fun result => Plan.done (result.mapError adapt)).run answer s = _
  rw [Plan.run_bind, h]
  rfl

theorem run_during_ok {activity : Activity} (h : attempt.run.run answer s = (.ok value, s')) :
    (attempt.during activity).run.run answer s = (.ok value, s') :=
  run_adapt_ok h

theorem run_during_error {activity : Activity} (h : attempt.run.run answer s = (.error fault, s')) :
    (attempt.during activity).run.run answer s = (.error (fault.during activity), s') := by
  rw [run_during, Plan.run_bind, h]
  rfl

/-- What succeeds when its faults are others succeeds as it is. -/
theorem of_run_adapt {adapt : Fault → Fault}
    (h : (ExceptT.adapt adapt attempt).run.run answer s = (.ok value, s')) :
    attempt.run.run answer s = (.ok value, s') := by
  change (attempt.run.bind fun result => Plan.done (result.mapError adapt)).run answer s = _ at h
  rw [Plan.run_bind] at h
  rcases hattempt : attempt.run.run answer s with ⟨fault | found, between⟩ <;> rw [hattempt] at h
  · cases (Prod.mk.inj h).1
  · exact h

theorem of_run_during {activity : Activity}
    (h : (attempt.during activity).run.run answer s = (.ok value, s')) :
    attempt.run.run answer s = (.ok value, s') :=
  of_run_adapt h

variable {world : World} {stop : Bool} {files last : FileSystem}

/-- An operation on files is carried out as one request. -/
theorem run_file (operation : FileOperation) :
    (file operation).run.run (world.answer stop) files =
      ((operation.run world.place files).1.mapError fun error => { cause := .file error },
        (operation.run world.place files).2) := by
  change ((Plan.ask (.file operation)).bind _).run _ _ = _
  rw [Plan.run_bind, Plan.run_ask_file]
  cases (operation.run world.place files).1 <;> rfl

theorem of_run_file {operation : FileOperation} {value : operation.Value}
    (h : (file operation).run.run (world.answer stop) files = (.ok value, last)) :
    operation.run world.place files = (.ok value, last) := by
  rw [run_file] at h
  obtain ⟨hanswer, hlast⟩ := Prod.mk.inj h
  refine Prod.ext ?_ hlast
  cases hresult : (operation.run world.place files).1 with
  | error error =>
    rw [hresult] at hanswer
    cases hanswer
  | ok found =>
    rw [hresult] at hanswer
    exact congrArg Except.ok (Except.ok.inj hanswer)

end Attempt

end SketchApk
