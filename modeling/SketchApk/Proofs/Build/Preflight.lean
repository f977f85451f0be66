import SketchApk.Proofs.File.Leftover
import SketchApk.Proofs.Plan.Carrying
import SketchApk.Proofs.Plan.Surroundings

/-!
# What the checks before a build change

Most of the checks before a build only look at files. When they succeed, every tool that is needed
is a regular file, and those that no one may execute are made executable one after the other. So two
file systems that are the same without some leftovers stay so.

## Main definitions

* `FileSystem.HasFile` : there is a regular file at a path.
* `Mode.executable` : the permission bits of a file that has been made executable.

## Main statements

* `Plan.run_looks` : a plan that only looks at files leaves them as they are.
* `Preflight.run_of_run_validate` : what the checks amount to when they succeed.
* `Preflight.sameWithout_of_run_validate` : the checks make no difference between file systems.
-/

namespace SketchApk

open FileSystem Request

variable {α β : Type} {world : World} {stop : Bool} {files last : FileSystem}

/-- A plan that only looks at files leaves them as they are. -/
theorem Plan.run_looks {plan : Plan α} (h : plan.Only Looks) (files : FileSystem) :
    (plan.run (world.answer stop) files).2 = files := by
  induction h generalizing files with
  | done value => rfl
  | @step request next h _ ih =>
    rw [run, ih]
    cases request with
    | file operation =>
      cases operation with
      | inspect path => rfl
      | _ => cases h
    | call => cases h
    | _ => rfl

namespace Attempt

variable {attempt : Attempt Unit} {rest : Unit → Attempt α} {result : α}

/-- A part that only looks at files has succeeded, and the rest begins with the same files. -/
theorem of_run_looks (h : attempt.run.Only Looks)
    (hrun : (attempt >>= rest).run.run (world.answer stop) files = (.ok result, last)) :
    attempt.run.run (world.answer stop) files = (.ok (), files) ∧
      (rest ()).run.run (world.answer stop) files = (.ok result, last) := by
  obtain ⟨⟨⟩, between, hattempt, hrest⟩ := exists_of_run_bind hrun
  obtain rfl : between = files := by
    have hlooks : (attempt.run.run (world.answer stop) files).2 = files := Plan.run_looks h files
    rw [hattempt] at hlooks
    exact hlooks
  exact ⟨hattempt, hrest⟩

/-- So it is when the part is skipped unless a condition holds. -/
theorem of_run_guarded {condition : Prop} [Decidable condition] (h : attempt.run.Only Looks)
    (hrun : (if condition then attempt >>= rest else rest ()).run.run (world.answer stop) files =
      (.ok result, last)) :
    (rest ()).run.run (world.answer stop) files = (.ok result, last) := by
  split at hrun
  · exact (of_run_looks h hrun).2
  · exact hrun

end Attempt

namespace FileSystem

variable {cwd : Location} {path : Path}

/-- There is a regular file at the path. -/
def HasFile (files : FileSystem) (cwd : Location) (path : Path) : Prop :=
  ∃ there mode content, files.find cwd path = .ok (there, .file mode content)

theorem hasFile_of_inspect
    (h : (files.inspect cwd path).toOption.any (·.kind = .file) = true) :
    files.HasFile cwd path := by
  rw [FileSystem.inspect] at h
  rcases hfind : files.find cwd path with error | ⟨there, node⟩
  · simp [hfind, Except.toOption] at h
  · cases node with
    | file mode content => exact ⟨there, mode, content, hfind⟩
    | directory | link => simp [hfind, Except.toOption] at h

/-- A node that takes its own place changes nothing. -/
theorem put_eq_self {place : Location} {node : Node} (h : files.get? place = some node) :
    files.put place node = files := by
  refine FileSystem.ext fun there => ?_
  rw [get?_put]
  split
  · subst there
    exact h.symm
  · rfl

/-- Regular files stay where they are when a file takes the place of another one. -/
theorem HasFile.put (h : files.HasFile cwd path) {program : Path} {there : Location} {mode : Mode}
    {content : Content} (hfind : files.find cwd program = .ok (there, .file mode content))
    (bits : Mode) (written : Content) :
    (files.put there (.file bits written)).HasFile cwd path := by
  obtain ⟨found, old, content', hfound⟩ := h
  exact ⟨found, (find_put_self hfind bits written).1.find_file hfound⟩

end FileSystem

/-- The permission bits of a file that everybody may execute, unless some class of users may do so
already. -/
def Mode.executable (mode : Mode) : Mode :=
  if mode.hasExecutors then mode else mode ||| 0o755

namespace Preflight

variable {toolchain : Toolchain} {config : BuildConfig}

/-- A tool that exists is a regular file. -/
theorem run_toolExists (toolchain : Toolchain) (tool : Tool) :
    (toolExists toolchain tool).run (world.answer stop) files =
      ((files.inspect world.place (toolchain.path tool)).toOption.any (·.kind = .file), files) := by
  rw [toolExists, Plan.isFile, Plan.bind_eq, Plan.run_bind, Plan.run_inspect?]
  rfl

/-- The tools that are missing are found out by looking at each of them. -/
theorem run_missingTools (toolchain : Toolchain) (tools : List Tool) :
    (tools.filterM fun tool => return !(← toolExists toolchain tool)).run (world.answer stop) files =
      (tools.filter fun tool => !(files.inspect world.place (toolchain.path tool)).toOption.any
        (·.kind = .file), files) := by
  have hloop (tools found : List Tool) :
      (tools.filterAuxM (fun tool => return !(← toolExists toolchain tool)) found).run
          (world.answer stop) files =
        ((tools.filter fun tool => !(files.inspect world.place (toolchain.path tool)).toOption.any
          (·.kind = .file)).reverse ++ found, files) := by
    induction tools generalizing found with
    | nil => rfl
    | cons tool rest ih =>
      have hfirst : (toolExists toolchain tool >>= fun found => pure !found).run
          (world.answer stop) files =
            (!(files.inspect world.place (toolchain.path tool)).toOption.any (·.kind = .file),
              files) := by
        rw [Plan.bind_eq, Plan.run_bind, run_toolExists]
        rfl
      rw [List.filterAuxM, Plan.bind_eq, Plan.run_bind, hfirst, ih, List.filter_cons]
      cases (files.inspect world.place (toolchain.path tool)).toOption.any (·.kind = .file) <;>
        simp
  rw [List.filterM, Plan.bind_eq, Plan.run_bind, hloop, List.append_nil]
  exact congrArg (·, files) (List.reverse_reverse _)

/-- When no tool is missing, each is a regular file. -/
theorem hasFile_of_run_checkTools {tools : List Tool}
    (hrun : (checkTools toolchain tools).run.run (world.answer stop) files = (.ok (), last)) :
    ∀ tool ∈ tools, files.HasFile world.place (toolchain.path tool) := by
  rw [checkTools,
    Attempt.run_bind_ok (Attempt.run_always (run_missingTools toolchain tools))] at hrun
  intro tool htool
  refine hasFile_of_inspect ?_
  split at hrun
  · rename_i hnone
    simpa using List.filter_eq_nil_iff.mp (List.isEmpty_iff.mp hnone) tool htool
  · cases hrun

/-- Making a file executable succeeds, and it changes the permission bits of the file alone. -/
theorem run_ensureExecutable {path : Path} {there : Location} {mode : Mode} {content : Content}
    (hfind : files.find world.place path = .ok (there, .file mode content)) :
    (ensureExecutable path).run.run (world.answer stop) files =
      (.ok (), files.put there (.file mode.executable content)) := by
  have hinspect : files.inspect world.place path = .ok ⟨.file, mode⟩ := by
    rw [FileSystem.inspect, hfind]
  have hlook : ((Attempt.file (.inspect path)).during (.readingMetadata path)).run.run
      (world.answer stop) files = (.ok ⟨.file, mode⟩, files) := by
    refine Attempt.run_during_ok ?_
    rw [Attempt.run_file, FileOperation.run, hinspect]
    rfl
  rw [ensureExecutable, Attempt.run_bind_ok hlook, Mode.executable]
  cases mode.hasExecutors with
  | true =>
    simp only [if_true, put_eq_self (get?_of_find hfind)]
    rfl
  | false =>
    have hset : (Attempt.file (.setMode path (mode ||| 0o755))).run.run (world.answer stop) files =
        (.ok (), files.put there (.file (mode ||| 0o755) content)) := by
      rw [Attempt.run_file, FileOperation.run, setMode, hfind]
      rfl
    exact Attempt.run_during_ok hset

/-- When the checks succeed, the tools that are needed are regular files, and they have been made
executable one after the other. -/
theorem run_of_run_validate
    (hrun : (validate config toolchain).run.run (world.answer stop) files = (.ok (), last)) :
    (∀ tool ∈ requiredTools config, files.HasFile world.place (toolchain.path tool)) ∧
      ((requiredTools config).forM fun tool => ensureExecutable (toolchain.path tool)).run.run
        (world.answer stop) files = (.ok (), last) := by
  have hinspect (path : Path) : (Request.file (.inspect path)).Looks := trivial
  have hdirectory := only_validateDirectory hinspect
  have hregular := only_validateFile hinspect
  have hfail {cause : Cause} : (Attempt.fail cause : Attempt Unit).run.Only Looks :=
    Plan.Only.fail _
  rw [validate] at hrun
  replace hrun := (Attempt.of_run_looks (hdirectory _ _) hrun).2
  replace hrun := (Attempt.of_run_looks (hdirectory _ _) hrun).2
  replace hrun := (Attempt.of_run_looks (.attemptForM? _ fun _ => hdirectory _ _) hrun).2
  replace hrun := (Attempt.of_run_looks (.attemptForM? _ fun _ => hdirectory _ _) hrun).2
  replace hrun := (Attempt.of_run_looks (hregular _ _) hrun).2
  replace hrun := (Attempt.of_run_looks (hregular _ _) hrun).2
  replace hrun := Attempt.of_run_guarded hfail hrun
  replace hrun := (Attempt.of_run_looks (.attemptForM _ fun _ => hdirectory _ _) hrun).2
  replace hrun := (Attempt.of_run_looks (.attemptForM _ fun _ => hregular _ _) hrun).2
  replace hrun := (Attempt.of_run_looks (.attemptForM? _ fun _ => hregular _ _) hrun).2
  replace hrun := Attempt.of_run_guarded (.attemptForM? _ fun _ => hregular _ _) hrun
  replace hrun := Attempt.of_run_guarded (only_validateSigning hinspect _) hrun
  obtain ⟨htools, hrun⟩ := Attempt.of_run_looks (only_checkTools hinspect _ _) hrun
  exact ⟨hasFile_of_run_checkTools htools, hrun⟩

/-- Making tools executable makes no difference between two file systems. -/
theorem sameWithout_of_run_forM {root : Path} {place : Location}
    {names : List String} {programs : List Path} {other last' : FileSystem} {tools : List Tool}
    (htools : ∀ tool ∈ tools, toolchain.path tool ∈ programs)
    (h : files.SameWithout world.place root place names programs other)
    (hfound : ∀ tool ∈ tools, files.HasFile world.place (toolchain.path tool))
    (hfound' : ∀ tool ∈ tools, other.HasFile world.place (toolchain.path tool))
    (hrun : (tools.forM fun tool => ensureExecutable (toolchain.path tool)).run.run
      (world.answer stop) files = (.ok (), last))
    (hrun' : (tools.forM fun tool => ensureExecutable (toolchain.path tool)).run.run
      (world.answer stop) other = (.ok (), last')) :
    last.SameWithout world.place root place names programs last' := by
  induction tools generalizing files other with
  | nil =>
    cases hrun
    cases hrun'
    exact h
  | cons tool rest ih =>
    obtain ⟨htool, htools⟩ := List.forall_mem_cons.mp htools
    obtain ⟨⟨there, mode, content, hfind⟩, hfound⟩ := List.forall_mem_cons.mp hfound
    obtain ⟨⟨there', mode', content', hfind'⟩, hfound'⟩ := List.forall_mem_cons.mp hfound'
    obtain ⟨⟨⟩, between, hfirst, hrest⟩ := Attempt.exists_of_run_bind hrun
    obtain ⟨⟨⟩, between', hfirst', hrest'⟩ := Attempt.exists_of_run_bind hrun'
    obtain rfl := (Prod.mk.inj (hfirst.symm.trans (run_ensureExecutable hfind))).2
    obtain rfl := (Prod.mk.inj (hfirst'.symm.trans (run_ensureExecutable hfind'))).2
    exact ih htools (h.put_program htool hfind hfind')
      (fun tool hmem => (hfound tool hmem).put hfind _ _)
      (fun tool hmem => (hfound' tool hmem).put hfind' _ _) hrest hrest'

/-- The checks make no difference between two file systems. -/
theorem sameWithout_of_run_validate {root : Path} {place : Location} {names : List String}
    {other last' : FileSystem}
    (h : files.SameWithout world.place root place names
      ((requiredTools config).map toolchain.path) other)
    (hrun : (validate config toolchain).run.run (world.answer stop) files = (.ok (), last))
    (hrun' : (validate config toolchain).run.run (world.answer stop) other = (.ok (), last')) :
    last.SameWithout world.place root place names ((requiredTools config).map toolchain.path)
      last' := by
  obtain ⟨hfound, hrun⟩ := run_of_run_validate hrun
  obtain ⟨hfound', hrun'⟩ := run_of_run_validate hrun'
  exact sameWithout_of_run_forM (fun tool htool => List.mem_map_of_mem htool) h hfound hfound' hrun
    hrun'

end Preflight

end SketchApk
