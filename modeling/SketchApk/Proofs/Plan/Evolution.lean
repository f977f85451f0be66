import SketchApk.Proofs.File.Operation
import SketchApk.Proofs.Plan.World

/-!
# What becomes of files

In a history files are changed by the operations on them, and by tools, which may do to them
whatever they like. All other requests leave them alone.

## Main definitions

* `FileSystem.Evolves` : a history may begin with some files and end with others.
* `Request.Adds` : the requests that take no node away.
* `Attempt.Leaves` : a condition on the files that an attempt leaves when it succeeds.
* `Plan.Achieves`, `Attempt.Succeeds`, `Attempt.Fails` : what a plan achieves that begins with some
  files, and that an attempt succeeds or fails.

## Main statements

* `FileSystem.Evolves.extends_of_adds` : a history of such requests leaves a file system with more
  nodes.
* `World.evolves_history` : in a world files evolve in that way.
-/

namespace SketchApk

open Plan

namespace Request

/-- The request has nothing to do with files. -/
def LeavesFiles : Request → Prop
  | file _ | call _ => False
  | _ => True

theorem IsIdle.leavesFiles {request : Request} (h : request.IsIdle) : request.LeavesFiles := by
  cases request <;> simp_all [IsIdle, LeavesFiles]

/-- The request takes no node away. -/
def Adds : Request → Prop
  | file operation => operation.Adds
  | call _ => False
  | _ => True

end Request

namespace FileSystem

/-- Files may evolve in a history. Paths are seen from a working directory. -/
inductive Evolves (place : Location) : FileSystem → History → FileSystem → Prop
  | nil (files : FileSystem) : Evolves place files [] files
  | file {files history last} (operation : FileOperation)
      (hrest : Evolves place (operation.run place files).2 history last) :
      Evolves place files (⟨.file operation, (operation.run place files).1⟩ :: history) last
  | call {files middle history last} (invocation : Invocation) (answer : Except Fault ToolOutput)
      (hrest : Evolves place middle history last) :
      Evolves place files (⟨.call invocation, answer⟩ :: history) last
  | other {files history last} {entry : Exchange} (hentry : entry.request.LeavesFiles)
      (hrest : Evolves place files history last) : Evolves place files (entry :: history) last

namespace Evolves

variable {place : Location} {files middle last : FileSystem} {history other : History}

theorem append (h : Evolves place files history middle) (h' : Evolves place middle other last) :
    Evolves place files (history ++ other) last := by
  induction h with
  | nil => exact h'
  | file operation _ ih => exact .file operation (ih h')
  | call invocation answer _ ih => exact .call invocation answer (ih h')
  | other hentry _ ih => exact .other hentry (ih h')

/-- The files evolve up to any point of a history. -/
theorem exists_of_append (h : Evolves place files (history ++ other) last) :
    ∃ middle, Evolves place files history middle ∧ Evolves place middle other last := by
  induction history generalizing files with
  | nil => exact ⟨files, .nil files, h⟩
  | cons entry rest ih =>
    cases h with
    | file operation hrest =>
      obtain ⟨middle, hfirst, hsecond⟩ := ih hrest
      exact ⟨middle, .file operation hfirst, hsecond⟩
    | call invocation answer hrest =>
      obtain ⟨middle, hfirst, hsecond⟩ := ih hrest
      exact ⟨middle, .call invocation answer hfirst, hsecond⟩
    | other hentry hrest =>
      obtain ⟨middle, hfirst, hsecond⟩ := ih hrest
      exact ⟨middle, .other hentry hfirst, hsecond⟩

/-- An operation answers as it does on the files at that time. -/
theorem of_file {operation : FileOperation} {answer : Except FileError operation.Value}
    (h : Evolves place files (⟨.file operation, answer⟩ :: history) last) :
    answer = (operation.run place files).1 ∧
      Evolves place (operation.run place files).2 history last := by
  cases h with
  | file _ hrest => exact ⟨rfl, hrest⟩
  | other hentry => cases hentry

/-- A request that has nothing to do with files leaves them alone. -/
theorem of_leavesFiles {entry : Exchange} (h : Evolves place files (entry :: history) last)
    (hleaves : entry.request.LeavesFiles) : Evolves place files history last := by
  cases h with
  | file | call => cases hleaves
  | other _ hrest => exact hrest

/-- Requests that have nothing to do with files leave them alone. -/
theorem eq_of_leavesFiles (h : Evolves place files history last)
    (hleaves : ∀ entry ∈ history, entry.request.LeavesFiles) : last = files := by
  induction h with
  | nil => rfl
  | file | call => exact absurd (hleaves _ List.mem_cons_self) id
  | other _ _ ih => exact ih fun entry hentry => hleaves entry (List.mem_cons_of_mem _ hentry)

/-- Requests that take no node away leave a file system with more nodes. -/
theorem extends_of_adds (h : Evolves place files history last)
    (hadds : ∀ entry ∈ history, entry.request.Adds) : files.Extends last := by
  induction h with
  | nil => exact .refl _
  | file operation _ ih =>
    have hoperation : operation.Adds := hadds _ List.mem_cons_self
    refine (FileOperation.extends_run hoperation place _).trans (ih fun entry hentry => ?_)
    exact hadds entry (List.mem_cons_of_mem _ hentry)
  | call => exact absurd (hadds _ List.mem_cons_self) id
  | other _ _ ih => exact ih fun entry hentry => hadds entry (List.mem_cons_of_mem _ hentry)

end Evolves

end FileSystem

namespace Attempt

variable {α β : Type}

/-- Whenever the attempt succeeds, the files meet a condition at its end. -/
structure Leaves (place : Location) (condition : FileSystem → Prop) (attempt : Attempt α) :
    Prop where
  of_ends {files last : FileSystem} {history : History} {value : α}
    (h : attempt.run.Ends history (.ok value))
    (hfiles : FileSystem.Evolves place files history last) : condition last

namespace Leaves

variable {place : Location} {condition : FileSystem → Prop}

theorem fail (cause : Cause) : (Attempt.fail cause : Attempt β).Leaves place condition where
  of_ends hends _ := by cases hends.2

/-- What two parts leave is a matter of the second one. -/
theorem bind {attempt : Attempt α} {f : α → Attempt β}
    (hf : ∀ value, (f value).Leaves place condition) :
    (attempt >>= f).Leaves place condition where
  of_ends hends hfiles := by
    rcases ends_bind.mp hends with ⟨fault, -, hfault⟩ | ⟨first, value, second, rfl, -, hsecond⟩
    · cases hfault
    · obtain ⟨middle, -, hlater⟩ := hfiles.exists_of_append
      exact (hf value).of_ends hsecond hlater

/-- A value that is made of the value of an attempt makes no difference to the files. -/
theorem bind_pure {attempt : Attempt α} (h : attempt.Leaves place condition) (value : α → β) :
    (attempt >>= fun result => pure (value result)).Leaves place condition where
  of_ends hends hfiles := by
    rcases ends_bind.mp hends with ⟨fault, -, hfault⟩ | ⟨first, result, second, rfl, hfirst, hsecond⟩
    · cases hfault
    · obtain ⟨rfl, -⟩ := hsecond
      rw [List.append_nil] at hfiles
      exact h.of_ends hfirst hfiles

/-- A part that is skipped unless a condition holds, with another part behind it. -/
theorem guarded {asked : Prop} [Decidable asked] {attempt : Attempt Unit}
    {rest : Unit → Attempt β} (hrest : (rest ()).Leaves place condition) :
    (if asked then attempt >>= rest else rest ()).Leaves place condition := by
  split
  · exact bind fun _ => hrest
  · exact hrest

end Leaves

end Attempt

namespace Plan

variable {α β : Type} {process : Nat} {place : Location} {files : FileSystem}
  {plan : Plan α}
  {condition : α → FileSystem → Prop}

/-- When the plan begins with some files in a process with a number, its value and the files that it
leaves meet a condition. -/
def Achieves (process : Nat) (place : Location) (files : FileSystem) (plan : Plan α)
    (condition : α → FileSystem → Prop) : Prop :=
  ∀ ⦃history value last⦄, plan.Ends history value →
    (∀ number ∈ history.processes, number = process) →
      FileSystem.Evolves place files history last → condition value last

namespace Achieves

theorem done {value : α} (h : condition value files) : (done value).Achieves process place files condition := by
  rintro history result last ⟨rfl, rfl⟩ - hfiles
  rwa [hfiles.eq_of_leavesFiles (by simp)]

theorem bind {between : α → FileSystem → Prop} {f : α → Plan β} {condition : β → FileSystem → Prop}
    (h : plan.Achieves process place files between)
    (hf : ∀ value middle, between value middle → (f value).Achieves process place middle condition) :
    (plan.bind f).Achieves process place files condition := by
  intro history result last hends hprocess hfiles
  obtain ⟨first, value, second, rfl, hfirst, hsecond⟩ := ends_bind.mp hends
  obtain ⟨middle, hmiddle, hlast⟩ := hfiles.exists_of_append
  rw [History.processes_append] at hprocess
  obtain ⟨hbefore, hbehind⟩ := List.forall_mem_append.mp hprocess
  exact hf value middle (h hfirst hbefore hmiddle) hsecond hbehind hlast

theorem file (operation : FileOperation) : (ask (.file operation)).Achieves process place files
    fun answer last => answer = (operation.run place files).1 ∧
      last = (operation.run place files).2 := by
  intro history answer last hends _ hfiles
  obtain rfl := ends_ask.mp hends
  obtain ⟨hanswer, hrest⟩ := hfiles.of_file
  exact ⟨hanswer, hrest.eq_of_leavesFiles (by simp)⟩

theorem of_leavesFiles {request : Request} (h : request.LeavesFiles) :
    (ask request).Achieves process place files fun _ last => last = files := by
  intro history answer last hends _ hfiles
  obtain rfl := ends_ask.mp hends
  exact hfiles.eq_of_leavesFiles (by simpa using h)

theorem processId : (ask .processId).Achieves process place files fun number last =>
    number = process ∧ last = files := by
  intro history number last hends hprocess hfiles
  obtain rfl := ends_ask.mp hends
  exact ⟨hprocess number List.mem_cons_self, hfiles.eq_of_leavesFiles (by simp [Request.LeavesFiles])⟩

/-- What a plan does that asks for nothing but files. -/
theorem of_isLocal {world : World} {stop : Bool} {value : α} {last : FileSystem}
    (h : plan.Only Request.IsLocal) (hrun : plan.run (world.answer stop) files = (value, last)) :
    plan.Achieves process world.place files fun result after => result = value ∧ after = last := by
  induction h generalizing files with
  | done => exact .done (Prod.mk.inj hrun)
  | @step request next hlocal _ ih =>
    intro history result after hends hprocess hfiles
    obtain ⟨answer, rest, rfl, hrest⟩ := ends_step.mp hends
    cases request <;> try cases hlocal
    · obtain ⟨rfl, hlater⟩ := hfiles.of_file
      exact ih _ hrun hrest hprocess hlater
    · exact ih _ hrun hrest hprocess (hfiles.of_leavesFiles trivial)

end Achieves

end Plan

namespace Attempt

variable {α β : Type} {process : Nat} {place : Location} {files : FileSystem}
  {attempt : Attempt α} {condition between : α → FileSystem → Prop}

/-- When the attempt begins with some files in a process with a number, it succeeds, and its value
and the files that it leaves meet a condition. -/
def Succeeds (process : Nat) (place : Location) (files : FileSystem) (attempt : Attempt α)
    (condition : α → FileSystem → Prop) : Prop :=
  attempt.run.Achieves process place files fun result last =>
    ∃ value, result = .ok value ∧ condition value last

namespace Succeeds

theorem of_pure {value : α} (h : condition value files) :
    (pure value : Attempt α).Succeeds process place files condition :=
  Plan.Achieves.done ⟨value, rfl, h⟩

theorem bind {f : α → Attempt β} {condition : β → FileSystem → Prop}
    (h : attempt.Succeeds process place files between)
    (hf : ∀ value middle, between value middle →
      (f value).Succeeds process place middle condition) :
    (attempt >>= f).Succeeds process place files condition := by
  rw [Succeeds, run_bind]
  refine Plan.Achieves.bind h fun result middle hresult => ?_
  obtain ⟨value, rfl, hvalue⟩ := hresult
  exact hf value middle hvalue

theorem during (h : attempt.Succeeds process place files condition) (activity : Activity) :
    (attempt.during activity).Succeeds process place files condition := by
  rw [Succeeds, run_during]
  refine Plan.Achieves.bind h fun result last hresult => ?_
  obtain ⟨value, rfl, hvalue⟩ := hresult
  exact .done ⟨value, rfl, hvalue⟩

theorem always {plan : Plan α} (h : plan.Achieves process place files condition) :
    (Attempt.always plan).Succeeds process place files condition :=
  Plan.Achieves.bind h fun value _ hvalue => .done ⟨value, rfl, hvalue⟩

theorem file {operation : FileOperation} {value : operation.Value} {changed : FileSystem}
    (h : operation.run place files = (.ok value, changed)) :
    (Attempt.file operation).Succeeds process place files fun result last =>
      result = value ∧ last = changed := by
  refine Plan.Achieves.bind (.file operation) fun answer last hanswer => ?_
  rw [h] at hanswer
  obtain ⟨rfl, rfl⟩ := hanswer
  exact .done ⟨value, rfl, rfl, rfl⟩

theorem map (h : attempt.Succeeds process place files condition) (f : α → β) :
    (f <$> attempt).Succeeds process place files fun result last =>
      ∃ value, result = f value ∧ condition value last := by
  refine Plan.Achieves.bind h fun result last hresult => ?_
  obtain ⟨value, rfl, hvalue⟩ := hresult
  exact .done ⟨f value, rfl, value, rfl, hvalue⟩

end Succeeds

/-- When the attempt begins with some files in a process with a number, it fails, and it leaves the
files as they are. -/
def Fails (process : Nat) (place : Location) (files : FileSystem) (attempt : Attempt α) : Prop :=
  attempt.run.Achieves process place files fun result last =>
    (∃ fault, result = .error fault) ∧ last = files

namespace Fails

theorem bind (h : attempt.Fails process place files) (f : α → Attempt β) :
    (attempt >>= f).Fails process place files := by
  rw [Fails, run_bind]
  refine Plan.Achieves.bind h fun result middle hresult => ?_
  obtain ⟨⟨fault, rfl⟩, rfl⟩ := hresult
  exact .done ⟨⟨fault, rfl⟩, rfl⟩

theorem map (h : attempt.Fails process place files) (f : α → β) :
    (f <$> attempt).Fails process place files := by
  refine Plan.Achieves.bind h fun result middle hresult => ?_
  obtain ⟨⟨fault, rfl⟩, rfl⟩ := hresult
  exact .done ⟨⟨fault, rfl⟩, rfl⟩

end Fails

end Attempt

namespace World

/-- While a plan is carried out as in a world, files evolve as in its history. -/
theorem evolves_history {α : Type} (world : World) (stop : Bool) (plan : Plan α)
    (files : FileSystem) :
    FileSystem.Evolves world.place files (plan.history (world.answer stop) files)
      (plan.run (world.answer stop) files).2 := by
  induction plan generalizing files with
  | done value => exact .nil files
  | step request next ih =>
    cases request with
    | file operation => exact .file operation (ih _ _)
    | call invocation => exact .call invocation _ (ih _ _)
    | _ => exact .other trivial (ih _ _)

/-- In a world all processes have the same number. -/
theorem forall_processes_history {α : Type} (world : World) (stop : Bool) (plan : Plan α)
    (files : FileSystem) :
    ∀ number ∈ (plan.history (world.answer stop) files).processes, number = 1 := by
  induction plan generalizing files with
  | done value => exact List.forall_mem_nil _
  | step request next ih =>
    cases request with
    | processId => exact List.forall_mem_cons.mpr ⟨rfl, ih _ _⟩
    | _ => exact ih _ _

/-- When no tool of a world fails, no call of a history has failed. -/
theorem call_not_mem_history {α : Type} {world : World} (htools : ∀ invocation files fault,
      (world.tools invocation files).1 ≠ .error fault) (stop : Bool) (plan : Plan α)
    (files : FileSystem) (invocation : Invocation) (fault : Fault) :
    ⟨.call invocation, (.error fault : Except Fault ToolOutput)⟩ ∉
      plan.history (world.answer stop) files := by
  induction plan generalizing files with
  | done value => exact List.not_mem_nil
  | step request next ih =>
    intro hmem
    rcases List.mem_cons.mp hmem with hfirst | hrest
    · cases request with
      | call other =>
        obtain ⟨-, hanswer⟩ := Exchange.mk.inj hfirst
        exact htools other files fault (eq_of_heq hanswer).symm
      | _ => cases congrArg Exchange.request hfirst
    · exact ih _ _ hrest

/-- What a plan leaves that is carried out in a world. -/
theorem exists_history {α : Type} (world : World) (plan : Plan α) (files : FileSystem) :
    ∃ history value last, plan.run (world.answer false) files = (value, last) ∧
      plan.Ends history value ∧ FileSystem.Evolves world.place files history last ∧
      ∀ number ∈ history.processes, number = 1 :=
  ⟨_, _, _, rfl, plan.ends_run _ files, world.evolves_history false plan files,
    world.forall_processes_history false plan files⟩

theorem Step.evolves {world : World} {stop : Bool} {entry : Exchange} {files files' last : FileSystem}
    {history : History} (h : world.Step stop entry files files')
    (hrest : FileSystem.Evolves world.place files' history last) :
    FileSystem.Evolves world.place files (entry :: history) last := by
  cases h with
  | file operation => exact .file operation hrest
  | call invocation | interrupted invocation => exact .call invocation _ hrest
  | check => exact .other trivial hrest
  | idle _ _ hidle => exact .other (hidle.leavesFiles) hrest

/-- In a history of a world files evolve. -/
theorem Runs.evolves {world : World} {stop stop' : Bool} {files files' : FileSystem}
    {history : History} (h : world.Runs stop files history stop' files') :
    FileSystem.Evolves world.place files history files' := by
  induction h with
  | nil => exact .nil _
  | raise _ ih => exact ih
  | cons hentry _ ih => exact hentry.evolves ih

/-- When a plan ends with a call in a world whose tools leave files alone, then the files at the end
are those at the time of the call. -/
theorem evolves_dropLast {α : Type} {world : World} {plan : Plan α} {files : FileSystem}
    {invocation : Invocation} (h : plan.Only Request.KeepsStop)
    (htools : ∀ invocation files, (world.tools invocation files).2 = files)
    (hlast : (plan.history (world.answer false) files).getLast?.bind (·.request.invocation?) =
      some invocation) :
    (∃ answer, plan.history (world.answer false) files =
      (plan.history (world.answer false) files).dropLast ++ [⟨.call invocation, answer⟩]) ∧
      FileSystem.Evolves world.place files (plan.history (world.answer false) files).dropLast
        (plan.run (world.answer false) files).2 := by
  have hruns : world.Runs false files _ false _ := world.runs_history h files
  generalize plan.history (world.answer false) files = history at hlast hruns ⊢
  obtain ⟨⟨request, answer⟩, hentry, hrequest⟩ := Option.bind_eq_some_iff.mp hlast
  have hhistory := List.dropLast_append_getLast? _ hentry
  cases request <;> cases hrequest
  refine ⟨⟨answer, hhistory.symm⟩, ?_⟩
  rw [← hhistory] at hruns
  obtain ⟨between, middle, hbefore, hcall⟩ := hruns.exists_of_append
  obtain ⟨later, after, -, hstep, hnil⟩ := hcall.exists_of_cons
  obtain rfl := hnil.eq_false
  rw [hnil.files_eq_of_nil]
  cases hstep with
  | call =>
    rw [htools]
    exact hbefore.evolves
  | idle _ _ hidle => cases hidle

end World

end SketchApk
