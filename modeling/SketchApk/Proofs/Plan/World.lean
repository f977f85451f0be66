import SketchApk.Proofs.Plan.Attempt

/-!
# Worlds whose tools are functions

In a world of this kind the files change by plans and by their tools alone, and what a tool does is
a function of its call and of the files. A stop may be requested at any point of a history, and is
not taken back. From then on a tool may be interrupted.

Two histories of a plan in such a world, of which one has no request to stop, are the same up to a
call that is interrupted.

## Main definitions

* `World` : a working directory and tools.
* `World.Step` : the exchanges that are possible with some files.
* `World.Runs` : the histories that are possible, beginning and ending with some files.
* `World.answer`, `World.answerUntil` : answering requests as the world does, while no tool is
  interrupted.

## Main statements

* `World.Runs.eq_or_interrupted` : two histories of a plan are the same up to an interrupted call.
* `World.runs_history`, `World.runs_historyUntil` : answering as the world does yields a history of
  the world.
-/

namespace SketchApk

open Plan Request

/-- A working directory, and tools that are functions of their calls and of the files. -/
structure World where
  place : Location
  tools : Invocation → FileSystem → Except Fault ToolOutput × FileSystem

namespace Request

/-- The request does not change whether a stop is requested. -/
def KeepsStop : Request → Prop
  | requestStop | clearStop => False
  | _ => True

theorem IsIdle.keepsStop {request : Request} (h : request.IsIdle) : request.KeepsStop := by
  cases request <;> trivial

theorem IsWork.keepsStop {request : Request} (h : request.IsWork) : request.KeepsStop := by
  cases request <;> trivial

theorem IsQuiet.keepsStop {request : Request} (h : request.IsQuiet) : request.KeepsStop := by
  cases request <;> trivial

end Request

namespace World

variable (world : World)

/-- The exchanges that are possible while a stop is requested or not, with the files before and
after. A tool that is interrupted may leave any files. -/
inductive Step : Bool → Exchange → FileSystem → FileSystem → Prop
  | file {stop} (operation : FileOperation) (files : FileSystem) :
      Step stop ⟨.file operation, (operation.run world.place files).1⟩ files
        (operation.run world.place files).2
  | call {stop} (invocation : Invocation) (files : FileSystem) :
      Step stop ⟨.call invocation, (world.tools invocation files).1⟩ files
        (world.tools invocation files).2
  | interrupted (invocation : Invocation) (fault : Fault) (files files' : FileSystem)
      (hfault : fault.isInterruption = true) :
      Step true ⟨.call invocation, (.error fault : Except Fault ToolOutput)⟩ files files'
  | check {stop} (files : FileSystem) : Step stop (.check stop) files files
  | idle {stop} (entry : Exchange) (files : FileSystem) (hidle : entry.request.IsIdle) :
      Step stop entry files files

/-- The histories that are possible. At the beginning and at the end a stop is requested or not, and
there are some files. A stop is requested between two exchanges, and at most once. -/
inductive Runs : Bool → FileSystem → History → Bool → FileSystem → Prop
  | nil {stop files} : Runs stop files [] stop files
  | raise {files history stop files'} (h : Runs true files history stop files') :
      Runs false files history stop files'
  | cons {stop files entry middle rest stop' files'} (hentry : world.Step stop entry files middle)
      (hrest : Runs stop middle rest stop' files') : Runs stop files (entry :: rest) stop' files'

variable {world} {stop stop' : Bool} {files files' : FileSystem}

theorem Step.of_check {asked : Bool} (h : world.Step stop (.check asked) files files') :
    asked = stop ∧ files' = files := by
  generalize hcheck : Exchange.check asked = entry at h
  cases h with
  | check =>
    exact ⟨by simpa [Exchange.check] using hcheck, rfl⟩
  | idle _ _ hidle =>
    subst hcheck
    cases hidle
  | file | call | interrupted => simp [Exchange.check] at hcheck

namespace Runs

variable {history : History}

/-- A request to stop is not taken back. -/
theorem stop_eq_true (h : world.Runs stop files history stop' files') (hstop : stop = true) :
    stop' = true := by
  induction h with
  | nil => exact hstop
  | raise h ih => exact ih rfl
  | cons hentry hrest ih => exact ih hstop

theorem eq_false (h : world.Runs stop files history false files') : stop = false :=
  Bool.eq_false_iff.mpr fun hstop => Bool.false_ne_true (h.stop_eq_true hstop)

theorem append {middle : FileSystem} {between : Bool} {other : History}
    (h : world.Runs stop files history between middle)
    (hother : world.Runs between middle other stop' files') :
    world.Runs stop files (history ++ other) stop' files' := by
  induction h with
  | nil => exact hother
  | raise h ih => exact .raise (ih hother)
  | cons hentry hrest ih => exact .cons hentry (ih hother)

/-- The first exchange of a history, before which a stop may have been requested. -/
theorem exists_of_cons {entry : Exchange} {rest : History}
    (h : world.Runs stop files (entry :: rest) stop' files') :
    ∃ between middle, (stop = true → between = true) ∧ world.Step between entry files middle ∧
      world.Runs between middle rest stop' files' := by
  cases h with
  | raise h =>
    cases h with
    | cons hentry hrest => exact ⟨true, _, fun _ => rfl, hentry, hrest⟩
  | cons hentry hrest => exact ⟨stop, _, id, hentry, hrest⟩

theorem files_eq_of_nil (h : world.Runs stop files [] stop' files') : files' = files := by
  generalize hhistory : ([] : History) = history at h
  induction h with
  | nil => rfl
  | raise h ih => exact ih hhistory
  | cons => cases hhistory

/-- A history splits where its exchanges do. -/
theorem exists_of_append {first second : History}
    (h : world.Runs stop files (first ++ second) stop' files') :
    ∃ between middle, world.Runs stop files first between middle ∧
      world.Runs between middle second stop' files' := by
  induction first generalizing stop files with
  | nil => exact ⟨stop, files, .nil, h⟩
  | cons entry first ih =>
    obtain ⟨between, middle, hbetween, hentry, hrest⟩ := h.exists_of_cons
    obtain ⟨later, last, hfirst, hsecond⟩ := ih hrest
    refine ⟨later, last, ?_, hsecond⟩
    cases stop with
    | true =>
      obtain rfl := hbetween rfl
      exact .cons hentry hfirst
    | false =>
      cases between with
      | true => exact .raise (.cons hentry hfirst)
      | false => exact .cons hentry hfirst

/-- Idle exchanges leave the files as they are. -/
theorem files_eq (h : world.Runs stop files history stop' files')
    (hidle : ∀ entry ∈ history, entry.request.IsIdle) : files' = files := by
  induction h with
  | nil => rfl
  | raise h ih => exact ih hidle
  | cons hentry hrest ih =>
    obtain ⟨hfirst, hidle⟩ := List.forall_mem_cons.mp hidle
    rw [ih hidle]
    cases hentry with
    | file | call | interrupted => cases hfirst
    | check | idle => rfl

/-- A check is answered by whether a stop is requested, and leaves the files as they are. -/
theorem of_check {asked : Bool} {rest : History}
    (h : world.Runs stop files (.check asked :: rest) stop' files') :
    (stop = true → asked = true) ∧ world.Runs asked files rest stop' files' := by
  obtain ⟨between, middle, hbetween, hentry, hrest⟩ := h.exists_of_cons
  obtain ⟨rfl, rfl⟩ := hentry.of_check
  exact ⟨hbetween, hrest⟩

/-- A check that no request to stop follows is answered by no. -/
theorem check_eq_false {asked : Bool} {rest : History}
    (h : world.Runs stop files (.check asked :: rest) false files') : asked = false :=
  h.of_check.2.eq_false

end Runs

/-- Two exchanges of a request are the same, unless a tool is interrupted. -/
theorem Step.eq_or_interrupted {request : Request} {answer answer' : request.Answer}
    {middle middle' : FileSystem} (hwork : request.IsWork)
    (h : world.Step false ⟨request, answer⟩ files middle)
    (h' : world.Step stop ⟨request, answer'⟩ files middle') :
    answer' = answer ∧ middle' = middle ∨
      stop = true ∧ ∃ invocation fault, (⟨request, answer'⟩ : Exchange) =
        ⟨.call invocation, (.error fault : Except Fault ToolOutput)⟩ := by
  cases request with
  | file operation =>
    cases h with
    | idle _ _ hidle => cases hidle
    | file =>
      cases h' with
      | idle _ _ hidle => cases hidle
      | file => exact .inl ⟨rfl, rfl⟩
  | call invocation =>
    cases h' with
    | idle _ _ hidle => cases hidle
    | interrupted _ fault => exact .inr ⟨rfl, invocation, fault, rfl⟩
    | call =>
      cases h with
      | idle _ _ hidle => cases hidle
      | call => exact .inl ⟨rfl, rfl⟩
  | print text =>
    cases h
    cases h'
    exact .inl ⟨rfl, rfl⟩
  | _ => cases hwork

/-- Two histories of a plan that works on files and calls tools, of which one has no request to
stop, are the same up to a call that is interrupted. -/
theorem Runs.eq_or_interrupted {α : Type} {plan : Plan α} {history other : History}
    {result value : α} {last last' : FileSystem} (hwork : plan.Only IsWork)
    (hends : plan.Ends history result) (h : world.Runs false files history false last)
    (hends' : plan.Ends other value) (h' : world.Runs stop files other stop' last') :
    other = history ∧ value = result ∧ last' = last ∨
      stop' = true ∧ ∃ common invocation answer fault rest rest',
        history = common ++ ⟨.call invocation, answer⟩ :: rest ∧
        other =
          common ++ ⟨.call invocation, (.error fault : Except Fault ToolOutput)⟩ :: rest' := by
  induction hwork generalizing stop files history other with
  | done value =>
    obtain ⟨rfl, rfl⟩ := hends
    obtain ⟨rfl, rfl⟩ := hends'
    exact .inl ⟨rfl, rfl, by rw [h.files_eq_of_nil, h'.files_eq_of_nil]⟩
  | @step request next hrequest hnext ih =>
    obtain ⟨answer, rest, rfl, hrest⟩ := hends
    obtain ⟨answer', rest', rfl, hrest'⟩ := hends'
    obtain ⟨between, middle, -, hentry, hruns⟩ := h.exists_of_cons
    obtain ⟨between', middle', -, hentry', hruns'⟩ := h'.exists_of_cons
    obtain rfl := hruns.eq_false
    rcases hentry.eq_or_interrupted hrequest hentry' with
      ⟨rfl, rfl⟩ | ⟨rfl, invocation, fault, hcall⟩
    · rcases ih answer' hrest hruns hrest' hruns' with
        ⟨rfl, hvalue, hlast⟩ | ⟨hstop, common, hcommon⟩
      · exact .inl ⟨rfl, hvalue, hlast⟩
      · obtain ⟨invocation, answer, fault, tail, tail', rfl, rfl⟩ := hcommon
        exact .inr ⟨hstop, ⟨request, answer'⟩ :: common, invocation, answer, fault, tail, tail',
          rfl, rfl⟩
    · have hstop := hruns'.stop_eq_true rfl
      obtain rfl : request = .call invocation := congrArg Exchange.request hcall
      rw [hcall]
      exact .inr ⟨hstop, [], invocation, answer, fault, rest, rest', rfl, rfl⟩

/-- A plan that calls no tool has one history only. -/
theorem Runs.eq_of_isLocal {α : Type} {plan : Plan α} {history other : History} {result value : α}
    {last last' : FileSystem} (hlocal : plan.Only IsLocal) (hends : plan.Ends history result)
    (h : world.Runs false files history false last) (hends' : plan.Ends other value)
    (h' : world.Runs stop files other stop' last') :
    other = history ∧ value = result ∧ last' = last := by
  rcases h.eq_or_interrupted (hlocal.mono fun _ => IsLocal.isWork) hends hends' h' with heq |
    ⟨-, common, invocation, answer, fault, rest, rest', -, rfl⟩
  · exact heq
  · exact absurd (hlocal.request_of_mem hends' (List.mem_append_right common List.mem_cons_self)) id

variable (world) in
/-- Answer a request as the world does, while no tool is interrupted. The answer of a clock, of the
calendar and the like is an arbitrary one. -/
def answer (stop : Bool) : (request : Request) → FileSystem → request.Answer × FileSystem
  | .file operation, files => operation.run world.place files
  | .call invocation, files => world.tools invocation files
  | .isStopRequested, files => (stop, files)
  | .clock, files | .processId, files => (1, files)
  | .calendar, files => (⟨2000, 1, 1, 0, 0, 0, 0⟩, files)
  | .acquire, files | .isBuilding, files => (true, files)
  | .state, files => (.running, files)
  | .print _, files | .complain _, files | .deliver _ _, files | .release, files
  | .requestStop, files | .clearStop, files | .setState _, files => ((), files)

theorem step_answer {request : Request} (h : request.KeepsStop) (files : FileSystem) :
    world.Step stop ⟨request, (world.answer stop request files).1⟩ files
      (world.answer stop request files).2 := by
  cases request with
  | file operation => exact .file operation files
  | call invocation => exact .call invocation files
  | isStopRequested => exact .check files
  | requestStop | clearStop => cases h
  | _ => exact .idle _ files trivial

/-- Answering as the world does yields a history of the world. -/
theorem runs_history {α : Type} {plan : Plan α} (h : plan.Only KeepsStop) (files : FileSystem) :
    world.Runs stop files (plan.history (world.answer stop) files) stop
      (plan.run (world.answer stop) files).2 := by
  induction h generalizing files with
  | done value => exact .nil
  | step hrequest hnext ih => exact .cons (step_answer hrequest files) (ih _ _)

end World

end SketchApk
