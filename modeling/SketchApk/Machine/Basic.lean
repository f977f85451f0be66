import SketchApk.Machine.Script
import SketchApk.Plan.Basic
import SketchApk.Program.Run

/-!
# Machines that carry plans out

A machine has files and a working directory, the flags and the state of a builder, and tools, which
follow a script or are programs among its files. It keeps what plans have printed, which events were
delivered, and every call with the files at that time.

A plan can be suspended in a call that waits. It goes on when calls are released, and a request to
stop interrupts the call. Once calls have been released, none waits any more.

## Main definitions

* `Machine` : the surroundings of plans.
* `Machine.answer` : the answer to a request other than a call.
* `Machine.advance` : carrying a plan out up to its end or up to a call that waits.
* `Suspension.release`, `Suspension.interrupt` : the two ways to go on with a suspended plan.
-/

namespace SketchApk

/-- How the tools of a machine come about. -/
inductive Runner where
  /-- Tools follow a script. -/
  | scripted (script : ToolScript)
  /-- Tools are programs among the files. -/
  | programs

/-- The point of a build at which a listener requests a stop. -/
inductive StopPoint where
  | start
  | progress (percent : Nat)
  deriving DecidableEq, Repr

/-- An event reaches a point. -/
def StopPoint.isReachedBy : StopPoint → BuildEvent → Bool
  | start, .started => true
  | progress percent, .progress _ reached => percent = reached
  | _, _ => false

/-- A call of a tool with the files at that time. -/
structure CallRecord where
  invocation : Invocation
  files : FileSystem

/-- The surroundings of plans. -/
structure Machine where
  files : FileSystem
  /-- The working directory. -/
  place : Location
  /-- The environment of programs. -/
  environment : List (String × String) := []
  runner : Runner := .scripted []
  isBuilding : Bool := false
  isStopRequested : Bool := false
  /-- Calls have been released, and later ones do not wait. -/
  areCallsReleased : Bool := false
  state : BuildState := .idle
  /-- What has been printed to the standard output. -/
  output : String := ""
  /-- What has been printed to the standard error. -/
  errors : String := ""
  /-- The events that listeners were told, with the numbers of the listeners. -/
  deliveries : List (Nat × BuildEvent) := []
  calls : List CallRecord := []
  /-- Where a listener requests a stop in every build. -/
  stopPoint : Option StopPoint := none
  /-- The time in milliseconds after which a stop is requested. -/
  stopAfter : Option Nat := none
  /-- The time since the beginning, in milliseconds. -/
  elapsed : Nat := 0
  processId : Nat := 1
  /-- The moment that the calendar shows. -/
  moment : Moment := ⟨2000, 1, 1, 0, 0, 0, 0⟩

namespace Machine

variable (machine : Machine)

/-- The machine after a listener has been told an event. -/
def deliver (listener : Nat) (event : BuildEvent) : Machine :=
  { machine with
    deliveries := machine.deliveries ++ [(listener, event)]
    isStopRequested :=
      machine.isStopRequested || machine.stopPoint.any (·.isReachedBy event) }

/-- The machine with a call on record. -/
def noteCall (invocation : Invocation) : Machine :=
  { machine with calls := machine.calls ++ [⟨invocation, machine.files⟩] }

/-- The fault of a tool that was interrupted. -/
def interruption (invocation : Invocation) : Fault :=
  { cause := .tool (.interrupted invocation.toolName) }

/-- The answer to a call that behaves in some way and does not wait, and the machine afterwards. -/
def finishCall (invocation : Invocation) (behaviour : ToolBehaviour) :
    Except Fault ToolOutput × Machine :=
  let after :=
    { machine with
      isStopRequested := machine.isStopRequested || behaviour.requestsStop
      files := machine.files.changes machine.place behaviour.changes }
  match behaviour.ending with
  | .output output => (.ok output, after)
  | .interrupt => (.error (interruption invocation), after)
  | .refuse reason => (.error { cause := .tool (.refused reason) }, after)

/-- The time that is left until a stop is requested. -/
def timeLeft : Option Nat :=
  if machine.isStopRequested then some 0
  else machine.stopAfter.map (· - machine.elapsed)

/-- The answer to the call of a program, and the machine afterwards. -/
def callProgram (invocation : Invocation) : Except Fault ToolOutput × Machine :=
  match Program.run machine.files machine.place machine.environment machine.processId
      machine.timeLeft invocation with
  | .ok (.finished output, files, elapsed) =>
    (.ok output, { machine with files, elapsed := machine.elapsed + elapsed })
  | .ok (.stopped, files, _) =>
    (.error (interruption invocation), { machine with files, isStopRequested := true })
  | .error error =>
    (.error { activities := [.spawning invocation.program], cause := .file error }, machine)

/-- The answer to a request, and the machine afterwards. A call does not wait. -/
def answer (machine : Machine) : (request : Request) → request.Answer × Machine
  | .file operation =>
    let result := operation.run machine.place machine.files
    (result.1, { machine with files := result.2 })
  | .call invocation =>
    let noted := machine.noteCall invocation
    match machine.runner with
    | .scripted script =>
      let (behaviour, rest) := script.take invocation
      { noted with runner := .scripted rest }.finishCall invocation behaviour
    | .programs => noted.callProgram invocation
  | .print text => ((), { machine with output := machine.output ++ text })
  | .complain text => ((), { machine with errors := machine.errors ++ text })
  | .deliver listener event => ((), machine.deliver listener event)
  | .clock => (machine.elapsed * 1000000, machine)
  | .calendar => (machine.moment, machine)
  | .processId => (machine.processId, machine)
  | .acquire => (!machine.isBuilding, { machine with isBuilding := true })
  | .release => ((), { machine with isBuilding := false })
  | .isBuilding => (machine.isBuilding, machine)
  | .requestStop => ((), { machine with isStopRequested := true })
  | .clearStop => ((), { machine with isStopRequested := false })
  | .isStopRequested => (machine.isStopRequested, machine)
  | .setState state => ((), { machine with state })
  | .state => (machine.state, machine)

/-- What has been printed to the standard output, which is forgotten. -/
def takeOutput : String × Machine :=
  (machine.output, { machine with output := "" })

/-- The calls that were made, which are forgotten. -/
def takeCalls : List CallRecord × Machine :=
  (machine.calls, { machine with calls := [] })

/-- The events that a listener was told, which are forgotten. -/
def takeEvents (listener : Nat) : List BuildEvent × Machine :=
  let (own, others) := machine.deliveries.partition (·.1 = listener)
  (own.map (·.2), { machine with deliveries := others })

/-- Carry a plan out, where no call waits. -/
def perform {α : Type} (plan : Plan α) : α × Machine :=
  plan.run (fun request state => answer state request) machine

/-- The behaviour of a scripted call that waits, with the script for later calls. -/
def waiting? (invocation : Invocation) : Option (ToolBehaviour × ToolScript) :=
  match machine.runner with
  | .scripted script =>
    let (behaviour, rest) := script.take invocation
    if behaviour.waits && !machine.areCallsReleased then some (behaviour, rest) else none
  | .programs => none

end Machine

/-- A plan that is suspended in a call. -/
structure Suspension (α : Type) where
  invocation : Invocation
  behaviour : ToolBehaviour
  next : Except Fault ToolOutput → Plan α

/-- How far a plan has been carried out. -/
inductive Progress (α : Type) where
  | finished (value : α)
  | suspended (suspension : Suspension α)

namespace Machine

variable {α : Type}

/-- Carry a plan out up to its end or up to a call that waits. -/
def advance : Plan α → Machine → Progress α × Machine
  | .done value, machine => (.finished value, machine)
  | .step (.call invocation) next, machine =>
    match machine.waiting? invocation with
    | some (behaviour, script) =>
      let noted := { machine.noteCall invocation with runner := .scripted script }
      if machine.isStopRequested then
        advance (next (.error (interruption invocation))) noted
      else (.suspended ⟨invocation, behaviour, next⟩, noted)
    | none =>
      let result := machine.answer (.call invocation)
      advance (next result.1) result.2
  | .step request next, machine =>
    let result := machine.answer request
    advance (next result.1) result.2

end Machine

namespace Suspension

variable {α : Type} (suspension : Suspension α) (machine : Machine)

/-- Go on after calls have been released. -/
def release : Progress α × Machine :=
  let released := { machine with areCallsReleased := true }
  let (result, after) := released.finishCall suspension.invocation suspension.behaviour
  Machine.advance (suspension.next result) after

/-- Go on after a request to stop, which interrupts the call. -/
def interrupt : Progress α × Machine :=
  let stopped := { machine with isStopRequested := true }
  Machine.advance (suspension.next (.error (Machine.interruption suspension.invocation))) stopped

end Suspension

end SketchApk
