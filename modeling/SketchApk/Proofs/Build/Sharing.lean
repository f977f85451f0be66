import Mathlib.Logic.Function.Basic
import SketchApk.Build.Run
import SketchApk.Machine.Basic
import SketchApk.Proofs.Plan.History

/-!
# Builders that are shared

Any number of threads call one builder: they build, start builds on threads of their own, claim the
builder, run builds with claims, drop claims and request stops. Each request of each thread is a
single step, and the steps of different threads are taken in any order.

What the threads have in common is the status of the builder: its two flags, its state and the
events that its listeners have been told. A listener or a tool may request a stop, and it may call
the builder like any other thread.

A thread has a claim from the moment at which it sets the flag that a build is in progress up to the
moment at which it clears the flag or hands the claim over. A build has finished when its claim has
ended.

## Main definitions

* `Builder.Status`, `Builder.Status.Answers` : what threads have in common, and how it answers them.
* `Builder.Action`, `Builder.Use` : the calls of a builder, and what can be done with a claim.
* `Builder.Sharing` : threads that share a builder.
* `Builder.Sharing.Step`, `Builder.Sharing.Reachable` : the steps of a thread, and what they lead
  to.

## Main statements

* `Machine.answers_status` : a machine answers requests in one of these ways.
-/

namespace SketchApk

namespace Builder

/-- What all threads that call a builder see of it. -/
structure Status where
  isBuilding : Bool := false
  isStopRequested : Bool := false
  state : BuildState := .idle
  /-- The events that listeners were told, with the numbers of the listeners. -/
  told : List (Nat × BuildEvent) := []
  deriving DecidableEq

end Builder

namespace Request

/-- The request has nothing to do with the status of a builder. -/
def IsForeign : Request → Prop
  | file _ | print _ | complain _ | clock | calendar | processId => True
  | _ => False

/-- The request changes neither the flag that a build is in progress nor the state of the builder.
-/
def KeepsClaim : Request → Prop
  | acquire | release | setState _ => False
  | _ => True

end Request

namespace Builder

/-- The ways in which a request is answered, with the status afterwards. A stop may be requested
while a listener is told an event and while a tool works. -/
inductive Status.Answers (status : Status) : Exchange → Status → Prop
  | foreign {request : Request} (answer : request.Answer) (h : request.IsForeign) :
      status.Answers ⟨request, answer⟩ status
  | call (invocation : Invocation) (answer : Except Fault ToolOutput) (asks : Bool) :
      status.Answers ⟨.call invocation, answer⟩
        { status with isStopRequested := status.isStopRequested || asks }
  | deliver (listener : Nat) (event : BuildEvent) (asks : Bool) :
      status.Answers ⟨.deliver listener event, ()⟩
        { status with
          isStopRequested := status.isStopRequested || asks
          told := status.told ++ [(listener, event)] }
  | acquire : status.Answers ⟨.acquire, !status.isBuilding⟩ { status with isBuilding := true }
  | release : status.Answers ⟨.release, ()⟩ { status with isBuilding := false }
  | isBuilding : status.Answers ⟨.isBuilding, status.isBuilding⟩ status
  | requestStop : status.Answers ⟨.requestStop, ()⟩ { status with isStopRequested := true }
  | clearStop : status.Answers ⟨.clearStop, ()⟩ { status with isStopRequested := false }
  | isStopRequested : status.Answers ⟨.isStopRequested, status.isStopRequested⟩ status
  | setState (state : BuildState) : status.Answers ⟨.setState state, ()⟩ { status with state }
  | state : status.Answers ⟨.state, status.state⟩ status

namespace Status.Answers

variable {status after : Status}

/-- A request that keeps a claim leaves the flag and the state as they are. -/
theorem of_keepsClaim {entry : Exchange} (h : status.Answers entry after)
    (hkeeps : entry.request.KeepsClaim) :
    after.isBuilding = status.isBuilding ∧ after.state = status.state := by
  cases h with
  | acquire | release | setState => cases hkeeps
  | _ => exact ⟨rfl, rfl⟩

/-- Whoever wants to set the flag is told whether it was clear. -/
theorem of_acquire {answer : Bool} (h : status.Answers ⟨.acquire, answer⟩ after) :
    answer = !status.isBuilding ∧ after = { status with isBuilding := true } := by
  cases h with
  | foreign _ hforeign => cases hforeign
  | acquire => exact ⟨rfl, rfl⟩

theorem of_release {answer : Unit} (h : status.Answers ⟨.release, answer⟩ after) :
    after = { status with isBuilding := false } := by
  cases h with
  | foreign _ hforeign => cases hforeign
  | release => rfl

theorem of_setState {state : BuildState} {answer : Unit}
    (h : status.Answers ⟨.setState state, answer⟩ after) : after = { status with state } := by
  cases h with
  | foreign _ hforeign => cases hforeign
  | setState => rfl

end Status.Answers

end Builder

namespace Machine

/-- The status of the builder of a machine. -/
def status (machine : Machine) : Builder.Status where
  isBuilding := machine.isBuilding
  isStopRequested := machine.isStopRequested
  state := machine.state
  told := machine.deliveries

theorem answers_finishCall (machine : Machine) (invocation : Invocation)
    (behaviour : ToolBehaviour) :
    machine.status.Answers ⟨.call invocation, (machine.finishCall invocation behaviour).1⟩
      (machine.finishCall invocation behaviour).2.status := by
  unfold finishCall
  split <;> exact .call invocation _ behaviour.requestsStop

theorem answers_callProgram (machine : Machine) (invocation : Invocation) :
    machine.status.Answers ⟨.call invocation, (machine.callProgram invocation).1⟩
      (machine.callProgram invocation).2.status := by
  have hkept (answer : Except Fault ToolOutput) :
      machine.status.Answers ⟨.call invocation, answer⟩ machine.status := by
    have h : machine.status.Answers _ _ := .call invocation answer false
    simpa using h
  have hstopped (answer : Except Fault ToolOutput) :
      machine.status.Answers ⟨.call invocation, answer⟩
        { machine.status with isStopRequested := true } := by
    have h : machine.status.Answers _ _ := .call invocation answer true
    simpa using h
  unfold callProgram
  split
  · exact hkept _
  · exact hstopped _
  · exact hkept _

/-- A machine answers a request in one of the ways in which the status of its builder permits. -/
theorem answers_status (machine : Machine) (request : Request) :
    machine.status.Answers ⟨request, (machine.answer request).1⟩
      (machine.answer request).2.status := by
  cases request with
  | call invocation =>
    cases hrunner : machine.runner with
    | scripted script =>
      simp only [answer, hrunner]
      exact answers_finishCall { machine.noteCall invocation with runner := _ } invocation _
    | programs =>
      simp only [answer, hrunner]
      exact answers_callProgram (machine.noteCall invocation) invocation
  | deliver listener event => exact .deliver listener event _
  | acquire => exact .acquire
  | release => exact .release
  | isBuilding => exact .isBuilding
  | requestStop => exact .requestStop
  | clearStop => exact .clearStop
  | isStopRequested => exact .isStopRequested
  | setState state => exact .setState state
  | state => exact .state
  | file | print | complain | clock | calendar | processId => exact .foreign _ trivial

end Machine

namespace Builder

/-- How a call of a builder ends. -/
inductive Ending where
  /-- The caller has been given a claim. -/
  | claimed
  /-- The caller has been given a claim, and is about to start a thread that runs a build with it. -/
  | starting (config : BuildConfig)
  /-- The call is rejected. -/
  | rejected (error : BuildError)
  /-- A build has been run. -/
  | ran (run : BuildRun)
  /-- There is nothing to tell. -/
  | silent

/-- The calls of a builder. -/
inductive Action where
  | build (config : BuildConfig)
  /-- Start a build on a thread of its own. The builder is claimed before that thread begins. -/
  | start (config : BuildConfig)
  | claim
  | stop

/-- What can be done with a claim. -/
inductive Use where
  | run (config : BuildConfig)
  | drop

/-- Claim the builder for some purpose. -/
def claimFor (ending : Ending) : Plan Ending := do
  match ← claim with
  | .ok () => return ending
  | .error error => return .rejected error

variable (builder : Builder)

/-- What a thread does to carry out a call. -/
def Action.plan : Action → Plan Ending
  | build config => do
    match ← builder.build config with
    | .ok run => return .ran run
    | .error error => return .rejected error
  | start config => claimFor (.starting config)
  | claim => claimFor .claimed
  | stop => do
    Builder.stop
    return .silent

/-- What a thread does to use a claim. -/
def Use.plan : Use → Plan Ending
  | run config => do return .ran (← builder.runClaimed config)
  | drop => do
    dropClaim
    return .silent

/-- What a thread does when the thread that it was about to start cannot be started. The claim is
dropped with the build that it was for. -/
def giveUp (reason : String) : Plan Ending := do
  dropClaim
  return .rejected (.environment ("spawning build worker: " ++ reason))

/-- A thread that calls a builder: what is left of its call, and the number of its claims. -/
structure Caller where
  plan : Plan Ending := .done .silent
  claims : Nat := 0

/-- The thread has ended its call, and is free to do something else. -/
def Caller.IsFree (caller : Caller) : Prop :=
  ∃ ending, caller.plan = .done ending ∧ ∀ config, ending ≠ .starting config

/-- The number of claims of a thread after an exchange. Setting the flag gives a claim, and clearing
it takes one. -/
def claimsAfter (claims : Nat) : Exchange → Nat
  | ⟨.acquire, true⟩ => claims + 1
  | ⟨.release, _⟩ => claims - 1
  | _ => claims

theorem claimsAfter_of_keepsClaim {entry : Exchange} (h : entry.request.KeepsClaim)
    (claims : Nat) : claimsAfter claims entry = claims := by
  rcases entry with ⟨_ | _, _⟩ <;> first | rfl | cases h

/-- The build that has finished with the end of a call. -/
def finishedWith : Plan Ending → List BuildRun
  | .done (.ran run) => [run]
  | _ => []

/-- Threads that share a builder. -/
structure Sharing where
  status : Status := {}
  callers : Nat → Caller := fun _ => {}
  /-- The builds that have finished, in order. -/
  finished : List BuildRun := []

namespace Sharing

/-- The threads after one of them has got on. -/
def setCaller (sharing : Sharing) (index : Nat) (caller : Caller) : Sharing :=
  { sharing with callers := Function.update sharing.callers index caller }

@[simp] theorem status_setCaller (sharing : Sharing) (index : Nat) (caller : Caller) :
    (sharing.setCaller index caller).status = sharing.status :=
  rfl

@[simp] theorem finished_setCaller (sharing : Sharing) (index : Nat) (caller : Caller) :
    (sharing.setCaller index caller).finished = sharing.finished :=
  rfl

@[simp] theorem callers_setCaller_self (sharing : Sharing) (index : Nat) (caller : Caller) :
    (sharing.setCaller index caller).callers index = caller := by
  simp [setCaller]

theorem callers_setCaller_of_ne {index other : Nat} (h : other ≠ index) (sharing : Sharing)
    (caller : Caller) : (sharing.setCaller index caller).callers other = sharing.callers other := by
  simp [setCaller, h]

/-- The steps of a thread, which is given by its number. -/
inductive Step (index : Nat) (sharing : Sharing) : Sharing → Prop
  /-- A free thread makes a call. -/
  | enter (action : Action) (hfree : (sharing.callers index).IsFree) :
      Step index sharing
        (sharing.setCaller index { sharing.callers index with plan := action.plan builder })
  /-- A free thread uses a claim. -/
  | use (use : Use) (hfree : (sharing.callers index).IsFree)
      (hclaim : 0 < (sharing.callers index).claims) :
      Step index sharing
        (sharing.setCaller index { sharing.callers index with plan := use.plan builder })
  /-- A free thread hands a claim over to another one. -/
  | handOver (other : Nat) (hne : other ≠ index) (hfree : (sharing.callers index).IsFree)
      (hclaim : 0 < (sharing.callers index).claims) :
      Step index sharing
        ((sharing.setCaller index
            { sharing.callers index with claims := (sharing.callers index).claims - 1 }).setCaller
          other { sharing.callers other with claims := (sharing.callers other).claims + 1 })
  /-- A thread starts another one, which runs a build with its claim. -/
  | spawn (config : BuildConfig) (other : Nat) (hne : other ≠ index)
      (hstarting : (sharing.callers index).plan = .done (.starting config))
      (hfree : (sharing.callers other).IsFree) :
      Step index sharing
        ((sharing.setCaller index
            ⟨.done .silent, (sharing.callers index).claims - 1⟩).setCaller
          other ⟨(Use.run config).plan builder, (sharing.callers other).claims + 1⟩)
  /-- A thread cannot start another one. -/
  | failToSpawn (config : BuildConfig) (reason : String)
      (hstarting : (sharing.callers index).plan = .done (.starting config)) :
      Step index sharing
        (sharing.setCaller index { sharing.callers index with plan := giveUp reason })
  /-- A thread makes a request. -/
  | request {request : Request} {next : request.Answer → Plan Ending} {answer : request.Answer}
      {status : Status} (hplan : (sharing.callers index).plan = .step request next)
      (hanswer : sharing.status.Answers ⟨request, answer⟩ status) :
      Step index sharing
        ({ sharing with
            status
            finished := sharing.finished ++ finishedWith (next answer) }.setCaller index
          ⟨next answer, claimsAfter (sharing.callers index).claims ⟨request, answer⟩⟩)

/-- What the steps of threads lead to, beginning with a new builder that no thread has called. -/
inductive Reachable : Sharing → Prop
  | initial : Reachable {}
  | step {sharing next : Sharing} (index : Nat) (h : Reachable sharing)
      (hstep : Step builder index sharing next) : Reachable next

end Sharing

end Builder

end SketchApk
