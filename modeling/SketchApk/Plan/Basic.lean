import SketchApk.Build.Event
import SketchApk.Fault.Basic
import SketchApk.File.Operation
import SketchApk.Tool.Basic

/-!
# Plans

A plan is a program that deals with its surroundings by requests, one at a time, and goes on in a
way that depends on the answers. What a plan does is fully described by the tree of its requests;
how requests are answered is up to whoever carries the plan out. A plan can be stopped between two
requests and continued later, and statements about a plan can speak of the surroundings at any point
of it.

Each request is a single step. In particular, taking the flag that a build is in progress and
clearing an old request to stop are two steps, and so are giving a file its content and restricting
its permissions.

## Main definitions

* `Request` : the requests, each with the type of its answer, `Request.Answer`.
* `Plan` : programs that make requests; they form a monad.
* `Plan.run` : carrying out a plan with a function that answers requests and keeps a state.
* `Plan.reacting` : the plan in which events are answered by plans of their own.
-/

namespace SketchApk

/-- What a plan asks of its surroundings. -/
inductive Request where
  /-- Carry out an operation on files. -/
  | file (operation : FileOperation)
  /-- Call a tool. -/
  | call (invocation : Invocation)
  /-- Print a text to the standard output. -/
  | print (text : String)
  /-- Print a text to the standard error. -/
  | complain (text : String)
  /-- Tell a listener, given by its number, about an event. -/
  | deliver (listener : Nat) (event : BuildEvent)
  /-- Read a clock that counts nanoseconds from some beginning. -/
  | clock
  /-- Read the calendar. -/
  | calendar
  /-- Ask for the number of the process. -/
  | processId
  /-- Set the flag that a build is in progress, unless it is set. -/
  | acquire
  /-- Clear the flag that a build is in progress. -/
  | release
  /-- Read the flag that a build is in progress. -/
  | isBuilding
  /-- Set the flag that asks the build to stop. -/
  | requestStop
  /-- Clear the flag that asks the build to stop. -/
  | clearStop
  /-- Read the flag that asks the build to stop. -/
  | isStopRequested
  /-- Set the state of the builder. -/
  | setState (state : BuildState)
  /-- Read the state of the builder. -/
  | state

/-- The type of the answer to a request. An operation on files and a call may fail, and `acquire`
tells whether it has set the flag. -/
@[reducible] def Request.Answer : Request → Type
  | file operation => Except FileError operation.Value
  | call _ => Except Fault ToolOutput
  | clock => Nat
  | calendar => Moment
  | processId => Nat
  | acquire => Bool
  | isBuilding => Bool
  | isStopRequested => Bool
  | state => BuildState
  | _ => Unit

/-- A program that makes requests and ends with a value. -/
inductive Plan (α : Type) where
  | done (value : α)
  | step (request : Request) (next : request.Answer → Plan α)

namespace Plan

variable {α β γ σ : Type}

/-- One plan after the other. -/
def bind : Plan α → (α → Plan β) → Plan β
  | done value, f => f value
  | step request next, f => step request fun answer => (next answer).bind f

instance : Monad Plan where
  pure := done
  bind := bind

instance : Inhabited (Plan Unit) := ⟨done ()⟩

@[simp] theorem pure_eq_done (value : α) : (pure value : Plan α) = done value := rfl

@[simp] theorem bind_eq (plan : Plan α) (f : α → Plan β) : plan >>= f = plan.bind f := rfl

@[simp] theorem done_bind (value : α) (f : α → Plan β) : (done value).bind f = f value := rfl

@[simp] theorem step_bind (request : Request) (next : request.Answer → Plan α)
    (f : α → Plan β) : (step request next).bind f = step request fun a => (next a).bind f := rfl

@[simp] theorem bind_done (plan : Plan α) : plan.bind done = plan := by
  induction plan with
  | done value => rfl
  | step request next ih => simp only [step_bind]; congr 1; funext answer; exact ih answer

theorem bind_assoc (plan : Plan α) (f : α → Plan β) (g : β → Plan γ) :
    (plan.bind f).bind g = plan.bind fun value => (f value).bind g := by
  induction plan with
  | done value => rfl
  | step request next ih => simp only [step_bind]; congr 1; funext answer; exact ih answer

instance : LawfulMonad Plan :=
  LawfulMonad.mk' Plan (fun plan => bind_done plan) (fun _ _ => rfl) fun p f g => bind_assoc p f g

/-- The plan that makes one request and ends with the answer. -/
def ask (request : Request) : Plan request.Answer :=
  step request done

/-- Carry out a plan with a function that answers requests and keeps a state. -/
def run (answer : (request : Request) → σ → request.Answer × σ) : Plan α → σ → α × σ
  | done value, s => (value, s)
  | step request next, s =>
    let reply := answer request s
    (next reply.1).run answer reply.2

/-- Carrying out two plans in a row is carrying out the first and then the second. -/
theorem run_bind (answer : (request : Request) → σ → request.Answer × σ) (plan : Plan α)
    (f : α → Plan β) (s : σ) :
    (plan.bind f).run answer s = (f (plan.run answer s).1).run answer (plan.run answer s).2 := by
  induction plan generalizing s with
  | done value => rfl
  | step request next ih => simp only [step_bind, run]; exact ih _ _

/-- The plan in which every event is answered by a plan of its own instead of being delivered. -/
def reacting (react : Nat → BuildEvent → Plan Unit) : Plan α → Plan α
  | done value => done value
  | step (.deliver listener event) next =>
    (react listener event).bind fun _ => (next ()).reacting react
  | step request next => step request fun answer => (next answer).reacting react

end Plan

end SketchApk
