/-!
# Events and states of builds

A build reports its progress to listeners by events: one when it starts, one before each stage that
is executed, and one when it ends, in front of which an error is reported if there is one. A builder
is idle until its first build, running during a build, and afterwards in the state that tells how
its last build ended.
-/

namespace SketchApk

/-- What a listener is told. -/
inductive BuildEvent where
  | started
  | progress (label : String) (percent : Nat)
  | completed (success : Bool) (message : String)
  | error (message : String)
  deriving DecidableEq, Repr

/-- The state of a builder. -/
inductive BuildState where
  | idle
  | running
  | completed
  | failed
  | stopped
  deriving DecidableEq, Repr

/-- The name of a state. -/
def BuildState.name : BuildState → String
  | idle => "idle"
  | running => "running"
  | completed => "completed"
  | failed => "failed"
  | stopped => "stopped"

/-- A moment of civil time in the time zone of reference. -/
structure Moment where
  year : Nat
  month : Nat
  day : Nat
  hour : Nat
  minute : Nat
  second : Nat
  nanosecond : Nat
  deriving DecidableEq, Repr

end SketchApk
