import SketchApk.Build.Report
import SketchApk.Preflight
import SketchApk.Stage.Execute

/-!
# Running builds

A builder runs one build at a time. To run a build one has to claim the builder; the claim ends when
the build has ended. A build checks its environment, then executes the enabled stages one after the
other. Before each stage, and after the last one, it looks whether it has been asked to stop. The
first stage that fails ends the build. A failure counts as an interruption when a stop has been
requested or when the tool was interrupted.

A build whose environment is in order writes a report. Whether that succeeds has no influence on the
outcome. At the end the statistics are printed, the state of the builder is set, and the listeners
are told the outcome.

## Main definitions

* `Builder` : a toolchain and the listeners of builds.
* `Builder.claim` : the beginning of a build.
* `Builder.turn`, `Builder.runStages` : one stage and all stages of a build.
* `Builder.runClaimed` : a build that is claimed, with its beginning and its end.
* `Builder.build` : claiming and running.
-/

namespace SketchApk

/-- A toolchain and the listeners of builds, in the order in which they are told events. -/
structure Builder where
  toolchain : Toolchain
  listeners : List Nat

namespace Builder

variable (builder : Builder)

/-- A stop of the build has been requested. -/
def isStopRequested : Plan Bool :=
  Plan.ask .isStopRequested

/-- Set the flag that a build is in progress, unless it is set, and tell whether that was done. -/
def acquire : Plan Bool :=
  Plan.ask .acquire

/-- Claim the builder, and forget a request to stop that was made before. -/
def claim : Plan (Except BuildError Unit) := do
  if ← acquire then
    Plan.ask .clearStop
    return .ok ()
  else return .error .alreadyBuilding

/-- Tell all listeners about an event. -/
def announce (event : BuildEvent) : Plan Unit :=
  builder.listeners.forM fun listener => Plan.ask (.deliver listener event)

/-- The record of a stage. -/
def record (stage : Stage) (elapsed : Nat) (outcome : StageOutcome) : StageRecord :=
  ⟨stage.name, stage.label, elapsed, outcome⟩

/-- The outcome of a build whose stages have all been executed or skipped. -/
def outcomeOf : Option Path → BuildOutcome
  | some package => .success package
  | none => .failed (.stage Stage.packageResources.name "no package was produced")

/-- Execute a stage, and answer with the time that it took. -/
def timed (context : StageContext) (package : Option Path) (stage : Stage) :
    Plan (Except Fault StageOutput × Nat) := do
  let started : Nat ← Plan.ask .clock
  let result ← (stage.execute context package).run
  let ended : Nat ← Plan.ask .clock
  return (result, ended - started)

/-- The run that ends with a stage that has failed. -/
def runFailed (stage : Stage) (elapsed : Nat) (fault : Fault) : Plan BuildRun := do
  if (← isStopRequested) || fault.isInterruption then
    return ⟨.stopped, [record stage elapsed .interrupted]⟩
  else
    return ⟨.failed (.stage stage.name fault.message), [record stage elapsed .failed]⟩

/-- Tell the listeners that a stage begins, and execute it. -/
def turn (config : BuildConfig) (package : Option Path) (stage : Stage) :
    Plan (Except Fault StageOutput × Nat) := do
  builder.announce (.progress stage.label stage.percent)
  timed ⟨config, builder.toolchain⟩ package stage

/-- Execute some stages, beginning with the package of the stages before them. -/
def runStages (config : BuildConfig) : (package : Option Path) → List Stage → Plan BuildRun
  | package, [] => do
    if ← isStopRequested then return ⟨.stopped, []⟩
    else return ⟨outcomeOf package, []⟩
  | package, stage :: rest => do
    if ← isStopRequested then return ⟨.stopped, []⟩
    else if stage.isEnabled config then
      match ← builder.turn config package stage with
      | (.ok output, elapsed) =>
        return (← runStages config output.package rest).record (record stage elapsed .completed)
      | (.error fault, elapsed) => runFailed stage elapsed fault
    else
      return (← runStages config package rest).record (record stage 0 .skipped)

/-- Write the report about a build. That it cannot be written is of no account. -/
def reportRun (runId startedAt : String) (config : BuildConfig) (run : BuildRun) : Plan Unit :=
  discard (do
    let report ← RunReport.of runId startedAt run
    report.write config.layout.report : Attempt Unit).run

/-- End a build: set the state of the builder and tell the listeners. -/
def finish (outcome : BuildOutcome) : Plan Unit := do
  Plan.ask (.setState outcome.state)
  outcome.events.forM builder.announce

/-- End the claim of the builder. -/
def dropClaim : Plan Unit :=
  Plan.ask .release

/-- Begin a build with a claim: set the state of the builder and tell the listeners. The answer is a
name for the build, and the moment at which it starts. -/
def opening : Plan (String × String) := do
  let now ← Plan.ask .calendar
  let process ← Plan.ask .processId
  let started ← Plan.ask .calendar
  Plan.ask (.setState .running)
  builder.announce .started
  return (SketchApk.runId now process, Moment.stamp started)

/-- The checks, the stages and the report of a build. -/
def runChecked (runId startedAt : String) (config : BuildConfig) : Plan BuildRun := do
  match ← (Preflight.validate config builder.toolchain).run with
  | .error fault => return ⟨.failed (.environment fault.message), []⟩
  | .ok () =>
    let run ← builder.runStages config none Stage.all
    reportRun runId startedAt config run
    return run

/-- End a build with a claim: print its statistics, end it, and end the claim. -/
def closing (run : BuildRun) : Plan Unit := do
  run.statistics.print
  builder.finish run.outcome
  dropClaim

/-- Run a build with a claim, which ends with the build. -/
def runClaimed (config : BuildConfig) : Plan BuildRun := do
  let (runId, startedAt) ← builder.opening
  let run ← builder.runChecked runId startedAt config
  builder.closing run
  return run

/-- Claim the builder and run a build. -/
def build (config : BuildConfig) : Plan (Except BuildError BuildRun) := do
  match ← claim with
  | .ok () => return .ok (← builder.runClaimed config)
  | .error error => return .error error

/-- Ask the build in progress to stop. -/
def stop : Plan Unit :=
  Plan.ask .requestStop

end Builder

end SketchApk
