import SketchApk.Decimal.Seconds
import SketchApk.Fault.Basic
import SketchApk.Plan.Attempt

/-!
# Statistics and outcomes of builds

A build keeps one record for each stage that it has reached, in order. They are printed as a table:
names are padded to twenty characters, and times are in seconds.

A build succeeds with a package, fails with an error, or is stopped on request.

## Main definitions

* `StageOutcome` : how a stage ended.
* `StageRecord` : the record of a stage.
* `Statistics` : the records of a build, with `Statistics.table`.
* `BuildOutcome` : how a build ended.
-/

namespace SketchApk

/-! ### Records of stages -/

/-- How a stage ended. -/
inductive StageOutcome where
  | completed
  | skipped
  | failed
  | interrupted
  deriving DecidableEq, Repr

namespace StageOutcome

/-- The name of an outcome. -/
def name : StageOutcome → String
  | completed => "completed"
  | skipped => "skipped"
  | failed => "failed"
  | interrupted => "interrupted"

/-- All outcomes. -/
def all : List StageOutcome :=
  [completed, skipped, failed, interrupted]

/-- The outcome of a name. -/
def ofName? (name : String) : Option StageOutcome :=
  all.find? (·.name = name)

/-- The word for an outcome in a table. A failure stands out. -/
def tableWord : StageOutcome → String
  | failed => "FAILED"
  | outcome => outcome.name

end StageOutcome

/-- The record of a stage; its time is in nanoseconds. -/
structure StageRecord where
  name : String
  label : String
  elapsed : Nat
  outcome : StageOutcome
  deriving DecidableEq, Repr

/-- The records of a build, in order. -/
abbrev Statistics := List StageRecord

namespace Statistics

variable (statistics : Statistics)

/-- The time of all stages together. -/
def total : Nat :=
  (statistics.map StageRecord.elapsed).foldr (· + ·) 0

/-- The outcome of the first stage of a name. -/
def outcome? (name : String) : Option StageOutcome :=
  (statistics.find? (·.name = name)).map StageRecord.outcome

/-- The width to which names are padded. -/
def nameWidth : Nat := 20

/-- The columns with a name and a time. -/
def columns (name : String) (elapsed : Nat) : List Char :=
  [' ', ' '] ++ Text.padEnd nameWidth name.toList ++ ' ' :: Decimal.secondsColumn elapsed ++ ['s']

/-- The line of a record. -/
def line (record : StageRecord) : String :=
  String.ofList (columns record.name record.elapsed ++ [' ', ' '] ++
    record.outcome.tableWord.toList)

/-- The lines of the table. -/
def table : List String :=
  "Build statistics:" :: statistics.map line ++ [String.ofList (columns "total" statistics.total)]

/-- Print the table. -/
def print : Plan Unit :=
  statistics.table.forM Plan.printLine

end Statistics

/-! ### Outcomes of builds -/

/-- How a build ended. -/
inductive BuildOutcome where
  | success (package : Path)
  | failed (error : BuildError)
  | stopped
  deriving DecidableEq

namespace BuildOutcome

/-- The outcome is a success. -/
def isSuccess : BuildOutcome → Bool
  | success _ => true
  | _ => false

/-- The package of a successful build. -/
def package? : BuildOutcome → Option Path
  | success package => some package
  | _ => none

/-- The error of a failed build. -/
def error? : BuildOutcome → Option BuildError
  | failed error => some error
  | _ => none

/-- The state of a builder after a build with this outcome. -/
def state : BuildOutcome → BuildState
  | success _ => .completed
  | failed _ => .failed
  | stopped => .stopped

/-- The events at the end of a build. -/
def events : BuildOutcome → List BuildEvent
  | success _ => [.completed true "Build completed successfully"]
  | failed error =>
    [.error error.message, .completed false ("Build failed: " ++ error.message)]
  | stopped => [.completed false "Build stopped"]

end BuildOutcome

/-- What a build leaves. -/
structure BuildRun where
  outcome : BuildOutcome
  statistics : Statistics
  deriving DecidableEq

/-- The run of a build with one more record in front. -/
def BuildRun.record (run : BuildRun) (entry : StageRecord) : BuildRun :=
  { run with statistics := entry :: run.statistics }

end SketchApk
