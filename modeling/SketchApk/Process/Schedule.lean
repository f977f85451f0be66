import SketchApk.Process.Kernel

/-!
# Running processes

A kernel lets one task at a time make steps. A task goes on until it has to wait, has ended or has
made many steps in a row, and then it is the turn of the next one. When all tasks wait, time passes
until the first of those that sleep wakes up.

A kernel is run for the sake of a main task and its output: it is done when the main task has ended
and nobody can write to a sink any more. There may be a deadline for the main task.

## Main definitions

* `Kernel.step?` : one step of a task.
* `Kernel.run` : running a kernel.
-/

namespace SketchApk.Kernel

variable (kernel : Kernel)

/-- The kernel in which a task goes on as a process, unless it has ended. -/
def goOn (number : Nat) (state : TaskState) : Kernel :=
  { kernel with
    tasks := kernel.tasks.map fun task =>
      if task.number = number && !task.hasEnded then { task with state } else task }

/-- The kernel after a task has started a child. -/
def forked (task : Task) (child : Process) (next : Nat → Process) : Kernel :=
  let number := kernel.nextTask
  let started : Task :=
    { task with number, parent := task.number, state := .running child, noticed := [] }
  { kernel with nextTask := number + 1, tasks := kernel.tasks ++ [started] }.goOn task.number
    (.running (next number))

/-- The kernel after a task has written as much as there is room for, if there is any. -/
def written? (task : Task) (descriptor : Nat) (data : ByteArray)
    (next : Except FileError Unit → Process) : Option Kernel :=
  match kernel.fileOf? task descriptor with
  | none => some (kernel.goOn task.number (.running (next (.error .badDescriptor))))
  | some (number, file) =>
    match kernel.write number file data with
    | .done kernel => some (kernel.goOn task.number (.running (next (.ok ()))))
    | .failed error => some (kernel.goOn task.number (.running (next (.error error))))
    | .unread =>
      some ((kernel.send .pipe task).goOn task.number (.running (next (.error .brokenPipe))))
    | .waits rest filled =>
      if rest.size = data.size then none
      else some (filled.goOn task.number (.running (.step (.write descriptor rest) next)))

/-- The kernel after one step of a task, unless the task has to wait or has ended. -/
def step? (task : Task) : Option Kernel :=
  if task.isHalted then none
  else
    match task.state with
    | .ended _ => none
    | .sleeping wakeUp process =>
      if wakeUp ≤ kernel.clock then some (kernel.goOn task.number (.running process)) else none
    | .running (.exit status) => some (kernel.endTask task (.exited (status % 256)))
    | .running (.fork child next) => some (kernel.forked task child next)
    | .running (.step (.write descriptor data) next) =>
      kernel.written? task descriptor data next
    | .running (.step (.sleep duration) next) =>
      some (kernel.goOn task.number (.sleeping (kernel.clock + duration) (next ())))
    | .running (.step call next) =>
      (kernel.answer? task call).map fun (answer, kernel) =>
        kernel.goOn task.number (.running (next answer))

/-- The tasks in the order of their turns, where one task has just had its turn. -/
def turns (current : Nat) : List Task :=
  kernel.tasks.filter (current < ·.number) ++ kernel.tasks.filter (·.number ≤ current)

/-- The first of some tasks that can make a step, and the kernel after it. -/
def stepOf? : List Task → Option (Nat × Kernel)
  | [] => none
  | task :: rest =>
    match kernel.step? task with
    | some next => some (task.number, next)
    | none => stepOf? rest

/-- The time at which the first of the sleeping tasks wakes up. -/
def wakeUp? : Option Nat :=
  (kernel.tasks.filterMap fun task =>
    match task.state with
    | .sleeping wakeUp _ => if task.isHalted then none else some wakeUp
    | _ => none).min?

/-- How a task has ended. -/
def endOf? (number : Nat) : Option ProcessEnd :=
  (kernel.task? number).bind fun task =>
    match task.state with
    | .ended ending => some ending
    | _ => none

/-- A task can write to a sink. -/
def canWrite : Bool :=
  (List.range kernel.sinks.size).any fun index => kernel.isHeld (.sink index)

/-- The number of steps that a task makes in a row. -/
def turnLength : Nat := 1000

/-- What running a kernel comes to. -/
inductive RunResult where
  | finished (ending : ProcessEnd) (kernel : Kernel)
  /-- The main task has not ended by the deadline, or at all. -/
  | stopped (kernel : Kernel)

/-- Run a kernel for the sake of a main task, with at most `fuel` steps. The task `current` makes the
next steps, as many as `turn` in a row. -/
def runFrom (main : Nat) (deadline : Option Nat) :
    (fuel current turn : Nat) → Kernel → RunResult
  | 0, _, _, kernel => .stopped kernel
  | fuel + 1, current, turn, kernel =>
    let ending := kernel.endOf? main
    match ending, ending.isSome && !kernel.canWrite with
    | some ending, true => .finished ending kernel
    | _, _ =>
      if ending.isNone && deadline.any (· < kernel.clock) then .stopped kernel
      else
        let own := if turn = 0 then none else (kernel.task? current).bind kernel.step?
        match own with
        | some next => runFrom main deadline fuel current (turn - 1) next
        | none =>
          match kernel.stepOf? (kernel.turns current) with
          | some (number, next) => runFrom main deadline fuel number turnLength next
          | none =>
            match kernel.wakeUp? with
            | some time =>
              runFrom main deadline fuel current turnLength
                { kernel with clock := max time kernel.clock }
            | none => .stopped kernel

/-- Run a kernel for the sake of a main task, with at most `fuel` steps. -/
def run (fuel main : Nat) (deadline : Option Nat) : RunResult :=
  runFrom main deadline fuel main turnLength kernel

end SketchApk.Kernel
