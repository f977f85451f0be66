/-!
# Signals

A signal is sent to a process from outside. It has a number and a name, and a description that is
shown when it ends a program. A process may ignore a signal or catch it; otherwise most signals end
the process. Two signals can neither be ignored nor caught.

## Main definitions

* `Signal` : the signals; `Signal.all` lists them by number.
* `SignalAction` : what a process does about a signal.
-/

namespace SketchApk

/-- A signal. -/
inductive Signal where
  | hup | int | quit | ill | trap | abrt | bus | fpe | kill | usr1 | segv | usr2 | pipe | alrm | term
  | stkflt | chld | cont | stop | tstp | ttin | ttou | urg | xcpu | xfsz | vtalrm | prof | winch | poll
  | pwr | sys
  deriving DecidableEq, Repr

namespace Signal

/-- The signals with their names and descriptions, by their numbers from one on. -/
def table : List (Signal × String × String) :=
  [(hup, "HUP", "Hangup"), (int, "INT", "Interrupt"), (quit, "QUIT", "Quit"),
    (ill, "ILL", "Illegal instruction"), (trap, "TRAP", "Trace/breakpoint trap"),
    (abrt, "ABRT", "Aborted"), (bus, "BUS", "Bus error"),
    (fpe, "FPE", "Floating point exception"), (kill, "KILL", "Killed"),
    (usr1, "USR1", "User defined signal 1"), (segv, "SEGV", "Segmentation fault"),
    (usr2, "USR2", "User defined signal 2"), (pipe, "PIPE", "Broken pipe"),
    (alrm, "ALRM", "Alarm clock"), (term, "TERM", "Terminated"),
    (stkflt, "STKFLT", "Stack fault"), (chld, "CHLD", "Child exited"),
    (cont, "CONT", "Continued"), (stop, "STOP", "Stopped (signal)"), (tstp, "TSTP", "Stopped"),
    (ttin, "TTIN", "Stopped (tty input)"), (ttou, "TTOU", "Stopped (tty output)"),
    (urg, "URG", "Urgent I/O condition"), (xcpu, "XCPU", "CPU time limit exceeded"),
    (xfsz, "XFSZ", "File size limit exceeded"), (vtalrm, "VTALRM", "Virtual timer expired"),
    (prof, "PROF", "Profiling timer expired"), (winch, "WINCH", "Window changed"),
    (poll, "POLL", "I/O possible"), (pwr, "PWR", "Power failure"),
    (sys, "SYS", "Bad system call")]

/-- The signals by number. -/
def all : List Signal :=
  table.map (·.1)

/-- The number of a signal. -/
def number (signal : Signal) : Nat :=
  all.idxOf signal + 1

/-- The signal of a number. -/
def ofNumber? (number : Nat) : Option Signal :=
  if number = 0 then none else all[number - 1]?

/-- The name of a signal. -/
def name (signal : Signal) : String :=
  ((table.find? (·.1 = signal)).map (·.2.1)).getD ""

/-- The signal of a name. -/
def ofName? (name : String) : Option Signal :=
  (table.find? (·.2.1 = name)).map (·.1)

/-- What is shown when a signal ends a program. -/
def description (signal : Signal) : String :=
  ((table.find? (·.1 = signal)).map (·.2.2)).getD ""

/-- The signal has no effect on a process that does nothing about it. -/
def isHarmless : Signal → Bool
  | chld | cont | urg | winch => true
  | _ => false

/-- The signal halts a process that does nothing about it. -/
def isHalting : Signal → Bool
  | stop | tstp | ttin | ttou => true
  | _ => false

/-- The signal can be neither ignored nor caught. -/
def isImperative : Signal → Bool
  | kill | stop => true
  | _ => false

theorem mem_all (signal : Signal) : signal ∈ all := by
  cases signal <;> decide

end Signal

/-- What a process does about a signal. -/
inductive SignalAction where
  /-- The signal has its usual effect. -/
  | default
  | ignore
  /-- The process takes notice of the signal when it next looks. -/
  | notice
  deriving DecidableEq, Repr

/-- How a process has ended. -/
inductive ProcessEnd where
  | exited (status : Nat)
  | killed (signal : Signal)
  deriving DecidableEq, Repr

end SketchApk
