import SketchApk.File.Operation
import SketchApk.Process.Signal

/-!
# Processes

A process is a program in execution. It makes calls to the system, one at a time, and goes on in a
way that depends on the answers, until it ends with a status. It may start a child, which goes on by
itself. So a process is the tree of its calls; what the calls do is up to the kernel.

Programs are written as *steps*, which keep a state and may be left early. Steps are told how to go
on, so a process comes about piece by piece while it runs.

## Main definitions

* `SystemCall` : the calls, each with the type of its answer.
* `Process` : trees of calls.
* `Steps` : the monad in which programs are written.
-/

namespace SketchApk

/-- How a file is opened. -/
inductive OpenMode where
  | read
  /-- Write from the beginning, after the file has been emptied. -/
  | write
  /-- Write at the end. -/
  | append
  /-- Read and write from the beginning. -/
  | update
  /-- Write to a file that did not exist as a regular file. -/
  | fresh
  deriving DecidableEq, Repr

/-- How a process waits for a child. -/
inductive WaitMode where
  /-- Wait until a child has ended. -/
  | blocking
  /-- Wait until a child has ended or a signal has been caught. -/
  | interruptible
  /-- Do not wait. -/
  | polling
  deriving DecidableEq, Repr

/-- What waiting for a child comes to. -/
inductive WaitResult where
  | ended (child : Nat) (ending : ProcessEnd)
  /-- All children are running. -/
  | running
  /-- A signal has been caught. -/
  | interrupted
  /-- There is no such child. -/
  | noChild
  deriving DecidableEq, Repr

/-- A call to the system. -/
inductive SystemCall where
  /-- Let time pass for a single step. -/
  | pass
  | openFile (path : Path) (mode : OpenMode)
  | close (descriptor : Nat)
  /-- Let the second descriptor lead to where the first one does. -/
  | duplicate (source target : Nat)
  /-- Let a new descriptor, which other programs do not see, lead to where a descriptor does. -/
  | putAside (descriptor : Nat)
  /-- Create a pipe: a descriptor to read from and one to write to. -/
  | pipe
  /-- Read at most `count` bytes. No bytes are read only at the end. -/
  | read (descriptor count : Nat)
  | write (descriptor : Nat) (data : ByteArray)
  /-- Go back by some bytes in a file. -/
  | rewind (descriptor count : Nat)
  /-- Ask for the file to which a descriptor leads, with the offset of the next read or write. -/
  | position (descriptor : Nat)
  | file (operation : FileOperation)
  /-- Find the node that a path leads to, where a link at the end of the path may be followed. -/
  | findNode (path : Path) (follow : Bool)
  | makeLink (target path : Path)
  | removeDirectory (path : Path)
  | changeDirectory (path : Path)
  /-- Ask for the working directory. -/
  | directory
  /-- Load a file that may be executed. -/
  | load (path : Path)
  /-- Let a number of microseconds pass. -/
  | sleep (duration : Nat)
  | wait (child : Option Nat) (mode : WaitMode)
  /-- Send a signal to a process, or only look for it. Zero stands for the processes of the own family,
  and a negative number for those of the family that a process leads. -/
  | kill (target : Int) (signal : Option Signal)
  /-- Lead a family of its own, to which later children belong. -/
  | leadFamily
  | handle (signal : Signal) (action : SignalAction)
  /-- Ask for the action about a signal. -/
  | actionOf (signal : Signal)
  /-- Take the signals that have been caught. -/
  | takeSignals
  /-- Ask for the number of the process and that of its parent. -/
  | identify
  /-- Ask for the permission bits that new files do not get, and set them if they are given. -/
  | mask (bits : Option Mode)
  /-- Make ready for another program: descriptors that were put aside are closed, and no signal is
  caught. -/
  | renew
  /-- Ask for the time since the beginning, in microseconds. -/
  | clock

/-- The type of the answer to a call. -/
def SystemCall.Answer : SystemCall → Type
  | openFile .. => Except FileError Nat
  | duplicate .. => Bool
  | putAside _ => Option Nat
  | pipe => Nat × Nat
  | read .. => Except FileError ByteArray
  | write .. => Except FileError Unit
  | position _ => Option (Location × Nat)
  | file operation => Except FileError operation.Value
  | findNode .. => Except FileError (Location × Node)
  | makeLink .. => Except FileError Unit
  | removeDirectory _ => Except FileError Unit
  | changeDirectory _ => Except FileError Unit
  | directory => Location
  | load _ => Except FileError Content
  | wait .. => WaitResult
  | kill .. => Bool
  | actionOf _ => SignalAction
  | takeSignals => List Signal
  | identify => Nat × Nat
  | mask _ => Mode
  | clock => Nat
  | _ => Unit

/-- A process, as the tree of its calls. -/
inductive Process where
  /-- The process ends. -/
  | exit (status : Nat)
  | step (call : SystemCall) (next : call.Answer → Process)
  /-- The process starts a child and goes on with its number. -/
  | fork (child : Process) (next : Nat → Process)

instance : Inhabited Process := ⟨.exit 0⟩

/-- Steps of a program that keep a state of type `σ` and end with a value of type `α`, or are left
early with one of type `ε`. They are told how the process goes on in either case. -/
def Steps (σ ε α : Type) : Type :=
  (α → σ → Process) → (ε → σ → Process) → σ → Process

namespace Steps

variable {σ ε α β γ : Type}

instance : Monad (Steps σ ε) where
  pure value := fun next _ state => next value state
  bind steps f := fun next left state =>
    steps (fun value state => f value next left state) left state

instance : MonadStateOf σ (Steps σ ε) where
  get := fun next _ state => next state state
  set state := fun next _ _ => next () state
  modifyGet f := fun next _ state =>
    let (value, state) := f state
    next value state

instance : MonadExceptOf ε (Steps σ ε) where
  throw exit := fun _ left state => left exit state
  tryCatch steps handle := fun next left state =>
    steps next (fun exit state => handle exit next left state) state

instance : LawfulMonad (Steps σ ε) :=
  LawfulMonad.mk' (Steps σ ε) (fun _ => rfl) (fun _ _ => rfl) fun _ _ _ => rfl

/-- Make a call to the system. -/
def call (systemCall : SystemCall) : Steps σ ε systemCall.Answer :=
  fun next _ state => .step systemCall fun answer => next answer state

/-- End the process. -/
def halt (status : Nat) : Steps σ ε α :=
  fun _ _ _ => .exit status

/-- Go on as another process. -/
def become (process : Process) : Steps σ ε α :=
  fun _ _ _ => process

/-- The process that consists of some steps, which begin with a state. -/
def toProcess (steps : Steps σ ε Unit) (atEnd : σ → Process) (onExit : ε → σ → Process)
    (state : σ) : Process :=
  steps (fun _ state => atEnd state) onExit state

/-- Start a child that consists of some steps and begins with the state of its parent. -/
def fork (child : σ → Process) : Steps σ ε Nat :=
  fun next _ state => .fork (child state) fun number => next number state

end Steps

end SketchApk
