import SketchApk.Process.Basic

/-!
# Kernels

A kernel holds what running processes share: the tree of files, the open files and pipes, and a
clock. A *task* is a process with its descriptors, its working directory and its signals. Descriptors
lead to open files, and several descriptors, also those of different tasks, may lead to the same one
and so share its offset.

A pipe holds a limited number of bytes. Who writes to a full pipe waits, as does who reads from an
empty one, until the other end is closed. Writing to a pipe that nobody reads sends a signal. A *sink*
takes whatever is written to it.

## Main definitions

* `Kernel`, `Kernel.Task` : kernels and their tasks.
* `Kernel.answer?` : the answer to a call of a task, unless the task has to wait.
* `Kernel.send` : sending a signal to a task.
-/

namespace SketchApk

namespace Kernel

/-- Where an open file leads. -/
inductive Stream where
  /-- There is nothing to read, and what is written is forgotten. -/
  | nothing
  /-- There is no end of zeros to read. -/
  | zeros
  /-- What is written does not fit. -/
  | full
  | file (place : Location) (readable writable appends : Bool)
  | directory
  /-- The end of a pipe from which is read. -/
  | source (pipe : Nat)
  /-- The end of a pipe to which is written. -/
  | drain (pipe : Nat)
  | sink (index : Nat)
  deriving DecidableEq

/-- An open file. -/
structure OpenFile where
  stream : Stream
  offset : Nat := 0

/-- A descriptor of a task. -/
structure Descriptor where
  number : Nat
  /-- The open file to which it leads. -/
  file : Nat
  /-- Other programs do not see the descriptor. -/
  isPrivate : Bool := false

/-- What a task is doing. -/
inductive TaskState where
  | running (process : Process)
  /-- The task goes on at a time. -/
  | sleeping (wakeUp : Nat) (process : Process)
  | ended (ending : ProcessEnd)

/-- A process in its surroundings. -/
structure Task where
  number : Nat
  parent : Nat
  /-- The process that leads the family to which the process belongs. -/
  family : Nat := 0
  state : TaskState
  descriptors : List Descriptor
  place : Location
  /-- The permission bits that new files do not get. -/
  mask : Mode := 0o022
  /-- What the process does about signals, where that is not the usual. -/
  actions : List (Signal × SignalAction) := []
  /-- The signals that were caught and not taken notice of. -/
  noticed : List Signal := []
  /-- A signal has halted the task. -/
  isHalted : Bool := false

end Kernel

/-- What running processes share. -/
structure Kernel where
  files : FileSystem
  openFiles : Array Kernel.OpenFile := #[]
  /-- What the pipes hold. -/
  pipes : Array ByteArray := #[]
  /-- What has been written to the sinks. -/
  sinks : Array ByteArray := #[]
  tasks : List Kernel.Task := []
  /-- The time since the beginning, in microseconds. -/
  clock : Nat := 0
  /-- The number of the next task. -/
  nextTask : Nat := 1

namespace Kernel

namespace Task

variable (task : Task)

/-- The task has ended. -/
def hasEnded : Bool :=
  task.state matches .ended _

/-- What the task does about a signal. -/
def actionOf (signal : Signal) : SignalAction :=
  (List.lookup signal task.actions).getD .default

/-- The open file to which a descriptor leads. -/
def fileOf? (number : Nat) : Option Nat :=
  (task.descriptors.find? (·.number = number)).map (·.file)

/-- The task without a descriptor. -/
def closing (number : Nat) : Task :=
  { task with descriptors := task.descriptors.filter (·.number ≠ number) }

/-- The task with a descriptor in place of one of that number. -/
def withDescriptor (descriptor : Descriptor) : Task :=
  { task with
    descriptors := descriptor :: task.descriptors.filter (·.number ≠ descriptor.number) }

/-- The least number from a bound on that no descriptor has. -/
def freeNumber (bound : Nat) : Nat :=
  let isFree (number : Nat) : Bool := (task.fileOf? number).isNone
  ((List.range (task.descriptors.length + 1)).map (bound + ·)).find? isFree |>.getD bound

end Task

variable (kernel : Kernel)

/-- The task of a number. -/
def task? (number : Nat) : Option Task :=
  kernel.tasks.find? (·.number = number)

/-- The kernel with a task in place of the one of that number. -/
def putTask (task : Task) : Kernel :=
  { kernel with
    tasks := kernel.tasks.map fun other => if other.number = task.number then task else other }

/-- The kernel with one more open file, and the number of that file. -/
def openStream (stream : Stream) : Nat × Kernel :=
  (kernel.openFiles.size, { kernel with openFiles := kernel.openFiles.push { stream } })

/-- The open file to which a descriptor of a task leads. -/
def fileOf? (task : Task) (descriptor : Nat) : Option (Nat × OpenFile) :=
  (task.fileOf? descriptor).bind fun number =>
    kernel.openFiles[number]?.map fun file => (number, file)

/-- The kernel after the offset of an open file has been set. -/
def setOffset (number offset : Nat) : Kernel :=
  { kernel with
    openFiles := kernel.openFiles.modify number fun file => { file with offset } }

/-- A descriptor of a task leads to a stream. -/
def isHeld (stream : Stream) : Bool :=
  kernel.tasks.any fun task => task.descriptors.any fun descriptor =>
    kernel.openFiles[descriptor.file]?.any (·.stream = stream)

/-- The number of bytes that a pipe holds at most. -/
def pipeCapacity : Nat := 65536

/-- The time that a step takes, in microseconds. -/
def stepDuration : Nat := 10

/-- The least number of a descriptor that was put aside. -/
def firstPrivate : Nat := 10

/-- The kernel after a task has ended. Its children that have ended are forgotten, and so is the task
itself when its parent has ended. -/
def endTask (task : Task) (ending : ProcessEnd) : Kernel :=
  let ended := { task with state := .ended ending, descriptors := [], isHalted := false }
  let others := (kernel.putTask ended).tasks.filter fun other =>
    !(other.parent = task.number && other.hasEnded)
  let hasParent := task.parent = 0 ||
    others.any fun other => other.number = task.parent && !other.hasEnded
  { kernel with
    tasks := if hasParent then others else others.filter (·.number ≠ task.number) }

/-- The kernel after a signal has been sent to a task. -/
def send (signal : Signal) (task : Task) : Kernel :=
  if task.hasEnded then kernel
  else if signal = .cont then kernel.putTask { task with isHalted := false }
  else
    match if signal.isImperative then .default else task.actionOf signal with
    | .ignore => kernel
    | .notice =>
      if signal ∈ task.noticed then kernel
      else kernel.putTask { task with noticed := task.noticed ++ [signal] }
    | .default =>
      if signal.isHarmless then kernel
      else if signal.isHalting then kernel.putTask { task with isHalted := true }
      else kernel.endTask task (.killed signal)

/-- The kernel after a signal has been sent to the tasks of some numbers. -/
def sendAll (signal : Signal) (numbers : List Nat) : Kernel :=
  numbers.foldl (fun kernel number =>
    match kernel.task? number with
    | some task => kernel.send signal task
    | none => kernel) kernel

/-- Some bytes with others written over them from an offset on. A gap is filled with zeros. -/
def overwritten (old : ByteArray) (offset : Nat) (data : ByteArray) : ByteArray :=
  let front :=
    if offset ≤ old.size then old.extract 0 offset
    else old ++ ⟨Array.replicate (offset - old.size) 0⟩
  front ++ data ++ old.extract (offset + data.size) old.size

/-- The files after bytes have been written to one of them from an offset on. -/
def writeAt (files : FileSystem) (place : Location) (offset : Nat) (data : ByteArray) :
    FileSystem :=
  match files.get? place with
  | some (.file mode content) =>
    let old := content.toBytes
    let written := if offset = old.size then old ++ data else overwritten old offset data
    files.put place (.file mode.afterWriting (.bytes written))
  | _ => files

/-- The number of bytes in the file at a location. -/
def sizeAt (files : FileSystem) (place : Location) : Nat :=
  match files.get? place with
  | some (.file _ content) => content.toBytes.size
  | _ => 0

/-- The most bytes that are read at a time. -/
def readLimit : Nat := 1000000000

/-- The answer to reading from an open file, unless the task has to wait. -/
def read? (number : Nat) (file : OpenFile) (count : Nat) :
    Option (Except FileError ByteArray × Kernel) :=
  match file.stream with
  | .nothing | .full => some (.ok ByteArray.empty, kernel)
  | .zeros => some (.ok ⟨Array.replicate (min count pipeCapacity) 0⟩, kernel)
  | .directory => some (.error .isADirectory, kernel)
  | .drain _ | .sink _ => some (.error .badDescriptor, kernel)
  | .file place readable _ _ =>
    if !readable then some (.error .badDescriptor, kernel)
    else
      match kernel.files.get? place with
      | some (.file _ content) =>
        let stop := file.offset + min count readLimit
        let part := content.toBytes.extract file.offset stop
        some (.ok part, kernel.setOffset number (file.offset + part.size))
      | _ => some (.ok ByteArray.empty, kernel)
  | .source pipe =>
    let held := kernel.pipes.getD pipe ByteArray.empty
    if held.isEmpty then
      if kernel.isHeld (.drain pipe) then none else some (.ok ByteArray.empty, kernel)
    else
      let part := held.extract 0 count
      let rest := held.extract part.size held.size
      some (.ok part, { kernel with pipes := kernel.pipes.setIfInBounds pipe rest })

/-- What writing comes to. -/
inductive WriteResult where
  | done (kernel : Kernel)
  | failed (error : FileError)
  /-- Some bytes are left, for which the task has to wait. -/
  | waits (rest : ByteArray) (kernel : Kernel)
  /-- Nobody reads. -/
  | unread

/-- Write to an open file. -/
def write (number : Nat) (file : OpenFile) (data : ByteArray) : WriteResult :=
  match file.stream with
  | .nothing | .zeros => .done kernel
  | .full => .failed .noSpace
  | .directory | .source _ => .failed .badDescriptor
  | .sink index => .done { kernel with sinks := kernel.sinks.modify index (· ++ data) }
  | .file place _ writable appends =>
    if !writable then .failed .badDescriptor
    else
      let offset := if appends then sizeAt kernel.files place else file.offset
      let written := { kernel with files := writeAt kernel.files place offset data }
      .done (written.setOffset number (offset + data.size))
  | .drain pipe =>
    if !kernel.isHeld (.source pipe) then .unread
    else
      let room := pipeCapacity - (kernel.pipes.getD pipe ByteArray.empty).size
      let fitting := data.extract 0 room
      let filled := { kernel with pipes := kernel.pipes.modify pipe (· ++ fitting) }
      if data.size ≤ room then .done filled else .waits (data.extract room data.size) filled

/-- The file to which a descriptor of a task leads, with the offset of the next read or write. -/
def position (task : Task) (descriptor : Nat) : Option (Location × Nat) :=
  match kernel.fileOf? task descriptor with
  | some (_, { stream := .file place _ _ appends, offset }) =>
    some (place, if appends then sizeAt kernel.files place else offset)
  | _ => none

/-- The stream that a path of a device stands for. -/
def deviceOf? (path : Path) : Option Stream :=
  match path.text with
  | "/dev/null" => some .nothing
  | "/dev/zero" => some .zeros
  | "/dev/full" => some .full
  | _ => none

/-- The descriptor that a path stands for. -/
def descriptorOf? (path : Path) : Option Nat :=
  match path.text with
  | "/dev/stdin" => some 0
  | "/dev/stdout" => some 1
  | "/dev/stderr" => some 2
  | text =>
    if "/dev/fd/".toList.isPrefixOf text.toList then (text.toList.drop 8 |> String.ofList).toNat?
    else none

/-- The permission bits of a new file. -/
def Task.newFileMode (task : Task) : Mode :=
  0o666 &&& ~~~task.mask

/-- The file that a path leads to, opened for writing, and the files afterwards. -/
def openToWrite (task : Task) (path : Path) (mode : OpenMode) :
    Except FileError (Stream × FileSystem) :=
  match kernel.files.resolve task.place .created path with
  | .ok (.existing place (.file bits _)) =>
    if mode = .fresh then .error .alreadyExists
    else if !bits.isWritable || (mode = .update && !bits.isReadable) then .error .permissionDenied
    else
      let files :=
        if mode = .write then kernel.files.put place (.file bits.afterWriting Content.empty)
        else kernel.files
      .ok (.file place (mode = .update) true (mode = .append), files)
  | .ok (.existing ..) => .error .isADirectory
  | .ok (.vacant place _) => do
    let files ← kernel.files.create place (.file task.newFileMode Content.empty)
    .ok (.file place (mode = .update) true (mode = .append), files)
  | .error error => .error error

/-- The stream to which a path leads, and the files afterwards. -/
def openPath (task : Task) (path : Path) (mode : OpenMode) :
    Except FileError (Stream × FileSystem) :=
  match deviceOf? path with
  | some stream => .ok (stream, kernel.files)
  | none =>
    if mode = .read then
      match kernel.files.find task.place path with
      | .ok (place, .file bits _) =>
        if bits.isReadable then .ok (.file place true false false, kernel.files)
        else .error .permissionDenied
      | .ok (_, .directory bits) =>
        if bits.isReadable then .ok (.directory, kernel.files) else .error .permissionDenied
      | .ok (_, .link _) => .error .tooManyLinks
      | .error error => .error error
    else kernel.openToWrite task path mode

/-- Open a file. The descriptor gets the least free number. -/
def openFile (task : Task) (path : Path) (mode : OpenMode) : Except FileError Nat × Kernel :=
  let number := task.freeNumber 0
  let lead (file : Nat) (kernel : Kernel) : Except FileError Nat × Kernel :=
    (.ok number, kernel.putTask (task.withDescriptor { number, file }))
  match descriptorOf? path with
  | some source =>
    match task.fileOf? source with
    | some file => lead file kernel
    | none => (.error .notFound, kernel)
  | none =>
    match kernel.openPath task path mode with
    | .error error => (.error error, kernel)
    | .ok (stream, files) =>
      let (file, kernel) := { kernel with files }.openStream stream
      lead file kernel

/-- Load a file that may be executed. -/
def load (task : Task) (path : Path) : Except FileError Content :=
  match kernel.files.find task.place path with
  | .ok (_, .file mode content) =>
    if mode.isExecutable then .ok content else .error .permissionDenied
  | .ok _ => .error .permissionDenied
  | .error error => .error error

/-- Find the node that a path leads to. -/
def findNode (task : Task) (path : Path) (follow : Bool) : Except FileError (Location × Node) :=
  if follow then kernel.files.find task.place path
  else
    match kernel.files.resolve task.place .kept path with
    | .ok (.existing place node) => .ok (place, node)
    | .ok (.vacant ..) => .error .notFound
    | .error error => .error error

/-- The files after a link has been made. -/
def makeLink (task : Task) (target path : Path) : Except FileError FileSystem :=
  match kernel.files.resolve task.place .kept path with
  | .ok (.existing ..) => .error .alreadyExists
  | .ok (.vacant place false) => kernel.files.create place (.link target)
  | .ok (.vacant _ true) => .error .notFound
  | .error error => .error error

/-- The files after an empty directory has been removed. -/
def removeDirectory (task : Task) (path : Path) : Except FileError FileSystem :=
  match kernel.files.resolve task.place .kept path with
  | .ok (.existing place (.directory _)) =>
    if path.endsInDots then .error .invalidArgument
    else if !kernel.files.isChangeable place.dropLast then .error .permissionDenied
    else if (kernel.files.below place).isEmpty then kernel.files.discardNode place
    else .error .directoryNotEmpty
  | .ok (.existing ..) => .error .notADirectory
  | .ok (.vacant ..) => .error .notFound
  | .error error => .error error

/-- The location of the directory to which a path leads. -/
def directoryAt (task : Task) (path : Path) : Except FileError Location :=
  match kernel.files.find task.place path with
  | .ok (place, .directory mode) =>
    if mode.isExecutable then .ok place else .error .permissionDenied
  | .ok _ => .error .notADirectory
  | .error error => .error error

/-- What waiting for a child comes to, unless the task has to wait. A child that has ended is
forgotten once its parent knows. -/
def wait? (task : Task) (child : Option Nat) (mode : WaitMode) : Option (WaitResult × Kernel) :=
  let candidates := kernel.tasks.filter fun other =>
    other.parent = task.number && child.all (· = other.number)
  let endings := candidates.filterMap fun other =>
    match other.state with
    | .ended ending => some (other.number, ending)
    | _ => none
  match endings with
  | (number, ending) :: _ =>
    some (.ended number ending,
      { kernel with tasks := kernel.tasks.filter (·.number ≠ number) })
  | [] =>
    if candidates.isEmpty then some (.noChild, kernel)
    else if mode = .polling then some (.running, kernel)
    else if mode = .interruptible && !task.noticed.isEmpty then some (.interrupted, kernel)
    else none

/-- The numbers of the tasks to which a signal of a task for a target is sent. -/
def targets (task : Task) (target : Int) : List Nat :=
  let isMeant (other : Task) : Bool :=
    if target = 0 then other.family = task.family && !other.hasEnded
    else if target < 0 then other.family ≠ 0 && (other.family : Int) = -target
    else (other.number : Int) = target
  (kernel.tasks.filter isMeant).map (·.number)

/-- The answer to a call that changes the files or fails. -/
def settled (result : Except FileError FileSystem) : Except FileError Unit × Kernel :=
  match result with
  | .ok files => (.ok (), { kernel with files })
  | .error error => (.error error, kernel)

/-- The files after a file operation of a task has created nodes. The new nodes at the end of a path
lack the permission bits that the task withholds. -/
def masked (task : Task) (operation : FileOperation) (files : FileSystem) : FileSystem :=
  match operation with
  | .makeDirectory path =>
    match files.find task.place path with
    | .ok (place, .directory mode) =>
      if (kernel.files.get? place).isNone then
        files.put place (.directory ((mode ||| 0o777) &&& ~~~task.mask))
      else files
    | _ => files
  | _ => files

/-- The answer to a call of a task, unless the task has to wait. -/
def answer? (task : Task) : (call : SystemCall) → Option (call.Answer × Kernel)
  | .pass => some ((), { kernel with clock := kernel.clock + stepDuration })
  | .openFile path mode => some (kernel.openFile task path mode)
  | .close descriptor => some ((), kernel.putTask (task.closing descriptor))
  | .duplicate source target =>
    match task.fileOf? source with
    | some file =>
      some (true, if source = target then kernel
        else kernel.putTask (task.withDescriptor { number := target, file }))
    | none => some (false, kernel)
  | .putAside descriptor =>
    match task.fileOf? descriptor with
    | some file =>
      let number := task.freeNumber firstPrivate
      some (some number, kernel.putTask (task.withDescriptor { number, file, isPrivate := true }))
    | none => some (none, kernel)
  | .pipe =>
    let pipe := kernel.pipes.size
    let (source, kernel) :=
      { kernel with pipes := kernel.pipes.push ByteArray.empty }.openStream (.source pipe)
    let (drain, kernel) := kernel.openStream (.drain pipe)
    let first := task.freeNumber 0
    let reading := task.withDescriptor { number := first, file := source }
    let second := reading.freeNumber 0
    some ((first, second),
      kernel.putTask (reading.withDescriptor { number := second, file := drain }))
  | .read descriptor count =>
    match kernel.fileOf? task descriptor with
    | some (number, file) => kernel.read? number file count
    | none => some (.error .badDescriptor, kernel)
  | .write descriptor data =>
    match kernel.fileOf? task descriptor with
    | none => some (.error .badDescriptor, kernel)
    | some (number, file) =>
      match kernel.write number file data with
      | .done kernel => some (.ok (), kernel)
      | .failed error => some (.error error, kernel)
      | .waits .. => none
      | .unread => some (.error .brokenPipe, kernel.send .pipe task)
  | .rewind descriptor count =>
    match kernel.fileOf? task descriptor with
    | some (number, file) => some ((), kernel.setOffset number (file.offset - count))
    | none => some ((), kernel)
  | .position descriptor => some (kernel.position task descriptor, kernel)
  | .file operation =>
    let (result, files) := operation.run task.place kernel.files
    some (result, { kernel with files := kernel.masked task operation files })
  | .findNode path follow => some (kernel.findNode task path follow, kernel)
  | .makeLink target path => some (kernel.settled (kernel.makeLink task target path))
  | .removeDirectory path => some (kernel.settled (kernel.removeDirectory task path))
  | .changeDirectory path =>
    match kernel.directoryAt task path with
    | .ok place => some (.ok (), kernel.putTask { task with place })
    | .error error => some (.error error, kernel)
  | .directory => some (task.place, kernel)
  | .load path => some (kernel.load task path, kernel)
  | .sleep _ => some ((), kernel)
  | .wait child mode => kernel.wait? task child mode
  | .kill target signal =>
    let numbers := kernel.targets task target
    match signal with
    | some signal => some (!numbers.isEmpty, kernel.sendAll signal numbers)
    | none => some (!numbers.isEmpty, kernel)
  | .leadFamily => some ((), kernel.putTask { task with family := task.number })
  | .handle signal action =>
    let others := task.actions.filter (·.1 ≠ signal)
    some ((), kernel.putTask { task with actions := (signal, action) :: others })
  | .actionOf signal => some (task.actionOf signal, kernel)
  | .takeSignals => some (task.noticed, kernel.putTask { task with noticed := [] })
  | .identify => some ((task.number, task.parent), kernel)
  | .mask bits => some (task.mask, kernel.putTask { task with mask := bits.getD task.mask })
  | .renew =>
    some ((), kernel.putTask { task with
      descriptors := task.descriptors.filter (!·.isPrivate)
      actions := task.actions.filter (·.2 = .ignore)
      noticed := [] })
  | .clock => some (kernel.clock, kernel)

end Kernel

end SketchApk
