import SketchApk.File.Resolve

/-!
# Operations on files

The operations through which a program observes and changes the tree of files. Each is carried out
as one step: it answers with a value or an error. An operation that fails leaves the files as they
were, except that the removal of a tree may come to a halt halfway. New files and directories get
the permission bits `644` and `755`. Writing and copying keep the node at the end of a link,
removing and renaming act on the link itself.

The program owns all files, so what it may do is decided by the permissions of the owner. Reading and
writing need those of the file; creating, removing and renaming need those of the directory.

## Main definitions

* `FileOperation` : the operations, each with the type of its answer.
* `FileOperation.run` : the answer and the files afterwards.
-/

namespace SketchApk

/-- The kinds of nodes that a path with its links followed can lead to. -/
inductive FileKind where
  | file
  | directory
  deriving DecidableEq, Repr

/-- What an inspection reports. -/
structure Inspection where
  kind : FileKind
  mode : Mode
  deriving DecidableEq

/-- What a walk through a tree comes across. -/
structure FileWalk where
  /-- The regular files, by the names that lead to them from the root. -/
  files : List (List String)
  /-- The directory at which the walk comes to a halt, and the reason. -/
  halt : Option (List String × FileError) := none

/-- An operation on files. -/
inductive FileOperation where
  /-- Report the kind and the permission bits of a file or directory. -/
  | inspect (path : Path)
  /-- List the names in a directory. -/
  | list (path : Path)
  /-- List the regular files of a tree. -/
  | walk (root : Path)
  /-- Read a file. -/
  | read (path : Path)
  /-- Read a file that may also be written to. -/
  | readToExtend (path : Path)
  /-- Give a file a new content, creating it when it does not exist. -/
  | write (path : Path) (content : Content)
  /-- Create an empty file unless it exists. -/
  | ensureFile (path : Path)
  /-- Create a directory. -/
  | makeDirectory (path : Path)
  /-- Remove a file or a link. -/
  | removeFile (path : Path)
  /-- Remove a directory with everything below it. -/
  | removeTree (path : Path)
  /-- Move a file to another name, replacing what has that name. -/
  | rename (source target : Path)
  /-- Copy the bytes and the permission bits of a file. -/
  | copy (source target : Path)
  /-- Set the permission bits of a file or directory. -/
  | setMode (path : Path) (mode : Mode)

namespace FileOperation

/-- The value with which an operation answers when it succeeds. -/
@[reducible] def Value : FileOperation → Type
  | inspect _ => Inspection
  | list _ => List String
  | walk _ => FileWalk
  | read _ => Content
  | readToExtend _ => Content
  | _ => Unit

end FileOperation

namespace FileSystem

variable (files : FileSystem) (cwd : Location)

/-- The kind and the permission bits of what a path leads to. -/
def inspect (path : Path) : Except FileError Inspection :=
  match files.find cwd path with
  | .ok (_, .file mode _) => .ok ⟨.file, mode⟩
  | .ok (_, .directory mode) => .ok ⟨.directory, mode⟩
  | .ok (_, .link _) => .error .tooManyLinks
  | .error error => .error error

/-- The location of a directory that may be listed. -/
def findListable (path : Path) : Except FileError Location :=
  match files.find cwd path with
  | .ok (place, .directory mode) => if mode.isReadable then .ok place else .error .permissionDenied
  | .ok _ => .error .notADirectory
  | .error error => .error error

/-- The names in a directory, in order. -/
def list (path : Path) : Except FileError (List String) :=
  (files.findListable cwd path).map fun place => (files.children place).map (·.1)

/-- What a walk comes across among the nodes below a root. A directory that cannot be listed brings
it to a halt. -/
def walkBelow (root : Path) : List (Location × Node) → FileWalk
  | [] => { files := [] }
  | (names, .file ..) :: rest =>
    let walk := walkBelow root rest
    { walk with files := names :: walk.files }
  | (names, .directory _) :: rest =>
    match files.findListable cwd (root.descend names) with
    | .ok _ => walkBelow root rest
    | .error error => { files := [], halt := some (names, error) }
  | (_, .link _) :: rest => walkBelow root rest

/-- What a walk through the tree of a directory comes across. -/
def walkDirectory (root : Path) : Except FileError FileWalk :=
  (files.findListable cwd root).map fun place => files.walkBelow cwd root (files.below place)

/-- The regular files of a tree. Links below the root are neither followed nor listed. A root that
is a link to a directory is followed, and a root that is a regular file is the only one listed. -/
def walk (root : Path) : Except FileError FileWalk :=
  match files.resolve cwd .kept root with
  | .ok (.existing _ (.directory _)) => files.walkDirectory cwd root
  | .ok (.existing _ (.file ..)) => .ok { files := [[]] }
  | .ok (.existing _ (.link _)) =>
    match files.find cwd root with
    | .ok (_, .directory _) => files.walkDirectory cwd root
    | .ok _ => .ok { files := [] }
    | .error error => .error error
  | .ok (.vacant ..) => .error .notFound
  | .error error => .error error

/-- The content of a file. -/
def read (path : Path) : Except FileError Content :=
  match files.find cwd path with
  | .ok (_, .file mode content) => if mode.isReadable then .ok content else .error .permissionDenied
  | .ok (_, .directory mode) =>
    .error (if mode.isReadable then .isADirectory else .permissionDenied)
  | .ok (_, .link _) => .error .tooManyLinks
  | .error error => .error error

/-- The content of a file that may also be written to. -/
def readToExtend (path : Path) : Except FileError Content :=
  match files.find cwd path with
  | .ok (_, .file mode content) =>
    if mode.isReadable && mode.isWritable then .ok content else .error .permissionDenied
  | .ok _ => .error .isADirectory
  | .error error => .error error

/-- Entries of the directory at a location may be created, removed and renamed. -/
def isChangeable (place : Location) : Bool :=
  match files.get? place with
  | some (.directory mode) => mode.isWritable && mode.isExecutable
  | _ => false

/-- The files with a new node at a location where there was nothing. -/
def create (place : Location) (node : Node) : Except FileError FileSystem :=
  if files.isChangeable place.dropLast then .ok (files.put place node)
  else .error .permissionDenied

/-- The files after a file has been given a content, and permission bits if `mode` has them. -/
def overwrite (path : Path) (content : Content) (mode : Option Mode) :
    Except FileError FileSystem :=
  let settled := mode.map fun bits => if content.isEmpty then bits else bits.afterWriting
  match files.resolve cwd .created path with
  | .ok (.existing place (.file old _)) =>
    if old.isWritable then .ok (files.put place (.file (settled.getD old.afterWriting) content))
    else .error .permissionDenied
  | .ok (.existing ..) => .error .isADirectory
  | .ok (.vacant place _) => files.create place (.file (settled.getD Mode.newFile) content)
  | .error error => .error error

/-- The files after an empty file has been created, unless it existed. One that exists has to permit
reading and writing. -/
def ensureFile (path : Path) : Except FileError FileSystem :=
  match files.resolve cwd .created path with
  | .ok (.existing _ (.file mode _)) =>
    if mode.isReadable && mode.isWritable then .ok files else .error .permissionDenied
  | .ok (.existing ..) => .error .isADirectory
  | .ok (.vacant place _) => files.create place (.file Mode.newFile Content.empty)
  | .error error => .error error

/-- The files after a directory has been created. A slash at the end of the path is ignored. -/
def makeDirectory (path : Path) : Except FileError FileSystem :=
  let names := path.segments.reverse.dropWhile String.isEmpty
  if names.isEmpty || path.endsInDots then
    match files.find cwd path with
    | .ok _ => .error .alreadyExists
    | .error error => .error error
  else
    let bare := Path.ofSegments names.reverse
    match files.resolve cwd .kept bare with
    | .ok (.existing ..) => .error .alreadyExists
    | .ok (.vacant place _) => files.create place (.directory Mode.newDirectory)
    | .error error => .error error

/-- The files without the node at a location. -/
def discardNode (place : Location) : Except FileError FileSystem :=
  if files.isChangeable place.dropLast then .ok (files.eraseTree place)
  else .error .permissionDenied

/-- The files after a file or a link has been removed. -/
def removeFile (path : Path) : Except FileError FileSystem :=
  match files.resolve cwd .kept path with
  | .ok (.existing place (.directory _)) =>
    if files.isChangeable place.dropLast then .error .isADirectory else .error .permissionDenied
  | .ok (.existing place _) => files.discardNode place
  | .ok (.vacant ..) => .error .notFound
  | .error error => .error error

/-- The node at a location is a directory that may not be listed. -/
def isUnlistable (place : Location) : Bool :=
  match files.get? place with
  | some (.directory mode) => !mode.isReadable
  | _ => false

/-- Remove nodes one after the other, up to one that cannot be removed. Before that a directory is
listed, and all that it contains is removed. -/
def discardAll : List Location → FileSystem → Except FileError Unit × FileSystem
  | [], files => (.ok (), files)
  | place :: rest, files =>
    if files.isUnlistable place || files.isUnlistable place.dropLast then
      (.error .permissionDenied, files)
    else
      match files.discardNode place with
      | .ok remaining => discardAll rest remaining
      | .error error => (.error error, files)

/-- Remove a directory with everything below it, or a link alone. -/
def removeTree (path : Path) : Except FileError Unit × FileSystem :=
  match files.resolve cwd .kept path with
  | .ok (.existing _ (.file ..)) => (.error .notADirectory, files)
  | .ok (.existing place (.link _)) =>
    match files.discardNode place with
    | .ok remaining => (.ok (), remaining)
    | .error error => (.error error, files)
  | .ok (.existing place (.directory _)) =>
    if files.isUnlistable place then (.error .permissionDenied, files)
    else
      let (emptied, remaining) :=
        discardAll ((files.below place).reverse.map fun entry => place ++ entry.1) files
      match emptied, remaining.discardNode place with
      | .error error, _ => (.error error, remaining)
      | .ok (), .error error => (.error error, remaining)
      | .ok (), .ok rest => (.ok (), rest)
  | .ok (.vacant ..) => (.error .notFound, files)
  | .error error => (.error error, files)

/-- The files after the node at a location has been moved with everything below it. -/
def moveTree (source target : Location) (node : Node) : FileSystem :=
  (files.below source).foldl (fun moved entry => moved.put (target ++ entry.1) entry.2)
    (((files.eraseTree source).eraseTree target).put target node)

/-- The entries at two locations may be replaced by one another. -/
def canRename (place other : Location) : Bool :=
  files.isChangeable place.dropLast && files.isChangeable other.dropLast

/-- The files after a node has been given another name, where both paths end in names. A file does
not replace a directory, and a directory replaces only an empty directory. -/
def renameNode (source target : Path) : Except FileError FileSystem :=
  match files.resolve cwd .kept source, files.resolve cwd .kept target with
  | .error error, _ => .error error
  | .ok (.vacant ..), _ => .error .notFound
  | .ok (.existing ..), .error error => .error error
  | .ok (.existing place node), .ok (.existing other old) =>
    if place = other then .ok files
    else if !files.canRename place other then .error .permissionDenied
    else
      match node, old with
      | .directory _, .directory _ =>
        if place.isPrefixOf other then .error .invalidArgument
        else if (files.below other).isEmpty then .ok (files.moveTree place other node)
        else .error .directoryNotEmpty
      | .directory _, _ => .error .notADirectory
      | _, .directory _ => .error (if target.wantsDirectory then .notADirectory else .isADirectory)
      | _, _ => .ok (files.moveTree place other node)
  | .ok (.existing place node), .ok (.vacant other asDirectory) =>
    match node with
    | .directory _ =>
      if place.isPrefixOf other then .error .invalidArgument
      else if files.canRename place other then .ok (files.moveTree place other node)
      else .error .permissionDenied
    | _ =>
      if asDirectory then .error .notADirectory
      else if files.canRename place other then .ok (files.moveTree place other node)
      else .error .permissionDenied

/-- The files after a node has been given another name. A path that ends in dots leads to a
directory that is in use. -/
def rename (source target : Path) : Except FileError FileSystem :=
  if target.endsInDots then do
    discard (files.find cwd target)
    .error .busy
  else if source.endsInDots then do
    discard (files.find cwd source)
    .error .busy
  else files.renameNode cwd source target

/-- The files after a file has been copied with its permission bits. The target is emptied before
the source is read, so a file copied onto itself ends up empty. -/
def copy (source target : Path) : Except FileError FileSystem :=
  match files.find cwd source with
  | .ok (place, .file mode content) =>
    if !mode.isReadable then .error .permissionDenied
    else
      match files.resolve cwd .created target with
      | .ok (.existing other _) =>
        files.overwrite cwd target (if place = other then Content.empty else content) (some mode)
      | _ => files.overwrite cwd target content (some mode)
  | .ok (_, .directory mode) => .error (if mode.isReadable then .notRegular else .permissionDenied)
  | .ok (_, .link _) => .error .tooManyLinks
  | .error error => .error error

/-- The files after the permission bits of a file or directory have been set. -/
def setMode (path : Path) (mode : Mode) : Except FileError FileSystem :=
  match files.find cwd path with
  | .ok (place, .file _ content) => .ok (files.put place (.file mode content))
  | .ok (place, .directory _) => .ok (files.put place (.directory mode))
  | .ok (_, .link _) => .error .tooManyLinks
  | .error error => .error error

end FileSystem

namespace FileOperation

/-- The answer to a change that may fail, and the files afterwards. -/
def settle (files : FileSystem) : Except FileError FileSystem → Except FileError Unit × FileSystem
  | .ok changed => (.ok (), changed)
  | .error error => (.error error, files)

/-- The answer of an operation and the files afterwards; paths are seen from a working directory. -/
def run (cwd : Location) (files : FileSystem) :
    (operation : FileOperation) → Except FileError operation.Value × FileSystem
  | inspect path => (files.inspect cwd path, files)
  | list path => (files.list cwd path, files)
  | walk root => (files.walk cwd root, files)
  | read path => (files.read cwd path, files)
  | readToExtend path => (files.readToExtend cwd path, files)
  | write path content => settle files (files.overwrite cwd path content none)
  | ensureFile path => settle files (files.ensureFile cwd path)
  | makeDirectory path => settle files (files.makeDirectory cwd path)
  | removeFile path => settle files (files.removeFile cwd path)
  | removeTree path => files.removeTree cwd path
  | rename source target => settle files (files.rename cwd source target)
  | copy source target => settle files (files.copy cwd source target)
  | setMode path mode => settle files (files.setMode cwd path mode)

end FileOperation

end SketchApk
