import SketchApk.File.System

/-!
# Where a path leads

A path is followed name by name from the root, or from a working directory when it is relative. Two
dots lead to the directory above, and from the root to itself. A symbolic link met on the way is
replaced by its target, seen from the directory that holds the link; at the end of the path it
depends on the operation whether a link is followed. At most forty links are followed. Everything
but the last name has to be a directory that may be searched, and the last one has to be a directory
when the path ends in a slash.

A path may lead to a place where there is nothing yet, as long as its directory exists. Operations
that create a file or directory use that place.

## Main definitions

* `Target` : where a path leads.
* `LastName` : what an operation does with the last name of a path.
* `FileSystem.resolve` : the target of a path.
-/

namespace SketchApk

/-- Where a path leads. -/
inductive Target where
  /-- A node and its location. -/
  | existing (place : Location) (node : Node)
  /-- A location without a node in an existing directory. The flag tells that the path ends like
  the path of a directory. -/
  | vacant (place : Location) (asDirectory : Bool)

/-- What an operation does with the last name of a path. -/
inductive LastName where
  /-- A link stands for itself. -/
  | kept
  /-- A link stands for its target. -/
  | followed
  /-- A link stands for its target, and a file is created where there is nothing. A name with a slash
  behind it cannot be the name of a file. -/
  | created
  deriving DecidableEq, Repr

/-- The longest name of a file, in bytes. -/
def maxNameBytes : Nat := 255

/-- The longest path, in bytes. -/
def maxPathBytes : Nat := 4095

/-- The number of links that are followed on the way. -/
def maxLinks : Nat := 40

namespace Path

/-- The names on the way that a path describes; dots count as names. -/
def names (path : Path) : List String :=
  path.segments.filter (!·.isEmpty)

/-- A path that ends in a slash wants a directory. -/
def wantsDirectory (path : Path) : Bool :=
  path.text.toList.getLast? = some '/'

/-- The last segment of a path, slashes at its end aside, consists of one or two dots. -/
def endsInDots (path : Path) : Bool :=
  match path.segments.reverse.dropWhile String.isEmpty with
  | last :: _ => last = "." || last = ".."
  | [] => false

end Path

namespace FileSystem

/-- The directory at a location may be searched for names. -/
def isSearchable (files : FileSystem) (place : Location) : Bool :=
  match files.get? place with
  | some (.directory mode) => mode.isExecutable
  | _ => false

/-- The target of the names that lead on from a place, which is a directory. A link is handed to
`jump`, together with the place of its directory and the names that remain. -/
def descend (files : FileSystem) (last : LastName) (asDirectory : Bool)
    (jump : Location → Path → List String → Except FileError Target) :
    Location → List String → Except FileError Target
  | place, [] =>
    match files.get? place with
    | some node => .ok (.existing place node)
    | none => .error .notFound
  | place, name :: rest =>
    if !files.isSearchable place then .error .permissionDenied
    else if name = "." then descend files last asDirectory jump place rest
    else if name = ".." then descend files last asDirectory jump place.dropLast rest
    else if last = .created && asDirectory && rest.isEmpty then .error .isADirectory
    else if maxNameBytes < name.utf8ByteSize then .error .nameTooLong
    else
      match files.get? (place ++ [name]) with
      | none =>
        if rest.isEmpty then .ok (.vacant (place ++ [name]) asDirectory) else .error .notFound
      | some (.directory _) => descend files last asDirectory jump (place ++ [name]) rest
      | some (.file mode content) =>
        if rest.isEmpty && !asDirectory then .ok (.existing (place ++ [name]) (.file mode content))
        else .error .notADirectory
      | some (.link target) =>
        if rest.isEmpty && last = .kept && !asDirectory then
          .ok (.existing (place ++ [name]) (.link target))
        else jump place target rest

/-- The target of the names that lead on from a place, following at most `links` links. -/
def resolveNames (files : FileSystem) (last : LastName) :
    (links : Nat) → (asDirectory : Bool) → Location → List String → Except FileError Target
  | 0, asDirectory, place, names =>
    descend files last asDirectory (fun _ _ _ => .error .tooManyLinks) place names
  | links + 1, asDirectory, place, names =>
    descend files last asDirectory
      (fun here target rest =>
        resolveNames files last links (asDirectory || rest.isEmpty && target.wantsDirectory)
          (if target.isAbsolute then [] else here) (target.names ++ rest))
      place names

/-- The target of a path, seen from a working directory. -/
def resolve (files : FileSystem) (cwd : Location) (last : LastName) (path : Path) :
    Except FileError Target :=
  if '\x00' ∈ path.text.toList then .error .nullInPath
  else if path.isEmpty then .error .notFound
  else if maxPathBytes < path.text.utf8ByteSize then .error .nameTooLong
  else
    resolveNames files last maxLinks path.wantsDirectory (if path.isAbsolute then [] else cwd)
      path.names

/-- The node that a path leads to, links followed, with its location. -/
def find (files : FileSystem) (cwd : Location) (path : Path) :
    Except FileError (Location × Node) :=
  match files.resolve cwd .followed path with
  | .ok (.existing place node) => .ok (place, node)
  | .ok (.vacant _ _) => .error .notFound
  | .error error => .error error

end FileSystem

end SketchApk
