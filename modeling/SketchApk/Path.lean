import SketchApk.Text.Lines

/-!
# Paths

A path is a text whose segments are separated by slashes. It is kept as it was written: nothing is
normalised when paths are joined or shown. What a path names is given by its *components*. A slash
at the front is the root. Empty segments are silent, and so are segments that consist of one dot,
unless such a segment stands at the front of a relative path. A segment of two dots leads to the
parent directory and is never resolved lexically. Two paths are the *same* when their components
agree.

## Main definitions

* `Path.join` : the path that a second path names, seen from a first one.
* `Path.components`, `Path.isSame` : the components of a path and equality by components.
* `Path.parent?`, `Path.fileName?`, `Path.stem?`, `Path.extension?` : parts of a path.
* `Path.withExtension` : the path with another extension.
-/

namespace SketchApk

/-- A path, as it was written. -/
structure Path where
  text : String
  deriving DecidableEq, Repr, Inhabited

/-- What a segment of a path stands for. -/
inductive Component where
  /-- The root directory, at the front of an absolute path. -/
  | root
  /-- A single dot at the front of a relative path. -/
  | here
  /-- Two dots: the parent directory. -/
  | up
  /-- The entry of that name. -/
  | name (text : String)
  deriving DecidableEq, Repr

/-- The segment that stands for a component. -/
def Component.text : Component → String
  | root => ""
  | here => "."
  | up => ".."
  | name text => text

namespace Path

/-- The segments between the slashes of a path. There is always at least one. -/
def segments (path : Path) : List String :=
  (Text.split '/' path.text.toList).map String.ofList

/-- A path is absolute when it begins with a slash. -/
def isAbsolute (path : Path) : Bool :=
  path.text.toList.head? = some '/'

/-- The path without any segment. -/
def isEmpty (path : Path) : Bool :=
  path.text.isEmpty

/-- The path that `other` names, seen from `path`. An absolute second path stands alone; otherwise
one slash separates the two, unless the first is empty or already ends in a slash. -/
def join (path other : Path) : Path :=
  if other.isAbsolute then other
  else if path.isEmpty || path.text.toList.getLast? = some '/' then ⟨path.text ++ other.text⟩
  else ⟨path.text ++ "/" ++ other.text⟩

instance : HDiv Path String Path := ⟨fun path name => path.join ⟨name⟩⟩

/-- The path of an entry below `path`, given by the names that lead to it. -/
def descend (path : Path) (names : List String) : Path :=
  names.foldl (· / ·) path

/-- A segment that names nothing: an empty one or a single dot. -/
def isSilent (segment : String) : Bool :=
  segment = "" || segment = "."

/-- What a segment that is not silent stands for. -/
def segmentComponent (segment : String) : Component :=
  if segment = ".." then .up else .name segment

/-- The components of a path. -/
def components (path : Path) : List Component :=
  let loud (segments : List String) : List Component :=
    (segments.filter (!isSilent ·)).map segmentComponent
  match path.segments with
  | [] => []
  | first :: rest =>
    if path.isAbsolute then .root :: loud rest
    else if first = "." then .here :: loud rest
    else loud (first :: rest)

/-- Two paths are the same when their components agree. -/
def isSame (path other : Path) : Bool :=
  path.components = other.components

/-- Segments without the silent ones at their end. -/
def dropSilentEnd (segments : List String) : List String :=
  (segments.reverse.dropWhile isSilent).reverse

/-- Segments with slashes between them. -/
def ofSegments (segments : List String) : Path :=
  ⟨"/".intercalate segments⟩

/-- A path split before its last component: the text up to the end of the component before, and the
segment of the last component itself. The root and the empty path have no last component. -/
def splitLast? (path : Path) : Option (Path × String) :=
  match path.segments with
  | [] => none
  | first :: rest =>
    match (dropSilentEnd rest).getLast? with
    | some last =>
      let before := dropSilentEnd (dropSilentEnd rest).dropLast
      if path.isAbsolute && before.isEmpty then some (⟨"/"⟩, last)
      else some (ofSegments (first :: before), last)
    | none => if path.isAbsolute || first.isEmpty then none else some (⟨""⟩, first)

/-- The path without its last component. -/
def parent? (path : Path) : Option Path :=
  path.splitLast?.map (·.1)

/-- The path and the directories above it, from the path upwards, at most `count` of them. -/
def ancestorsUpTo : (count : Nat) → Path → List Path
  | 0, path => [path]
  | count + 1, path =>
    match path.parent? with
    | some parent => path :: ancestorsUpTo count parent
    | none => [path]

/-- The path and all directories above it, from the path upwards. Each is shorter than the one
before it. -/
def ancestors (path : Path) : List Path :=
  ancestorsUpTo path.text.length path

/-- The last component of a path, when it is a name. -/
def fileName? (path : Path) : Option String :=
  match path.splitLast? with
  | some (_, last) => if isSilent last || last = ".." then none else some last
  | none => none

/-- A file name split at its last dot. A name whose only dot is at the front is not split. -/
def splitName (name : String) : String × Option String :=
  match (Text.split '.' name.toList).reverse with
  | last :: previous :: earlier =>
    let stem := Text.join '.' (previous :: earlier).reverse
    if stem.isEmpty then (name, none) else (String.ofList stem, some (String.ofList last))
  | _ => (name, none)

/-- The file name without its extension. -/
def stem? (path : Path) : Option String :=
  path.fileName?.map fun name => (splitName name).1

/-- The part of the file name behind its last dot. -/
def extension? (path : Path) : Option String :=
  path.fileName?.bind fun name => (splitName name).2

/-- The text of a path up to the beginning of its last component. -/
def beforeLast (path : Path) : String :=
  match path.segments with
  | [] => ""
  | first :: rest =>
    if (dropSilentEnd rest).isEmpty then ""
    else "/".intercalate (first :: (dropSilentEnd rest).dropLast) ++ "/"

/-- The path with the given extension in place of its own. A path without a file name is left as it
is. -/
def withExtension (path : Path) (extension : String) : Path :=
  match path.stem? with
  | some stem => ⟨path.beforeLast ++ stem ++ "." ++ extension⟩
  | none => path

end Path

instance : ToString Path := ⟨Path.text⟩

end SketchApk
