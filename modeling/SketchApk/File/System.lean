import Std.Data.ExtTreeMap.Lemmas
import SketchApk.File.Content
import SketchApk.File.Error

/-!
# The tree of files

A file system maps *locations* to nodes. A location is the list of names that lead from the root to
a node, so links and relative paths play no part in it. A node is a regular file, a directory or a
symbolic link. Files and directories carry permission bits.

Two file systems with the same node at every location are equal (`FileSystem.ext`), and locations
are ordered name by name. In that order a directory stands before everything below it, and the
contents of sibling directories do not mix.

## Main definitions

* `FileSystem.get?` : the node at a location, the view of a file system.
* `FileSystem.put`, `FileSystem.eraseTree` : the two ways in which file systems change.
* `FileSystem.below`, `FileSystem.children` : what lies below a directory, in order.
-/

namespace SketchApk

/-- The names that lead from the root to a node. -/
abbrev Location := List String

/-- Permission bits of a file or a directory. -/
abbrev Mode := BitVec 12

namespace Mode

/-- The permission bits of a new file. -/
def newFile : Mode := 0o644

/-- The permission bits of a new directory. -/
def newDirectory : Mode := 0o755

/-- The owner may read the file or list the directory. -/
def isReadable (mode : Mode) : Bool :=
  mode &&& 0o400 != 0

/-- The owner may write to the file or change the entries of the directory. -/
def isWritable (mode : Mode) : Bool :=
  mode &&& 0o200 != 0

/-- The owner may execute the file or search the directory. -/
def isExecutable (mode : Mode) : Bool :=
  mode &&& 0o100 != 0

/-- Some class of users may execute the file. -/
def hasExecutors (mode : Mode) : Bool :=
  mode &&& 0o111 != 0

/-- The permission bits of a file that has been written to: it no longer runs on behalf of its owner,
nor of its group if that may execute it. -/
def afterWriting (mode : Mode) : Mode :=
  let own := mode &&& 0o3777
  if mode &&& 0o010 != 0 then own &&& 0o5777 else own

end Mode

/-- One node of the tree of files. -/
inductive Node where
  | file (mode : Mode) (content : Content)
  | directory (mode : Mode)
  | link (target : Path)

instance : Inhabited Node := ⟨.directory Mode.newDirectory⟩

/-- The tree of files. -/
structure FileSystem where
  nodes : Std.ExtTreeMap Location Node

namespace FileSystem

/-- The file system that consists of the root directory. -/
def root : FileSystem :=
  ⟨(∅ : Std.ExtTreeMap Location Node).insert [] (.directory Mode.newDirectory)⟩

instance : Inhabited FileSystem := ⟨root⟩

/-- The node at a location. -/
def get? (files : FileSystem) (place : Location) : Option Node :=
  files.nodes[place]?

/-- The file system with a node at a location, in place of any that was there. -/
def put (files : FileSystem) (place : Location) (node : Node) : FileSystem :=
  ⟨files.nodes.insert place node⟩

/-- The file system without the node at a location and everything below it. -/
def eraseTree (files : FileSystem) (place : Location) : FileSystem :=
  ⟨files.nodes.filter fun other _ => !place.isPrefixOf other⟩

/-- Everything below a location: the names that lead there from the location, and the node. The
order is that of locations. -/
def below (files : FileSystem) (place : Location) : List (Location × Node) :=
  files.nodes.toList.filterMap fun entry =>
    if place.isPrefixOf entry.1 && place.length < entry.1.length then
      some (entry.1.drop place.length, entry.2)
    else none

/-- The entries of a directory, by name. -/
def children (files : FileSystem) (place : Location) : List (String × Node) :=
  (files.below place).filterMap fun entry =>
    match entry.1 with
    | [name] => some (name, entry.2)
    | _ => none

/-- Two file systems with the same node at every location are equal. -/
theorem ext {files other : FileSystem} (h : ∀ place, files.get? place = other.get? place) :
    files = other := by
  cases files
  cases other
  congr 1
  exact Std.ExtTreeMap.ext_getElem? h

@[simp] theorem get?_put_self (files : FileSystem) (place : Location) (node : Node) :
    (files.put place node).get? place = some node := by
  simp [get?, put]

theorem get?_put (files : FileSystem) (place other : Location) (node : Node) :
    (files.put place node).get? other = if place = other then some node else files.get? other := by
  simp [get?, put, Std.ExtTreeMap.getElem?_insert]

theorem get?_eraseTree (files : FileSystem) (place other : Location) :
    (files.eraseTree place).get? other =
      if place.isPrefixOf other then none else files.get? other := by
  simp only [get?, eraseTree, Std.ExtTreeMap.getElem?_filter']
  cases files.nodes[other]? <;> by_cases hp : place.isPrefixOf other <;> simp [hp]

end FileSystem

end SketchApk
