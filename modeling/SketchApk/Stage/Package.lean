import SketchApk.Stage.Basic

/-!
# Packages

Files are added to an archive one by one. A file whose name occurs in the archive is refused, and
what has been added before that stays in the archive. The archive is written when packing has ended,
also when it has ended with a fault.

The name of a file from a tree consists of a text in front and the names that lead to the file from
the root of the tree, with slashes between them.

A package begins with the entries of the archive that linking has written. The bytecode follows,
each file under its own name, then the assets and the native libraries with the names that they have
in their trees. Native libraries are stored as they are, so that they can be mapped into memory.

Optimizing and aligning let a tool write a new package from the current one, and go on with the new
package.

## Main definitions

* `Packing` : plans that extend an archive.
* `Packing.addFile`, `Packing.addTree` : adding one file and all files of a tree.
* `Packing.writeTo` : packing with the resulting archive written to a file.
* `Stage.packParts` : the parts that are added to the linked resources.
* `Stage.runPackageResources` : the stage that puts the package together.
* `Stage.repackage` : writing a new package by a tool.
* `Stage.runOptimize`, `Stage.runAlign` : the stages that do so.
-/

namespace SketchApk

/-! ### Packing files into archives -/

/-- A plan that extends an archive and may end with a fault. -/
abbrev Packing := ExceptT Fault (StateT Archive Plan)

namespace Packing

variable {α : Type}

/-- The attempt as a part of packing that does not touch the archive. -/
def ofAttempt (attempt : Attempt α) : Packing α :=
  ExceptT.mk (StateT.lift attempt.run)

/-- The fault of adding an entry whose name occurs. -/
def duplicate (name : String) : Fault :=
  { activities := [.addingEntry name], cause := .archive (.duplicateName name) }

/-- Add an entry at the end of the archive. -/
def addEntry (entry : ArchiveEntry) : Packing Unit := do
  match (← get).add? entry with
  | some extended => set extended
  | none => throw (duplicate entry.name)

/-- Add a file under a name. The file is not opened when the name occurs, and an empty entry is added
when the file cannot be opened. -/
def addFile (path : Path) (name : String) (compression : Compression) : Packing Unit := do
  if name ∈ (← get).names then throw (duplicate name)
  let opening := (Attempt.file (.read path)).during (.opening path)
  match ← ofAttempt (Attempt.always opening.run) with
  | .ok content => addEntry { name, compression, data := content.toBytes }
  | .error fault =>
    addEntry { name, compression, data := ByteArray.empty }
    throw fault

/-- The name of a file of a tree; `front` is the text in front. -/
def entryName (front : String) (names : List String) : String :=
  front ++ "/".intercalate names

/-- Add the files of a tree. When the walk through the tree comes to a halt, those that it has come
across have been added. -/
def addTree (root : Path) (front : String) (compression : Compression) : Packing Nat := do
  let found ← ofAttempt (Attempt.always (Plan.walk root))
  found.files.forM fun names => addFile (root.descend names) (entryName front names) compression
  ofAttempt (Plan.throughout root found)
  return found.files.length

/-- Pack into an archive that is to be written to a file. When packing fails, it is of no account
whether the file can be written. -/
def writeTo (path : Path) (initial : Archive) (packing : Packing α) : Attempt α :=
  ExceptT.mk do
    let (result, archive) ← packing.run.run initial
    let written ← Plan.ask (.file (.write path (.ofArchive archive)))
    match result, written with
    | .error fault, _ => return .error fault
    | .ok _, .error error =>
      return .error { activities := [.finishing path], cause := .file error }
    | .ok value, .ok _ => return .ok value

end Packing

end SketchApk

namespace SketchApk.Stage

/-! ### Packaging -/

/-- Add the bytecode, the assets and the native libraries. -/
def packParts (config : BuildConfig) (bytecode : List Path) : Packing Unit := do
  bytecode.forM fun path => Packing.addFile path (path.fileName?.getD "") .deflated
  config.assetsDir.forM fun root => discard (Packing.addTree root "assets/" .deflated)
  config.nativeLibsDir.forM fun root => discard (Packing.addTree root "lib/" .stored)

/-- The archive that a file holds. -/
def openArchive (path : Path) : Attempt Archive := do
  let content ← (Attempt.file (.readToExtend path)).during (.opening path)
  match content.toArchive with
  | .ok found => return found
  | .error error => (Attempt.fail (.archive error)).during (.readingArchive path)

/-- Put the parts of the package together. -/
def runPackageResources (context : StageContext) (_package : Option Path) :
    Attempt StageOutput := do
  let layout := context.layout
  ensureExists layout.baseArchive "Linked resources archive"
  let bytecode ← collectFiles layout.dexDir "dex"
  if bytecode.isEmpty then Attempt.fail (.stage (.noDexFiles layout.dexDir))
  let target := layout.unsignedPackage
  prepareOutput target
  (Attempt.file (.copy layout.baseArchive target)).during (.copying layout.baseArchive target)
  let linked ← openArchive target
  (packParts context.config bytecode).writeTo target linked
  return ⟨[target], some target⟩

/-! ### Optimizing and aligning -/

/-- Let a command write a new package to `output`; `what` is the name of the new package. -/
def repackage (context : StageContext) (package : Option Path) (output : Path) (what : String)
    (command : Path → Command) : Attempt StageOutput := do
  let input ← currentPackage package
  prepareOutput output
  context.runCommand (command input)
  ensureExists output what
  return ⟨[output], some output⟩

/-- The command that optimizes a package. -/
def optimizeCommand (context : StageContext) (input : Path) : Command :=
  (Command.of context.toolchain.aapt2)
    |>.args ["optimize", "-o", context.layout.optimizedPackage.text, input.text]
    |>.reporting "aapt2 optimize failed"

/-- Optimize the package. -/
def runOptimize (context : StageContext) (package : Option Path) : Attempt StageOutput :=
  repackage context package context.layout.optimizedPackage "Optimized package"
    (optimizeCommand context)

/-- The command that aligns the entries of a package to four bytes, and libraries to pages. -/
def alignCommand (context : StageContext) (input : Path) : Command :=
  (Command.of context.toolchain.zipalign)
    |>.args ["-p", "-f", "4", input.text, context.layout.alignedPackage.text]
    |>.reporting "zipalign failed"

/-- Align the package. -/
def runAlign (context : StageContext) (package : Option Path) : Attempt StageOutput :=
  repackage context package context.layout.alignedPackage "Aligned package" (alignCommand context)

end SketchApk.Stage
