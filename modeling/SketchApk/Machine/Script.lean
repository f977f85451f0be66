import SketchApk.File.Operation
import SketchApk.Tool.Basic

/-!
# Scripted tools

A script says how tools behave. A tool is looked up by its name and first argument, then by its name
alone. Where several behaviours are listed, each call uses up one of them, and the last one stays. A
tool that the script does not mention succeeds without doing anything.

A tool changes files: it puts a node to a path, removes what is there, or copies a file. The
directories above a new node are created when they are missing. A change that cannot be made has no
effect.

## Main definitions

* `FileChange`, `FileSystem.change` : the changes, and the files after a change.
* `ToolBehaviour` : what happens in a call.
* `ToolScript.take` : the behaviour of a call, and the script for later calls.
-/

namespace SketchApk

/-! ### Changes of files -/

/-- What a change puts to a path. -/
inductive NewNode where
  | file (content : Content)
  | directory
  | link (target : Path)

/-- A change of files. -/
inductive FileChange where
  /-- Put a node to a path, with permission bits unless the usual ones are meant. -/
  | put (path : Path) (node : NewNode) (mode : Option Mode)
  /-- Remove a file, or a directory with everything below it. -/
  | remove (path : Path)
  /-- Copy a file. -/
  | copy (source target : Path)

namespace FileSystem

variable (cwd : Location)

/-- The files with some directories, the outermost last. -/
def withDirectories (files : FileSystem) (paths : List Path) : FileSystem :=
  paths.foldr (fun path files => (files.makeDirectory cwd path).toOption.getD files) files

/-- The files with the directories that lead to a path. -/
def withParents (files : FileSystem) (path : Path) : FileSystem :=
  files.withDirectories cwd (path.ancestors.drop 1)

/-- The files with a node at a path whose directory exists. -/
def putNode (files : FileSystem) (path : Path) : NewNode → FileSystem
  | .file content => (files.overwrite cwd path content none).toOption.getD files
  | .directory => files.withDirectories cwd [path]
  | .link target =>
    match files.resolve cwd .kept path with
    | .ok (.vacant place _) => files.put place (.link target)
    | .ok (.existing place (.link _)) => files.put place (.link target)
    | _ => files

/-- The files after a change. -/
def change (files : FileSystem) : FileChange → FileSystem
  | .put path node mode =>
    let placed := (files.withParents cwd path).putNode cwd path node
    match mode with
    | some bits => (placed.setMode cwd path bits).toOption.getD placed
    | none => placed
  | .remove path =>
    match files.removeTree cwd path with
    | (.ok (), rest) => rest
    | (.error _, rest) => (rest.removeFile cwd path).toOption.getD rest
  | .copy source target =>
    ((files.withParents cwd target).copy cwd source target).toOption.getD files

/-- The files after some changes, one after the other. -/
def changes (files : FileSystem) (changes : List FileChange) : FileSystem :=
  changes.foldl (·.change cwd) files

end FileSystem

/-! ### Scripts -/

/-- How a call ends. -/
inductive CallEnd where
  /-- The tool ends and leaves an output. -/
  | output (output : ToolOutput)
  /-- The tool is interrupted. -/
  | interrupt
  /-- The tool is not started, for the reason given. -/
  | refuse (reason : String)

/-- What happens in a call of a tool, in this order. -/
structure ToolBehaviour where
  /-- The call waits until it is released. A request to stop interrupts it. -/
  waits : Bool := false
  /-- The call requests a stop. -/
  requestsStop : Bool := false
  changes : List FileChange := []
  ending : CallEnd := .output ⟨some 0, "", ""⟩

instance : Inhabited ToolBehaviour := ⟨{}⟩

/-- How tools behave, by the keys under which they are looked up. -/
abbrev ToolScript := List (String × List ToolBehaviour)

namespace ToolScript

/-- The keys under which a call is looked up. -/
def keys (invocation : Invocation) : List String :=
  match invocation.arguments with
  | first :: _ => [invocation.toolName ++ " " ++ first, invocation.toolName]
  | [] => [invocation.toolName]

/-- The key under which a call is found. -/
def key? (script : ToolScript) (invocation : Invocation) : Option String :=
  (keys invocation).find? fun key => (List.lookup key script).isSome

/-- The behaviours that are left after one call. -/
def used : List ToolBehaviour → List ToolBehaviour
  | _ :: next :: rest => next :: rest
  | behaviours => behaviours

/-- The behaviour of a call, and the script for later calls. -/
def take (script : ToolScript) (invocation : Invocation) : ToolBehaviour × ToolScript :=
  match script.key? invocation with
  | none => ({}, script)
  | some key =>
    let listed := (List.lookup key script).getD []
    (listed.headD {}, script.map fun entry =>
      if entry.1 = key then (key, used entry.2) else entry)

end ToolScript

end SketchApk
