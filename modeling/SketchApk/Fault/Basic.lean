import SketchApk.Fault.Cause

/-!
# Faults

A fault is a cause together with the activities during which it arose. Activities are added as a
fault passes from the operation that failed to those that needed it, so the outermost activity comes
first. The messages of a fault form a chain, from the outermost activity to the cause, and are shown
with colons between them.

## Main definitions

* `Activity` : what was being done when a fault arose.
* `Cause` : what went wrong.
* `Fault` : a cause with its activities; `Fault.chain` and `Fault.message` show it.
-/

namespace SketchApk

/-- What was being done when a fault arose. -/
inductive Activity where
  | readingSketch (path : Path)
  | reading (path : Path)
  | readingToolchain (path : Path)
  | parsingToolchain (path : Path)
  | readingMetadata (path : Path)
  | makingExecutable (path : Path)
  | walking (root : Path)
  | creatingDirectory (path : Path)
  | removing (path : Path)
  | removingStaleOutput (path : Path)
  | removingStaleDirectory (path : Path)
  | removingStaleFile (path : Path)
  | creating (path : Path)
  | opening (path : Path)
  | writing (path : Path)
  | copying (source target : Path)
  | restricting (path : Path)
  | creatingLock (path : Path)
  | readingArchive (path : Path)
  | addingEntry (name : String)
  | finishing (path : Path)
  | buildingClasspath
  | spawning (program : Path)
  | digesting (path : Path)
  | writingReport (path : Path)
  | creatingParent (path : Path)
  | writingTemporary (path : Path)
  | renamingTemporary (source target : Path)
  | preparing (root : Path)
  deriving DecidableEq

/-- The wording of an activity. -/
def Activity.message : Activity → String
  | readingSketch path => "reading sketch source '" ++ path.text ++ "'"
  | reading path => "reading '" ++ path.text ++ "'"
  | readingToolchain path => "reading toolchain config '" ++ path.text ++ "'"
  | parsingToolchain path => "parsing toolchain config '" ++ path.text ++ "'"
  | readingMetadata path => "reading metadata of '" ++ path.text ++ "'"
  | makingExecutable path => "making '" ++ path.text ++ "' executable"
  | walking root => "walking '" ++ root.text ++ "'"
  | creatingDirectory path => "creating directory '" ++ path.text ++ "'"
  | removing path => "removing '" ++ path.text ++ "'"
  | removingStaleOutput path => "removing stale output '" ++ path.text ++ "'"
  | removingStaleDirectory path => "removing stale directory '" ++ path.text ++ "'"
  | removingStaleFile path => "removing stale file '" ++ path.text ++ "'"
  | creating path => "creating '" ++ path.text ++ "'"
  | opening path => "opening '" ++ path.text ++ "'"
  | writing path => "writing '" ++ path.text ++ "'"
  | copying source target => "copying '" ++ source.text ++ "' to '" ++ target.text ++ "'"
  | restricting path => "restricting '" ++ path.text ++ "'"
  | creatingLock path => "Failed to create lock file: " ++ path.text
  | readingArchive path => "reading archive '" ++ path.text ++ "'"
  | addingEntry name => "adding '" ++ name ++ "' to archive"
  | finishing path => "finishing '" ++ path.text ++ "'"
  | buildingClasspath => "building javac classpath"
  | spawning program => "spawning '" ++ program.text ++ "'"
  | digesting path => "Failed to open " ++ path.text
  | writingReport path => "writing build report '" ++ path.text ++ "'"
  | creatingParent path => "creating parent directory '" ++ path.text ++ "'"
  | writingTemporary path => "writing temp file '" ++ path.text ++ "'"
  | renamingTemporary source target =>
    "renaming temp file '" ++ source.text ++ "' to '" ++ target.text ++ "'"
  | preparing root => "preparing project '" ++ root.text ++ "'"

/-- What went wrong. -/
inductive Cause where
  | file (error : FileError)
  /-- A walk through a tree has come to a halt at a path. -/
  | walk (path : Path) (error : FileError)
  | tool (error : ToolError)
  | archive (error : ArchiveError)
  | config (error : ConfigError)
  | preflight (error : PreflightError)
  | stage (error : StageError)
  | build (error : BuildError)
  | project (error : ProjectError)
  | command (error : CommandError)
  /-- The description of a toolchain is not of its form. -/
  | malformedToolchain
  /-- A report has no directory to be written to. -/
  | reportWithoutParent (path : Path)
  deriving DecidableEq

/-- The messages of a cause; some causes name a further one. -/
def Cause.messages : Cause → List String
  | file error => [error.message]
  | walk path error =>
    ["IO error for operation on " ++ path.text ++ ": " ++ error.message, error.message]
  | tool error => [error.message]
  | archive error => [error.message]
  | config error => error.messages
  | preflight error => [error.message]
  | stage error => [error.message]
  | build error => [error.message]
  | project error => [error.message]
  | command error => [error.message]
  | malformedToolchain => ["TOML parse error"]
  | reportWithoutParent path => ["path without parent '" ++ path.text ++ "'"]

/-- A cause with the activities during which it arose, the outermost first. -/
structure Fault where
  activities : List Activity := []
  cause : Cause
  deriving DecidableEq

namespace Fault

/-- The fault as it appears to a surrounding activity. -/
def during (fault : Fault) (activity : Activity) : Fault :=
  { fault with activities := activity :: fault.activities }

/-- The messages of a fault, from the outermost activity to the cause. -/
def chain (fault : Fault) : List String :=
  fault.activities.map Activity.message ++ fault.cause.messages

/-- The messages of a fault with colons between them. -/
def message (fault : Fault) : String :=
  ": ".intercalate fault.chain

/-- The outermost message of a fault. -/
def headline (fault : Fault) : String :=
  fault.chain.headD ""

/-- A fault comes from an interrupted tool. -/
def isInterruption (fault : Fault) : Bool :=
  match fault.cause with
  | .tool (.interrupted _) => true
  | _ => false

end Fault

instance : Coe Cause Fault := ⟨fun cause => { cause }⟩

end SketchApk
