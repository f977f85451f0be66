import SketchApk.Shell.Start
import SketchApk.Utility.Characters
import SketchApk.Utility.Dump
import SketchApk.Utility.Editing
import SketchApk.Utility.Expression
import SketchApk.Utility.Finding
import SketchApk.Utility.Launching
import SketchApk.Utility.Listing
import SketchApk.Utility.Ordering
import SketchApk.Utility.Search
import SketchApk.Utility.Session
import SketchApk.Utility.Sorting

/-!
# Standard programs

The programs that every system has: a shell and utilities. Each is a file in the directory of programs,
whose content is the *image* of the program. A copy of the file is the same program.

## Main definitions

* `Program.standard` : the programs by their names.
* `Program.image`, `Program.nameOfImage?` : the content of the files of programs, and back.
* `Program.systemFiles` : the tree of files with all programs.
-/

namespace SketchApk.Program

/-- The names of the shell. -/
def shellNames : List String :=
  ["sh", "dash", "bash"]

open Utility in
/-- The utilities by their names. -/
def utilities : List (String × Utility) :=
  [("[", testWords true), ("arch", printing "x86_64"), ("base64", encodeBytes),
    ("basename", printLastParts), ("cat", concatenate), ("chmod", setPermissions),
    ("cmp", compareFiles), ("comm", compareSorted), ("cp", copyFiles), ("cut", cutLines),
    ("dd", copyBlocks), ("dirname", printFrontParts), ("echo", printWords),
    ("egrep", searchExtended), ("env", runInEnvironment), ("expand", expandLines),
    ("expr", printValue), ("false", ending 1), ("fgrep", searchTexts), ("find", findFiles),
    ("fold", foldLines), ("grep", searchFiles), ("head", printHeads),
    ("hostname", printing "localhost"), ("id", identifyUser), ("install", installFiles),
    ("kill", signalProcesses), ("ln", makeLinks), ("ls", listFiles), ("mkdir", makeDirectories),
    ("mktemp", makeTemporary), ("mv", moveFiles), ("nice", runNicely), ("nl", numberLines),
    ("nohup", runImmune), ("nproc", printing "1"), ("od", dumpBytes), ("paste", pasteFiles),
    ("printenv", printVariables), ("printf", printInFormat), ("pwd", printDirectory),
    ("readlink", printLinkTargets), ("realpath", printRealPaths), ("rev", printReversedLines),
    ("rm", removeFiles), ("rmdir", removeDirectories), ("sed", editFiles), ("seq", countOff),
    ("sha256sum", digestFiles), ("sleep", letTimePass), ("sort", sortLines),
    ("stat", printStatus), ("sync", ending 0), ("tac", printBackwards), ("tail", printTails),
    ("tee", copyInput), ("test", testWords false), ("timeout", runForTime), ("touch", touchFiles),
    ("tr", replaceCharacters), ("true", ending 0), ("truncate", truncateFiles),
    ("uname", describeSystem), ("uniq", uniteLines), ("wc", countFiles),
    ("which", locatePrograms), ("whoami", printing userName), ("xargs", runWithInput),
    ("yes", repeatWords)]

/-- The names of all standard programs. -/
def names : List String :=
  shellNames ++ utilities.map (·.1)

/-- The process of a standard program. -/
def start? (name : String) (launcher : Launcher) (launch : Launch) : Option Process :=
  if name ∈ shellNames then some (Shell.start launcher launch)
  else (List.lookup name utilities).map fun utility => utility.start launcher launch

/-- The bytes with which images begin. -/
def imageMark : List UInt8 :=
  [0x7f, 0x45, 0x4c, 0x46, 0x02, 0x01, 0x01, 0x00]

/-- The image of a program. -/
def image (name : String) : Content :=
  .bytes ⟨(imageMark ++ name.toUTF8.data.toList).toArray⟩

/-- The name of the program with an image. -/
def nameOfImage? (content : Content) : Option String :=
  let bytes := content.toBytes.data.toList
  if imageMark.isPrefixOf bytes then Bytes.text? ⟨(bytes.drop imageMark.length).toArray⟩ else none

/-- The permission bits of a directory that belongs to the system. -/
def systemMode : Mode := 0o555

/-- The directory of programs. -/
def directory : Location := ["usr", "bin"]

/-- The directories of the system, each behind the one in which it is. -/
def systemDirectories : List (Location × Mode) :=
  [([], systemMode), (["dev"], systemMode), (["etc"], systemMode), (["home"], systemMode),
    (["opt"], systemMode), (["proc"], systemMode), (["root"], systemMode), (["run"], systemMode),
    (["srv"], systemMode), (["tmp"], 0o1777), (["usr"], systemMode), (directory, systemMode),
    (["usr", "lib"], systemMode), (["usr", "local"], systemMode),
    (["usr", "local", "bin"], systemMode), (["usr", "sbin"], systemMode),
    (["usr", "share"], systemMode), (["var"], systemMode), (["var", "tmp"], 0o1777)]

/-- The links of the system with their targets. -/
def systemLinks : List (Location × String) :=
  [(["bin"], "usr/bin"), (["lib"], "usr/lib"), (["sbin"], "usr/sbin")]

/-- The tree of files with all programs. -/
def systemFiles : FileSystem :=
  let withDirectories := systemDirectories.foldl (fun files entry =>
    files.put entry.1 (.directory entry.2)) FileSystem.root
  let withLinks := systemLinks.foldl (fun files entry =>
    files.put entry.1 (.link ⟨entry.2⟩)) withDirectories
  let withDevices := ["null", "zero", "full"].foldl (fun files name =>
    files.put ["dev", name] (.file 0o666 Content.empty)) withLinks
  names.foldl (fun files name => files.put (directory ++ [name]) (.file 0o755 (image name))) withDevices

end SketchApk.Program
