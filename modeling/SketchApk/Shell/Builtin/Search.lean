import SketchApk.Shell.Builtin.System
import SketchApk.Shell.Parser

/-!
# Searching commands

A command is a function, a command of the shell itself, or a program, which is searched in the
directories of a list unless its name has a slash. Some commands of the shell are special: variables
that are assigned in front of them keep their values, and their failures end the shell.

## Main definitions

* `Shell.searchProgram` : the paths at which a program may be found.
* `Shell.describe` : what a name means.
-/

namespace SketchApk.Shell

/-- The commands of the shell other than the special ones. -/
def ordinaryCommands : List String :=
  ["[", "alias", "bg", "cd", "command", "echo", "false", "fg", "getopts", "hash", "jobs", "kill",
    "printf", "pwd", "read", "test", "true", "type", "ulimit", "umask", "unalias", "wait"]

/-- The name is that of a command of the shell. -/
def isBuiltin (name : String) : Bool :=
  name ∈ specialCommands || name ∈ ordinaryCommands

/-- The paths at which a program may be found, the first of which leads to a file, or why there is
none. -/
def searchAmong (name : String) (reason : FileError) : List String →
    Exec (Except FileError (List String))
  | [] => return .error reason
  | directory :: rest => do
    let path := inDirectory directory name
    match ← Steps.call (.findNode (Octets.toPath path) true) with
    | .ok (_, .file ..) => return .ok (path :: rest.map (inDirectory · name))
    | .ok _ => searchAmong name .permissionDenied rest
    | .error error =>
      searchAmong name (if error = .notFound || error = .notADirectory then reason else error) rest

/-- The paths at which a program may be found, or why there is none. -/
def searchProgram (path name : String) : Exec (Except FileError (List String)) :=
  if '/' ∈ name.toList then return .ok [name]
  else searchAmong name .notFound (splitPath path)

/-- The wording of an error of a program that was to be executed. -/
def programError (error : FileError) : String :=
  if error = .notFound || error = .notADirectory then "not found" else error.reason

/-- The list of directories in which programs are searched. -/
def State.path (state : State) : String :=
  (state.lookup? "PATH").getD usualPath

/-- Tell what a name means. -/
def describe (path name : String) (verbose : Bool) : Exec Nat := do
  let state ← get
  let tell (description : String) : Exec Nat := do
    printText ((if verbose then name ++ " is " ++ description else name) ++ "\n")
    return 0
  if name ∈ reservedWords then tell "a shell keyword"
  else if (state.functions.lookup name).isSome then tell "a shell function"
  else if name ∈ specialCommands then tell "a special shell builtin"
  else if name ∈ ordinaryCommands then tell "a shell builtin"
  else
    let found? : Option String ←
      if '/' ∈ name.toList then do
        match ← Steps.call (.findNode (Octets.toPath name) true) with
        | .ok (_, .file ..) => pure (some name)
        | _ => pure none
      else do
        match ← searchProgram path name with
        | .ok (path :: _) => pure (some path)
        | _ => pure none
    match found? with
    | some found =>
      printText ((if verbose then name ++ " is " ++ found else found) ++ "\n")
      return 0
    | none =>
      if verbose then printText (name ++ ": not found\n")
      return 127

/-- Tell what names mean. -/
def describeAll (names : List String) : Exec Nat := do
  let path := (← get).path
  let mut status := 0
  for name in names do
    let result ← describe path name true
    if result ≠ 0 then status := result
  return status

/-- Look for programs without starting them. -/
def hash (arguments : List String) : Exec Nat := do
  let (_, names) ← takeOptions "rv" arguments
  let path := (← get).path
  let mut status := 0
  for name in names do
    unless isBuiltin name do
      match ← searchProgram path name with
      | .ok _ => pure ()
      | .error error =>
        warn (name ++ ": " ++ programError error)
        status := 1
  return status

end SketchApk.Shell
