import SketchApk.Utility.Basic
import SketchApk.Utility.Permission

/-!
# Utilities that change files

Copying, moving, removing and creating files, directories and links, and setting permissions. Each
operand is dealt with by itself: a complaint about one does not keep the utility from going on with the
next, but shows in the status.

## Main definitions

* `Utility.copyFiles`, `Utility.moveFiles`, `Utility.removeFiles` : existing files.
* `Utility.makeDirectories`, `Utility.makeLinks`, `Utility.touchFiles` : new files.
* `Utility.setPermissions` : permission bits.
-/

namespace SketchApk.Utility

/-- Deal with items one after the other. The status is one if one of them failed. -/
def forEach {α : Type} (step : α → Work Bool) : List α → Work Nat
  | [] => return 0
  | item :: rest => do
    let isDone ← step item
    let status ← forEach step rest
    return if isDone then status else 1

/-- Deal with items one after the other. The status is the highest of theirs. -/
def highest {α : Type} (step : α → Work Nat) : List α → Work Nat
  | [] => return 0
  | item :: rest => do
    let status ← step item
    return max status (← highest step rest)

/-- Put together what comes of items, one after the other. -/
def gather {α β : Type} (step : α → Work (List β)) : List α → Work (List β)
  | [] => return []
  | item :: rest => do
    let found ← step item
    return found ++ (← gather step rest)

/-- Complain, and tell that something failed. -/
def failed (message : String) : Work Bool := do
  complain message
  return false

/-- The last name of a path. -/
def lastName (path : String) : String :=
  ((Octets.toPath path).names.getLast?.map Octets.ofText).getD path

/-- A path without slashes at its end. -/
def withoutSlashes (path : String) : String :=
  let short := (path.toList.reverse.dropWhile (· = '/')).reverse
  if short.isEmpty then path else String.ofList short

/-- The permission bits of what a path leads to. -/
def modeAt? (path : String) : Work (Option Mode) := do
  match ← nodeAt? path true with
  | .ok (_, .file mode _) | .ok (_, .directory mode) => return some mode
  | _ => return none

/-- Set permission bits. -/
def setMode (path : String) (mode : Mode) : Work (Except FileError Unit) :=
  perform (.setMode (Octets.toPath path) mode)

/-- Where files are put that are copied or moved. -/
inductive Destination where
  /-- A path for a single file. -/
  | path (target : String)
  /-- A directory for all files. -/
  | directory (target : String)

/-- The sources and the destination among operands, where the last one or the value of an option is the
target. -/
def splitOperands (arguments : Arguments) (isDirectoryWanted isPathWanted : Bool) :
    Work (List String × Destination) := do
  match arguments.value? 't' with
  | some target =>
    if arguments.operands.isEmpty then giveUpUsage 1 "missing file operand"
    return (arguments.operands, .directory target)
  | none =>
    match arguments.operands.reverse with
    | [] => giveUpUsage 1 "missing file operand"
    | [operand] => giveUpUsage 1 ("missing destination file operand after " ++ quoted operand)
    | target :: sources =>
      if isPathWanted then
        match sources with
        | _ :: extra :: _ =>
          giveUpUsage 1 ("extra operand " ++ quoted ((sources.reverse[1]?).getD extra))
        | _ => return (sources.reverse, .path target)
      else if (← isDirectory target) || isDirectoryWanted then
        return (sources.reverse, .directory target)
      else if 1 < sources.length then
        let reason :=
          match ← nodeAt? target true with
          | .ok _ => FileError.notADirectory
          | .error error => error
        giveUp 1 ("target " ++ quoted target ++ ": " ++ reason.reason)
      else return (sources.reverse, .path target)

/-- The target of a source. -/
def Destination.targetOf : Destination → (source : String) → String
  | .path target, _ => target
  | .directory target, source => inDirectory target (lastName source)

/-- How files are copied. -/
structure CopyStyle where
  isRecursive : Bool := false
  /-- Links are copied as links. -/
  keepsLinks : Bool := false
  /-- Targets keep their content. -/
  keepsTargets : Bool := false
  isForced : Bool := false
  keepsModes : Bool := false
  isVerbose : Bool := false

/-- Write a content to a file. A file that cannot be written to may be replaced. -/
def putContent (style : CopyStyle) (source target : String) (mode : Mode) (content : Content) :
    Work Bool := do
  if target ∈ ["/dev/null"] then return true
  else
    let old ← nodeAt? target true
    let write : Work (Except FileError Unit) := perform (.write (Octets.toPath target) content)
    let written ← do
      match ← write with
      | .error .permissionDenied =>
        if style.isForced && (old matches .ok _) then
          match ← perform (.removeFile (Octets.toPath target)) with
          | .ok () => write
          | .error error => pure (.error error)
        else pure (.error .permissionDenied)
      | other => pure other
    match written with
    | .error error =>
      let wantsDirectory := target.toList.getLast? = some '/'
      let reason := if wantsDirectory && error = .isADirectory then .notADirectory else error
      failed ("cannot create regular file " ++ quoted target ++ ": " ++ reason.reason)
    | .ok () =>
      let mask : Mode ← Steps.call (.mask none)
      unless (old matches .ok _) && !style.keepsModes do
        discard (setMode target (if style.keepsModes then mode else mode &&& 0o777 &&& ~~~mask))
      if style.isVerbose then emitLine (quoted source ++ " -> " ++ quoted target)
      return true

/-- Copy a file that is not a directory. -/
def copyFile (style : CopyStyle) (source target : String) : Node → Work Bool
  | .link path => do
    match ← nodeAt? target false with
    | .ok (_, .directory _) =>
      failed ("cannot overwrite directory " ++ quoted target ++ " with non-directory")
    | found =>
      if found matches .ok _ then discard (perform (.removeFile (Octets.toPath target)))
      match ← Steps.call (.makeLink path (Octets.toPath target)) with
      | .ok () =>
        if style.isVerbose then emitLine (quoted source ++ " -> " ++ quoted target)
        return true
      | .error error =>
        failed ("cannot create symbolic link " ++ quoted target ++ ": " ++ error.reason)
  | node => do
    match ← nodeAt? target true, ← nodeAt? source true, ← nodeAt? target false with
    | .ok (_, .directory _), _, _ =>
      failed ("cannot overwrite directory " ++ quoted target ++ " with non-directory")
    | .error .notFound, _, .ok (_, .link _) =>
      failed ("not writing through dangling symlink " ++ quoted target)
    | .ok (other, _), .ok (place, _), _ =>
      if other = place then
        failed (quoted source ++ " and " ++ quoted target ++ " are the same file")
      else if style.keepsTargets then return true
      else copyContent node
    | _, _, _ => copyContent node
where
  /-- Copy the content of a file. -/
  copyContent (node : Node) : Work Bool := do
    match ← perform (.read (Octets.toPath source)) with
    | .error error =>
      failed ("cannot open " ++ quoted source ++ " for reading: " ++ error.reason)
    | .ok content =>
      let mode :=
        match node with
        | .file mode _ => mode
        | _ => Mode.newFile
      putContent style source target mode content

/-- Copy a file, or a directory with everything below it. At most `fuel` levels are copied. -/
def copyOne (style : CopyStyle) : (fuel : Nat) → (isTop : Bool) → (source target : String) → Work Bool
  | 0, _, _, _ => return false
  | fuel + 1, isTop, source, target => do
    match ← nodeAt? source (!style.keepsLinks) with
    | .error error => failed ("cannot stat " ++ quoted source ++ ": " ++ error.reason)
    | .ok (place, .directory mode) =>
      if !style.isRecursive then
        failed ("-r not specified; omitting directory " ++ quoted source)
      else
        let existing ← nodeAt? target true
        let parent := (Octets.toPath target).parent?.map (·.text)
        let above ← nodeAt? (match parent with | some "" | none => "." | some text => text) true
        let isInside :=
          match above with
          | .ok (outer, _) => place.isPrefixOf outer
          | .error _ => false
        match existing with
        | .ok (_, .file ..) =>
          failed ("cannot overwrite non-directory " ++ quoted target ++ " with directory " ++
            quoted source)
        | _ =>
          if isTop && isInside then
            failed ("cannot copy a directory, " ++ quoted source ++ ", into itself, " ++
              quoted target)
          else
            let isNew := existing matches .error _
            let created ←
              if isNew then perform (.makeDirectory (Octets.toPath target)) else pure (.ok ())
            match created with
            | .error error =>
              failed ("cannot create directory " ++ quoted target ++ ": " ++ error.reason)
            | .ok () =>
              if isNew && style.isVerbose then
                emitLine (quoted source ++ " -> " ++ quoted target)
              match ← perform (.list (Octets.toPath source)) with
              | .error error =>
                failed ("cannot access " ++ quoted source ++ ": " ++ error.reason)
              | .ok names =>
                let status ← forEach (fun name =>
                  copyOne style fuel false (inDirectory source name) (inDirectory target name))
                  (names.map Octets.ofText)
                let mask : Mode ← Steps.call (.mask none)
                if isNew then
                  let wanted := if style.keepsModes then mode else mode &&& 0o777 &&& ~~~mask
                  discard (setMode target wanted)
                return status = 0
    | .ok (_, node) => copyFile style source target node

/-- The number of levels of directories that are dealt with. -/
def depthLimit : Nat := 4096

/-- Copy files. -/
def copyFiles : Utility := fun arguments => do
  let table : OptionTable :=
    { letters := "abdfHilLnpPrRst:Tuvx"
      long := [⟨"recursive", 'r', false, false⟩, ⟨"force", 'f', false, false⟩,
        ⟨"archive", 'a', false, false⟩, ⟨"verbose", 'v', false, false⟩,
        ⟨"no-clobber", 'n', false, false⟩, ⟨"preserve", 'p', true, true⟩,
        ⟨"dereference", 'L', false, false⟩, ⟨"no-dereference", 'P', false, false⟩,
        ⟨"no-target-directory", 'T', false, false⟩, ⟨"target-directory", 't', true, false⟩,
        ⟨"update", 'u', true, true⟩, ⟨"parents", 'D', false, false⟩] }
  let given ← table.parse arguments
  let (sources, destination) ← splitOperands given false (given.has 'T')
  let isRecursive := given.has 'r' || given.has 'R' || given.has 'a'
  let style : CopyStyle :=
    { isRecursive
      keepsLinks :=
        match given.last? ['L', 'P', 'd', 'a', 'H'] with
        | some 'L' | some 'H' => false
        | some _ => true
        | none => isRecursive
      keepsTargets := given.has 'n'
      isForced := given.has 'f'
      keepsModes := given.has 'p' || given.has 'a'
      isVerbose := given.has 'v' }
  if given.has 'n' then
    complain
      "warning: behavior of -n is non-portable and may change in future; use --update=none instead"
  forEach (fun source => copyOne style depthLimit true source (destination.targetOf source)) sources

/-- Move a file to another path. -/
def moveOne (keepsTargets isVerbose : Bool) (source target : String) : Work Bool := do
  match ← nodeAt? source false with
  | .error error => failed ("cannot stat " ++ quoted source ++ ": " ++ error.reason)
  | .ok (place, node) =>
    let old ← nodeAt? target false
    let isSourceDirectory := node matches .directory _
    match old with
    | .ok (other, existing) =>
      if keepsTargets then return true
      else if other = place then
        failed (quoted source ++ " and " ++ quoted target ++ " are the same file")
      else if (existing matches .directory _) && !isSourceDirectory then
        failed ("cannot overwrite directory " ++ quoted target ++ " with non-directory")
      else if !(existing matches .directory _) && isSourceDirectory then
        failed ("cannot overwrite non-directory " ++ quoted target ++ " with directory " ++
          quoted source)
      else rename
    | .error _ => rename
where
  /-- Give the file its new name. -/
  rename : Work Bool := do
    match ← perform (.rename (Octets.toPath source) (Octets.toPath target)) with
    | .ok () =>
      if isVerbose then emitLine ("renamed " ++ quoted source ++ " -> " ++ quoted target)
      return true
    | .error .invalidArgument =>
      failed ("cannot move " ++ quoted source ++ " to a subdirectory of itself, " ++ quoted target)
    | .error error =>
      failed ("cannot move " ++ quoted source ++ " to " ++ quoted target ++ ": " ++ error.reason)

/-- Move files. -/
def moveFiles : Utility := fun arguments => do
  let table : OptionTable :=
    { letters := "bfint:Tuv"
      long := [⟨"force", 'f', false, false⟩, ⟨"verbose", 'v', false, false⟩,
        ⟨"no-clobber", 'n', false, false⟩, ⟨"no-target-directory", 'T', false, false⟩,
        ⟨"target-directory", 't', true, false⟩, ⟨"update", 'u', true, true⟩] }
  let given ← table.parse arguments
  let (sources, destination) ← splitOperands given false (given.has 'T')
  let keepsTargets := given.last? ['f', 'n', 'i'] = some 'n'
  forEach (fun source =>
    moveOne keepsTargets (given.has 'v') source (destination.targetOf (withoutSlashes source)))
    sources

/-- Remove a file, or a directory with everything below it. At most `fuel` levels are removed. -/
def removeOne (isForced isRecursive emptiesDirectories isVerbose : Bool) :
    (fuel : Nat) → String → Work Bool
  | 0, _ => return false
  | fuel + 1, path => do
    let cannot (error : FileError) : Work Bool :=
      failed ("cannot remove " ++ quoted path ++ ": " ++ error.reason)
    match ← nodeAt? path false with
    | .error error =>
      if isForced && (error = .notFound || error = .notADirectory) then return true
      else cannot error
    | .ok (_, .directory _) =>
      if isRecursive then
        let wasLinkedTo := path.toList.getLast? = some '/' &&
          ((← nodeAt? (withoutSlashes path) false) matches .ok (_, .link _))
        if wasLinkedTo then cannot .notADirectory
        else
          match ← perform (.list (Octets.toPath path)) with
          | .error error => cannot error
          | .ok names =>
            let status ← forEach (fun name =>
              removeOne isForced true emptiesDirectories isVerbose fuel (inDirectory path name))
              (names.map Octets.ofText)
            if status = 0 then discardDirectory cannot path else return false
      else if emptiesDirectories then discardDirectory cannot path
      else cannot .isADirectory
    | .ok _ =>
      match ← perform (.removeFile (Octets.toPath path)) with
      | .ok () =>
        if isVerbose then emitLine ("removed " ++ quoted path)
        return true
      | .error error => cannot error
where
  /-- Remove an empty directory. -/
  discardDirectory (cannot : FileError → Work Bool) (path : String) : Work Bool := do
    match ← Steps.call (.removeDirectory (Octets.toPath path)) with
    | .ok () =>
      if isVerbose then emitLine ("removed directory " ++ quoted path)
      return true
    | .error error => cannot error

/-- Remove files. -/
def removeFiles : Utility := fun arguments => do
  let table : OptionTable :=
    { letters := "dfiIrRv"
      long := [⟨"recursive", 'r', false, false⟩, ⟨"force", 'f', false, false⟩,
        ⟨"verbose", 'v', false, false⟩, ⟨"dir", 'd', false, false⟩] }
  let given ← table.parse arguments
  let isForced := given.has 'f'
  let isRecursive := given.has 'r' || given.has 'R'
  if given.operands.isEmpty then
    if isForced then return 0 else giveUpUsage 1 "missing operand"
  forEach (fun path => do
    let last := lastName path
    if isRecursive && (last = "." || last = "..") then
      failed ("refusing to remove '.' or '..' directory: skipping " ++ quoted path)
    else if isRecursive && withoutSlashes path = "/" then
      complain "it is dangerous to operate recursively on '/'"
      failed "use --no-preserve-root to override this failsafe"
    else removeOne isForced isRecursive (given.has 'd') (given.has 'v') depthLimit path)
    given.operands

/-- Remove an empty directory, and those above it in its path if they are to be removed too. -/
def removeDirectoryAt (alsoAbove isVerbose toleratesEntries : Bool) :
    (fuel : Nat) → String → Work Bool
  | 0, _ => return true
  | fuel + 1, path => do
    if isVerbose then emitLine ("rmdir: removing directory, " ++ quoted path)
    match ← Steps.call (.removeDirectory (Octets.toPath path)) with
    | .error error =>
      if toleratesEntries && error = .directoryNotEmpty then return true
      else failed ("failed to remove " ++ quoted path ++ ": " ++ error.reason)
    | .ok () =>
      if alsoAbove then
        match (Octets.toPath (withoutSlashes path)).parent? with
        | some above =>
          if above.text.isEmpty || above.text = "/" then return true
          else
            removeDirectoryAt alsoAbove isVerbose toleratesEntries fuel (Octets.ofText above.text)
        | none => return true
      else return true

/-- Remove empty directories. -/
def removeDirectories : Utility := fun arguments => do
  let table : OptionTable :=
    { letters := "pv"
      long := [⟨"parents", 'p', false, false⟩, ⟨"verbose", 'v', false, false⟩,
        ⟨"ignore-fail-on-non-empty", 'I', false, false⟩] }
  let given ← table.parse arguments
  if given.operands.isEmpty then giveUpUsage 1 "missing operand"
  forEach (removeDirectoryAt (given.has 'p') (given.has 'v') (given.has 'I') depthLimit)
    given.operands

/-- Create a directory. -/
def makeDirectoryAt (isVerbose : Bool) (mode : Option Mode) (path : String) : Work Bool := do
  match ← perform (.makeDirectory (Octets.toPath path)) with
  | .ok () =>
    if let some mode := mode then discard (setMode path mode)
    if isVerbose then emitLine ("mkdir: created directory " ++ quoted path)
    return true
  | .error error => failed ("cannot create directory " ++ quoted path ++ ": " ++ error.reason)

/-- The paths of the directories on the way to a directory, and its own. -/
def pathsTo (path : String) : List String :=
  let absolute := path.toList.head? = some '/'
  let names := (Octets.toPath path).names.map Octets.ofText
  (List.range names.length).map fun n =>
    (if absolute then "/" else "") ++ "/".intercalate (names.take (n + 1))

/-- Create the directories that are missing on the way to a directory, and the directory itself. -/
def makeDirectoriesTo (isVerbose : Bool) (mode : Option Mode) (path : String) :
    List String → Work Bool
  | [] => return true
  | here :: rest => do
    if ← isDirectory here then makeDirectoriesTo isVerbose mode path rest
    else
      match ← nodeAt? here true with
      | .ok _ =>
        let reason := if rest.isEmpty then FileError.alreadyExists else .notADirectory
        failed ("cannot create directory " ++ quoted here ++ ": " ++ reason.reason)
      | .error _ =>
        if ← makeDirectoryAt isVerbose (if rest.isEmpty then mode else none) here then
          makeDirectoriesTo isVerbose mode path rest
        else return false

/-- Create directories. -/
def makeDirectories : Utility := fun arguments => do
  let table : OptionTable :=
    { letters := "m:pvZ"
      long := [⟨"parents", 'p', false, false⟩, ⟨"verbose", 'v', false, false⟩,
        ⟨"mode", 'm', true, false⟩] }
  let given ← table.parse arguments
  if given.operands.isEmpty then giveUpUsage 1 "missing operand"
  let mode ←
    match given.value? 'm' with
    | none => pure none
    | some text =>
      match Mode.change? 0 true 0o777 text with
      | some mode => pure (some mode)
      | none => giveUp 1 ("invalid mode " ++ cited text)
  forEach (fun path =>
    if given.has 'p' then makeDirectoriesTo (given.has 'v') mode path (pathsTo path)
    else makeDirectoryAt (given.has 'v') mode path) given.operands

/-- Create a link to a file. Where links are hard, the file is copied. -/
def makeLinkAt (isSymbolic isForced isVerbose : Bool) (source target : String) : Work Bool := do
  if !isSymbolic && (← isDirectory source) then
    failed (shown source ++ ": hard link not allowed for directory")
  else
    let content : Except FileError Content ←
      if isSymbolic then pure (.ok Content.empty) else perform (.read (Octets.toPath source))
    match content with
    | .error error => failed ("failed to access " ++ quoted source ++ ": " ++ error.reason)
    | .ok content =>
      let exists? ← nodeAt? target false
      if isForced && (exists? matches .ok _) then
        discard (perform (.removeFile (Octets.toPath target)))
      let made ←
        if isSymbolic then Steps.call (.makeLink (Octets.toPath source) (Octets.toPath target))
        else
          match ← nodeAt? target false with
          | .ok _ => pure (.error FileError.alreadyExists)
          | .error _ => perform (.write (Octets.toPath target) content)
      match made with
      | .ok () =>
        if isVerbose then
          emitLine (quoted target ++ (if isSymbolic then " -> " else " => ") ++ quoted source)
        return true
      | .error error =>
        let kind := if isSymbolic then "symbolic" else "hard"
        failed ("failed to create " ++ kind ++ " link " ++ quoted target ++ ": " ++ error.reason)

/-- The path that leads from one location to another. -/
def relativePath (start target : Location) : String :=
  let shared := ((start.zip target).takeWhile fun pair => pair.1 = pair.2).length
  let up := List.replicate (start.length - shared) ".."
  let names := up ++ target.drop shared
  if names.isEmpty then "." else Octets.ofText ("/".intercalate names)

/-- Create links. -/
def makeLinks : Utility := fun arguments => do
  let table : OptionTable :=
    { letters := "bdfFinrsLPt:Tv"
      long := [⟨"symbolic", 's', false, false⟩, ⟨"force", 'f', false, false⟩,
        ⟨"verbose", 'v', false, false⟩, ⟨"no-dereference", 'n', false, false⟩,
        ⟨"relative", 'r', false, false⟩, ⟨"no-target-directory", 'T', false, false⟩,
        ⟨"target-directory", 't', true, false⟩] }
  let given ← table.parse arguments
  let link (source target : String) : Work Bool := do
    let text ←
      if given.has 'r' then do
        let above := ((Octets.toPath target).parent?.map (·.text)).getD ""
        match ← nodeAt? source true, ← nodeAt? (if above.isEmpty then "." else above) true with
        | .ok (place, _), .ok (start, _) => pure (relativePath start place)
        | _, _ => pure source
      else pure source
    makeLinkAt (given.has 's') (given.has 'f') (given.has 'v') text target
  match given.operands, given.value? 't' with
  | [], _ => giveUpUsage 1 "missing file operand"
  | sources, some directory =>
    forEach (fun source => link source (inDirectory directory (lastName source))) sources
  | [source], none => forEach (fun source => link source (lastName source)) [source]
  | operands, none =>
    let target := operands.getLastD ""
    let isLink := (← nodeAt? target false) matches .ok (_, .link _)
    if (← isDirectory target) && !(given.has 'n' && isLink) && !given.has 'T' then
      forEach (fun source => link source (inDirectory target (lastName source)))
        operands.dropLast
    else
      match operands with
      | [source, _] => forEach (fun source => link source target) [source]
      | _ => giveUp 1 ("target " ++ quoted target ++ ": No such file or directory")

/-- Create files that do not exist. -/
def touchFiles : Utility := fun arguments => do
  let table : OptionTable :=
    { letters := "acd:fhmr:t:"
      long := [⟨"no-create", 'c', false, false⟩, ⟨"date", 'd', true, false⟩,
        ⟨"reference", 'r', true, false⟩] }
  let given ← table.parse arguments
  if given.operands.isEmpty then giveUpUsage 1 "missing file operand"
  forEach (fun path => do
    match ← nodeAt? path true with
    | .ok _ => return true
    | .error error =>
      if error = .notFound && given.has 'c' then return true
      else if path.toList.getLast? = some '/' && error = .notFound then
        failed ("setting times of " ++ quoted path ++ ": " ++ error.reason)
      else if error ≠ .notFound then
        failed ("cannot touch " ++ quoted path ++ ": " ++ error.reason)
      else
        match ← Steps.call (.openFile (Octets.toPath path) .append) with
        | .ok descriptor =>
          Steps.call (.close descriptor)
          return true
        | .error error => failed ("cannot touch " ++ quoted path ++ ": " ++ error.reason))
    given.operands

/-- Set the permission bits of a file, and of everything below it if that is wanted. At most `fuel`
levels are dealt with. -/
def setModeBelow (change : Mode → Bool → Option Mode) (isRecursive : Bool)
    (tell : String → Mode → Mode → Work Unit) : (fuel : Nat) → (isTop : Bool) → String → Work Bool
  | 0, _, _ => return true
  | fuel + 1, isTop, path => do
    let below : Work Bool := do
      if isRecursive then
        match ← perform (.list (Octets.toPath path)) with
        | .ok names =>
          let status ← forEach (fun name =>
            setModeBelow change isRecursive tell fuel false (inDirectory path name))
            (names.map Octets.ofText)
          return status = 0
        | .error error =>
          failed ("cannot read directory " ++ quoted path ++ ": " ++ error.reason)
      else return true
    let settle (mode : Mode) (isDirectory : Bool) : Work Bool := do
      let wanted := (change mode isDirectory).getD mode
      match ← setMode path wanted with
      | .error error =>
        failed ("changing permissions of " ++ quoted path ++ ": " ++ error.reason)
      | .ok () =>
        tell path mode wanted
        return true
    match ← nodeAt? path false with
    | .ok (_, .link _) =>
      if isTop then
        match ← nodeAt? path true with
        | .ok (_, .file mode _) => settle mode false
        | .ok (_, .directory mode) => settle mode true
        | .ok _ => return true
        | .error .notFound => failed ("cannot operate on dangling symlink " ++ quoted path)
        | .error error => failed ("cannot access " ++ quoted path ++ ": " ++ error.reason)
      else return true
    | .ok (_, .file mode _) => settle mode false
    | .ok (_, .directory mode) =>
      let isSettled ← settle mode true
      let isDone ← below
      return isSettled && isDone
    | .error error => failed ("cannot access " ++ quoted path ++ ": " ++ error.reason)

/-- Permission bits with four octal digits and in letters. -/
def describeMode (mode : Mode) : String :=
  String.ofList (Text.padStart '0' 4 mode.octal.toList) ++ " (" ++ mode.letters ++ ")"

/-- Set permission bits. -/
def setPermissions : Utility := fun arguments => do
  let isClause (text : String) : Bool :=
    match text.toList with
    | '-' :: c :: rest => (c :: rest).all fun c => c ∈ "rwxXstugo,+-=".toList
    | _ => false
  let clauses := arguments.filter isClause
  let others := arguments.filter (!isClause ·)
  let table : OptionTable :=
    { letters := "Rcfv"
      long := [⟨"recursive", 'R', false, false⟩, ⟨"verbose", 'v', false, false⟩,
        ⟨"changes", 'c', false, false⟩, ⟨"reference", 'e', true, false⟩,
        ⟨"silent", 'f', false, false⟩, ⟨"quiet", 'f', false, false⟩] }
  let given ← table.parse others
  let tell (path : String) (old new : Mode) : Work Unit := do
    if old = new then
      if given.has 'v' then
        emitLine ("mode of " ++ quoted path ++ " retained as " ++ describeMode old)
    else if given.has 'v' || given.has 'c' then
      emitLine ("mode of " ++ quoted path ++ " changed from " ++ describeMode old ++ " to " ++
        describeMode new)
  let apply (change : Mode → Bool → Option Mode) (paths : List String) : Work Nat :=
    forEach (setModeBelow change (given.has 'R') tell depthLimit true) paths
  match given.value? 'e', clauses, given.operands with
  | some reference, _, paths =>
    match ← modeAt? reference with
    | some mode => apply (fun _ _ => some mode) paths
    | none =>
      giveUp 1 ("failed to get attributes of " ++ quoted reference ++
        ": No such file or directory")
  | none, [], [] => giveUpUsage 1 "missing operand"
  | none, [], [text] => giveUpUsage 1 ("missing operand after " ++ cited text)
  | none, clause :: _, [] => giveUpUsage 1 ("missing operand after " ++ cited clause)
  | none, clauses, operands =>
    let (text, paths) : String × List String :=
      if clauses.isEmpty then (operands.headD "", operands.tail)
      else (",".intercalate clauses, operands)
    let mask : Mode ← Steps.call (.mask none)
    if (Mode.change? mask false 0 text).isNone then
      giveUpUsage 1 ("invalid mode: " ++ cited text)
    apply (fun mode isDirectory => Mode.change? mask isDirectory mode text) paths

/-- Copy files and set their permission bits, or create directories. -/
def installFiles : Utility := fun arguments => do
  let table : OptionTable :=
    { letters := "bcCdDg:m:o:pst:Tv"
      long := [⟨"mode", 'm', true, false⟩, ⟨"directory", 'd', false, false⟩,
        ⟨"verbose", 'v', false, false⟩, ⟨"target-directory", 't', true, false⟩] }
  let given ← table.parse arguments
  let mode := ((given.value? 'm').bind (Mode.change? 0 false 0)).getD 0o755
  if given.has 'd' then
    forEach (fun path => makeDirectoriesTo (given.has 'v') (some mode) path (pathsTo path))
      given.operands
  else
    let (sources, destination) ← splitOperands given false (given.has 'T')
    forEach (fun source => do
      let target := destination.targetOf source
      if given.has 'D' then
        discard (makeDirectoriesTo false none target (pathsTo target).dropLast)
      let isCopied ← copyOne {} 1 true source target
      if isCopied then discard (setMode target mode)
      return isCopied) sources

/-- Create a file or a directory with a name that is not in use. The name is chosen by a number for
which there are at most `fuel` tries. -/
def makeTemporaryAt (isDirectory isDry : Bool) (front : String) (width : Nat) (behind : String) :
    (fuel number : Nat) → Work Nat
  | 0, _ => giveUp 1 "failed to create file"
  | fuel + 1, number => do
    let digits := String.ofList (Text.padStart 'A' width (Nat.toDigits 36 number))
    let path := front ++ digits ++ behind
    match ← nodeAt? path false with
    | .ok _ => makeTemporaryAt isDirectory isDry front width behind fuel (number + 1)
    | .error _ =>
      let made ←
        if isDry then pure (.ok ())
        else if isDirectory then perform (.makeDirectory (Octets.toPath path))
        else perform (.write (Octets.toPath path) Content.empty)
      match made with
      | .ok () =>
        unless isDry do discard (setMode path (if isDirectory then 0o700 else 0o600))
        emitLine path
        return 0
      | .error error =>
        let kind := if isDirectory then "directory" else "file"
        giveUp 1 ("failed to create " ++ kind ++ " via template " ++
          quoted (front ++ String.ofList (List.replicate width 'X') ++ behind) ++ ": " ++
          error.reason)

/-- Create a file or a directory with a new name. -/
def makeTemporary : Utility := fun arguments => do
  let table : OptionTable :=
    { letters := "dp:qtu"
      long := [⟨"directory", 'd', false, false⟩, ⟨"dry-run", 'u', false, false⟩,
        ⟨"tmpdir", 'p', true, true⟩, ⟨"suffix", 'S', true, false⟩] }
  let given ← table.parse arguments
  let usual := (((← get).environment.lookup "TMPDIR").getD "/tmp")
  let template := given.operands.headD "tmp.XXXXXXXXXX"
  let isNamed := !given.operands.isEmpty && !given.has 'p' && !given.has 't'
  let directory := ((given.value? 'p').getD usual)
  let full := if isNamed then template else inDirectory directory template
  let reversed := full.toList.reverse
  let behind := (reversed.takeWhile (· ≠ 'X')).reverse
  let marks := (reversed.dropWhile (· ≠ 'X')).takeWhile (· = 'X')
  let front := full.toList.take (full.length - behind.length - marks.length)
  if marks.length < 3 then giveUp 1 ("too few X's in template " ++ cited template)
  makeTemporaryAt (given.has 'd') (given.has 'u') (String.ofList front) marks.length
    (String.ofList behind ++ (given.value? 'S').getD "") 100000 46655

/-- Give files a size. -/
def truncateFiles : Utility := fun arguments => do
  let table : OptionTable :=
    { letters := "cor:s:", long := [⟨"size", 's', true, false⟩, ⟨"no-create", 'c', false, false⟩] }
  let given ← table.parse arguments
  match (given.value? 's').bind String.toNat? with
  | none => giveUpUsage 1 "you must specify either '--size' or '--reference'"
  | some size =>
    forEach (fun path => do
      let old ← perform (.read (Octets.toPath path))
      let bytes := (old.toOption.map Content.toBytes).getD ByteArray.empty
      let sized := bytes.extract 0 size ++ ⟨Array.replicate (size - bytes.size) 0⟩
      match ← perform (.write (Octets.toPath path) (.bytes sized)) with
      | .ok () => return true
      | .error error =>
        failed ("cannot open " ++ quoted path ++ " for writing: " ++ error.reason))
      given.operands

end SketchApk.Utility
